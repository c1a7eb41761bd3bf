import Agentd.CanonizedRecords
import Agentd.ProcessQueueRuns

/-! # When a block is accepted

The converse of what `block_make` leaves behind. A block whose certificate fits the end of the chain
goes through exactly when its wrapped transactions can leave the queue one after the other: each has
its four fields, is queued, is not canonized yet and names no previous transaction, itself, or one
that is canonized by then. -/
namespace BlockAcceptance

open ByteString
open CertificateFields
open FaultyTransactions
open DataserviceRecords
open DataserviceStore
open DataserviceQueue
open DataserviceBlocks
open DataserviceRequests
open DataserviceEffects
open ProcessQueueRefinement
open ProcessQueueRuns
open BlockchainInvariant
open CanonizedRecords

/-! ### Wrapped transactions -/

section Children

variable {f : FaultPattern} {v w : Store} {E : Env} {height : BitVec 64} {blockId : Uuid}
  {cert : Bytes} {c : ChildFields}

theorem blockMakeChildFields_yields {fs : List (CertField × Bytes)} (hfind : FindWorks f)
    (h : childFields fs = some c) : Yields (blockMakeChildFields fs) f v c v := by
  obtain ⟨id, hid, h⟩ := Option.bind_eq_some_iff.mp h
  obtain ⟨prev, hprev, h⟩ := Option.bind_eq_some_iff.mp h
  obtain ⟨artifact, hart, h⟩ := Option.bind_eq_some_iff.mp h
  obtain ⟨state, hstate, h⟩ := Option.bind_eq_some_iff.mp h
  cases h
  refine (findSized_yields hfind hid).bind ?_
  refine (findSized_yields hfind hprev).bind ?_
  refine (findSized_yields hfind hart).bind ?_
  exact (findSized_yields hfind hstate).bind (Yields.pure _ f v)

theorem blockMakeLinkPrevTxn_yields {txn' : Uuid → Option Bytes} (hf : LmdbWorks f)
    (ha : AllocWorks f)
    (h : (c.prevTransactionId = zeroUuid ∧ txn' = v.txnDb) ∨
      (c.prevTransactionId ≠ zeroUuid ∧ ∃ b, v.txnDb c.prevTransactionId = some b ∧
        sizeofTransactionNode ≤ b.length ∧ txn' = Function.update v.txnDb c.prevTransactionId
          (some (setNext b c.transactionId)))) :
    Yields (blockMakeLinkPrevTxn c) f v () { v with txnDb := txn' } := by
  unfold blockMakeLinkPrevTxn
  rcases h with ⟨hz, rfl⟩ | ⟨hz, b, hb, hl, rfl⟩
  · rw [if_pos hz]
    exact Yields.pure () f v
  · rw [if_neg hz]
    refine (getNodeOrFail_yields hf hb hl).bind ?_
    exact (malloc_yields ha).bind (putOrFail_yields hf (by simp))

theorem blockMakeUpdateArtifact_yields {art' : Uuid → Option Bytes} (hf : LmdbWorks f)
    (h : ArtifactUpdated height c v.artifactDb art') :
    Yields (blockMakeUpdateArtifact c.artifactId c.transactionId height c.state) f v ()
      { v with artifactDb := art' } := by
  have hg := mdbGet_yields hf artifactDb c.artifactId v
  rcases h with ⟨hnone, rfl⟩ | ⟨b, hb, hl, rfl⟩
  · simp only [show artifactDb.read v c.artifactId = none from hnone] at hg
    exact hg.bind (putOrFail_yields hf fun _ => hnone)
  · simp only [show artifactDb.read v c.artifactId = some b from hb] at hg
    refine hg.bind ?_
    refine (Yields.reject (not_not.mpr hl) _ f v).bind ?_
    exact putOrFail_yields hf (by simp)

theorem blockMakeProcessChild_yields (hf : LmdbWorks f) (ha : AllocWorks f) (hfind : FindWorks f)
    (h : ChildEffect E height blockId cert c v w) :
    Yields (blockMakeProcessChild E height blockId cert) f v () w := by
  obtain ⟨fs, hfs, hfields⟩ := Option.bind_eq_some_iff.mp h.fields
  have hw : w = { v with txnDb := w.txnDb, pqDb := w.pqDb, artifactDb := w.artifactDb } := by
    obtain ⟨_, _, _, _, _, _⟩ := w
    simp only [Store.mk.injEq, true_and]
    exact ⟨h.global, h.block, h.height⟩
  refine (parserInit_yields ha hfs).bind (Yields.finally' ?_ (Yields.note _ f w))
  refine (blockMakeChildFields_yields hfind hfields).bind ?_
  refine (malloc_yields ha).bind ((putOrFail_yields hf fun _ => h.txn.1).bind ?_)
  have hdrop : Yields (transactionDropNested c.transactionId) f
      (txnDb.write v c.transactionId (some ((canonizedNode blockId cert c).encode ++ cert))) ()
      { v with txnDb := entered blockId cert c v.txnDb, pqDb := w.pqDb } :=
    (Yields.reject (not_or.mpr h.not_sentinel) _ f _).bind (transactionDropBody_yields hf ha h.pq)
  refine hdrop.bind ?_
  refine (blockMakeLinkPrevTxn_yields hf ha h.txn.2).bind ?_
  rw [hw]
  exact blockMakeUpdateArtifact_yields hf h.artifact

theorem blockMakeProcessChildren_yields (hf : LmdbWorks f) (ha : AllocWorks f)
    (hfind : FindWorks f) {rest : List Bytes} {cs : List (Bytes × ChildFields)}
    (h : Canonized E height blockId cs v w) (hcs : cs.map Prod.fst = cert :: rest) :
    Yields (blockMakeProcessChildren E height blockId cert rest) f v () w := by
  induction rest generalizing v cert cs with
  | nil =>
    cases h with
    | nil v => cases hcs
    | cons first hrest =>
      obtain ⟨rfl, hnil⟩ := List.cons.inj hcs
      rw [List.map_eq_nil_iff.mp hnil] at hrest
      cases hrest
      exact blockMakeProcessChild_yields hf ha hfind first
  | cons next rest ih =>
    cases h with
    | nil v => cases hcs
    | cons first hrest =>
      obtain ⟨rfl, hmap⟩ := List.cons.inj hcs
      refine (blockMakeProcessChild_yields hf ha hfind first).bind ?_
      exact (Yields.attempt hfind _).bind (ih hrest hmap)

end Children

/-! ### Which transactions can be wrapped -/

/-- Ids are compared as a whole. -/
local instance uuid_lawful : LawfulBEq Uuid := inferInstance

/-- Whether certificates can be canonized one after the other, given the ids that are queued and
those that are canonized. -/
def accepts (E : Env) : List Uuid → (Uuid → Bool) → List Bytes → Bool
  | _, _, [] => true
  | queued, known, cert :: certs =>
    match certChild E cert with
    | none => false
    | some c =>
      decide (c.transactionId ∈ queued) && !known c.transactionId &&
        (c.prevTransactionId == zeroUuid || c.prevTransactionId == c.transactionId ||
          known c.prevTransactionId) &&
        accepts E (queued.filter (· ≠ c.transactionId))
          (Function.update known c.transactionId true) certs

def keys (db : Uuid → Option Bytes) : Uuid → Bool := fun k => (db k).isSome

def ArtifactRecords (art : Uuid → Option Bytes) : Prop :=
  ∀ k b, art k = some b → b.length = sizeofArtifactRecord

theorem length_setArtifactLatest {b : Bytes} (h : b.length = sizeofArtifactRecord) (txnId : Uuid)
    (height : BitVec 64) (state : BitVec 32) :
    (setArtifactLatest b txnId height state).length = sizeofArtifactRecord := by
  have hsize : sizeofArtifactRecord = 72 := rfl
  have hput : ∀ {b : Bytes} {off n w : ℕ} (x : BitVec w), b.length = sizeofArtifactRecord →
      off + n ≤ 72 → (overwrite b off (be n x)).length = sizeofArtifactRecord := by
    intro b off n w x hb hoff
    rw [length_overwrite _ _ _ (by rw [length_be]; omega), hb]
  exact hput state (hput height (hput txnId h (by decide)) (by decide)) (by decide)

theorem ArtifactRecords.updated {art art' : Uuid → Option Bytes} {height : BitVec 64}
    {c : ChildFields} (h : ArtifactRecords art) (hu : ArtifactUpdated height c art art') :
    ArtifactRecords art' := by
  have hput : ∀ {k : Uuid} {b : Bytes}, b.length = sizeofArtifactRecord →
      ArtifactRecords (Function.update art k (some b)) := by
    intro k b hb k' b' hb'
    by_cases hk : k' = k
    · rw [hk, Function.update_self] at hb'
      rw [← Option.some.inj hb', hb]
    · rw [Function.update_of_ne hk] at hb'
      exact h k' b' hb'
  rcases hu with ⟨-, rfl⟩ | ⟨b, -, hb, rfl⟩
  · exact hput (DataArtifactRecord.length_encode _)
  · exact hput (length_setArtifactLatest hb _ _ _)

theorem exists_artifactUpdated {art : Uuid → Option Bytes} (h : ArtifactRecords art)
    (height : BitVec 64) (c : ChildFields) : ∃ art', ArtifactUpdated height c art art' := by
  cases hart : art c.artifactId with
  | none => exact ⟨_, Or.inl ⟨hart, rfl⟩⟩
  | some b => exact ⟨_, Or.inr ⟨b, hart, h _ b hart, rfl⟩⟩

section Accepts

variable {E : Env} {height : BitVec 64} {blockId : Uuid} {v w : Store} {q : List Entry}
  {cert : Bytes} {c : ChildFields}

theorem keys_entered {txn txn' : Uuid → Option Bytes} (h : TxnEntered blockId cert c txn txn') :
    keys txn' = Function.update (keys txn) c.transactionId true := by
  obtain ⟨-, ⟨-, rfl⟩ | ⟨-, b, hb, -, rfl⟩⟩ := h
  · funext k
    by_cases hk : k = c.transactionId
    · simp [keys, entered, hk]
    · simp [keys, entered, hk]
  · funext k
    by_cases hk : k = c.transactionId
    · subst hk
      by_cases hp : c.transactionId = c.prevTransactionId
      · simp [keys, ← hp]
      · simp [keys, entered, hp]
    · by_cases hp : k = c.prevTransactionId
      · rw [entered, ← hp, Function.update_of_ne hk] at hb
        simp [keys, ← hp, hk, hb]
      · simp [keys, entered, hk, hp]

theorem exists_txnEntered {txn : Uuid → Option Bytes} (h : TxnRecords txn) (blockId : Uuid)
    (cert : Bytes) (hnew : keys txn c.transactionId = false)
    (hprev : c.prevTransactionId = zeroUuid ∨ c.prevTransactionId = c.transactionId ∨
      keys txn c.prevTransactionId = true) : ∃ txn', TxnEntered blockId cert c txn txn' := by
  have hfree : txn c.transactionId = none := by simpa [keys] using hnew
  by_cases hz : c.prevTransactionId = zeroUuid
  · exact ⟨_, hfree, Or.inl ⟨hz, rfl⟩⟩
  by_cases hself : c.prevTransactionId = c.transactionId
  · refine ⟨_, hfree, Or.inr ⟨hz, (canonizedNode blockId cert c).encode ++ cert, ?_, by simp, rfl⟩⟩
    rw [hself, entered, Function.update_self]
  · have hknown : keys txn c.prevTransactionId = true := by
      rcases hprev with h | h | h
      · exact (hz h).elim
      · exact (hself h).elim
      · exact h
    obtain ⟨b, hb⟩ := Option.isSome_iff_exists.mp hknown
    refine ⟨_, hfree, Or.inr ⟨hz, b, ?_, h.sized _ b hb, rfl⟩⟩
    rw [entered, Function.update_of_ne hself, hb]

theorem ids_withoutId (txnId : Uuid) (q : List Entry) :
    ids (withoutId txnId q) = (ids q).filter (· ≠ txnId) := by
  rw [ids, ids, withoutId, List.filter_map]
  rfl

theorem accepts_cons {queued : List Uuid} {known : Uuid → Bool} {certs : List Bytes} :
    accepts E queued known (cert :: certs) = true ↔ ∃ c, certChild E cert = some c ∧
      c.transactionId ∈ queued ∧ known c.transactionId = false ∧
      (c.prevTransactionId = zeroUuid ∨ c.prevTransactionId = c.transactionId ∨
        known c.prevTransactionId = true) ∧
      accepts E (queued.filter (· ≠ c.transactionId))
        (Function.update known c.transactionId true) certs = true := by
  rw [accepts]
  cases hc : certChild E cert with
  | none => simp
  | some c => simp [and_assoc, or_assoc]

/-- What was canonized could be. -/
theorem accepts_of_canonized {cs : List (Bytes × ChildFields)}
    (h : Canonized E height blockId cs v w) (hq : Represents v.pqDb q) :
    accepts E (ids q) (keys v.txnDb) (cs.map Prod.fst) = true := by
  induction h generalizing q with
  | nil v => rfl
  | @cons v u w cert c cs first rest ih =>
    obtain ⟨hmem, hu⟩ := hq.drop first.not_sentinel.1 first.not_sentinel.2 first.pq
    rw [List.map_cons, accepts_cons]
    refine ⟨c, first.fields, hmem, by simp [keys, first.txn.1], ?_, ?_⟩
    · obtain ⟨-, ⟨hz, -⟩ | ⟨-, b, hb, -⟩⟩ := first.txn
      · exact Or.inl hz
      · by_cases hself : c.prevTransactionId = c.transactionId
        · exact Or.inr (Or.inl hself)
        · rw [entered, Function.update_of_ne hself] at hb
          exact Or.inr (Or.inr (by simp [keys, hb]))
    · rw [← ids_withoutId, ← keys_entered first.txn]
      exact ih hu

/-- What can be canonized is. -/
theorem exists_canonized {certs : List Bytes} (height : BitVec 64) (blockId : Uuid)
    (hq : Represents v.pqDb q) (ht : TxnRecords v.txnDb) (ha : ArtifactRecords v.artifactDb)
    (h : accepts E (ids q) (keys v.txnDb) certs = true) :
    ∃ cs w, Canonized E height blockId cs v w ∧ cs.map Prod.fst = certs := by
  induction certs generalizing v q with
  | nil => exact ⟨[], v, .nil v, rfl⟩
  | cons cert certs ih =>
    obtain ⟨c, hc, hmem, hnew, hprev, hrest⟩ := accepts_cons.mp h
    obtain ⟨pq', hdrop⟩ := exists_dropped hq hmem
    obtain ⟨txn', htxn⟩ := exists_txnEntered ht blockId cert hnew hprev
    obtain ⟨art', hart⟩ := exists_artifactUpdated ha height c
    have hsent := mem_ids_ne hq hmem
    have hfirst : ChildEffect E height blockId cert c v
        { v with txnDb := txn', pqDb := pq', artifactDb := art' } :=
      ⟨hc, hsent, htxn, hdrop, hart, rfl, rfl, rfl⟩
    rw [← ids_withoutId, ← keys_entered htxn] at hrest
    obtain ⟨cs, w, hcs, hmap⟩ := ih (v := { v with txnDb := txn', pqDb := pq', artifactDb := art' })
      (hq.drop hsent.1 hsent.2 hdrop).2 (ht.child hsent htxn) (ha.updated hart) hrest
    exact ⟨(cert, c) :: cs, w, .cons hfirst hcs, by simp [hmap]⟩

end Accepts

/-! ### The block -/

section Blocks

variable {f : FaultPattern} {v w : Store} {E : Env} {fs : List (CertField × Bytes)}
  {blockId : Uuid} {blockData : Bytes} {firstId : Uuid} {blk : Uuid → Option Bytes}

theorem queryEndNode_yields (hf : LmdbWorks f)
    (hl : ∀ e, v.blockDb ffUuid = some e → sizeofBlockNode ≤ e.length) :
    Yields queryEndNode f v (v.blockDb ffUuid) v := by
  have hg := mdbGet_yields hf blockDb ffUuid v
  cases he : v.blockDb ffUuid with
  | none =>
    simp only [show blockDb.read v ffUuid = none from he] at hg
    exact hg.bind (Yields.pure _ f v)
  | some e =>
    simp only [show blockDb.read v ffUuid = some e from he] at hg
    refine hg.bind ?_
    exact (Yields.reject (not_lt.mpr (hl e he)) _ f v).bind (Yields.pure _ f v)

/-- The three checks of the block certificate. -/
theorem checks_yield {endNode : Option Bytes} (hfind : FindWorks f)
    (h : BlockChecked E fs blockId endNode) :
    Yields (constraintMatchingBlockHeight fs endNode) f v (expectedBlockHeight endNode) v ∧
    Yields (constraintMatchingPrevUuid E fs endNode) f v (expectedPrevBlockId E endNode) v ∧
    Yields (constraintSaneBlockUuid E fs blockId) f v () v := by
  obtain ⟨height, hheight, hheight'⟩ := Option.map_eq_some_iff.mp h.height
  obtain ⟨prev, hprev, hprev'⟩ := Option.map_eq_some_iff.mp h.prev
  obtain ⟨uuid, huuid, huuid'⟩ := Option.map_eq_some_iff.mp h.uuid
  obtain ⟨hroot, hzero, hff⟩ := h.not_reserved
  refine ⟨?_, ?_, ?_⟩
  · refine (findSized_yields hfind hheight).bind ?_
    exact (Yields.reject (not_not.mpr hheight') _ f v).bind (Yields.pure _ f v)
  · refine (findSized_yields hfind hprev).bind ?_
    rw [← hprev']
    exact (Yields.reject (not_not.mpr rfl) _ f v).bind (Yields.pure _ f v)
  · refine (findSized_yields hfind huuid).bind ?_
    refine (Yields.reject (not_not.mpr huuid'.symm) _ f v).bind ?_
    refine (Yields.reject hroot _ f v).bind ?_
    exact (Yields.reject hzero _ f v).bind (Yields.reject hff _ f v)

theorem makeBlockGetFirstTransactionId_yields {cert : Bytes} (ha : AllocWorks f)
    (hfind : FindWorks f) (h : firstTransactionId E cert = some firstId) :
    Yields (makeBlockGetFirstTransactionId E cert) f v firstId v := by
  obtain ⟨raw, hraw, rfl⟩ := Option.map_eq_some_iff.mp h
  obtain ⟨fs, hfs, hfield⟩ := Option.bind_eq_some_iff.mp hraw
  refine (parserInit_yields ha hfs).bind ?_
  exact ((findSized_yields hfind hfield).finally' (Yields.note _ f v)).bind (Yields.pure _ f v)

theorem makeBlockInsertBlock_yields {prev : Uuid} {height : BitVec 64} (hf : LmdbWorks f)
    (ha : AllocWorks f) (hfree : v.blockDb blockId = none) (hheight : v.heightDb height = none) :
    Yields (makeBlockInsertBlock blockId prev firstId height blockData) f v ()
      { v with
        blockDb := Function.update v.blockDb blockId
          (some ((⟨blockId, prev, ffUuid, firstId, height,
          BitVec.ofNat 64 blockData.length⟩ : DataBlockNode).encode ++ blockData))
        heightDb := Function.update v.heightDb height (some (be 16 blockId)) } := by
  refine (malloc_yields ha).bind ((putOrFail_yields hf fun _ => hfree).bind ?_)
  exact putOrFail_yields hf fun _ => hheight

theorem blockMakeLink_yields {height : BitVec 64} {record : Bytes} {endNode : Option Bytes}
    {blk' : Uuid → Option Bytes} (hf : LmdbWorks f) (ha : AllocWorks f)
    (hv : v.blockDb = Function.update blk blockId (some record))
    (h : BlockLinked blockId height record endNode blk blk') :
    Yields (blockMakeLink blockId height endNode) f v () { v with blockDb := blk' } := by
  obtain ⟨-, h⟩ := h
  rw [← hv] at h
  cases endNode with
  | none =>
    cases h
    exact (putOrFail_yields hf (by simp)).bind (putOrFail_yields hf (by simp))
  | some e =>
    obtain ⟨b, hb, hs₁, hs₂, rfl⟩ := h
    have hb' : blockDb.read v (DataBlockNode.decode e).prev = some b := hb
    exact (updatePrevNext_yields (fun b => (DataBlockNode.decode b).netBlockCertSize) hf ha
      hb' hs₁ hs₂).bind (putOrFail_yields hf (by simp))

theorem blockMakeBody_yields {first : Bytes} {rest : List Bytes} {cs : List (Bytes × ChildFields)}
    (hf : LmdbWorks f) (ha : AllocWorks f) (hfind : FindWorks f)
    (hwrap : fieldValues fs .wrappedTransactionTuple = first :: rest)
    (hfirst : firstTransactionId E first = some firstId)
    (hins : BlockInserted E fs blockId blockData v firstId blk)
    (hcs : Canonized E (expectedBlockHeight (v.blockDb ffUuid)) blockId cs
      (withBlock blockId blk v) w) (hmap : cs.map Prod.fst = first :: rest) :
    Yields (blockMakeBody E fs blockId blockData) f v () w := by
  obtain ⟨hheight, hprev, hsane⟩ := checks_yield (v := v) hfind hins.checked
  refine (queryEndNode_yields hf hins.checked.end_length).bind ?_
  refine hheight.bind (hprev.bind (hsane.bind ?_))
  refine (Yields.require hfind _ v).bind ?_
  rw [hwrap]
  refine (makeBlockGetFirstTransactionId_yields ha hfind hfirst).bind ?_
  refine (makeBlockInsertBlock_yields hf ha hins.linked.1 hins.height_free).bind ?_
  refine (blockMakeLink_yields hf ha rfl hins.linked).bind ?_
  exact blockMakeProcessChildren_yields hf ha hfind hcs hmap

theorem blockMake_delivers {caps : Bitcap} (hcap : bitcapIsset caps .appBlockWrite = true)
    (hf : LmdbWorks f) (ha : AllocWorks f) (hfs : E.fields blockData = some fs)
    (h : Yields (blockMakeBody E fs blockId blockData) f v () w) :
    Delivers (blockMake E caps blockId blockData) f v [] () w := by
  apply authorize_delivers hcap
  apply Delivers.of_require ha.suiteInit
  apply Delivers.of_note
  apply Delivers.finally' _ (Quiet.note _)
  apply Delivers.of_require ha.parserOptionsInit
  apply Delivers.of_note
  refine Delivers.of_onFail (c := fs) (u := [])
    (fun m => ⟨⟨m.tick + 1, m.trace ++ [.acquired .parser]⟩, fun b => ?_⟩) ?_
  · simp [parserInit, Prog.require, Prog.attempt, Prog.run_bind, Prog.note, Metered.meter,
      Metered.withMeter, ha.parserInit, hfs]
  refine Delivers.of_onFail (c := ()) (u := [v])
    (fun m => ⟨⟨m.tick + 1, m.trace ++ [.begun]⟩, fun b => ?_⟩) ?_
  · simp [mdbTxnBegin, Prog.require, Prog.attempt, Prog.run_bind, Prog.txnBegin, Prog.note,
      Metered.meter, Metered.withMeter, hf.txnBegin]
  exact (abortOrCommit_delivers h).finally' ((Quiet.note _).seq (Quiet.note _))

end Blocks

/-! ### Block requests are defined

The one copy whose length is read from the store is that of the last block's record, and its header
describes it. -/

section Defined

variable {f : FaultPattern} {v : Store} {E : Env} {fs : List (CertField × Bytes)}
  {blockId : Uuid} {blockData : Bytes}

theorem findSized_safe (t : CertField) (size : ℕ) (missing : AgentdError) :
    Safe (findSized fs t size missing) f v := by
  apply (Safe.require _ _).bind
  intro _ w _
  cases (fieldValues fs t).head? with
  | none => exact Safe.fail _
  | some b =>
    apply (Safe.reject _ _).bind
    intro _ w _
    exact Safe.pure _

theorem parserInit_safe (cert : Bytes) : Safe (parserInit E cert) f v := by
  apply (Safe.require _ _).bind
  intro _ w _
  cases E.fields cert with
  | none => exact Safe.fail _
  | some fs => exact (Safe.note _).bind fun _ w _ => Safe.pure _

theorem queryEndNode_safe : Safe queryEndNode f v := by
  apply mdbGet_safe.bind
  intro r w _
  cases r with
  | notFound => exact Safe.pure _
  | error => exact Safe.fail _
  | found b =>
    apply (Safe.reject _ _).bind
    intro _ w _
    exact Safe.pure _

variable (E blockId) in
theorem constraints_safe (endNode : Option Bytes) :
    Safe (constraintMatchingBlockHeight fs endNode) f v ∧
    Safe (constraintMatchingPrevUuid E fs endNode) f v ∧
    Safe (constraintSaneBlockUuid E fs blockId) f v := by
  refine ⟨?_, ?_, ?_⟩
  · apply (findSized_safe _ _ _).bind
    intro _ w _
    exact (Safe.reject _ _).bind fun _ w _ => Safe.pure _
  · apply (findSized_safe _ _ _).bind
    intro _ w _
    exact (Safe.reject _ _).bind fun _ w _ => Safe.pure _
  · apply (findSized_safe _ _ _).bind
    intro _ w _
    apply (Safe.reject _ _).bind
    intro _ w _
    apply (Safe.reject _ _).bind
    intro _ w _
    exact (Safe.reject _ _).bind fun _ w _ => Safe.reject _ _

theorem makeBlockGetFirstTransactionId_safe (cert : Bytes) :
    Safe (makeBlockGetFirstTransactionId E cert) f v := by
  apply (parserInit_safe cert).bind
  intro fs w _
  apply Safe.bind ((findSized_safe _ _ _).finally' fun w => Safe.note _)
  intro _ w _
  exact Safe.pure _

theorem blockMakeChildFields_safe : Safe (blockMakeChildFields fs) f v := by
  apply (findSized_safe _ _ _).bind
  intro _ w _
  apply (findSized_safe _ _ _).bind
  intro _ w _
  apply (findSized_safe _ _ _).bind
  intro _ w _
  apply (findSized_safe _ _ _).bind
  intro _ w _
  exact Safe.pure _

theorem blockMakeUpdateArtifact_safe (artifactId txnId : Uuid) (height : BitVec 64)
    (state : BitVec 32) : Safe (blockMakeUpdateArtifact artifactId txnId height state) f v := by
  apply mdbGet_safe.bind
  intro r w _
  cases r with
  | notFound => exact putOrFail_safe
  | error => exact Safe.fail _
  | found b =>
    apply (Safe.reject _ _).bind
    intro _ w _
    exact putOrFail_safe

theorem blockMakeProcessChild_safe (height : BitVec 64) (cert : Bytes) :
    Safe (blockMakeProcessChild E height blockId cert) f v := by
  apply (parserInit_safe cert).bind
  intro fs w _
  apply Safe.finally' _ fun w => Safe.note _
  apply blockMakeChildFields_safe.bind
  intro c w _
  apply malloc_safe.bind
  intro _ w _
  apply putOrFail_safe.bind
  intro _ w _
  apply Safe.bind
  · apply (Safe.reject _ _).bind
    intro _ w _
    exact transactionDropBody_safe f w _
  intro _ w _
  apply Safe.bind
  · unfold blockMakeLinkPrevTxn
    by_cases hz : c.prevTransactionId = zeroUuid
    · rw [if_pos hz]
      exact Safe.pure _
    · rw [if_neg hz]
      apply (getNodeOrFail_safe f w _ _ _).bind
      intro _ w _
      exact malloc_safe.bind fun _ w _ => putOrFail_safe
  intro _ w _
  exact blockMakeUpdateArtifact_safe _ _ _ _

theorem blockMakeProcessChildren_safe (height : BitVec 64) (cert : Bytes) (rest : List Bytes) :
    Safe (blockMakeProcessChildren E height blockId cert rest) f v := by
  induction rest generalizing cert v with
  | nil => exact blockMakeProcessChild_safe height cert
  | cons next rest ih =>
    apply (blockMakeProcessChild_safe height cert).bind
    intro _ w _
    apply (Safe.attempt _).bind
    intro more w _
    cases more with
    | true => exact ih next
    | false => exact Safe.pure _

/-- The end record of a chain names a block whose record has the length its header says. -/
theorem blockMakeLink_safe {height : BitVec 64} {record : Bytes} {bs : List Block} {d : Store}
    (hc : Chain E d.blockDb d.heightDb bs)
    (hv : v.blockDb = Function.update d.blockDb blockId (some record))
    (hfree : d.blockDb blockId = none) :
    Safe (blockMakeLink blockId height (d.blockDb ffUuid)) f v := by
  rcases hc.sentinels with ⟨-, -, hend⟩ | ⟨hne, -, hend⟩
  · rw [hend]
    exact putOrFail_safe.bind fun _ w _ => putOrFail_safe
  · rw [hend]
    refine Safe.bind (updatePrevNext_safe ?_) fun _ w _ => putOrFail_safe
    obtain ⟨n, last, hn, hlast, hat⟩ := LinkedKeys.exists_last Block.id E.rootBlock ffUuid hne
    obtain ⟨firstId, hrec⟩ := hc.block n last hlast
    have hlast_ne : last.id ≠ blockId := by
      rintro rfl
      rw [hfree] at hrec
      cases hrec
    have hprev : (DataBlockNode.decode (endRecord E bs)).prev = last.id := by
      rw [endRecord, DataBlockNode.decode_encode_header]
      exact hat
    intro b hb
    have hb' : v.blockDb last.id = some b := by
      rw [← hprev]
      exact hb
    rw [hv, Function.update_of_ne hlast_ne, hrec] at hb'
    rw [← Option.some.inj hb',
      storedSize_blockRecord (hc.data last (List.mem_of_getElem? hlast)).2, length_blockRecord]
    exact ⟨Nat.le_add_right _ _, le_rfl⟩

theorem blockMakeBody_safe {bs : List Block} (hc : Chain E v.blockDb v.heightDb bs) :
    Safe (blockMakeBody E fs blockId blockData) f v := by
  apply queryEndNode_safe.bind
  intro endNode w hend
  obtain ⟨rfl, rfl, -⟩ := queryEndNode_ends hend
  apply (constraints_safe E blockId _).1.bind
  intro height w hheight
  obtain ⟨rfl, -⟩ := constraintMatchingBlockHeight_ends hheight
  apply (constraints_safe E blockId _).2.1.bind
  intro prev w hprev
  obtain ⟨rfl, -⟩ := constraintMatchingPrevUuid_ends hprev
  apply (constraints_safe E blockId (w.blockDb ffUuid)).2.2.bind
  intro _ w hsane
  obtain ⟨rfl, -⟩ := constraintSaneBlockUuid_ends hsane
  apply (Safe.require _ _).bind
  intro _ w hw
  obtain rfl := hw.of_require
  cases fieldValues fs .wrappedTransactionTuple with
  | nil => exact Safe.fail _
  | cons first rest =>
    apply (makeBlockGetFirstTransactionId_safe first).bind
    intro firstId w hfirst
    obtain ⟨rfl, -⟩ := makeBlockGetFirstTransactionId_ends hfirst
    apply Safe.bind
    · apply malloc_safe.bind
      intro _ w _
      exact putOrFail_safe.bind fun _ w _ => putOrFail_safe
    intro _ w hinsert
    obtain ⟨_, u₁, hm, h₁⟩ := hinsert.of_bind
    obtain rfl := malloc_ends hm
    obtain ⟨_, u₂, hput, h₂⟩ := h₁.of_bind
    obtain ⟨rfl, hfree⟩ := putOrFail_ends hput
    obtain ⟨rfl, -⟩ := putOrFail_ends h₂
    apply (blockMakeLink_safe hc rfl (hfree rfl)).bind
    intro _ w _
    exact blockMakeProcessChildren_safe _ _ _

/-- On a chain a block whose parser can be initialised is made or refused. -/
theorem perform_blockMake_defined {d : Store} {bs : List Block} {i : Invocation}
    (hc : Chain E d.blockDb d.heightDb bs) (hi : i.request = .blockMake blockId blockData)
    (hfs : E.fields blockData ≠ none) (hinit : ∀ n, i.faults .parserInit n = false) :
    ∃ result : Except AgentdError Reply, (perform E d i).1 = result.mapError Stop.fail := by
  obtain ⟨r, caps, f, b⟩ := i
  cases hi
  rcases perform_cases E d ⟨.blockMake blockId blockData, caps, f, b⟩ with
    ⟨hu, -⟩ | ⟨e, he⟩ | ⟨a, w, -, -, ha⟩
  · exfalso
    rcases hu with ((hnone | ⟨n, hn⟩) | ⟨fs, -, hu⟩) | ⟨hcheck, -⟩
    · exact hfs hnone
    · rw [hinit n] at hn
      cases hn
    · exact hu (blockMakeBody_safe hc)
    · cases hcheck
  · exact ⟨.error e, by rw [he]; rfl⟩
  · exact ⟨.ok a, by rw [ha]; rfl⟩

end Defined

/-! ### Acceptance -/

/-- A free id can be linked behind the last block of a chain. -/
theorem exists_blockLinked {E : Env} {blk : Uuid → Option Bytes} {hts : BitVec 64 → Option Bytes}
    {bs : List Block} (hc : Chain E blk hts bs) {blockId : Uuid} (hfree : blk blockId = none)
    (height : BitVec 64) (record : Bytes) :
    ∃ blk', BlockLinked blockId height record (blk ffUuid) blk blk' := by
  rcases hc.sentinels with ⟨-, -, hend⟩ | ⟨hne, -, hend⟩
  · rw [hend]
    exact ⟨_, hfree, rfl⟩
  · obtain ⟨n, last, hn, hlast, hat⟩ := LinkedKeys.exists_last Block.id E.rootBlock ffUuid hne
    obtain ⟨firstId, hrec⟩ := hc.block n last hlast
    have hne_last : last.id ≠ blockId := by
      rintro rfl
      rw [hfree] at hrec
      cases hrec
    have hprev : (DataBlockNode.decode (endRecord E bs)).prev = last.id := by
      rw [endRecord, DataBlockNode.decode_encode_header]
      exact hat
    have hsize : storedSize sizeofBlockNode
        (DataBlockNode.decode (blockRecord E bs n last firstId)).netBlockCertSize =
        (blockRecord E bs n last firstId).length :=
      storedSize_blockRecord (hc.data last (List.mem_of_getElem? hlast)).2
    rw [hend]
    refine ⟨_, hfree, blockRecord E bs n last firstId, ?_, ?_, ?_, rfl⟩
    · rw [hprev, Function.update_of_ne hne_last, hrec]
    · rw [hsize, length_blockRecord]
      exact Nat.le_add_right _ _
    · rw [hsize]

structure Sound (E : Env) (d : Store) (q : List Entry) : Prop where
  queue : Represents d.pqDb q
  chain : ∃ bs, Chain E d.blockDb d.heightDb bs
  txns : TxnRecords d.txnDb
  artifacts : ArtifactRecords d.artifactDb

/-- Everything `block_make` looks at. -/
structure Accepted (E : Env) (d : Store) (q : List Entry) (blockId : Uuid)
    (fs : List (CertField × Bytes)) : Prop where
  checked : BlockChecked E fs blockId (d.blockDb ffUuid)
  free : d.blockDb blockId = none
  height_free : d.heightDb (expectedBlockHeight (d.blockDb ffUuid)) = none
  wraps : fieldValues fs .wrappedTransactionTuple ≠ []
  accepts : accepts E (ids q) (keys d.txnDb) (fieldValues fs .wrappedTransactionTuple) = true

section Perform

variable {E : Env} {d : Store} {q : List Entry} {i : Invocation} {blockId : Uuid}
  {blockData : Bytes} {fs : List (CertField × Bytes)}

theorem accepted_of_ok (hd : Sound E d q) (hi : i.request = .blockMake blockId blockData)
    (hfs : E.fields blockData = some fs) (hfind : FindWorks i.faults) {a : Reply}
    (hok : (perform E d i).1 = .ok a) : Accepted E d q blockId fs := by
  obtain ⟨w, -, heff, -⟩ := perform_ok hok
  rw [hi] at heff
  obtain ⟨-, fs', hfs', hends⟩ := heff
  rw [hfs] at hfs'
  cases hfs'
  obtain ⟨first, rest, firstId, blk, cs, hwrap, -, hins, hcs, -, hall⟩ := blockMakeBody_ends hends
  refine ⟨hins.checked, hins.linked.1, hins.height_free, by simp [hwrap], ?_⟩
  have hq : Represents (withBlock blockId blk d).pqDb q := hd.queue
  have hacc := accepts_of_canonized hcs hq
  rw [hall hfind] at hacc
  rw [hwrap]
  exact hacc

theorem ok_of_accepted (hd : Sound E d q) (hi : i.request = .blockMake blockId blockData)
    (hfs : E.fields blockData = some fs) (hw : i.Works) (hp : i.Permitted)
    (h : Accepted E d q blockId fs) : (perform E d i).1 = .ok .done := by
  obtain ⟨r, caps, f, b⟩ := i
  cases hi
  obtain ⟨first, rest, hwrap⟩ := List.exists_cons_of_ne_nil h.wraps
  have hacc := h.accepts
  rw [hwrap] at hacc
  obtain ⟨c, hc, -⟩ := accepts_cons.mp hacc
  obtain ⟨fs', hfs', hfields⟩ := Option.bind_eq_some_iff.mp hc
  obtain ⟨id, hid, -⟩ := Option.bind_eq_some_iff.mp hfields
  have hfirst : firstTransactionId E first = some (bits 128 id) := by
    simp [firstTransactionId, hfs', hid]
  obtain ⟨bs, hchain⟩ := hd.chain
  obtain ⟨blk, hlinked⟩ := exists_blockLinked hchain h.free _ _
  have hins : BlockInserted E fs blockId blockData d (bits 128 id) blk :=
    ⟨h.checked, h.height_free, hlinked⟩
  have hq : Represents (withBlock blockId blk d).pqDb q := hd.queue
  obtain ⟨cs, w, hcs, hmap⟩ := exists_canonized (expectedBlockHeight (d.blockDb ffUuid)) blockId
    hq hd.txns hd.artifacts hacc
  have hy := blockMakeBody_yields hw.lmdb hp.alloc hw.find hwrap hfirst hins hcs hmap
  have hrun : Delivers (Request.run E caps (.blockMake blockId blockData)) f d [] .done w :=
    (blockMake_delivers hp.capability hw.lmdb hp.alloc hfs hy).bind_pure fun _ => Reply.done
  rw [perform_of_delivers hrun]

end Perform

end BlockAcceptance
