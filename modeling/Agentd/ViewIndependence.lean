import Agentd.BlockchainInvariant
import Agentd.ProcessQueueRuns
import Agentd.StaleViews
import Mathlib.Data.BitVec
import Mathlib.Data.Set.Card

/-! # Which requests depend on invalidated values

A request whose list is already initialised and that gets to relink it follows a pointer into the
end record after its first write: what it finds there decides which record it links to, or that it
fails. Every other request ends the same way whatever becomes of invalidated memory. -/
namespace ViewIndependence

open ByteString
open CertificateFields
open FaultyTransactions
open DataserviceRecords
open DataserviceStore
open DataserviceQueue
open DataserviceBlocks
open DataserviceEffects
open DataserviceRequests
open ProcessQueueRefinement
open ProcessQueueRuns
open BlockchainInvariant
open InvalidatedValues
open StaleViews
open ViewProg (plain writing seen look lookMaybe)

/-! ### Whole requests -/

section Requests

variable {f : FaultPattern} {v : Store} {ts : List Store} {m : Meter Event} {b : Bool}
  {body body' : TxOp Unit}

/-- The transaction of an operation starts from the innermost copy. -/
theorem mdbTxnBegin_run : mdbTxnBegin.run f ⟨v, ts, m, b⟩ =
    if f .txnBegin m.tick then .stop (.fail .mdbTxnBeginFailure) ⟨v, ts, ⟨m.tick + 1, m.trace⟩, b⟩
    else .ok () ⟨v, ts.headD v :: ts, ⟨m.tick + 1, m.trace ++ [.begun]⟩, b⟩ := by
  cases hf : f .txnBegin m.tick with
  | true =>
    simp [mdbTxnBegin, Prog.require, Prog.attempt, Prog.run_bind, Metered.meter,
      Metered.withMeter, hf, Prog.fail]
  | false =>
    simp [mdbTxnBegin, Prog.require, Prog.attempt, Prog.run_bind, Metered.meter,
      Metered.withMeter, hf, Prog.txnBegin, Prog.note]

theorem abortOrCommit_congr {u : Store} (h : ∀ m, body.run f ⟨u, m⟩ = body'.run f ⟨u, m⟩) :
    (abortOrCommit body).run f ⟨v, u :: ts, m, b⟩ =
      (abortOrCommit body').run f ⟨v, u :: ts, m, b⟩ := by
  have hin : (Prog.inTxn body).run f ⟨v, u :: ts, m, b⟩ =
      (Prog.inTxn body').run f ⟨v, u :: ts, m, b⟩ := run_inTxn_congr (h m)
  simp only [abortOrCommit, Prog.run_bind, Prog.onFail, hin]

theorem inOwnTxn_congr (h : ∀ m, body.run f ⟨ts.headD v, m⟩ = body'.run f ⟨ts.headD v, m⟩) :
    (inOwnTxn body).run f ⟨v, ts, m, b⟩ = (inOwnTxn body').run f ⟨v, ts, m, b⟩ := by
  unfold inOwnTxn
  rw [Prog.run_bind, Prog.run_bind, mdbTxnBegin_run]
  cases f .txnBegin m.tick with
  | true => rfl
  | false => exact abortOrCommit_congr h

/-- The body of a block is run with the fields of its certificate, from the innermost copy. -/
theorem blockMakeAround_congr {E : Env} {caps : Bitcap} {blockData : Bytes}
    {y y' : List (CertField × Bytes) → TxOp Unit}
    (h : bitcapIsset caps .appBlockWrite = true → ∀ fs, E.fields blockData = some fs → ∀ m,
      (y fs).run f ⟨ts.headD v, m⟩ = (y' fs).run f ⟨ts.headD v, m⟩) :
    (blockMakeAround E caps blockData y).run f ⟨v, ts, m, b⟩ =
      (blockMakeAround E caps blockData y').run f ⟨v, ts, m, b⟩ := by
  refine run_congr_of_passive (authorize_passive caps _) fun _ m₁ hcap => ?_
  refine run_congr_of_passive (Passive.require _ _) fun _ m₂ _ => ?_
  refine run_congr_of_passive (Quiet.note _).passive fun _ m₃ _ => ?_
  refine run_finally'_congr _ ?_
  refine run_congr_of_passive (Passive.require _ _) fun _ m₄ _ => ?_
  refine run_congr_of_passive (Quiet.note _).passive fun _ m₅ _ => ?_
  refine run_congr_of_risky (blockMakeParserInit_risky E blockData) fun fs m₆ hfs => ?_
  simp only [Prog.run_bind, Prog.onFail, mdbTxnBegin_run]
  cases f .txnBegin m₆.tick with
  | true => rfl
  | false => exact run_finally'_congr _ (abortOrCommit_congr (h (by simpa using hcap) fs hfs))

end Requests

theorem run_request (E : Env) (caps : Bitcap) (r : WriteRequest) :
    r.request.run E caps = r.valueRun E caps >>= fun _ => pure .done := by
  cases r with
  | submit txnId artifactId txnBytes => rfl
  | drop txnId => rfl
  | promote txnId => rfl
  | blockMake blockId blockData => rfl

/-- Unless values drift and the request relinks its list, a look through a view is a read. -/
theorem run_eq_valueRun {E : Env} {caps : Bitcap} {d : MemoryDrift} {r : WriteRequest} {v : Store}
    {ts : List Store} (h : d.contents = stay Bytes ∨ ¬ r.Relinks E caps (ts.headD v))
    (f : FaultPattern) (m : Meter Event) (b : Bool) :
    (r.run E caps d).run f ⟨v, ts, m, b⟩ =
      (r.valueRun E caps).run f ⟨v, ts, m, b⟩ := by
  cases r with
  | submit txnId artifactId txnBytes =>
    refine run_congr_of_passive (authorize_passive caps _) fun _ m' hcap => ?_
    refine inOwnTxn_congr fun m => (submitBody_mirrors E artifactId txnBytes ?_).exec
    exact h.imp_right fun hn hr => hn ⟨by simpa using hcap, hr⟩
  | drop txnId =>
    have hbody : (dropBody txnId).exec d.contents = transactionDropBody txnId :=
      Mirrors.exec_eq fun f s => dropBody_mirrors txnId
    simp only [WriteRequest.run, hbody]
    rfl
  | promote txnId =>
    have hbody : (promoteBody txnId).exec d.contents = transactionPromoteBody txnId :=
      Mirrors.exec_eq fun f s => promoteBody_mirrors txnId
    simp only [WriteRequest.run, hbody]
    rfl
  | blockMake blockId blockData =>
    refine blockMakeAround_congr fun hcap fs hfs m => (makeBody_mirrors E fs blockData ?_).exec
    exact h.imp_right fun hn hr => hn ⟨hcap, fs, hfs, hr⟩

/-- Where values survive, this is the data service of the other modules. -/
theorem run_surviving (E : Env) (caps : Bitcap) (r : WriteRequest) (f : FaultPattern)
    (s : OpState) : (r.run E caps surviving >>= fun _ => pure .done).run f s =
      (r.request.run E caps).run f s := by
  obtain ⟨v, ts, m, b⟩ := s
  rw [run_request, Prog.run_bind, Prog.run_bind, run_eq_valueRun (Or.inl rfl)]

/-! ### Independence -/

/-- The status of a request, the committed store and the open transactions after it. -/
def outcome (E : Env) (caps : Bitcap) (r : WriteRequest) (d : MemoryDrift) (f : FaultPattern)
    (s : OpState) : Except (Stop AgentdError) Unit × Store × List Store :=
  match (r.run E caps d).run f s with
  | .ok _ t => (.ok (), t.disk, t.txns)
  | .stop e t => (.error e, t.disk, t.txns)

/-- Whatever fails on the way, two runs that differ in what became of invalidated values end with
the same status and the same databases. -/
def Independent (E : Env) (caps : Bitcap) (r : WriteRequest) (v : Store) (ts : List Store) : Prop :=
  ∀ (f : FaultPattern) (commitFails : Bool) (d d' : MemoryDrift),
    outcome E caps r d f ⟨v, ts, ⟨0, []⟩, commitFails⟩ =
      outcome E caps r d' f ⟨v, ts, ⟨0, []⟩, commitFails⟩

theorem independent_of_not_relinks {E : Env} {caps : Bitcap} {r : WriteRequest} {v : Store}
    {ts : List Store} (h : ¬ r.Relinks E caps (ts.headD v)) : Independent E caps r v ts := by
  intro f b d d'
  unfold outcome
  rw [run_eq_valueRun (Or.inr h), run_eq_valueRun (Or.inr h)]

/-! ### Steering a stale view -/

/-- The bytes of a key appear where a record keeps `prev`. -/
def steered (id : Uuid) : MemoryDrift where
  contents _ _ b := if 32 ≤ b.length then setPrev b id else b
  length_contents := by
    intro _ _ b
    by_cases hb : 32 ≤ b.length
    · rw [if_pos hb]
      exact length_overwrite _ _ _ (by rw [length_be]; omega)
    · rw [if_neg hb]

theorem slice_steered (id : Uuid) {r w : ℕ} {b : Bytes} (hb : 32 ≤ b.length) :
    bits 128 (slice ((steered id).contents r w b) 16 16) = id := by
  have hprev : slice (setPrev b id) 16 16 = be 16 id :=
    slice_overwrite_self (by rw [length_be]; omega) (length_be _ _)
  simp only [steered, if_pos hb, hprev]
  exact bits_be (by decide) id

/-! ### Counting the calls before a relink -/

section Counts

variable {K : Type} {db : Dbi K} {k : K} {f : FaultPattern} {m : Meter Event} {v : Store}
  {b : Bytes}

theorem mdbGet_proceeds (db : Dbi K) (k : K) (v : Store) :
    Proceeds 1 v (mdbGet db k) (match db.read v k with
      | some b => .found b
      | none => .notFound) v := by
  intro f m hf
  obtain ⟨t, ht⟩ := Proceeds.attempt .get f m hf
  exact ⟨t, Prog.run_bind_ok _ ht⟩

theorem getOrFail_proceeds {missing error : AgentdError} (hk : db.read v k = some b) :
    Proceeds 1 v (getOrFail db k missing error) b v := by
  have hg := mdbGet_proceeds db k v
  rw [hk] at hg
  exact hg.bind (j := 0) Proceeds.pure

theorem getOrFail_fails {missing error : AgentdError} (hk : db.read v k = none)
    (hf : Spares f m.tick (m.tick + 1)) :
    Fails f m v (getOrFail db k missing error) missing := by
  have hg := mdbGet_proceeds db k v
  rw [hk] at hg
  exact Fails.of_proceeds hg hf fun _ => Fails.fail

theorem putOrFail_proceeds {no : Bool} (hk : no = true → db.read v k = none) :
    Proceeds 1 v (putOrFail db k b no) () (db.write v k (some b)) := by
  intro f m hf
  obtain ⟨t, ht⟩ := Proceeds.attempt .put f m hf
  have hput : (mdbPut db k b no).run f ⟨v, m⟩ =
      .ok true ⟨db.write v k (some b), ⟨m.tick + 1, t⟩⟩ := by
    refine (Prog.run_bind_ok _ ht).trans ?_
    by_cases hno : no = true
    · simp [hno, hk hno]
    · simp [hno]
  exact ⟨t, Prog.run_bind_ok _ hput⟩

theorem malloc_proceeds : Proceeds 1 v (malloc : TxOp Unit) () v := Proceeds.require _ _

theorem viewMaybe_proceeds {j w : ℕ} {x : TxOp (Option Bytes)} {r : Option Bytes} (d : Drift Bytes)
    (hx : Proceeds j v x r v) :
    Proceeds j v ((viewMaybe x).run d w) (r.map fun b => ⟨b, w⟩, w) v := by
  refine (hx.plain d w).bind (j := 0) ?_
  cases r with
  | none => exact Proceeds.pure
  | some b => exact Proceeds.pure

theorem lookMaybe_proceeds (r : Option Bytes) (d : Drift Bytes) (w : ℕ) :
    Proceeds 0 v ((lookMaybe (r.map fun b => (⟨b, w⟩ : View Bytes)) :
      ViewOp (Option Bytes)).run d w) (r, w) v := by
  cases r with
  | none => exact Proceeds.pure
  | some b =>
    have hnow : (⟨b, w⟩ : View Bytes).now d w = b := View.now_fresh b d w
    have hpure : Proceeds 0 v (pure (some ((⟨b, w⟩ : View Bytes).now d w), w) :
        TxOp (Option Bytes × ℕ)) (some b, w) v := by
      rw [hnow]
      exact Proceeds.pure
    exact hpure

theorem viewOrFail_proceeds {db : Dbi Uuid} {k : Uuid} {missing error : AgentdError}
    (d : Drift Bytes) (w : ℕ) (hk : db.read v k = some b) :
    Proceeds 1 v ((viewOrFail db k missing error).run d w) (⟨b, w⟩, w) v :=
  ((getOrFail_proceeds hk).plain d w).bind (j := 0) Proceeds.pure

section Checks

variable {E : Env} {fs : List (CertField × Bytes)} {endNode : Option Bytes} {blockId : Uuid}

theorem findSized_proceeds {t : CertField} {size : ℕ} {missing : AgentdError}
    (h : sizedField fs t size = some b) :
    Proceeds 1 v (findSized fs t size missing : TxOp Bytes) b v := by
  obtain ⟨hv, hl⟩ := sizedField_eq_some.mp h
  refine (Proceeds.require _ _).bind (j := 0) ?_
  simp only [hv]
  exact (Proceeds.reject (not_not.mpr hl) _).bind (j := 0) Proceeds.pure

theorem constraintMatchingBlockHeight_proceeds
    (h : (sizedField fs .blockHeight 8).map (bits 64) = some (expectedBlockHeight endNode)) :
    Proceeds 1 v (constraintMatchingBlockHeight fs endNode) (expectedBlockHeight endNode) v := by
  obtain ⟨raw, hraw, heq⟩ := Option.map_eq_some_iff.mp h
  refine (findSized_proceeds hraw).bind (j := 0) ?_
  exact (Proceeds.reject (not_not.mpr heq) _).bind (j := 0) Proceeds.pure

theorem constraintMatchingPrevUuid_proceeds
    (h : (sizedField fs .previousBlockUuid 16).map (bits 128) =
      some (expectedPrevBlockId E endNode)) :
    Proceeds 1 v (constraintMatchingPrevUuid E fs endNode) (expectedPrevBlockId E endNode) v := by
  obtain ⟨raw, hraw, heq⟩ := Option.map_eq_some_iff.mp h
  refine (findSized_proceeds hraw).bind (j := 0) ?_
  rw [← heq]
  exact (Proceeds.reject (by rw [heq]; simp) _).bind (j := 0) Proceeds.pure

theorem constraintSaneBlockUuid_proceeds
    (h : (sizedField fs .blockUuid 16).map (bits 128) = some blockId)
    (hres : blockId ≠ E.rootBlock ∧ blockId ≠ zeroUuid ∧ blockId ≠ ffUuid) :
    Proceeds 1 v (constraintSaneBlockUuid E fs blockId) () v := by
  obtain ⟨raw, hraw, heq⟩ := Option.map_eq_some_iff.mp h
  refine (findSized_proceeds hraw).bind (j := 0) ?_
  refine (Proceeds.reject (not_not.mpr heq.symm) _).bind (j := 0) ?_
  refine (Proceeds.reject hres.1 _).bind (j := 0) ?_
  exact (Proceeds.reject hres.2.1 _).bind (j := 0) (Proceeds.reject hres.2.2 _)

theorem parserInit_proceeds {cert : Bytes} (h : E.fields cert = some fs) :
    Proceeds 1 v (parserInit E cert : TxOp (List (CertField × Bytes))) fs v := by
  refine (Proceeds.require _ _).bind (j := 0) ?_
  simp only [h]
  exact (Proceeds.note _).bind (j := 0) Proceeds.pure

theorem makeBlockGetFirstTransactionId_proceeds {cert : Bytes} {id : Uuid}
    (h : firstTransactionId E cert = some id) :
    Proceeds 2 v (makeBlockGetFirstTransactionId E cert) id v := by
  obtain ⟨raw, hraw, heq⟩ := Option.map_eq_some_iff.mp h
  obtain ⟨fs, hfs, hraw⟩ := Option.bind_eq_some_iff.mp hraw
  refine (parserInit_proceeds hfs).bind (j := 1) ?_
  rw [← heq]
  exact ((findSized_proceeds hraw).finally' (j := 0) (Proceeds.note _)).bind (j := 0) Proceeds.pure

theorem makeBlockInsertBlock_proceeds {prev firstId : Uuid} {height : BitVec 64} {blockData : Bytes}
    (hfree : v.blockDb blockId = none) (hhfree : v.heightDb height = none) :
    Proceeds 3 v (makeBlockInsertBlock blockId prev firstId height blockData) ()
      (heightDb.write (blockDb.write v blockId (some ((⟨blockId, prev, ffUuid, firstId, height,
        BitVec.ofNat 64 blockData.length⟩ : DataBlockNode).encode ++ blockData))) height
        (some (be 16 blockId))) :=
  malloc_proceeds.bind (j := 2) ((putOrFail_proceeds fun _ => hfree).bind (j := 1)
    (putOrFail_proceeds fun _ => hhfree))

end Checks

end Counts

/-! ### A relink that follows a stale pointer -/

section Stale

variable {db : Dbi Uuid} {f : FaultPattern} {m : Meter Event} {v : Store} {b : Bytes} {header w : ℕ}
  {certSize : Bytes → BitVec 64} {id : Uuid} {decodePrev : Bytes → Uuid} {endNode : View Bytes}
  {d : Drift Bytes}

theorem followPrev_fails {α : Type} {g : Uuid → ViewOp α} {e : AgentdError}
    (hg : Fails f m v ((g (decodePrev (endNode.now d w))).run d w) e) :
    Fails f m v ((followPrev decodePrev endNode >>= g).run d w) e := hg

/-- The pointer leads to no record. -/
theorem relink_fails_of_absent (hkey : db.read v (decodePrev (endNode.now d w)) = none)
    (hf : Spares f m.tick (m.tick + 1)) :
    Fails f m v ((updatePrevNextThrough db header certSize id
      (followPrev decodePrev endNode)).run d w) .mdbGetFailure := by
  have hread : Fails f m v ((viewOrFail db (decodePrev (endNode.now d w)) .mdbGetFailure
      .mdbGetFailure).run d w) .mdbGetFailure := ((getOrFail_fails hkey hf).plain d w).bind _
  exact followPrev_fails (hread.view_bind _)

/-- The pointer leads to a record, and there is no memory for a copy of it. -/
theorem relink_fails_of_present (hkey : db.read v (decodePrev (endNode.now d w)) = some b)
    (hlen : header ≤ b.length) (hf : Spares f m.tick (m.tick + 1))
    (hm : f .malloc (m.tick + 1) = true) :
    Fails f m v ((updatePrevNextThrough db header certSize id
      (followPrev decodePrev endNode)).run d w) .outOfMemory := by
  refine followPrev_fails ?_
  refine Fails.of_view (viewOrFail_proceeds d w hkey) hf fun t => Fails.look_bind ?_
  rw [View.now_fresh]
  refine Fails.of_view ((Proceeds.inBounds hlen).plain d w) (spares_nothing f _) fun t => ?_
  have hmalloc : Fails f ⟨m.tick + 1 + 0, t⟩ v (malloc : TxOp Unit) .outOfMemory := Fails.require hm
  exact (hmalloc.plain d w).view_bind _

end Stale

section Bodies

variable {E : Env} {f : FaultPattern} {m : Meter Event} {v : Store} {e : Bytes} {d : Drift Bytes}
  {err : AgentdError}

/-- The end record was read before the first write, so the pointer into it is followed astray. -/
theorem now_steered (id : Uuid) {e : Bytes} (he : 32 ≤ e.length) :
    bits 128 (slice ((⟨e, 0⟩ : View Bytes).now (steered id).contents 1) 16 16) = id := by
  unfold View.now
  rw [if_neg Nat.zero_ne_one]
  exact slice_steered id he

/-- A submit that relinks makes three calls before it does. -/
theorem submitBody_fails {txnId artifactId : Uuid} {txnBytes : Bytes}
    (he : v.pqDb ffUuid = some e) (hlen : sizeofTransactionNode ≤ e.length)
    (hfree : v.pqDb txnId = none) (hf : Spares f m.tick (m.tick + 3))
    (hlink : ∀ t, Fails f ⟨m.tick + 3, t⟩ (pqDb.write v txnId
        (some (submittedRecord E txnId artifactId txnBytes (some e))))
      ((submitUpdatePrev txnId ⟨e, 0⟩).run d 1) err) :
    Fails f m v ((submitBody E txnId artifactId txnBytes).exec d) err := by
  have hquery : Proceeds 1 v transactionSubmitQueryEnd (some e) v := by
    have hg := mdbGet_proceeds pqDb ffUuid v
    rw [show pqDb.read v ffUuid = some e from he] at hg
    exact hg.bind (j := 0) ((Proceeds.reject (not_lt.mpr hlen) _).bind (j := 0) Proceeds.pure)
  refine Fails.bind ?_ _
  refine Fails.of_view (viewMaybe_proceeds d hquery) (hf.mono (by omega) (by omega)) fun t => ?_
  refine Fails.of_view (malloc_proceeds.plain d 0) (hf.mono (by simp) (by simp)) fun t => ?_
  refine Fails.of_view (lookMaybe_proceeds (some e) d 0) (spares_nothing f _) fun t => ?_
  refine Fails.of_view ((putOrFail_proceeds fun _ => hfree).writing d 0)
    (hf.mono (by dsimp only; omega) (by dsimp only; omega)) fun t => ?_
  exact (hlink t).view_bind _

/-- A block that relinks makes ten calls before it does. -/
theorem makeBody_fails {fs : List (CertField × Bytes)} {blockId : Uuid} {blockData : Bytes}
    (hr : MakeRelinks E fs blockId v) (he : v.blockDb ffUuid = some e)
    (hf : Spares f m.tick (m.tick + 10))
    (hlink : ∀ t u firstId, u.blockDb = Function.update v.blockDb blockId
        (some ((⟨blockId, expectedPrevBlockId E (some e), ffUuid, firstId,
          expectedBlockHeight (some e), BitVec.ofNat 64 blockData.length⟩ :
          DataBlockNode).encode ++ blockData)) →
      Fails f ⟨m.tick + 10, t⟩ u ((makeUpdatePrev blockId ⟨e, 0⟩).run d 1) err) :
    Fails f m v ((makeBody E fs blockId blockData).exec d) err := by
  obtain ⟨-, hchecked, ⟨first, rest, hw, hfirst⟩, hfree, hhfree⟩ := hr
  rw [he] at hchecked hhfree
  have hlen : sizeofBlockNode ≤ e.length := hchecked.end_length e rfl
  have hquery : Proceeds 1 v queryEndNode (some e) v := by
    have hg := mdbGet_proceeds blockDb ffUuid v
    rw [show blockDb.read v ffUuid = some e from he] at hg
    exact hg.bind (j := 0) ((Proceeds.reject (not_lt.mpr hlen) _).bind (j := 0) Proceeds.pure)
  obtain ⟨firstId, hfirst⟩ := Option.isSome_iff_exists.mp hfirst
  refine Fails.bind ?_ _
  refine Fails.of_view (viewMaybe_proceeds d hquery) (hf.mono (by omega) (by omega)) fun t => ?_
  refine Fails.of_view (lookMaybe_proceeds (some e) d 0) (spares_nothing f _) fun t => ?_
  refine Fails.of_view ((constraintMatchingBlockHeight_proceeds hchecked.height).plain d 0)
    (hf.mono (by dsimp only; omega) (by dsimp only; omega)) fun t => ?_
  refine Fails.of_view (lookMaybe_proceeds (some e) d 0) (spares_nothing f _) fun t => ?_
  refine Fails.of_view ((constraintMatchingPrevUuid_proceeds hchecked.prev).plain d 0)
    (hf.mono (by dsimp only; omega) (by dsimp only; omega)) fun t => ?_
  refine Fails.of_view ((constraintSaneBlockUuid_proceeds hchecked.uuid hchecked.not_reserved).plain
    d 0) (hf.mono (by dsimp only; omega) (by dsimp only; omega)) fun t => ?_
  refine Fails.of_view ((Proceeds.require _ _).plain d 0)
    (hf.mono (by dsimp only; omega) (by dsimp only; omega)) fun t => ?_
  rw [hw]
  refine Fails.of_view ((makeBlockGetFirstTransactionId_proceeds hfirst).plain d 0)
    (hf.mono (by dsimp only; omega) (by dsimp only; omega)) fun t => ?_
  refine Fails.of_view ((makeBlockInsertBlock_proceeds hfree hhfree).writing d 0)
    (hf.mono (by dsimp only; omega) (by dsimp only; omega)) fun t => ?_
  exact ((hlink t _ firstId rfl).view_bind _).view_bind _

end Bodies

/-! ### Refused requests -/

section Refused

variable {E : Env} {caps : Bitcap} {f : FaultPattern} {v u : Store} {ts : List Store}
  {m : Meter Event} {b : Bool} {body : TxOp Unit} {e : AgentdError}

theorem abortOrCommit_refuses (h : Fails f m u body e) :
    Refuses f ⟨v, u :: ts, m, b⟩ (abortOrCommit body) e := by
  obtain ⟨t, ht⟩ := h
  refine Refuses.bind ⟨⟨v, ts, ⟨t.meter.tick, t.meter.trace ++ [.aborted]⟩, b⟩, ?_⟩ _
  simp [Prog.onFail, Prog.inTxn, ht, mdbTxnAbort, Prog.run_bind, Prog.txnAbort, Prog.note,
    Metered.meter, Metered.withMeter]

theorem mdbTxnBegin_ok (hf : f .txnBegin m.tick = false) : mdbTxnBegin.run f ⟨v, ts, m, b⟩ =
    .ok () ⟨v, ts.headD v :: ts, ⟨m.tick + 1, m.trace ++ [.begun]⟩, b⟩ := by
  rw [mdbTxnBegin_run, hf]
  rfl

theorem inOwnTxn_refuses (hf : Spares f m.tick (m.tick + 1))
    (h : ∀ t, Fails f ⟨m.tick + 1, t⟩ (ts.headD v) body e) :
    Refuses f ⟨v, ts, m, b⟩ (inOwnTxn body) e :=
  Refuses.of_ok (mdbTxnBegin_ok (hf .txnBegin m.tick (Nat.le_refl _) (by omega)))
    (abortOrCommit_refuses (h _))

theorem authorize_ok {cap : ApiCap} (hcap : bitcapIsset caps cap = true) (s : OpState) :
    (authorize caps cap).run f s = .ok () s := by
  unfold authorize Prog.reject
  rw [if_neg (by simp [hcap])]
  rfl

theorem require_ok {c : Call} (hf : f c m.tick = false) :
    (Prog.require c e : Op Unit).run f ⟨v, ts, m, b⟩ =
      .ok () ⟨v, ts, ⟨m.tick + 1, m.trace⟩, b⟩ := by
  simp [Prog.require, Prog.attempt, Prog.run_bind, Metered.meter, Metered.withMeter, hf]

theorem onFail_ok {α : Type} {x : Op α} {cleanup : Op Unit} {s t : OpState} {a : α}
    (hx : x.run f s = .ok a t) : (x.onFail cleanup).run f s = .ok a t := by
  simp only [Prog.onFail, hx]

theorem parserInit_ok {cert : Bytes} {fs : List (CertField × Bytes)} (hfs : E.fields cert = some fs)
    (hf : f .parserInit m.tick = false) :
    (parserInit E cert : Op (List (CertField × Bytes))).run f ⟨v, ts, m, b⟩ =
      .ok fs ⟨v, ts, ⟨m.tick + 1, m.trace ++ [.acquired .parser]⟩, b⟩ := by
  refine (Prog.run_bind_ok _ (require_ok hf)).trans ?_
  simp only [hfs]
  rfl

/-- A block whose certificate parses makes four calls before the work in its transaction. -/
theorem blockMakeAround_refuses {blockData : Bytes} {fs : List (CertField × Bytes)}
    {y : List (CertField × Bytes) → TxOp Unit} (hcap : bitcapIsset caps .appBlockWrite = true)
    (hfs : E.fields blockData = some fs) (hf : Spares f m.tick (m.tick + 4))
    (h : ∀ t, Fails f ⟨m.tick + 4, t⟩ (ts.headD v) (y fs) e) :
    Refuses f ⟨v, ts, m, b⟩ (blockMakeAround E caps blockData y) e := by
  have hworks : ∀ c k, k < 4 → f c (m.tick + k) = false :=
    fun c k hk => hf c _ (by omega) (by omega)
  refine Refuses.of_ok (authorize_ok hcap _) ?_
  refine Refuses.of_ok (require_ok (hworks _ 0 (by omega))) ?_
  refine Refuses.of_ok (x := Prog.note (Event.acquired .cryptoSuite)) rfl ?_
  refine Refuses.finally' ?_ (Quiet.note _)
  refine Refuses.of_ok (require_ok (hworks _ 1 (by omega))) ?_
  refine Refuses.of_ok (x := Prog.note (Event.acquired .parserOptions)) rfl ?_
  refine Refuses.of_ok (onFail_ok (parserInit_ok hfs (hworks _ 2 (by omega)))) ?_
  refine Refuses.of_ok (onFail_ok (mdbTxnBegin_ok (hworks _ 3 (by omega)))) ?_
  exact (abortOrCommit_refuses (h _)).finally' ((Quiet.note _).seq (Quiet.note _))

theorem outcome_of_refuses {r : WriteRequest} {d : MemoryDrift} {s : OpState}
    (h : Refuses f s (r.run E caps d) e) : (outcome E caps r d f s).1 = .error (.fail e) := by
  obtain ⟨t, ht⟩ := h
  unfold outcome
  rw [ht]

end Refused

/-! ### A request that relinks depends on its stale view -/

/-- The environment is one memory map whose size is a `size_t`, so a database in it holds fewer
records than such a map has bytes. -/
def Mapped (db : Uuid → Option Bytes) : Prop := {k | (db k).isSome}.ncard < 2 ^ 64

theorem exists_absent {db : Uuid → Option Bytes} (h : Mapped db) (id : Uuid) :
    ∃ k, k ≠ id ∧ db k = none := by
  by_contra hall
  push Not at hall
  have huniv : insert id {k | (db k).isSome} = Set.univ := by
    apply Set.eq_univ_of_forall
    intro k
    by_cases hk : k = id
    · exact Or.inl hk
    · exact Or.inr (Option.isSome_iff_ne_none.mpr (hall k hk))
  have hcard := Set.ncard_insert_le id {k | (db k).isSome}
  have huuids : Nat.card Uuid = 2 ^ 128 := by
    rw [Nat.card_congr BitVec.equivFin.toEquiv, Nat.card_eq_fintype_card, Fintype.card_fin]
  rw [huniv, Set.ncard_univ, huuids] at hcard
  unfold Mapped at h
  omega

/-- Running out of memory and not finding a record are told apart. -/
theorem not_independent_of_refuses {E : Env} {caps : Bitcap} {r : WriteRequest} {v : Store}
    {ts : List Store} {f : FaultPattern} {d d' : MemoryDrift}
    (h : Refuses f ⟨v, ts, ⟨0, []⟩, false⟩ (r.run E caps d) .outOfMemory)
    (h' : Refuses f ⟨v, ts, ⟨0, []⟩, false⟩ (r.run E caps d') .mdbGetFailure) :
    ¬ Independent E caps r v ts := by
  intro hi
  have hstatus := congrArg Prod.fst (hi f false d d')
  rw [outcome_of_refuses h, outcome_of_refuses h'] at hstatus
  cases hstatus

section Relinks

variable {E : Env} {caps : Bitcap} {v : Store} {ts : List Store}

theorem submit_not_independent {txnId artifactId : Uuid} {txnBytes : Bytes}
    (hmap : Mapped (ts.headD v).pqDb)
    (h : (WriteRequest.submit txnId artifactId txnBytes).Relinks E caps (ts.headD v)) :
    ¬ Independent E caps (.submit txnId artifactId txnBytes) v ts := by
  obtain ⟨hcap, ⟨e, he, hlen⟩, hfree⟩ := h
  have hlen32 : 32 ≤ e.length := le_trans (by decide) hlen
  obtain ⟨k, hk, hnone⟩ := exists_absent hmap txnId
  have hspare : ∀ a c, c ≤ 5 → Spares (failsAt Call.malloc 5) a c :=
    fun a c hc => spares_failsAt _ hc
  -- the copy of the record that is found cannot be allocated
  have hfound : Refuses (failsAt Call.malloc 5) ⟨v, ts, ⟨0, []⟩, false⟩
      ((WriteRequest.submit txnId artifactId txnBytes).run E caps (steered txnId))
        .outOfMemory := by
    refine Refuses.of_ok (authorize_ok hcap _) (inOwnTxn_refuses (hspare _ _ (by simp)) fun t => ?_)
    refine submitBody_fails he hlen hfree (hspare _ _ (by simp)) fun t => ?_
    refine relink_fails_of_present (b := submittedRecord E txnId artifactId txnBytes (some e))
      ?_ ?_ (hspare _ _ (by simp)) (failsAt_self _ _)
    · have hkey := now_steered txnId hlen32
      simp only [DataTransactionNode.decode, hkey, pqDb, Function.update_self]
    · simp [submittedRecord]
  have hmissing : Refuses (failsAt Call.malloc 5) ⟨v, ts, ⟨0, []⟩, false⟩
      ((WriteRequest.submit txnId artifactId txnBytes).run E caps (steered k)) .mdbGetFailure := by
    refine Refuses.of_ok (authorize_ok hcap _) (inOwnTxn_refuses (hspare _ _ (by simp)) fun t => ?_)
    refine submitBody_fails he hlen hfree (hspare _ _ (by simp)) fun t => ?_
    refine relink_fails_of_absent ?_ (hspare _ _ (by simp))
    have hkey := now_steered k hlen32
    simp only [DataTransactionNode.decode, hkey, pqDb, Function.update_of_ne hk, hnone]
  exact not_independent_of_refuses hfound hmissing

theorem blockMake_not_independent {blockId : Uuid} {blockData : Bytes}
    (hmap : Mapped (ts.headD v).blockDb)
    (h : (WriteRequest.blockMake blockId blockData).Relinks E caps (ts.headD v)) :
    ¬ Independent E caps (.blockMake blockId blockData) v ts := by
  obtain ⟨hcap, fs, hfs, hr⟩ := h
  obtain ⟨e, he⟩ := Option.isSome_iff_exists.mp hr.initialized
  have hlen32 : 32 ≤ e.length := le_trans (by decide) (hr.checked.end_length e he)
  obtain ⟨k, hk, hnone⟩ := exists_absent hmap blockId
  have hspare : ∀ a c, c ≤ 15 → Spares (failsAt Call.malloc 15) a c :=
    fun a c hc => spares_failsAt _ hc
  have hfound : Refuses (failsAt Call.malloc 15) ⟨v, ts, ⟨0, []⟩, false⟩
      ((WriteRequest.blockMake blockId blockData).run E caps (steered blockId)) .outOfMemory := by
    refine blockMakeAround_refuses hcap hfs (hspare _ _ (by simp)) fun t => ?_
    refine makeBody_fails hr he (hspare _ _ (by simp)) fun t u firstId hu => ?_
    have hkey := now_steered blockId hlen32
    have hread : blockDb.read u (DataBlockNode.decode
        ((⟨e, 0⟩ : View Bytes).now (steered blockId).contents 1)).prev = u.blockDb blockId := by
      simp only [DataBlockNode.decode, hkey, blockDb]
    rw [hu, Function.update_self] at hread
    exact relink_fails_of_present hread (by simp) (hspare _ _ (by simp)) (failsAt_self _ _)
  have hmissing : Refuses (failsAt Call.malloc 15) ⟨v, ts, ⟨0, []⟩, false⟩
      ((WriteRequest.blockMake blockId blockData).run E caps (steered k)) .mdbGetFailure := by
    refine blockMakeAround_refuses hcap hfs (hspare _ _ (by simp)) fun t => ?_
    refine makeBody_fails hr he (hspare _ _ (by simp)) fun t u firstId hu => ?_
    refine relink_fails_of_absent ?_ (hspare _ _ (by simp))
    have hkey := now_steered k hlen32
    simp only [DataBlockNode.decode, hkey, blockDb, hu, Function.update_of_ne hk, hnone]
  exact not_independent_of_refuses hfound hmissing

end Relinks

/-- What becomes of invalidated values matters exactly to the requests that relink the list whose
end record they read before writing. -/
theorem independent_iff (E : Env) (caps : Bitcap) (r : WriteRequest) (v : Store) (ts : List Store)
    (hqueue : Mapped (ts.headD v).pqDb) (hchain : Mapped (ts.headD v).blockDb) :
    Independent E caps r v ts ↔ ¬ r.Relinks E caps (ts.headD v) := by
  constructor
  · intro hi hr
    cases r with
    | submit txnId artifactId txnBytes => exact submit_not_independent hqueue hr hi
    | drop txnId => exact hr
    | promote txnId => exact hr
    | blockMake blockId blockData => exact blockMake_not_independent hchain hr hi
  · exact independent_of_not_relinks

/-! ### Requests after a run -/

theorem mapped_of_domain {db : Uuid → Option Bytes} (ks : List Uuid)
    (h : ∀ k, db k ≠ none → k ∈ ks) (hlen : ks.length < 2 ^ 64) : Mapped db := by
  have hsub : {k | (db k).isSome} ⊆ (ks.toFinset : Set Uuid) := by
    intro k hk
    rw [List.coe_toFinset]
    exact h k (Option.isSome_iff_ne_none.mp hk)
  have hcard := Set.ncard_le_ncard hsub (Finset.finite_toSet _)
  rw [Set.ncard_coe_finset] at hcard
  exact lt_of_le_of_lt (hcard.trans ks.toFinset_card_le) hlen

theorem mapped_queue {pq : Uuid → Option Bytes} {q : List Entry} (h : Represents pq q)
    (hlen : (framed q).length < 2 ^ 64) : Mapped pq := by
  cases h with
  | unused hq hpq => exact mapped_of_domain [] (fun k hk => (hk (hpq k)).elim) (by decide)
  | used holds certs =>
    refine mapped_of_domain _ holds.domain ?_
    rwa [ids, List.length_map]

theorem mapped_chain {E : Env} {d : Store} {bs : List Block} (h : Chain E d.blockDb d.heightDb bs)
    (hlen : bs.length + 2 < 2 ^ 64) : Mapped d.blockDb := by
  apply mapped_of_domain (zeroUuid :: ffUuid :: bs.map Block.id)
  · intro k hk
    rw [List.mem_cons, List.mem_cons]
    exact h.block_domain k hk
  · simpa using hlen

def wrappedCalls : List Invocation :=
  [workingCall (.transactionSubmit 5 7 (transactionCert 5 0 7 1)),
    workingCall (.transactionSubmit 6 8 (transactionCert 6 0 8 1)),
    workingCall (.transactionSubmit 10 7 (transactionCert 10 5 7 2)),
    workingCall (.transactionSubmit 11 8 (transactionCert 11 6 8 2)),
    workingCall (.blockMake 9 (blockCert 9 1 1 [transactionCert 5 0 7 1]))]

theorem queueCall_of_mem : ∀ i ∈ wrappedCalls, QueueCall i := by
  simp only [wrappedCalls, List.forall_mem_cons, List.not_mem_nil, false_implies, implies_true,
    and_true]
  refine ⟨queueCall_submit (by decide) (by decide) (by decide),
    queueCall_submit (by decide) (by decide) (by decide),
    queueCall_submit (by decide) (by decide) (by decide),
    queueCall_submit (by decide) (by decide) (by decide), workingCall_works _, ?_,
    fun _ _ _ heq => by cases heq⟩
  show (blockCert _ _ _ _).length < maxPayload
  decide +kernel

/-- The drop of an entry between two others relinks both, and keeps no view for it. -/
theorem inner_drop_is_independent :
    (queueAfter (codecEnv true) (runCalls (codecEnv true) wrappedCalls).1).map Entry.id =
        [6, 10, 11] ∧
      Independent (codecEnv true) (BitVec.allOnes 32) (.drop 10)
        (runCalls (codecEnv true) wrappedCalls).2 [] := by
  have hrun : Run (codecEnv true) (fun _ i => QueueCall i)
      (runCalls (codecEnv true) wrappedCalls).1 (runCalls (codecEnv true) wrappedCalls).2 :=
    run_runCalls (allowedFrom_of_forall queueCall_of_mem _)
  have hchain := run_chain (hrun.mono fun _ _ h => ⟨h.works.commit, h.decoded⟩)
  have hdrop : ∀ d, ¬ (WriteRequest.drop 10).Relinks (codecEnv true) (BitVec.allOnes 32) d :=
    fun _ h => h
  have hqueue := mapped_queue (run_represents hrun) (by decide +kernel)
  have hblocks := mapped_chain hchain (by decide +kernel)
  refine ⟨by decide +kernel, ?_⟩
  generalize (runCalls (codecEnv true) wrappedCalls).2 = d at hqueue hblocks
  exact (independent_iff (codecEnv true) (BitVec.allOnes 32) (.drop 10) d [] hqueue hblocks).mpr
    (hdrop d)

def queueOfOne : Store :=
  (perform (codecEnv false) emptyStore (workingCall (.transactionSubmit 5 7 [1]))).2

/-- The second submit succeeds, or does not find the record it is to link to. -/
theorem second_submit_depends_on_view :
    ¬ Independent (codecEnv false) (BitVec.allOnes 32) (.submit 6 7 [2]) queueOfOne [] := by
  intro h
  have hstatus := congrArg Prod.fst (h noFaults false surviving (steered 9))
  have hkept : (outcome (codecEnv false) (BitVec.allOnes 32) (.submit 6 7 [2]) surviving noFaults
      ⟨queueOfOne, [], ⟨0, []⟩, false⟩).1 = .ok () := by decide +kernel
  have hmoved : (outcome (codecEnv false) (BitVec.allOnes 32) (.submit 6 7 [2]) (steered 9) noFaults
      ⟨queueOfOne, [], ⟨0, []⟩, false⟩).1 = .error (.fail .mdbGetFailure) := by decide +kernel
  rw [hkept, hmoved] at hstatus
  cases hstatus

end ViewIndependence
