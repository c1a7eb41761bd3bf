import Agentd.ArtifactHistory
import Agentd.BlockAcceptance

/-! # What `block_make` does

A block certificate that continues the chain goes through if and only if the transactions it wraps
can be canonized together, and then each of them moves from the queue to the canonized
transactions. -/
namespace BlockEffects

open ByteString
open CertificateFields
open FaultyTransactions
open DataserviceRecords
open DataserviceStore
open DataserviceQueue
open DataserviceBlocks
open DataserviceRequests
open DataserviceEffects
open ProcessQueueRefinement
open ProcessQueueRuns
open BlockchainInvariant
open CanonizedRecords
open ArtifactHistory
open BlockAcceptance

/-! ### Which transactions can be wrapped together -/

/-- The wrapped transactions are queued and not canonized, no two of them have the same id, and what
one names as previous is canonized, or is one of them up to itself. -/
structure Wrappable (queued : List Uuid) (known : Uuid → Bool) (cs : List (Bytes × ChildFields)) :
    Prop where
  nodup : (childIds cs).Nodup
  queued : ∀ t ∈ childIds cs, t ∈ queued
  fresh : ∀ t ∈ childIds cs, known t = false
  previous : ∀ earlier p later, cs = earlier ++ p :: later → p.2.prevTransactionId ≠ zeroUuid →
    known p.2.prevTransactionId = true ∨ p.2.prevTransactionId ∈ childIds (earlier ++ [p])

section Wrappable

variable {E : Env} {queued : List Uuid} {known : Uuid → Bool} {cert : Bytes} {c : ChildFields}
  {cs : List (Bytes × ChildFields)}

theorem wrappable_nil : Wrappable queued known [] where
  nodup := List.nodup_nil
  queued := by simp [childIds]
  fresh := by simp [childIds]
  previous := by simp

/-- The first one leaves the queue and is known to the others. -/
theorem wrappable_cons : Wrappable queued known ((cert, c) :: cs) ↔
    c.transactionId ∈ queued ∧ known c.transactionId = false ∧
      (c.prevTransactionId = zeroUuid ∨ c.prevTransactionId = c.transactionId ∨
        known c.prevTransactionId = true) ∧
      Wrappable (queued.filter (· ≠ c.transactionId))
        (Function.update known c.transactionId true) cs := by
  constructor
  · intro h
    obtain ⟨hnot, hnd⟩ := List.nodup_cons.mp h.nodup
    have hne : ∀ t ∈ childIds cs, t ≠ c.transactionId := by
      rintro t ht rfl
      exact hnot ht
    refine ⟨h.queued _ List.mem_cons_self, h.fresh _ List.mem_cons_self, ?_, hnd, ?_, ?_, ?_⟩
    · by_cases hz : c.prevTransactionId = zeroUuid
      · exact Or.inl hz
      rcases h.previous [] (cert, c) cs rfl hz with hknown | hmem
      · exact Or.inr (Or.inr hknown)
      · exact Or.inr (Or.inl (List.mem_singleton.mp hmem))
    · intro t ht
      exact List.mem_filter.mpr ⟨h.queued t (List.mem_cons_of_mem _ ht), by simpa using hne t ht⟩
    · intro t ht
      rw [Function.update_of_ne (hne t ht)]
      exact h.fresh t (List.mem_cons_of_mem _ ht)
    · intro earlier p later heq hz
      by_cases hself : p.2.prevTransactionId = c.transactionId
      · exact Or.inl (by rw [hself, Function.update_self])
      rw [Function.update_of_ne hself]
      refine (h.previous ((cert, c) :: earlier) p later
        (by rw [heq, List.cons_append]) hz).imp_right
        fun hmem => ?_
      exact (List.mem_cons.mp hmem).resolve_left hself
  · rintro ⟨hmem, hnew, hprev, h⟩
    have hne : ∀ t ∈ childIds cs, t ≠ c.transactionId := fun t ht => by
      simpa using (List.mem_filter.mp (h.queued t ht)).2
    refine ⟨List.nodup_cons.mpr ⟨fun hc => hne _ hc rfl, h.nodup⟩, ?_, ?_, ?_⟩
    · intro t ht
      rcases List.mem_cons.mp ht with rfl | ht
      · exact hmem
      · exact List.mem_of_mem_filter (h.queued t ht)
    · intro t ht
      rcases List.mem_cons.mp ht with rfl | ht
      · exact hnew
      · have hfresh := h.fresh t ht
        rwa [Function.update_of_ne (hne t ht)] at hfresh
    · intro earlier p later heq hz
      cases earlier with
      | nil =>
        obtain ⟨rfl, rfl⟩ := List.cons.inj heq
        rcases hprev with hzero | hself | hknown
        · exact (hz hzero).elim
        · exact Or.inr (by simp [childIds, hself])
        · exact Or.inl hknown
      | cons e earlier =>
        obtain ⟨rfl, htl⟩ := List.cons.inj heq
        by_cases hself : p.2.prevTransactionId = c.transactionId
        · exact Or.inr (by simp [childIds, hself])
        · have hrest := h.previous earlier p later htl hz
          rw [Function.update_of_ne hself] at hrest
          exact hrest.imp_right (List.mem_cons_of_mem _)

def children (E : Env) (certs : List Bytes) : List (Bytes × ChildFields) :=
  certs.filterMap fun cert => (certChild E cert).map fun c => (cert, c)

theorem wrappedChildren_eq {blockData : Bytes} {fs : List (CertField × Bytes)}
    (hfs : E.fields blockData = some fs) :
    wrappedChildren E blockData = children E (fieldValues fs .wrappedTransactionTuple) := by
  rw [wrappedChildren, hfs]
  rfl

/-- Canonized one after the other or together, it comes to the same. -/
theorem accepts_iff_wrappable (certs : List Bytes) : accepts E queued known certs = true ↔
    (∀ cert ∈ certs, certChild E cert ≠ none) ∧ Wrappable queued known (children E certs) := by
  induction certs generalizing queued known with
  | nil => exact iff_of_true rfl ⟨by simp, wrappable_nil⟩
  | cons cert certs ih =>
    cases hc : certChild E cert with
    | none => simp [accepts, hc]
    | some c =>
      have hcons : children E (cert :: certs) = (cert, c) :: children E certs := by
        simp [children, hc]
      rw [hcons, wrappable_cons, accepts_cons, hc, List.forall_mem_cons]
      constructor
      · rintro ⟨c', hc', hmem, hnew, hprev, hrest⟩
        obtain rfl := Option.some.inj hc'
        obtain ⟨hall, hw⟩ := ih.mp hrest
        exact ⟨⟨by simp [hc], hall⟩, hmem, hnew, hprev, hw⟩
      · rintro ⟨⟨-, hall⟩, hmem, hnew, hprev, hw⟩
        exact ⟨c, rfl, hmem, hnew, hprev, ih.mpr ⟨hall, hw⟩⟩

end Wrappable

/-! ### What a block certificate has to say -/

/-- The certificate names the height above the last block, that block as previous and a block id
that is neither taken nor reserved. -/
structure ContinuesChain (E : Env) (bs : List Block) (blockId : Uuid)
    (fs : List (CertField × Bytes)) : Prop where
  height : ∃ raw, sizedField fs .blockHeight 8 = some raw ∧ (bits 64 raw).toNat = bs.length + 1
  prev : (sizedField fs .previousBlockUuid 16).map (bits 128) = some (blockAt E bs bs.length)
  uuid : (sizedField fs .blockUuid 16).map (bits 128) = some blockId
  new : blockId ∉ bs.map Block.id
  not_reserved : blockId ≠ E.rootBlock ∧ blockId ≠ zeroUuid ∧ blockId ≠ ffUuid

section ContinuesChain

variable {E : Env} {d : Store} {bs : List Block} {blockId : Uuid} {fs : List (CertField × Bytes)}

theorem ContinuesChain.checked (h : ContinuesChain E bs blockId fs)
    (hc : Chain E d.blockDb d.heightDb bs) : BlockChecked E fs blockId (d.blockDb ffUuid) := by
  refine ⟨hc.end_length, ?_, ?_, h.uuid, h.not_reserved⟩
  · obtain ⟨raw, hraw, hheight⟩ := h.height
    rw [hraw, hc.expectedBlockHeight_eq, heightKey, ← hheight]
    simp
  · rw [hc.expectedPrevBlockId_eq]
    exact h.prev

theorem ContinuesChain.free (h : ContinuesChain E bs blockId fs)
    (hc : Chain E d.blockDb d.heightDb bs) : d.blockDb blockId = none := by
  by_contra htaken
  obtain ⟨-, hz, hf⟩ := h.not_reserved
  rcases hc.block_domain blockId htaken with h0 | h1 | hmem
  · exact hz h0
  · exact hf h1
  · exact h.new hmem

theorem ContinuesChain.height_free (h : ContinuesChain E bs blockId fs)
    (hc : Chain E d.blockDb d.heightDb bs) :
    d.heightDb (expectedBlockHeight (d.blockDb ffUuid)) = none := by
  by_contra htaken
  rw [hc.expectedBlockHeight_eq] at htaken
  obtain ⟨raw, -, hheight⟩ := h.height
  have hfits : bs.length + 1 < 2 ^ 64 := hheight ▸ (bits 64 raw).isLt
  obtain ⟨n, hn, hkey⟩ := hc.height_domain _ htaken
  have hsame := heightKey_injective (by omega) (by omega) hkey
  omega

end ContinuesChain

/-! ### What the wrapped transactions leave behind -/

def lastId (ns : List ChildFields) : Uuid := (ns.getLast?.map ChildFields.transactionId).getD ffUuid

/-- The record of a wrapped transaction, pointed at the last one from it on that names it. -/
def canonizedRecord (blockId : Uuid) (p : Bytes × ChildFields) (post : List (Bytes × ChildFields)) :
    Bytes :=
  { canonizedNode blockId p.1 p.2 with
    next := lastId (namers p.2.transactionId (p :: post)) }.encode ++ p.1

section Canonized

variable {E : Env} {height : BitVec 64} {blockId : Uuid} {cs : List (Bytes × ChildFields)}
  {v w : Store} {cert : Bytes} {c : ChildFields} {hist : List Canonical}

theorem pointed_new (ns : List ChildFields) :
    pointed ((canonizedNode blockId cert c).encode ++ cert) ns =
      { canonizedNode blockId cert c with next := lastId ns }.encode ++ cert := by
  rw [pointed, lastId]
  cases ns.getLast? with
  | none => rfl
  | some c' => exact DataTransactionNode.setNext_encode _ _ _

/-- The bytes a wrapped transaction is entered with. -/
theorem txnEntered_record {txn txn' : Uuid → Option Bytes}
    (h : TxnEntered blockId cert c txn txn') (hz : c.transactionId ≠ zeroUuid) :
    txn' c.transactionId = some (pointed ((canonizedNode blockId cert c).encode ++ cert)
      (namers c.transactionId [(cert, c)])) := by
  have hrec : entered blockId cert c txn c.transactionId =
      some ((canonizedNode blockId cert c).encode ++ cert) := Function.update_self _ _ _
  by_cases hself : c.prevTransactionId = c.transactionId
  · have hnamers : namers c.transactionId [(cert, c)] = [c] := by simp [namers, hself]
    rw [hnamers]
    obtain ⟨-, ⟨hzero, -⟩ | ⟨-, b, hb, -, rfl⟩⟩ := h
    · exact (hz (hself.symm.trans hzero)).elim
    · rw [hself, hrec] at hb
      rw [hself, Function.update_self, ← Option.some.inj hb]
      rfl
  · have hnamers : namers c.transactionId [(cert, c)] = [] := by simp [namers, hself]
    rw [hnamers]
    obtain ⟨-, ⟨-, rfl⟩ | ⟨-, b, -, -, rfl⟩⟩ := h
    · exact hrec
    · rw [Function.update_of_ne (Ne.symm hself)]
      exact hrec

/-- Pointed at itself or not, and then by the later ones. -/
theorem pointed_namers {b : Bytes} (hl : sizeofTransactionNode ≤ b.length) (k : Uuid)
    (p : Bytes × ChildFields) (post : List (Bytes × ChildFields)) :
    (pointed b (namers k [p])).length = b.length ∧
      pointed (pointed b (namers k [p])) (namers k post) = pointed b (namers k (p :: post)) := by
  by_cases hp : p.2.prevTransactionId = k
  · have hone : namers k [p] = [p.2] := by simp [namers, hp]
    have hall : namers k (p :: post) = p.2 :: namers k post := by simp [namers, hp]
    rw [hone, hall, ← pointed_cons hl p.2 (namers k post)]
    exact ⟨length_setNext hl p.2.transactionId, rfl⟩
  · have hone : namers k [p] = [] := by simp [namers, hp]
    have hall : namers k (p :: post) = namers k post := by simp [namers, hp]
    rw [hone, hall]
    exact ⟨rfl, rfl⟩

theorem canonized_entered (h : Canonized E height blockId cs v w) :
    ∀ pre p post, cs = pre ++ p :: post →
      w.txnDb p.2.transactionId = some (canonizedRecord blockId p post) := by
  induction h with
  | nil v => simp
  | @cons v u w cert c cs first rest ih =>
    intro pre p post heq
    cases pre with
    | nil =>
      obtain ⟨rfl, rfl⟩ := List.cons.inj heq
      have hz := first.not_sentinel.1
      have hl : sizeofTransactionNode ≤
          ((canonizedNode blockId cert c).encode ++ cert).length := by simp
      obtain ⟨hlen, hlater⟩ := pointed_namers hl c.transactionId (cert, c) cs
      have hu := canonized_existing rest hz (hl.trans_eq hlen.symm) (txnEntered_record first.txn hz)
      rw [hlater, pointed_new] at hu
      exact hu
    | cons e pre =>
      obtain ⟨-, htl⟩ := List.cons.inj heq
      exact ih pre p post htl

/-- Every other record stays, but for the `next` of one that is named as previous. -/
theorem canonized_kept (h : Canonized E height blockId cs v w) (hv : TxnRecords v.txnDb) {k : Uuid}
    (hk : k ∉ childIds cs) :
    w.txnDb k = (v.txnDb k).map fun b => pointed b (namers k cs) := by
  cases hb : v.txnDb k with
  | none =>
    by_contra hnew
    rcases canonized_known h hnew with hold | hmem
    · exact hold hb
    · exact hk hmem
  | some b =>
    have hz : k ≠ zeroUuid := by
      rintro rfl
      rw [hv.no_sentinel.1] at hb
      cases hb
    exact canonized_existing h hz (hv.sized k b hb) hb

theorem canonized_artifacts (h : Canonized E height blockId cs v w)
    (hv : ∀ a, v.artifactDb a = artifactRecord a (ofArtifact a hist)) (a : Uuid) :
    w.artifactDb a = artifactRecord a (ofArtifact a (hist ++ canonicals height blockId cs)) := by
  induction h generalizing hist with
  | nil v => simpa [canonicals] using hv a
  | @cons v u w cert c cs first rest ih =>
    have hsplit : hist ++ canonicals height blockId ((cert, c) :: cs) =
        (hist ++ [⟨c, cert, height, blockId⟩]) ++ canonicals height blockId cs := by
      simp [canonicals]
    rw [hsplit]
    exact ih (artifactUpdated_history (t := ⟨c, cert, height, blockId⟩) hv first.artifact)

end Canonized

/-! ### Reachable stores -/

theorem run_artifacts {E : Env} {log : List (Invocation × Outcome)} {d : Store}
    (h : Run E (fun _ i => HistoryCall i) log d) (a : Uuid) :
    d.artifactDb a = artifactRecord a (ofArtifact a (history E (blocksMade log))) := by
  induction h generalizing a with
  | nil => rfl
  | @snoc log d i before call ih =>
    have hchain := run_chain (before.mono fun _ _ hi => hi.toChainCall)
    rw [blocksMade_snoc]
    rcases perform_cases E d i with ⟨-, he⟩ | ⟨e, he⟩ | ⟨a', w, -, heff, ha⟩
    · rw [he]
      simpa [blocksMade] using ih a
    · rw [he]
      simpa [blocksMade] using ih a
    · rw [ha, call.commit]
      rcases effect_cases heff with ⟨blockId, blockData, fs, hreq, hfs, hends⟩ | ⟨hreq, hframe⟩
      · obtain ⟨_, _, _, blk, cs, hwrap, -, -, hcs, -, hall⟩ := blockMakeBody_ends hends
        have hchildren := hcs.eq_wrappedChildren hfs ((hall call.find).trans hwrap.symm)
        subst hchildren
        rw [hchain.expectedBlockHeight_eq] at hcs
        rw [blocksMade_blockMake hreq, history_snoc]
        exact canonized_artifacts hcs ih a
      · rw [blocksMade_eq_nil hreq, List.append_nil]
        exact (congrFun hframe.artifact a).trans (ih a)

theorem artifactRecords_of_history {art : Uuid → Option Bytes} {hist : List Canonical}
    (h : ∀ a, art a = artifactRecord a (ofArtifact a hist)) : ArtifactRecords art := by
  intro a b hb
  rw [h a] at hb
  unfold artifactRecord at hb
  split at hb
  · obtain rfl := Option.some.inj hb
    exact DataArtifactRecord.length_encode _
  · cases hb

theorem run_sound {E : Env} {log : List (Invocation × Outcome)} {d : Store}
    (h : Run E (fun _ i => QueueCall i) log d) : Sound E d (queueAfter E log) where
  queue := run_represents h
  chain := ⟨_, run_chain (h.mono fun _ _ hi => ⟨hi.works.commit, hi.decoded⟩)⟩
  txns := run_records h
  artifacts := artifactRecords_of_history
    (run_artifacts (h.mono fun _ _ hi => ⟨⟨hi.works.commit, hi.decoded⟩, hi.works.find⟩))

/-! ### The block -/

/-- The block moved its transactions from the queue to the canonized ones, and did nothing else. -/
structure Moved (E : Env) (bs : List Block) (q : List Entry) (d w : Store) (b : Block) : Prop where
  queue : Represents w.pqDb (withoutIds (wrappedIds E b.data) q)
  entered : ∀ pre p post, wrappedChildren E b.data = pre ++ p :: post →
    w.txnDb p.2.transactionId = some (canonizedRecord b.id p post)
  kept : ∀ k ∉ wrappedIds E b.data,
    w.txnDb k = (d.txnDb k).map fun r => pointed r (namers k (wrappedChildren E b.data))
  artifacts : ∀ a, w.artifactDb a = artifactRecord a (ofArtifact a (history E (bs ++ [b])))
  artifacts_kept : ∀ a, (∀ p ∈ wrappedChildren E b.data, p.2.artifactId ≠ a) →
    w.artifactDb a = d.artifactDb a
  block : ∃ first rest, wrappedChildren E b.data = first :: rest ∧
    w.blockDb b.id = some (blockRecord E (bs ++ [b]) bs.length b first.2.transactionId)

section Effect

variable {E : Env} {log : List (Invocation × Outcome)} {d : Store} {i : Invocation}
  {blockId : Uuid} {blockData : Bytes} {fs : List (CertField × Bytes)}

theorem firstTransactionId_eq {cert : Bytes} {c : ChildFields} (h : certChild E cert = some c) :
    firstTransactionId E cert = some c.transactionId := by
  obtain ⟨fs, hfs, hfields⟩ := Option.bind_eq_some_iff.mp h
  obtain ⟨id, hid, hrest⟩ := Option.bind_eq_some_iff.mp hfields
  obtain ⟨prev, -, hrest⟩ := Option.bind_eq_some_iff.mp hrest
  obtain ⟨artifact, -, hrest⟩ := Option.bind_eq_some_iff.mp hrest
  obtain ⟨state, -, hc⟩ := Option.bind_eq_some_iff.mp hrest
  obtain rfl := Option.some.inj hc
  simp [firstTransactionId, hfs, hid]

theorem made_iff_wrappable {bs : List Block} {q : List Entry} (hd : Sound E d q)
    (hc : Chain E d.blockDb d.heightDb bs) (hi : i.request = .blockMake blockId blockData)
    (hw : i.Works) (hp : i.Permitted) (hfs : E.fields blockData = some fs)
    (hfit : ContinuesChain E bs blockId fs) :
    (perform E d i).1 = .ok .done ↔ fieldValues fs .wrappedTransactionTuple ≠ [] ∧
      (∀ cert ∈ fieldValues fs .wrappedTransactionTuple, certChild E cert ≠ none) ∧
      Wrappable (ids q) (keys d.txnDb) (wrappedChildren E blockData) := by
  rw [wrappedChildren_eq hfs]
  constructor
  · intro hok
    have h := accepted_of_ok hd hi hfs hw.find hok
    exact ⟨h.wraps, (accepts_iff_wrappable _).mp h.accepts⟩
  · rintro ⟨hwraps, hwrappable⟩
    exact ok_of_accepted hd hi hfs hw hp ⟨hfit.checked hc, hfit.free hc, hfit.height_free hc,
      hwraps, (accepts_iff_wrappable _).mpr hwrappable⟩

theorem moved_of_made (h : Run E (fun _ i => QueueCall i) log d)
    (hi : i.request = .blockMake blockId blockData) (hw : i.Works)
    (hfs : E.fields blockData = some fs) (hok : (perform E d i).1 = .ok .done) :
    Moved E (blocksMade log) (queueAfter E log) d (perform E d i).2 ⟨blockId, blockData⟩ := by
  have hcalls : Run E (fun _ i => HistoryCall i) log d :=
    h.mono fun _ _ hi => ⟨⟨hi.works.commit, hi.decoded⟩, hi.works.find⟩
  have hchain := run_chain (hcalls.mono fun _ _ hi => hi.toChainCall)
  obtain ⟨w, -, heff, hstore⟩ := perform_ok hok
  have hstore' : (perform E d i).2 = w := by simpa [hw.commit] using hstore
  rw [hi] at heff
  obtain ⟨-, fs', hfs', hends⟩ := heff
  rw [hfs] at hfs'
  cases hfs'
  obtain ⟨first, rest, firstId, blk, cs, hwrap, hfirst, hins, hcs, -, hall⟩ :=
    blockMakeBody_ends hends
  have hcerts := hall hw.find
  have hchildren := hcs.eq_wrappedChildren hfs (hcerts.trans hwrap.symm)
  have hqueue := run_represents h
  have hrecords := run_records h
  have harts := run_artifacts hcalls
  have hq : Represents (withBlock blockId blk d).pqDb (queueAfter E log) := hqueue
  have htxns : TxnRecords (withBlock blockId blk d).txnDb := hrecords
  have hlinked := hchain.linkedBehind (b := ⟨blockId, blockData⟩) hins
  have hids : wrappedIds E blockData = childIds cs := congrArg childIds hchildren.symm
  rw [hstore']
  rw [hchain.expectedBlockHeight_eq] at hcs
  have hartifacts := canonized_artifacts (v := withBlock blockId blk d) hcs harts
  constructor
  · rw [hids]
    exact (canonized_queue hcs hq).2
  · intro pre p post heq
    exact canonized_entered hcs pre p post (hchildren.trans heq)
  · intro k hk
    rw [hids] at hk
    rw [← hchildren]
    exact canonized_kept hcs htxns hk
  · intro a
    rw [history_snoc, ← hchildren]
    exact hartifacts a
  · intro a ha
    rw [hartifacts a]
    have hnone : ofArtifact a (canonicals (heightKey ((blocksMade log).length + 1)) blockId cs) =
        [] := by
      rw [ofArtifact, List.filter_eq_nil_iff]
      intro t ht
      obtain ⟨p, hp, rfl⟩ := List.mem_map.mp ht
      simpa using ha p (hchildren ▸ hp)
    rw [ofArtifact, List.filter_append]
    unfold ofArtifact at hnone
    rw [hnone, List.append_nil]
    exact (harts a).symm
  · cases cs with
    | nil => cases hcerts
    | cons p cs =>
      refine ⟨p, cs, hchildren.symm, ?_⟩
      have hhead : p.1 = first := (List.cons.inj hcerts).1
      have hp := firstTransactionId_eq (hcs.certChild_eq p List.mem_cons_self)
      rw [hhead, hfirst] at hp
      rw [(canonized_blocks hcs).1, ← Option.some.inj hp]
      exact hlinked.new

/-- In every reachable store, a block that continues the chain is made exactly when it wraps
transactions that can be wrapped together, and then those move and nothing else does. -/
theorem block_make_moves_wrappable (h : Run E (fun _ i => QueueCall i) log d)
    (hi : i.request = .blockMake blockId blockData) (hw : i.Works) (hp : i.Permitted)
    (hfs : E.fields blockData = some fs) (hfit : ContinuesChain E (blocksMade log) blockId fs) :
    ((perform E d i).1 = .ok .done ↔ fieldValues fs .wrappedTransactionTuple ≠ [] ∧
      (∀ cert ∈ fieldValues fs .wrappedTransactionTuple, certChild E cert ≠ none) ∧
      Wrappable (ids (queueAfter E log)) (keys d.txnDb) (wrappedChildren E blockData)) ∧
    ((perform E d i).1 = .ok .done → Moved E (blocksMade log) (queueAfter E log) d
      (perform E d i).2 ⟨blockId, blockData⟩) :=
  ⟨made_iff_wrappable (run_sound h)
      (run_chain (h.mono fun _ _ hi => ⟨hi.works.commit, hi.decoded⟩)) hi hw hp hfs hfit,
    moved_of_made h hi hw hfs⟩

end Effect

def pairCalls : List Invocation :=
  [workingCall (.transactionSubmit 5 7 (transactionCert 5 0 7 1)),
    workingCall (.transactionSubmit 6 7 (transactionCert 6 5 7 2))]

def pairBlock : Bytes := blockCert 9 1 1 [transactionCert 5 0 7 1, transactionCert 6 5 7 2]

theorem queueCall_of_mem_pairCalls : ∀ i ∈ pairCalls, QueueCall i := by
  simp only [pairCalls, List.mem_cons, List.not_mem_nil, or_false]
  rintro i (rfl | rfl)
  · refine ⟨workingCall_works _, ⟨by decide, by decide⟩, ?_⟩
    rintro _ _ _ ⟨⟩
    exact ⟨by decide, by decide⟩
  · refine ⟨workingCall_works _, ⟨by decide, by decide⟩, ?_⟩
    rintro _ _ _ ⟨⟩
    exact ⟨by decide, by decide⟩

theorem pair_block_moves_pair :
    Moved (codecEnv false) [] (queueAfter (codecEnv false) (runCalls (codecEnv false) pairCalls).1)
      (runCalls (codecEnv false) pairCalls).2
      (perform (codecEnv false) (runCalls (codecEnv false) pairCalls).2
        (workingCall (.blockMake 9 pairBlock))).2 ⟨9, pairBlock⟩ := by
  have hrun : Run (codecEnv false) (fun _ i => QueueCall i)
      (runCalls (codecEnv false) pairCalls).1 (runCalls (codecEnv false) pairCalls).2 :=
    run_runCalls (allowedFrom_of_forall queueCall_of_mem_pairCalls emptyStore)
  have hnone : blocksMade (runCalls (codecEnv false) pairCalls).1 = [] := by decide +kernel
  have hok : (perform (codecEnv false) (runCalls (codecEnv false) pairCalls).2
      (workingCall (.blockMake 9 pairBlock))).1 = .ok .done := by decide +kernel
  obtain ⟨fs, hfs⟩ : ∃ fs, (codecEnv false).fields pairBlock = some fs :=
    Option.isSome_iff_exists.mp (by decide +kernel)
  have hread : ((codecEnv false).fields pairBlock).map (fun fs =>
      ((sizedField fs .blockHeight 8), (sizedField fs .previousBlockUuid 16).map (bits 128),
        (sizedField fs .blockUuid 16).map (bits 128))) =
      some (some (be 8 (1 : BitVec 64)), some 1, some 9) := by decide +kernel
  rw [hfs] at hread
  obtain ⟨hheight, hrest⟩ := Prod.mk.inj (Option.some.inj hread)
  obtain ⟨hprev, huuid⟩ := Prod.mk.inj hrest
  have hfit : ContinuesChain (codecEnv false)
      (blocksMade (runCalls (codecEnv false) pairCalls).1) 9 fs := by
    rw [hnone]
    exact ⟨⟨_, hheight, by decide⟩, hprev, huuid, by simp, by decide⟩
  have hmoved := (block_make_moves_wrappable hrun (i := workingCall (.blockMake 9 pairBlock)) rfl
    (workingCall_works _) (workingCall_permitted _) hfs hfit).2 hok
  rw [hnone] at hmoved
  exact hmoved

end BlockEffects
