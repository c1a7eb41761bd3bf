import Agentd.ProcessQueueRefinement

/-! # The process queue over whole runs

`queueAfter` computes the abstract queue from the log of a run alone. Every run keeps `pq.db` a
representation of it, and the operations answer as the list does. -/
namespace ProcessQueueRuns

open ByteString
open CertificateFields
open FaultyTransactions
open DataserviceRecords
open DataserviceStore
open DataserviceQueue
open DataserviceBlocks
open DataserviceRequests
open DataserviceEffects
open ProcessQueueRefinement

/-! ### When the operations can go through -/

section Exists

variable {pq : Uuid → Option Bytes} {q : List Entry} {txnId artifactId : Uuid}

theorem end_and_last {l : List Entry} {p : Entry}
    (holds : Holds pq (l ++ p :: endEntry :: [])) : ∃ pp nn,
      pq ffUuid = some (endEntry.record p.id nn) ∧ pq p.id = some (p.record pp ffUuid) ∧
      p.cert.length < maxPayload := by
  obtain ⟨pp, nn, hp, hend⟩ := holds.pair
  exact ⟨pp, nn, hend, hp, holds.small p (by simp)⟩

theorem header_le_record (e : Entry) (prev next : Uuid) :
    sizeofTransactionNode ≤ (e.record prev next).length := by
  rw [Entry.length_record]
  exact Nat.le_add_right _ _

theorem exists_submitted (h : Represents pq q) (E : Env) (artifactId : Uuid) (txnBytes : Bytes)
    (hz : txnId ≠ zeroUuid) (hf : txnId ≠ ffUuid) (hnot : txnId ∉ ids q) :
    ∃ pq', Submitted E txnId artifactId txnBytes pq pq' := by
  have hfree := (h.none_iff hz hf).mpr hnot
  cases h with
  | unused hq hpq => exact ⟨_, hfree, Or.inl ⟨hpq ffUuid, rfl⟩⟩
  | used holds certs =>
    obtain ⟨l, p, hl, -⟩ := framed_eq q
    rw [hl] at holds
    obtain ⟨pp, nn, hend, hp, hsmall⟩ := end_and_last holds
    have hpid : p.id ≠ txnId := by
      rintro rfl
      rw [hfree] at hp
      cases hp
    refine ⟨_, hfree, Or.inr ⟨_, p.record pp ffUuid, hend, header_le_record _ _ _, ?_, ?_, ?_, rfl⟩⟩
    · rw [Entry.decode_record]
      simp only [Entry.node]
      rw [Function.update_of_ne hpid, hp]
    · rw [storedSize_record hsmall]
      exact header_le_record _ _ _
    · rw [storedSize_record hsmall]

/-- An entry of a represented queue and the records around it. -/
theorem Represents.entry {pq : Uuid → Option Bytes} {q : List Entry} (h : Represents pq q)
    {txnId : Uuid} (hmem : txnId ∈ ids q) : ∃ l p x n r,
      Holds pq (framed q) ∧ framed q = l ++ p :: x :: n :: r ∧ x ∈ q ∧ x.id = txnId ∧
      x.cert ≠ [] := by
  cases h with
  | unused hq hpq =>
    subst hq
    simp [ids] at hmem
  | used holds certs =>
    obtain ⟨l, p, x, n, r, q₁, q₂, rfl, rfl, -, hl, hr⟩ :=
      framed_split hmem (nodup_of_framed holds.nodup)
    have hframed := framed_of_split hl hr [x]
    rw [List.append_assoc, List.singleton_append] at hframed
    exact ⟨l, p, x, n, r, holds, hframed, by simp, rfl, certs x (by simp)⟩

theorem exists_dropped (h : Represents pq q) (hmem : txnId ∈ ids q) :
    ∃ pq', Dropped txnId pq pq' := by
  obtain ⟨l, p, x, n, r, holds, hframed, -, rfl, -⟩ := Represents.entry h hmem
  rw [hframed] at holds
  obtain ⟨pp, nn, hp, hx, hn⟩ := holds.inner
  have hnd := ids_without holds.nodup
  have hpn : p.id ≠ n.id := (ids_split hnd.1).1
  have hpx : p.id ≠ x.id := by
    intro heq
    exact hnd.2 (by simp [ids, heq])
  have hnx : n.id ≠ x.id := by
    intro heq
    exact hnd.2 (by simp [ids, heq])
  refine ⟨_, _, p.record pp x.id, n.record x.id nn, hx, header_le_record _ _ _, ?_,
    header_le_record _ _ _, ?_, header_le_record _ _ _, rfl⟩
  · simp only [Entry.decode_record, Entry.node]
    rw [Function.update_of_ne hpx, hp]
  · simp only [Entry.decode_record, Entry.node]
    rw [Function.update_of_ne hpn.symm, Function.update_of_ne hnx, hn]

theorem exists_promoted (h : Represents pq q) (hmem : txnId ∈ ids q) :
    ∃ pq', Promoted txnId pq pq' := by
  obtain ⟨l, p, x, n, r, holds, hframed, -, rfl, -⟩ := Represents.entry h hmem
  rw [hframed] at holds
  obtain ⟨_, _, -, hx, -⟩ := holds.inner
  exact ⟨_, _, hx, header_le_record _ _ _, rfl⟩

/-- Every header the submit copies by describes its record. -/
theorem transactionSubmitBody_safe {v : Store} (h : Represents v.pqDb q) (E : Env)
    (f : FaultPattern) (artifactId : Uuid) (txnBytes : Bytes) (hz : txnId ≠ zeroUuid)
    (hf : txnId ≠ ffUuid) : Safe (transactionSubmitBody E txnId artifactId txnBytes) f v := by
  apply Safe.bind
  · apply mdbGet_safe.bind
    intro r w _
    cases r with
    | notFound => exact Safe.pure _
    | error => exact Safe.fail _
    | found b =>
      apply (Safe.reject _ _).bind
      intro _ w _
      exact Safe.pure _
  intro endNode w hend
  obtain ⟨rfl, hend, -⟩ := transactionSubmitQueryEnd_ends hend
  apply malloc_safe.bind
  intro _ w hm
  have hw := malloc_ends hm
  subst hw
  apply putOrFail_safe.bind
  intro _ w hput
  obtain ⟨rfl, hfree⟩ := putOrFail_ends hput
  cases endNode with
  | none =>
    apply putOrFail_safe.bind
    intro _ w _
    exact putOrFail_safe
  | some e =>
    refine Safe.bind (updatePrevNext_safe ?_) fun _ w _ => putOrFail_safe
    intro b hb
    cases h with
    | unused hq hpq =>
      rw [hpq] at hend
      cases hend
    | used holds certs =>
      obtain ⟨l, p, hl, -⟩ := framed_eq q
      rw [hl] at holds
      obtain ⟨pp, nn, hlast, hp, hsmall⟩ := end_and_last holds
      have he : e = endEntry.record p.id nn := Option.some.inj (hend.trans hlast)
      have hpid : p.id ≠ txnId := by
        rintro rfl
        exact absurd (hp.symm.trans (hfree rfl)) (by simp)
      have hb' : w.pqDb p.id = some b := by
        rw [he, Entry.decode_record] at hb
        exact (Function.update_of_ne hpid _ _).symm.trans hb
      have hbp : b = p.record pp ffUuid := Option.some.inj (hb'.symm.trans hp)
      rw [hbp, storedSize_record hsmall]
      exact ⟨header_le_record _ _ _, le_rfl⟩

end Exists

/-! ### The queue a run leaves behind -/

def withoutIds (gone : List Uuid) (q : List Entry) : List Entry := q.filter fun e => e.id ∉ gone

def queueStep (E : Env) (q : List Entry) : Request → List Entry
  | .transactionSubmit txnId artifactId txnBytes =>
    q ++ [submittedEntry E txnId artifactId txnBytes]
  | .transactionDrop txnId => withoutId txnId q
  | .transactionPromote txnId => attestId txnId q
  | .blockMake _ blockData => withoutIds (wrappedIds E blockData) q
  | _ => q

def queueAfter (E : Env) (log : List (Invocation × Outcome)) : List Entry :=
  log.foldl (fun q c => match c.2 with
    | .ok _ => queueStep E q c.1.request
    | .error _ => q) []

/-- A call that succeeds is a step of the queue. -/
theorem queueAfter_ok (E : Env) {log : List (Invocation × Outcome)} {c : Invocation × Outcome} {a}
    (h : c.2 = .ok a) : queueAfter E (log ++ [c]) = queueStep E (queueAfter E log) c.1.request := by
  rw [queueAfter, List.foldl_append, List.foldl_cons, List.foldl_nil, h]
  rfl

/-- LMDB and the parser work, and the request is one the decoder and the clients make: its
transaction id is not a sentinel. -/
structure QueueCall (i : Invocation) : Prop where
  works : i.Works
  decoded : i.request.Decoded
  not_sentinel : ∀ txnId artifactId txnBytes,
    i.request = .transactionSubmit txnId artifactId txnBytes → txnId ≠ zeroUuid ∧ txnId ≠ ffUuid

theorem queueCall_submit {txnId artifactId : Uuid} {cert : Bytes}
    (hid : txnId ≠ zeroUuid ∧ txnId ≠ ffUuid) (hne : cert ≠ []) (hlen : cert.length < maxPayload) :
    QueueCall (workingCall (.transactionSubmit txnId artifactId cert)) := by
  refine ⟨workingCall_works _, ⟨hne, hlen⟩, ?_⟩
  intro _ _ _ heq
  cases heq
  exact hid

/-- The wrapped transactions leave the queue one by one. -/
theorem canonized_queue {E : Env} {height : BitVec 64} {blockId : Uuid}
    {cs : List (Bytes × ChildFields)} {v w : Store} (h : Canonized E height blockId cs v w)
    {q : List Entry} (hq : Represents v.pqDb q) :
    (∀ t ∈ childIds cs, t ∈ ids q) ∧ Represents w.pqDb (withoutIds (childIds cs) q) := by
  induction h generalizing q with
  | nil v =>
    have hall : withoutIds (childIds []) q = q := by
      simp [withoutIds, childIds]
    rw [hall]
    exact ⟨by simp [childIds], hq⟩
  | @cons v u w cert c cs first rest ih =>
    obtain ⟨hmem, hu⟩ := hq.drop first.not_sentinel.1 first.not_sentinel.2 first.pq
    obtain ⟨hmems, hw⟩ := ih hu
    have hsplit : withoutIds (childIds ((cert, c) :: cs)) q =
        withoutIds (childIds cs) (withoutId c.transactionId q) := by
      rw [withoutIds, withoutIds, withoutId, List.filter_filter]
      apply List.filter_congr
      intro e _
      simp only [childIds, List.map_cons, List.mem_cons, not_or, Bool.decide_and]
      exact Bool.and_comm _ _
    rw [hsplit]
    refine ⟨?_, hw⟩
    intro t ht
    rcases List.mem_cons.mp ht with rfl | ht
    · exact hmem
    · obtain ⟨e, he, rfl⟩ := List.mem_map.mp (hmems t ht)
      exact List.mem_map_of_mem (List.mem_of_mem_filter he)

theorem effect_queue {E : Env} {q : List Entry} {d w : Store} {i : Invocation} {a : Reply}
    (hq : Represents d.pqDb q) (hi : QueueCall i) (h : i.request.Effect E i.faults d a w) :
    Represents w.pqDb (queueStep E q i.request) := by
  obtain ⟨r, caps, f, b⟩ := i
  rcases effect_queue_cases h with ⟨blockId, blockData, fs, rfl, hfs, hends⟩ | ⟨-, hqueue⟩
  · obtain ⟨first, rest, firstId, blk, cs, hwrap, -, -, hcs, -, hall⟩ := blockMakeBody_ends hends
    have hids := congrArg childIds
      (hcs.eq_wrappedChildren hfs ((hall hi.works.find).trans hwrap.symm))
    have hq' : Represents (withBlock blockId blk d).pqDb q := hq
    have hres := (canonized_queue hcs hq').2
    rw [hids] at hres
    exact hres
  · cases hqueue with
    | submit hs =>
      obtain ⟨hz, hf⟩ := hi.not_sentinel _ _ _ rfl
      exact (hq.submit hz hf hi.decoded.1 hi.decoded.2 hs).2
    | drop hz hf hs => exact (hq.drop hz hf hs).2
    | promote hz hf hs => exact (hq.promote hz hf hs).2
    | other hr hsame =>
      have hstep : queueStep E q r = q := by
        cases r with
        | transactionSubmit _ _ _ => cases hr
        | transactionDrop _ => cases hr
        | transactionPromote _ => cases hr
        | blockMake _ _ => cases hr
        | _ => rfl
      rw [hsame, hstep]
      exact hq

/-! ### Reading the queue -/

/-- What a read of `txnId` returns: the entry with the ids of its neighbours. -/
def Shows (q : List Entry) (txnId : Uuid) (node : DataTransactionNode) (cert : Bytes) : Prop :=
  ∃ l p e n r, framed q = l ++ p :: e :: n :: r ∧ e ∈ q ∧ e.id = txnId ∧
    node = e.node p.id n.id ∧ cert = e.cert

theorem drop_record (e : Entry) (prev next : Uuid) :
    (e.record prev next).drop sizeofTransactionNode = e.cert :=
  List.drop_left' (DataTransactionNode.length_encode _)

section Reads

variable {q : List Entry} {d : Store} {f : FaultPattern} {txnId : Uuid}

theorem sentinel_record_short {e : Entry} (he : e = startEntry ∨ e = endEntry) (prev next : Uuid) :
    (e.record prev next).length = sizeofTransactionNode := by
  rw [Entry.length_record]
  rcases he with rfl | rfl
  · rfl
  · rfl

theorem mem_of_long_record (h : Represents d.pqDb q) {b : Bytes} (hb : d.pqDb txnId = some b)
    (hl : sizeofTransactionNode < b.length) : txnId ∈ ids q := by
  by_contra hnot
  cases h with
  | unused hq hpq =>
    rw [hpq] at hb
    cases hb
  | used holds certs =>
    have hmem := holds.domain txnId (by simp [hb])
    have hsent : ∃ e, (e = startEntry ∨ e = endEntry) ∧ e.id = txnId := by
      rcases mem_ids_framed.mp hmem with h | h | h
      · exact ⟨startEntry, Or.inl rfl, h.symm⟩
      · exact (hnot h).elim
      · exact ⟨endEntry, Or.inr rfl, h.symm⟩
    obtain ⟨e, he, rfl⟩ := hsent
    have hin : e ∈ framed q := by
      rcases he with rfl | rfl
      · simp [framed]
      · simp [framed]
    obtain ⟨prev, next, hrec⟩ := holds.records e hin
    rw [Option.some.inj (hb.symm.trans hrec), sentinel_record_short he] at hl
    exact lt_irrefl _ hl

theorem nodeGet_shows (h : Represents d.pqDb q) {node : DataTransactionNode} {cert : Bytes}
    {w : Store} (hends : Ends (nodeGetBody pqDb false txnId) f d (node, cert) w) :
    Shows q txnId node cert := by
  obtain ⟨b, hb, hl, -, hr⟩ := nodeGetBody_ends hends
  obtain ⟨l, p, x, n, r, holds, hframed, hx, rfl, -⟩ :=
    Represents.entry h (mem_of_long_record h hb hl)
  rw [hframed] at holds
  obtain ⟨_, _, -, hrec, -⟩ := holds.inner
  rw [Option.some.inj (hb.symm.trans hrec), Entry.decode_record, drop_record] at hr
  obtain ⟨hnode, hcert⟩ := Prod.mk.inj hr
  exact ⟨l, p, x, n, r, hframed, hx, rfl, hnode, hcert⟩

theorem nodeGet_yields (h : Represents d.pqDb q) (hf : LmdbWorks f) (ha : AllocWorks f)
    (hmem : txnId ∈ ids q) : ∃ node cert, Shows q txnId node cert ∧
      Yields (nodeGetBody pqDb false txnId) f d (node, cert) d := by
  obtain ⟨l, p, x, n, r, holds, hframed, hx, rfl, hcert⟩ := Represents.entry h hmem
  rw [hframed] at holds
  obtain ⟨_, _, -, hrec, -⟩ := holds.inner
  refine ⟨x.node p.id n.id, x.cert, ⟨l, p, x, n, r, hframed, hx, rfl, rfl, rfl⟩, ?_⟩
  have hpos : 0 < x.cert.length := List.length_pos_iff.mpr hcert
  have hsmall : x.cert.length < 1024 ^ 3 := holds.small x (by simp)
  have hy := nodeGetBody_yields pqDb hf ha hrec ?_ ?_
  · rw [Entry.decode_record, drop_record] at hy
    exact hy
  · rw [Entry.length_record]
    omega
  · rw [Entry.length_record, Entry.decode_record, Entry.node, BitVec.toNat_ofNat]
    omega

/-- The start record names the first entry. -/
theorem firstKey_eq (h : Represents d.pqDb q) {b : Bytes} (hb : d.pqDb zeroUuid = some b) :
    sizeofTransactionNode ≤ b.length ∧
      (DataTransactionNode.decode b).next = (q.head?.map Entry.id).getD ffUuid := by
  cases h with
  | unused hq hpq =>
    rw [hpq] at hb
    cases hb
  | used holds certs =>
    have hfirst : ∃ n r, framed q = [] ++ startEntry :: n :: r ∧
        n.id = (q.head?.map Entry.id).getD ffUuid := by
      cases q with
      | nil => exact ⟨endEntry, [], rfl, rfl⟩
      | cons e q => exact ⟨e, q ++ [endEntry], rfl, rfl⟩
    obtain ⟨n, r, hframed, hn⟩ := hfirst
    rw [hframed] at holds
    obtain ⟨pp, _, hstart, -⟩ := holds.pair
    rw [Option.some.inj (hb.symm.trans hstart), Entry.decode_record]
    exact ⟨header_le_record _ _ _, hn⟩

end Reads

/-! ### How the operations answer -/

/-- A call on the store `d` that represents `q`. Each status is what the list says it should be;
with the capability and enough memory the converse holds too. -/
structure Answers (E : Env) (q : List Entry) (d : Store) (i : Invocation) : Prop where
  failed : (∀ a, (perform E d i).1 ≠ .ok a) → (perform E d i).2 = d
  defined : (∀ blockId blockData, i.request ≠ .blockMake blockId blockData) →
    (perform E d i).1 ≠ .error .undefined
  submit : ∀ txnId artifactId txnBytes,
    i.request = .transactionSubmit txnId artifactId txnBytes →
      ((perform E d i).1 = .ok .done → txnId ∉ ids q) ∧
      (i.Permitted → txnId ∉ ids q → (perform E d i).1 = .ok .done)
  drop : ∀ txnId, i.request = .transactionDrop txnId →
    ((perform E d i).1 = .ok .done → txnId ∈ ids q) ∧
    (i.Permitted → txnId ∈ ids q → (perform E d i).1 = .ok .done)
  promote : ∀ txnId, i.request = .transactionPromote txnId →
    ((perform E d i).1 = .ok .done → txnId ∈ ids q) ∧
    (i.Permitted → txnId ∈ ids q → (perform E d i).1 = .ok .done)
  blockMake : ∀ blockId blockData, i.request = .blockMake blockId blockData →
    (perform E d i).1 = .ok .done → ∀ txnId ∈ wrappedIds E blockData, txnId ∈ ids q
  get : ∀ txnId, i.request = .transactionGet txnId →
    (∀ a, (perform E d i).1 = .ok a → ∃ node cert, a = .transaction node cert ∧
      Shows q txnId node cert) ∧
    (i.Permitted → txnId ∈ ids q → ∃ a, (perform E d i).1 = .ok a)
  getFirst : i.request = .transactionGetFirst →
    (∀ a, (perform E d i).1 = .ok a → ∃ e node cert, q.head? = some e ∧
      a = .transaction node cert ∧ Shows q e.id node cert) ∧
    (i.Permitted → q ≠ [] → ∃ a, (perform E d i).1 = .ok a)

section Answers

variable {E : Env} {q : List Entry} {d : Store}

theorem mem_ids_ne {pq : Uuid → Option Bytes} (h : Represents pq q) {txnId : Uuid}
    (hmem : txnId ∈ ids q) : txnId ≠ zeroUuid ∧ txnId ≠ ffUuid := by
  obtain ⟨l, p, x, n, r, holds, -, hx, rfl, -⟩ := Represents.entry h hmem
  have hnd := holds.nodup
  simp only [framed, ids, List.map_append, List.map_cons] at hnd
  have hmem' : x.id ∈ q.map Entry.id := List.mem_map_of_mem hx
  refine ⟨?_, ?_⟩
  · intro heq
    have hz := (List.nodup_cons.mp hnd).1
    rw [show startEntry.id = x.id from heq.symm] at hz
    exact hz (List.mem_append_left _ hmem')
  · intro heq
    have hdis := (List.nodup_append.mp hnd).2.2
    exact hdis x.id (List.mem_cons_of_mem _ hmem') ffUuid (by simp [endEntry]) heq

theorem submit_answers (hq : Represents d.pqDb q) {txnId artifactId : Uuid} {txnBytes : Bytes}
    {i : Invocation} (hi : i.request = .transactionSubmit txnId artifactId txnBytes)
    (hz : txnId ≠ zeroUuid) (hf : txnId ≠ ffUuid) (hw : LmdbWorks i.faults) :
    ((perform E d i).1 = .ok .done → txnId ∉ ids q) ∧
    (i.Permitted → txnId ∉ ids q → (perform E d i).1 = .ok .done) := by
  obtain ⟨r, caps, f, b⟩ := i
  cases hi
  constructor
  · intro hok
    obtain ⟨w, -, ⟨-, hends⟩, -⟩ := perform_ok hok
    obtain ⟨pq', -, hfree, -⟩ := transactionSubmitBody_ends hends
    exact (hq.none_iff hz hf).mp hfree
  · intro hp hnot
    obtain ⟨pq', hs⟩ := exists_submitted hq E artifactId txnBytes hz hf hnot
    have hy := transactionSubmitBody_yields hw hp.alloc hs
    have hd : Delivers (Request.run E caps (.transactionSubmit txnId artifactId txnBytes)) f d []
        .done { d with pqDb := pq' } :=
      (authorize_delivers hp.capability (inOwnTxn_delivers hw hy)).bind_pure fun _ => Reply.done
    rw [perform_of_delivers hd]

theorem drop_answers (hq : Represents d.pqDb q) {txnId : Uuid} {i : Invocation}
    (hi : i.request = .transactionDrop txnId) (hw : LmdbWorks i.faults) :
    ((perform E d i).1 = .ok .done → txnId ∈ ids q) ∧
    (i.Permitted → txnId ∈ ids q → (perform E d i).1 = .ok .done) := by
  obtain ⟨r, caps, f, b⟩ := i
  cases hi
  constructor
  · intro hok
    obtain ⟨w, -, ⟨-, ⟨hz, hf⟩, hends⟩, -⟩ := perform_ok hok
    obtain ⟨pq', -, hs⟩ := transactionDropBody_ends hends
    exact (hq.drop hz hf hs).1
  · intro hp hmem
    obtain ⟨hz, hf⟩ := mem_ids_ne hq hmem
    obtain ⟨pq', hs⟩ := exists_dropped hq hmem
    have hy := transactionDropBody_yields hw hp.alloc hs
    have hd : Delivers (Request.run E caps (.transactionDrop txnId)) f d []
        .done { d with pqDb := pq' } :=
      (authorize_delivers hp.capability (Delivers.of_reject (not_or.mpr ⟨hz, hf⟩)
        (inTxnOrParent_delivers hw hy))).bind_pure fun _ => Reply.done
    rw [perform_of_delivers hd]

theorem promote_answers (hq : Represents d.pqDb q) {txnId : Uuid} {i : Invocation}
    (hi : i.request = .transactionPromote txnId) (hw : LmdbWorks i.faults) :
    ((perform E d i).1 = .ok .done → txnId ∈ ids q) ∧
    (i.Permitted → txnId ∈ ids q → (perform E d i).1 = .ok .done) := by
  obtain ⟨r, caps, f, b⟩ := i
  cases hi
  constructor
  · intro hok
    obtain ⟨w, -, ⟨-, ⟨hz, hf⟩, hends⟩, -⟩ := perform_ok hok
    obtain ⟨pq', -, hs⟩ := transactionPromoteBody_ends hends
    exact (hq.promote hz hf hs).1
  · intro hp hmem
    obtain ⟨hz, hf⟩ := mem_ids_ne hq hmem
    obtain ⟨pq', hs⟩ := exists_promoted hq hmem
    have hy := transactionPromoteBody_yields hw hp.alloc hs
    have hd : Delivers (Request.run E caps (.transactionPromote txnId)) f d []
        .done { d with pqDb := pq' } :=
      (authorize_delivers hp.capability (Delivers.of_reject (not_or.mpr ⟨hz, hf⟩)
        (inTxnOrParent_delivers hw hy))).bind_pure fun _ => Reply.done
    rw [perform_of_delivers hd]

theorem blockMake_answers (hq : Represents d.pqDb q) {blockId : Uuid} {blockData : Bytes}
    {i : Invocation} (hi : i.request = .blockMake blockId blockData) (hw : FindWorks i.faults)
    (hok : (perform E d i).1 = .ok .done) : ∀ txnId ∈ wrappedIds E blockData, txnId ∈ ids q := by
  obtain ⟨r, caps, f, b⟩ := i
  cases hi
  obtain ⟨w, -, ⟨-, fs, hfs, hends⟩, -⟩ := perform_ok hok
  obtain ⟨first, rest, firstId, blk, cs, hwrap, -, -, hcs, -, hall⟩ := blockMakeBody_ends hends
  rw [wrappedIds, ← hcs.eq_wrappedChildren hfs ((hall hw).trans hwrap.symm)]
  have hq' : Represents (withBlock blockId blk d).pqDb q := hq
  exact (canonized_queue hcs hq').1

theorem get_answers (hq : Represents d.pqDb q) {txnId : Uuid} {i : Invocation}
    (hi : i.request = .transactionGet txnId) (hw : LmdbWorks i.faults) :
    (∀ a, (perform E d i).1 = .ok a → ∃ node cert, a = .transaction node cert ∧
      Shows q txnId node cert) ∧
    (i.Permitted → txnId ∈ ids q → ∃ a, (perform E d i).1 = .ok a) := by
  obtain ⟨r, caps, f, b⟩ := i
  cases hi
  constructor
  · intro a hok
    obtain ⟨w, -, ⟨-, node, cert, u, ha, hends⟩, -⟩ := perform_ok hok
    exact ⟨node, cert, ha, nodeGet_shows hq hends⟩
  · intro hp hmem
    obtain ⟨node, cert, -, hy⟩ := nodeGet_yields hq hw hp.alloc hmem
    have hget : Delivers (transactionGet caps txnId) f d [] (node, cert) d :=
      authorize_delivers hp.capability (nodeGet_delivers hw hy)
    have hd : Delivers (Request.run E caps (.transactionGet txnId)) f d []
        (.transaction node cert) d := hget.bind_pure fun r => Reply.transaction r.1 r.2
    exact ⟨_, by rw [perform_of_delivers hd]⟩

theorem getFirst_answers (hq : Represents d.pqDb q) {i : Invocation}
    (hi : i.request = .transactionGetFirst) (hw : LmdbWorks i.faults) :
    (∀ a, (perform E d i).1 = .ok a → ∃ e node cert, q.head? = some e ∧
      a = .transaction node cert ∧ Shows q e.id node cert) ∧
    (i.Permitted → q ≠ [] → ∃ a, (perform E d i).1 = .ok a) := by
  obtain ⟨r, caps, f, b⟩ := i
  cases hi
  constructor
  · intro a hok
    obtain ⟨w, -, ⟨-, key, node, cert, u, u', ha, hfirst, hends⟩, -⟩ := perform_ok hok
    obtain ⟨b, hb, hkey, hne⟩ := firstKey_ends hfirst
    rw [(firstKey_eq hq hb).2] at hkey
    cases q with
    | nil => exact (hne hkey).elim
    | cons e q =>
      have hid : key = e.id := hkey
      refine ⟨e, node, cert, rfl, ha, ?_⟩
      rw [← hid]
      exact nodeGet_shows hq hends
  · intro hp hne
    obtain ⟨e, rest, rfl⟩ := List.exists_cons_of_ne_nil hne
    have hmem : e.id ∈ ids (e :: rest) := by simp [ids]
    obtain ⟨node, cert, -, hy⟩ := nodeGet_yields hq hw hp.alloc hmem
    obtain ⟨b, hb⟩ : ∃ b, d.pqDb zeroUuid = some b := by
      cases hq with
      | unused hq hpq => cases hq
      | used holds certs =>
        obtain ⟨prev, next, hrec⟩ := holds.records startEntry (by simp [framed])
        exact ⟨_, hrec⟩
    obtain ⟨hlen, hnext⟩ := firstKey_eq hq hb
    have hnext' : (DataTransactionNode.decode b).next = e.id := hnext
    have hfirst := firstKey_yields hw hb hlen (by
      rw [hnext']
      exact (mem_ids_ne hq hmem).2)
    rw [hnext'] at hfirst
    have hrest : Delivers ((Prog.inTxn firstKey).finally' mdbTxnAbort >>= fun key =>
        nodeGet pqDb key) f d [d] (node, cert) d :=
      (Delivers.always_abort hfirst (mdbTxnAbort_ends f d)).bind_of_same (nodeGet_delivers hw hy)
    have hget : Delivers (transactionGetFirst caps) f d [] (node, cert) d :=
      authorize_delivers hp.capability (mdbTxnBegin_delivers hw hrest)
    have hd : Delivers (Request.run E caps .transactionGetFirst) f d []
        (.transaction node cert) d := hget.bind_pure fun r => Reply.transaction r.1 r.2
    exact ⟨_, by rw [perform_of_delivers hd]⟩

theorem defined_answers (hq : Represents d.pqDb q) {i : Invocation} (hi : QueueCall i)
    (hb : ∀ blockId blockData, i.request ≠ .blockMake blockId blockData) :
    (perform E d i).1 ≠ .error .undefined := by
  rcases perform_cases E d i with ⟨hu, -⟩ | ⟨e, he⟩ | ⟨a, w, -, -, ha⟩
  · exfalso
    obtain ⟨r, caps, f, b⟩ := i
    rcases hu with hu | ⟨-, hcommit⟩
    · cases r with
      | transactionSubmit txnId artifactId txnBytes =>
        obtain ⟨hz, hf⟩ := hi.not_sentinel _ _ _ rfl
        exact hu (transactionSubmitBody_safe hq E f artifactId txnBytes hz hf)
      | blockMake blockId blockData => exact hb blockId blockData rfl
      | _ => exact hu
    · have hworks := hi.works.commit
      rw [hcommit] at hworks
      cases hworks
  · rw [he]
    simp
  · rw [ha]
    simp

theorem answers_of_represents (hq : Represents d.pqDb q) {i : Invocation} (hi : QueueCall i) :
    Answers E q d i where
  failed := perform_error
  defined := defined_answers hq hi
  submit txnId artifactId txnBytes hr := by
    obtain ⟨hz, hf⟩ := hi.not_sentinel _ _ _ hr
    exact submit_answers hq hr hz hf hi.works.lmdb
  drop txnId hr := drop_answers hq hr hi.works.lmdb
  promote txnId hr := promote_answers hq hr hi.works.lmdb
  blockMake blockId blockData hr := blockMake_answers hq hr hi.works.find
  get txnId hr := get_answers hq hr hi.works.lmdb
  getFirst hr := getFirst_answers hq hr hi.works.lmdb

end Answers

/-! ### Refinement -/

theorem step_represents {E : Env} {q : List Entry} {d : Store} {i : Invocation}
    (hq : Represents d.pqDb q) (hi : QueueCall i) :
    Represents (perform E d i).2.pqDb (match (perform E d i).1 with
      | .ok _ => queueStep E q i.request
      | .error _ => q) := by
  rcases perform_cases E d i with ⟨-, he⟩ | ⟨e, he⟩ | ⟨a, w, -, heff, ha⟩
  · rw [he]
    exact hq
  · rw [he]
    exact hq
  · rw [ha, hi.works.commit]
    exact effect_queue hq hi heff

theorem run_represents {E : Env} {log : List (Invocation × Outcome)} {d : Store}
    (h : Run E (fun _ i => QueueCall i) log d) : Represents d.pqDb (queueAfter E log) := by
  induction h with
  | nil => exact .unused rfl fun _ => rfl
  | snoc before call ih =>
    rw [queueAfter, List.foldl_append]
    exact step_represents ih call

/-- Every run from an empty database keeps the process queue a representation of the abstract
queue of its log, and every further call answers as that list does. -/
theorem process_queue_refines_list {E : Env} {log : List (Invocation × Outcome)} {d : Store}
    (h : Run E (fun _ i => QueueCall i) log d) :
    Represents d.pqDb (queueAfter E log) ∧ ∀ i, QueueCall i → Answers E (queueAfter E log) d i :=
  ⟨run_represents h, fun _ hi => answers_of_represents (run_represents h) hi⟩

def sampleCalls : List Invocation :=
  [workingCall (.transactionSubmit 5 7 [1]), workingCall (.transactionSubmit 6 7 [2]),
    workingCall (.transactionSubmit 8 7 [3]), workingCall (.transactionDrop 6),
    workingCall (.transactionPromote 8)]

theorem sampleCalls_allowed (i : Invocation) (hi : i ∈ sampleCalls) : QueueCall i := by
  simp only [sampleCalls, List.mem_cons, List.not_mem_nil, or_false] at hi
  rcases hi with rfl | rfl | rfl | rfl | rfl
  · refine ⟨workingCall_works _, ⟨by decide, by decide⟩, ?_⟩
    rintro _ _ _ ⟨⟩
    exact ⟨by decide, by decide⟩
  · refine ⟨workingCall_works _, ⟨by decide, by decide⟩, ?_⟩
    rintro _ _ _ ⟨⟩
    exact ⟨by decide, by decide⟩
  · refine ⟨workingCall_works _, ⟨by decide, by decide⟩, ?_⟩
    rintro _ _ _ ⟨⟩
    exact ⟨by decide, by decide⟩
  · refine ⟨workingCall_works _, trivial, ?_⟩
    rintro _ _ _ ⟨⟩
  · refine ⟨workingCall_works _, trivial, ?_⟩
    rintro _ _ _ ⟨⟩

theorem sample_queue_refines_list :
    ids (queueAfter (codecEnv true) (runCalls (codecEnv true) sampleCalls).1) = [5, 8] ∧
      Represents (runCalls (codecEnv true) sampleCalls).2.pqDb
        (queueAfter (codecEnv true) (runCalls (codecEnv true) sampleCalls).1) := by
  have hrun : Run (codecEnv true) (fun _ i => QueueCall i)
      (runCalls (codecEnv true) sampleCalls).1 (runCalls (codecEnv true) sampleCalls).2 :=
    run_runCalls (allowedFrom_of_forall sampleCalls_allowed emptyStore)
  exact ⟨by decide +kernel, (process_queue_refines_list hrun).1⟩

end ProcessQueueRuns
