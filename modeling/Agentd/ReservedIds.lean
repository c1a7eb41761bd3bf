import Agentd.ReachableStores

/-! # Submits under reserved ids

The sentinels of the process queue share their keys with the ids that clients choose. The first
submit writes its record before the sentinels, so that a reserved id is taken by a sentinel, and
after that a reserved id is refused like any other id of the queue. -/
namespace ReservedIds

open ByteString
open CertificateFields
open FaultyTransactions
open LinkedKeys
open DataserviceRecords
open DataserviceStore
open DataserviceQueue
open DataserviceBlocks
open DataserviceRequests
open DataserviceEffects
open ProcessQueueRefinement
open ProcessQueueRuns

/-! ### Walking the queue -/

/-- The key that is reached from the start record after following some links. -/
def follow (pq : Uuid → Option Bytes) : ℕ → Option Uuid
  | 0 => some zeroUuid
  | n + 1 => (follow pq n).bind (nextIn pq)

def Reaches (pq : Uuid → Option Bytes) (k : Uuid) : Prop := ∃ n, follow pq n = some k

/-- What a transaction_submit does when it does what it should: it is refused and changes nothing,
or the queue is well formed with the transaction behind all others, and from its first entry all are
reached. -/
def SubmitKeepsQueue (E : Env) (d : Store) (txnId artifactId : Uuid) (txnBytes : Bytes)
    (caps : Bitcap) (f : FaultPattern) (commitFails : Bool) : Prop :=
  let r := perform E d ⟨.transactionSubmit txnId artifactId txnBytes, caps, f, commitFails⟩
  ((∀ a, r.1 ≠ .ok a) ∧ r.2 = d) ∨
    ∃ q, Represents d.pqDb q ∧
      Represents r.2.pqDb (q ++ [submittedEntry E txnId artifactId txnBytes]) ∧
      ∀ e ∈ q ++ [submittedEntry E txnId artifactId txnBytes], Reaches r.2.pqDb e.id

/-- A submit is refused for an id that is taken, and otherwise has an id of its own. -/
def Unreserved (d : Store) : Request → Prop
  | .transactionSubmit txnId _ _ => d.pqDb txnId ≠ none ∨ (txnId ≠ zeroUuid ∧ txnId ≠ ffUuid)
  | _ => True

/-- A decoded request, with whatever capabilities and failures, that brings no reserved id into the
queue. -/
def UnreservedCall (d : Store) (i : Invocation) : Prop :=
  i.request.Decoded ∧ Unreserved d i.request

section Queue

variable {E : Env} {q : List Entry} {d w : Store} {pq : Uuid → Option Bytes} {i : Invocation}
  {txnId artifactId : Uuid} {txnBytes : Bytes} {a : Reply}

theorem Reaches.next {k k' : Uuid} (h : Reaches pq k) (hk : nextIn pq k = some k') :
    Reaches pq k' := by
  obtain ⟨n, hn⟩ := h
  refine ⟨n + 1, ?_⟩
  rw [follow, hn]
  exact hk

theorem Represents.reaches (h : Represents pq q) {e : Entry} (he : e ∈ q) : Reaches pq e.id := by
  cases h with
  | unused hq hpq =>
    rw [hq] at he
    cases he
  | used holds certs =>
    have hlinked := holds.linked
    have hmem : e.id ∈ ids (framed q) :=
      List.mem_map_of_mem (List.mem_append_left _ (List.mem_cons_of_mem _ he))
    exact hlinked.forall_mem ⟨0, rfl⟩ (fun _ _ hk hnext => Reaches.next hk hnext) e.id hmem

/-! ### Runs without reserved ids -/

/-- A submit that ends well has entered a new transaction. -/
theorem submit_represents (hq : Represents d.pqDb q)
    (hdecoded : (Request.transactionSubmit txnId artifactId txnBytes).Decoded)
    (hid : Unreserved d (.transactionSubmit txnId artifactId txnBytes))
    (hs : Submitted E txnId artifactId txnBytes d.pqDb pq) :
    Represents pq (q ++ [submittedEntry E txnId artifactId txnBytes]) := by
  rcases hid with htaken | ⟨hz, hf⟩
  · exact (htaken hs.1).elim
  · exact (hq.submit hz hf hdecoded.1 hdecoded.2 hs).2

theorem effect_represents (hq : Represents d.pqDb q) (hi : UnreservedCall d i)
    (h : i.request.Effect E i.faults d a w) : ∃ q', Represents w.pqDb q' := by
  obtain ⟨r, caps, f, b⟩ := i
  obtain ⟨hdecoded, hid⟩ := hi
  rcases effect_queue_cases h with ⟨blockId, blockData, fs, rfl, -, hends⟩ | ⟨-, hqueue⟩
  · obtain ⟨_, _, _, blk, cs, -, -, -, hcs, -⟩ := blockMakeBody_ends hends
    have hq' : Represents (withBlock blockId blk d).pqDb q := hq
    exact ⟨_, (canonized_queue hcs hq').2⟩
  · cases hqueue with
    | submit hs => exact ⟨_, submit_represents hq hdecoded hid hs⟩
    | drop hz hf hs => exact ⟨_, (hq.drop hz hf hs).2⟩
    | promote hz hf hs => exact ⟨_, (hq.promote hz hf hs).2⟩
    | other hr hsame =>
      rw [hsame]
      exact ⟨q, hq⟩

theorem run_represents {log : List (Invocation × Outcome)} (h : Run E UnreservedCall log d) :
    ∃ q, Represents d.pqDb q := by
  induction h with
  | nil => exact ⟨[], .unused rfl fun _ => rfl⟩
  | snoc before call ih =>
    obtain ⟨q, hq⟩ := ih
    exact perform_preserves ⟨q, hq⟩ fun a w _ heff => effect_represents hq call heff

/-! ### One submit -/

/-- A working submit of an id that is not taken goes through, whatever becomes of its commit. -/
theorem submit_succeeds (hq : Represents d.pqDb q) (hnone : d.pqDb txnId = none) {caps : Bitcap}
    {f : FaultPattern} {b : Bool} (hcap : bitcapIsset caps .appPqTransactionSubmit = true)
    (hf : LmdbWorks f) (ha : AllocWorks f) :
    (perform E d ⟨.transactionSubmit txnId artifactId txnBytes, caps, f, b⟩).1 = .ok .done := by
  have hs : ∃ pq', Submitted E txnId artifactId txnBytes d.pqDb pq' := by
    cases hq with
    | unused _ hpq => exact ⟨_, hnone, Or.inl ⟨hpq ffUuid, rfl⟩⟩
    | used holds certs =>
      obtain ⟨_, _, hstart⟩ := holds.records startEntry (by simp [framed])
      obtain ⟨_, _, hend⟩ := holds.records endEntry (by simp [framed])
      have hz : txnId ≠ zeroUuid := by
        rintro rfl
        exact absurd (hnone.symm.trans hstart) (by simp)
      have hff : txnId ≠ ffUuid := by
        rintro rfl
        exact absurd (hnone.symm.trans hend) (by simp)
      have hrep := Represents.used holds certs
      exact exists_submitted hrep E artifactId txnBytes hz hff ((hrep.none_iff hz hff).mp hnone)
  obtain ⟨pq', hs⟩ := hs
  have hy := transactionSubmitBody_yields hf ha hs
  have hd : Delivers (Request.run E caps (.transactionSubmit txnId artifactId txnBytes)) f d []
      .done { d with pqDb := pq' } :=
    (authorize_delivers hcap (inOwnTxn_delivers hf hy)).bind_pure fun _ => Reply.done
  rw [perform_of_delivers (i := ⟨_, caps, f, b⟩) hd]

theorem submitKeepsQueue_of_unreserved (hq : Represents d.pqDb q)
    (hdecoded : (Request.transactionSubmit txnId artifactId txnBytes).Decoded) {b : Bool}
    (hid : d.pqDb txnId ≠ none ∨ (txnId ≠ zeroUuid ∧ txnId ≠ ffUuid ∧ b = false))
    (caps : Bitcap) (f : FaultPattern) :
    SubmitKeepsQueue E d txnId artifactId txnBytes caps f b := by
  unfold SubmitKeepsQueue
  rcases perform_cases E d ⟨.transactionSubmit txnId artifactId txnBytes, caps, f, b⟩ with
    ⟨-, he⟩ | ⟨e, he⟩ | ⟨a, w, -, ⟨-, hends⟩, ha⟩
  · rw [he]
    exact Or.inl ⟨(fun a heq => by cases heq), rfl⟩
  · rw [he]
    exact Or.inl ⟨(fun a heq => by cases heq), rfl⟩
  · obtain ⟨pq', rfl, hs⟩ := transactionSubmitBody_ends hends
    obtain ⟨hz, hf, rfl⟩ := hid.resolve_left fun htaken => htaken hs.1
    have hrep := submit_represents hq hdecoded (Or.inr ⟨hz, hf⟩) hs
    rw [ha]
    exact Or.inr ⟨q, hq, hrep, fun e he => Represents.reaches hrep he⟩

theorem unreserved_of_submitKeepsQueue (hq : Represents d.pqDb q) {b : Bool}
    (h : SubmitKeepsQueue E d txnId artifactId txnBytes (BitVec.allOnes 32) noFaults b) :
    d.pqDb txnId ≠ none ∨ (txnId ≠ zeroUuid ∧ txnId ≠ ffUuid ∧ b = false) := by
  by_cases hnone : d.pqDb txnId = none
  · right
    have hworks := workingCall_works (.transactionSubmit txnId artifactId txnBytes)
    have hpermitted := workingCall_permitted (.transactionSubmit txnId artifactId txnBytes)
    have hok : (perform E d ⟨.transactionSubmit txnId artifactId txnBytes, BitVec.allOnes 32,
        noFaults, b⟩).1 = .ok .done :=
      submit_succeeds hq hnone hpermitted.capability hworks.lmdb hpermitted.alloc
    rcases h with ⟨hfails, -⟩ | ⟨q', -, hrep, -⟩
    · exact (hfails _ hok).elim
    · have hmem : txnId ∈ ids (q' ++ [submittedEntry E txnId artifactId txnBytes]) := by
        rw [ids, List.map_append]
        exact List.mem_append_right _ (List.mem_singleton_self _)
      obtain ⟨hz, hf⟩ := mem_ids_ne hrep hmem
      refine ⟨hz, hf, ?_⟩
      cases b with
      | false => rfl
      | true =>
        obtain ⟨w, -, -, hstore⟩ := perform_ok hok
        rw [hstore] at hrep
        exact ((hrep.none_iff hz hf).mp hnone hmem).elim
  · exact Or.inl hnone

end Queue

/-- In runs that bring no reserved id into the queue, a submit keeps the queue under all failures
exactly when its id is taken, or is no sentinel's and the commit works. -/
theorem submits_keep_queue {E : Env} {log : List (Invocation × Outcome)} {d : Store}
    (h : Run E UnreservedCall log d) (txnId artifactId : Uuid) (txnBytes : Bytes)
    (hdecoded : (Request.transactionSubmit txnId artifactId txnBytes).Decoded)
    (commitFails : Bool) :
    (∀ caps f, SubmitKeepsQueue E d txnId artifactId txnBytes caps f commitFails) ↔
      d.pqDb txnId ≠ none ∨ (txnId ≠ zeroUuid ∧ txnId ≠ ffUuid ∧ commitFails = false) := by
  obtain ⟨q, hq⟩ := run_represents h
  constructor
  · intro hkeeps
    exact unreserved_of_submitKeepsQueue hq (hkeeps (BitVec.allOnes 32) noFaults)
  · intro hid
    exact submitKeepsQueue_of_unreserved hq hdecoded hid

/-- The second of two submits, each of a transaction of its own. -/
theorem second_submit_keeps_queue :
    SubmitKeepsQueue (codecEnv true)
      (runCalls (codecEnv true) [workingCall (.transactionSubmit 5 7 [1])]).2 6 7 [2]
      (BitVec.allOnes 32) noFaults false := by
  have hrun : Run (codecEnv true) UnreservedCall
      (runCalls (codecEnv true) [workingCall (.transactionSubmit 5 7 [1])]).1
      (runCalls (codecEnv true) [workingCall (.transactionSubmit 5 7 [1])]).2 :=
    run_runCalls ⟨⟨⟨by decide, by decide⟩, Or.inr ⟨by decide, by decide⟩⟩, trivial⟩
  exact (submits_keep_queue hrun 6 7 [2] ⟨by decide, by decide⟩ false).mpr
    (Or.inr ⟨by decide, by decide, rfl⟩) _ _

def endSentinelCalls : List Invocation :=
  [workingCall (.transactionSubmit ffUuid 7 [1]), workingCall (.transactionSubmit 5 7 [2]),
    workingCall .transactionGetFirst]

theorem end_sentinel_breaks_queue :
    ¬ SubmitKeepsQueue (codecEnv true) emptyStore ffUuid 7 [1] (BitVec.allOnes 32) noFaults false ∧
      ¬ SubmitKeepsQueue (codecEnv true) emptyStore zeroUuid 7 [1] (BitVec.allOnes 32) noFaults
        false ∧
      (runCalls (codecEnv true) endSentinelCalls).1.map Prod.snd =
        [.ok .done, .ok .done, .error (.fail .notFound)] := by
  have hempty : Represents emptyStore.pqDb [] := .unused rfl fun _ => rfl
  refine ⟨?_, ?_, by decide +kernel⟩
  · intro hkeeps
    rcases unreserved_of_submitKeepsQueue hempty hkeeps with htaken | ⟨-, hf, -⟩
    · exact htaken rfl
    · exact hf rfl
  · intro hkeeps
    rcases unreserved_of_submitKeepsQueue hempty hkeeps with htaken | ⟨hz, -⟩
    · exact htaken rfl
    · exact hz rfl

end ReservedIds
