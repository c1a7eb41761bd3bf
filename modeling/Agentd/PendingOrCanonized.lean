import Agentd.DataserviceEffects

/-! # Pending or canonized

Submit looks at `pq.db` alone and block make moves records from `pq.db` to `txn.db`. No id is a key
of both as long as nobody submits an id that is already in `txn.db`; nothing checks that. The
argument is about keys only, so it needs no well-formed queue and allows any failures. -/
namespace PendingOrCanonized

open ByteString
open CertificateFields
open FaultyTransactions
open DataserviceRecords
open DataserviceStore
open DataserviceQueue
open DataserviceBlocks
open DataserviceRequests
open DataserviceEffects

def Exclusive (d : Store) : Prop :=
  ∀ k, k ≠ zeroUuid → k ≠ ffUuid → d.pqDb k ≠ none → d.txnDb k = none

/-- The end record carries its own key, under which submit writes it back. -/
def EndKeyed (pq : Uuid → Option Bytes) : Prop :=
  ∀ b, pq ffUuid = some b → sizeofTransactionNode ≤ b.length ∧
    (DataTransactionNode.decode b).key = ffUuid

/-- The submitted id is not canonized yet. -/
def FreshSubmit (d : Store) (i : Invocation) : Prop :=
  ∀ txnId artifactId txnBytes, i.request = .transactionSubmit txnId artifactId txnBytes →
    d.txnDb txnId = none

/-! ### The end record -/

namespace EndKeyed

variable {pq : Uuid → Option Bytes} {k : Uuid} {b : Bytes}

theorem update_none (h : EndKeyed pq) : EndKeyed (Function.update pq k none) := by
  intro c hc
  by_cases hk : ffUuid = k
  · rw [hk, Function.update_self] at hc
    cases hc
  · rw [Function.update_of_ne hk] at hc
    exact h c hc

theorem update_of_ne {v : Option Bytes} (h : EndKeyed pq) (hk : k ≠ ffUuid) :
    EndKeyed (Function.update pq k v) := by
  intro c hc
  rw [Function.update_of_ne hk.symm] at hc
  exact h c hc

theorem put (h : EndKeyed pq) (hb : k = ffUuid → sizeofTransactionNode ≤ b.length ∧
    (DataTransactionNode.decode b).key = ffUuid) : EndKeyed (Function.update pq k (some b)) := by
  intro c hc
  by_cases hk : ffUuid = k
  · rw [hk, Function.update_self] at hc
    rw [← Option.some.inj hc]
    exact hb hk.symm
  · rw [Function.update_of_ne hk] at hc
    exact h c hc

/-- Patching a link of a stored record. -/
theorem put_setNext (h : EndKeyed pq) (hb : pq k = some b) (id : Uuid) :
    EndKeyed (Function.update pq k (some (setNext b id))) := by
  apply h.put
  rintro rfl
  obtain ⟨hl, hkey⟩ := h b hb
  rw [length_setNext hl, DataTransactionNode.decode_setNext hl]
  exact ⟨hl, hkey⟩

theorem put_setPrev (h : EndKeyed pq) (hb : pq k = some b) (id : Uuid) :
    EndKeyed (Function.update pq k (some (setPrev b id))) := by
  apply h.put
  rintro rfl
  obtain ⟨hl, hkey⟩ := h b hb
  rw [length_setPrev hl, DataTransactionNode.decode_setPrev hl]
  exact ⟨hl, hkey⟩

end EndKeyed

/-! ### Keys each operation leaves behind -/

theorem submitted_keys {E : Env} {txnId artifactId : Uuid} {txnBytes : Bytes}
    {pq pq' : Uuid → Option Bytes} (hend : EndKeyed pq)
    (hs : Submitted E txnId artifactId txnBytes pq pq') :
    EndKeyed pq' ∧
      ∀ k, k ≠ zeroUuid → k ≠ ffUuid → pq' k ≠ none → k = txnId ∨ pq k ≠ none := by
  obtain ⟨-, ⟨-, rfl⟩ | ⟨e, b, he, hlen, hb, -, -, rfl⟩⟩ := hs
  · constructor
    · intro c hc
      rw [createdQueue, Function.update_self] at hc
      rw [← Option.some.inj hc]
      exact ⟨by simp, by simp [endNode]⟩
    · intro k hz hf hk
      by_cases hkt : k = txnId
      · exact Or.inl hkt
      · rw [createdQueue, Function.update_of_ne hf, Function.update_of_ne hz,
          Function.update_of_ne hkt] at hk
        exact Or.inr hk
  · obtain ⟨hel, hekey⟩ := hend e he
    have hlen' : sizeofTransactionNode ≤ (e.take sizeofTransactionNode).length := by
      rw [List.length_take, Nat.min_eq_left hel]
    have hkey : (DataTransactionNode.decode
        (setPrev (e.take sizeofTransactionNode) txnId)).key = ffUuid := by
      rw [DataTransactionNode.decode_setPrev hlen', DataTransactionNode.decode_take le_rfl]
      exact hekey
    rw [hkey]
    constructor
    · intro c hc
      rw [Function.update_self] at hc
      rw [← Option.some.inj hc]
      exact ⟨hlen'.trans_eq (length_setPrev hlen' txnId).symm, hkey⟩
    · intro k hz hf hk
      rw [Function.update_of_ne hf] at hk
      by_cases hkt : k = txnId
      · exact Or.inl hkt
      · refine Or.inr ?_
        by_cases hkp : k = (DataTransactionNode.decode e).prev
        · rw [← hkp, Function.update_of_ne hkt] at hb
          simp [hb]
        · rw [Function.update_of_ne hkp, Function.update_of_ne hkt] at hk
          exact hk

theorem dropped_keys {txnId : Uuid} {pq pq' : Uuid → Option Bytes} (hend : EndKeyed pq)
    (hs : Dropped txnId pq pq') :
    EndKeyed pq' ∧ ∀ k, pq' k ≠ none → k ≠ txnId ∧ pq k ≠ none := by
  obtain ⟨x, p, n, hx, -, hp, -, hn, -, rfl⟩ := hs
  constructor
  · exact (hend.update_none.put_setNext hp _).put_setPrev hn _
  · have hprev : (DataTransactionNode.decode x).prev ≠ txnId := by
      intro heq
      rw [heq, Function.update_self] at hp
      cases hp
    have hnext : (DataTransactionNode.decode x).next ≠ txnId := by
      intro heq
      rw [heq, Function.update_of_ne hprev.symm, Function.update_self] at hn
      cases hn
    intro k hk
    have hkt : k ≠ txnId := by
      rintro rfl
      rw [Function.update_of_ne hnext.symm, Function.update_of_ne hprev.symm,
        Function.update_self] at hk
      exact hk rfl
    refine ⟨hkt, ?_⟩
    by_cases hkp : k = (DataTransactionNode.decode x).prev
    · rw [← hkp, Function.update_of_ne hkt] at hp
      simp [hp]
    · by_cases hkn : k = (DataTransactionNode.decode x).next
      · rw [← hkn, Function.update_of_ne hkp, Function.update_of_ne hkt] at hn
        simp [hn]
      · rw [Function.update_of_ne hkn, Function.update_of_ne hkp, Function.update_of_ne hkt] at hk
        exact hk

theorem txnEntered_keys {blockId : Uuid} {cert : Bytes} {c : ChildFields}
    {txn txn' : Uuid → Option Bytes} (h : TxnEntered blockId cert c txn txn') :
    ∀ k, k ≠ c.transactionId → txn k = none → txn' k = none := by
  intro k hk hnone
  have hentered : entered blockId cert c txn k = none := by
    rw [entered, Function.update_of_ne hk, hnone]
  obtain ⟨-, ⟨-, rfl⟩ | ⟨-, b, hb, -, rfl⟩⟩ := h
  · exact hentered
  · have hkp : k ≠ c.prevTransactionId := by
      rintro rfl
      rw [hentered] at hb
      cases hb
    rw [Function.update_of_ne hkp, hentered]

/-! ### Runs -/

structure Invariant (d : Store) : Prop where
  exclusive : Exclusive d
  endKeyed : EndKeyed d.pqDb

theorem canonized_preserves {E : Env} {height : BitVec 64} {blockId : Uuid}
    {cs : List (Bytes × ChildFields)} {v w : Store} (h : Canonized E height blockId cs v w)
    (hv : Invariant v) : Invariant w := by
  induction h with
  | nil v => exact hv
  | cons first rest ih =>
    apply ih
    obtain ⟨hend, hkeys⟩ := dropped_keys hv.endKeyed first.pq
    refine ⟨?_, hend⟩
    intro k hz hf hk
    obtain ⟨hkt, hk'⟩ := hkeys k hk
    exact txnEntered_keys first.txn k hkt (hv.exclusive k hz hf hk')

theorem effect_preserves {E : Env} {d w : Store} {i : Invocation} {a : Reply} (hd : Invariant d)
    (hi : FreshSubmit d i) (h : i.request.Effect E i.faults d a w) : Invariant w := by
  obtain ⟨r, caps, f, b⟩ := i
  rcases effect_queue_cases h with ⟨blockId, blockData, fs, rfl, -, hends⟩ | ⟨hsame, hqueue⟩
  · obtain ⟨_, _, _, blk, cs, -, -, -, hcs, -, -⟩ := blockMakeBody_ends hends
    exact canonized_preserves hcs ⟨hd.exclusive, hd.endKeyed⟩
  · have hexclusive : ∀ k, k ≠ zeroUuid → k ≠ ffUuid → d.pqDb k ≠ none → w.txnDb k = none := by
      rw [hsame.txn]
      exact hd.exclusive
    cases hqueue with
    | submit hs =>
      obtain ⟨hend, hkeys⟩ := submitted_keys hd.endKeyed hs
      refine ⟨?_, hend⟩
      intro k hz hf hk
      rcases hkeys k hz hf hk with rfl | hk'
      · rw [hsame.txn]
        exact hi _ _ _ rfl
      · exact hexclusive k hz hf hk'
    | drop _ _ hs =>
      obtain ⟨hend, hkeys⟩ := dropped_keys hd.endKeyed hs
      exact ⟨fun k hz hf hk => hexclusive k hz hf (hkeys k hk).2, hend⟩
    | @promote txnId _ hf hs =>
      obtain ⟨x, hx, -, hpq⟩ := hs
      refine ⟨?_, ?_⟩
      · intro k hz hkf hk
        apply hexclusive k hz hkf
        by_cases hkt : k = txnId
        · rw [hkt, hx]
          exact Option.some_ne_none x
        · rwa [hpq, Function.update_of_ne hkt] at hk
      · rw [hpq]
        exact hd.endKeyed.update_of_ne hf
    | other _ hpq =>
      refine ⟨?_, ?_⟩
      · intro k hz hf hk
        rw [hpq] at hk
        exact hexclusive k hz hf hk
      · rw [hpq]
        exact hd.endKeyed

theorem run_invariant {E : Env} {log : List (Invocation × Outcome)} {d : Store}
    (h : Run E FreshSubmit log d) : Invariant d := by
  induction h with
  | nil => exact ⟨fun _ _ _ hk => (hk rfl).elim, fun _ hb => by cases hb⟩
  | snoc before call ih =>
    exact perform_preserves ih fun a w _ heff => effect_preserves ih call heff

/-- In every run whose submits name no canonized id, with any failures, no id is both pending and
canonized. -/
theorem pending_or_canonized_of_fresh_submits {E : Env} {log : List (Invocation × Outcome)}
    {d : Store} (h : Run E FreshSubmit log d) : Exclusive d :=
  (run_invariant h).exclusive

def canonizeCalls : List Invocation :=
  [workingCall (.transactionSubmit 5 7 (transactionCert 5 0 7 1)),
    workingCall (.blockMake 9 (blockCert 9 1 1 [transactionCert 5 0 7 1]))]

theorem canonized_once_stays_exclusive :
    ((runCalls (codecEnv false) canonizeCalls).2.txnDb 5).isSome = true ∧
      Exclusive (runCalls (codecEnv false) canonizeCalls).2 := by
  have hfresh : AllowedFrom (codecEnv false) FreshSubmit emptyStore canonizeCalls := by
    refine ⟨fun _ _ _ _ => rfl, ?_, trivial⟩
    rintro _ _ _ ⟨⟩
  exact ⟨by decide +kernel, pending_or_canonized_of_fresh_submits (run_runCalls hfresh)⟩

def resubmitCalls : List Invocation :=
  canonizeCalls ++ [workingCall (.transactionSubmit 5 7 (transactionCert 5 0 7 1))]

theorem resubmitted_id_is_pending_and_canonized :
    Run (codecEnv false) (fun _ _ => True) (runCalls (codecEnv false) resubmitCalls).1
      (runCalls (codecEnv false) resubmitCalls).2 ∧
    ¬ Exclusive (runCalls (codecEnv false) resubmitCalls).2 := by
  have hany : AllowedFrom (codecEnv false) (fun _ _ => True) emptyStore resubmitCalls :=
    allowedFrom_of_forall (fun _ _ => trivial) emptyStore
  refine ⟨run_runCalls hany, fun h => ?_⟩
  have hpending : ((runCalls (codecEnv false) resubmitCalls).2.pqDb 5).isSome = true := by
    decide +kernel
  have hcanonized : ((runCalls (codecEnv false) resubmitCalls).2.txnDb 5).isSome = true := by
    decide +kernel
  have hnone := h 5 (by decide) (by decide) (Option.isSome_iff_ne_none.mp hpending)
  rw [hnone] at hcanonized
  cases hcanonized

end PendingOrCanonized
