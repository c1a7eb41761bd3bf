import Agentd.ReachableStores

/-! # Lookups in the process queue

Three operations look up a transaction of the process queue: get, drop and promote. What they report
depends on the sentinel ids and on the LMDB call that fails. -/
namespace QueueLookups

open ByteString
open CertificateFields
open FaultyTransactions
open DataserviceRecords
open DataserviceStore
open DataserviceQueue
open DataserviceBlocks
open DataserviceRequests
open DataserviceEffects

/-! ### Records hold a header -/

/-- Every record of the queue, whatever it says, holds at least a transaction header. -/
def HeadersHeld (pq : Uuid → Option Bytes) : Prop :=
  ∀ k b, pq k = some b → sizeofTransactionNode ≤ b.length

section Headers

variable {E : Env} {pq pq' : Uuid → Option Bytes} {k txnId artifactId : Uuid} {b txnBytes : Bytes}

theorem HeadersHeld.put (h : HeadersHeld pq) (hb : sizeofTransactionNode ≤ b.length) :
    HeadersHeld (Function.update pq k (some b)) := by
  intro k' b' hb'
  by_cases hk : k' = k
  · rw [hk, Function.update_self] at hb'
    rw [← Option.some.inj hb']
    exact hb
  · rw [Function.update_of_ne hk] at hb'
    exact h k' b' hb'

theorem HeadersHeld.erase (h : HeadersHeld pq) : HeadersHeld (Function.update pq k none) := by
  intro k' b' hb'
  by_cases hk : k' = k
  · rw [hk, Function.update_self] at hb'
    cases hb'
  · rw [Function.update_of_ne hk] at hb'
    exact h k' b' hb'

theorem length_take_header {n : ℕ} (hn : sizeofTransactionNode ≤ n)
    (hb : sizeofTransactionNode ≤ b.length) : sizeofTransactionNode ≤ (b.take n).length := by
  rw [List.length_take]
  exact le_min hn hb

theorem HeadersHeld.submit (h : HeadersHeld pq)
    (hs : Submitted E txnId artifactId txnBytes pq pq') :
    HeadersHeld pq' := by
  have hnew : ∀ e, sizeofTransactionNode ≤
      (submittedRecord E txnId artifactId txnBytes e).length := by
    intro e
    rw [submittedRecord, List.length_append, DataTransactionNode.length_encode]
    exact Nat.le_add_right _ _
  obtain ⟨-, ⟨-, rfl⟩ | ⟨e, b, he, hel, hb, hsize, hlen, rfl⟩⟩ := hs
  · unfold createdQueue
    apply ((h.put (hnew none)).put _).put _
    · rw [DataTransactionNode.length_encode]
    · rw [DataTransactionNode.length_encode]
  · have htake := length_take_header hsize (hsize.trans hlen)
    have hend := length_take_header (b := e) le_rfl hel
    apply ((h.put (hnew (some e))).put _).put _
    · rw [length_setNext htake]
      exact htake
    · rw [length_setPrev hend]
      exact hend

theorem HeadersHeld.drop (h : HeadersHeld pq) (hs : Dropped txnId pq pq') : HeadersHeld pq' := by
  obtain ⟨x, p, n, -, -, -, hpl, -, hnl, rfl⟩ := hs
  apply (h.erase.put _).put _
  · rw [length_setNext hpl]
    exact hpl
  · rw [length_setPrev hnl]
    exact hnl

theorem HeadersHeld.promote (h : HeadersHeld pq) (hs : Promoted txnId pq pq') :
    HeadersHeld pq' := by
  obtain ⟨x, -, hxl, rfl⟩ := hs
  apply h.put
  have hlen : 96 ≤ x.length := hxl
  rw [setTxnState, length_overwrite]
  · exact hxl
  · rw [length_be]
    omega

theorem HeadersHeld.canonized {height : BitVec 64} {blockId : Uuid}
    {cs : List (Bytes × ChildFields)} {v w : Store} (hcs : Canonized E height blockId cs v w)
    (h : HeadersHeld v.pqDb) : HeadersHeld w.pqDb := by
  induction hcs with
  | nil v => exact h
  | cons first rest ih => exact ih (h.drop first.pq)

end Headers

/-! ### Where an operation fails -/

section Errors

variable {α : Type} {d : Store} {f : FaultPattern} {txnId : Uuid} {caps : Bitcap} {cap : ApiCap}
  {b : Bool} {e : AgentdError} {K : Type} {db : Dbi K}

def idle (d : Store) (b : Bool) : OpState := ⟨d, [], ⟨0, []⟩, b⟩

def begun (d : Store) : TxState := ⟨d, ⟨1, [.begun]⟩⟩

theorem mdbTxnBegin_run : (mdbTxnBegin : Op Unit).run f (idle d b) =
    if f .txnBegin 0 then .stop (.fail .mdbTxnBeginFailure) ⟨d, [], ⟨1, []⟩, b⟩
    else .ok () ⟨d, [d], ⟨1, [.begun]⟩, b⟩ := by
  cases hbegin : f .txnBegin 0 <;>
    simp [mdbTxnBegin, Prog.require, Prog.attempt, Prog.run_bind, Prog.txnBegin, Prog.note, idle,
      Metered.meter, Metered.withMeter, hbegin, Prog.fail]

theorem authorize_run {x : Op α} (hcap : bitcapIsset caps cap = true) :
    (authorize caps cap >>= fun _ => x).run f (idle d b) = x.run f (idle d b) := by
  unfold authorize Prog.reject
  rw [if_neg (by rw [hcap]; simp)]
  rfl

end Errors

/-! ### What the three operations report -/

inductive Lookup where
  | get
  | drop
  | promote
  deriving DecidableEq

def Lookup.request : Lookup → Uuid → Request
  | .get => .transactionGet
  | .drop => .transactionDrop
  | .promote => .transactionPromote

section Reports

variable {E : Env} {d : Store} {f : FaultPattern} {txnId : Uuid} {caps : Bitcap} {b : Bool}

/-- The read of the lookup works unless there is none, and a sentinel's id is looked up before the
queue is there. -/
def Regular (d : Store) (txnId : Uuid) (f : FaultPattern) : Prop :=
  (f .txnBegin 0 = false → f .get 1 = false) ∧
  (txnId = zeroUuid ∨ txnId = ffUuid → f .txnBegin 0 = false ∧ d.pqDb txnId = none)

end Reports

end QueueLookups
