import Agentd.DataserviceEffects

/-! # The size of stored records

LMDB keeps values of less than 2^32 bytes. The data service relies on it: a record is a certificate
behind a header, and the sizes of certificates in its responses are numbers of 32 bits. What packets
can put into a fresh database stays far below. -/
namespace StoredRecords

open ByteString
open CertificateFields
open FaultyTransactions
open DataserviceRecords
open DataserviceStore
open DataserviceQueue
open DataserviceBlocks
open DataserviceRequests
open DataserviceEffects

def Storable (db : Uuid → Option Bytes) : Prop := ∀ k b, db k = some b → b.length < 2 ^ 32

structure StoreStorable (d : Store) : Prop where
  queue : Storable d.pqDb
  txns : Storable d.txnDb
  blocks : Storable d.blockDb

theorem storeStorable_empty : StoreStorable emptyStore := by
  constructor
  · rintro _ _ ⟨⟩
  · rintro _ _ ⟨⟩
  · rintro _ _ ⟨⟩

namespace Storable

variable {db db' : Uuid → Option Bytes} {k id : Uuid} {b : Bytes}

theorem put (h : Storable db) (hb : b.length < 2 ^ 32) :
    Storable (Function.update db k (some b)) := by
  intro k' b' hb'
  by_cases hk : k' = k
  · subst hk
    rw [Function.update_self] at hb'
    rw [← Option.some.inj hb']
    exact hb
  · rw [Function.update_of_ne hk] at hb'
    exact h k' b' hb'

theorem erase (h : Storable db) : Storable (Function.update db k none) := by
  intro k' b' hb'
  by_cases hk : k' = k
  · subst hk
    rw [Function.update_self] at hb'
    cases hb'
  · rw [Function.update_of_ne hk] at hb'
    exact h k' b' hb'

theorem take {n : ℕ} (hb : b.length < 2 ^ 32) : (b.take n).length < 2 ^ 32 :=
  (List.length_take_le' n b).trans_lt hb

theorem behind {n : ℕ} (hb : b.length < 2 ^ 32) : (b.drop n).length < 2 ^ 32 := by
  rw [List.length_drop]
  exact (Nat.sub_le _ _).trans_lt hb

theorem patch {off : ℕ} {v : Bytes} (hin : off + v.length ≤ b.length) (hb : b.length < 2 ^ 32) :
    (overwrite b off v).length < 2 ^ 32 := by
  rwa [length_overwrite _ _ _ hin]

theorem submit {E : Env} {txnId artifactId : Uuid} {txnBytes : Bytes} (h : Storable db)
    (hlen : txnBytes.length < maxPayload) (hs : Submitted E txnId artifactId txnBytes db db') :
    Storable db' := by
  have hrecord : ∀ e, (submittedRecord E txnId artifactId txnBytes e).length < 2 ^ 32 := by
    intro e
    have hmax : maxPayload = 1073741824 := by decide
    rw [submittedRecord, List.length_append, DataTransactionNode.length_encode,
      sizeofTransactionNode]
    omega
  obtain ⟨-, ⟨-, rfl⟩ | ⟨e, b, he, hel, hb, hsize, hlen', rfl⟩⟩ := hs
  · exact ((h.put (hrecord none)).put (by simp [sizeofTransactionNode])).put
      (by simp [sizeofTransactionNode])
  · have hnew := h.put (k := txnId) (hrecord (some e))
    refine (hnew.put ?_).put ?_
    · rw [length_setNext (by rw [List.length_take]; omega)]
      exact take (hnew _ _ hb)
    · rw [length_setPrev (by rw [List.length_take]; omega)]
      exact take (h _ _ he)

theorem drop {txnId : Uuid} (h : Storable db) (hs : Dropped txnId db db') : Storable db' := by
  obtain ⟨x, p, n, hx, hxl, hp, hpl, hn, hnl, rfl⟩ := hs
  have hprev := h.erase (k := txnId) _ _ hp
  have hlinked := (h.erase (k := txnId)).put (k := (DataTransactionNode.decode x).prev)
    (b := setNext p (DataTransactionNode.decode x).next) (by rwa [length_setNext hpl])
  have hnext := hlinked _ _ hn
  exact hlinked.put (by rwa [length_setPrev hnl])

theorem promote {txnId : Uuid} (h : Storable db) (hs : Promoted txnId db db') : Storable db' := by
  obtain ⟨x, hx, hxl, rfl⟩ := hs
  have hl : 96 ≤ x.length := hxl
  exact h.put (patch (by simp; omega) (h _ _ hx))

theorem enter {blockId : Uuid} {cert : Bytes} {c : ChildFields} (h : Storable db)
    (hlen : cert.length < maxPayload) (hs : TxnEntered blockId cert c db db') : Storable db' := by
  have hnew : Storable (entered blockId cert c db) := by
    apply h.put
    have hmax : maxPayload = 1073741824 := by decide
    rw [List.length_append, DataTransactionNode.length_encode, sizeofTransactionNode]
    omega
  obtain ⟨-, ⟨-, rfl⟩ | ⟨-, b, hb, hl, rfl⟩⟩ := hs
  · exact hnew
  · exact hnew.put (by rw [length_setNext hl]; exact hnew _ _ hb)

theorem link {blockId : Uuid} {height : BitVec 64} {endNode : Option Bytes} (h : Storable db)
    (hb : b.length < 2 ^ 32) (hend : ∀ e, endNode = some e → e.length < 2 ^ 32)
    (hel : ∀ e, endNode = some e → sizeofBlockNode ≤ e.length)
    (hs : BlockLinked blockId height b endNode db db') : Storable db' := by
  have hnew := h.put (k := blockId) hb
  cases endNode with
  | none =>
    obtain ⟨-, rfl⟩ := hs
    exact (hnew.put (by simp [sizeofBlockNode])).put (by simp [sizeofBlockNode])
  | some e =>
    obtain ⟨-, p, hp, hsize, hlen, rfl⟩ := hs
    have hl : 80 ≤ e.length := hel e rfl
    have hpl : 80 ≤ (p.take (storedSize sizeofBlockNode
        (DataBlockNode.decode p).netBlockCertSize)).length := by
      rw [List.length_take]
      exact le_min hsize (hsize.trans hlen)
    have htake : (e.take sizeofBlockNode).length = 80 := by
      rw [List.length_take]
      exact min_eq_left hl
    have hprev : (setPrev (e.take sizeofBlockNode) blockId).length = 80 := by
      rw [setPrev, length_overwrite _ _ _ (by simp [htake]), htake]
    refine (hnew.put (patch ?_ (take (hnew _ _ hp)))).put (patch ?_ ?_)
    · rw [length_be]
      omega
    · simp [hprev]
    · rw [hprev]
      decide

end Storable

/-! ### Every operation -/

section Effects

variable {E : Env} {f : FaultPattern} {v w : Store}

theorem Canonized.storable {height : BitVec 64} {blockId : Uuid} {cs : List (Bytes × ChildFields)}
    (h : Canonized E height blockId cs v w) (hv : StoreStorable v)
    (hcerts : ∀ p ∈ cs, p.1.length < maxPayload) : StoreStorable w := by
  induction h with
  | nil v => exact hv
  | @cons v u w cert c cs first rest ih =>
    refine ih ⟨hv.queue.drop first.pq, hv.txns.enter (hcerts (cert, c) (by simp)) first.txn, ?_⟩
      fun p hp => hcerts p (by simp [hp])
    rw [first.block]
    exact hv.blocks

theorem blockMakeBody_storable {fs : List (CertField × Bytes)} {blockId : Uuid} {blockData : Bytes}
    (hv : StoreStorable v) (hfs : E.fields blockData = some fs)
    (hlen : blockData.length < maxPayload)
    (h : Ends (blockMakeBody E fs blockId blockData) f v () w) : StoreStorable w := by
  obtain ⟨first, rest, firstId, blk, cs, hwraps, -, hins, hcs, hpre, -⟩ := blockMakeBody_ends h
  refine Canonized.storable hcs ⟨hv.queue, hv.txns, ?_⟩ ?_
  · refine hv.blocks.link ?_ (fun e he => hv.blocks _ _ he) hins.checked.end_length hins.linked
    have hmax : maxPayload = 1073741824 := by decide
    rw [List.length_append, DataBlockNode.length_encode, sizeofBlockNode]
    omega
  · intro p hp
    have hmem : p.1 ∈ fieldValues fs .wrappedTransactionTuple := by
      rw [hwraps]
      exact hpre.subset (List.mem_map_of_mem hp)
    exact (E.value_length_lt hfs (mem_of_mem_fieldValues hmem)).trans hlen

theorem effect_storable {a : Reply} {r : Request} (hv : StoreStorable v) (hr : r.Decoded)
    (h : r.Effect E f v a w) : StoreStorable w := by
  rcases effect_queue_cases h with ⟨blockId, blockData, fs, rfl, hfs, hends⟩ | ⟨hsame, hqueue⟩
  · exact blockMakeBody_storable hv hfs hr hends
  · have hqueue : Storable w.pqDb := by
      cases hqueue with
      | submit hs => exact hv.queue.submit hr.2 hs
      | drop _ _ hs => exact hv.queue.drop hs
      | promote _ _ hs => exact hv.queue.promote hs
      | other _ hs =>
        rw [hs]
        exact hv.queue
    refine ⟨hqueue, ?_, ?_⟩
    · rw [hsame.txn]
      exact hv.txns
    · rw [hsame.block]
      exact hv.blocks

end Effects

/-- Whatever packets a fresh database has been through, and whatever has failed. -/
theorem run_storable {E : Env} {log : List (Invocation × Outcome)} {d : Store}
    (h : Run E (fun _ i => i.request.Decoded) log d) : StoreStorable d := by
  induction h with
  | nil => exact storeStorable_empty
  | snoc before call ih =>
    exact perform_preserves ih fun _ _ _ heff => effect_storable ih call heff

end StoredRecords
