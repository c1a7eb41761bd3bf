import Mathlib.Algebra.Order.BigOperators.Group.List
import Agentd.BlockContents
import Agentd.ConfigBlock

/-! # The size of a block

The number of transactions in a block, the size of a transaction certificate, the size of a field
and the size of a packet are limited in four places that do not know of each other. -/
namespace BlockLimits

open ByteString
open CertificateFields
open FaultyTransactions
open DataserviceRecords
open DataserviceStore
open DataserviceRequests
open DataserviceDispatch
open DataserviceEffects
open DataserviceClient
open ProcessQueueRefinement
open ProcessQueueRuns
open BlockchainInvariant
open CanonizationService
open CanonizationSystem
open CanonizationRounds
open BlockContents

/-! ### The computed size -/

/-- The certificate size as `canonizationservice_block_make` computes it. -/
def blockSize (txns : List Transaction) : BitVec 64 :=
  txns.foldl (fun size t => size + BitVec.ofNat 64 (fieldSize t.cert.length))
    (BitVec.ofNat 64 (blockCertificateSize []))

def Admits (max : BitVec 64) : Prop :=
  ∃ c c', ConfigBlock.addCanonizationItem c (.maxTransactions max) = .ok c'

/-- A block of these transactions can be sent: the buffer has room for the fields, its size does not
wrap, each certificate fits its field, and the data service takes the packet. -/
structure CanBeSent (B : CertBuilder) (now : BitVec 64) (inst : CanonizationService.Instance)
    (txns : List Transaction) : Prop where
  room : fieldsSize (blockCertificateFields B now inst txns) + fieldSize 16 +
    fieldSize signatureSize ≤ (blockSize txns).toNat
  unwrapped : (blockSize txns).toNat = blockCertificateSize txns
  fields : ∀ t ∈ txns, t.cert.length < 2 ^ 16
  packet : txns ≠ [] → ∃ inst' packet,
    CanonizationService.blockMake B (allWorks now) inst = some (inst', [.dataRequest packet]) ∧
      packet.length < maxPayload

def Submittable (q : List Entry) : Prop := ∀ e ∈ q, e.cert.length ≤ maxTransactionCertificateSize

section Size

variable {E : Env} {B : CertBuilder} {now : BitVec 64} {i : Fin maxChildContexts}
  {inst : CanonizationService.Instance} {txns : List Transaction} {max : BitVec 64}
  {q es : List Entry}

theorem toNat_blockSize (txns : List Transaction) :
    (blockSize txns).toNat = blockCertificateSize txns % 2 ^ 64 := by
  have hfold : ∀ (l : List Transaction) (n : ℕ),
      l.foldl (fun size t => size + BitVec.ofNat 64 (fieldSize t.cert.length))
        (BitVec.ofNat 64 n) =
      BitVec.ofNat 64 (n + (l.map fun t => fieldSize t.cert.length).sum) := by
    intro l
    induction l with
    | nil => simp
    | cons t l ih =>
      intro n
      rw [List.foldl_cons, ← BitVec.ofNat_add, ih, List.map_cons, List.sum_cons, Nat.add_assoc]
  rw [blockSize, hfold, BitVec.toNat_ofNat, blockCertificateSize_eq, blockCertificateSize_eq]
  simp

theorem gathered_certs (h : Submittable q) : ∀ e ∈ gathered max 0 q,
    e.cert.length ≤ maxTransactionCertificateSize :=
  fun e he => h e (gathered_subset max 0 q he)

/-- The packet is as long as its certificate and 24 bytes more. -/
theorem packet_length (hB : Builds E B) (hg : Gathering i inst txns) (hne : txns ≠ [])
    (hcerts : ∀ t ∈ txns, t.cert.length < 65536) : ∃ inst' packet,
    CanonizationService.blockMake B (allWorks now) inst = some (inst', [.dataRequest packet]) ∧
      packet.length = 24 + blockCertificateSize txns := by
  obtain ⟨cert, hcert, hmake⟩ := blockMake_sends now hB hg hne hcerts
  exact ⟨_, _, hmake, by rw [length_encodeRequestBlockMake, hcert.size]⟩

theorem canBeSent_iff (hB : Builds E B) (hg : Gathering i inst txns)
    (hcerts : ∀ t ∈ txns, t.cert.length < 65536) :
    CanBeSent B now inst txns ↔ 24 + blockCertificateSize txns < maxPayload := by
  have hmax : maxPayload = 1073741824 := by decide
  constructor
  · intro h
    by_cases hne : txns = []
    · rw [hne]
      decide
    · obtain ⟨inst', packet, hmake, hshort⟩ := h.packet hne
      obtain ⟨inst'', packet', hmake', hlen⟩ := packet_length hB hg hne hcerts
      rw [hmake'] at hmake
      obtain ⟨-, hpacket⟩ := Prod.mk.inj (Option.some.inj hmake)
      obtain rfl := Message.dataRequest.inj (List.cons.inj hpacket).1
      omega
  · intro hshort
    have hexact : (blockSize txns).toNat = blockCertificateSize txns := by
      rw [toNat_blockSize, Nat.mod_eq_of_lt (by omega)]
    refine ⟨?_, hexact, hcerts, fun hne => ?_⟩
    · rw [hexact, fieldsSize_block B now hg.signature txns]
    · obtain ⟨inst', packet, hmake, hlen⟩ := packet_length hB hg hne hcerts
      exact ⟨inst', packet, hmake, hlen ▸ hshort⟩

end Size

/-! ### Queues of the largest certificates -/

def largestCert : Bytes := List.replicate maxTransactionCertificateSize 0

def largestQueue (n : ℕ) : List Entry :=
  (List.range n).map fun k =>
    submittedEntry (codecEnv false) (BitVec.ofNat 128 (k + 2)) 7 largestCert

section Largest

variable {n : ℕ} {max : BitVec 64} {q : List Entry}

theorem length_largestCert : largestCert.length = 32767 := List.length_replicate

theorem length_largestQueue : (largestQueue n).length = n := by simp [largestQueue]

theorem cert_of_mem_largestQueue {e : Entry} (he : e ∈ largestQueue n) : e.cert = largestCert := by
  obtain ⟨k, -, rfl⟩ := List.mem_map.mp he
  rfl

theorem submittable_largestQueue : Submittable (largestQueue n) := by
  intro e he
  rw [cert_of_mem_largestQueue he]
  exact length_largestCert.le

theorem takeWhile_largestQueue : (largestQueue n).takeWhile attested = largestQueue n := by
  rw [List.takeWhile_eq_self_iff]
  intro e he
  obtain ⟨k, -, rfl⟩ := List.mem_map.mp he
  exact decide_eq_true rfl

/-- Nothing stops the list at the maximum of zero. -/
theorem gathered_zero {m : ℕ} (h : m + q.length < 2 ^ 64) :
    gathered 0 m q = q.takeWhile attested := by
  induction q generalizing m with
  | nil => rfl
  | cons e rest ih =>
    rw [List.length_cons] at h
    rw [gathered]
    by_cases ha : attested e = true
    · have hfull : BitVec.ofNat 64 (m + 1) ≠ 0 := by
        intro hzero
        have hnat := congrArg BitVec.toNat hzero
        rw [BitVec.toNat_ofNat] at hnat
        have hzero' : (0 : BitVec 64).toNat = 0 := rfl
        omega
      rw [if_pos ha, if_neg hfull, ih (by omega), List.takeWhile_cons_of_pos ha]
    · rw [if_neg ha, List.takeWhile_cons_of_neg ha]

theorem gathered_largestQueue (hn : n < 2 ^ 64) (h : max.toNat = 0 ∨ n ≤ max.toNat) :
    gathered max 0 (largestQueue n) = largestQueue n := by
  by_cases hmax : max = 0
  · rw [hmax, gathered_zero (by rw [length_largestQueue]; omega), takeWhile_largestQueue]
  · have hle : n ≤ max.toNat := by
      rcases h with hzero | hle
      · exact (hmax (BitVec.eq_of_toNat_eq hzero)).elim
      · exact hle
    rw [gathered_eq_attestedPrefix hmax, attestedPrefix, takeWhile_largestQueue,
      List.take_of_length_le (by rw [length_largestQueue]; exact hle)]

theorem gathered_largestQueue_of_le (hmax : max ≠ 0) (h : max.toNat ≤ n) :
    gathered max 0 (largestQueue n) = largestQueue max.toNat := by
  rw [gathered_eq_attestedPrefix hmax, attestedPrefix, takeWhile_largestQueue, largestQueue,
    ← List.map_take, List.take_range, Nat.min_eq_left h, largestQueue]

theorem fits_largestQueue : fits (largestQueue n) ↔ n ≤ 32764 := by
  have hsizes : (largestQueue n).map (fun e => fieldSize e.cert.length) =
      List.replicate n 32771 := by
    rw [List.eq_replicate_iff, List.length_map, length_largestQueue]
    refine ⟨rfl, ?_⟩
    intro size hsize
    obtain ⟨e, he, rfl⟩ := List.mem_map.mp hsize
    rw [cert_of_mem_largestQueue he, length_largestCert, fieldSize]
  have hmax : maxPayload = 1073741824 := by decide
  rw [fits, hsizes, List.sum_replicate, Nat.nsmul_eq_mul, hmax]
  omega

/-- At most that many certificates always fit. -/
theorem fits_of_length_le {es : List Entry} (h : Submittable es) (hlen : es.length ≤ 32764) :
    fits es := by
  have hmax : maxPayload = 1073741824 := by decide
  have hsum : (es.map fun e => fieldSize e.cert.length).sum ≤
      (es.map fun e => fieldSize e.cert.length).length • 32771 := by
    apply List.sum_le_card_nsmul
    intro size hsize
    obtain ⟨e, he, rfl⟩ := List.mem_map.mp hsize
    have hcert : e.cert.length ≤ 32767 := h e he
    rw [fieldSize]
    omega
  rw [List.length_map, Nat.nsmul_eq_mul] at hsum
  rw [fits, hmax]
  omega

/-- The maxima at which every queue is sent in one packet. -/
theorem every_queue_fits_iff : (∀ q, Submittable q → fits (gathered max 0 q)) ↔
    1 ≤ max.toNat ∧ max.toNat ≤ 32764 := by
  constructor
  · intro h
    by_contra hout
    have hlarge : max.toNat = 0 ∨ 32765 ≤ max.toNat := by omega
    have hfits := h (largestQueue 32765) submittable_largestQueue
    rw [gathered_largestQueue (by omega) hlarge, fits_largestQueue] at hfits
    omega
  · rintro ⟨hpos, hle⟩ q hq
    have hmax : max ≠ 0 := by
      rintro rfl
      exact absurd hpos (by decide)
    apply fits_of_length_le (gathered_certs hq)
    rw [gathered_eq_attestedPrefix hmax]
    exact (List.length_take_le _ _).trans hle

theorem ids_largestQueue (hn : n + 2 < 2 ^ 128) :
    BitVec.ofNat 128 (n + 2) ∉ ids (largestQueue n) := by
  intro hmem
  obtain ⟨e, he, hid⟩ := List.mem_map.mp hmem
  obtain ⟨k, hk, rfl⟩ := List.mem_map.mp he
  have hlt := List.mem_range.mp hk
  have hnat : (k + 2) % 2 ^ 128 = (n + 2) % 2 ^ 128 := by
    have htoNat := congrArg BitVec.toNat (show BitVec.ofNat 128 (k + 2) = _ from hid)
    rwa [BitVec.toNat_ofNat, BitVec.toNat_ofNat] at htoNat
  omega

/-- Such a queue can be submitted. -/
theorem run_largestQueue (hn : n + 2 < 2 ^ 64) : ∃ log d,
    Run (codecEnv false) (fun _ i => QueueCall i) log d ∧
      queueAfter (codecEnv false) log = largestQueue n := by
  induction n with
  | zero => exact ⟨[], _, .nil, rfl⟩
  | succ n ih =>
    obtain ⟨log, d, hrun, hqueue⟩ := ih (by omega)
    let i := workingCall (.transactionSubmit (BitVec.ofNat 128 (n + 2)) 7 largestCert)
    have hid : (BitVec.ofNat 128 (n + 2)).toNat = n + 2 := by
      rw [BitVec.toNat_ofNat, Nat.mod_eq_of_lt (by omega)]
    have hz : BitVec.ofNat 128 (n + 2) ≠ zeroUuid := by
      intro heq
      rw [heq] at hid
      have hzero : (zeroUuid : Uuid).toNat = 0 := rfl
      omega
    have hf : BitVec.ofNat 128 (n + 2) ≠ ffUuid := by
      intro heq
      rw [heq] at hid
      have hff : (ffUuid : Uuid).toNat = 2 ^ 128 - 1 := by decide
      omega
    have hcall : QueueCall i := by
      have hne : largestCert ≠ [] := by
        apply List.ne_nil_of_length_pos
        rw [length_largestCert]
        decide
      refine ⟨workingCall_works _, ⟨hne, ?_⟩, ?_⟩
      · rw [length_largestCert]
        decide
      · intro txnId artifactId txnBytes heq
        cases heq
        exact ⟨hz, hf⟩
    have hrep := run_represents hrun
    rw [hqueue] at hrep
    have hok : (perform (codecEnv false) d i).1 = .ok .done :=
      (submit_answers hrep rfl hz hf (workingCall_works _).lmdb).2 (workingCall_permitted _)
        (ids_largestQueue (by omega))
    refine ⟨_, _, hrun.snoc hcall, ?_⟩
    rw [queueAfter_ok (codecEnv false) hok, hqueue, largestQueue, largestQueue, List.range_succ,
      List.map_append]
    rfl

end Largest

/-! ### Configurations and queues -/

section Configurations

variable {E : Env} {B : CertBuilder} {now : BitVec 64} {i : Fin maxChildContexts}
  {inst : CanonizationService.Instance} {txns : List Transaction} {max : BitVec 64}
  {q : List Entry}

theorem admits_iff : Admits max ↔ 0 ≤ max.toInt ∧ max.toInt ≤ 100000 := by
  have hmaximum : ConfigBlock.blockTransactionsMaximum = 100000 := rfl
  constructor
  · rintro ⟨c, c', h⟩
    rw [ConfigBlock.addCanonizationItem] at h
    by_contra hout
    have hrange : max.toInt < 0 ∨ ConfigBlock.blockTransactionsMaximum < max.toInt := by omega
    cases hset : c.blockMaxTransactions.isSet with
    | true =>
      rw [ConfigBlock.addNumber, if_pos hset] at h
      cases h
    | false =>
      rw [ConfigBlock.addNumber, if_neg (by simp [hset]), if_pos hrange] at h
      cases h
  · rintro ⟨hlow, hhigh⟩
    refine ⟨⟨⟨false, 0⟩, ⟨false, 0⟩⟩, ⟨⟨false, 0⟩, ⟨true, max⟩⟩, ?_⟩
    have hrange : ¬ (max.toInt < 0 ∨ ConfigBlock.blockTransactionsMaximum < max.toInt) := by omega
    rw [ConfigBlock.addCanonizationItem, ConfigBlock.addNumber, if_neg (by decide), if_neg hrange]
    rfl

def gatheredInstance (txns : List Transaction) : CanonizationService.Instance :=
  { CanonizationService.instanceCreate with
    privateKey := some ⟨3, []⟩
    dataChildContext := 0
    transactionList := some txns }

theorem gathering_gatheredInstance (txns : List Transaction) :
    Gathering ⟨0, by decide⟩ (gatheredInstance txns) txns :=
  ⟨rfl, Option.some_ne_none _, rfl, rfl, rfl⟩

/-- The block of what a round gathers can be sent exactly when the fields of its certificate come to
less than 1 GiB with the header of the packet. -/
theorem block_can_be_sent_iff (hB : Builds E B) (hq : Submittable q) (hg : Gathering i inst txns)
    (htxns : txns.map Transaction.cert = (gathered max 0 q).map Entry.cert) :
    CanBeSent B now inst txns ↔ fits (gathered max 0 q) := by
  have hcerts : ∀ t ∈ txns, t.cert.length < 65536 := by
    intro t ht
    have hmem : t.cert ∈ txns.map Transaction.cert := List.mem_map_of_mem ht
    rw [htxns] at hmem
    obtain ⟨e, he, heq⟩ := List.mem_map.mp hmem
    rw [← heq]
    exact (gathered_certs hq e he).trans_lt (by decide)
  rw [canBeSent_iff hB hg hcerts]
  exact request_size htxns

end Configurations

def gatheredTransactions (q : List Entry) : List Transaction :=
  q.map fun e => ⟨e.node zeroUuid ffUuid, e.cert⟩

theorem certs_gatheredTransactions (q : List Entry) :
    (gatheredTransactions q).map Transaction.cert = q.map Entry.cert := by
  rw [gatheredTransactions, List.map_map]
  rfl

/-- The most that can be sent, of a queue that has more. -/
theorem longest_full_block_can_be_sent :
    gathered 32764 0 (largestQueue 40000) = largestQueue 32764 ∧
      CanBeSent codecBuilder 0 (gatheredInstance (gatheredTransactions (largestQueue 32764)))
        (gatheredTransactions (largestQueue 32764)) := by
  have hall : gathered 32764 0 (largestQueue 40000) = largestQueue 32764 :=
    gathered_largestQueue_of_le (by decide) (by decide)
  refine ⟨hall, ?_⟩
  have hmap : (gatheredTransactions (largestQueue 32764)).map Transaction.cert =
      (gathered 32764 0 (largestQueue 40000)).map Entry.cert := by
    rw [hall, certs_gatheredTransactions]
  apply (block_can_be_sent_iff (builds_codec false) submittable_largestQueue
    (gathering_gatheredInstance _) hmap).mpr
  rw [hall, fits_largestQueue]

/-- A queue of 32765 of the largest certificates, and the maximum of the grammar. -/
theorem largest_block_cannot_be_sent : ∃ log d txns,
    Run (codecEnv false) (fun _ i => QueueCall i) log d ∧
    Represents d.pqDb (largestQueue 32765) ∧ Submittable (largestQueue 32765) ∧ Admits 100000 ∧
    Builds (codecEnv false) codecBuilder ∧
    Gathering ⟨0, by decide⟩ (gatheredInstance txns) txns ∧
    txns.map Transaction.cert = (gathered 100000 0 (largestQueue 32765)).map Entry.cert ∧
    ¬ CanBeSent codecBuilder 0 (gatheredInstance txns) txns := by
  obtain ⟨log, d, hrun, hqueue⟩ := run_largestQueue (n := 32765) (by decide)
  have hrep := run_represents hrun
  rw [hqueue] at hrep
  have hall : gathered 100000 0 (largestQueue 32765) = largestQueue 32765 :=
    gathered_largestQueue (by decide) (Or.inr (by decide))
  have hmap := certs_gatheredTransactions (largestQueue 32765)
  refine ⟨log, d, gatheredTransactions (largestQueue 32765), hrun, hrep, submittable_largestQueue,
    admits_iff.mpr (by decide), builds_codec false, gathering_gatheredInstance _, ?_, ?_⟩
  · rw [hall, hmap]
  · intro hsent
    have hcerts : ∀ t ∈ gatheredTransactions (largestQueue 32765), t.cert.length < 65536 :=
      fun t ht => hsent.fields t ht
    have hshort := (canBeSent_iff (builds_codec false)
      (gathering_gatheredInstance _) hcerts).mp hsent
    rw [request_size hmap, fits_largestQueue] at hshort
    omega

end BlockLimits
