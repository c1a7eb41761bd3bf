import Agentd.DataserviceEffects
import Agentd.LinkedKeys

/-! # The process queue as a list

The abstract queue is a list of entries. `Represents` relates it to `pq.db`: the sentinels and the
entries form one doubly linked list of records and there is nothing else in the database. -/
namespace ProcessQueueRefinement

open ByteString
open CertificateFields
open FaultyTransactions
open LinkedKeys
open DataserviceRecords
open DataserviceStore
open DataserviceQueue
open DataserviceBlocks
open DataserviceRequests
open DataserviceEffects

structure Entry where
  id : Uuid
  artifactId : Uuid
  cert : Bytes
  state : BitVec 32
  deriving DecidableEq

def Entry.node (e : Entry) (prev next : Uuid) : DataTransactionNode :=
  ⟨e.id, prev, next, e.artifactId, zeroUuid, BitVec.ofNat 64 e.cert.length, e.state⟩

def Entry.record (e : Entry) (prev next : Uuid) : Bytes := (e.node prev next).encode ++ e.cert

/-- The sentinels are entries without an artifact, a certificate or a state. -/
def startEntry : Entry := ⟨zeroUuid, zeroUuid, [], 0⟩

def endEntry : Entry := ⟨ffUuid, zeroUuid, [], 0⟩

def framed (q : List Entry) : List Entry := startEntry :: q ++ [endEntry]

def ids (q : List Entry) : List Uuid := q.map Entry.id

def nextIn (pq : Uuid → Option Bytes) (k : Uuid) : Option Uuid :=
  (pq k).map fun b => (DataTransactionNode.decode b).next

def prevIn (pq : Uuid → Option Bytes) (k : Uuid) : Option Uuid :=
  (pq k).map fun b => (DataTransactionNode.decode b).prev

/-- The database holds the records of `L`, linked in this order, and nothing else. -/
structure Holds (pq : Uuid → Option Bytes) (L : List Entry) : Prop where
  records : ∀ e ∈ L, ∃ prev next, pq e.id = some (e.record prev next)
  linked : Linked (nextIn pq) (prevIn pq) (ids L)
  nodup : (ids L).Nodup
  domain : ∀ k, pq k ≠ none → k ∈ ids L
  small : ∀ e ∈ L, e.cert.length < maxPayload

inductive Represents (pq : Uuid → Option Bytes) (q : List Entry) : Prop
  | unused (hq : q = []) (hpq : ∀ k, pq k = none)
  | used (holds : Holds pq (framed q)) (certs : ∀ e ∈ q, e.cert ≠ [])

/-! ### Records and links -/

theorem Entry.decode_record (e : Entry) (prev next : Uuid) :
    DataTransactionNode.decode (e.record prev next) = e.node prev next :=
  DataTransactionNode.decode_encode _ _

theorem Entry.length_record (e : Entry) (prev next : Uuid) :
    (e.record prev next).length = sizeofTransactionNode + e.cert.length := by
  simp [Entry.record]

theorem Entry.setNext_record (e : Entry) (prev next k : Uuid) :
    setNext (e.record prev next) k = e.record prev k :=
  DataTransactionNode.setNext_encode _ _ _

theorem Entry.setPrev_record (e : Entry) (prev next k : Uuid) :
    setPrev (e.record prev next) k = e.record k next :=
  DataTransactionNode.setPrev_encode _ _ _

theorem Entry.setTxnState_record (e : Entry) (prev next : Uuid) (state : BitVec 32) :
    setTxnState (e.record prev next) state = { e with state := state }.record prev next :=
  DataTransactionNode.setTxnState_encode _ _ _

theorem links_of_record {pq : Uuid → Option Bytes} {k prev next : Uuid} {e : Entry}
    (h : pq k = some (e.record prev next)) : nextIn pq k = some next ∧ prevIn pq k = some prev := by
  simp [nextIn, prevIn, h, Entry.decode_record, Entry.node]

theorem links_congr {pq pq' : Uuid → Option Bytes} {k : Uuid} (h : pq' k = pq k) :
    nextIn pq' k = nextIn pq k ∧ prevIn pq' k = prevIn pq k := by
  simp [nextIn, prevIn, h]

theorem ids_split {l r : List Entry} {p n : Entry} (h : (ids (l ++ p :: n :: r)).Nodup) :
    p.id ≠ n.id ∧ ∀ e ∈ l ++ r, e.id ≠ p.id ∧ e.id ≠ n.id := by
  simp only [ids, List.map_append, List.map_cons] at h
  have hp := List.nodup_middle.mp h
  have hpn : p.id ∉ l.map Entry.id ++ n.id :: r.map Entry.id := (List.nodup_cons.mp hp).1
  have hn := List.nodup_middle.mp (List.nodup_cons.mp hp).2
  have hnl : n.id ∉ l.map Entry.id ++ r.map Entry.id := (List.nodup_cons.mp hn).1
  refine ⟨fun heq => hpn (by simp [heq]), fun e he => ?_⟩
  have hmem : e.id ∈ l.map Entry.id ++ r.map Entry.id := by
    rw [← List.map_append]
    exact List.mem_map_of_mem he
  constructor
  · intro heq
    rw [heq] at hmem
    rcases List.mem_append.mp hmem with hm | hm
    · exact hpn (List.mem_append_left _ hm)
    · exact hpn (List.mem_append_right _ (List.mem_cons_of_mem _ hm))
  · intro heq
    exact hnl (heq ▸ hmem)

theorem ids_without {l r : List Entry} {p x n : Entry}
    (h : (ids (l ++ p :: x :: n :: r)).Nodup) :
    (ids (l ++ p :: n :: r)).Nodup ∧ x.id ∉ ids (l ++ p :: n :: r) := by
  have hmid : l ++ p :: x :: n :: r = (l ++ [p]) ++ x :: (n :: r) := by simp
  have hold : (l ++ [p]) ++ (n :: r) = l ++ p :: n :: r := by simp
  rw [hmid, ids, List.map_append, List.map_cons, List.nodup_middle, ← List.map_append,
    hold] at h
  exact ⟨(List.nodup_cons.mp h).2, (List.nodup_cons.mp h).1⟩

namespace Holds

variable {pq : Uuid → Option Bytes} {l r : List Entry} {p x n : Entry}

/-- Neighbouring records name each other. -/
theorem pair (h : Holds pq (l ++ p :: n :: r)) : ∃ pp nn,
    pq p.id = some (p.record pp n.id) ∧ pq n.id = some (n.record p.id nn) := by
  obtain ⟨pp, pn, hp⟩ := h.records p (by simp)
  obtain ⟨np, nn, hn⟩ := h.records n (by simp)
  have hl := h.linked
  simp only [ids, List.map_append, List.map_cons] at hl
  have hlinks := hl.neighbours
  rw [(links_of_record hp).1, (links_of_record hn).2] at hlinks
  obtain ⟨h₁, h₂⟩ := hlinks
  cases h₁
  cases h₂
  exact ⟨pp, nn, hp, hn⟩

/-- The record of an inner entry names its neighbours. -/
theorem inner (h : Holds pq (l ++ p :: x :: n :: r)) : ∃ pp nn,
    pq p.id = some (p.record pp x.id) ∧ pq x.id = some (x.record p.id n.id) ∧
      pq n.id = some (n.record x.id nn) := by
  obtain ⟨pp, xn, hp, hx⟩ := h.pair
  have hmid : l ++ p :: x :: n :: r = (l ++ [p]) ++ x :: n :: r := by simp
  rw [hmid] at h
  obtain ⟨xp, nn, hx', hn⟩ := h.pair
  have hlinks := (links_of_record hx').1
  rw [(links_of_record hx).1] at hlinks
  cases hlinks
  exact ⟨pp, nn, hp, hx, hn⟩

theorem mem_split {e : Entry} (he : e ∈ l ++ p :: n :: r) : e = p ∨ e = n ∨ e ∈ l ++ r := by
  simp only [List.mem_append, List.mem_cons] at he ⊢
  tauto

/-- Entering `x` between two neighbours: its own record and a link in each of theirs. -/
theorem insert (h : Holds pq (l ++ p :: n :: r)) (hx : x.id ∉ ids (l ++ p :: n :: r))
    (hsmall : x.cert.length < maxPayload) {pq' : Uuid → Option Bytes} {pp pn np nn : Uuid}
    (hp : pq p.id = some (p.record pp pn)) (hn : pq n.id = some (n.record np nn))
    (hx' : pq' x.id = some (x.record p.id n.id)) (hp' : pq' p.id = some (p.record pp x.id))
    (hn' : pq' n.id = some (n.record x.id nn))
    (hother : ∀ k, k ≠ x.id → k ≠ p.id → k ≠ n.id → pq' k = pq k) :
    Holds pq' (l ++ p :: x :: n :: r) := by
  obtain ⟨hpn, hlr⟩ := ids_split h.nodup
  have hkeep : ∀ e ∈ l ++ r, pq' e.id = pq e.id := by
    intro e he
    have hex : e.id ≠ x.id := by
      intro heq
      apply hx
      rw [← heq]
      exact List.mem_map_of_mem (by
        simp only [List.mem_append, List.mem_cons] at he ⊢
        tauto)
    exact hother e.id hex (hlr e he).1 (hlr e he).2
  constructor
  · intro e he
    have he' : e = x ∨ e ∈ l ++ p :: n :: r := by
      simp only [List.mem_append, List.mem_cons] at he ⊢
      tauto
    rcases he' with rfl | he'
    · exact ⟨_, _, hx'⟩
    · rcases mem_split he' with rfl | rfl | hlr'
      · exact ⟨_, _, hp'⟩
      · exact ⟨_, _, hn'⟩
      · rw [hkeep e hlr']
        exact h.records e he'
  · have hl := h.linked
    simp only [ids, List.map_append, List.map_cons] at hl ⊢
    apply hl.insert
    · intro a ha
      rw [← List.map_cons, ← List.map_append] at ha
      obtain ⟨e, he, rfl⟩ := List.mem_map.mp ha
      rcases List.mem_append.mp he with hm | hm
      · exact (links_congr (hkeep e (List.mem_append_left _ hm))).1
      · rcases List.mem_cons.mp hm with rfl | hm
        · rw [(links_of_record hn').1, (links_of_record hn).1]
        · exact (links_congr (hkeep e (List.mem_append_right _ hm))).1
    · intro b hb
      rw [← List.map_cons, ← List.map_append] at hb
      obtain ⟨e, he, rfl⟩ := List.mem_map.mp hb
      rcases List.mem_append.mp he with hm | hm
      · exact (links_congr (hkeep e (List.mem_append_left _ hm))).2
      · rcases List.mem_cons.mp hm with rfl | hm
        · rw [(links_of_record hp').2, (links_of_record hp).2]
        · exact (links_congr (hkeep e (List.mem_append_right _ hm))).2
    · exact ⟨(links_of_record hp').1, (links_of_record hx').2⟩
    · exact ⟨(links_of_record hx').1, (links_of_record hn').2⟩
  · have hnd := h.nodup
    simp only [ids, List.map_append, List.map_cons] at hnd hx ⊢
    have hmid : List.map Entry.id l ++ p.id :: x.id :: n.id :: List.map Entry.id r =
        (List.map Entry.id l ++ [p.id]) ++ x.id :: (n.id :: List.map Entry.id r) := by simp
    rw [hmid, List.nodup_middle]
    have hold : (List.map Entry.id l ++ [p.id]) ++ (n.id :: List.map Entry.id r) =
        List.map Entry.id l ++ p.id :: n.id :: List.map Entry.id r := by simp
    rw [hold]
    exact List.nodup_cons.mpr ⟨hx, hnd⟩
  · intro k hk
    have hmem : k = x.id ∨ k ∈ ids (l ++ p :: n :: r) := by
      by_cases hkx : k = x.id
      · exact Or.inl hkx
      by_cases hkp : k = p.id
      · exact Or.inr (by simp [ids, hkp])
      by_cases hkn : k = n.id
      · exact Or.inr (by simp [ids, hkn])
      rw [hother k hkx hkp hkn] at hk
      exact Or.inr (h.domain k hk)
    simp only [ids, List.map_append, List.map_cons, List.mem_append, List.mem_cons] at hmem ⊢
    tauto
  · intro e he
    have he' : e = x ∨ e ∈ l ++ p :: n :: r := by
      simp only [List.mem_append, List.mem_cons] at he ⊢
      tauto
    rcases he' with rfl | he'
    · exact hsmall
    · exact h.small e he'

/-- Taking `x` out: its record goes and its neighbours point at each other. -/
theorem remove (h : Holds pq (l ++ p :: x :: n :: r)) {pq' : Uuid → Option Bytes}
    {pp pn np nn : Uuid} (hp : pq p.id = some (p.record pp pn))
    (hn : pq n.id = some (n.record np nn)) (hx' : pq' x.id = none)
    (hp' : pq' p.id = some (p.record pp n.id)) (hn' : pq' n.id = some (n.record p.id nn))
    (hother : ∀ k, k ≠ x.id → k ≠ p.id → k ≠ n.id → pq' k = pq k) :
    Holds pq' (l ++ p :: n :: r) := by
  have hnd := ids_without h.nodup
  have hsub : ∀ e ∈ l ++ p :: n :: r, e ∈ l ++ p :: x :: n :: r := by
    intro e he
    simp only [List.mem_append, List.mem_cons] at he ⊢
    tauto
  obtain ⟨hpn, hlr⟩ := ids_split hnd.1
  have hkeep : ∀ e ∈ l ++ r, pq' e.id = pq e.id := by
    intro e he
    have hex : e.id ≠ x.id := by
      intro heq
      apply hnd.2
      rw [← heq]
      exact List.mem_map_of_mem (by
        simp only [List.mem_append, List.mem_cons] at he ⊢
        tauto)
    exact hother e.id hex (hlr e he).1 (hlr e he).2
  constructor
  · intro e he
    rcases mem_split he with rfl | rfl | hlr'
    · exact ⟨_, _, hp'⟩
    · exact ⟨_, _, hn'⟩
    · rw [hkeep e hlr']
      exact h.records e (hsub e he)
  · have hl := h.linked
    simp only [ids, List.map_append, List.map_cons] at hl ⊢
    apply hl.remove
    · intro a ha
      rw [← List.map_cons, ← List.map_append] at ha
      obtain ⟨e, he, rfl⟩ := List.mem_map.mp ha
      rcases List.mem_append.mp he with hm | hm
      · exact (links_congr (hkeep e (List.mem_append_left _ hm))).1
      · rcases List.mem_cons.mp hm with rfl | hm
        · rw [(links_of_record hn').1, (links_of_record hn).1]
        · exact (links_congr (hkeep e (List.mem_append_right _ hm))).1
    · intro b hb
      rw [← List.map_cons, ← List.map_append] at hb
      obtain ⟨e, he, rfl⟩ := List.mem_map.mp hb
      rcases List.mem_append.mp he with hm | hm
      · exact (links_congr (hkeep e (List.mem_append_left _ hm))).2
      · rcases List.mem_cons.mp hm with rfl | hm
        · rw [(links_of_record hp').2, (links_of_record hp).2]
        · exact (links_congr (hkeep e (List.mem_append_right _ hm))).2
    · exact ⟨(links_of_record hp').1, (links_of_record hn').2⟩
  · exact hnd.1
  · intro k hk
    by_cases hkx : k = x.id
    · rw [hkx] at hk
      exact (hk hx').elim
    by_cases hkp : k = p.id
    · simp [ids, hkp]
    by_cases hkn : k = n.id
    · simp [ids, hkn]
    rw [hother k hkx hkp hkn] at hk
    have hmem := h.domain k hk
    simp only [ids, List.map_append, List.map_cons, List.mem_append, List.mem_cons] at hmem ⊢
    tauto
  · intro e he
    exact h.small e (hsub e he)

/-- Replacing an entry by one with the same key and links. -/
theorem replace (h : Holds pq (l ++ p :: x :: n :: r)) {y : Entry} (hid : y.id = x.id)
    (hsmall : y.cert.length < maxPayload) {pq' : Uuid → Option Bytes}
    (hx' : pq' x.id = some (y.record p.id n.id)) (hother : ∀ k, k ≠ x.id → pq' k = pq k) :
    Holds pq' (l ++ p :: y :: n :: r) := by
  have hids : ids (l ++ p :: y :: n :: r) = ids (l ++ p :: x :: n :: r) := by
    simp [ids, hid]
  have hmem : ∀ e ∈ l ++ p :: y :: n :: r, e = y ∨ e ∈ l ++ p :: n :: r := by
    intro e he
    simp only [List.mem_append, List.mem_cons] at he ⊢
    tauto
  have hsub : ∀ e ∈ l ++ p :: n :: r, e ∈ l ++ p :: x :: n :: r := by
    intro e he
    simp only [List.mem_append, List.mem_cons] at he ⊢
    tauto
  obtain ⟨_, _, -, hinner, -⟩ := h.inner
  have hx := links_of_record hinner
  have hlinks : ∀ k, nextIn pq' k = nextIn pq k ∧ prevIn pq' k = prevIn pq k := by
    intro k
    by_cases hk : k = x.id
    · rw [hk, hx.1, hx.2]
      exact links_of_record hx'
    · exact links_congr (hother k hk)
  constructor
  · intro e he
    by_cases hk : e.id = x.id
    · rcases hmem e he with rfl | he'
      · rw [hk]
        exact ⟨_, _, hx'⟩
      · exact ((ids_without h.nodup).2 (hk ▸ List.mem_map_of_mem he')).elim
    · rcases hmem e he with rfl | he'
      · exact (hk hid).elim
      · rw [hother e.id hk]
        exact h.records e (hsub e he')
  · rw [hids]
    exact h.linked.congr (fun k _ => (hlinks k).1) fun k _ => (hlinks k).2
  · rw [hids]
    exact h.nodup
  · intro k hk
    rw [hids]
    by_cases hkx : k = x.id
    · rw [hkx]
      simp [ids]
    · rw [hother k hkx] at hk
      exact h.domain k hk
  · intro e he
    rcases hmem e he with rfl | he'
    · exact hsmall
    · exact h.small e (hsub e he')

end Holds

/-! ### The operations on the list -/

theorem storedSize_record {e : Entry} {prev next : Uuid} (h : e.cert.length < maxPayload) :
    storedSize sizeofTransactionNode
      (DataTransactionNode.decode (e.record prev next)).netTxnCertSize =
      (e.record prev next).length := by
  have hlen : e.cert.length < 1024 ^ 3 := h
  have hcert : e.cert.length % 2 ^ 64 = e.cert.length := Nat.mod_eq_of_lt (by omega)
  have hsum : (96 + e.cert.length) % 2 ^ 64 = 96 + e.cert.length := Nat.mod_eq_of_lt (by omega)
  rw [Entry.decode_record, Entry.length_record, storedSize, Entry.node, BitVec.toNat_ofNat, hcert]
  exact hsum

def submittedEntry (E : Env) (txnId artifactId : Uuid) (txnBytes : Bytes) : Entry :=
  ⟨txnId, artifactId, txnBytes, submittedState E⟩

theorem submittedEntry_record (E : Env) (txnId artifactId : Uuid) (txnBytes : Bytes)
    (endNode : Option Bytes) :
    submittedRecord E txnId artifactId txnBytes endNode =
      (submittedEntry E txnId artifactId txnBytes).record
        (match endNode with
          | some b => (DataTransactionNode.decode b).prev
          | none => zeroUuid) ffUuid := rfl

theorem startNode_encode (next : Uuid) :
    (startNode next).encode = startEntry.record zeroUuid next := by
  simp [Entry.record, Entry.node, startEntry, startNode]

theorem endNode_encode (prev : Uuid) : (endNode prev).encode = endEntry.record prev ffUuid := by
  simp [Entry.record, Entry.node, endEntry, endNode]

/-- The two sentinels without an entry between them. -/
theorem holds_sentinels : Holds (Function.update (Function.update (fun _ => none) zeroUuid
    (some (startEntry.record zeroUuid ffUuid))) ffUuid (some (endEntry.record zeroUuid ffUuid)))
    [startEntry, endEntry] := by
  have hne : zeroUuid ≠ ffUuid := zeroUuid_ne_ffUuid
  have hstart : Function.update (Function.update (fun _ => none) zeroUuid
      (some (startEntry.record zeroUuid ffUuid))) ffUuid
      (some (endEntry.record zeroUuid ffUuid)) zeroUuid =
      some (startEntry.record zeroUuid ffUuid) := by
    rw [Function.update_of_ne hne, Function.update_self]
  have hend : Function.update (Function.update (fun _ => none) zeroUuid
      (some (startEntry.record zeroUuid ffUuid))) ffUuid
      (some (endEntry.record zeroUuid ffUuid)) ffUuid =
      some (endEntry.record zeroUuid ffUuid) := Function.update_self ..
  constructor
  · intro e he
    rcases List.mem_pair.mp he with rfl | rfl
    · exact ⟨_, _, hstart⟩
    · exact ⟨_, _, hend⟩
  · exact List.isChain_pair.mpr ⟨(links_of_record hstart).1, (links_of_record hend).2⟩
  · simpa [ids, startEntry, endEntry] using hne
  · intro k hk
    by_cases hkf : k = ffUuid
    · simp [ids, endEntry, hkf]
    by_cases hkz : k = zeroUuid
    · simp [ids, startEntry, hkz]
    rw [Function.update_of_ne hkf, Function.update_of_ne hkz] at hk
    exact (hk rfl).elim
  · intro e he
    rcases List.mem_pair.mp he with rfl | rfl
    · decide
    · decide

theorem framed_eq (q : List Entry) :
    ∃ l p, framed q = l ++ p :: endEntry :: [] ∧ startEntry :: q = l ++ [p] := by
  obtain ⟨l, p, hl⟩ := (List.eq_nil_or_concat (startEntry :: q)).resolve_left (by simp)
  rw [List.concat_eq_append] at hl
  refine ⟨l, p, ?_, hl⟩
  rw [framed, hl]
  simp

theorem mem_ids_framed {q : List Entry} {k : Uuid} :
    k ∈ ids (framed q) ↔ k = zeroUuid ∨ k ∈ ids q ∨ k = ffUuid := by
  simp [ids, framed, startEntry, endEntry]

theorem Represents.none_iff {pq : Uuid → Option Bytes} {q : List Entry} (h : Represents pq q)
    {k : Uuid} (hz : k ≠ zeroUuid) (hf : k ≠ ffUuid) : pq k = none ↔ k ∉ ids q := by
  cases h with
  | unused hq hpq =>
    subst hq
    simp [ids, hpq]
  | used holds certs =>
    constructor
    · intro hk hmem
      obtain ⟨e, he, rfl⟩ := List.mem_map.mp hmem
      obtain ⟨prev, next, hrec⟩ := holds.records e (by simp [framed, he])
      rw [hrec] at hk
      cases hk
    · intro hk
      by_contra hne
      rcases mem_ids_framed.mp (holds.domain k hne) with h | h | h
      · exact hz h
      · exact hk h
      · exact hf h

theorem holds_createdQueue {pq : Uuid → Option Bytes} (hpq : ∀ k, pq k = none) {x : Entry}
    (hz : x.id ≠ zeroUuid) (hf : x.id ≠ ffUuid) (hsmall : x.cert.length < maxPayload) :
    Holds (createdQueue pq x.id (x.record zeroUuid ffUuid)) (framed [x]) := by
  have hzf : zeroUuid ≠ ffUuid := zeroUuid_ne_ffUuid
  have hx : createdQueue pq x.id (x.record zeroUuid ffUuid) x.id =
      some (x.record zeroUuid ffUuid) := by
    simp [createdQueue, hz, hf]
  have hstart : createdQueue pq x.id (x.record zeroUuid ffUuid) zeroUuid =
      some (startEntry.record zeroUuid x.id) := by
    simp [createdQueue, hzf, startNode_encode]
  have hend : createdQueue pq x.id (x.record zeroUuid ffUuid) ffUuid =
      some (endEntry.record x.id ffUuid) := by
    simp [createdQueue, endNode_encode]
  refine Holds.insert (l := []) (r := []) holds_sentinels ?_ hsmall
    (by rw [startEntry, Function.update_of_ne hzf, Function.update_self])
    (by rw [endEntry, Function.update_self]) hx hstart hend ?_
  · simpa [ids, startEntry, endEntry] using ⟨hz, hf⟩
  · intro k hkx hkz hkf
    have hkz' : k ≠ zeroUuid := hkz
    have hkf' : k ≠ ffUuid := hkf
    simp [createdQueue, hkx, hkz', hkf', hpq]

theorem take_endEntry_record (prev next : Uuid) :
    (endEntry.record prev next).take sizeofTransactionNode = endEntry.record prev next := by
  apply List.take_of_length_le
  rw [Entry.length_record]
  rfl

theorem framed_concat {q l : List Entry} {p : Entry} (h : startEntry :: q = l ++ [p]) (x : Entry) :
    framed (q ++ [x]) = l ++ p :: x :: endEntry :: [] := by
  rw [framed, ← List.cons_append, h]
  simp

/-- A submit into a queue that has its sentinels. -/
theorem Holds.submit {E : Env} {txnId artifactId : Uuid} {txnBytes : Bytes}
    {pq pq' : Uuid → Option Bytes} {l : List Entry} {p : Entry}
    (holds : Holds pq (l ++ p :: endEntry :: [])) (hnot : txnId ∉ ids (l ++ p :: endEntry :: []))
    (hsmall : txnBytes.length < maxPayload) (hs : Submitted E txnId artifactId txnBytes pq pq') :
    Holds pq' (l ++ p :: submittedEntry E txnId artifactId txnBytes :: endEntry :: []) := by
  obtain ⟨pp, nn, hp, hend⟩ := holds.pair
  obtain ⟨-, ⟨he, -⟩ | ⟨e, b, he, -, hb, -, -, hpq'⟩⟩ := hs
  · exact absurd (he.symm.trans hend) (by simp)
  · have he' : e = endEntry.record p.id nn := Option.some.inj (he.symm.trans hend)
    have hpid : p.id ≠ txnId := by
      rintro rfl
      exact hnot (by simp [ids])
    have hfid : ffUuid ≠ txnId := by
      rintro rfl
      exact hnot (by simp [ids, endEntry])
    have hpf : p.id ≠ ffUuid := (ids_split holds.nodup).1
    rw [he', Entry.decode_record, Entry.node, Function.update_of_ne hpid, hp] at hb
    have hb' : b = p.record pp endEntry.id := (Option.some.inj hb).symm
    have hps : p.cert.length < maxPayload := holds.small p (by simp)
    rw [he', hb', storedSize_record hps, List.take_length, Entry.setNext_record,
      take_endEntry_record, Entry.setPrev_record, submittedEntry_record] at hpq'
    simp only [Entry.decode_record] at hpq'
    subst hpq'
    refine holds.insert hnot hsmall hp hend ?_ ?_ ?_ ?_
    · simp [Entry.node, submittedEntry, hpid.symm, hfid.symm, endEntry]
    · simp [Entry.node, submittedEntry, hpf, endEntry]
    · simp [Entry.node, submittedEntry, endEntry]
    · intro k hkx hkp hkf
      have hkx' : k ≠ txnId := hkx
      have hkf' : k ≠ ffUuid := hkf
      simp [Entry.node, endEntry, hkx', hkp, hkf']

theorem Represents.submit {E : Env} {txnId artifactId : Uuid} {txnBytes : Bytes}
    {pq pq' : Uuid → Option Bytes} {q : List Entry} (h : Represents pq q)
    (hz : txnId ≠ zeroUuid) (hf : txnId ≠ ffUuid) (hne : txnBytes ≠ [])
    (hsmall : txnBytes.length < maxPayload)
    (hs : Submitted E txnId artifactId txnBytes pq pq') :
    txnId ∉ ids q ∧ Represents pq' (q ++ [submittedEntry E txnId artifactId txnBytes]) := by
  have hnot := (h.none_iff hz hf).mp hs.1
  refine ⟨hnot, ?_⟩
  cases h with
  | unused hq hpq =>
    subst hq
    obtain ⟨-, ⟨-, rfl⟩ | ⟨e, b, he, -⟩⟩ := hs
    · refine .used ?_ (by simpa [submittedEntry] using hne)
      exact holds_createdQueue hpq (x := submittedEntry E txnId artifactId txnBytes) hz hf hsmall
    · rw [hpq] at he
      cases he
  | used holds certs =>
    obtain ⟨l, p, hl, hsplit⟩ := framed_eq q
    have hnot' : txnId ∉ ids (framed q) := by
      rw [mem_ids_framed]
      tauto
    rw [hl] at holds hnot'
    refine .used ?_ ?_
    · rw [framed_concat hsplit]
      exact holds.submit hnot' hsmall hs
    · intro e he
      rcases List.mem_append.mp he with he | he
      · exact certs e he
      · rw [List.mem_singleton.mp he]
        exact hne

/-- An entry of the queue between its neighbours. -/
theorem framed_split {q : List Entry} {txnId : Uuid} (h : txnId ∈ ids q)
    (hnd : (ids q).Nodup) : ∃ l p x n r q₁ q₂, q = q₁ ++ x :: q₂ ∧ x.id = txnId ∧
      (∀ e ∈ q₁ ++ q₂, e.id ≠ txnId) ∧ startEntry :: q₁ = l ++ [p] ∧ q₂ ++ [endEntry] = n :: r := by
  obtain ⟨x, hx, rfl⟩ := List.mem_map.mp h
  obtain ⟨q₁, q₂, rfl⟩ := List.append_of_mem hx
  obtain ⟨l, p, n, r, -, hl, hr⟩ := exists_neighbours startEntry endEntry q₁ q₂ x
  refine ⟨l, p, x, n, r, q₁, q₂, rfl, rfl, ?_, hl, hr⟩
  intro e he heq
  rw [ids, List.map_append, List.map_cons, List.nodup_middle, ← List.map_append] at hnd
  exact (List.nodup_cons.mp hnd).1 (heq ▸ List.mem_map_of_mem he)

theorem nodup_of_framed {q : List Entry} (h : (ids (framed q)).Nodup) : (ids q).Nodup := by
  simp only [ids, framed, List.map_append, List.map_cons] at h
  exact (List.nodup_cons.mp (List.nodup_append.mp h).1).2

theorem framed_of_split {q₁ q₂ l r : List Entry} {p n : Entry} (hl : startEntry :: q₁ = l ++ [p])
    (hr : q₂ ++ [endEntry] = n :: r) (m : List Entry) :
    framed (q₁ ++ m ++ q₂) = l ++ p :: (m ++ n :: r) := by
  calc framed (q₁ ++ m ++ q₂) = (startEntry :: q₁) ++ m ++ (q₂ ++ [endEntry]) := by simp [framed]
    _ = l ++ p :: (m ++ n :: r) := by simp [hl, hr]

def withoutId (txnId : Uuid) (q : List Entry) : List Entry := q.filter fun e => e.id ≠ txnId

theorem withoutId_split {q₁ q₂ : List Entry} {x : Entry}
    (h : ∀ e ∈ q₁ ++ q₂, e.id ≠ x.id) : withoutId x.id (q₁ ++ x :: q₂) = q₁ ++ q₂ := by
  have h₁ : q₁.filter (fun e => e.id ≠ x.id) = q₁ := List.filter_eq_self.mpr fun e he => by
    simpa using h e (List.mem_append_left _ he)
  have h₂ : q₂.filter (fun e => e.id ≠ x.id) = q₂ := List.filter_eq_self.mpr fun e he => by
    simpa using h e (List.mem_append_right _ he)
  rw [withoutId, List.filter_append, List.filter_cons_of_neg (by simp), h₁, h₂]

def attestedEntry (e : Entry) : Entry := { e with state := TransactionNodeState.attested.code }

def attestId (txnId : Uuid) (q : List Entry) : List Entry :=
  q.map fun e => if e.id = txnId then attestedEntry e else e

theorem attestId_split {q₁ q₂ : List Entry} {x : Entry}
    (h : ∀ e ∈ q₁ ++ q₂, e.id ≠ x.id) :
    attestId x.id (q₁ ++ x :: q₂) = q₁ ++ attestedEntry x :: q₂ := by
  have hsame : ∀ q', (∀ e ∈ q', e.id ≠ x.id) → attestId x.id q' = q' := by
    intro q' hq'
    exact (List.map_congr_left fun e he => if_neg (hq' e he)).trans (List.map_id' q')
  have h₁ := hsame q₁ fun e he => h e (List.mem_append_left _ he)
  have h₂ := hsame q₂ fun e he => h e (List.mem_append_right _ he)
  rw [attestId] at h₁ h₂ ⊢
  rw [List.map_append, List.map_cons, if_pos rfl, h₁, h₂]

/-- A drop inside the linked list. -/
theorem Holds.drop {pq pq' : Uuid → Option Bytes} {l r : List Entry} {p x n : Entry}
    (holds : Holds pq (l ++ p :: x :: n :: r)) (hs : Dropped x.id pq pq') :
    Holds pq' (l ++ p :: n :: r) := by
  obtain ⟨pp, nn, hp, hx, hn⟩ := holds.inner
  obtain ⟨b, bp, bn, hb, -, hbp, -, hbn, -, hpq'⟩ := hs
  have hb' : b = x.record p.id n.id := Option.some.inj (hb.symm.trans hx)
  have hnd := ids_without holds.nodup
  have hpn : p.id ≠ n.id := (ids_split hnd.1).1
  have hpx : p.id ≠ x.id := by
    intro heq
    exact hnd.2 (by simp [ids, heq])
  have hnx : n.id ≠ x.id := by
    intro heq
    exact hnd.2 (by simp [ids, heq])
  simp only [hb', Entry.decode_record, Entry.node] at hbp hbn hpq'
  rw [Function.update_of_ne hpx, hp] at hbp
  rw [Function.update_of_ne hpn.symm, Function.update_of_ne hnx, hn] at hbn
  rw [← Option.some.inj hbp, ← Option.some.inj hbn, Entry.setNext_record,
    Entry.setPrev_record] at hpq'
  subst hpq'
  refine holds.remove hp hn ?_ ?_ ?_ ?_
  · simp [hpx.symm, hnx.symm]
  · simp [hpn]
  · simp
  · intro k hkx hkp hkn
    simp [hkx, hkp, hkn]

theorem Represents.drop {pq pq' : Uuid → Option Bytes} {q : List Entry} {txnId : Uuid}
    (h : Represents pq q) (hz : txnId ≠ zeroUuid) (hf : txnId ≠ ffUuid)
    (hs : Dropped txnId pq pq') : txnId ∈ ids q ∧ Represents pq' (withoutId txnId q) := by
  have hmem : txnId ∈ ids q := by
    by_contra hnot
    obtain ⟨b, -, -, hb, -⟩ := hs
    rw [(h.none_iff hz hf).mpr hnot] at hb
    cases hb
  refine ⟨hmem, ?_⟩
  cases h with
  | unused hq hpq =>
    subst hq
    simp [ids] at hmem
  | used holds certs =>
    obtain ⟨l, p, x, n, r, q₁, q₂, rfl, rfl, hother, hl, hr⟩ :=
      framed_split hmem (nodup_of_framed holds.nodup)
    have hframed := framed_of_split hl hr [x]
    rw [List.append_assoc, List.singleton_append] at hframed
    rw [hframed] at holds
    rw [withoutId_split hother]
    refine .used ?_ ?_
    · have hframed' := framed_of_split hl hr []
      rw [List.append_nil] at hframed'
      rw [hframed']
      exact holds.drop hs
    · intro e he
      exact certs e (by
        simp only [List.mem_append, List.mem_cons] at he ⊢
        tauto)

theorem Represents.promote {pq pq' : Uuid → Option Bytes} {q : List Entry} {txnId : Uuid}
    (h : Represents pq q) (hz : txnId ≠ zeroUuid) (hf : txnId ≠ ffUuid)
    (hs : Promoted txnId pq pq') : txnId ∈ ids q ∧ Represents pq' (attestId txnId q) := by
  obtain ⟨b, hb, -, rfl⟩ := hs
  have hmem : txnId ∈ ids q := by
    by_contra hnot
    rw [(h.none_iff hz hf).mpr hnot] at hb
    cases hb
  refine ⟨hmem, ?_⟩
  cases h with
  | unused hq hpq =>
    subst hq
    simp [ids] at hmem
  | used holds certs =>
    obtain ⟨l, p, x, n, r, q₁, q₂, rfl, rfl, hother, hl, hr⟩ :=
      framed_split hmem (nodup_of_framed holds.nodup)
    have hframed := framed_of_split hl hr [x]
    rw [List.append_assoc, List.singleton_append] at hframed
    rw [hframed] at holds
    obtain ⟨_, _, -, hx, -⟩ := holds.inner
    rw [attestId_split hother]
    refine .used ?_ ?_
    · have hframed' := framed_of_split hl hr [attestedEntry x]
      rw [List.append_assoc, List.singleton_append] at hframed'
      rw [hframed', Option.some.inj (hb.symm.trans hx), Entry.setTxnState_record]
      refine holds.replace (y := attestedEntry x) rfl (holds.small x (by simp)) ?_ ?_
      · exact Function.update_self ..
      · intro k hk
        exact Function.update_of_ne hk ..
    · intro e he
      have he' : e = attestedEntry x ∨ e ∈ q₁ ++ q₂ := by
        simp only [List.mem_append, List.mem_cons] at he ⊢
        tauto
      rcases he' with rfl | he'
      · exact certs x (by simp)
      · exact certs e (by
          simp only [List.mem_append, List.mem_cons] at he' ⊢
          tauto)

/-! ### The queue of a database -/

theorem Entry.record_injective {e e' : Entry} {prev next prev' next' : Uuid}
    (h : e.record prev next = e'.record prev' next') : e = e' := by
  have hnode := congrArg DataTransactionNode.decode h
  rw [Entry.decode_record, Entry.decode_record] at hnode
  have hcert := congrArg (List.drop sizeofTransactionNode) h
  rw [Entry.record, Entry.record, List.drop_left' (DataTransactionNode.length_encode _),
    List.drop_left' (DataTransactionNode.length_encode _)] at hcert
  obtain ⟨id, artifactId, cert, state⟩ := e
  obtain ⟨id', artifactId', cert', state'⟩ := e'
  simp only [Entry.node, DataTransactionNode.mk.injEq] at hnode hcert
  obtain ⟨rfl, -, -, rfl, -, -, rfl⟩ := hnode
  rw [hcert]

theorem Holds.mem_ids {pq : Uuid → Option Bytes} {L : List Entry} (h : Holds pq L) {k : Uuid} :
    k ∈ ids L ↔ pq k ≠ none := by
  constructor
  · intro hk
    obtain ⟨e, he, rfl⟩ := List.mem_map.mp hk
    obtain ⟨prev, next, hrec⟩ := h.records e he
    rw [hrec]
    exact Option.some_ne_none _
  · exact h.domain k

/-- A database holds at most one list of records behind the start sentinel. -/
theorem Holds.unique {pq : Uuid → Option Bytes} {q q' : List Entry} (h : Holds pq (framed q))
    (h' : Holds pq (framed q')) : q = q' := by
  have hperm : (ids (framed q)).Perm (ids (framed q')) := by
    rw [List.perm_ext_iff_of_nodup h.nodup h'.nodup]
    intro k
    rw [h.mem_ids, h'.mem_ids]
  have hids : ids (q ++ [endEntry]) = ids (q' ++ [endEntry]) :=
    h.linked.eq_of_length h'.linked (Nat.succ.inj hperm.length_eq)
  have hsame : ∀ e ∈ q, ∀ e' ∈ q', e.id = e'.id → e = e' := by
    intro e he e' he' hid
    obtain ⟨_, _, hrec⟩ := h.records e (by simp [framed, he])
    obtain ⟨_, _, hrec'⟩ := h'.records e' (by simp [framed, he'])
    rw [hid, hrec'] at hrec
    exact (Entry.record_injective (Option.some.inj hrec)).symm
  rw [ids, ids, List.map_append, List.map_append, List.append_left_inj] at hids
  clear hperm h h'
  induction q generalizing q' with
  | nil => exact (List.map_eq_nil_iff.mp hids.symm).symm
  | cons e q ih =>
    cases q' with
    | nil => cases hids
    | cons e' q' =>
      obtain ⟨hid, htail⟩ := List.cons.inj hids
      obtain rfl := hsame e (by simp) e' (by simp) hid
      rw [ih htail fun x hx y hy => hsame x (by simp [hx]) y (by simp [hy])]

theorem Represents.unique {pq : Uuid → Option Bytes} {q q' : List Entry} (h : Represents pq q)
    (h' : Represents pq q') : q = q' := by
  have hused : ∀ {L : List Entry}, Holds pq (framed L) → ¬ ∀ k, pq k = none := by
    intro L holds hnone
    obtain ⟨_, _, hrec⟩ := holds.records startEntry (by simp [framed])
    rw [hnone] at hrec
    cases hrec
  cases h with
  | unused hq hpq =>
    cases h' with
    | unused hq' hpq' => rw [hq, hq']
    | used holds' certs' => exact (hused holds' hpq).elim
  | used holds certs =>
    cases h' with
    | unused hq' hpq' => exact (hused holds hpq').elim
    | used holds' certs' => exact holds.unique holds'

end ProcessQueueRefinement
