import Agentd.DataserviceEffects
import Agentd.LinkedKeys

/-! # The block chain

The abstract chain is the list of blocks made, oldest first. `Chain` says how `block.db` and
`height.db` store it: every record names the blocks below and above it, the root block uuid stands
below the first and the end uuid above the last. -/
namespace BlockchainInvariant

open ByteString
open CertificateFields
open FaultyTransactions
open DataserviceRecords
open DataserviceStore
open DataserviceQueue
open DataserviceBlocks
open DataserviceRequests
open DataserviceEffects
open LinkedKeys

structure Block where
  id : Uuid
  data : Bytes
  deriving DecidableEq

/-- The block at a height: the root block at 0, none above the last. -/
def blockAt (E : Env) (bs : List Block) (h : ℕ) : Uuid := keyAt Block.id E.rootBlock ffUuid bs h

def heightKey (h : ℕ) : BitVec 64 := BitVec.ofNat 64 h

def blockRecord (E : Env) (bs : List Block) (h : ℕ) (b : Block) (firstId : Uuid) : Bytes :=
  (⟨b.id, blockAt E bs h, blockAt E bs (h + 2), firstId, heightKey (h + 1),
    BitVec.ofNat 64 b.data.length⟩ : DataBlockNode).encode ++ b.data

def startRecord (E : Env) (bs : List Block) : Bytes :=
  (⟨zeroUuid, zeroUuid, blockAt E bs 1, zeroUuid, 0, 0⟩ : DataBlockNode).encode

def endRecord (E : Env) (bs : List Block) : Bytes :=
  (⟨ffUuid, blockAt E bs bs.length, ffUuid, zeroUuid, heightKey bs.length, 0⟩ :
    DataBlockNode).encode

/-- The two databases hold exactly the chain `bs`. -/
structure Chain (E : Env) (blk : Uuid → Option Bytes) (hts : BitVec 64 → Option Bytes)
    (bs : List Block) : Prop where
  nodup : (bs.map Block.id).Nodup
  not_reserved : ∀ b ∈ bs, b.id ≠ E.rootBlock ∧ b.id ≠ zeroUuid ∧ b.id ≠ ffUuid
  data : ∀ b ∈ bs, b.data ≠ [] ∧ b.data.length < maxPayload
  heights_fit : bs.length ≤ 2 ^ 64
  block : ∀ h b, bs[h]? = some b → ∃ firstId, blk b.id = some (blockRecord E bs h b firstId)
  block_domain : ∀ k, blk k ≠ none → k = zeroUuid ∨ k = ffUuid ∨ k ∈ bs.map Block.id
  sentinels : (bs = [] ∧ blk zeroUuid = none ∧ blk ffUuid = none) ∨
    (bs ≠ [] ∧ blk zeroUuid = some (startRecord E bs) ∧ blk ffUuid = some (endRecord E bs))
  height : ∀ h b, bs[h]? = some b → hts (heightKey (h + 1)) = some (be 16 b.id)
  height_domain : ∀ k, hts k ≠ none → ∃ h < bs.length, k = heightKey (h + 1)

/-! ### The chain with one more block -/

section Snoc

variable {E : Env} {bs : List Block} {b : Block}

theorem blockAt_append {h : ℕ} (hh : h ≤ bs.length) : blockAt E (bs ++ [b]) h = blockAt E bs h :=
  keyAt_append hh

theorem blockAt_append_last : blockAt E (bs ++ [b]) (bs.length + 1) = b.id := keyAt_append_last

theorem blockAt_above {h : ℕ} (hh : bs.length < h) : blockAt E bs h = ffUuid := keyAt_above hh

theorem blockAt_succ {h : ℕ} {c : Block} (hc : bs[h]? = some c) : blockAt E bs (h + 1) = c.id :=
  keyAt_succ hc

/-- Below the last block nothing changes. -/
theorem blockRecord_append {h : ℕ} (hh : h + 2 ≤ bs.length) (c : Block) (firstId : Uuid) :
    blockRecord E (bs ++ [b]) h c firstId = blockRecord E bs h c firstId := by
  rw [blockRecord, blockRecord, blockAt_append (by omega), blockAt_append hh]

/-- The last block is pointed at the new one. -/
theorem setNext_blockRecord {h : ℕ} (hh : h + 1 = bs.length) (c : Block) (firstId : Uuid) :
    setNext (blockRecord E bs h c firstId) b.id = blockRecord E (bs ++ [b]) h c firstId := by
  have hlast : blockAt E (bs ++ [b]) (h + 2) = b.id := by
    rw [show h + 2 = bs.length + 1 by omega]
    exact blockAt_append_last
  rw [blockRecord, DataBlockNode.setNext_encode, blockRecord, blockAt_append (by omega), hlast]

theorem blockRecord_new (firstId : Uuid) :
    blockRecord E (bs ++ [b]) bs.length b firstId =
      (⟨b.id, blockAt E bs bs.length, ffUuid, firstId, heightKey (bs.length + 1),
        BitVec.ofNat 64 b.data.length⟩ : DataBlockNode).encode ++ b.data := by
  have habove : blockAt E (bs ++ [b]) (bs.length + 2) = ffUuid := by
    apply blockAt_above
    simp
  rw [blockRecord, blockAt_append le_rfl, habove]

end Snoc

theorem heightKey_succ (n : ℕ) : 1 + heightKey n = heightKey (n + 1) := by
  rw [heightKey, heightKey, Nat.add_comm n 1, BitVec.ofNat_add]
  rfl

theorem heightKey_injective {h n : ℕ} (hh : h < 2 ^ 64) (hn : n < 2 ^ 64)
    (heq : heightKey (h + 1) = heightKey (n + 1)) : h = n := by
  have hnat := congrArg BitVec.toNat heq
  simp only [heightKey, BitVec.toNat_ofNat] at hnat
  omega

/-! ### Inserting a block -/

theorem length_blockRecord (E : Env) (bs : List Block) (h : ℕ) (b : Block) (firstId : Uuid) :
    (blockRecord E bs h b firstId).length = sizeofBlockNode + b.data.length := by
  simp [blockRecord]

theorem toNat_dataSize {b : Block} (h : b.data.length < maxPayload) :
    (BitVec.ofNat 64 b.data.length).toNat = b.data.length := by
  rw [BitVec.toNat_ofNat, Nat.mod_eq_of_lt]
  exact h.trans (by decide)

theorem storedSize_blockRecord {E : Env} {bs : List Block} {h : ℕ} {b : Block} {firstId : Uuid}
    (hb : b.data.length < maxPayload) :
    storedSize sizeofBlockNode
      (DataBlockNode.decode (blockRecord E bs h b firstId)).netBlockCertSize
      = (blockRecord E bs h b firstId).length := by
  rw [length_blockRecord, blockRecord, DataBlockNode.decode_encode, storedSize, toNat_dataSize hb]
  have hmax : maxPayload = 1073741824 := by decide
  have hheader : sizeofBlockNode = 80 := rfl
  omega

namespace Chain

variable {E : Env} {bs : List Block} {blk : Uuid → Option Bytes} {hts : BitVec 64 → Option Bytes}

theorem expectedBlockHeight_eq (hc : Chain E blk hts bs) :
    expectedBlockHeight (blk ffUuid) = heightKey (bs.length + 1) := by
  rcases hc.sentinels with ⟨rfl, -, hend⟩ | ⟨-, -, hend⟩
  · rw [hend]
    rfl
  · rw [hend, expectedBlockHeight, endRecord, DataBlockNode.decode_encode_header, heightKey_succ]

theorem expectedPrevBlockId_eq (hc : Chain E blk hts bs) :
    expectedPrevBlockId E (blk ffUuid) = blockAt E bs bs.length := by
  rcases hc.sentinels with ⟨rfl, -, hend⟩ | ⟨-, -, hend⟩
  · rw [hend]
    rfl
  · rw [hend, expectedPrevBlockId, endRecord, DataBlockNode.decode_encode_header]

theorem end_length (hc : Chain E blk hts bs) :
    ∀ e, blk ffUuid = some e → sizeofBlockNode ≤ e.length := by
  intro e he
  rcases hc.sentinels with ⟨-, -, hend⟩ | ⟨-, -, hend⟩
  · rw [hend] at he
    cases he
  · obtain rfl := Option.some.inj (hend.symm.trans he)
    rw [endRecord, DataBlockNode.length_encode]

theorem mem_of_getElem? {h : ℕ} {c : Block} (hc : bs[h]? = some c) : c.id ∈ bs.map Block.id :=
  List.mem_map_of_mem (List.mem_of_getElem? hc)

theorem id_ne_of_free (hc : Chain E blk hts bs) {id : Uuid} (hfree : blk id = none) :
    id ∉ bs.map Block.id := by
  intro hmem
  obtain ⟨c, hcm, rfl⟩ := List.mem_map.mp hmem
  obtain ⟨h, hh⟩ := List.mem_iff_getElem?.mp hcm
  obtain ⟨firstId, hrec⟩ := hc.block h c hh
  rw [hfree] at hrec
  cases hrec

/-- All 2^64 heights taken, the next one is taken as well. -/
theorem length_lt (hc : Chain E blk hts bs) (hfree : hts (heightKey (bs.length + 1)) = none) :
    bs.length < 2 ^ 64 := by
  apply lt_of_le_of_ne hc.heights_fit
  intro hfull
  have hpos : 0 < bs.length := by
    rw [hfull]
    decide
  have hwrap : heightKey (bs.length + 1) = heightKey (0 + 1) := by
    rw [hfull]
    decide
  have hone := hc.height 0 bs[0] (List.getElem?_eq_getElem hpos)
  rw [hwrap, hone] at hfree
  cases hfree

/-- What `block.db` holds once the block is linked behind the last one. -/
structure LinkedBehind (E : Env) (bs : List Block) (b : Block) (firstId : Uuid)
    (blk : Uuid → Option Bytes) : Prop where
  start : blk zeroUuid = some (startRecord E (bs ++ [b]))
  end_ : blk ffUuid = some (endRecord E (bs ++ [b]))
  new : blk b.id = some (blockRecord E (bs ++ [b]) bs.length b firstId)
  old : ∀ h c, bs[h]? = some c → ∃ first, blk c.id = some (blockRecord E (bs ++ [b]) h c first)
  domain : ∀ k, blk k ≠ none → k = zeroUuid ∨ k = ffUuid ∨ k ∈ (bs ++ [b]).map Block.id

theorem linkedBehind_first {b : Block} {firstId : Uuid} {blk' : Uuid → Option Bytes}
    (hc : Chain E blk hts []) (hz : b.id ≠ zeroUuid) (hf : b.id ≠ ffUuid)
    (hl : BlockLinked b.id (heightKey 1) (blockRecord E [b] 0 b firstId) none blk blk') :
    LinkedBehind E [] b firstId blk' := by
  obtain ⟨-, rfl⟩ := hl
  refine ⟨?_, ?_, ?_, ?_, ?_⟩
  · rw [Function.update_of_ne zeroUuid_ne_ffUuid, Function.update_self]
    rfl
  · rw [Function.update_self]
    rfl
  · rw [Function.update_of_ne hf, Function.update_of_ne hz, Function.update_self]
    rfl
  · intro h c hh
    cases hh
  · intro k hk
    by_cases hkz : k = zeroUuid
    · exact Or.inl hkz
    by_cases hkf : k = ffUuid
    · exact Or.inr (Or.inl hkf)
    by_cases hkb : k = b.id
    · simp [hkb]
    rw [Function.update_of_ne hkf, Function.update_of_ne hkz, Function.update_of_ne hkb] at hk
    rcases hc.block_domain k hk with h | h | h
    · exact Or.inl h
    · exact Or.inr (Or.inl h)
    · cases h

theorem linkedBehind_last {b : Block} {firstId : Uuid} {blk' : Uuid → Option Bytes}
    (hc : Chain E blk hts bs) (hne : bs ≠ []) (hz : b.id ≠ zeroUuid) (hf : b.id ≠ ffUuid)
    (hl : BlockLinked b.id (heightKey (bs.length + 1))
      (blockRecord E (bs ++ [b]) bs.length b firstId) (some (endRecord E bs)) blk blk') :
    LinkedBehind E bs b firstId blk' := by
  obtain ⟨n, last, hn, hlast, hat⟩ := exists_last Block.id E.rootBlock ffUuid hne
  obtain ⟨hfree, p, hp, -, -, rfl⟩ := hl
  have hnew := hc.id_ne_of_free hfree
  obtain ⟨lastFirst, hrec⟩ := hc.block n last hlast
  have hlm := List.mem_of_getElem? hlast
  have hne_last : last.id ≠ b.id := fun heq => hnew (heq ▸ mem_of_getElem? hlast)
  obtain ⟨-, hlz, hlf⟩ := hc.not_reserved last hlm
  have hprev : (DataBlockNode.decode (endRecord E bs)).prev = last.id := by
    rw [endRecord, DataBlockNode.decode_encode_header]
    exact hat
  rw [hprev, Function.update_of_ne hne_last, hrec] at hp
  have hp := Option.some.inj hp
  have hend : setBlockHeight (setPrev ((endRecord E bs).take sizeofBlockNode) b.id)
      (heightKey (bs.length + 1)) = endRecord E (bs ++ [b]) := by
    have htake : (endRecord E bs).take sizeofBlockNode = endRecord E bs := by
      rw [List.take_of_length_le]
      simp [endRecord]
    have hset := DataBlockNode.setPrev_encode
      ⟨ffUuid, blockAt E bs bs.length, ffUuid, zeroUuid, heightKey bs.length, 0⟩ [] b.id
    have hset' := DataBlockNode.setBlockHeight_encode
      ⟨ffUuid, b.id, ffUuid, zeroUuid, heightKey bs.length, 0⟩ [] (heightKey (bs.length + 1))
    rw [List.append_nil, List.append_nil] at hset hset'
    rw [htake, endRecord, hset, hset', endRecord, List.length_append, List.length_singleton,
      blockAt_append_last]
  have hpatch : setNext (p.take (storedSize sizeofBlockNode
      (DataBlockNode.decode p).netBlockCertSize)) b.id =
      blockRecord E (bs ++ [b]) n last lastFirst := by
    rw [← hp, storedSize_blockRecord (hc.data last hlm).2, List.take_length,
      setNext_blockRecord hn]
  rw [hprev, hend, hpatch, show (DataBlockNode.decode (endRecord E (bs ++ [b]))).key = ffUuid by
    rw [endRecord, DataBlockNode.decode_encode_header]]
  refine ⟨?_, ?_, ?_, ?_, ?_⟩
  · rw [Function.update_of_ne zeroUuid_ne_ffUuid, Function.update_of_ne hlz.symm,
      Function.update_of_ne hz.symm]
    rcases hc.sentinels with ⟨hnil, -⟩ | ⟨-, hstart, -⟩
    · exact (hne hnil).elim
    · rw [hstart, startRecord, startRecord,
        blockAt_append (List.length_pos_iff.mpr hne)]
  · rw [Function.update_self]
  · rw [Function.update_of_ne hf, Function.update_of_ne hne_last.symm, Function.update_self]
  · intro h c hh
    have hcm := List.mem_of_getElem? hh
    have hcb : c.id ≠ b.id := fun heq => hnew (heq ▸ mem_of_getElem? hh)
    rw [Function.update_of_ne (hc.not_reserved c hcm).2.2]
    by_cases hcl : c.id = last.id
    · have hhn := position_unique hc.nodup hh hlast hcl
      subst hhn
      rw [hlast] at hh
      cases hh
      exact ⟨lastFirst, Function.update_self _ _ _⟩
    · obtain ⟨first, hfirst⟩ := hc.block h c hh
      have hlen := (List.getElem?_eq_some_iff.mp hh).1
      have hhn : h ≠ n := by
        rintro rfl
        rw [hlast] at hh
        cases hh
        exact hcl rfl
      refine ⟨first, ?_⟩
      rw [Function.update_of_ne hcl, Function.update_of_ne hcb, hfirst,
        blockRecord_append (by omega)]
  · intro k hk
    by_cases hkf : k = ffUuid
    · exact Or.inr (Or.inl hkf)
    by_cases hkl : k = last.id
    · refine Or.inr (Or.inr ?_)
      rw [hkl, List.map_append]
      exact List.mem_append_left _ (mem_of_getElem? hlast)
    by_cases hkb : k = b.id
    · simp [hkb]
    rw [Function.update_of_ne hkf, Function.update_of_ne hkl, Function.update_of_ne hkb] at hk
    rcases hc.block_domain k hk with h | h | h
    · exact Or.inl h
    · exact Or.inr (Or.inl h)
    · exact Or.inr (Or.inr (by simp [h]))

theorem snoc {b : Block} {firstId : Uuid} {blk' : Uuid → Option Bytes} (hc : Chain E blk hts bs)
    (hnew : b.id ∉ bs.map Block.id)
    (hres : b.id ≠ E.rootBlock ∧ b.id ≠ zeroUuid ∧ b.id ≠ ffUuid)
    (hdata : b.data ≠ [] ∧ b.data.length < maxPayload)
    (hfree : hts (heightKey (bs.length + 1)) = none) (hl : LinkedBehind E bs b firstId blk') :
    Chain E blk' (Function.update hts (heightKey (bs.length + 1)) (some (be 16 b.id)))
      (bs ++ [b]) where
  nodup := by
    rw [List.map_append, List.nodup_append]
    refine ⟨hc.nodup, by simp, ?_⟩
    rintro x hx y hy rfl
    simp only [List.map_cons, List.map_nil, List.mem_singleton] at hy
    exact hnew (hy ▸ hx)
  not_reserved c hcm := by
    rcases List.mem_append.mp hcm with h | h
    · exact hc.not_reserved c h
    · rw [List.mem_singleton.mp h]
      exact hres
  data c hcm := by
    rcases List.mem_append.mp hcm with h | h
    · exact hc.data c h
    · rw [List.mem_singleton.mp h]
      exact hdata
  heights_fit := by
    have hlt := hc.length_lt hfree
    simp only [List.length_append, List.length_singleton]
    omega
  block h c hh := by
    rcases getElem?_snoc hh with ⟨-, hold⟩ | ⟨rfl, rfl⟩
    · exact hl.old h c hold
    · exact ⟨firstId, hl.new⟩
  block_domain := hl.domain
  sentinels := Or.inr ⟨by simp, hl.start, hl.end_⟩
  height h c hh := by
    have hlt := hc.length_lt hfree
    rcases getElem?_snoc hh with ⟨hhl, hold⟩ | ⟨rfl, rfl⟩
    · have hne : heightKey (h + 1) ≠ heightKey (bs.length + 1) := by
        intro heq
        have := heightKey_injective (by omega) hlt heq
        omega
      rw [Function.update_of_ne hne]
      exact hc.height h c hold
    · rw [Function.update_self]
  height_domain k hk := by
    rw [List.length_append, List.length_singleton]
    by_cases hkn : k = heightKey (bs.length + 1)
    · exact ⟨bs.length, by omega, hkn⟩
    · rw [Function.update_of_ne hkn] at hk
      obtain ⟨h, hh, hkh⟩ := hc.height_domain k hk
      exact ⟨h, by omega, hkh⟩

/-- The record `block_make` enters is the record of the chain's new last block. -/
theorem linkedBehind {fs : List (CertField × Bytes)} {b : Block} {v : Store} {firstId : Uuid}
    {blk' : Uuid → Option Bytes} (hc : Chain E v.blockDb v.heightDb bs)
    (hi : BlockInserted E fs b.id b.data v firstId blk') : LinkedBehind E bs b firstId blk' := by
  obtain ⟨-, hz, hf⟩ := hi.checked.not_reserved
  have hlinked := hi.linked
  rw [hc.expectedBlockHeight_eq, hc.expectedPrevBlockId_eq, ← blockRecord_new] at hlinked
  rcases hc.sentinels with ⟨rfl, -, hend⟩ | ⟨hne, -, hend⟩
  · rw [hend] at hlinked
    exact linkedBehind_first hc hz hf hlinked
  · rw [hend] at hlinked
    exact linkedBehind_last hc hne hz hf hlinked

theorem inserted {fs : List (CertField × Bytes)} {b : Block} {v : Store} {firstId : Uuid}
    {blk' : Uuid → Option Bytes} (hc : Chain E v.blockDb v.heightDb bs)
    (hdata : b.data ≠ [] ∧ b.data.length < maxPayload)
    (hi : BlockInserted E fs b.id b.data v firstId blk') :
    Chain E (withBlock b.id blk' v).blockDb (withBlock b.id blk' v).heightDb (bs ++ [b]) := by
  have hfree := hi.height_free
  rw [hc.expectedBlockHeight_eq] at hfree
  have hsnoc := hc.snoc (hc.id_ne_of_free hi.linked.1) hi.checked.not_reserved hdata hfree
    (hc.linkedBehind hi)
  rw [← hc.expectedBlockHeight_eq] at hsnoc
  exact hsnoc

end Chain

/-! ### Runs -/

def blocksMade (log : List (Invocation × Outcome)) : List Block :=
  log.filterMap fun e => match e.1.request, e.2 with
    | .blockMake blockId blockData, .ok _ => some ⟨blockId, blockData⟩
    | _, _ => none

theorem blocksMade_snoc (log : List (Invocation × Outcome)) (i : Invocation) (o : Outcome) :
    blocksMade (log ++ [(i, o)]) = blocksMade log ++ blocksMade [(i, o)] := by
  rw [blocksMade, List.filterMap_append]
  rfl

theorem canonized_blocks {E : Env} {height : BitVec 64} {blockId : Uuid}
    {cs : List (Bytes × ChildFields)} {v w : Store} (h : Canonized E height blockId cs v w) :
    w.blockDb = v.blockDb ∧ w.heightDb = v.heightDb := by
  induction h with
  | nil v => exact ⟨rfl, rfl⟩
  | cons first rest ih => exact ⟨ih.1.trans first.block, ih.2.trans first.height⟩

/-- A call of the run: its commit works and its packet is one the decoder lets through. Every
other outside call may fail. -/
structure ChainCall (i : Invocation) : Prop where
  commit : i.commitFails = false
  decoded : i.request.Decoded

theorem blocksMade_eq_nil {i : Invocation} {o : Outcome}
    (h : ∀ blockId blockData, i.request ≠ .blockMake blockId blockData) :
    blocksMade [(i, o)] = [] := by
  obtain ⟨r, caps, f, b⟩ := i
  cases r with
  | blockMake blockId blockData => exact (h blockId blockData rfl).elim
  | _ => rfl

theorem blocksMade_blockMake {i : Invocation} {blockId : Uuid} {blockData : Bytes} {a : Reply}
    (h : i.request = .blockMake blockId blockData) :
    blocksMade [(i, .ok a)] = [⟨blockId, blockData⟩] := by
  simp [blocksMade, h]

theorem effect_chain {E : Env} {d w : Store} {i : Invocation} {a : Reply} {bs : List Block}
    (hc : Chain E d.blockDb d.heightDb bs) (hi : ChainCall i)
    (h : i.request.Effect E i.faults d a w) :
    Chain E w.blockDb w.heightDb (bs ++ blocksMade [(i, .ok a)]) := by
  rcases effect_cases h with ⟨blockId, blockData, fs, hreq, hfs, hends⟩ | ⟨hreq, hframe⟩
  · obtain ⟨_, _, firstId, blk, cs, -, -, hins, hcs, -, -⟩ := blockMakeBody_ends hends
    have hne : blockData ≠ [] := by
      intro hnil
      obtain ⟨raw, hraw, -⟩ := Option.map_eq_some_iff.mp hins.checked.uuid
      have hmem := mem_of_mem_fieldValues (List.mem_of_mem_head? (sizedField_eq_some.mp hraw).1)
      have hlt := E.value_length_lt hfs hmem
      rw [hnil] at hlt
      exact absurd hlt (by simp)
    have hdecoded : blockData.length < maxPayload := by
      have := hi.decoded
      rw [hreq] at this
      exact this
    obtain ⟨hblk, hhts⟩ := canonized_blocks hcs
    rw [hblk, hhts, blocksMade_blockMake hreq]
    exact hc.inserted (b := ⟨blockId, blockData⟩) ⟨hne, hdecoded⟩ hins
  · rw [blocksMade_eq_nil hreq, List.append_nil, hframe.block, hframe.height]
    exact hc

theorem chain_empty (E : Env) : Chain E emptyStore.blockDb emptyStore.heightDb [] where
  nodup := List.nodup_nil
  not_reserved := by simp
  data := by simp
  heights_fit := by simp
  block := by simp
  block_domain k hk := (hk rfl).elim
  sentinels := Or.inl ⟨rfl, rfl, rfl⟩
  height := by simp
  height_domain k hk := (hk rfl).elim

theorem run_chain {E : Env} {log : List (Invocation × Outcome)} {d : Store}
    (h : Run E (fun _ i => ChainCall i) log d) : Chain E d.blockDb d.heightDb (blocksMade log) := by
  induction h with
  | nil => exact chain_empty E
  | @snoc log d i before call ih =>
    rw [blocksMade_snoc]
    rcases perform_cases E d i with ⟨-, he⟩ | ⟨e, he⟩ | ⟨a, w, -, heff, ha⟩
    · rw [he]
      simpa [blocksMade] using ih
    · rw [he]
      simpa [blocksMade] using ih
    · rw [ha, call.commit]
      exact effect_chain ih call heff

/-- One call keeps some chain, whether its commit works or not. -/
theorem perform_chain {E : Env} {d : Store} {i : Invocation} (hi : i.request.Decoded)
    (hd : ∃ bs, Chain E d.blockDb d.heightDb bs) :
    ∃ bs, Chain E (perform E d i).2.blockDb (perform E d i).2.heightDb bs := by
  apply perform_preserves (P := fun w => ∃ bs, Chain E w.blockDb w.heightDb bs) hd
  intro a w hb heff
  obtain ⟨bs, hc⟩ := hd
  exact ⟨_, effect_chain hc ⟨hb, hi⟩ heff⟩

theorem run_exists_chain {E : Env} {log : List (Invocation × Outcome)} {d : Store}
    (h : Run E (fun _ i => i.request.Decoded) log d) :
    ∃ bs, Chain E d.blockDb d.heightDb bs := by
  induction h with
  | nil => exact ⟨[], chain_empty E⟩
  | snoc before call ih => exact perform_chain call ih

/-! ### Reads -/

section Reads

variable {E : Env} {d : Store} {bs : List Block} {i : Invocation}

theorem perform_latestBlockIdGet (hc : Chain E d.blockDb d.heightDb bs)
    (hi : i.request = .latestBlockIdGet) (hw : LmdbWorks i.faults) (hp : i.Permitted) :
    perform E d i = (.ok (.blockId (blockAt E bs bs.length)), d) := by
  obtain ⟨r, caps, f, b⟩ := i
  cases hi
  have hl : ∀ e, d.blockDb ffUuid = some e → e.length = sizeofBlockNode := by
    intro e he
    rcases hc.sentinels with ⟨-, -, hend⟩ | ⟨-, -, hend⟩
    · rw [hend] at he
      cases he
    · rw [hend] at he
      rw [← Option.some.inj he]
      simp [endRecord]
  have hy := latestBlockIdGetBody_yields (E := E) hw hl
  rw [hc.expectedPrevBlockId_eq] at hy
  have hd : Delivers (Request.run E caps .latestBlockIdGet) f d []
      (.blockId (blockAt E bs bs.length)) d :=
    (authorize_delivers hp.capability (inReadTxn_delivers hw hy)).bind_pure Reply.blockId
  rw [perform_of_delivers hd, ite_self]

theorem perform_blockIdByHeightGet (hc : Chain E d.blockDb d.heightDb bs) {h : ℕ}
    (hh : h < bs.length) (hi : i.request = .blockIdByHeightGet (heightKey (h + 1)))
    (hw : LmdbWorks i.faults) (hp : i.Permitted) :
    perform E d i = (.ok (.blockId (blockAt E bs (h + 1))), d) := by
  obtain ⟨r, caps, f, b⟩ := i
  cases hi
  have hget := List.getElem?_eq_getElem hh
  have hy := blockIdByHeightGetBody_yields hw (hc.height h _ hget) (by simp)
  rw [bits_be (by rfl), ← blockAt_succ (E := E) hget] at hy
  have hd : Delivers (Request.run E caps (.blockIdByHeightGet (heightKey (h + 1)))) f d []
      (.blockId (blockAt E bs (h + 1))) d :=
    (authorize_delivers hp.capability (inReadTxn_delivers hw hy)).bind_pure Reply.blockId
  rw [perform_of_delivers hd, ite_self]

theorem perform_blockGet_of_yields {blockId : Uuid} {node : DataBlockNode} {cert : Bytes}
    (hi : i.request = .blockGet blockId) (hw : LmdbWorks i.faults) (hp : i.Permitted)
    (hy : Yields (blockGetBody E false blockId) i.faults d (node, cert) d) :
    perform E d i = (.ok (.block node cert), d) := by
  obtain ⟨r, caps, f, b⟩ := i
  cases hi
  have hget : Delivers (blockGet E caps blockId) f d [] (node, cert) d :=
    authorize_delivers hp.capability (Delivers.of_hasParent (inReadTxn_delivers hw hy))
  have hd : Delivers (Request.run E caps (.blockGet blockId)) f d [] (.block node cert) d :=
    hget.bind_pure fun r => Reply.block r.1 r.2
  rw [perform_of_delivers hd, ite_self]

theorem blockGetBody_chain_yields (hc : Chain E d.blockDb d.heightDb bs) {h : ℕ} {c : Block}
    (hh : bs[h]? = some c) :
    ∃ firstId, ∀ f, LmdbWorks f → AllocWorks f → Yields (blockGetBody E false c.id) f d
      (⟨c.id, blockAt E bs h, blockAt E bs (h + 2), firstId, heightKey (h + 1),
        BitVec.ofNat 64 c.data.length⟩, c.data) d := by
  obtain ⟨firstId, hrec⟩ := hc.block h c hh
  obtain ⟨hne, hlt⟩ := hc.data c (List.mem_of_getElem? hh)
  have hpos : 0 < c.data.length := List.length_pos_iff.mpr hne
  have hlong : sizeofBlockNode < (blockRecord E bs h c firstId).length := by
    rw [length_blockRecord]
    omega
  have hsize : (blockRecord E bs h c firstId).length - sizeofBlockNode =
      (DataBlockNode.decode (blockRecord E bs h c firstId)).netBlockCertSize.toNat := by
    rw [length_blockRecord, blockRecord, DataBlockNode.decode_encode, toNat_dataSize hlt,
      Nat.add_sub_cancel_left]
  refine ⟨firstId, fun f hw ha => ?_⟩
  have hy := blockGetBody_yields (E := E) hw ha hrec hlong hsize
  rwa [blockRecord, DataBlockNode.decode_encode, List.drop_left' (by simp)] at hy

theorem perform_blockGet (hc : Chain E d.blockDb d.heightDb bs) {h : ℕ} {c : Block}
    (hh : bs[h]? = some c) (hi : i.request = .blockGet c.id) (hw : LmdbWorks i.faults)
    (hp : i.Permitted) :
    ∃ firstId, perform E d i = (.ok (.block ⟨c.id, blockAt E bs h, blockAt E bs (h + 2), firstId,
      heightKey (h + 1), BitVec.ofNat 64 c.data.length⟩ c.data), d) := by
  obtain ⟨firstId, hy⟩ := blockGetBody_chain_yields hc hh
  exact ⟨firstId, perform_blockGet_of_yields hi hw hp (hy i.faults hw hp.alloc)⟩

theorem perform_blockGet_root (hc : Chain E d.blockDb d.heightDb bs) (hne : bs ≠ [])
    (hi : i.request = .blockGet E.rootBlock) (hw : LmdbWorks i.faults) (hp : i.Permitted) :
    perform E d i =
      (.ok (.block ⟨zeroUuid, zeroUuid, blockAt E bs 1, zeroUuid, 0, 0⟩ []), d) := by
  have hroot : d.blockDb E.rootBlock = none := by
    by_contra hkey
    rcases hc.block_domain _ hkey with h | h | h
    · exact E.rootBlock_ne_zero h
    · exact E.rootBlock_ne_ff h
    · obtain ⟨c, hcm, hid⟩ := List.mem_map.mp h
      exact (hc.not_reserved c hcm).1 hid
  rcases hc.sentinels with ⟨hnil, -⟩ | ⟨-, hstart, -⟩
  · exact (hne hnil).elim
  · have hy := blockGetBody_root_yields hw hp.alloc hroot hstart (by simp [startRecord])
      (by simp [startRecord])
    rw [startRecord, DataBlockNode.decode_encode_header, List.drop_of_length_le (by simp)] at hy
    exact perform_blockGet_of_yields hi hw hp hy

/-- Without a block there is no start record either. -/
theorem not_ok_blockGet_root (hc : Chain E d.blockDb d.heightDb []) (a : Reply) :
    (perform E d (workingCall (.blockGet E.rootBlock))).1 ≠ .ok a := by
  intro hok
  obtain ⟨w, -, ⟨-, node, cert, u, -, hends⟩, -⟩ := perform_ok hok
  obtain ⟨b, hb, -⟩ := blockGetBody_ends hends
  have hnone : ∀ k, d.blockDb k = none := by
    intro k
    by_contra hk
    rcases hc.sentinels with ⟨-, hz, hf⟩ | ⟨hne, -⟩
    · rcases hc.block_domain k hk with rfl | rfl | h
      · exact hk hz
      · exact hk hf
      · cases h
    · exact hne rfl
  rw [hnone, hnone] at hb
  rcases hb with hb | ⟨-, hb⟩
  · cases hb
  · cases hb

end Reads

def gotBlock : Outcome → Option (DataBlockNode × Bytes)
  | .ok (.block node cert) => some (node, cert)
  | _ => none

/-- The replies to `block_get`, from a block upwards along `next`. -/
def blocksFrom (E : Env) (d : Store) (fuel : ℕ) (id : Uuid) : List (DataBlockNode × Bytes) :=
  walk (fun id => gotBlock (perform E d (workingCall (.blockGet id))).1) (fun r => r.1.next) ffUuid
    fuel id

section Walk

variable {E : Env} {d : Store} {bs : List Block}

def blockOf (r : DataBlockNode × Bytes) : Block := ⟨r.1.key, r.2⟩

theorem blocksFrom_block (hc : Chain E d.blockDb d.heightDb bs) {h fuel : ℕ} {c : Block}
    (hh : bs[h]? = some c) (hfuel : bs.length ≤ h + fuel) :
    (blocksFrom E d fuel c.id).map blockOf = bs.drop h := by
  rw [← List.map_id (bs.drop h)]
  apply map_walk_eq_drop E.rootBlock _ _ hh hfuel
  · intro j b hb
    obtain ⟨firstId, hget⟩ := perform_blockGet (i := workingCall (.blockGet b.id)) hc hb rfl
      (workingCall_works _).lmdb (workingCall_permitted _)
    rw [hget]
    exact ⟨_, rfl, rfl, rfl⟩
  · intro b hb
    exact (hc.not_reserved b hb).2.2

/-- From the root block uuid upwards, every block once and in order. -/
theorem blocksFrom_root (hc : Chain E d.blockDb d.heightDb bs) {fuel : ℕ}
    (hfuel : bs.length < fuel) : (blocksFrom E d fuel E.rootBlock).tail.map blockOf = bs := by
  obtain ⟨n, rfl⟩ : ∃ n, fuel = n + 1 := ⟨fuel - 1, by omega⟩
  rw [blocksFrom, walk]
  cases bs with
  | nil =>
    have hno := not_ok_blockGet_root hc
    cases hres : (perform E d (workingCall (.blockGet E.rootBlock))).1 with
    | error e => rfl
    | ok a => exact (hno a hres).elim
  | cons c rest =>
    rw [perform_blockGet_root (i := workingCall (.blockGet E.rootBlock)) hc (by simp) rfl
      (workingCall_works _).lmdb (workingCall_permitted _)]
    have hff : c.id ≠ ffUuid := (hc.not_reserved c (by simp)).2.2
    have hat : blockAt E (c :: rest) 1 = c.id := rfl
    have hlen : (c :: rest).length ≤ 0 + n := by omega
    simp only [gotBlock, hat, if_neg hff, List.tail_cons]
    exact blocksFrom_block hc (h := 0) rfl hlen

/-- What the read operations say of the chain `bs`: the latest block is the one found under the
last height, and from the root block upwards come all the blocks in order with their original
bytes. -/
structure Reads (E : Env) (d : Store) (bs : List Block) : Prop where
  latest : ∀ i : Invocation, i.request = .latestBlockIdGet → i.Works → i.Permitted →
    perform E d i = (.ok (.blockId (blockAt E bs bs.length)), d)
  by_height : ∀ (i : Invocation) (h : ℕ), h < bs.length →
    i.request = .blockIdByHeightGet (heightKey (h + 1)) → i.Works → i.Permitted →
    perform E d i = (.ok (.blockId (blockAt E bs (h + 1))), d)
  walk : ∀ fuel, bs.length < fuel → (blocksFrom E d fuel E.rootBlock).tail.map blockOf = bs

end Walk

/-- After every run on a fresh database the two databases hold the chain of the blocks made, and
the reads follow it. -/
theorem blocks_made_are_chained {E : Env} {log : List (Invocation × Outcome)} {d : Store}
    (h : Run E (fun _ i => ChainCall i) log d) :
    Chain E d.blockDb d.heightDb (blocksMade log) ∧ Reads E d (blocksMade log) := by
  have hc := run_chain h
  refine ⟨hc, ?_, ?_, ?_⟩
  · intro i hi hw hp
    exact perform_latestBlockIdGet hc hi hw.lmdb hp
  · intro i h hh hi hw hp
    exact perform_blockIdByHeightGet hc hh hi hw.lmdb hp
  · intro fuel hfuel
    exact blocksFrom_root hc hfuel

def twoBlockCalls : List Invocation :=
  [workingCall (.transactionSubmit 5 7 (transactionCert 5 0 7 1)),
    workingCall (.blockMake 9 (blockCert 9 1 1 [transactionCert 5 0 7 1])),
    workingCall (.transactionSubmit 6 7 (transactionCert 6 5 7 2)),
    workingCall (.blockMake 10 (blockCert 10 9 2 [transactionCert 6 5 7 2]))]

theorem two_blocks_are_chained :
    (blocksMade (runCalls (codecEnv true) twoBlockCalls).1).map Block.id = [9, 10] ∧
      Chain (codecEnv true) (runCalls (codecEnv true) twoBlockCalls).2.blockDb
        (runCalls (codecEnv true) twoBlockCalls).2.heightDb
        (blocksMade (runCalls (codecEnv true) twoBlockCalls).1) := by
  have hcalls : ∀ i ∈ twoBlockCalls, ChainCall i := by
    simp only [twoBlockCalls, List.mem_cons, List.not_mem_nil, or_false]
    rintro i (rfl | rfl | rfl | rfl)
    · exact ⟨rfl, by decide, by decide⟩
    · exact ⟨rfl, show (blockCert _ _ _ _).length < maxPayload by decide +kernel⟩
    · exact ⟨rfl, by decide, by decide⟩
    · exact ⟨rfl, show (blockCert _ _ _ _).length < maxPayload by decide +kernel⟩
  have hrun : Run (codecEnv true) (fun _ i => ChainCall i)
      (runCalls (codecEnv true) twoBlockCalls).1 (runCalls (codecEnv true) twoBlockCalls).2 :=
    run_runCalls (allowedFrom_of_forall hcalls emptyStore)
  exact ⟨by decide +kernel, (blocks_made_are_chained hrun).1⟩

end BlockchainInvariant
