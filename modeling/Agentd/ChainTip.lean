import Mathlib.Data.Set.BooleanAlgebra
import Mathlib.Order.CompletePartialOrder
import Agentd.NestedCalls
import Agentd.QueueProgress
import Agentd.RoundTurns

/-! # The tip of the chain

A round reads the id of the latest block, then the height of that block, and names both in the block
it sends. Between the reads and the block request other clients only change the queue, so the tip
that `dataservice_block_make` compares with is still the one that was read. The id of the new block
comes from the random service. -/
namespace ChainTip

open ByteString
open CertificateFields
open FaultyTransactions
open DataserviceRecords
open DataserviceStore
open DataserviceQueue
open DataserviceBlocks
open DataserviceRequests
open DataserviceEffects
open DataserviceDispatch
open DataserviceClient
open CapabilityConfinement
open BlockchainInvariant
open CanonizationService
open CanonizationSystem
open PublishedBlocks
open BlockContents
open NestedCalls
open QueueProgress
open RoundTurns

/-! ### Drawn ids -/

def reservedIds (E : Env) : Set Uuid := {E.rootBlock, zeroUuid, ffUuid}

def drawnBy (a : Action) : Set Uuid :=
  {id | ∃ packet, a = .random packet ∧ drawnBlockId packet = some id}

/-- Runs in which no id is drawn twice. The ids that were in use at the start are those of the block
database, and some more. -/
inductive Drawing (E : Env) (B : CertBuilder) (dir : Bytes) (more : Set Uuid) (start : System) :
    Set Uuid → System → Prop
  | refl : Drawing E B dir more start (more ∪ {id | (start.store dir).blockDb id ≠ none}) start
  | tail {used : Set Uuid} {s t : System} {a : Action} (before : Drawing E B dir more start used s)
      (fresh : Disjoint (drawnBy a) used) (taken : step E B dir s a = some t) :
      Drawing E B dir more start (used ∪ drawnBy a) t

structure Fresh (E : Env) (used : Set Uuid) (d : Store) (id : Uuid) : Prop where
  drawn : id ∈ used
  free : d.blockDb id = none
  not_reserved : id ∉ reservedIds E

structure Tip (E : Env) (d : Store) (inst : CanonizationService.Instance) : Prop where
  previous : inst.previousBlockId = expectedPrevBlockId E (d.blockDb ffUuid)
  height : inst.blockHeight = expectedBlockHeight (d.blockDb ffUuid)

/-- A certificate that the builder of the library emits is read back by its parser as the fields it
was given, in their order, with the signer and the signature behind them. -/
def ReadsBack (E : Env) (B : CertBuilder) : Prop :=
  ∀ size fs key cert, B.build size fs key = some cert →
    ∃ id sig, E.fields cert = some (fs ++ [(.signerId, id), (.signature, sig)])

/-! ### What is in flight -/

section Flight

variable (E : Env) (B : CertBuilder) (used : Set Uuid) (d : Store)
  (inst : CanonizationService.Instance)

inductive TrackedRequest : Bytes → Prop
  | create (hfresh : Fresh E used d inst.blockId) :
    TrackedRequest (encodeRequestChildContextCreate canonizationCaps)
  | latest (child : BitVec 32) (hfresh : Fresh E used d inst.blockId) :
    TrackedRequest (encodeRequestLatestBlockIdGet child)
  | block (child : BitVec 32) (hfresh : Fresh E used d inst.blockId)
      (hprev : inst.previousBlockId = expectedPrevBlockId E (d.blockDb ffUuid))
      (hne : inst.previousBlockId ≠ E.rootBlock) :
    TrackedRequest (encodeRequestBlockGet child inst.previousBlockId true)
  | first (child : BitVec 32) (hfresh : Fresh E used d inst.blockId) (htip : Tip E d inst) :
    TrackedRequest (encodeRequestTransactionGetFirst child)
  | next (child : BitVec 32) (txnId : Uuid) (hfresh : Fresh E used d inst.blockId)
      (htip : Tip E d inst) : TrackedRequest (encodeRequestTransactionGet child txnId)
  | make (child : BitVec 32) {size : ℕ} {now : BitVec 64} {txns : List Transaction}
      {key : PrivateKey} {cert : Bytes} (hfresh : Fresh E used d inst.blockId)
      (htip : Tip E d inst)
      (hbuild : B.build size (blockCertificateFields B now inst txns) key = some cert) :
    TrackedRequest (encodeRequestBlockMake child inst.blockId cert)
  | close (child : BitVec 32) : TrackedRequest (encodeRequestChildContextClose child)

inductive TrackedResponse : Response → Prop
  | create {resp : Response} (hm : resp.method = Method.llChildContextCreate.code)
      (hfresh : Fresh E used d inst.blockId) : TrackedResponse resp
  | latest {resp : Response} (hm : resp.method = Method.appBlockIdLatestRead.code)
      (hfresh : Fresh E used d inst.blockId)
      (hid : resp.status = .ok () → resp.payload = some (be 16 (latestBlock E d))) :
    TrackedResponse resp
  | block {resp : Response} (hm : resp.method = Method.appBlockRead.code)
      (hfresh : Fresh E used d inst.blockId)
      (hprev : inst.previousBlockId = expectedPrevBlockId E (d.blockDb ffUuid))
      (hheight : ∀ node cert, decodeResponseBlockGet resp = some (.ok (node, cert)) →
        node.netBlockHeight + 1 = expectedBlockHeight (d.blockDb ffUuid)) : TrackedResponse resp
  | entry {resp : Response} (hm : ReadsEntry resp) (hfresh : Fresh E used d inst.blockId)
      (htip : Tip E d inst) : TrackedResponse resp
  | done {resp : Response} (m : Method) (hm : m = .appBlockWrite ∨ m = .llChildContextClose)
      (h : resp.method = m.code) : TrackedResponse resp

def Tracked : Message → Prop
  | .randomResponse packet => ∀ id, drawnBlockId packet = some id → Fresh E used d id
  | .dataRequest packet => TrackedRequest E B used d inst packet
  | .dataResponse resp => TrackedResponse E used d inst resp
  | _ => True

end Flight

/-! ### The chain -/

section Chain

variable {E : Env} {blk : Uuid → Option Bytes} {hts : BitVec 64 → Option Bytes} {bs : List Block}

/-- The root block is the latest one of the empty chain only. -/
theorem chain_height_of_root (hc : Chain E blk hts bs)
    (hroot : expectedPrevBlockId E (blk ffUuid) = E.rootBlock) :
    expectedBlockHeight (blk ffUuid) = 1 := by
  rw [hc.expectedPrevBlockId_eq] at hroot
  rw [hc.expectedBlockHeight_eq]
  rcases List.eq_nil_or_concat bs with rfl | ⟨init, b, rfl⟩
  · rfl
  · rw [List.concat_eq_append] at hc hroot
    rw [List.length_append, List.length_singleton,
      blockAt_succ (h := init.length) (c := b) (by simp)] at hroot
    exact absurd hroot (hc.not_reserved b (by simp)).1

/-- The record of the latest block has its height. -/
theorem chain_latest_height (hc : Chain E blk hts bs) {id : Uuid}
    {record : Bytes} (hid : id = expectedPrevBlockId E (blk ffUuid)) (hne : id ≠ E.rootBlock)
    (hrecord : blk id = some record) :
    (DataBlockNode.decode record).netBlockHeight + 1 = expectedBlockHeight (blk ffUuid) := by
  rw [hc.expectedPrevBlockId_eq] at hid
  rw [hc.expectedBlockHeight_eq]
  rcases List.eq_nil_or_concat bs with rfl | ⟨init, b, rfl⟩
  · exact absurd hid hne
  · rw [List.concat_eq_append] at hc hid ⊢
    have hlast : (init ++ [b])[init.length]? = some b := by simp
    rw [List.length_append, List.length_singleton, blockAt_succ hlast] at hid
    obtain ⟨firstId, hblk⟩ := hc.block init.length b hlast
    rw [hid, hblk] at hrecord
    rw [← Option.some.inj hrecord, blockRecord, DataBlockNode.decode_encode, BitVec.add_comm,
      heightKey_succ, List.length_append, List.length_singleton]

end Chain

/-! ### Callbacks -/

section Callbacks

variable {E : Env} {B : CertBuilder} {used : Set Uuid} {d : Store}
  {inst : CanonizationService.Instance} {m : Message} {e : Effect} {resp : Response}
  {bs : List Block}

theorem TrackedResponse.of_create (h : TrackedResponse E used d inst resp)
    (hm : resp.method = Method.llChildContextCreate.code) : Fresh E used d inst.blockId := by
  cases h with
  | create _ hfresh | latest _ hfresh _ | block _ hfresh _ _ | entry _ hfresh _ => exact hfresh
  | done m hdone h =>
    rw [h] at hm
    rcases hdone with rfl | rfl
    · exact absurd hm (by decide)
    · exact absurd hm (by decide)

theorem TrackedResponse.of_latest (h : TrackedResponse E used d inst resp)
    (hm : resp.method = Method.appBlockIdLatestRead.code) :
    Fresh E used d inst.blockId ∧
      (resp.status = .ok () → resp.payload = some (be 16 (latestBlock E d))) := by
  cases h with
  | latest _ hfresh hid => exact ⟨hfresh, hid⟩
  | create hm' _ | block hm' _ _ _ => exact absurd (hm.symm.trans hm') (by decide)
  | entry hm' _ _ =>
    rcases hm' with hm' | hm'
    · exact absurd (hm.symm.trans hm') (by decide)
    · exact absurd (hm.symm.trans hm') (by decide)
  | done m hdone h =>
    rw [h] at hm
    rcases hdone with rfl | rfl
    · exact absurd hm (by decide)
    · exact absurd hm (by decide)

theorem TrackedResponse.of_block (h : TrackedResponse E used d inst resp)
    (hm : resp.method = Method.appBlockRead.code) :
    Fresh E used d inst.blockId ∧
      inst.previousBlockId = expectedPrevBlockId E (d.blockDb ffUuid) ∧
      ∀ node cert, decodeResponseBlockGet resp = some (.ok (node, cert)) →
        node.netBlockHeight + 1 = expectedBlockHeight (d.blockDb ffUuid) := by
  cases h with
  | block _ hfresh hprev hheight => exact ⟨hfresh, hprev, hheight⟩
  | create hm' _ | latest hm' _ _ => exact absurd (hm.symm.trans hm') (by decide)
  | entry hm' _ _ =>
    rcases hm' with hm' | hm'
    · exact absurd (hm.symm.trans hm') (by decide)
    · exact absurd (hm.symm.trans hm') (by decide)
  | done m hdone h =>
    rw [h] at hm
    rcases hdone with rfl | rfl
    · exact absurd hm (by decide)
    · exact absurd hm (by decide)

theorem not_readsEntry {method : Method} (hm : resp.method = method.code)
    (hfirst : method.code ≠ Method.appPqTransactionFirstRead.code)
    (hnext : method.code ≠ Method.appPqTransactionRead.code) : ¬ ReadsEntry resp := by
  rintro (h | h)
  · exact hfirst (hm.symm.trans h)
  · exact hnext (hm.symm.trans h)

theorem TrackedResponse.of_entry (h : TrackedResponse E used d inst resp) (hm : ReadsEntry resp) :
    Fresh E used d inst.blockId ∧ Tip E d inst := by
  cases h with
  | entry _ hfresh htip => exact ⟨hfresh, htip⟩
  | create hm' _ | latest hm' _ _ | block hm' _ _ _ =>
    exact absurd hm (not_readsEntry hm' (by decide) (by decide))
  | done m hdone h =>
    rcases hdone with rfl | rfl
    · exact absurd hm (not_readsEntry h (by decide) (by decide))
    · exact absurd hm (not_readsEntry h (by decide) (by decide))

/-- What was read goes into the instance, and from there into the block. -/
theorem turn_tracked (hc : Chain E d.blockDb d.heightDb bs) (h : Tracked E B used d inst m)
    (hturn : Turn E B inst m e) :
    ∀ next ∈ e.2, Tracked E B used d e.1 next := by
  intro next hnext
  cases hturn with
  | exits _ => cases hnext
  | begins | announcesLatest _ _ | announces _ | sleeps _ | beginsAgain _ =>
    rw [List.mem_singleton.mp hnext]
    trivial
  | drew hid =>
    rw [List.mem_singleton.mp hnext]
    exact TrackedRequest.create (h _ hid)
  | created hm _ =>
    rw [List.mem_singleton.mp hnext]
    have hfresh := TrackedResponse.of_create h hm
    exact TrackedRequest.latest _ hfresh
  | emptyChain hm hdec =>
    rw [List.mem_singleton.mp hnext]
    obtain ⟨hfresh, hid⟩ := TrackedResponse.of_latest h hm
    have hlatest := decodeResponseLatestBlockIdGet_eq hdec hid
    exact TrackedRequest.first _ hfresh ⟨hlatest, (chain_height_of_root hc hlatest.symm).symm⟩
  | latest hm hdec hne =>
    rw [List.mem_singleton.mp hnext]
    obtain ⟨hfresh, hid⟩ := TrackedResponse.of_latest h hm
    have hlatest := decodeResponseLatestBlockIdGet_eq hdec hid
    exact TrackedRequest.block _ hfresh hlatest hne
  | block hm hdec signature =>
    rw [List.mem_singleton.mp hnext]
    obtain ⟨hfresh, hprev, hheight⟩ := TrackedResponse.of_block h hm
    exact TrackedRequest.first _ hfresh ⟨hprev, hheight _ _ hdec⟩
  | collects hm _ txn =>
    rw [List.mem_singleton.mp hnext]
    obtain ⟨hfresh, htip⟩ := TrackedResponse.of_entry h hm
    exact TrackedRequest.next _ _ hfresh ⟨htip.previous, htip.height⟩
  | makes hm _ _ _ hbuild =>
    rw [List.mem_singleton.mp hnext]
    obtain ⟨hfresh, htip⟩ := TrackedResponse.of_entry h hm
    exact TrackedRequest.make _ hfresh ⟨htip.previous, htip.height⟩ hbuild
  | finishes _ | announced _ =>
    rw [List.mem_singleton.mp hnext]
    exact TrackedRequest.close _

end Callbacks

/-! ### Serving a request -/

section Serve

variable {E : Env} {B : CertBuilder} {used : Set Uuid} {s s' : Service} {v : Delivery}
  {dir : Bytes} {resp : Option Response} {st : Except AgentdError Unit}
  {inst : CanonizationService.Instance} {d d' : Store}

/-- Nothing that is tracked depends on more than the block database. -/
theorem Fresh.congr {id : Uuid} (h : Fresh E used d id) (hblk : d'.blockDb = d.blockDb) :
    Fresh E used d' id :=
  ⟨h.drawn, by rw [hblk]; exact h.free, h.not_reserved⟩

theorem Tip.congr (h : Tip E d inst) (hblk : d'.blockDb = d.blockDb) : Tip E d' inst :=
  ⟨by rw [hblk]; exact h.previous, by rw [hblk]; exact h.height⟩

/-- A request that only reads keeps the block database. -/
theorem served_reads {m : Method} {r : DecodedRequest} (he : Encodes v.packet m r)
    (hread : ∀ blockId blockData, r.request ≠ .blockMake blockId blockData)
    (hdecoded : r.request.Decoded) (hs : Chained E dir s)
    (h : decodeAndDispatch E s v = some (s', resp, st)) :
    Chained E dir s' ∧ (s'.disk dir).blockDb = (s.disk dir).blockDb ∧
      ∀ q, resp = some q → q.method = m.code := by
  rcases served_operation he hs.opened h with ⟨rfl, hq⟩ | ⟨caps, a, store, hok, rfl, hq⟩
  · exact ⟨hs, rfl, fun q hresp => (hq q hresp).1⟩
  · refine ⟨hs.performed hdecoded hok, ?_, fun q hresp => (hq q hresp).1⟩
    have hkeep := perform_keeps_blocks (E := E) (d := s.disk dir)
      (i := ⟨r.request, caps, v.faults, v.commitFails⟩) hread
    rw [hok] at hkeep
    simpa using hkeep.1

theorem decoded_height {q : Response} {node got : DataBlockNode} {cert data : Bytes}
    (hpayload : q.payload = some (encodeResponseBlockRead node true cert))
    (hdec : decodeResponseBlockGet q = some (.ok (got, data))) :
    got.netBlockHeight = node.netBlockHeight := by
  unfold decodeResponseBlockGet decodeResponse at hdec
  split at hdec
  · cases hdec
  · split at hdec
    · cases hdec
    · simp only [hpayload, Option.getD_some] at hdec
      split at hdec
      · cases hdec
      · have hheight : bits 64 (slice (encodeResponseBlockRead node true cert) 64 8) =
            node.netBlockHeight := by
          simp [encodeResponseBlockRead, slice_append_skip, slice_append_self, bits_be]
        obtain ⟨rfl, -⟩ := Prod.mk.inj (Except.ok.inj (Option.some.inj hdec))
        exact hheight

/-- A read that is answered with a block answers with the record under its id. -/
theorem served_record {child : BitVec 32} {id : Uuid}
    (hd : v.packet = encodeRequestBlockGet child id true) (hs : Chained E dir s)
    (hne : id ≠ E.rootBlock) (h : decodeAndDispatch E s v = some (s', resp, st)) :
    ∀ q, resp = some q → ∀ got, decodeResponseBlockGet q = some (.ok got) →
      ∃ record, (s.disk dir).blockDb id = some record ∧
        q.payload = some (encodeResponseBlockRead (DataBlockNode.decode record) true
          (record.drop sizeofBlockNode)) := by
  have he := encodes_blockGet child id true
  rw [← hd] at he
  intro q hresp got hdec
  have hrefused : ∀ e, q.status ≠ .error e := by
    intro e hstatus
    unfold decodeResponseBlockGet decodeResponse at hdec
    rw [hstatus] at hdec
    split at hdec
    · cases hdec
    · cases hdec
  rcases served_operation he hs.opened h with ⟨-, hq⟩ | ⟨caps, a, store, hperform, -, hq⟩
  · obtain ⟨-, e, he⟩ := hq q hresp
    exact absurd he (hrefused e)
  · obtain ⟨w, -, heff, -⟩ := perform_ok (congrArg Prod.fst hperform)
    obtain ⟨-, found, data, u, rfl, hends⟩ := heff
    obtain ⟨-, hres⟩ := hq q hresp
    unfold encodeReply at hres
    simp only at hres
    by_cases halloc : v.payloadAllocFails = true
    · rw [if_pos halloc] at hres
      exact absurd hres.1 (hrefused _)
    · rw [if_neg halloc] at hres
      obtain ⟨record, hrecord, hpair, -⟩ := blockGetBody_ends hends
      obtain ⟨rfl, rfl⟩ := Prod.mk.inj hpair
      rcases hrecord with hrecord | ⟨hroot, -⟩
      · exact ⟨record, hrecord, hres.2⟩
      · exact absurd hroot hne

/-- The height in the response to the read of the latest block. -/
theorem served_block {child : BitVec 32} {id : Uuid}
    (hd : v.packet = encodeRequestBlockGet child id true) (hs : Chained E dir s)
    (hid : id = expectedPrevBlockId E ((s.disk dir).blockDb ffUuid)) (hne : id ≠ E.rootBlock)
    (h : decodeAndDispatch E s v = some (s', resp, st)) :
    ∀ q, resp = some q → ∀ node cert, decodeResponseBlockGet q = some (.ok (node, cert)) →
      node.netBlockHeight + 1 = expectedBlockHeight ((s.disk dir).blockDb ffUuid) := by
  intro q hresp node cert hdec
  obtain ⟨bs, hc⟩ := hs.chain
  obtain ⟨record, hrecord, hpayload⟩ := served_record hd hs hne h q hresp _ hdec
  rw [decoded_height hpayload hdec]
  exact chain_latest_height hc hid hne hrecord

/-- After a block write the block database names the new block and its neighbours only. -/
theorem served_write {child : BitVec 32} {blockId : Uuid} {cert : Bytes}
    (hd : v.packet = encodeRequestBlockMake child blockId cert)
    (hlen : v.packet.length < maxPayload)
    (hs : Chained E dir s) (h : decodeAndDispatch E s v = some (s', resp, st)) :
    Chained E dir s' ∧ (∀ q, resp = some q → q.method = Method.appBlockWrite.code) ∧
      ∀ id, (s'.disk dir).blockDb id ≠ none →
        (s.disk dir).blockDb id ≠ none ∨ id = blockId ∨ id = zeroUuid ∨ id = ffUuid := by
  have he := encodes_blockMake child blockId cert
  rw [← hd] at he
  have hcert : cert.length < maxPayload := by
    rw [hd, encodeRequestBlockMake, requestPacket] at hlen
    simp only [List.length_append] at hlen
    omega
  rcases served_operation he hs.opened h with ⟨rfl, hq⟩ | ⟨caps, a, store, hok, rfl, hq⟩
  · exact ⟨hs, fun q hresp => (hq q hresp).1, fun id hid => Or.inl hid⟩
  · refine ⟨hs.performed (by exact hcert) hok, fun q hresp => (hq q hresp).1, ?_⟩
    intro id hid
    obtain ⟨w, -, heff, hstore⟩ := perform_ok (congrArg Prod.fst hok)
    rw [hok] at hstore
    simp only [Function.update_self] at hid
    replace hstore : store = if v.commitFails then s.disk dir else w := hstore
    rw [hstore] at hid
    split at hid
    · exact Or.inl hid
    · rename_i hcommit
      obtain ⟨bs, hc⟩ := hs.chain
      have hchain := effect_chain (i := ⟨.blockMake blockId cert, caps, v.faults, false⟩) hc
        ⟨rfl, hcert⟩ heff
      rw [blocksMade_blockMake rfl] at hchain
      rcases hchain.block_domain id hid with hz | hf | hmem
      · exact Or.inr (Or.inr (Or.inl hz))
      · exact Or.inr (Or.inr (Or.inr hf))
      · rw [List.map_append, List.mem_append] at hmem
        rcases hmem with hold | hnew
        · obtain ⟨b, hb, rfl⟩ := List.mem_map.mp hold
          obtain ⟨n, hn⟩ := List.mem_iff_getElem?.mp hb
          obtain ⟨firstId, hrecord⟩ := hc.block n b hn
          refine Or.inl ?_
          rw [hrecord]
          simp
        · exact Or.inr (Or.inl (by simpa using hnew))

/-- A served request turns what is tracked into what is tracked, and adds to the block database only
an id that was drawn. -/
theorem served_tracked (hs : Chained E dir s) (hused : reservedIds E ⊆ used)
    (hkept : ∀ id, (s.disk dir).blockDb id ≠ none → id ∈ used)
    (hf : TrackedRequest E B used (s.disk dir) inst v.packet) (hlen : v.packet.length < maxPayload)
    (h : decodeAndDispatch E s v = some (s', resp, st)) :
    Chained E dir s' ∧ (∀ id, (s'.disk dir).blockDb id ≠ none → id ∈ used) ∧
      ∀ q, resp = some q → TrackedResponse E used (s'.disk dir) inst q := by
  generalize hpacket : v.packet = packet at hf
  cases hf with
  | create hfresh =>
    have hkeep := served_childContextCreate hpacket h
    obtain ⟨hs', -⟩ := hs.keepsStore hkeep
    rw [hkeep.1]
    exact ⟨hs', hkept, fun q hresp => .create (hkeep.2.2 q hresp) hfresh⟩
  | close child =>
    have hkeep := served_childContextClose hpacket h
    obtain ⟨hs', -⟩ := hs.keepsStore hkeep
    rw [hkeep.1]
    exact ⟨hs', hkept, fun q hresp => .done _ (Or.inr rfl) (hkeep.2.2 q hresp)⟩
  | latest child hfresh =>
    have he := encodes_latestBlockIdGet child
    rw [← hpacket] at he
    obtain ⟨hs', hblk, hq⟩ := served_reads he (by simp) trivial hs h
    refine ⟨hs', by rwa [hblk], fun q hresp => .latest (hq q hresp) (hfresh.congr hblk) ?_⟩
    rw [latestBlock, hblk]
    exact served_latest hpacket hs h q hresp
  | block child hfresh hprev hne =>
    have he := encodes_blockGet child inst.previousBlockId true
    rw [← hpacket] at he
    obtain ⟨hs', hblk, hq⟩ := served_reads he (by simp) trivial hs h
    refine ⟨hs', by rwa [hblk], fun q hresp => .block (hq q hresp) (hfresh.congr hblk) ?_ ?_⟩
    · rw [hblk]
      exact hprev
    · rw [hblk]
      exact served_block hpacket hs hprev hne h q hresp
  | first child hfresh htip =>
    have he := encodes_transactionGetFirst child
    rw [← hpacket] at he
    obtain ⟨hs', hblk, hq⟩ := served_reads he (by simp) trivial hs h
    exact ⟨hs', by rwa [hblk], fun q hresp =>
      .entry (Or.inl (hq q hresp)) (hfresh.congr hblk) (htip.congr hblk)⟩
  | next child txnId hfresh htip =>
    have he := encodes_transactionGet child txnId
    rw [← hpacket] at he
    obtain ⟨hs', hblk, hq⟩ := served_reads he (by simp) trivial hs h
    exact ⟨hs', by rwa [hblk], fun q hresp =>
      .entry (Or.inr (hq q hresp)) (hfresh.congr hblk) (htip.congr hblk)⟩
  | make child hfresh htip hbuild =>
    obtain ⟨hs', hq, hnew⟩ := served_write hpacket hlen hs h
    refine ⟨hs', ?_, fun q hresp => .done _ (Or.inl rfl) (hq q hresp)⟩
    intro id hid
    rcases hnew id hid with hold | rfl | rfl | rfl
    · exact hkept id hold
    · exact hfresh.drawn
    · exact hused (by simp [reservedIds])
    · exact hused (by simp [reservedIds])

end Serve

/-! ### What block make reports -/

/-- The errors with which `dataservice_block_make` refuses a block for its height, its previous
block or its id. -/
def misplaced : List AgentdError :=
  [.invalidBlockHeight, .invalidPreviousBlockUuid, .invalidBlockUuid]

/-- The same for a field that the parser does not find. -/
def unplaced : List AgentdError :=
  [.missingBlockHeight, .missingPreviousBlockUuid, .missingBlockUuid]

def Placed (f : FaultPattern) (e : AgentdError) : Prop :=
  e ∉ misplaced ∧ (FindWorks f → e ∉ unplaced)

section Reports

variable {E : Env} {f : FaultPattern} {v : Store} {fs : List (CertField × Bytes)} {blockId : Uuid}
  {P : AgentdError → Prop}

theorem parserInit_failsWith (he : P .vccertParserInitFailure) (cert : Bytes) :
    FailsWith (parserInit E cert) f v fun e _ => P e := by
  refine FailsWith.bind (FailsWith.require _ he) ?_
  intro _ w _
  cases E.fields cert with
  | none => exact FailsWith.fail he
  | some fs =>
    intro m e t h
    cases h

theorem findSized_failsWith {t : CertField} {size : ℕ} {missing : AgentdError} (he : P missing) :
    FailsWith (findSized fs t size missing) f v fun e _ => P e := by
  refine FailsWith.bind (FailsWith.require _ he) ?_
  intro _ w _
  cases (fieldValues fs t).head? with
  | none => exact FailsWith.fail he
  | some b =>
    refine FailsWith.bind (FailsWith.reject _ he) ?_
    intro _ w _
    exact FailsWith.pure b

/-- A field that is there is missed only by a parser that fails. -/
theorem findSized_placed {t : CertField} {size : ℕ} {missing : AgentdError} {raw : Bytes}
    (hraw : sizedField fs t size = some raw) (he : missing ∉ misplaced) :
    FailsWith (findSized fs t size missing) f v fun e _ => Placed f e := by
  by_cases hfind : FindWorks f
  · intro m e u h
    have hyields : Yields (findSized fs t size missing) f v raw v := findSized_yields hfind hraw
    obtain ⟨m', hok⟩ := hyields m
    rw [hok] at h
    cases h
  · exact findSized_failsWith ⟨he, fun h => absurd h hfind⟩

theorem constraints_placed {endNode : Option Bytes} (h : BlockChecked E fs blockId endNode) :
    FailsWith (constraintMatchingBlockHeight fs endNode) f v (fun e _ => Placed f e) ∧
    FailsWith (constraintMatchingPrevUuid E fs endNode) f v (fun e _ => Placed f e) ∧
    FailsWith (constraintSaneBlockUuid E fs blockId) f v fun e _ => Placed f e := by
  obtain ⟨height, hheight, hheight'⟩ := Option.map_eq_some_iff.mp h.height
  obtain ⟨prev, hprev, hprev'⟩ := Option.map_eq_some_iff.mp h.prev
  obtain ⟨uuid, huuid, huuid'⟩ := Option.map_eq_some_iff.mp h.uuid
  obtain ⟨hroot, hzero, hff⟩ := h.not_reserved
  have hpass : ∀ {p : Prop} [Decidable p] (e : AgentdError) (w : Store), ¬ p →
      FailsWith (Prog.reject p e : TxOp Unit) f w fun e _ => Placed f e := by
    intro p _ e w hp
    rw [Prog.reject, if_neg hp]
    exact FailsWith.pure ()
  refine ⟨?_, ?_, ?_⟩
  · refine (findSized_placed hheight (by decide)).bind ?_
    intro raw w hfound
    obtain ⟨-, hraw⟩ := findSized_ends hfound
    obtain rfl := Option.some.inj (hraw.symm.trans hheight)
    refine (hpass _ w (not_not.mpr hheight')).bind ?_
    intro _ w _
    exact FailsWith.pure _
  · refine (findSized_placed hprev (by decide)).bind ?_
    intro raw w hfound
    obtain ⟨-, hraw⟩ := findSized_ends hfound
    obtain rfl := Option.some.inj (hraw.symm.trans hprev)
    refine (hpass _ w (not_not.mpr hprev')).bind ?_
    intro _ w _
    exact FailsWith.pure _
  · refine (findSized_placed huuid (by decide)).bind ?_
    intro raw w hfound
    obtain ⟨-, hraw⟩ := findSized_ends hfound
    obtain rfl := Option.some.inj (hraw.symm.trans huuid)
    refine (hpass _ w (not_not.mpr huuid'.symm)).bind ?_
    intro _ w _
    refine (hpass _ w hroot).bind ?_
    intro _ w _
    refine (hpass _ w hzero).bind ?_
    intro _ w _
    exact hpass _ w hff

theorem queryEndNode_failsWith (hstored : P .invalidStoredBlockNode) (hget : P .mdbGetFailure) :
    FailsWith queryEndNode f v fun e _ => P e := by
  refine (mdbGet_failsWith _ _).bind ?_
  intro r w _
  cases r with
  | notFound => exact FailsWith.pure _
  | error => exact FailsWith.fail hget
  | found b =>
    refine FailsWith.bind (FailsWith.reject _ hstored) ?_
    intro _ w _
    exact FailsWith.pure _

/-- None of the errors behind the three checks is theirs. -/
theorem placed_of_not_mem {e : AgentdError} (h : e ∉ misplaced ++ unplaced) : Placed f e := by
  rw [List.mem_append, not_or] at h
  exact ⟨h.1, fun _ => h.2⟩

theorem blockMakeLink_placed (height : BitVec 64) (endNode : Option Bytes) :
    FailsWith (blockMakeLink blockId height endNode) f v fun e _ => Placed f e := by
  have hput : Placed f .mdbPutFailure := placed_of_not_mem (by decide)
  cases endNode with
  | none =>
    refine (putOrFail_failsWith hput).bind ?_
    intro _ w _
    exact putOrFail_failsWith hput
  | some b =>
    refine FailsWith.bind ?_ fun _ w _ => putOrFail_failsWith hput
    have hget : Placed f .mdbGetFailure := placed_of_not_mem (by decide)
    refine (getOrFail_failsWith hget hget).bind ?_
    intro b w _
    refine (FailsWith.inBounds _).bind ?_
    intro _ w _
    refine (malloc_failsWith (placed_of_not_mem (by decide))).bind ?_
    intro _ w _
    refine FailsWith.bind ?_ fun _ w _ => putOrFail_failsWith hput
    refine (FailsWith.inBounds _).bind ?_
    intro _ w _
    exact FailsWith.pure _

theorem transactionDropNested_placed (txnId : Uuid) :
    FailsWith (transactionDropNested txnId) f v fun e _ => Placed f e := by
  have hput : Placed f .mdbPutFailure := placed_of_not_mem (by decide)
  have hget : Placed f .mdbGetFailure := placed_of_not_mem (by decide)
  have hmem : Placed f .outOfMemory := placed_of_not_mem (by decide)
  have hmissing : Placed f .notFound := placed_of_not_mem (by decide)
  refine FailsWith.bind (FailsWith.reject _ hmissing) ?_
  intro _ w _
  refine (getNodeOrFail_failsWith hmissing).bind ?_
  intro b w _
  refine mdbDel_failsWith.bind ?_
  intro r w _
  cases r with
  | notFound => exact FailsWith.fail hmissing
  | error => exact FailsWith.fail (placed_of_not_mem (by decide))
  | ok =>
    refine (getNodeOrFail_failsWith hget).bind ?_
    intro prev w _
    refine (malloc_failsWith hmem).bind ?_
    intro _ w _
    refine (putOrFail_failsWith hput).bind ?_
    intro _ w _
    refine (getNodeOrFail_failsWith hget).bind ?_
    intro next w _
    refine (malloc_failsWith hmem).bind ?_
    intro _ w _
    exact putOrFail_failsWith hput

theorem blockMakeChildFields_placed :
    FailsWith (blockMakeChildFields fs) f v fun e _ => Placed f e := by
  refine (findSized_failsWith (placed_of_not_mem (by decide))).bind ?_
  intro _ w _
  refine (findSized_failsWith (placed_of_not_mem (by decide))).bind ?_
  intro _ w _
  refine (findSized_failsWith (placed_of_not_mem (by decide))).bind ?_
  intro _ w _
  refine (findSized_failsWith (placed_of_not_mem (by decide))).bind ?_
  intro _ w _
  exact FailsWith.pure _

theorem blockMakeLinkPrevTxn_placed (c : ChildFields) :
    FailsWith (blockMakeLinkPrevTxn c) f v fun e _ => Placed f e := by
  unfold blockMakeLinkPrevTxn
  by_cases hz : c.prevTransactionId = zeroUuid
  · rw [if_pos hz]
    exact FailsWith.pure _
  · rw [if_neg hz]
    refine (getNodeOrFail_failsWith (placed_of_not_mem (by decide))).bind ?_
    intro _ w _
    refine (malloc_failsWith (placed_of_not_mem (by decide))).bind ?_
    intro _ w _
    exact putOrFail_failsWith (placed_of_not_mem (by decide))

theorem blockMakeUpdateArtifact_placed (artifactId txnId : Uuid) (height : BitVec 64)
    (state : BitVec 32) :
    FailsWith (blockMakeUpdateArtifact artifactId txnId height state) f v fun e _ =>
      Placed f e := by
  refine (mdbGet_failsWith _ _).bind ?_
  intro r w _
  cases r with
  | notFound => exact putOrFail_failsWith (placed_of_not_mem (by decide))
  | error => exact FailsWith.fail (placed_of_not_mem (by decide))
  | found b =>
    refine FailsWith.bind (FailsWith.reject _ (placed_of_not_mem (by decide))) ?_
    intro _ w _
    exact putOrFail_failsWith (placed_of_not_mem (by decide))

theorem blockMakeProcessChild_placed (height : BitVec 64) (cert : Bytes) :
    FailsWith (blockMakeProcessChild E height blockId cert) f v fun e _ => Placed f e := by
  refine (parserInit_failsWith (placed_of_not_mem (by decide)) cert).bind ?_
  intro fs w _
  apply FailsWith.note_finally'
  refine blockMakeChildFields_placed.bind ?_
  intro c w _
  refine (malloc_failsWith (placed_of_not_mem (by decide))).bind ?_
  intro _ w _
  refine (putOrFail_failsWith (placed_of_not_mem (by decide))).bind ?_
  intro _ w _
  refine (transactionDropNested_placed _).bind ?_
  intro _ w _
  refine (blockMakeLinkPrevTxn_placed c).bind ?_
  intro _ w _
  exact blockMakeUpdateArtifact_placed _ _ _ _

theorem blockMakeProcessChildren_placed (height : BitVec 64) (cert : Bytes) (rest : List Bytes) :
    FailsWith (blockMakeProcessChildren E height blockId cert rest) f v fun e _ => Placed f e := by
  induction rest generalizing cert v with
  | nil => exact blockMakeProcessChild_placed height cert
  | cons next rest ih =>
    refine (blockMakeProcessChild_placed height cert).bind ?_
    intro _ w _
    refine (FailsWith.attempt _).bind ?_
    intro more w _
    cases more with
    | true => exact ih next
    | false => exact FailsWith.pure _

/-- A block that passes the three checks is not refused for them. -/
theorem blockMakeBody_placed (blockData : Bytes)
    (h : BlockChecked E fs blockId (v.blockDb ffUuid)) :
    FailsWith (blockMakeBody E fs blockId blockData) f v fun e _ => Placed f e := by
  refine (queryEndNode_failsWith (placed_of_not_mem (by decide))
    (placed_of_not_mem (by decide))).bind ?_
  intro endNode w hend
  obtain ⟨rfl, rfl, -⟩ := queryEndNode_ends hend
  refine (constraints_placed h).1.bind ?_
  intro height w hheight
  obtain ⟨rfl, -⟩ := constraintMatchingBlockHeight_ends hheight
  refine (constraints_placed h).2.1.bind ?_
  intro prev w hprev
  obtain ⟨rfl, -⟩ := constraintMatchingPrevUuid_ends hprev
  refine (constraints_placed h).2.2.bind ?_
  intro _ w _
  refine FailsWith.bind (FailsWith.require _ (placed_of_not_mem (by decide))) ?_
  intro _ w _
  cases fieldValues fs .wrappedTransactionTuple with
  | nil => exact FailsWith.fail (placed_of_not_mem (by decide))
  | cons first rest =>
    refine FailsWith.bind ?_ ?_
    · refine (parserInit_failsWith (placed_of_not_mem (by decide)) first).bind ?_
      intro fs w _
      refine FailsWith.bind ?_ ?_
      · apply FailsWith.note_finally'
        exact findSized_failsWith (placed_of_not_mem (by decide))
      intro _ w _
      exact FailsWith.pure _
    intro firstId w _
    refine FailsWith.bind ?_ ?_
    · refine (malloc_failsWith (placed_of_not_mem (by decide))).bind ?_
      intro _ w _
      refine (putOrFail_failsWith (placed_of_not_mem (by decide))).bind ?_
      intro _ w _
      exact putOrFail_failsWith (placed_of_not_mem (by decide))
    intro _ w _
    refine (blockMakeLink_placed _ _).bind ?_
    intro _ w _
    exact blockMakeProcessChildren_placed _ _ _

theorem blockMake_placed {caps : Bitcap} {blockData : Bytes}
    (h : ∀ fs, E.fields blockData = some fs → BlockChecked E fs blockId (v.blockDb ffUuid)) :
    StopsWith (blockMake E caps blockId blockData) f v [] fun e _ => Placed f e := by
  have hdispose : Quiet (Prog.note (.disposed .parserOptions) >>= fun _ =>
      Prog.note (.disposed .parser) : Op Unit) := (Quiet.note _).seq (Quiet.note _)
  apply StopsWith.of_reject (placed_of_not_mem (by decide))
  apply StopsWith.bind_of_passive (Passive.require _ _)
    (StopsWith.require _ (placed_of_not_mem (by decide)))
  intro _ _
  apply StopsWith.bind_of_passive (Quiet.note _).passive (StopsWith.note _)
  intro _ _
  refine StopsWith.finally' ?_ (Quiet.note _)
  apply StopsWith.bind_of_passive (Passive.require _ _)
    (StopsWith.require _ (placed_of_not_mem (by decide)))
  intro _ _
  apply StopsWith.bind_of_passive (Quiet.note _).passive (StopsWith.note _)
  intro _ _
  apply StopsWith.bind_of_risky (blockMakeParserInit_risky E blockData)
  intro fs hfs
  apply StopsWith.bind_of_opens (mdbTxnBegin_opens.onFail (Quiet.note _))
  · apply StopsWith.onFail _ (Quiet.note _)
    apply StopsWith.bind_of_passive (Passive.require _ _)
      (StopsWith.require _ (placed_of_not_mem (by decide)))
    intro _ _ m b e t hstop
    cases hstop
  · refine StopsWith.finally' ?_ hdispose
    exact abortOrCommit_stopsWith (blockMakeBody_placed blockData (h fs hfs)) fun _ _ he => he

end Reports

/-! ### Runs -/

structure Tracking (E : Env) (B : CertBuilder) (dir : Bytes) (used : Set Uuid) (s : System) :
    Prop where
  chained : Chained E dir s.data
  single : s.net.length ≤ 1
  idle : s.canon.running = false → s.net = []
  reserved : reservedIds E ⊆ used
  kept : ∀ id, (s.store dir).blockDb id ≠ none → id ∈ used
  flight : ∀ m ∈ s.net, Tracked E B used (s.store dir) s.canon m

section Runs

variable {E : Env} {B : CertBuilder} {dir : Bytes} {used : Set Uuid} {s t : System} {a : Action}

theorem Fresh.mono {d : Store} {id : Uuid} {used' : Set Uuid} (h : Fresh E used d id)
    (hsub : used ⊆ used') : Fresh E used' d id :=
  ⟨hsub h.drawn, h.free, h.not_reserved⟩

theorem blockCertificateFields_congr {inst inst' : CanonizationService.Instance} {now : BitVec 64}
    {txns : List Transaction} (hid : inst'.blockId = inst.blockId)
    (hprev : inst'.previousBlockId = inst.previousBlockId)
    (hsig : inst'.previousBlockSignature = inst.previousBlockSignature)
    (hheight : inst'.blockHeight = inst.blockHeight) :
    blockCertificateFields B now inst' txns = blockCertificateFields B now inst txns := by
  rw [blockCertificateFields, blockCertificateFields, hid, hprev, hsig, hheight]

/-- What is tracked depends on the block database and on what the instance knows of the tip; more
ids may be drawn. -/
theorem Tracked.congr {d d' : Store} {inst inst' : CanonizationService.Instance} {m : Message}
    {used' : Set Uuid} (h : Tracked E B used d inst m) (hsub : used ⊆ used')
    (hblk : d'.blockDb = d.blockDb) (hid : inst'.blockId = inst.blockId)
    (hprev : inst'.previousBlockId = inst.previousBlockId)
    (hsig : inst'.previousBlockSignature = inst.previousBlockSignature)
    (hheight : inst'.blockHeight = inst.blockHeight) : Tracked E B used' d' inst' m := by
  have hfresh : ∀ id, Fresh E used d id → Fresh E used' d' id :=
    fun id hf => (hf.mono hsub).congr hblk
  have htip : Tip E d inst → Tip E d' inst' := by
    intro htip
    constructor
    · rw [hprev, hblk]
      exact htip.previous
    · rw [hheight, hblk]
      exact htip.height
  have hfresh' : Fresh E used d inst.blockId → Fresh E used' d' inst'.blockId := by
    intro hf
    rw [hid]
    exact hfresh _ hf
  cases m with
  | randomResponse packet => exact fun id hdrawn => hfresh id (h id hdrawn)
  | dataRequest packet =>
    replace h : TrackedRequest E B used d inst packet := h
    show TrackedRequest E B used' d' inst' packet
    cases h with
    | create hf => exact .create (hfresh' hf)
    | close child => exact .close child
    | latest child hf => exact .latest child (hfresh' hf)
    | block child hf hp hne =>
      rw [← hprev] at hp hne ⊢
      refine .block child (hfresh' hf) ?_ hne
      rw [hblk]
      exact hp
    | first child hf ht => exact .first child (hfresh' hf) (htip ht)
    | next child txnId hf ht => exact .next child txnId (hfresh' hf) (htip ht)
    | make child hf ht hbuild =>
      rw [← blockCertificateFields_congr hid hprev hsig hheight] at hbuild
      rw [← hid]
      exact .make child (hfresh' hf) (htip ht) hbuild
  | dataResponse resp =>
    replace h : TrackedResponse E used d inst resp := h
    show TrackedResponse E used' d' inst' resp
    cases h with
    | create hm hf => exact .create hm (hfresh' hf)
    | latest hm hf hlatest =>
      refine .latest hm (hfresh' hf) ?_
      rw [latestBlock, hblk]
      exact hlatest
    | block hm hf hp hh =>
      refine .block hm (hfresh' hf) ?_ ?_
      · rw [hprev, hblk]
        exact hp
      · rw [hblk]
        exact hh
    | entry hm hf ht => exact .entry hm (hfresh' hf) (htip ht)
    | done m hm h => exact .done m hm h
  | _ => trivial

theorem Tracking.take {α : Type} {kind : Message → Option α} {x : α} {net : List Message}
    (h : Tracking E B dir used s) (ht : takeMessage kind s.net = some (x, net)) :
    ∃ m, s.net = [m] ∧ kind m = some x ∧ net = [] ∧ s.canon.running = true := by
  obtain ⟨m, hnet, hk, hrest⟩ := takeMessage_single h.single ht
  refine ⟨m, hnet, hk, hrest, ?_⟩
  by_contra hrun
  rw [Bool.not_eq_true] at hrun
  rw [h.idle hrun] at hnet
  cases hnet

/-- Every turn keeps the service running and sends at most one message. -/
theorem turn_sends {inst : CanonizationService.Instance} {m : Message} {e : Effect}
    (hturn : Turn E B inst m e) : e.2.length ≤ 1 ∧ (e.2 ≠ [] → e.1.running = inst.running) := by
  cases hturn with
  | exits _ => exact ⟨by simp, fun h => absurd rfl h⟩
  | _ => exact ⟨by simp, fun _ => rfl⟩

theorem Tracking.afterCallback {m : Message} {e : Option Effect} (h : Tracking E B dir used s)
    (hnet : s.net = [m]) (hrun : s.canon.running = true)
    (hturn : s.canon.forceExit = false → ∀ e', e = some e' → Turn E B s.canon m e')
    (hstep : callback s [] e = some t) : Tracking E B dir used t := by
  unfold CanonizationSystem.callback at hstep
  split at hstep
  · cases hstep
  · rename_i hexit
    obtain ⟨e', he, rfl⟩ := Option.map_eq_some_iff.mp hstep
    have hturn' := hturn (by simpa using hexit) e' he
    obtain ⟨hsingle, hrunning⟩ := turn_sends hturn'
    obtain ⟨bs, hc⟩ := h.chained.chain
    have hflight := turn_tracked hc (h.flight m (by simp [hnet])) hturn'
    refine ⟨h.chained, by simpa using hsingle, ?_, h.reserved, h.kept, ?_⟩
    · intro hidle
      by_contra hne
      have hrun' := hrunning (by simpa using hne)
      rw [hrun] at hrun'
      exact absurd (hrun'.symm.trans hidle) (by decide)
    · intro next hnext
      exact hflight next (by simpa using hnext)

/-- A control command does not touch what a round has read. -/
theorem controlRead_keeps (o : Outside) (inst : CanonizationService.Instance)
    (c : ControlCommand) :
    (controlRead o inst c).1.previousBlockSignature = inst.previousBlockSignature ∧
      (controlRead o inst c).1.blockHeight = inst.blockHeight := by
  cases c with
  | configure maxMilliseconds maxTransactions =>
    rw [controlRead]
    split
    · exact ⟨rfl, rfl⟩
    · exact ⟨rfl, rfl⟩
  | privateKeySet key =>
    rw [controlRead]
    split
    · exact ⟨rfl, rfl⟩
    · split
      · exact ⟨rfl, rfl⟩
      · exact ⟨rfl, rfl⟩
  | start =>
    rw [controlRead]
    simp only
    split
    · exact ⟨rfl, rfl⟩
    · split
      · split
        · exact ⟨rfl, rfl⟩
        · exact ⟨rfl, rfl⟩
      · split
        · exact ⟨rfl, rfl⟩
        · split
          · exact ⟨rfl, rfl⟩
          · exact ⟨rfl, rfl⟩
  | bad =>
    rw [controlRead]
    split
    · exact ⟨rfl, rfl⟩
    · exact ⟨rfl, rfl⟩

theorem Tracking.afterControl {o : Outside} {c : ControlCommand} (h : Tracking E B dir used s)
    (hstep : callback s s.net (some (controlRead o s.canon c)) = some t) :
    Tracking E B dir used t := by
  unfold callback at hstep
  split at hstep
  · cases hstep
  · cases hstep
    obtain ⟨hid, hprev, hsent⟩ := controlRead_cases o s.canon c
    obtain ⟨hsig, hheight⟩ := controlRead_keeps o s.canon c
    rcases hsent with ⟨hsent, hrun⟩ | ⟨hsent, hrun, hnow⟩
    · simp only [hsent, List.append_nil]
      refine ⟨h.chained, h.single, ?_, h.reserved, h.kept, fun m hm =>
        (h.flight m hm).congr subset_rfl rfl hid hprev hsig hheight⟩
      intro hidle
      rcases hrun with hrun | hrun
      · exact h.idle (hrun.symm.trans hidle)
      · exact h.idle hrun
    · simp only [hsent, h.idle hrun]
      refine ⟨h.chained, by simp, ?_, h.reserved, h.kept, by simp [Tracked]⟩
      intro hidle
      exact absurd (hnow.symm.trans hidle) (by decide)

theorem Tracking.afterServe {v : Delivery} {packet : Bytes} {net : List Message}
    (h : Tracking E B dir used s) (ht : takeMessage isDataRequest s.net = some (packet, net))
    (hstep : serveData E s v packet net = some t) : Tracking E B dir used t := by
  obtain ⟨m, hnet, hk, rfl, hrun⟩ := h.take ht
  obtain rfl := eq_of_isDataRequest hk
  unfold serveData at hstep
  split at hstep
  · cases hstep
  · split at hstep
    · cases hstep
      exact ⟨h.chained, by simp, fun _ => rfl, h.reserved, h.kept, by simp⟩
    · rename_i hlen
      obtain ⟨⟨data, resp, st⟩, hserved, rfl⟩ := Option.map_eq_some_iff.mp hstep
      have hflight : TrackedRequest E B used (s.data.disk dir) s.canon packet :=
        h.flight (.dataRequest packet) (by simp [hnet])
      obtain ⟨hchained, hkept, hresp⟩ := served_tracked h.chained h.reserved h.kept
        (by exact hflight) (not_le.mp hlen) hserved
      refine ⟨hchained, ?_, ?_, h.reserved, hkept, ?_⟩
      · cases resp with
        | none => simp
        | some q => simp
      · intro hidle
        exact absurd (hrun.symm.trans hidle) (by decide)
      · intro m hm
        simp only [List.nil_append, List.mem_map, Option.mem_toList] at hm
        obtain ⟨q, hq, rfl⟩ := hm
        exact hresp q hq

/-- Other clients do not write blocks. -/
theorem Tracking.afterClient {i : Invocation} (h : Tracking E B dir used s)
    (hcap : bitcapIsset i.caps .appBlockWrite = false) :
    Tracking E B dir used { s with data := { s.data with
      disk := Function.update s.data.disk dir (perform E (s.data.disk dir) i).2 } } := by
  obtain ⟨hblock, hheight⟩ := perform_uncapped_keeps_blocks (E := E) (d := s.data.disk dir) hcap
  refine ⟨⟨h.chained.opened, ?_⟩, h.single, h.idle, h.reserved, ?_, ?_⟩
  · simp only [Function.update_self, hblock, hheight]
    exact h.chained.chain
  · intro id hid
    simp only [System.store, Function.update_self, hblock] at hid
    exact h.kept id hid
  · intro m hm
    refine (h.flight m hm).congr subset_rfl ?_ rfl rfl rfl rfl
    simp only [System.store, Function.update_self, hblock]

/-- An id that was drawn now is new to the block database. -/
theorem Tracking.afterRandom {packet : Bytes} (h : Tracking E B dir used s)
    (hrun : s.canon.running = true)
    (hnew : Disjoint (drawnBy (.random packet)) used) :
    Tracking E B dir (used ∪ drawnBy (.random packet))
      { s with net := [.randomResponse packet] } := by
  refine ⟨h.chained, by simp, ?_, h.reserved.trans Set.subset_union_left, ?_, ?_⟩
  · intro hidle
    exact absurd (hrun.symm.trans hidle) (by decide)
  · intro id hid
    exact Or.inl (h.kept id hid)
  · intro m hm
    rw [List.mem_singleton.mp hm]
    intro id hid
    have hdrawn : id ∈ drawnBy (.random packet) := ⟨packet, rfl, hid⟩
    have hunused : id ∉ used := Set.disjoint_left.mp hnew hdrawn
    constructor
    · exact Or.inr hdrawn
    · by_contra hne
      exact hunused (h.kept id hne)
    · intro hres
      exact hunused (h.reserved hres)

theorem drawnBy_eq_empty (ha : ∀ packet, a ≠ .random packet) : drawnBy a = ∅ := by
  apply Set.eq_empty_of_forall_notMem
  rintro id ⟨packet, heq, -⟩
  exact ha packet heq

theorem Tracking.step (h : Tracking E B dir used s) (hnew : Disjoint (drawnBy a) used)
    (hstep : step E B dir s a = some t) : Tracking E B dir (used ∪ drawnBy a) t := by
  by_cases hrandom : ∃ packet, a = .random packet
  · obtain ⟨packet, rfl⟩ := hrandom
    obtain ⟨⟨_, net⟩, ht, hstep⟩ := Option.bind_eq_some_iff.mp hstep
    obtain ⟨m, -, -, rfl, hrun⟩ := h.take ht
    cases hstep
    exact h.afterRandom hrun hnew
  · push Not at hrandom
    rw [drawnBy_eq_empty hrandom, Set.union_empty]
    cases a with
    | control o c => exact h.afterControl hstep
    | timer o =>
      obtain ⟨⟨_, net⟩, ht, hstep⟩ := Option.bind_eq_some_iff.mp hstep
      obtain ⟨m, hnet, hk, rfl, hrun⟩ := h.take ht
      cases m with
      | timer =>
        exact h.afterCallback hnet hrun (fun _ e he => Option.some.inj he ▸ timerCb_turn) hstep
      | _ => cases hk
    | random packet => exact (hrandom packet rfl).elim
    | randomRead o =>
      obtain ⟨⟨packet, net⟩, ht, hstep⟩ := Option.bind_eq_some_iff.mp hstep
      obtain ⟨m, hnet, hk, rfl, hrun⟩ := h.take ht
      cases m with
      | randomResponse p =>
        cases hk
        exact h.afterCallback hnet hrun (fun _ e he => Option.some.inj he ▸ randomRead_turn) hstep
      | _ => cases hk
    | serve v =>
      obtain ⟨⟨packet, net⟩, ht, hstep⟩ := Option.bind_eq_some_iff.mp hstep
      exact h.afterServe ht hstep
    | dataRead o =>
      obtain ⟨⟨resp, net⟩, ht, hstep⟩ := Option.bind_eq_some_iff.mp hstep
      obtain ⟨m, hnet, hk, rfl, hrun⟩ := h.take ht
      obtain rfl := eq_of_isDataResponse hk
      exact h.afterCallback hnet hrun (fun hexit e he => dataRead_turn hexit he) hstep
    | update status =>
      obtain ⟨⟨blockId, net⟩, ht, hstep⟩ := Option.bind_eq_some_iff.mp hstep
      obtain ⟨m, -, -, rfl, hrun⟩ := h.take ht
      cases hstep
      refine ⟨h.chained, by simp, ?_, h.reserved, h.kept, by simp [Tracked]⟩
      intro hidle
      exact absurd (hrun.symm.trans hidle) (by decide)
    | notifyRead o =>
      obtain ⟨⟨packet, net⟩, ht, hstep⟩ := Option.bind_eq_some_iff.mp hstep
      obtain ⟨m, hnet, hk, rfl, hrun⟩ := h.take ht
      cases m with
      | notifyResponse p =>
        cases hk
        exact h.afterCallback hnet hrun (fun _ e he => Option.some.inj he ▸ notifyRead_turn) hstep
      | _ => cases hk
    | client i =>
      rw [CanonizationSystem.step] at hstep
      split at hstep
      · cases hstep
      · rename_i hcap
        cases hstep
        exact h.afterClient (by simpa using hcap)

theorem drawing_tracking {s₀ : System} (h₀ : Start E dir s₀)
    (h : Drawing E B dir (reservedIds E) s₀ used s) : Tracking E B dir used s := by
  induction h with
  | refl =>
    obtain ⟨log, hrun⟩ := h₀.store
    refine ⟨⟨h₀.opened, run_exists_chain hrun⟩, by simp [h₀.net], fun _ => h₀.net,
      Set.subset_union_left, ?_, by simp [h₀.net]⟩
    intro id hid
    exact Or.inr hid
  | tail before fresh taken ih => exact ih.step fresh taken

end Runs

/-! ### The block of a round -/

section Blocks

variable {E : Env} {B : CertBuilder} {dir : Bytes} {used : Set Uuid} {s s₀ : System} {d : Store}
  {inst : CanonizationService.Instance} {child : BitVec 32} {blockId : Uuid} {cert : Bytes}
  {bs : List Block}

theorem be_append_inj {n w : ℕ} (hw : w = 8 * n) {x y : BitVec w} {as bs : Bytes}
    (h : be n x ++ as = be n y ++ bs) : x = y ∧ as = bs := by
  obtain ⟨hx, hrest⟩ := List.append_inj h (by rw [length_be, length_be])
  refine ⟨?_, hrest⟩
  have hbits := congrArg (bits w) hx
  rwa [bits_be hw, bits_be hw] at hbits

/-- The block request in flight is about the instance's block. -/
theorem TrackedRequest.of_make
    (h : TrackedRequest E B used d inst (encodeRequestBlockMake child blockId cert)) :
    blockId = inst.blockId ∧ Fresh E used d blockId ∧ Tip E d inst ∧
      ∃ size now txns key, B.build size (blockCertificateFields B now inst txns) key =
        some cert := by
  have hother : ∀ {m : Method} {rest : Bytes}, m.code ≠ Method.appBlockWrite.code →
      encodeRequestBlockMake child blockId cert ≠ be 4 m.code ++ rest := by
    intro m rest hm heq
    exact hm (be_append_inj (by decide) heq).1.symm
  generalize hp : encodeRequestBlockMake child blockId cert = packet at h
  cases h with
  | create _ => exact absurd hp (hother (by decide))
  | latest _ _ => exact absurd hp (hother (by decide))
  | block _ _ _ _ => exact absurd hp (hother (by decide))
  | first _ _ _ => exact absurd hp (hother (by decide))
  | next _ _ _ _ => exact absurd hp (hother (by decide))
  | close _ => exact absurd hp (hother (by decide))
  | make child' hfresh htip hbuild =>
    obtain ⟨-, hargs⟩ := be_append_inj (by decide) hp
    obtain ⟨-, hargs⟩ := be_append_inj (by decide) hargs
    obtain ⟨rfl, rfl⟩ := be_append_inj (by decide) hargs
    exact ⟨rfl, hfresh, htip, _, _, _, _, hbuild⟩

/-- A block that names the tip under a fresh id passes the three checks. -/
theorem Tip.checked (hB : ReadsBack E B) (hc : Chain E d.blockDb d.heightDb bs)
    (htip : Tip E d inst) (hfresh : Fresh E used d inst.blockId) {size : ℕ} {now : BitVec 64}
    {txns : List Transaction} {key : PrivateKey}
    (hbuild : B.build size (blockCertificateFields B now inst txns) key = some cert) :
    ∃ fs, E.fields cert = some fs ∧ BlockChecked E fs inst.blockId (d.blockDb ffUuid) := by
  obtain ⟨id, sig, hfs⟩ := hB _ _ _ _ hbuild
  have hres : inst.blockId ≠ E.rootBlock ∧ inst.blockId ≠ zeroUuid ∧ inst.blockId ≠ ffUuid := by
    simpa [reservedIds] using hfresh.not_reserved
  refine ⟨_, hfs, hc.end_length, ?_, ?_, ?_, hres⟩
  · rw [← htip.height]
    simp [blockCertificateFields, sizedField, fieldValues, bits_be]
  · rw [← htip.previous]
    simp [blockCertificateFields, sizedField, fieldValues, bits_be]
  · simp [blockCertificateFields, sizedField, fieldValues, bits_be]

theorem height_free (hc : Chain E d.blockDb d.heightDb bs) (hlen : bs.length < 2 ^ 64) :
    d.heightDb (expectedBlockHeight (d.blockDb ffUuid)) = none := by
  rw [hc.expectedBlockHeight_eq]
  by_contra hne
  obtain ⟨h, hh, hkey⟩ := hc.height_domain _ hne
  have heq := heightKey_injective hlen (hh.trans hlen) hkey
  omega

/-- What the data service finds in a block request: its certificate names the tip, its id and its
height are free, and no error that it reports is about one of them. -/
structure NamesTip (E : Env) (d : Store) (blockId : Uuid) (cert : Bytes) : Prop where
  checked : ∃ fs, E.fields cert = some fs ∧ BlockChecked E fs blockId (d.blockDb ffUuid)
  free : d.blockDb blockId = none
  height_free : ∀ bs, Chain E d.blockDb d.heightDb bs → bs.length < 2 ^ 64 →
    d.heightDb (expectedBlockHeight (d.blockDb ffUuid)) = none
  reports : ∀ i : Invocation, i.request = .blockMake blockId cert →
    ∀ e, (perform E d i).1 = .error (.fail e) → Placed i.faults e

theorem perform_placed {fs : List (CertField × Bytes)} {i : Invocation} {e : AgentdError}
    (hfs : E.fields cert = some fs) (hchecked : BlockChecked E fs blockId (d.blockDb ffUuid))
    (hi : i.request = .blockMake blockId cert)
    (h : (perform E d i).1 = .error (.fail e)) : Placed i.faults e := by
  obtain ⟨r, caps, f, b⟩ := i
  cases hi
  have hstop : StopsWith (blockMake E caps blockId cert >>= fun _ => pure Reply.done) f d []
      fun e _ => Placed f e := by
    apply StopsWith.bind_pure
    apply blockMake_placed
    intro fs' hfs'
    rw [← Option.some.inj (hfs.symm.trans hfs')]
    exact hchecked
  unfold perform at h
  split at h
  · cases h
  · rename_i e' t hrun
    cases h
    obtain ⟨-, -, -, hplaced⟩ := hstop _ _ _ _ hrun
    exact hplaced

/-- The certificate of a block request names the tip of the chain that the data service then holds,
in every run in which no id is drawn twice or among the reserved ones. -/
theorem sent_block_names_tip (hB : ReadsBack E B) (h₀ : Start E dir s₀)
    (h : Drawing E B dir (reservedIds E) s₀ used s)
    (hm : Message.dataRequest (encodeRequestBlockMake child blockId cert) ∈ s.net) :
    NamesTip E (s.store dir) blockId cert := by
  have htracking := drawing_tracking h₀ h
  have hrequest : TrackedRequest E B used (s.store dir) s.canon
      (encodeRequestBlockMake child blockId cert) := htracking.flight _ hm
  obtain ⟨rfl, hfresh, htip, size, now, txns, key, hbuild⟩ := hrequest.of_make
  obtain ⟨bs, hc⟩ := htracking.chained.chain
  obtain ⟨fs, hfs, hchecked⟩ := htip.checked hB hc hfresh hbuild
  exact ⟨⟨fs, hfs, hchecked⟩, hfresh.free, fun _ hbs hlen => height_free hbs hlen,
    fun i hi e he => perform_placed hfs hchecked hi he⟩

end Blocks

/-! ### Sample runs -/

/-- The builder of the codec, for fields whose values fit its two-byte sizes. -/
def sizedBuilder : CertBuilder where
  certificateTypeTxnBlock := 2
  build size fs key :=
    if ∀ p ∈ fs, p.1.code < 65536 ∧ p.2.length < 65536 then codecBuilder.build size fs key else none

theorem readsBack_sizedBuilder : ReadsBack (codecEnv false) sizedBuilder := by
  intro size fs key cert h
  rw [sizedBuilder] at h
  simp only at h
  split at h
  · rename_i hfs
    cases h
    refine ⟨be 16 key.id, List.replicate signatureSize 0, ?_⟩
    apply certFields_encodeFields
    intro p hp
    rcases List.mem_append.mp hp with hp | hp
    · exact hfs p hp
    · simp only [List.mem_cons, List.not_mem_nil, or_false] at hp
      rcases hp with rfl | rfl
      · simp [CertField.code]
      · simp [CertField.code, signatureSize]
  · cases h

section Samples

variable {E : Env} {B : CertBuilder} {dir : Bytes} {more used : Set Uuid} {s₀ s t : System}

/-- Nothing is drawn outside of the random service. -/
theorem Drawing.execute {as : List Action} (hquiet : ∀ a ∈ as, ∀ packet, a ≠ .random packet)
    (h : Drawing E B dir more s₀ used s)
    (hrun : CanonizationSystem.execute E B dir (fun _ _ => true) s as = some t) :
    Drawing E B dir more s₀ used t := by
  induction as generalizing s with
  | nil =>
    cases hrun
    exact h
  | cons a as ih =>
    rw [CanonizationSystem.execute, List.foldlM_cons] at hrun
    obtain ⟨u, hu, hrest⟩ := Option.bind_eq_some_iff.mp hrun
    have hnone := drawnBy_eq_empty (hquiet a (by simp))
    have hstep := h.tail (by rw [hnone]; exact Set.empty_disjoint used) hu
    rw [hnone, Set.union_empty] at hstep
    exact ih (fun a ha => hquiet a (by simp [ha])) hstep hrest

theorem drawnBy_randomPacket (id : Uuid) : drawnBy (.random (randomPacket id)) = {id} := by
  have hdrawn : drawnBlockId (randomPacket id) = some id := by
    have hdrop : (randomPacket id).drop 12 = be 16 id := by
      rw [randomPacket, List.drop_left' (by simp)]
    have hmethod : bits 32 (slice (randomPacket id) 0 4) = methodGetRandomBytes := by
      simp [randomPacket, slice_append_self, bits_be]
    have hstatus : bits 32 (slice (randomPacket id) 8 4) = 0 := by
      simp [randomPacket, slice_append_skip, slice_append_self, bits_be]
    have hlen : ¬ (randomPacket id).length < 12 := by simp [randomPacket]
    simp [drawnBlockId, hdrop, hmethod, hstatus, hlen, bits_be]
  ext id'
  constructor
  · rintro ⟨packet, heq, hid⟩
    cases heq
    rw [hdrawn] at hid
    exact (Option.some.inj hid).symm
  · rintro rfl
    exact ⟨_, rfl, hdrawn⟩

/-- The first round up to its block request, with the id that the random service returns. -/
theorem drawing_first_round {d : Store} {id : Uuid} (n : ℕ) (hid : id ∉ more)
    (hfree : d.blockDb id = none)
    (hrun : CanonizationSystem.execute E B [47] (fun _ _ => true) (startSystem d)
      (startActions 10 id ++ exchanges n) = some t) :
    ∃ used, Drawing E B [47] more (startSystem d) used t := by
  have hsplit : startActions 10 id ++ exchanges n = (startActions 10 id).take 4 ++
      (.random (randomPacket id) :: .randomRead (allWorks 0) :: exchanges n) := rfl
  rw [hsplit, CanonizationSystem.execute, List.foldlM_append] at hrun
  obtain ⟨u, hu, hrun⟩ := Option.bind_eq_some_iff.mp hrun
  rw [List.foldlM_cons] at hrun
  obtain ⟨w, hw, hrun⟩ := Option.bind_eq_some_iff.mp hrun
  have hnone : Drawing E B [47] more (startSystem d)
      (more ∪ {id | ((startSystem d).store [47]).blockDb id ≠ none}) (startSystem d) := .refl
  have hbefore := Drawing.execute (by simp [startActions]) hnone hu
  rw [if_pos rfl] at hw
  have hrest : CanonizationSystem.execute E B [47] (fun _ _ => true) w
      (.randomRead (allWorks 0) :: exchanges n) = some t := hrun
  refine ⟨_, Drawing.execute ?_ (hbefore.tail ?_ hw) hrest⟩
  · intro a ha packet
    rw [List.mem_cons, exchanges] at ha
    rcases ha with rfl | ha
    · simp
    · obtain ⟨l, hl, ha⟩ := List.mem_flatten.mp ha
      rw [(List.mem_replicate.mp hl).2] at ha
      simp only [List.mem_cons, List.not_mem_nil, or_false] at ha
      rcases ha with rfl | rfl
      · simp
      · simp
  · rw [drawnBy_randomPacket, Set.disjoint_singleton_left]
    rintro (hmore | hused)
    · exact hid hmore
    · exact hused hfree

end Samples

/-- The block requests that are in flight when the first round has sent its own. -/
def firstBlockRequest (d : Store) (id : Uuid) : Option (List Bytes) :=
  (execute (codecEnv false) sizedBuilder [47] (fun _ _ => true) (startSystem d)
    (startActions 10 id ++ exchanges 3)).map fun s => s.net.filterMap isDataRequest

theorem mem_of_firstBlockRequest {d : Store} {id : Uuid} {packet : Bytes}
    (h : firstBlockRequest d id = some [packet]) :
    ∃ s, execute (codecEnv false) sizedBuilder [47] (fun _ _ => true) (startSystem d)
      (startActions 10 id ++ exchanges 3) = some s ∧ Message.dataRequest packet ∈ s.net := by
  obtain ⟨s, hs, hnet⟩ := Option.map_eq_some_iff.mp h
  refine ⟨s, hs, ?_⟩
  have hpacket : packet ∈ s.net.filterMap isDataRequest := by
    rw [hnet]
    exact List.mem_singleton_self packet
  obtain ⟨m, hm, hk⟩ := List.mem_filterMap.mp hpacket
  rwa [eq_of_isDataRequest hk] at hm

theorem first_block_names_tip : ∃ used s child cert,
    Drawing (codecEnv false) sizedBuilder [47] (reservedIds (codecEnv false))
      (startSystem (queuedStore (transactionCert 5 0 7 1))) used s ∧
    Message.dataRequest (encodeRequestBlockMake child 9 cert) ∈ s.net ∧
    NamesTip (codecEnv false) (s.store [47]) 9 cert := by
  have hrun : ∃ cert, firstBlockRequest (queuedStore (transactionCert 5 0 7 1)) 9 =
      some [encodeRequestBlockMake 1023 9 cert] :=
    ⟨((firstBlockRequest (queuedStore (transactionCert 5 0 7 1)) 9).getD []).flatten.drop 24,
      by decide +kernel⟩
  obtain ⟨cert, hrun⟩ := hrun
  obtain ⟨s, hs, hmem⟩ := mem_of_firstBlockRequest hrun
  have hid : (9 : Uuid) ∉ reservedIds (codecEnv false) := by
    rintro (h | h | h)
    · exact absurd h (by decide)
    · exact absurd h (by decide)
    · exact absurd h (by decide)
  obtain ⟨used, hdrawing⟩ := drawing_first_round 3 hid (by decide +kernel) hs
  have hstart := start_queuedStore (transactionCert 5 0 7 1) (by decide) (by decide)
  exact ⟨used, s, 1023, cert, hdrawing, hmem,
    sent_block_names_tip readsBack_sizedBuilder hstart hdrawing hmem⟩

/-- The random service returns the id of the start record, once; the block is refused for it. -/
theorem zero_id_is_refused : ∃ used s child cert,
    ReadsBack (codecEnv false) sizedBuilder ∧
    Start (codecEnv false) [47] (startSystem (queuedStore (transactionCert 5 0 7 1))) ∧
    Drawing (codecEnv false) sizedBuilder [47] ∅
      (startSystem (queuedStore (transactionCert 5 0 7 1))) used s ∧
    Message.dataRequest (encodeRequestBlockMake child zeroUuid cert) ∈ s.net ∧
    (perform (codecEnv false) (s.store [47]) (workingCall (.blockMake zeroUuid cert))).1 =
      .error (.fail .invalidBlockUuid) := by
  have hrun : ∃ cert, firstBlockRequest (queuedStore (transactionCert 5 0 7 1)) zeroUuid =
      some [encodeRequestBlockMake 1023 zeroUuid cert] ∧
      ((execute (codecEnv false) sizedBuilder [47] (fun _ _ => true)
        (startSystem (queuedStore (transactionCert 5 0 7 1)))
        (startActions 10 zeroUuid ++ exchanges 3)).map fun s =>
          (perform (codecEnv false) (s.store [47]) (workingCall (.blockMake zeroUuid cert))).1) =
        some (.error (.fail .invalidBlockUuid)) :=
    ⟨((firstBlockRequest (queuedStore (transactionCert 5 0 7 1)) zeroUuid).getD
      []).flatten.drop 24, by decide +kernel⟩
  obtain ⟨cert, hrun, hrefused⟩ := hrun
  obtain ⟨s, hs, hmem⟩ := mem_of_firstBlockRequest hrun
  rw [hs] at hrefused
  obtain ⟨used, hdrawing⟩ := drawing_first_round 3 (Set.notMem_empty zeroUuid)
    (by decide +kernel) hs
  exact ⟨used, s, 1023, cert, readsBack_sizedBuilder,
    start_queuedStore (transactionCert 5 0 7 1) (by decide) (by decide), hdrawing, hmem,
    Option.some.inj hrefused⟩

end ChainTip
