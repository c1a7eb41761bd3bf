import Agentd.CanonizationSystem

/-! # Published blocks

What is in flight knows the latest block: a block update names it, a pending block write will make
its block the latest when it succeeds, and while the queue is read the previous block of the
instance is the latest one. -/
namespace PublishedBlocks

open ByteString
open CertificateFields
open FaultyTransactions
open DataserviceRecords
open DataserviceStore
open DataserviceBlocks
open DataserviceRequests
open DataserviceEffects
open DataserviceDispatch
open DataserviceClient
open CapabilityConfinement
open BlockchainInvariant
open CanonizationService
open CanonizationSystem

def latestBlock (E : Env) (d : Store) : Uuid := expectedPrevBlockId E (d.blockDb ffUuid)

/-! ### What is in flight -/

inductive RequestFlight (latest : Uuid) (inst : CanonizationService.Instance) : Bytes → Prop
  | create : RequestFlight latest inst (encodeRequestChildContextCreate canonizationCaps)
  | close (child : BitVec 32) : RequestFlight latest inst (encodeRequestChildContextClose child)
  | latest (child : BitVec 32) : RequestFlight latest inst (encodeRequestLatestBlockIdGet child)
  | block (child : BitVec 32) (h : inst.previousBlockId = latest) :
    RequestFlight latest inst (encodeRequestBlockGet child inst.previousBlockId true)
  | first (child : BitVec 32) (h : inst.previousBlockId = latest) :
    RequestFlight latest inst (encodeRequestTransactionGetFirst child)
  | next (child : BitVec 32) (txnId : Uuid) (h : inst.previousBlockId = latest) :
    RequestFlight latest inst (encodeRequestTransactionGet child txnId)
  | make (child : BitVec 32) (cert : Bytes) :
    RequestFlight latest inst (encodeRequestBlockMake child inst.blockId cert)

/-- The methods whose responses arrive while the latest block does not change. -/
def readsQueue (m : Method) : Prop :=
  m = .appBlockRead ∨ m = .appPqTransactionFirstRead ∨ m = .appPqTransactionRead

inductive ResponseFlight (latest : Uuid) (inst : CanonizationService.Instance) : Response → Prop
  | context {resp : Response} (m : Method)
    (hm : m = .llChildContextCreate ∨ m = .llChildContextClose)
      (h : resp.method = m.code) : ResponseFlight latest inst resp
  | latest {resp : Response} (h : resp.method = Method.appBlockIdLatestRead.code)
      (hid : resp.status = .ok () → resp.payload = some (be 16 latest)) :
      ResponseFlight latest inst resp
  | queue {resp : Response} (m : Method) (hm : readsQueue m) (h : resp.method = m.code)
      (hprev : inst.previousBlockId = latest) : ResponseFlight latest inst resp
  | made {resp : Response} (h : resp.method = Method.appBlockWrite.code)
      (hid : resp.status = .ok () → inst.blockId = latest) : ResponseFlight latest inst resp

def Flight (latest : Uuid) (inst : CanonizationService.Instance) : Message → Prop
  | .dataRequest packet => RequestFlight latest inst packet
  | .dataResponse resp => ResponseFlight latest inst resp
  | .blockUpdate blockId => blockId = latest
  | _ => True

structure Sends (latest : Uuid) (inst : CanonizationService.Instance) (e : Effect) : Prop where
  single : e.2.length ≤ 1
  flight : ∀ m ∈ e.2, Flight latest e.1 m
  running : e.1.running = inst.running

section Callbacks

variable {E : Env} {B : CertBuilder} {o : Outside} {latest : Uuid}
  {inst inst' : CanonizationService.Instance} {e : Effect}

theorem sends_nothing (h : inst'.running = inst.running) : Sends latest inst (inst', []) :=
  ⟨by simp, by simp, h⟩

theorem sends_exit (h : inst'.running = inst.running) :
    Sends latest inst (exitEventLoop inst', []) :=
  sends_nothing h

theorem sends_one {m : Message} (h : inst'.running = inst.running) (hm : Flight latest inst' m) :
    Sends latest inst (inst', [m]) :=
  ⟨by simp, by simpa using hm, h⟩

theorem sendreq_sends {packet : Bytes} (h : inst'.running = inst.running)
    (hp : RequestFlight latest inst' packet) : Sends latest inst (sendreq o inst' packet) := by
  unfold sendreq
  split
  · exact sends_exit h
  · exact sends_one h hp

theorem childContextClose_sends (h : inst'.running = inst.running) :
    Sends latest inst (CanonizationService.childContextClose o inst') := by
  unfold CanonizationService.childContextClose
  split
  · exact sends_exit h
  · exact sends_one h (RequestFlight.close _)

theorem notifyBlockUpdate_sends (h : inst'.running = inst.running)
    (hid : inst'.blockId = latest) : Sends latest inst (notifyBlockUpdate o inst') := by
  unfold notifyBlockUpdate
  split
  · exact sends_exit h
  · exact sends_one h hid

theorem completeUpdate_sends (h : inst'.running = inst.running)
    (hprev : inst'.previousBlockId = latest) : Sends latest inst (completeUpdate o inst') := by
  unfold completeUpdate
  split
  · exact notifyBlockUpdate_sends h hprev
  · exact childContextClose_sends h

theorem blockMake_sends (h : inst'.running = inst.running) (hprev : inst'.previousBlockId = latest)
    (he : CanonizationService.blockMake B o inst' = some e) : Sends latest inst e := by
  unfold CanonizationService.blockMake at he
  split at he
  · cases he
  · cases he
    exact completeUpdate_sends h hprev
  · split at he
    · cases he
      exact sends_exit h
    · split at he
      · cases he
      · split at he
        · cases he
          exact sends_exit h
        · split at he
          · cases he
            exact sends_exit h
          · cases he
            exact sends_one h (RequestFlight.make _ _)

theorem collectTransaction_sends {txn : Transaction} (h : inst'.running = inst.running)
    (hprev : inst'.previousBlockId = latest)
    (he : collectTransaction B o inst' txn = some e) : Sends latest inst e := by
  unfold collectTransaction at he
  split at he
  · cases he
    exact sends_exit h
  · split at he
    · cases he
    · split at he
      · cases he
        exact sends_exit h
      · simp only at he
        split at he
        · exact blockMake_sends (by exact h) (by exact hprev) he
        · split at he
          · exact blockMake_sends (by exact h) (by exact hprev) he
          · cases he
            exact sendreq_sends h (RequestFlight.next _ _ hprev)

theorem timerCb_sends (h : inst'.running = inst.running) :
    Sends latest inst (timerCb o inst') := by
  unfold timerCb
  split
  · exact sends_nothing h
  · split
    · exact sends_exit h
    · exact sends_one h trivial

theorem reset_sends {shouldSleep : Bool} (h : inst'.running = inst.running) :
    Sends latest inst (reset o inst' shouldSleep) := by
  unfold reset
  simp only
  split
  · split
    · exact sends_exit h
    · exact sends_one h trivial
  · exact timerCb_sends h

theorem randomRead_sends {packet : Bytes} :
    Sends latest inst (CanonizationService.randomRead o inst packet) := by
  unfold CanonizationService.randomRead
  split
  · exact sends_nothing rfl
  · split
    · exact sends_exit rfl
    · split
      · exact sends_exit rfl
      · split
        · exact sends_exit rfl
        · exact sendreq_sends rfl RequestFlight.create

theorem notifyRead_sends {packet : Bytes} :
    Sends latest inst (CanonizationService.notifyRead o inst packet) := by
  unfold CanonizationService.notifyRead
  split
  · exact sends_nothing rfl
  · split
    · exact sends_exit rfl
    · split
      · exact sends_exit rfl
      · split
        · exact sends_exit rfl
        · exact childContextClose_sends rfl

theorem responseChildContextCreate_sends {resp : Response} :
    Sends latest inst (responseChildContextCreate o inst resp) := by
  unfold responseChildContextCreate
  split
  · exact sendreq_sends rfl (RequestFlight.latest _)
  · exact sends_exit rfl

theorem decodeResponseLatestBlockIdGet_eq {resp : Response} {id : Uuid}
    (h : decodeResponseLatestBlockIdGet resp = some (.ok id))
    (hid : resp.status = .ok () → resp.payload = some (be 16 latest)) : id = latest := by
  unfold decodeResponseLatestBlockIdGet decodeResponse at h
  split at h
  · cases h
  · split at h
    · cases h
    · rename_i hok
      rw [hid hok] at h
      simp only [Option.getD_some] at h
      split at h
      · cases h
      · rw [← Except.ok.inj (Option.some.inj h), uuidAt, slice, List.drop_zero,
          List.take_of_length_le (by simp), bits_be (n := 16) (w := 128) rfl]

theorem responseChildContextClose_sends
    (he : responseChildContextClose o inst = some e) : Sends latest inst e := by
  obtain ⟨txns, -, rfl⟩ := Option.map_eq_some_iff.mp he
  exact reset_sends rfl

/-- The id that was read becomes the previous block of the instance. -/
theorem responseLatestBlockIdRead_sends {resp : Response}
    (hid : resp.status = .ok () → resp.payload = some (be 16 latest)) :
    Sends latest inst (responseLatestBlockIdRead E o inst resp) := by
  unfold responseLatestBlockIdRead
  split
  · rename_i id hdec
    have hlatest : id = latest := decodeResponseLatestBlockIdGet_eq hdec hid
    simp only
    split
    · exact sendreq_sends rfl (RequestFlight.first _ hlatest)
    · exact sendreq_sends rfl (RequestFlight.block _ hlatest)
  · exact sends_exit rfl

theorem parseBlock_keeps {cert : Bytes} (h : parseBlock E o inst cert = some inst') :
    inst'.previousBlockId = inst.previousBlockId ∧ inst'.running = inst.running := by
  unfold parseBlock at h
  split at h
  · cases h
  · split at h
    · cases h
    · split at h
      · cases h
      · split at h
        · cases h
        · split at h
          · cases h
            exact ⟨rfl, rfl⟩
          · cases h
            exact ⟨rfl, rfl⟩

theorem responseBlockRead_sends {resp : Response} (hprev : inst.previousBlockId = latest) :
    Sends latest inst (responseBlockRead E o inst resp) := by
  unfold responseBlockRead
  split
  · simp only
    split
    · exact sends_exit rfl
    · rename_i inst' hparse
      obtain ⟨hkeep, hrun⟩ := parseBlock_keeps hparse
      exact sendreq_sends hrun (RequestFlight.first _ (hkeep.trans hprev))
  · exact sends_exit rfl

theorem responseTransactionFirstRead_sends {resp : Response}
    (hprev : inst.previousBlockId = latest)
    (he : responseTransactionFirstRead B o inst resp = some e) : Sends latest inst e := by
  unfold responseTransactionFirstRead at he
  split at he
  · split at he
    · cases he
      exact completeUpdate_sends rfl hprev
    · exact collectTransaction_sends rfl hprev he
  · cases he
    exact completeUpdate_sends rfl hprev
  · cases he
    exact sends_exit rfl

theorem responseTransactionRead_sends {resp : Response}
    (hprev : inst.previousBlockId = latest)
    (he : responseTransactionRead B o inst resp = some e) : Sends latest inst e := by
  unfold responseTransactionRead at he
  split at he
  · split at he
    · exact blockMake_sends rfl hprev he
    · exact collectTransaction_sends rfl hprev he
  · exact blockMake_sends rfl hprev he
  · cases he
    exact sends_exit rfl

/-- A block write response is the one case in which the status decides. -/
theorem dataRead_sends {resp : Response} (hf : ResponseFlight latest inst resp)
    (hmade : resp.method = Method.appBlockWrite.code → resp.status = .ok ())
    (he : CanonizationService.dataRead E B o inst resp = some e) : Sends latest inst e := by
  cases hrun : inst.forceExit with
  | true =>
    rw [dataRead_exiting E B hrun] at he
    cases he
    exact sends_nothing rfl
  | false =>
    cases hf with
    | context m hm h =>
      rcases hm with rfl | rfl
      · rw [dataRead_of_create E B hrun h] at he
        cases he
        exact responseChildContextCreate_sends
      · rw [dataRead_of_close E B hrun h] at he
        exact responseChildContextClose_sends he
    | latest h hid =>
      rw [dataRead_of_latest E B hrun h] at he
      cases he
      exact responseLatestBlockIdRead_sends hid
    | queue m hm h hprev =>
      rcases hm with rfl | rfl | rfl
      · rw [dataRead_of_block E B hrun h] at he
        cases he
        exact responseBlockRead_sends hprev
      · rw [dataRead_of_first E B hrun h] at he
        exact responseTransactionFirstRead_sends hprev he
      · rw [dataRead_of_next E B hrun h] at he
        exact responseTransactionRead_sends hprev he
    | made h hid =>
      have hlatest := hid (hmade h)
      rw [dataRead_of_blockWrite E B hrun h] at he
      cases he
      exact notifyBlockUpdate_sends rfl hlatest

end Callbacks

/-! ### The latest block of the store -/

section Store

variable {E : Env} {d : Store} {i : Invocation}

theorem perform_keeps_blocks (h : ∀ blockId blockData, i.request ≠ .blockMake blockId blockData) :
    (perform E d i).2.blockDb = d.blockDb ∧ (perform E d i).2.heightDb = d.heightDb := by
  apply perform_preserves (P := fun w => w.blockDb = d.blockDb ∧ w.heightDb = d.heightDb) ⟨rfl, rfl⟩
  intro a w _ heff
  rcases effect_cases heff with ⟨blockId, blockData, _, hreq, -⟩ | ⟨-, hsame⟩
  · exact absurd hreq (h blockId blockData)
  · exact ⟨hsame.block, hsame.height⟩

/-- Without the capability to write blocks the chain stays. -/
theorem perform_uncapped_keeps_blocks (h : bitcapIsset i.caps .appBlockWrite = false) :
    (perform E d i).2.blockDb = d.blockDb ∧ (perform E d i).2.heightDb = d.heightDb := by
  by_cases hmake : ∀ blockId blockData, i.request ≠ .blockMake blockId blockData
  · exact perform_keeps_blocks hmake
  · push Not at hmake
    obtain ⟨blockId, blockData, hreq⟩ := hmake
    have hcap : bitcapIsset i.caps i.request.capability = false := by
      rw [hreq]
      exact h
    rw [perform, run_unauthorized hcap]
    exact ⟨rfl, rfl⟩

/-- A block that was committed is the latest. -/
theorem perform_makes_latest {blockId : Uuid} {blockData : Bytes} {a : Reply}
    (hd : ∃ bs, Chain E d.blockDb d.heightDb bs) (hreq : i.request = .blockMake blockId blockData)
    (hdecoded : blockData.length < maxPayload) (hcommit : i.commitFails = false)
    (hok : (perform E d i).1 = .ok a) : latestBlock E (perform E d i).2 = blockId := by
  obtain ⟨bs, hc⟩ := hd
  obtain ⟨w, -, heff, hw⟩ := perform_ok hok
  have hcall : ChainCall i := by
    refine ⟨hcommit, ?_⟩
    rw [hreq]
    exact hdecoded
  have hchain := effect_chain hc hcall heff
  rw [blocksMade_blockMake hreq] at hchain
  rw [hw, hcommit, latestBlock]
  simp only [Bool.false_eq_true, if_false]
  rw [hchain.expectedPrevBlockId_eq, List.length_append, List.length_singleton,
    blockAt_append_last]

end Store

/-! ### Serving a request -/

section Serve

variable {E : Env} {s s' : Service} {d : Delivery} {dir : Bytes} {resp : Option Response}
  {st : Except AgentdError Unit} {inst : CanonizationService.Instance}

structure Chained (E : Env) (dir : Bytes) (s : Service) : Prop where
  opened : s.inst.details = .opened dir
  chain : ∃ bs, Chain E (s.disk dir).blockDb (s.disk dir).heightDb bs

theorem Chained.keepsStore {m : Method} (hs : Chained E dir s) (h : KeepsStore s s' m resp) :
    Chained E dir s' ∧ latestBlock E (s'.disk dir) = latestBlock E (s.disk dir) := by
  obtain ⟨hdisk, hdetails, -⟩ := h
  rw [hdisk]
  refine ⟨⟨hdetails.trans hs.opened, ?_⟩, rfl⟩
  rw [hdisk]
  exact hs.chain

/-- A performed request leaves the store of its call behind. -/
theorem Chained.performed {i : Invocation} {a : Reply} {store : Store} (hs : Chained E dir s)
    (hi : i.request.Decoded) (h : perform E (s.disk dir) i = (.ok a, store)) :
    Chained E dir { s with disk := Function.update s.disk dir store } := by
  refine ⟨hs.opened, ?_⟩
  have hchain := perform_chain hi hs.chain
  rw [h] at hchain
  simpa using hchain

theorem served_reading {m : Method} {r : DecodedRequest} (he : Encodes d.packet m r)
    (hread : ∀ blockId blockData, r.request ≠ .blockMake blockId blockData)
    (hdecoded : r.request.Decoded) (hs : Chained E dir s)
    (h : decodeAndDispatch E s d = some (s', resp, st)) :
    Chained E dir s' ∧ latestBlock E (s'.disk dir) = latestBlock E (s.disk dir) ∧
      ∀ q, resp = some q → q.method = m.code := by
  rcases served_operation he hs.opened h with ⟨rfl, hq⟩ | ⟨caps, a, store, hok, rfl, hq⟩
  · exact ⟨hs, rfl, fun q hresp => (hq q hresp).1⟩
  · refine ⟨hs.performed hdecoded hok, ?_, fun q hresp => (hq q hresp).1⟩
    have hkeep := perform_keeps_blocks (E := E) (d := s.disk dir)
      (i := ⟨r.request, caps, d.faults, d.commitFails⟩) hread
    rw [hok] at hkeep
    have hblock : store.blockDb = (s.disk dir).blockDb := hkeep.1
    simp only [Function.update_self, latestBlock, hblock]

theorem served_latest {child : BitVec 32} (hd : d.packet = encodeRequestLatestBlockIdGet child)
    (hs : Chained E dir s) (h : decodeAndDispatch E s d = some (s', resp, st)) :
    ∀ q, resp = some q → q.status = .ok () →
      q.payload = some (be 16 (latestBlock E (s.disk dir))) := by
  have he := encodes_latestBlockIdGet child
  rw [← hd] at he
  intro q hresp hok
  rcases served_operation he hs.opened h with ⟨-, hq⟩ | ⟨caps, a, store, hperform, -, hq⟩
  · obtain ⟨-, e, he⟩ := hq q hresp
    rw [he] at hok
    cases hok
  · obtain ⟨w, -, heff, -⟩ := perform_ok (congrArg Prod.fst hperform)
    obtain ⟨-, id, u, rfl, hends⟩ := heff
    rw [latestBlock, ← latestBlockIdGetBody_ends hends]
    obtain ⟨-, hres⟩ := hq q hresp
    unfold encodeReply at hres
    simp only at hres
    by_cases halloc : d.payloadAllocFails = true
    · rw [if_pos halloc] at hres
      rw [hres.1] at hok
      cases hok
    · rw [if_neg halloc] at hres
      exact hres.2

/-- A block write that is reported as success made the latest block, if its commit worked. -/
theorem served_make {child : BitVec 32} {blockId : Uuid} {cert : Bytes}
    (hd : d.packet = encodeRequestBlockMake child blockId cert)
    (hlen : d.packet.length < maxPayload)
    (hcommit : d.commitFails = false) (hs : Chained E dir s)
    (h : decodeAndDispatch E s d = some (s', resp, st)) :
    Chained E dir s' ∧ ∀ q, resp = some q → q.method = Method.appBlockWrite.code ∧
      (q.status = .ok () → blockId = latestBlock E (s'.disk dir)) := by
  have he := encodes_blockMake child blockId cert
  rw [← hd] at he
  have hcert : cert.length < maxPayload := by
    rw [hd, encodeRequestBlockMake, requestPacket] at hlen
    simp only [List.length_append] at hlen
    omega
  rcases served_operation he hs.opened h with ⟨rfl, hq⟩ | ⟨caps, a, store, hok, rfl, hq⟩
  · refine ⟨hs, fun q hresp => ⟨(hq q hresp).1, ?_⟩⟩
    intro hstatus
    obtain ⟨-, e, he⟩ := hq q hresp
    rw [he] at hstatus
    cases hstatus
  · refine ⟨hs.performed (by exact hcert) hok, fun q hresp => ⟨(hq q hresp).1, ?_⟩⟩
    intro _
    have hlatest := perform_makes_latest hs.chain
      (i := ⟨.blockMake blockId cert, caps, d.faults, d.commitFails⟩) rfl hcert hcommit
      (congrArg Prod.fst hok)
    rw [hok] at hlatest
    simpa using hlatest.symm

/-- A served request turns a request in flight into a response in flight. -/
theorem served_flight (hs : Chained E dir s)
    (hf : RequestFlight (latestBlock E (s.disk dir)) inst d.packet)
    (hlen : d.packet.length < maxPayload)
    (hcommit : d.commitFails = true → ∀ child blockId cert,
      d.packet ≠ encodeRequestBlockMake child blockId cert)
    (h : decodeAndDispatch E s d = some (s', resp, st)) :
    Chained E dir s' ∧ ∀ q, resp = some q →
      ResponseFlight (latestBlock E (s'.disk dir)) inst q := by
  generalize hpacket : d.packet = packet at hf
  cases hf with
  | create =>
    have hkeep := served_childContextCreate hpacket h
    obtain ⟨hs', -⟩ := hs.keepsStore hkeep
    exact ⟨hs', fun q hresp => .context _ (Or.inl rfl) (hkeep.2.2 q hresp)⟩
  | close child =>
    have hkeep := served_childContextClose hpacket h
    obtain ⟨hs', -⟩ := hs.keepsStore hkeep
    exact ⟨hs', fun q hresp => .context _ (Or.inr rfl) (hkeep.2.2 q hresp)⟩
  | latest child =>
    have he := encodes_latestBlockIdGet child
    rw [← hpacket] at he
    obtain ⟨hs', hlatest, hq⟩ := served_reading he (by simp) trivial hs h
    refine ⟨hs', fun q hresp => .latest (hq q hresp) ?_⟩
    rw [hlatest]
    exact served_latest hpacket hs h q hresp
  | block child hprev =>
    have he := encodes_blockGet child inst.previousBlockId true
    rw [← hpacket] at he
    obtain ⟨hs', hlatest, hq⟩ := served_reading he (by simp) trivial hs h
    exact ⟨hs', fun q hresp => .queue _ (Or.inl rfl) (hq q hresp) (hprev.trans hlatest.symm)⟩
  | first child hprev =>
    have he := encodes_transactionGetFirst child
    rw [← hpacket] at he
    obtain ⟨hs', hlatest, hq⟩ := served_reading he (by simp) trivial hs h
    exact ⟨hs', fun q hresp => .queue _ (Or.inr (Or.inl rfl)) (hq q hresp)
      (hprev.trans hlatest.symm)⟩
  | next child txnId hprev =>
    have he := encodes_transactionGet child txnId
    rw [← hpacket] at he
    obtain ⟨hs', hlatest, hq⟩ := served_reading he (by simp) trivial hs h
    exact ⟨hs', fun q hresp => .queue _ (Or.inr (Or.inr rfl)) (hq q hresp)
      (hprev.trans hlatest.symm)⟩
  | make child cert =>
    have hworks : d.commitFails = false := by
      by_contra hne
      rw [Bool.not_eq_false] at hne
      exact hcommit hne _ _ _ hpacket
    obtain ⟨hs', hq⟩ := served_make hpacket hlen hworks hs h
    exact ⟨hs', fun q hresp => .made (hq q hresp).1 (hq q hresp).2⟩

end Serve

/-! ### Runs -/

structure Invariant (E : Env) (dir : Bytes) (s : System) : Prop where
  chained : Chained E dir s.data
  single : s.net.length ≤ 1
  flight : ∀ m ∈ s.net, Flight (latestBlock E (s.store dir)) s.canon m
  idle : s.canon.running = false → s.net = []

/-- The commit of a block write works, and a block write response that is read reports success. -/
def Committed (s : System) : Action → Prop
  | .serve d => d.commitFails = true → ∀ child blockId cert,
      Message.dataRequest (encodeRequestBlockMake child blockId cert) ∉ s.net
  | .dataRead _ => ∀ resp, Message.dataResponse resp ∈ s.net →
      resp.method = Method.appBlockWrite.code → resp.status = .ok ()
  | _ => True

section Runs

variable {E : Env} {B : CertBuilder} {dir : Bytes} {s t : System} {a : Action}

theorem Flight.congr {latest : Uuid} {inst inst' : CanonizationService.Instance} {m : Message}
    (h : Flight latest inst m) (hid : inst'.blockId = inst.blockId)
    (hprev : inst'.previousBlockId = inst.previousBlockId) : Flight latest inst' m := by
  cases m with
  | dataRequest packet =>
    replace h : RequestFlight latest inst packet := h
    show RequestFlight latest inst' packet
    cases h with
    | create => exact .create
    | close child => exact .close child
    | latest child => exact .latest child
    | block child h =>
      rw [← hprev] at h ⊢
      exact .block child h
    | first child h => exact .first child (hprev.trans h)
    | next child txnId h => exact .next child txnId (hprev.trans h)
    | make child cert =>
      rw [← hid]
      exact .make child cert
  | dataResponse resp =>
    replace h : ResponseFlight latest inst resp := h
    show ResponseFlight latest inst' resp
    cases h with
    | context m hm h => exact .context m hm h
    | latest h hid => exact .latest h hid
    | queue m hm h hp => exact .queue m hm h (hprev.trans hp)
    | made h hb => exact .made h fun hok => hid.trans (hb hok)
  | _ => exact h

/-- The message a step takes is the one in flight. -/
theorem Invariant.take {α : Type} {kind : Message → Option α} {x : α} {net : List Message}
    (h : Invariant E dir s) (ht : takeMessage kind s.net = some (x, net)) :
    ∃ m, s.net = [m] ∧ kind m = some x ∧ net = [] ∧ s.canon.running = true := by
  obtain ⟨m, hnet, hk, hrest⟩ := takeMessage_single h.single ht
  refine ⟨m, hnet, hk, hrest, ?_⟩
  by_contra hrun
  rw [Bool.not_eq_true] at hrun
  rw [h.idle hrun] at hnet
  cases hnet

theorem Invariant.afterCallback {e : Option Effect} (h : Invariant E dir s)
    (hrun : s.canon.running = true)
    (hsends : ∀ e', e = some e' → Sends (latestBlock E (s.store dir)) s.canon e')
    (hstep : callback s [] e = some t) : Invariant E dir t := by
  unfold CanonizationSystem.callback at hstep
  split at hstep
  · cases hstep
  · obtain ⟨e', he, rfl⟩ := Option.map_eq_some_iff.mp hstep
    have hs := hsends e' he
    refine ⟨h.chained, by simpa using hs.single, fun m hm => hs.flight m (by simpa using hm), ?_⟩
    intro hidle
    have hrun' : e'.1.running = true := hs.running.trans hrun
    rw [hrun'] at hidle
    cases hidle

/-- A control command leaves the round alone, or arms the first timer. -/
theorem controlRead_cases (o : Outside) (inst : CanonizationService.Instance) (c : ControlCommand) :
    (controlRead o inst c).1.blockId = inst.blockId ∧
    (controlRead o inst c).1.previousBlockId = inst.previousBlockId ∧
    (((controlRead o inst c).2 = [] ∧ ((controlRead o inst c).1.running = inst.running ∨
        inst.running = false)) ∨
      ((controlRead o inst c).2 = [.timer] ∧ inst.running = false ∧
        (controlRead o inst c).1.running = true)) := by
  cases c with
  | configure maxMilliseconds maxTransactions =>
    rw [controlRead]
    split
    · exact ⟨rfl, rfl, Or.inl ⟨rfl, Or.inl rfl⟩⟩
    · exact ⟨rfl, rfl, Or.inl ⟨rfl, Or.inl rfl⟩⟩
  | privateKeySet key =>
    rw [controlRead]
    split
    · exact ⟨rfl, rfl, Or.inl ⟨rfl, Or.inl rfl⟩⟩
    · split
      · exact ⟨rfl, rfl, Or.inl ⟨rfl, Or.inl rfl⟩⟩
      · exact ⟨rfl, rfl, Or.inl ⟨rfl, Or.inl rfl⟩⟩
  | start =>
    rw [controlRead]
    simp only
    split
    · exact ⟨rfl, rfl, Or.inl ⟨rfl, Or.inl rfl⟩⟩
    · split
      · split
        · exact ⟨rfl, rfl, Or.inl ⟨rfl, Or.inl rfl⟩⟩
        · exact ⟨rfl, rfl, Or.inl ⟨rfl, Or.inl rfl⟩⟩
      · rename_i hready
        have hrun : inst.running = false := by
          cases hr : inst.running with
          | false => rfl
          | true => simp [hr] at hready
        split
        · exact ⟨rfl, rfl, Or.inl ⟨rfl, Or.inr hrun⟩⟩
        · split
          · exact ⟨rfl, rfl, Or.inr ⟨rfl, hrun, rfl⟩⟩
          · exact ⟨rfl, rfl, Or.inr ⟨rfl, hrun, rfl⟩⟩
  | bad =>
    rw [controlRead]
    split
    · exact ⟨rfl, rfl, Or.inl ⟨rfl, Or.inl rfl⟩⟩
    · exact ⟨rfl, rfl, Or.inl ⟨rfl, Or.inl rfl⟩⟩

theorem Invariant.afterControl {o : Outside} {c : ControlCommand} (h : Invariant E dir s)
    (hstep : callback s s.net (some (controlRead o s.canon c)) = some t) : Invariant E dir t := by
  unfold callback at hstep
  split at hstep
  · cases hstep
  · cases hstep
    obtain ⟨hid, hprev, hsent⟩ := controlRead_cases o s.canon c
    rcases hsent with ⟨hsent, hrun⟩ | ⟨hsent, hrun, hnow⟩
    · simp only [hsent, List.append_nil]
      refine ⟨h.chained, h.single, fun m hm => (h.flight m hm).congr hid hprev, ?_⟩
      intro hidle
      rcases hrun with hrun | hrun
      · exact h.idle (hrun.symm.trans hidle)
      · exact h.idle hrun
    · simp only [hsent, h.idle hrun]
      refine ⟨h.chained, by simp, by simp [Flight], ?_⟩
      intro hidle
      exact absurd (hnow.symm.trans hidle) (by decide)

theorem Invariant.afterServe {d : Delivery} {packet : Bytes} {net : List Message}
    (h : Invariant E dir s) (ht : takeMessage isDataRequest s.net = some (packet, net))
    (hok : Committed s (.serve d)) (hstep : serveData E s d packet net = some t) :
    Invariant E dir t := by
  obtain ⟨m, hnet, hk, rfl, hrun⟩ := h.take ht
  obtain rfl := eq_of_isDataRequest hk
  unfold serveData at hstep
  split at hstep
  · cases hstep
  · split at hstep
    · cases hstep
      exact ⟨h.chained, by simp, by simp, fun _ => rfl⟩
    · rename_i hlen
      obtain ⟨⟨data, resp, st⟩, hserved, rfl⟩ := Option.map_eq_some_iff.mp hstep
      have hflight : RequestFlight (latestBlock E (s.store dir)) s.canon packet :=
        h.flight (.dataRequest packet) (by simp [hnet])
      have hcommit : d.commitFails = true → ∀ child blockId cert,
          packet ≠ encodeRequestBlockMake child blockId cert := by
        intro hfails child blockId cert heq
        apply hok hfails child blockId cert
        rw [hnet, heq]
        exact List.mem_singleton_self _
      obtain ⟨hchained, hresp⟩ := served_flight h.chained (by exact hflight) (not_le.mp hlen)
        hcommit hserved
      refine ⟨hchained, ?_, ?_, ?_⟩
      · cases resp with
        | none => simp
        | some q => simp
      · intro m hm
        simp only [List.nil_append, List.mem_map, Option.mem_toList] at hm
        obtain ⟨q, hq, rfl⟩ := hm
        exact hresp q hq
      · intro hidle
        have hrun' : s.canon.running = false := hidle
        rw [hrun] at hrun'
        cases hrun'

/-- Other clients do not write blocks. -/
theorem Invariant.afterClient {i : Invocation} (h : Invariant E dir s)
    (hcap : bitcapIsset i.caps .appBlockWrite = false) :
    Invariant E dir { s with data := { s.data with
      disk := Function.update s.data.disk dir (perform E (s.data.disk dir) i).2 } } := by
  obtain ⟨hblock, hheight⟩ := perform_uncapped_keeps_blocks (E := E) (d := s.data.disk dir) hcap
  refine ⟨⟨h.chained.opened, ?_⟩, h.single, ?_, h.idle⟩
  · simp only [Function.update_self, hblock, hheight]
    exact h.chained.chain
  · intro m hm
    simp only [System.store, Function.update_self, latestBlock, hblock]
    exact h.flight m hm

theorem step_preserves_invariant (h : Invariant E dir s) (hok : Committed s a)
    (hstep : step E B dir s a = some t) : Invariant E dir t := by
  cases a with
  | control o c => exact h.afterControl hstep
  | timer o =>
    obtain ⟨⟨_, net⟩, ht, hstep⟩ := Option.bind_eq_some_iff.mp hstep
    obtain ⟨m, -, -, rfl, hrun⟩ := h.take ht
    exact h.afterCallback hrun (fun e he => Option.some.inj he ▸ timerCb_sends rfl) hstep
  | random packet =>
    obtain ⟨⟨_, net⟩, ht, hstep⟩ := Option.bind_eq_some_iff.mp hstep
    obtain ⟨m, -, -, rfl, hrun⟩ := h.take ht
    cases hstep
    refine ⟨h.chained, by simp, by simp [Flight], fun hidle => ?_⟩
    exact absurd (hrun.symm.trans hidle) (by decide)
  | randomRead o =>
    obtain ⟨⟨packet, net⟩, ht, hstep⟩ := Option.bind_eq_some_iff.mp hstep
    obtain ⟨m, -, -, rfl, hrun⟩ := h.take ht
    exact h.afterCallback hrun (fun e he => Option.some.inj he ▸ randomRead_sends) hstep
  | serve d =>
    obtain ⟨⟨packet, net⟩, ht, hstep⟩ := Option.bind_eq_some_iff.mp hstep
    exact h.afterServe ht hok hstep
  | dataRead o =>
    obtain ⟨⟨resp, net⟩, ht, hstep⟩ := Option.bind_eq_some_iff.mp hstep
    obtain ⟨m, hnet, hk, rfl, hrun⟩ := h.take ht
    obtain rfl := eq_of_isDataResponse hk
    have hmem : Message.dataResponse resp ∈ s.net := by
      rw [hnet]
      exact List.mem_singleton_self _
    exact h.afterCallback hrun
      (fun e he => dataRead_sends (h.flight _ hmem) (hok resp hmem) he) hstep
  | update status =>
    obtain ⟨⟨blockId, net⟩, ht, hstep⟩ := Option.bind_eq_some_iff.mp hstep
    obtain ⟨m, -, -, rfl, hrun⟩ := h.take ht
    cases hstep
    refine ⟨h.chained, by simp, by simp [Flight], fun hidle => ?_⟩
    exact absurd (hrun.symm.trans hidle) (by decide)
  | notifyRead o =>
    obtain ⟨⟨packet, net⟩, ht, hstep⟩ := Option.bind_eq_some_iff.mp hstep
    obtain ⟨m, -, -, rfl, hrun⟩ := h.take ht
    exact h.afterCallback hrun (fun e he => Option.some.inj he ▸ notifyRead_sends) hstep
  | client i =>
    rw [step] at hstep
    split at hstep
    · cases hstep
    · rename_i hcap
      cases hstep
      exact h.afterClient (by simpa using hcap)

theorem invariant_start (h : Start E dir s) : Invariant E dir s := by
  obtain ⟨log, hrun⟩ := h.store
  refine ⟨⟨h.opened, run_exists_chain hrun⟩, by simp [h.net], by simp [h.net], fun _ => h.net⟩

theorem execution_invariant {s₀ : System} (h₀ : Start E dir s₀)
    (h : Execution E B dir Committed s₀ s) : Invariant E dir s := by
  induction h with
  | refl => exact invariant_start h₀
  | tail before meets taken ih => exact step_preserves_invariant ih meets taken

/-- While every block write is committed and reported as success, a block update in flight names
the block that the data service reports as the latest one. -/
theorem announced_blocks_are_latest {s₀ : System} (h₀ : Start E dir s₀)
    (h : Execution E B dir Committed s₀ s) (b : Uuid) (hb : Message.blockUpdate b ∈ s.net) :
    (perform E (s.store dir) (workingCall .latestBlockIdGet)).1 = .ok (.blockId b) := by
  have hinv := execution_invariant h₀ h
  have hlatest : b = latestBlock E (s.store dir) := hinv.flight _ hb
  obtain ⟨bs, hc⟩ := hinv.chained.chain
  have hread := perform_latestBlockIdGet hc (i := workingCall .latestBlockIdGet) rfl
    (workingCall_works _).lmdb (workingCall_permitted _)
  rw [hlatest, latestBlock]
  rw [← hc.expectedPrevBlockId_eq] at hread
  exact congrArg Prod.fst hread

end Runs

/-! A database with one queued transaction, and the round that follows. -/

def committedCheck (s : System) : Action → Bool
  | .serve d => !d.commitFails
  | .dataRead _ => s.net.all fun m => match m with
    | .dataResponse resp => resp.method != Method.appBlockWrite.code || resp.status == .ok ()
    | _ => true
  | _ => true

theorem committed_of_check (s : System) (a : Action) (h : committedCheck s a = true) :
    Committed s a := by
  cases a with
  | serve d =>
    intro hfails
    simp [committedCheck, hfails] at h
  | dataRead o =>
    intro resp hmem hmethod
    have hall := List.all_eq_true.mp h _ hmem
    simpa [hmethod] using hall
  | _ => trivial

def queuedStore (cert : Bytes) : Store :=
  (runCalls (codecEnv false) [workingCall (.transactionSubmit 5 7 cert)]).2

theorem start_queuedStore (cert : Bytes) (hne : cert ≠ []) (hlen : cert.length < maxPayload) :
    Start (codecEnv false) [47] (startSystem (queuedStore cert)) := by
  have hrun : Run (codecEnv false) (fun _ i => i.request.Decoded)
      (runCalls (codecEnv false) [workingCall (.transactionSubmit 5 7 cert)]).1
      (queuedStore cert) :=
    run_runCalls (allowedFrom_of_forall (by simpa [workingCall] using ⟨hne, hlen⟩) _)
  exact start_startSystem hrun

theorem committed_block_is_announced :
    ∃ s, Execution (codecEnv false) codecBuilder [47] Committed
        (startSystem (queuedStore (transactionCert 5 0 7 1))) s ∧
      s.net = [.blockUpdate 9] ∧
      (perform (codecEnv false) (s.store [47]) (workingCall .latestBlockIdGet)).1 =
        .ok (.blockId 9) := by
  have hrun : ((execute (codecEnv false) codecBuilder [47] committedCheck
      (startSystem (queuedStore (transactionCert 5 0 7 1)))
      (startActions 10 9 ++ exchanges 4)).map System.net) = some [.blockUpdate 9] := by
    decide +kernel
  obtain ⟨s, hs, hnet⟩ := Option.map_eq_some_iff.mp hrun
  have hexec := execution_of_execute committed_of_check .refl hs
  have hstart := start_queuedStore (transactionCert 5 0 7 1) (by decide) (by decide)
  exact ⟨s, hexec, hnet, announced_blocks_are_latest hstart hexec 9 (by simp [hnet])⟩

/-- A transaction whose certificate is no certificate makes the block write fail; its block is
announced all the same. -/
theorem failed_block_is_announced :
    ∃ s, Start (codecEnv false) [47] (startSystem (queuedStore [1])) ∧
      Execution (codecEnv false) codecBuilder [47] (fun _ _ => True)
        (startSystem (queuedStore [1])) s ∧
      .blockUpdate 9 ∈ s.net ∧
      (perform (codecEnv false) (s.store [47]) (workingCall .latestBlockIdGet)).1 =
        .ok (.blockId 1) := by
  have hrun : ((execute (codecEnv false) codecBuilder [47] (fun _ _ => true)
      (startSystem (queuedStore [1])) (startActions 10 9 ++ exchanges 4)).map fun s =>
        (s.net, (perform (codecEnv false) (s.store [47]) (workingCall .latestBlockIdGet)).1)) =
      some ([.blockUpdate 9], .ok (.blockId 1)) := by
    decide +kernel
  obtain ⟨s, hs, heq⟩ := Option.map_eq_some_iff.mp hrun
  obtain ⟨hnet, hlatest⟩ := Prod.mk.inj heq
  have hexec : Execution (codecEnv false) codecBuilder [47] (fun _ _ => True)
      (startSystem (queuedStore [1])) s :=
    execution_of_execute (fun _ _ _ => trivial) .refl hs
  exact ⟨s, start_queuedStore [1] (by decide) (by decide), hexec, by simp [hnet], hlatest⟩

end PublishedBlocks
