import Agentd.AnsweredOnce
import Agentd.ClientAuthority
import Agentd.ControlFidelity
import Agentd.ResponseCorrelation

/-! # Requests under an authority

What becomes of a request that a protocol fiber passes on: the endpoint writes the child context
into it, the data service decodes it, looks the child context up and tests one bit before anything
else. -/
namespace AuthorizedRequests

open ByteString
open DataserviceRecords
open DataserviceStore
open FaultyTransactions
open DataserviceRequests
open DataserviceDispatch
open CapabilityConfinement
open DataserviceClient
open RequestCodec
open ResponseCodec
open DataEndpoint
open ClientProtocol
open ControlRequests (Suite ControlContext ControlRequest)
open ControlFidelity (shortSuite nothingFails newControlContext)
open UserCapabilities
open ClientAuthority

variable {L : Library} {E : Env} {s s' : Service} {d : Delivery} {i : Fin maxChildContexts}
  {p : Bytes} {r : ProtocolRequest} {id : BitVec 32} {q : ClientRequest}

/-! ### Packets for a child context -/

theorem overwrite_requestPacket (m : Method) (child c : BitVec 32) (args : Bytes) :
    overwrite (requestPacket m child args) 4 (be 4 c) = requestPacket m c args := by
  rw [requestPacket, overwrite_append_skip _ _ _ (by simp), length_be,
    overwrite_append_self _ _ _ (by simp), requestPacket]

/-- A request that is passed on is an operation of the method it is served by, for any child context
that is written into it. -/
structure PassedOn (r : ProtocolRequest) (q : ClientRequest) : Prop where
  method : methodOf r = some q.method
  packet : ∃ decode args, (q.method, decode) ∈ childOperations ∧
    (∀ c : BitVec 32, overwrite q.encode 4 (be 4 c) = requestPacket q.method c args) ∧
    (Encodable q → ∀ c : BitVec 32, ∃ decoded, decode (be 4 c ++ args) = .ok decoded)

theorem passedOn_of (decode : Bytes → Except AgentdError DecodedRequest) {args : Bytes}
    (hmethod : methodOf r = some q.method) (hmem : (q.method, decode) ∈ childOperations)
    {child : BitVec 32} (hencode : q.encode = requestPacket q.method child args)
    (hdecode : Encodable q → ∀ c : BitVec 32, ∃ decoded, decode (be 4 c ++ args) = .ok decoded) :
    PassedOn r q := by
  refine ⟨hmethod, decode, args, hmem, ?_, hdecode⟩
  intro c
  rw [hencode]
  exact overwrite_requestPacket ..

theorem decodes {sizeOk : ℕ → Bool} {request : Bytes → Request} {readCert : Bytes → Bool}
    {args : Bytes} (hsize : sizeOk args.length = true) (c : BitVec 32) :
    ∃ decoded, decodeRequest sizeOk request readCert (be 4 c ++ args) = .ok decoded :=
  ⟨_, decodeRequest_append _ _ hsize⟩

theorem dndDataservice_request {α : Type} {decoded : Except Status (Decoded α)}
    {request : α → ClientRequest} (h : dndDataservice decoded request = .ok (id, q)) :
    ∃ a, q = request a := by
  cases decoded with
  | error e => cases h
  | ok d =>
    cases h
    exact ⟨d.fields, rfl⟩

theorem passedOn_dataserviceRequest (h : dataserviceRequest L p r = some (.ok (id, q))) :
    PassedOn r q := by
  have hblock : ∀ a flag, methodOf r = some .appBlockRead → PassedOn r (.blockGet 0 a flag) :=
    fun a flag hm => passedOn_of decodeRequestBlockRead hm
      (by simp [childOperations, ClientRequest.method]) rfl fun _ => decodes (by simp)
  have htransaction : ∀ a flag, methodOf r = some .appTransactionRead →
      PassedOn r (.canonizedTransactionGet 0 a flag) :=
    fun a flag hm => passedOn_of decodeRequestCanonizedTransactionGet hm
      (by simp [childOperations, ClientRequest.method]) rfl fun _ => decodes (by simp)
  have hartifact : ∀ a, methodOf r = some .appArtifactRead → PassedOn r (.artifactGet 0 a) :=
    fun a hm => passedOn_of decodeRequestArtifactRead hm
      (by simp [childOperations, ClientRequest.method]) rfl fun _ => decodes (by simp)
  cases r with
  | latestBlockIdGet =>
    cases h
    exact passedOn_of decodeRequestBlockIdLatestRead rfl
      (by simp [childOperations, ClientRequest.method]) rfl fun _ => decodes rfl
  | transactionSubmit =>
    simp only [dataserviceRequest, dndTransactionSubmit, Option.some.injEq] at h
    cases hd : L.decodeReqTransactionSubmit p with
    | error e =>
      rw [hd] at h
      cases h
    | ok fields =>
      simp only [hd] at h
      split at h
      · cases h
      · cases h
        refine passedOn_of decodeRequestTransactionSubmit rfl
          (by simp [childOperations, ClientRequest.method]) rfl fun hcert => decodes ?_
        have hpos := List.length_pos_iff.mpr hcert
        simp only [List.length_append, length_be, decide_eq_true_eq]
        omega
  | blockByIdGet =>
    obtain ⟨a, rfl⟩ := dndDataservice_request (Option.some.inj h)
    exact hblock a _ rfl
  | blockIdGetNext =>
    obtain ⟨a, rfl⟩ := dndDataservice_request (Option.some.inj h)
    exact hblock a _ rfl
  | blockIdGetPrev =>
    obtain ⟨a, rfl⟩ := dndDataservice_request (Option.some.inj h)
    exact hblock a _ rfl
  | blockIdByHeightGet =>
    obtain ⟨a, rfl⟩ := dndDataservice_request (Option.some.inj h)
    exact passedOn_of decodeRequestBlockIdByHeightRead rfl
      (by simp [childOperations, ClientRequest.method]) rfl fun _ => decodes (by simp)
  | transactionByIdGet =>
    obtain ⟨a, rfl⟩ := dndDataservice_request (Option.some.inj h)
    exact htransaction a _ rfl
  | transactionIdGetNext =>
    obtain ⟨a, rfl⟩ := dndDataservice_request (Option.some.inj h)
    exact htransaction a _ rfl
  | transactionIdGetPrev =>
    obtain ⟨a, rfl⟩ := dndDataservice_request (Option.some.inj h)
    exact htransaction a _ rfl
  | transactionIdGetBlockId =>
    obtain ⟨a, rfl⟩ := dndDataservice_request (Option.some.inj h)
    exact htransaction a _ rfl
  | artifactFirstTxnByIdGet =>
    obtain ⟨a, rfl⟩ := dndDataservice_request (Option.some.inj h)
    exact hartifact a rfl
  | artifactLastTxnByIdGet =>
    obtain ⟨a, rfl⟩ := dndDataservice_request (Option.some.inj h)
    exact hartifact a rfl
  | _ => cases h

/-! ### The data service -/

theorem decodeAndDispatch_requestPacket {m : Method} {child : BitVec 32} {args : Bytes}
    {decode : Bytes → Except AgentdError DecodedRequest} (hp : (m, decode) ∈ childOperations)
    (hd : d.packet = requestPacket m child args) :
    decodeAndDispatch E s d = dispatchChildRequest m decode E s d (be 4 child ++ args) := by
  have hlen : ¬ d.packet.length < 4 := by simp [hd, requestPacket]
  have hdrop : d.packet.drop 4 = be 4 child ++ args := by
    rw [hd, requestPacket, List.drop_left' (length_be 4 _)]
  rw [decodeAndDispatch, if_neg hlen, hdrop, hd, requestPacket]
  simp only [bits_method, handlerOf_operation hp]
  rfl

theorem performChild_unauthorized {request : Request}
    (h : bitcapIsset (s.inst.children i).childcaps request.capability = false) :
    performChild E s i d request = (.error (.fail .notAuthorized), s) := by
  have hperform : ∀ store, perform E store
      ⟨request, (s.inst.children i).childcaps, d.faults, d.commitFails⟩ =
        (.error (.fail .notAuthorized), store) := by
    intro store
    rw [perform, run_unauthorized h]
  have hunopened : performUnopened E
      ⟨request, (s.inst.children i).childcaps, d.faults, d.commitFails⟩ =
        .error (.fail .notAuthorized) := by
    rw [performUnopened, run_unauthorized h]
    simp
  rw [performChild]
  simp only [hperform, hunopened, Function.update_eq_self]
  split
  · rfl
  · rfl

/-- An operation of the method `m` on a child context without its bit. -/
theorem dispatch_unauthorized {m : Method} {child : BitVec 32} {args : Bytes}
    {decode : Bytes → Except AgentdError DecodedRequest} (hp : (m, decode) ∈ childOperations)
    (hlook : childContextLookup s.inst child = .ok i)
    (hcap : ∀ cap : ApiCap, cap.ctorIdx = m.ctorIdx →
      bitcapIsset (s.inst.children i).childcaps cap = false) :
    dispatchChildRequest m decode E s d (be 4 child ++ args) =
      match decode (be 4 child ++ args) with
      | .error e => writeStatus d s m.code 0 (.error e) none
      | .ok _ => writeStatus d s m.code child (.error .notAuthorized) none := by
  rw [dispatchChildRequest]
  cases hdecode : decode (be 4 child ++ args) with
  | error e => rfl
  | ok request =>
    obtain ⟨rest, hinit⟩ := ResponseCorrelation.childOperations_childIndex hp hdecode
    rw [requestInit_append] at hinit
    obtain ⟨hchild, -⟩ := Prod.mk.inj (Except.ok.inj hinit)
    have hidx := childOperations_capability hp hdecode
    simp only [← hchild, hlook, performChild_unauthorized (hcap _ hidx)]

/-! ### The answer -/

def statusNotAuthorized : Status := 0x8000000 ||| (0x03 <<< 16) ||| 0x0003

def Carries (L : Library) (b : Bytes) (offset : BitVec 32) (status : Status) : Prop :=
  (∃ requestId, b = L.encodeErrorResp requestId offset status) ∨
    ∃ r body, b = L.encodeResp r offset status body

theorem wordAt_responsePacket (method child status : BitVec 32) (data : Option Bytes) :
    wordAt (responsePacket method child status data) 0 = method :=
  congrArg ResponseHeader.methodCode (decodeHeader_responsePacket method)

/-- An error of the data service reaches the client as it is. -/
theorem packetFor_failure {m : Method} {r : ProtocolRequest} (hm : methodOf r = some m)
    (requestId offset child : BitVec 32) {status : Status} (hstatus : status ≠ 0) :
    ∃ b, packetFor L ⟨.dataservice, requestId, offset, responsePacket m.code child status none⟩ =
      some b ∧ Carries L b offset status := by
  have hword := wordAt_responsePacket m.code child status none
  have hrecord : ∀ (decode : Decoder) (encode : Record → Bytes), decoderOf m = some decode →
      ∃ b, pweDndDataserviceRecord L decode encode
        ⟨.dataservice, requestId, offset, responsePacket m.code child status none⟩ = some b ∧
        Carries L b offset status := by
    intro decode encode hdecoder
    obtain ⟨record, hdecode, -⟩ := decode_failure hdecoder child hstatus
    refine ⟨_, ?_, Or.inl ⟨requestId, rfl⟩⟩
    simp only [pweDndDataserviceRecord, hdecode]
    rw [if_pos hstatus]
  simp only [packetFor, pweDndDataserviceMessage, hword]
  have hcases : m = .appBlockIdLatestRead ∨ m = .appBlockRead ∨ m = .appTransactionRead ∨
      m = .appArtifactRead ∨ m = .appPqTransactionSubmit ∨ m = .appBlockIdByHeightRead := by
    cases r <;> simp [methodOf] at hm <;> simp [← hm]
  rcases hcases with rfl | rfl | rfl | rfl | rfl | rfl
  · obtain ⟨record, hdecode, -⟩ := decode_failure (m := .appBlockIdLatestRead) rfl child hstatus
    rw [if_pos rfl]
    simp only [pweDndDataserviceBlockIdLatestGet, hdecode]
    exact ⟨_, rfl, Or.inr ⟨_, _, rfl⟩⟩
  · exact hrecord _ _ rfl
  · exact hrecord _ _ rfl
  · exact hrecord _ _ rfl
  · obtain ⟨record, hdecode, -⟩ := decode_failure (m := .appPqTransactionSubmit) rfl child hstatus
    rw [if_neg (by decide), if_neg (by decide), if_neg (by decide), if_neg (by decide), if_pos rfl]
    simp only [pweDndDataserviceTransactionSubmit, hdecode]
    exact ⟨_, rfl, Or.inr ⟨_, _, rfl⟩⟩
  · obtain ⟨record, hdecode, -⟩ := decode_failure (m := .appBlockIdByHeightRead) rfl child hstatus
    rw [if_neg (by decide), if_neg (by decide), if_neg (by decide), if_neg (by decide),
      if_neg (by decide), if_pos rfl]
    simp only [pweDndDataserviceBlockIdByHeightGet, hdecode]
    exact ⟨_, rfl, Or.inr ⟨_, _, rfl⟩⟩

/-! ### End to end -/

structure Sent (L : Library) (s : System) (m : Address) (r : ProtocolRequest) (q : ClientRequest)
    (d : Delivery) : Prop where
  passedOn : ∃ p id, dataserviceRequest L p r = some (.ok (id, q))
  packet : ∃ x, s.endpoint.mailboxContextTree m = some x ∧
    d.packet = overwrite q.encode 4 (be 4 x.context)

/-- The request is refused and the store is what it was; a request that can be decoded is refused
for its authority. -/
def Denied (E : Env) (s : Service) (q : ClientRequest) (d : Delivery) : Prop :=
  ∃ child e, (Encodable q → e = .notAuthorized) ∧
    decodeAndDispatch E s d = writeStatus d s q.method.code child (.error e) none

structure Agrees (verb : Uuid) (m : Method) (cap : ApiCap) : Prop where
  mapped : (verb, cap) ∈ userCapabilities
  only : ∀ verb', (verb', cap) ∈ userCapabilities → verb' = verb
  tested : ∀ decode packet decoded, (m, decode) ∈ childOperations → decode packet = .ok decoded →
    decoded.request.capability = cap

/-- What holds of the requests of every connection that has a data service context. -/
def WithinAuthority (s : System) : Prop :=
  ∀ (L : Library) (E : Env) (disk : Bytes → Store) (m : Address) (r : ProtocolRequest)
    (q : ClientRequest) (d : Delivery) (verb : Uuid), verbOf r = some verb → Sent L s m r q d →
    (∃ cap, Agrees verb q.method cap) ∧ ∃ o, s.opening m = some o ∧
      (∀ s' a st, decodeAndDispatch E ⟨s.endpoint.inst, disk⟩ d = some (s', some a, st) →
        a.status = .ok () → Granted o.control o.entityUuid verb) ∧
      (¬ Granted o.control o.entityUuid verb →
        Denied E ⟨s.endpoint.inst, disk⟩ q d ∧
          ∀ requestId offset child, ∃ b, packetFor L ⟨.dataservice, requestId, offset,
            responsePacket q.method.code child statusNotAuthorized none⟩ = some b ∧
            Carries L b offset statusNotAuthorized)

theorem agrees_of_verb {verb : Uuid} {m : Method} (hverb : verbOf r = some verb)
    (hm : methodOf r = some m) : ∃ cap, Agrees verb m cap := by
  obtain ⟨m', cap, hm', hmapped, hidx, -, honly⟩ := verb_bit_method hverb
  obtain rfl := Option.some.inj (hm.symm.trans hm')
  refine ⟨cap, hmapped, honly, ?_⟩
  intro decode packet decoded hmem hdecode
  exact ctorIdx_inj ((childOperations_capability hmem hdecode).trans hidx.symm)

/-- Without the triple the bit of the method is not set. -/
theorem unset_of_not_granted {s : System} {verb : Uuid} {o : Opening} {m : Method}
    (hverb : verbOf r = some verb) (hm : methodOf r = some m)
    (hbits : ∀ cap, bitcapIsset (s.endpoint.inst.children i).childcaps cap = true →
      cap = .llChildContextClose ∨ ∃ verb, (verb, cap) ∈ userCapabilities ∧
        Granted o.control o.entityUuid verb)
    (hnot : ¬ Granted o.control o.entityUuid verb) (cap : ApiCap) (hcap : cap.ctorIdx = m.ctorIdx) :
    bitcapIsset (s.endpoint.inst.children i).childcaps cap = false := by
  obtain ⟨m', cap', hm', -, hidx, hclose, hunique⟩ := verb_bit_method hverb
  obtain rfl := Option.some.inj (hm.symm.trans hm')
  obtain rfl := ctorIdx_inj (hcap.trans hidx.symm)
  by_contra hset
  rcases hbits cap (by simpa using hset) with hisClose | ⟨verb', hmem, hgranted⟩
  · exact hclose hisClose
  · exact hnot (hunique verb' hmem ▸ hgranted)

theorem withinAuthority_of_inv {s : System} (hs : SystemInv s) : WithinAuthority s := by
  intro L E disk m r q d verb hverb ⟨⟨p, id, hp⟩, x, hx, hd⟩
  obtain ⟨i, o, hi, ho, hopen, hbits⟩ := hs.granted hx
  obtain ⟨hmethod, decode, args, hmem, hpacket, hdecodes⟩ := passedOn_dataserviceRequest hp
  have hdispatch : decodeAndDispatch E ⟨s.endpoint.inst, disk⟩ d = dispatchChildRequest q.method
      decode E ⟨s.endpoint.inst, disk⟩ d (be 4 x.context ++ args) :=
    decodeAndDispatch_requestPacket hmem (hd.trans (hpacket x.context))
  have hlook : childContextLookup s.endpoint.inst x.context = .ok i :=
    (ChildContextSlots.childContextLookup_iff _ i).mpr ⟨hi, hopen⟩
  have hdenied : ¬ Granted o.control o.entityUuid verb →
      Denied E ⟨s.endpoint.inst, disk⟩ q d := by
    intro hnot
    have hunset := unset_of_not_granted hverb hmethod hbits hnot
    have hrefused : dispatchChildRequest q.method decode E ⟨s.endpoint.inst, disk⟩ d
        (be 4 x.context ++ args) = _ := dispatch_unauthorized hmem hlook hunset
    cases hdecode : decode (be 4 x.context ++ args) with
    | error e =>
      rw [hdecode] at hrefused
      refine ⟨0, e, ?_, hdispatch.trans hrefused⟩
      intro hq
      obtain ⟨decoded, hok⟩ := hdecodes hq x.context
      rw [hdecode] at hok
      cases hok
    | ok decoded =>
      rw [hdecode] at hrefused
      exact ⟨x.context, .notAuthorized, fun _ => rfl, hdispatch.trans hrefused⟩
  refine ⟨agrees_of_verb hverb hmethod, o, ho, ?_, ?_⟩
  · intro s' a st hserved hok
    by_contra hnot
    obtain ⟨child, e, -, heq⟩ := hdenied hnot
    rw [heq] at hserved
    have hstatus := ((writeStatus_cases hserved).2 a rfl).2.1
    rw [hok] at hstatus
    cases hstatus
  · intro hnot
    refine ⟨hdenied hnot, fun requestId offset child => ?_⟩
    exact packetFor_failure hmethod requestId offset child (by decide)

/-! ### The first connection -/

variable {S : Suite}

theorem step_contextOpen {e : Endpoint} {data returnAddress : Address} {caps : Bitcap}
    (hrunning : e.running = true) (hmailbox : e.mailboxContextTree data = none)
    (hcontext : ∀ c, e.contextMailboxTree c = none)
    (hcreate : (createChild e.inst caps false).isSome = true) (answer : Bytes) :
    ∃ x, (step e ⟨returnAddress, .contextOpen data caps, .none, answer⟩).mailboxContextTree data =
      some x := by
  obtain ⟨⟨inst, i⟩, hcreate⟩ := Option.isSome_iff_exists.mp hcreate
  have hdispatch : reqContextOpen e returnAddress data caps .none = ({ e with
      inst := inst
      owner := Function.update e.owner i data
      mailboxContextTree :=
        Function.update e.mailboxContextTree data (some ⟨data, BitVec.ofNat 32 i⟩)
      contextMailboxTree := Function.update e.contextMailboxTree (BitVec.ofNat 32 i)
        (some ⟨data, BitVec.ofNat 32 i⟩) }, contextReply 0) := by
    simp [reqContextOpen, hcreate, hmailbox, hcontext]
  refine ⟨⟨data, BitVec.ofNat 32 i⟩, ?_⟩
  simp [step, hrunning, decodeAndDispatchReq, hdispatch, contextReply]

/-- The first connection of all has an entry for its context. -/
theorem openContext_entry {s : System} {datadir : Bytes} {data returnAddress : Address}
    {o : Opening}
    (hendpoint : s.endpoint = endpointAdd (BitVec.allOnes 32) datadir)
    (ho : s.opening data = some o) :
    ∃ x, (next S s (.openContext data returnAddress .none)).endpoint.mailboxContextTree data =
      some x := by
  simp only [next, ho, hendpoint]
  exact step_contextOpen rfl rfl (fun _ => rfl)
    (ContextBijection.createChild_endpointAdd datadir o.caps) []

def controlled (s : System) (packets : List Bytes) : System :=
  packets.foldl (fun s packet => next shortSuite s (.control packet nothingFails)) s

def asked (packets : List Bytes) : System :=
  next shortSuite (controlled (start newControlContext (BitVec.allOnes 32) []) packets)
    (.requestContext 1 5 false)

def connected (packets : List Bytes) : System :=
  next shortSuite (asked packets) (.openContext 1 2 .none)

theorem controlled_run {first s : System} (hs : Run shortSuite first s) (packets : List Bytes) :
    Run shortSuite first (controlled s packets) ∧
      (controlled s packets).opening = s.opening ∧
      (controlled s packets).endpoint = s.endpoint := by
  induction packets generalizing s with
  | nil => exact ⟨hs, rfl, rfl⟩
  | cons packet packets ih => exact ih (Run.tail hs (a := .control packet nothingFails) trivial)

theorem connected_run {packets : List Bytes} {o : Opening}
    (ho : (asked packets).opening 1 = some o) :
    Run shortSuite (start newControlContext (BitVec.allOnes 32) []) (connected packets) ∧
      ∃ x, (connected packets).endpoint.mailboxContextTree 1 = some x := by
  obtain ⟨hrun, hopening, hendpoint⟩ :=
    controlled_run (s := start newControlContext (BitVec.allOnes 32) []) Run.start packets
  have hasked : Run shortSuite (start newControlContext (BitVec.allOnes 32) [])
      (asked packets) := by
    apply Run.tail hrun
    rw [Enabled, hopening]
    rfl
  have hsame : (asked packets).endpoint = endpointAdd (BitVec.allOnes 32) [] := by
    rw [asked, next]
    split
    · exact hendpoint
    · exact hendpoint
  constructor
  · apply Run.tail hasked
    rw [Enabled, ho]
    rfl
  · exact openContext_entry hsame ho

/-- In every state that the control API, the connections and the endpoint can reach. -/
theorem clients_stay_within_their_authority {S : Suite} {k : ControlContext} {apicaps : Bitcap}
    {datadir : Bytes} {s : System} (hrun : Run S (start k apicaps datadir) s) :
    WithinAuthority s :=
  withinAuthority_of_inv (run_inv hrun)

def submitter : List Bytes :=
  [(ControlRequest.authorizedEntityAdd 5 [7] [8]).encode,
    (ControlRequest.authorizedEntityCapabilityAdd 5 5 capabilityTransactionSubmit 0).encode]

theorem submitter_stays_within_its_authority :
    (∃ x, (connected submitter).endpoint.mailboxContextTree 1 = some x) ∧
      WithinAuthority (connected submitter) := by
  have hopen : ((asked submitter).opening 1).isSome = true := by decide +kernel
  obtain ⟨o, ho⟩ := Option.isSome_iff_exists.mp hopen
  obtain ⟨hrun, hentry⟩ := connected_run ho
  exact ⟨hentry, clients_stay_within_their_authority hrun⟩

def stranger : List Bytes := [(ControlRequest.authorizedEntityAdd 5 [7] [8]).encode]

/-- A submission with an empty certificate is refused for its size, which is tested before the
capability is. -/
theorem empty_certificate_is_refused_for_its_size :
    Run shortSuite (start newControlContext (BitVec.allOnes 32) []) (connected stranger) ∧
      (∃ o, (connected stranger).opening 1 = some o ∧
        ¬ Granted o.control o.entityUuid capabilityTransactionSubmit) ∧
      ∃ q d, Sent AnsweredOnce.sampleLibrary (connected stranger) 1 .transactionSubmit q d ∧
        ∀ E disk, decodeAndDispatch E ⟨(connected stranger).endpoint.inst, disk⟩ d =
          some (⟨(connected stranger).endpoint.inst, disk⟩,
            some ⟨Method.appPqTransactionSubmit.code, 0, .error .requestPacketInvalidSize, none⟩,
            .ok ()) := by
  have hopen : (((asked stranger).opening 1).map fun o =>
      ((o.control.authorizedEntityDict o.entityUuid).map fun entity => entity.capabilities)) =
        some (some []) := by
    decide +kernel
  obtain ⟨o, ho, hcaps⟩ := Option.map_eq_some_iff.mp hopen
  obtain ⟨hrun, x, hx⟩ := connected_run ho
  have hsame : (connected stranger).opening = (asked stranger).opening := by
    simp only [connected, next, ho]
  refine ⟨hrun, ⟨o, hsame ▸ ho, ?_⟩, .transactionSubmit 0 1 2 [], workingDelivery
    (overwrite (ClientRequest.transactionSubmit 0 1 2 []).encode 4 (be 4 x.context)),
    ⟨⟨AnsweredOnce.requestPacket .transactionSubmit 0 (be 16 (1 : Uuid) ++ be 16 (2 : Uuid)),
      ProtocolRequest.transactionSubmit.code, by decide +kernel⟩, x, hx, rfl⟩, ?_⟩
  · rintro ⟨entity, hentity, hmem⟩
    rw [hentity] at hcaps
    have hempty : entity.capabilities = [] := Option.some.inj hcaps
    rw [hempty] at hmem
    cases hmem
  · intro E disk
    have hmem : (Method.appPqTransactionSubmit, decodeRequestTransactionSubmit) ∈
        childOperations := by
      simp [childOperations]
    rw [decodeAndDispatch_requestPacket hmem
      (overwrite_requestPacket _ _ x.context (be 16 (1 : Uuid) ++ be 16 (2 : Uuid))),
        dispatchChildRequest]
    have hdecode : decodeRequestTransactionSubmit
        (be 4 x.context ++ (be 16 (1 : Uuid) ++ be 16 (2 : Uuid))) =
          .error .requestPacketInvalidSize := by
      rw [decodeRequestTransactionSubmit, decodeRequest, requestInit_append]
      rfl
    rw [hdecode]
    rfl

end AuthorizedRequests
