import Agentd.EndpointFiber

/-! # The translation of client requests

A request for the data service is decoded with the protocol library, encoded for the data service
and sent to the endpoint, which writes the child context of the connection into it. Any of the calls
in between may fail. Most handlers do not look at the status of the encoding; they send what is in
the buffer, and that was never written. -/
namespace TranslatedRequests

open ByteString
open DataserviceRecords (Uuid)
open DataserviceStore
open DataserviceRequests
open DataserviceDispatch hiding decodeAndDispatch
open DataserviceClient
open RequestCodec
open NotificationEndpoint (errorResponseMessage)
open DataEndpoint (Address MailboxContextEntry WriteMessage RequestMessage RequestBuffer)
open ClientProtocol (Library Status Decoded ProtocolRequest)
open AuthorizedRequests (overwrite_requestPacket)
open EndpointFiber (Trees Calls ReplyPayload cleanedUp cleanedUp_ne_zero)

/-! ### Handlers -/

/-- The statuses of the calls of a handler, zero for success; `decode` is that of a decoder that
could not allocate, `errorResponse` that of the function that sends an error response. -/
structure Failures where
  decode : Status
  encode : Status
  requestCreate : Status
  messageCreate : Status
  messageSend : Status
  cleanup : Status
  errorResponse : Status
  deriving DecidableEq

structure Passed where
  protocolRequestId : BitVec 32
  offset : BitVec 32
  payload : Option RequestBuffer
  deriving DecidableEq

/-- What a handler returns and sends, unless it releases a buffer that was never written. -/
inductive Dispatched where
  | undefined
  | handled (status : Status) (sent : Option Passed)
  deriving DecidableEq

theorem length_encode (q : ClientRequest) : 8 ≤ q.encode.length := by
  cases q <;>
  simp [ClientRequest.encode, encodeRequestRootContextInit, encodeRequestRootContextReduceCaps,
    encodeRequestChildContextCreate, encodeRequestChildContextClose, encodeRequestGlobalSettingsGet,
    encodeRequestGlobalSettingsSet, encodeRequestTransactionSubmit,
    encodeRequestTransactionGetFirst, encodeRequestTransactionGet, encodeRequestTransactionDrop,
    encodeRequestTransactionPromote, encodeRequestArtifactGet, encodeRequestBlockMake,
    encodeRequestBlockGet, encodeRequestBlockIdByHeightGet, encodeRequestLatestBlockIdGet,
    encodeRequestCanonizedTransactionGet, requestPacket] <;>
  omega

def requestBuffer (q : ClientRequest) : RequestBuffer := ⟨q.encode, length_encode q⟩

def sendRequest (f : Failures) (id offset : BitVec 32) (reqbuf : Option RequestBuffer) :
    Status × Option Passed :=
  if f.requestCreate ≠ 0 then (f.requestCreate, none)
  else if f.messageCreate ≠ 0 then (cleanedUp f.messageCreate f.cleanup, none)
  else if f.messageSend ≠ 0 then (cleanedUp f.messageSend f.cleanup, none)
  else (0, some ⟨id, offset, reqbuf⟩)

def decoding (f : Failures) (decoded : Except Status (BitVec 32 × ClientRequest)) :
    Except Status (BitVec 32 × ClientRequest) :=
  if f.decode ≠ 0 then .error f.decode else decoded

/-- The common part of the handlers, which look at the status of the encoding or not. What is not
sent is released, and so is a buffer that was not written. -/
def passOn (checksEncoding : Bool) (f : Failures) (offset : BitVec 32)
    (decoded : Except Status (BitVec 32 × ClientRequest)) : Dispatched :=
  match decoded with
  | .error e => .handled e none
  | .ok (id, q) =>
    let retval := if checksEncoding then f.encode else 0
    if retval ≠ 0 then .handled retval none
    else
      let reqbuf := if f.encode ≠ 0 then none else some (requestBuffer q)
      let (retval, sent) := sendRequest f id offset reqbuf
      if reqbuf = none ∧ sent = none then .undefined else .handled retval sent

variable (L : Library) (f : Failures) (offset : BitVec 32) (p : Bytes)

def dndLatestBlockIdGet : Dispatched := passOn true f offset ClientProtocol.dndLatestBlockIdGet

def dndTransactionSubmit : Dispatched :=
  passOn false f offset (decoding f (ClientProtocol.dndTransactionSubmit L p))

def dndBlockByIdGet : Dispatched :=
  passOn false f offset (decoding f (ClientProtocol.dndBlockByIdGet L p))

def dndBlockIdNextGet : Dispatched :=
  passOn false f offset (decoding f (ClientProtocol.dndBlockIdNextGet L p))

def dndBlockIdPrevGet : Dispatched :=
  passOn false f offset (decoding f (ClientProtocol.dndBlockIdPrevGet L p))

def dndBlockIdByHeightGet : Dispatched :=
  passOn true f offset (decoding f (ClientProtocol.dndBlockIdByHeightGet L p))

def dndTransactionByIdGet : Dispatched :=
  passOn false f offset (decoding f (ClientProtocol.dndTransactionByIdGet L p))

def dndTransactionIdNextGet : Dispatched :=
  passOn false f offset (decoding f (ClientProtocol.dndTransactionIdNextGet L p))

def dndTransactionIdPrevGet : Dispatched :=
  passOn false f offset (decoding f (ClientProtocol.dndTransactionIdPrevGet L p))

def dndTransactionBlockIdGet : Dispatched :=
  passOn false f offset (decoding f (ClientProtocol.dndTransactionBlockIdGet L p))

def dndArtifactFirstTransactionIdGet : Dispatched :=
  passOn false f offset (decoding f (ClientProtocol.dndArtifactFirstTransactionIdGet L p))

def dndArtifactLastTransactionIdGet : Dispatched :=
  passOn false f offset (decoding f (ClientProtocol.dndArtifactLastTransactionIdGet L p))

def dispatch : ProtocolRequest → Option Dispatched
  | .latestBlockIdGet => some (dndLatestBlockIdGet f offset)
  | .transactionSubmit => some (dndTransactionSubmit L f offset p)
  | .blockByIdGet => some (dndBlockByIdGet L f offset p)
  | .blockIdGetNext => some (dndBlockIdNextGet L f offset p)
  | .blockIdGetPrev => some (dndBlockIdPrevGet L f offset p)
  | .blockIdByHeightGet => some (dndBlockIdByHeightGet L f offset p)
  | .transactionByIdGet => some (dndTransactionByIdGet L f offset p)
  | .transactionIdGetNext => some (dndTransactionIdNextGet L f offset p)
  | .transactionIdGetPrev => some (dndTransactionIdPrevGet L f offset p)
  | .transactionIdGetBlockId => some (dndTransactionBlockIdGet L f offset p)
  | .artifactFirstTxnByIdGet => some (dndArtifactFirstTransactionIdGet L f offset p)
  | .artifactLastTxnByIdGet => some (dndArtifactLastTransactionIdGet L f offset p)
  | .assertLatestBlockId => none
  | .assertLatestBlockIdCancel => none
  | .extendedApiEnable => none
  | .extendedApiSendrecv => none
  | .extendedApiSendresp => none
  | .statusGet => none
  | .close => none

/-- The status of `protocolservice_protocol_decode_and_dispatch`, what went to the endpoint, and the
message for the client. -/
inductive Result where
  | undefined
  | done (status : Status) (sent : Option Passed) (response : Option WriteMessage)

/-- A failure is answered, and is fatal only when that fails too. -/
def respond (r : ProtocolRequest) : Dispatched → Result
  | .undefined => .undefined
  | .handled status sent =>
    if status ≠ 0 then
      if f.errorResponse ≠ 0 then .done f.errorResponse sent none
      else .done 0 sent (some (errorResponseMessage r.code status offset))
    else .done 0 sent none

def decodeAndDispatch (r : ProtocolRequest) : Option Result :=
  (dispatch L f offset p r).map (respond f offset r)

/-! ### What is asked of a translation -/

/-- What a client asks the data service for with a packet, under a child context. -/
inductive Asks (L : Library) (p : Bytes) (child : BitVec 32) :
    ProtocolRequest → ClientRequest → Prop
  | latestBlockIdGet : Asks L p child .latestBlockIdGet (.latestBlockIdGet child)
  | transactionSubmit {d} (h : L.decodeReqTransactionSubmit p = .ok d) :
    Asks L p child .transactionSubmit
      (.transactionSubmit child d.fields.txnId d.fields.artifactId d.fields.cert)
  | blockByIdGet {d} (h : L.decodeReqId .blockByIdGet p = .ok d) :
    Asks L p child .blockByIdGet (.blockGet child d.fields true)
  | blockIdGetNext {d} (h : L.decodeReqId .blockIdGetNext p = .ok d) :
    Asks L p child .blockIdGetNext (.blockGet child d.fields false)
  | blockIdGetPrev {d} (h : L.decodeReqId .blockIdGetPrev p = .ok d) :
    Asks L p child .blockIdGetPrev (.blockGet child d.fields false)
  | blockIdByHeightGet {d} (h : L.decodeReqBlockIdByHeightGet p = .ok d) :
    Asks L p child .blockIdByHeightGet (.blockIdByHeightGet child d.fields)
  | transactionByIdGet {d} (h : L.decodeReqId .transactionByIdGet p = .ok d) :
    Asks L p child .transactionByIdGet (.canonizedTransactionGet child d.fields true)
  | transactionIdGetNext {d} (h : L.decodeReqId .transactionIdGetNext p = .ok d) :
    Asks L p child .transactionIdGetNext (.canonizedTransactionGet child d.fields false)
  | transactionIdGetPrev {d} (h : L.decodeReqId .transactionIdGetPrev p = .ok d) :
    Asks L p child .transactionIdGetPrev (.canonizedTransactionGet child d.fields false)
  | transactionIdGetBlockId {d} (h : L.decodeReqId .transactionIdGetBlockId p = .ok d) :
    Asks L p child .transactionIdGetBlockId (.canonizedTransactionGet child d.fields false)
  | artifactFirstTxnByIdGet {d} (h : L.decodeReqId .artifactFirstTxnByIdGet p = .ok d) :
    Asks L p child .artifactFirstTxnByIdGet (.artifactGet child d.fields)
  | artifactLastTxnByIdGet {d} (h : L.decodeReqId .artifactLastTxnByIdGet p = .ok d) :
    Asks L p child .artifactLastTxnByIdGet (.artifactGet child d.fields)

/-- The packet that the endpoint writes to the data service for what it was sent from `returnAddr`,
whatever becomes of the answer. -/
def Reaches (t : Trees) (returnAddr : Address) (m : Passed) (packet : Bytes) : Prop :=
  ∃ b, m.payload = some b ∧ ∀ (c : Calls) (pointer : ReplyPayload), c.sendreq = 0 →
    (EndpointFiber.decodeAndDispatch t pointer
      ⟨returnAddr, .dataserviceReq m.protocolRequestId m.offset b⟩ c).sent = some packet

/-- The data service decodes what the client asked for, under the child context; or nothing was sent
and the client gets an error response. -/
def Faithful (L : Library) (t : Trees) (returnAddr : Address) (child : BitVec 32)
    (r : ProtocolRequest) (offset : BitVec 32) (p : Bytes) (result : Result) : Prop :=
  ∃ status sent response, result = .done status sent response ∧
    ((∃ m packet q, sent = some m ∧ Reaches t returnAddr m packet ∧ Asks L p child r q ∧
        decodePacket false packet = .ok (q.method.code, q)) ∨
      (sent = none ∧ ∃ e, e ≠ 0 ∧ response = some (errorResponseMessage r.code e offset)))

structure FailsWithStatus (L : Library) : Prop where
  decodeReqId : ∀ r p e, L.decodeReqId r p = .error e → e ≠ 0
  decodeReqBlockIdByHeightGet : ∀ p e, L.decodeReqBlockIdByHeightGet p = .error e → e ≠ 0
  decodeReqTransactionSubmit : ∀ p e, L.decodeReqTransactionSubmit p = .error e → e ≠ 0

def checksEncoding : ProtocolRequest → Bool
  | .latestBlockIdGet => true
  | .blockIdByHeightGet => true
  | _ => false

/-- What a handler encodes, unless it fails before. -/
def decoded (r : ProtocolRequest) : Option (Except Status (BitVec 32 × ClientRequest)) :=
  (ClientProtocol.dataserviceRequest L p r).map fun d =>
    if r = .latestBlockIdGet then d else decoding f d

/-- The request is sent once it was encoded. -/
def Failures.Sends (f : Failures) : Prop :=
  f.requestCreate = 0 ∧ f.messageCreate = 0 ∧ f.messageSend = 0

/-- When a request is translated as it should be: a failed encoding is looked at, what is sent is a
request that the data service takes, and a failure can be answered. -/
def Translates (L : Library) (f : Failures) (r : ProtocolRequest) (p : Bytes) : Prop :=
  match decoded L f p r with
  | some (.ok (_, q)) =>
    (f.encode ≠ 0 → checksEncoding r = true) ∧
      (f.encode = 0 → f.Sends → Encodable q) ∧
      (f.encode ≠ 0 ∨ ¬ f.Sends → f.errorResponse = 0)
  | _ => f.errorResponse = 0

section Translation

variable {L f offset p} {r : ProtocolRequest} {id child : BitVec 32} {q : ClientRequest}
  {t : Trees} {returnAddr : Address} {entry : MailboxContextEntry} {e : Status}
  {result : Result} {b : RequestBuffer} {packet : Bytes}

theorem decodeAndDispatch_eq :
    decodeAndDispatch L f offset p r =
      (decoded L f p r).map fun d => respond f offset r (passOn (checksEncoding r) f offset d) := by
  cases r <;> rfl

theorem decodeAndDispatch_of_decoded {d : Except Status (BitVec 32 × ClientRequest)}
    (h : decoded L f p r = some d) : decodeAndDispatch L f offset p r =
      some (respond f offset r (passOn (checksEncoding r) f offset d)) := by
  rw [decodeAndDispatch_eq, h]
  rfl

/-! ### What the handlers decode -/

theorem dndDataservice_ok {α : Type} {decoded : Except Status (Decoded α)}
    {request : α → ClientRequest}
    (h : ClientProtocol.dndDataservice decoded request = .ok (id, q)) :
    ∃ d, decoded = .ok d ∧ q = request d.fields := by
  cases decoded with
  | error e => cases h
  | ok d =>
    cases h
    exact ⟨d, rfl, rfl⟩

theorem dndDataservice_error {α : Type} {decoded : Except Status (Decoded α)}
    {request : α → ClientRequest} (h : ClientProtocol.dndDataservice decoded request = .error e) :
    decoded = .error e := by
  cases decoded with
  | error e =>
    cases h
    rfl
  | ok d => cases h

/-- The endpoint makes a request for the child context `child` of what a handler encodes. -/
structure Becomes (L : Library) (p : Bytes) (child : BitVec 32) (r : ProtocolRequest)
    (q q' : ClientRequest) : Prop where
  asks : Asks L p child r q'
  encode : overwrite q.encode 4 (be 4 child) = q'.encode
  encodable : Encodable q' ↔ Encodable q

theorem becomes_of_request (h : ClientProtocol.dataserviceRequest L p r = some (.ok (id, q)))
    (child : BitVec 32) : ∃ q', Becomes L p child r q q' := by
  cases r with
  | latestBlockIdGet =>
    cases h
    exact ⟨_, .latestBlockIdGet, overwrite_requestPacket .., Iff.rfl⟩
  | transactionSubmit =>
    simp only [ClientProtocol.dataserviceRequest, ClientProtocol.dndTransactionSubmit,
      Option.some.injEq] at h
    cases hd : L.decodeReqTransactionSubmit p with
    | error e =>
      rw [hd] at h
      cases h
    | ok d =>
      simp only [hd] at h
      split at h
      · cases h
      · cases h
        exact ⟨_, .transactionSubmit hd, overwrite_requestPacket .., Iff.rfl⟩
  | blockByIdGet =>
    obtain ⟨d, hd, rfl⟩ := dndDataservice_ok (Option.some.inj h)
    exact ⟨_, .blockByIdGet hd, overwrite_requestPacket .., Iff.rfl⟩
  | blockIdGetNext =>
    obtain ⟨d, hd, rfl⟩ := dndDataservice_ok (Option.some.inj h)
    exact ⟨_, .blockIdGetNext hd, overwrite_requestPacket .., Iff.rfl⟩
  | blockIdGetPrev =>
    obtain ⟨d, hd, rfl⟩ := dndDataservice_ok (Option.some.inj h)
    exact ⟨_, .blockIdGetPrev hd, overwrite_requestPacket .., Iff.rfl⟩
  | blockIdByHeightGet =>
    obtain ⟨d, hd, rfl⟩ := dndDataservice_ok (Option.some.inj h)
    exact ⟨_, .blockIdByHeightGet hd, overwrite_requestPacket .., Iff.rfl⟩
  | transactionByIdGet =>
    obtain ⟨d, hd, rfl⟩ := dndDataservice_ok (Option.some.inj h)
    exact ⟨_, .transactionByIdGet hd, overwrite_requestPacket .., Iff.rfl⟩
  | transactionIdGetNext =>
    obtain ⟨d, hd, rfl⟩ := dndDataservice_ok (Option.some.inj h)
    exact ⟨_, .transactionIdGetNext hd, overwrite_requestPacket .., Iff.rfl⟩
  | transactionIdGetPrev =>
    obtain ⟨d, hd, rfl⟩ := dndDataservice_ok (Option.some.inj h)
    exact ⟨_, .transactionIdGetPrev hd, overwrite_requestPacket .., Iff.rfl⟩
  | transactionIdGetBlockId =>
    obtain ⟨d, hd, rfl⟩ := dndDataservice_ok (Option.some.inj h)
    exact ⟨_, .transactionIdGetBlockId hd, overwrite_requestPacket .., Iff.rfl⟩
  | artifactFirstTxnByIdGet =>
    obtain ⟨d, hd, rfl⟩ := dndDataservice_ok (Option.some.inj h)
    exact ⟨_, .artifactFirstTxnByIdGet hd, overwrite_requestPacket .., Iff.rfl⟩
  | artifactLastTxnByIdGet =>
    obtain ⟨d, hd, rfl⟩ := dndDataservice_ok (Option.some.inj h)
    exact ⟨_, .artifactLastTxnByIdGet hd, overwrite_requestPacket .., Iff.rfl⟩
  | _ => cases h

theorem request_error_ne_zero (hL : FailsWithStatus L)
    (h : ClientProtocol.dataserviceRequest L p r = some (.error e)) : e ≠ 0 := by
  cases r with
  | latestBlockIdGet => cases h
  | transactionSubmit =>
    simp only [ClientProtocol.dataserviceRequest, ClientProtocol.dndTransactionSubmit,
      Option.some.injEq] at h
    cases hd : L.decodeReqTransactionSubmit p with
    | error e' =>
      simp only [hd] at h
      cases h
      exact hL.decodeReqTransactionSubmit p _ hd
    | ok d =>
      simp only [hd] at h
      split at h
      · cases h
        decide
      · cases h
  | blockIdByHeightGet =>
    exact hL.decodeReqBlockIdByHeightGet p _ (dndDataservice_error (Option.some.inj h))
  | assertLatestBlockId => cases h
  | assertLatestBlockIdCancel => cases h
  | extendedApiEnable => cases h
  | extendedApiSendrecv => cases h
  | extendedApiSendresp => cases h
  | statusGet => cases h
  | close => cases h
  | _ => exact hL.decodeReqId _ p _ (dndDataservice_error (Option.some.inj h))

/-- A failure of a decoder, or of the test of the size. -/
theorem decoded_error_ne_zero (hL : FailsWithStatus L) (h : decoded L f p r = some (.error e)) :
    e ≠ 0 := by
  obtain ⟨d, hd, hdecoding⟩ := Option.map_eq_some_iff.mp h
  split at hdecoding
  · subst hdecoding
    exact request_error_ne_zero hL hd
  · unfold decoding at hdecoding
    split at hdecoding
    · rename_i hfails
      cases hdecoding
      exact hfails
    · subst hdecoding
      exact request_error_ne_zero hL hd

theorem decoded_ok (h : decoded L f p r = some (.ok (id, q))) :
    ClientProtocol.dataserviceRequest L p r = some (.ok (id, q)) := by
  obtain ⟨d, hd, hdecoding⟩ := Option.map_eq_some_iff.mp h
  split at hdecoding
  · rw [hd, hdecoding]
  · unfold decoding at hdecoding
    split at hdecoding
    · cases hdecoding
    · rw [hd, hdecoding]

/-- A packet asks for one thing. -/
theorem Asks.unique {q' : ClientRequest} (h : Asks L p child r q) (h' : Asks L p child r q') :
    q = q' := by
  cases h with
  | latestBlockIdGet =>
    cases h'
    rfl
  | _ hd =>
    cases h'
    rename_i hd'
    rw [hd] at hd'
    cases hd'
    rfl

/-! ### What the endpoint and the data service make of it -/

theorem reaches_iff (hentry : t.mailboxContextTree returnAddr = some entry) :
    Reaches t returnAddr ⟨id, offset, some b⟩ packet ↔
      packet = overwrite b.bytes 4 (be 4 entry.context) := by
  have hlook (c : Calls) (pointer : ReplyPayload) (hsend : c.sendreq = 0) :
      (EndpointFiber.decodeAndDispatch t pointer ⟨returnAddr, .dataserviceReq id offset b⟩ c).sent =
        some (overwrite b.bytes 4 (be 4 entry.context)) := by
    simp only [EndpointFiber.decodeAndDispatch, EndpointFiber.reqDataserviceReq, hentry]
    rw [if_neg (not_not.mpr hsend)]
    split
    · rfl
    · rfl
  constructor
  · rintro ⟨b', hb, hsent⟩
    cases hb
    have hwritten := hsent (EndpointFiber.callsOf .none []) .null rfl
    rw [hlook _ _ rfl] at hwritten
    exact (Option.some.inj hwritten).symm
  · rintro rfl
    exact ⟨b, rfl, hlook⟩

theorem decodePacket_empty_certificate (child : BitVec 32) (txnId artifactId : Uuid) :
    decodePacket false (ClientRequest.transactionSubmit child txnId artifactId []).encode =
      .error .requestPacketInvalidSize := by
  have hm : handlerOf Method.appPqTransactionSubmit.code =
      some (.childRequest .appPqTransactionSubmit decodeRequestTransactionSubmit) := rfl
  rw [ClientRequest.encode, encodeRequestTransactionSubmit, requestPacket, decodePacket_append hm,
    decodePayload, decodeRequestTransactionSubmit, decodeRequest, requestInit_append]
  simp [bind, Except.bind, Except.map]

/-- The data service takes a request of a client exactly when its certificate is not empty. -/
theorem decodes_iff (h : Asks L p child r q) :
    decodePacket false q.encode = .ok (q.method.code, q) ↔ Encodable q := by
  constructor
  · intro hdecode
    cases h with
    | transactionSubmit hd =>
      intro hempty
      rw [hempty, decodePacket_empty_certificate] at hdecode
      cases hdecode
    | _ => trivial
  · exact decodePacket_encode

/-! ### Faithful translations -/

theorem done_inj {status status' : Status} {sent sent' : Option Passed}
    {response response' : Option WriteMessage}
    (h : Result.done status sent response = .done status' sent' response') :
    status = status' ∧ sent = sent' ∧ response = response' := by
  cases h
  exact ⟨rfl, rfl, rfl⟩

/-- When nothing was sent, it depends on the error response. -/
theorem faithful_failed_iff (he : e ≠ 0) :
    Faithful L t returnAddr child r offset p (respond f offset r (.handled e none)) ↔
      f.errorResponse = 0 := by
  rw [respond, if_pos he]
  by_cases herror : f.errorResponse = 0
  · rw [if_neg (not_not.mpr herror)]
    exact ⟨fun _ => herror, fun _ => ⟨_, _, _, rfl, Or.inr ⟨rfl, e, he, rfl⟩⟩⟩
  · rw [if_pos herror]
    constructor
    · rintro ⟨status, sent, response, hresult, hfaithful⟩
      obtain ⟨-, rfl, rfl⟩ := done_inj hresult
      rcases hfaithful with ⟨m, -, -, hm, -⟩ | ⟨-, e', -, hresponse⟩
      · cases hm
      · cases hresponse
    · intro h
      exact absurd h herror

/-- When the request was sent, it depends on the data service. -/
theorem faithful_sent_iff (hentry : t.mailboxContextTree returnAddr = some entry)
    (h : ClientProtocol.dataserviceRequest L p r = some (.ok (id, q))) :
    Faithful L t returnAddr entry.context r offset p
      (respond f offset r (.handled 0 (some ⟨id, offset, some (requestBuffer q)⟩))) ↔
      Encodable q := by
  obtain ⟨q', hbecomes⟩ := becomes_of_request h entry.context
  rw [respond, if_neg (by simp), ← hbecomes.encodable]
  have hpacket : overwrite (requestBuffer q).bytes 4 (be 4 entry.context) = q'.encode :=
    hbecomes.encode
  constructor
  · rintro ⟨status, sent, response, hresult, hfaithful⟩
    obtain ⟨-, rfl, -⟩ := done_inj hresult
    rcases hfaithful with ⟨m, packet, q'', hm, hreaches, hasks, hdecode⟩ | ⟨hnone, -⟩
    · cases hm
      rw [reaches_iff hentry, hpacket] at hreaches
      rw [hasks.unique hbecomes.asks, hreaches] at hdecode
      exact (decodes_iff hbecomes.asks).mp hdecode
    · cases hnone
  · intro hencodable
    refine ⟨_, _, _, rfl, Or.inl ⟨_, q'.encode, q', rfl, ?_, hbecomes.asks, ?_⟩⟩
    · rw [reaches_iff hentry, hpacket]
    · exact (decodes_iff hbecomes.asks).mpr hencodable

/-- A buffer that was never written is not what the client asked for, sent or not. -/
theorem not_faithful_unwritten {dispatched : Dispatched}
    (h : dispatched = .undefined ∨ dispatched = .handled 0 (some ⟨id, offset, none⟩)) :
    ¬ Faithful L t returnAddr child r offset p (respond f offset r dispatched) := by
  rintro ⟨status, sent, response, hresult, hfaithful⟩
  rcases h with rfl | rfl
  · cases hresult
  · rw [respond, if_neg (by simp)] at hresult
    obtain ⟨-, rfl, -⟩ := done_inj hresult
    rcases hfaithful with ⟨m, packet, -, hm, ⟨b, hb, -⟩, -⟩ | ⟨hnone, -⟩
    · cases hm
      cases hb
    · cases hnone

theorem sendRequest_of_sends (h : f.Sends) (reqbuf : Option RequestBuffer) :
    sendRequest f id offset reqbuf = (0, some ⟨id, offset, reqbuf⟩) := by
  obtain ⟨hrequest, hmessage, hsend⟩ := h
  rw [sendRequest, if_neg (not_not.mpr hrequest), if_neg (not_not.mpr hmessage),
    if_neg (not_not.mpr hsend)]

theorem sendRequest_of_not_sends (h : ¬ f.Sends) (reqbuf : Option RequestBuffer) :
    ∃ e, e ≠ 0 ∧ sendRequest f id offset reqbuf = (e, none) := by
  unfold sendRequest
  by_cases hrequest : f.requestCreate = 0
  · rw [if_neg (not_not.mpr hrequest)]
    by_cases hmessage : f.messageCreate = 0
    · rw [if_neg (not_not.mpr hmessage)]
      have hsend : f.messageSend ≠ 0 := fun hsend => h ⟨hrequest, hmessage, hsend⟩
      rw [if_pos hsend]
      exact ⟨_, cleanedUp_ne_zero hsend, rfl⟩
    · rw [if_pos hmessage]
      exact ⟨_, cleanedUp_ne_zero hmessage, rfl⟩
  · rw [if_pos hrequest]
    exact ⟨_, hrequest, rfl⟩

/-- What becomes of a request whose buffer was written. -/
theorem passOn_encoded {checks : Bool} (hencode : f.encode = 0) :
    passOn checks f offset (.ok (id, q)) =
      .handled (sendRequest f id offset (some (requestBuffer q))).1
        (sendRequest f id offset (some (requestBuffer q))).2 := by
  have hretval : ¬ (if checks then f.encode else 0) ≠ 0 := by
    cases checks with
    | false => simp
    | true => exact not_not.mpr hencode
  unfold passOn
  dsimp only
  rw [if_neg hretval, if_neg (not_not.mpr hencode), if_neg (by simp)]

theorem passOn_checked (hencode : f.encode ≠ 0) :
    passOn true f offset (.ok (id, q)) = .handled f.encode none := by
  unfold passOn
  dsimp only
  rw [if_pos rfl, if_pos hencode]

/-- What becomes of one whose buffer was not written, when nobody looks at the status. -/
theorem passOn_unwritten (id offset : BitVec 32) (q : ClientRequest) (hencode : f.encode ≠ 0) :
    passOn false f offset (.ok (id, q)) = .undefined ∨
      passOn false f offset (.ok (id, q)) = .handled 0 (some ⟨id, offset, none⟩) := by
  unfold passOn
  dsimp only
  rw [if_neg Bool.false_ne_true, if_neg (not_not.mpr rfl), if_pos hencode]
  by_cases hsends : f.Sends
  · right
    rw [sendRequest_of_sends hsends, if_neg (by simp)]
  · left
    obtain ⟨e, -, hsend⟩ := sendRequest_of_not_sends hsends none
    rw [hsend, if_pos ⟨rfl, rfl⟩]

/-- A request of a connection with a child context is translated as the client means it, or refused,
exactly when its encoding succeeds or its handler looks at the status of that, what is sent is taken
by the data service, and what is not sent can be answered. -/
theorem faithful_iff (hL : FailsWithStatus L)
    (hentry : t.mailboxContextTree returnAddr = some entry)
    (h : decodeAndDispatch L f offset p r = some result) :
    Faithful L t returnAddr entry.context r offset p result ↔ Translates L f r p := by
  rw [decodeAndDispatch_eq] at h
  obtain ⟨d, hd, rfl⟩ := Option.map_eq_some_iff.mp h
  rw [Translates, hd]
  cases d with
  | error e => exact faithful_failed_iff (decoded_error_ne_zero hL hd)
  | ok d =>
    obtain ⟨id, q⟩ := d
    have hrequest := decoded_ok hd
    dsimp only
    by_cases hencode : f.encode = 0
    · rw [passOn_encoded hencode]
      by_cases hsends : f.Sends
      · rw [sendRequest_of_sends hsends, faithful_sent_iff hentry hrequest]
        simp [hencode, hsends]
      · obtain ⟨e, he, hsend⟩ := sendRequest_of_not_sends hsends (some (requestBuffer q))
        rw [hsend, faithful_failed_iff he]
        exact ⟨fun herror => ⟨fun hne => absurd hencode hne, fun _ h => absurd h hsends,
            fun _ => herror⟩,
          fun htranslates => htranslates.2.2 (Or.inr hsends)⟩
    · cases hchecks : checksEncoding r with
      | false =>
        constructor
        · intro hfaithful
          exact absurd hfaithful (not_faithful_unwritten (passOn_unwritten id offset q hencode))
        · intro htranslates
          cases htranslates.1 hencode
      | true =>
        rw [passOn_checked hencode, faithful_failed_iff hencode]
        exact ⟨fun herror => ⟨fun _ => rfl, fun hz => absurd hz hencode, fun _ => herror⟩,
          fun htranslates => htranslates.2.2 (Or.inl hencode)⟩

end Translation

/-! ### A request for a block -/

def nothingFails : Failures := ⟨0, 0, 0, 0, 0, 0, 0⟩

def encodingFails : Failures :=
  { nothingFails with encode := ClientAnswers.statusOfError .outOfMemory }

def oneConnection : Trees :=
  ⟨fun a => if a = 1 then some ⟨1, 3⟩ else none, fun c => if c = 3 then some ⟨1, 3⟩ else none⟩

def blockBefore : Bytes := AnsweredOnce.requestPacket .blockIdGetPrev 7 (be 16 (9 : Uuid))

theorem sampleLibrary_failsWithStatus : FailsWithStatus AnsweredOnce.sampleLibrary := by
  have hsized {α : Type} (size : ℕ) (fields : Bytes → α) (p : Bytes) (e : Status)
      (h : AnsweredOnce.decodeSized size fields p = .error e) : e ≠ 0 := by
    unfold AnsweredOnce.decodeSized at h
    split at h
    · cases h
    · cases h
      decide
  exact ⟨fun _ => hsized _ _, hsized _ _, hsized _ _⟩

/-- What the fiber decodes it to, whether its encoding fails or not. -/
theorem decoded_blockBefore {f : Failures} (hf : f.decode = 0) :
    decoded AnsweredOnce.sampleLibrary f blockBefore .blockIdGetPrev =
      some (.ok (ProtocolRequest.blockIdGetPrev.code, .blockGet 0 9 false)) := by
  have hrequest : ClientProtocol.dataserviceRequest AnsweredOnce.sampleLibrary blockBefore
      .blockIdGetPrev = some (.ok (ProtocolRequest.blockIdGetPrev.code, .blockGet 0 9 false)) := by
    decide +kernel
  rw [decoded, hrequest, Option.map_some, if_neg (by decide), decoding, if_neg (not_not.mpr hf)]

theorem block_request_is_translated :
    ∃ result, decodeAndDispatch AnsweredOnce.sampleLibrary nothingFails 7 blockBefore
        .blockIdGetPrev = some result ∧
      Faithful AnsweredOnce.sampleLibrary oneConnection 1 3 .blockIdGetPrev 7 blockBefore
        result := by
  have hdecoded := decoded_blockBefore (show nothingFails.decode = 0 from rfl)
  have hdispatch : decodeAndDispatch AnsweredOnce.sampleLibrary nothingFails 7 blockBefore
      .blockIdGetPrev = some _ :=
    decodeAndDispatch_of_decoded hdecoded
  have hentry : oneConnection.mailboxContextTree 1 = some ⟨1, 3⟩ := rfl
  refine ⟨_, hdispatch, (faithful_iff sampleLibrary_failsWithStatus hentry hdispatch).mpr ?_⟩
  rw [Translates, hdecoded]
  exact ⟨fun hne => absurd rfl hne, fun _ _ => trivial, fun _ => rfl⟩

/-- The handler goes on without a packet, and the client gets no error response. -/
theorem unencoded_request_is_sent :
    decodeAndDispatch AnsweredOnce.sampleLibrary encodingFails 7 blockBefore .blockIdGetPrev =
        some (.done 0 (some ⟨ProtocolRequest.blockIdGetPrev.code, 7, none⟩) none) ∧
      ¬ Faithful AnsweredOnce.sampleLibrary oneConnection 1 3 .blockIdGetPrev 7 blockBefore
        (.done 0 (some ⟨ProtocolRequest.blockIdGetPrev.code, 7, none⟩) none) := by
  have hdecoded := decoded_blockBefore (show encodingFails.decode = 0 from rfl)
  constructor
  · rw [decodeAndDispatch_of_decoded hdecoded]
    rfl
  · rintro ⟨status, sent, response, hresult, hfaithful⟩
    obtain ⟨-, rfl, rfl⟩ := done_inj hresult
    rcases hfaithful with ⟨m, packet, -, hm, ⟨b, hb, -⟩, -⟩ | ⟨hnone, -⟩
    · cases hm
      cases hb
    · cases hnone

end TranslatedRequests
