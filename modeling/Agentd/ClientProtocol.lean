import Agentd.NotificationEndpoint
import Agentd.ResponseCodec

/-! # The protocol of the clients

What a client asks and how it is answered: the request packets, the requests that a protocol fiber
makes of them for the data service, and the packets that a write fiber writes for the messages in
its mailbox. The packets are encoded and decoded by a library that is not part of the service. -/
namespace ClientProtocol

open ByteString
open DataserviceRecords
open DataserviceClient (maxTransactionCertificateSize)
open DataserviceDispatch
open RequestCodec
open ResponseCodec
open DataEndpoint
open NotificationEndpoint

/-! ### Requests -/

inductive ProtocolRequest where
  | latestBlockIdGet
  | transactionSubmit
  | blockByIdGet
  | blockIdGetNext
  | blockIdGetPrev
  | blockIdByHeightGet
  | transactionByIdGet
  | transactionIdGetNext
  | transactionIdGetPrev
  | transactionIdGetBlockId
  | artifactFirstTxnByIdGet
  | artifactLastTxnByIdGet
  | assertLatestBlockId
  | assertLatestBlockIdCancel
  | extendedApiEnable
  | extendedApiSendrecv
  | extendedApiSendresp
  | statusGet
  | close
  deriving DecidableEq, Repr

namespace ProtocolRequest

def code : ProtocolRequest → BitVec 32
  | latestBlockIdGet => 0x02
  | transactionSubmit => 0x03
  | blockByIdGet => 0x04
  | blockIdGetNext => 0x05
  | blockIdGetPrev => 0x06
  | blockIdByHeightGet => 0x07
  | transactionByIdGet => 0x10
  | transactionIdGetNext => 0x11
  | transactionIdGetPrev => 0x12
  | transactionIdGetBlockId => 0x13
  | artifactFirstTxnByIdGet => 0x20
  | artifactLastTxnByIdGet => 0x21
  | assertLatestBlockId => reqIdAssertLatestBlockId
  | assertLatestBlockIdCancel => reqIdAssertLatestBlockIdCancel
  | extendedApiEnable => 0x50
  | extendedApiSendrecv => 0x51
  | extendedApiSendresp => 0x53
  | statusGet => 0xA000
  | close => 0xFFFF

def all : List ProtocolRequest :=
  [latestBlockIdGet, transactionSubmit, blockByIdGet, blockIdGetNext, blockIdGetPrev,
    blockIdByHeightGet, transactionByIdGet, transactionIdGetNext, transactionIdGetPrev,
    transactionIdGetBlockId, artifactFirstTxnByIdGet, artifactLastTxnByIdGet, assertLatestBlockId,
    assertLatestBlockIdCancel, extendedApiEnable, extendedApiSendrecv, extendedApiSendresp,
    statusGet, close]

def ofCode (code : BitVec 32) : Option ProtocolRequest := all.find? (·.code = code)

theorem code_of_ofCode {c : BitVec 32} {r : ProtocolRequest} (h : ofCode c = some r) :
    r.code = c := by
  have hfound := List.find?_some h
  simpa using hfound

end ProtocolRequest

abbrev Header := BitVec 32 × BitVec 32

def wordAt (p : Bytes) (i : ℕ) : BitVec 32 := bits 32 (slice p i 4)

/-- In a response the status stands between the request id and the offset. -/
def responseHeader (p : Bytes) : Header := (wordAt p 0, wordAt p 8)

theorem responseHeader_errorResponseMessage (requestId status offset : BitVec 32) :
    responseHeader (errorResponseMessage requestId status offset).payload =
      (requestId, offset) := by
  have hfirst : slice (be 4 requestId ++ be 4 status ++ be 4 offset) 0 4 = be 4 requestId := by
    rw [List.append_assoc]
    exact slice_append_self _ _ (by simp)
  have hlast : slice (be 4 requestId ++ be 4 status ++ be 4 offset) 8 4 = be 4 offset := by
    rw [slice_append_skip _ _ _ (by simp)]
    exact slice_be offset
  simp only [responseHeader, wordAt, errorResponseMessage, hfirst, hlast, bits_be]

/-! ### The library -/

abbrev Status := BitVec 32

structure Decoded (α : Type) where
  requestId : BitVec 32
  offset : BitVec 32
  fields : α
  deriving DecidableEq

structure SubmitFields where
  txnId : Uuid
  artifactId : Uuid
  cert : Bytes
  deriving DecidableEq

structure ExtendedApiFields where
  entityId : Uuid
  verbId : Uuid
  requestBody : Bytes
  deriving DecidableEq

/-- `protocol_req_extended_api_response`; its offset has 64 bits. -/
structure ExtendedApiResponse where
  offset : BitVec 64
  status : Status
  responseBody : Bytes
  deriving DecidableEq

inductive ResponseBody where
  | empty
  | id (id : Uuid)
  | block (node : DataBlockNode) (data : Bytes)
  | transaction (node : DataTransactionNode) (data : Bytes)
  | data (data : Bytes)

/-- The functions of the protocol library, a family of them by the request where they only differ in
that, and the statuses that come from elsewhere. -/
structure Library where
  decodeReq : ProtocolRequest → Bytes → Except Status (Decoded Unit)
  decodeReqId : ProtocolRequest → Bytes → Except Status (Decoded Uuid)
  decodeReqBlockIdByHeightGet : Bytes → Except Status (Decoded (BitVec 64))
  decodeReqTransactionSubmit : Bytes → Except Status (Decoded SubmitFields)
  decodeReqExtendedApi : Bytes → Except Status (Decoded ExtendedApiFields)
  decodeReqExtendedApiResponse : Bytes → Except Status ExtendedApiResponse
  encodeResp : ProtocolRequest → (offset : BitVec 32) → (status : Status) → ResponseBody → Bytes
  encodeRespGeneric : (requestId offset : BitVec 32) → (status : Status) → Bytes
  encodeErrorResp : (requestId offset : BitVec 32) → (status : Status) → Bytes
  encodeRespExtendedApiClientRequest : (offset : BitVec 64) → (clientId verbId : Uuid) →
    (clientEncPubkey clientSignPubkey requestBody : Bytes) → Bytes
  rbtreeNotFound : Status
  rbtreeDuplicate : Status
  messageSendFailure : Status

/-- A decoder reads the request id and the offset from the first two words of the packet. -/
def ReadsHeader {α : Type} (decode : Bytes → Except Status (Decoded α)) : Prop :=
  ∀ p d, decode p = .ok d → d.requestId = wordAt p 0 ∧ d.offset = wordAt p 4

/-- What the service relies on: requests are read and responses are written with their request id
and offset. -/
structure Library.Documented (L : Library) : Prop where
  decodeReq : ∀ r, ReadsHeader (L.decodeReq r)
  decodeReqId : ∀ r, ReadsHeader (L.decodeReqId r)
  decodeReqBlockIdByHeightGet : ReadsHeader L.decodeReqBlockIdByHeightGet
  decodeReqTransactionSubmit : ReadsHeader L.decodeReqTransactionSubmit
  decodeReqExtendedApi : ReadsHeader L.decodeReqExtendedApi
  encodeResp : ∀ r offset status body,
    responseHeader (L.encodeResp r offset status body) = (r.code, offset)
  encodeRespGeneric : ∀ requestId offset status,
    responseHeader (L.encodeRespGeneric requestId offset status) = (requestId, offset)
  encodeErrorResp : ∀ requestId offset status,
    responseHeader (L.encodeErrorResp requestId offset status) = (requestId, offset)

/-- Request id and offset of a request, which is wider in a response of a sentinel. -/
abbrev RequestHeader := BitVec 32 × BitVec 64

def wide (h : Header) : RequestHeader := (h.1, h.2.setWidth 64)

theorem wide_inj {a b : Header} : wide a = wide b ↔ a = b := by
  constructor
  · intro h
    obtain ⟨hid, hoffset⟩ := Prod.mk.inj h
    have hnarrow := congrArg (BitVec.setWidth 32) hoffset
    rw [BitVec.setWidth_setWidth_of_le _ (by omega), BitVec.setWidth_setWidth_of_le _ (by omega),
      BitVec.setWidth_eq, BitVec.setWidth_eq] at hnarrow
    exact Prod.ext hid hnarrow
  · intro h
    rw [h]

def requestOffset (L : Library) (p : Bytes) : BitVec 64 :=
  if ProtocolRequest.ofCode (wordAt p 0) = some .extendedApiSendresp then
    match L.decodeReqExtendedApiResponse p with
    | .error _ => (wordAt p 4).setWidth 64
    | .ok req => req.offset
  else (wordAt p 4).setWidth 64

/-- A packet that is too short for a request id and an offset is answered like one with zeros. -/
def requestHeader (L : Library) (p : Bytes) : RequestHeader :=
  if p.length < 8 then (0, 0) else (wordAt p 0, requestOffset L p)

/-! ### Entities -/

/-- `protocolservice_authorized_entity`; a capability is a subject, a verb and an object. -/
structure Entity where
  uuid : Uuid
  capabilities : List (Uuid × Uuid × Uuid)
  encryptionPubkey : Bytes
  signingPubkey : Bytes

def Entity.capabilityCheck (e : Entity) (verb object : Uuid) : Bool :=
  decide ((e.uuid, verb, object) ∈ e.capabilities)

def capabilityAssertLatestBlockId : Uuid := 0x447617b4a847437cb62b5bc6a94206fa

def capabilityAssertLatestBlockIdCancel : Uuid := 0xd848b1187c3446c580dbd4ffd921bb50

def capabilityExtendedApiEnable : Uuid := 0xc41b053c6b4a40a1981b882bdeffe978

def capabilityExtendedApiResp : Uuid := 0x25795b47b0f0456faac422131f4eace2

def capabilityExtendedApiSendrecv : Uuid := 0x51b9e4240c45491b9bda690e10873c1c

def errorMalformedRequest : Status := protocolserviceError 0x0E

def errorUnauthorized : Status := protocolserviceError 0x10

def errorTransactionVerification : Status := protocolserviceError 0x12

def errorInvalidRequestId : Status := protocolserviceError 0x19

def errorExtendedApiAlreadyEnabled : Status := protocolserviceError 0x1E

def errorExtendedApiUnknownEntity : Status := protocolserviceError 0x1F

def errorDataserviceNotFound : Status := 0x8000000 ||| (0x03 <<< 16) ||| 0x0001

/-! ### Requests to the data service -/

variable (L : Library)

/-- A request that is decoded and passed on, with the request id it is answered under. -/
def dndDataservice {α : Type} (decoded : Except Status (Decoded α)) (request : α → ClientRequest) :
    Except Status (BitVec 32 × ClientRequest) :=
  decoded.map fun d => (d.requestId, request d.fields)

/-- The packet is not looked at. -/
def dndLatestBlockIdGet : Except Status (BitVec 32 × ClientRequest) :=
  .ok (ProtocolRequest.latestBlockIdGet.code, .latestBlockIdGet 0)

def dndTransactionSubmit (p : Bytes) : Except Status (BitVec 32 × ClientRequest) :=
  match L.decodeReqTransactionSubmit p with
  | .error e => .error e
  | .ok d =>
    if maxTransactionCertificateSize < d.fields.cert.length then
      .error errorTransactionVerification
    else
      .ok (d.requestId, .transactionSubmit 0 d.fields.txnId d.fields.artifactId d.fields.cert)

def dndBlockByIdGet (p : Bytes) : Except Status (BitVec 32 × ClientRequest) :=
  dndDataservice (L.decodeReqId .blockByIdGet p) (.blockGet 0 · true)

def dndBlockIdNextGet (p : Bytes) : Except Status (BitVec 32 × ClientRequest) :=
  dndDataservice (L.decodeReqId .blockIdGetNext p) (.blockGet 0 · false)

def dndBlockIdPrevGet (p : Bytes) : Except Status (BitVec 32 × ClientRequest) :=
  dndDataservice (L.decodeReqId .blockIdGetPrev p) (.blockGet 0 · false)

def dndBlockIdByHeightGet (p : Bytes) : Except Status (BitVec 32 × ClientRequest) :=
  dndDataservice (L.decodeReqBlockIdByHeightGet p) (.blockIdByHeightGet 0 ·)

def dndTransactionByIdGet (p : Bytes) : Except Status (BitVec 32 × ClientRequest) :=
  dndDataservice (L.decodeReqId .transactionByIdGet p) (.canonizedTransactionGet 0 · true)

def dndTransactionIdNextGet (p : Bytes) : Except Status (BitVec 32 × ClientRequest) :=
  dndDataservice (L.decodeReqId .transactionIdGetNext p) (.canonizedTransactionGet 0 · false)

def dndTransactionIdPrevGet (p : Bytes) : Except Status (BitVec 32 × ClientRequest) :=
  dndDataservice (L.decodeReqId .transactionIdGetPrev p) (.canonizedTransactionGet 0 · false)

def dndTransactionBlockIdGet (p : Bytes) : Except Status (BitVec 32 × ClientRequest) :=
  dndDataservice (L.decodeReqId .transactionIdGetBlockId p) (.canonizedTransactionGet 0 · false)

def dndArtifactFirstTransactionIdGet (p : Bytes) : Except Status (BitVec 32 × ClientRequest) :=
  dndDataservice (L.decodeReqId .artifactFirstTxnByIdGet p) (.artifactGet 0 ·)

def dndArtifactLastTransactionIdGet (p : Bytes) : Except Status (BitVec 32 × ClientRequest) :=
  dndDataservice (L.decodeReqId .artifactLastTxnByIdGet p) (.artifactGet 0 ·)

def dataserviceRequest (p : Bytes) :
    ProtocolRequest → Option (Except Status (BitVec 32 × ClientRequest))
  | .latestBlockIdGet => some dndLatestBlockIdGet
  | .transactionSubmit => some (dndTransactionSubmit L p)
  | .blockByIdGet => some (dndBlockByIdGet L p)
  | .blockIdGetNext => some (dndBlockIdNextGet L p)
  | .blockIdGetPrev => some (dndBlockIdPrevGet L p)
  | .blockIdByHeightGet => some (dndBlockIdByHeightGet L p)
  | .transactionByIdGet => some (dndTransactionByIdGet L p)
  | .transactionIdGetNext => some (dndTransactionIdNextGet L p)
  | .transactionIdGetPrev => some (dndTransactionIdPrevGet L p)
  | .transactionIdGetBlockId => some (dndTransactionBlockIdGet L p)
  | .artifactFirstTxnByIdGet => some (dndArtifactFirstTransactionIdGet L p)
  | .artifactLastTxnByIdGet => some (dndArtifactLastTransactionIdGet L p)
  | .assertLatestBlockId => none
  | .assertLatestBlockIdCancel => none
  | .extendedApiEnable => none
  | .extendedApiSendrecv => none
  | .extendedApiSendresp => none
  | .statusGet => none
  | .close => none

/-! ### Answers of the data service -/

def idOf : Option Record → Uuid
  | some (.blockId id) => id
  | _ => zeroUuid

def pweDndDataserviceBlockIdLatestGet (m : WriteMessage) : Option Bytes :=
  match decodeResponseLatestBlockIdGet m.payload with
  | .error _ => none
  | .ok (hdr, record) =>
    some (L.encodeResp .latestBlockIdGet m.offset hdr.status (.id (idOf record)))

def pweDndDataserviceBlockIdByHeightGet (m : WriteMessage) : Option Bytes :=
  match decodeResponseBlockIdByHeightGet m.payload with
  | .error _ => none
  | .ok (hdr, record) =>
    some (L.encodeResp .blockIdByHeightGet m.offset hdr.status (.id (idOf record)))

def pweDndDataserviceTransactionSubmit (m : WriteMessage) : Option Bytes :=
  match decodeResponseTransactionSubmit m.payload with
  | .error _ => none
  | .ok (hdr, _) => some (L.encodeResp .transactionSubmit m.offset hdr.status .empty)

def pweDndDataserviceRecord (decode : Decoder) (encode : Record → Bytes) (m : WriteMessage) :
    Option Bytes :=
  match decode m.payload with
  | .error _ => none
  | .ok (hdr, record) =>
    if hdr.status ≠ 0 then some (L.encodeErrorResp m.originalRequestId m.offset hdr.status)
    else record.map encode

/-- The id of a neighbour, unless it is the one that stands for none. -/
def encodeNeighbour (m : WriteMessage) (r : ProtocolRequest) (absent id : Uuid) : Bytes :=
  if id = absent then L.encodeErrorResp m.originalRequestId m.offset errorDataserviceNotFound
  else L.encodeResp r m.offset 0 (.id id)

def encodeProtocolBlock (m : WriteMessage) : Record → Bytes
  | .block node data =>
    if m.originalRequestId = ProtocolRequest.blockIdGetNext.code then
      encodeNeighbour L m .blockIdGetNext ffUuid node.next
    else if m.originalRequestId = ProtocolRequest.blockIdGetPrev.code then
      encodeNeighbour L m .blockIdGetPrev zeroUuid node.prev
    else L.encodeResp .blockByIdGet m.offset 0 (.block node data)
  | _ => []

def encodeProtocolTransaction (m : WriteMessage) : Record → Bytes
  | .canonized node data =>
    if m.originalRequestId = ProtocolRequest.transactionIdGetNext.code then
      encodeNeighbour L m .transactionIdGetNext ffUuid node.next
    else if m.originalRequestId = ProtocolRequest.transactionIdGetPrev.code then
      encodeNeighbour L m .transactionIdGetPrev zeroUuid node.prev
    else if m.originalRequestId = ProtocolRequest.transactionIdGetBlockId.code then
      L.encodeResp .transactionIdGetBlockId m.offset 0 (.id node.blockId)
    else L.encodeResp .transactionByIdGet m.offset 0 (.transaction node data)
  | _ => []

def encodeProtocolArtifact (m : WriteMessage) : Record → Bytes
  | .artifact record =>
    if m.originalRequestId = ProtocolRequest.artifactLastTxnByIdGet.code then
      L.encodeResp .artifactLastTxnByIdGet m.offset 0 (.id record.txnLatest)
    else L.encodeResp .artifactFirstTxnByIdGet m.offset 0 (.id record.txnFirst)
  | _ => []

def pweDndDataserviceBlockGet (m : WriteMessage) : Option Bytes :=
  pweDndDataserviceRecord L decodeResponseBlockGet (encodeProtocolBlock L m) m

def pweDndDataserviceTransactionGet (m : WriteMessage) : Option Bytes :=
  pweDndDataserviceRecord L decodeResponseCanonizedTransactionGet (encodeProtocolTransaction L m) m

def pweDndDataserviceArtifactGet (m : WriteMessage) : Option Bytes :=
  pweDndDataserviceRecord L decodeResponseArtifactGet (encodeProtocolArtifact L m) m

/-- The packet for an answer of the data service; without one the write fiber leaves its loop. -/
def pweDndDataserviceMessage (m : WriteMessage) : Option Bytes :=
  let method := wordAt m.payload 0
  if method = Method.appBlockIdLatestRead.code then pweDndDataserviceBlockIdLatestGet L m
  else if method = Method.appBlockRead.code then pweDndDataserviceBlockGet L m
  else if method = Method.appTransactionRead.code then pweDndDataserviceTransactionGet L m
  else if method = Method.appArtifactRead.code then pweDndDataserviceArtifactGet L m
  else if method = Method.appPqTransactionSubmit.code then pweDndDataserviceTransactionSubmit L m
  else if method = Method.appBlockIdByHeightRead.code then pweDndDataserviceBlockIdByHeightGet L m
  else none

def pweDndNotificationserviceMessage (m : WriteMessage) : Bytes :=
  L.encodeRespGeneric m.originalRequestId m.offset 0

def packetFor (m : WriteMessage) : Option Bytes :=
  match m.messageType with
  | .dataservice => pweDndDataserviceMessage L m
  | .notification => some (pweDndNotificationserviceMessage L m)
  | .packet => some m.payload
  | .shutdown => none
  | .dataserviceContextCreate => none
  | .errorMessage => none

/-! ### Request ids and methods -/

def methodOf : ProtocolRequest → Option Method
  | .latestBlockIdGet => some .appBlockIdLatestRead
  | .transactionSubmit => some .appPqTransactionSubmit
  | .blockByIdGet => some .appBlockRead
  | .blockIdGetNext => some .appBlockRead
  | .blockIdGetPrev => some .appBlockRead
  | .blockIdByHeightGet => some .appBlockIdByHeightRead
  | .transactionByIdGet => some .appTransactionRead
  | .transactionIdGetNext => some .appTransactionRead
  | .transactionIdGetPrev => some .appTransactionRead
  | .transactionIdGetBlockId => some .appTransactionRead
  | .artifactFirstTxnByIdGet => some .appArtifactRead
  | .artifactLastTxnByIdGet => some .appArtifactRead
  | _ => none

variable {L}

theorem dndDataservice_ok {α : Type} {decode : Bytes → Except Status (Decoded α)}
    {request : α → ClientRequest} {p : Bytes} {id : BitVec 32} {q : ClientRequest}
    (hdecode : ReadsHeader decode) (h : dndDataservice (decode p) request = .ok (id, q)) :
    id = wordAt p 0 ∧ ∃ a, q = request a := by
  rw [dndDataservice] at h
  cases hd : decode p with
  | error e =>
    rw [hd] at h
    cases h
  | ok d =>
    rw [hd] at h
    cases h
    exact ⟨(hdecode p d hd).1, d.fields, rfl⟩

/-- A request that is passed on keeps its request id and has the method it is served by. -/
theorem dataserviceRequest_ok (hL : L.Documented) {p : Bytes} {r : ProtocolRequest}
    {id : BitVec 32} {q : ClientRequest} (hr : r.code = wordAt p 0)
    (h : dataserviceRequest L p r = some (.ok (id, q))) :
    id = r.code ∧ methodOf r = some q.method := by
  rw [hr]
  cases r with
  | latestBlockIdGet =>
    cases h
    exact ⟨hr, rfl⟩
  | transactionSubmit =>
    simp only [dataserviceRequest, dndTransactionSubmit, Option.some.injEq] at h
    cases hd : L.decodeReqTransactionSubmit p with
    | error e =>
      rw [hd] at h
      cases h
    | ok d =>
      simp only [hd] at h
      split at h
      · cases h
      · cases h
        exact ⟨(hL.decodeReqTransactionSubmit p d hd).1, rfl⟩
  | blockIdByHeightGet =>
    obtain ⟨hid, a, rfl⟩ := dndDataservice_ok hL.decodeReqBlockIdByHeightGet (Option.some.inj h)
    exact ⟨hid, rfl⟩
  | assertLatestBlockId => cases h
  | assertLatestBlockIdCancel => cases h
  | extendedApiEnable => cases h
  | extendedApiSendrecv => cases h
  | extendedApiSendresp => cases h
  | statusGet => cases h
  | close => cases h
  | _ =>
    obtain ⟨hid, a, rfl⟩ := dndDataservice_ok (hL.decodeReqId _) (Option.some.inj h)
    exact ⟨hid, rfl⟩

inductive Answer (m : Method) : Bytes → Prop
  | failure (offset : BitVec 32) {status : BitVec 32} (hstatus : status ≠ 0) :
    Answer m (responsePacket m.code offset status none)
  | success (offset : BitVec 32) {data : Option Bytes} {record : Option Record}
      (hsuccess : Encoded m data record) (hfits : Fits record) :
    Answer m (responsePacket m.code offset 0 data)

theorem Answer.decodes {m : Method} {b : Bytes} {decode : Decoder} (h : Answer m b)
    (hm : decoderOf m = some decode) :
    wordAt b 0 = m.code ∧ ∃ hdr record, decode b = .ok (hdr, record) := by
  cases h with
  | failure offset hstatus =>
    obtain ⟨record, hdecode, -⟩ := decode_failure hm offset hstatus
    exact ⟨congrArg ResponseHeader.methodCode (decodeHeader_responsePacket _), _, _, hdecode⟩
  | success offset hsuccess hfits =>
    obtain ⟨decode', hm', hdecode⟩ : ∃ decode', decoderOf m = some decode' ∧
        decode' (responsePacket m.code offset 0 _) = .ok (⟨m.code, offset, 0⟩, _) :=
      decode_success hsuccess hfits
    cases hm.symm.trans hm'
    exact ⟨congrArg ResponseHeader.methodCode (decodeHeader_responsePacket _), _, _, hdecode⟩

/-- A record comes with success, and it is the one that the decoder reads. -/
theorem decodeRecord_ok {m : Method} {sizeOk : ℕ → Bool} {e : ResponseError} {f : Bytes → Record}
    {b : Bytes} {hdr : ResponseHeader} {record : Option Record}
    (h : decodeRecord m sizeOk e f b = .ok (hdr, record)) (hstatus : hdr.status = 0) :
    record = some (f b) := by
  rw [decodeRecord] at h
  split at h
  · cases h
  · split at h
    · cases h
    · split at h
      · rename_i hfailed
        cases h
        exact absurd hstatus hfailed
      · split at h
        · cases h
          rfl
        · cases h

theorem pweDndDataserviceRecord_decodes {m : Method} {sizeOk : ℕ → Bool} {e : ResponseError}
    {f : Bytes → Record} {encode : Record → Bytes} {w : WriteMessage} (hL : L.Documented)
    (hdecode : ∃ hdr record, decodeRecord m sizeOk e f w.payload = .ok (hdr, record))
    (hencode : responseHeader (encode (f w.payload)) = (w.originalRequestId, w.offset)) :
    ∃ p, pweDndDataserviceRecord L (decodeRecord m sizeOk e f) encode w = some p ∧
      responseHeader p = (w.originalRequestId, w.offset) := by
  obtain ⟨hdr, record, hd⟩ := hdecode
  rw [pweDndDataserviceRecord, hd]
  by_cases hstatus : hdr.status = 0
  · rw [decodeRecord_ok hd hstatus]
    exact ⟨_, if_neg (not_not.mpr hstatus), hencode⟩
  · exact ⟨_, if_pos hstatus, hL.encodeErrorResp _ _ _⟩

theorem responseHeader_encodeNeighbour (hL : L.Documented) {w : WriteMessage} {r : ProtocolRequest}
    (hr : w.originalRequestId = r.code) (absent id : Uuid) :
    responseHeader (encodeNeighbour L w r absent id) = (w.originalRequestId, w.offset) := by
  rw [encodeNeighbour]
  split
  · exact hL.encodeErrorResp _ _ _
  · rw [hL.encodeResp, hr]

variable (L) in
def pweBranch (w : WriteMessage) : Method → Option Bytes
  | .appBlockIdLatestRead => pweDndDataserviceBlockIdLatestGet L w
  | .appBlockRead => pweDndDataserviceBlockGet L w
  | .appTransactionRead => pweDndDataserviceTransactionGet L w
  | .appArtifactRead => pweDndDataserviceArtifactGet L w
  | .appPqTransactionSubmit => pweDndDataserviceTransactionSubmit L w
  | .appBlockIdByHeightRead => pweDndDataserviceBlockIdByHeightGet L w
  | _ => none

theorem pweDndDataserviceMessage_eq {w : WriteMessage} {r : ProtocolRequest} {m : Method}
    (hr : methodOf r = some m) (hword : wordAt w.payload 0 = m.code) :
    pweDndDataserviceMessage L w = pweBranch L w m := by
  simp only [pweDndDataserviceMessage, hword]
  cases r <;> cases hr <;> rfl

theorem header_encodeProtocolBlock (hL : L.Documented) {r : ProtocolRequest}
    (hr : methodOf r = some .appBlockRead) (offset : BitVec 32) (b : Bytes) :
    responseHeader (encodeProtocolBlock L ⟨.dataservice, r.code, offset, b⟩ (blockOfResponse b)) =
      (r.code, offset) := by
  cases r <;> cases hr
  · exact hL.encodeResp _ _ _ _
  · exact responseHeader_encodeNeighbour hL rfl _ _
  · exact responseHeader_encodeNeighbour hL rfl _ _

theorem header_encodeProtocolTransaction (hL : L.Documented) {r : ProtocolRequest}
    (hr : methodOf r = some .appTransactionRead) (offset : BitVec 32) (b : Bytes) :
    responseHeader (encodeProtocolTransaction L ⟨.dataservice, r.code, offset, b⟩
      (canonizedOfResponse b)) = (r.code, offset) := by
  cases r <;> cases hr
  · exact hL.encodeResp _ _ _ _
  · exact responseHeader_encodeNeighbour hL rfl _ _
  · exact responseHeader_encodeNeighbour hL rfl _ _
  · exact hL.encodeResp _ _ _ _

theorem header_encodeProtocolArtifact (hL : L.Documented) {r : ProtocolRequest}
    (hr : methodOf r = some .appArtifactRead) (offset : BitVec 32) (b : Bytes) :
    responseHeader (encodeProtocolArtifact L ⟨.dataservice, r.code, offset, b⟩
      (artifactOfResponse b)) = (r.code, offset) := by
  cases r <;> cases hr
  · exact hL.encodeResp _ _ _ _
  · exact hL.encodeResp _ _ _ _

/-- An answer of the data service becomes a response with the request id and the offset of the
request. -/
theorem packetFor_answer (hL : L.Documented) {r : ProtocolRequest} {m : Method} {b : Bytes}
    (hr : methodOf r = some m) (h : Answer m b) (offset : BitVec 32) :
    ∃ p, packetFor L ⟨.dataservice, r.code, offset, b⟩ = some p ∧
      responseHeader p = (r.code, offset) := by
  have hword : ∀ decode, decoderOf m = some decode → wordAt b 0 = m.code ∧ _ :=
    fun decode hm => h.decodes hm
  cases m with
  | appBlockRead =>
    obtain ⟨hword, hdecode⟩ := hword _ rfl
    rw [packetFor, pweDndDataserviceMessage_eq hr hword]
    exact pweDndDataserviceRecord_decodes hL hdecode (header_encodeProtocolBlock hL hr offset b)
  | appTransactionRead =>
    obtain ⟨hword, hdecode⟩ := hword _ rfl
    rw [packetFor, pweDndDataserviceMessage_eq hr hword]
    exact pweDndDataserviceRecord_decodes hL hdecode
      (header_encodeProtocolTransaction hL hr offset b)
  | appArtifactRead =>
    obtain ⟨hword, hdecode⟩ := hword _ rfl
    rw [packetFor, pweDndDataserviceMessage_eq hr hword]
    exact pweDndDataserviceRecord_decodes hL hdecode (header_encodeProtocolArtifact hL hr offset b)
  | appBlockIdLatestRead =>
    obtain ⟨hword, hdr, record, hdecode⟩ := hword _ rfl
    rw [packetFor, pweDndDataserviceMessage_eq hr hword]
    cases r <;> cases hr
    simp only [pweBranch, pweDndDataserviceBlockIdLatestGet, hdecode]
    exact ⟨_, rfl, hL.encodeResp _ _ _ _⟩
  | appPqTransactionSubmit =>
    obtain ⟨hword, hdr, record, hdecode⟩ := hword _ rfl
    rw [packetFor, pweDndDataserviceMessage_eq hr hword]
    cases r <;> cases hr
    simp only [pweBranch, pweDndDataserviceTransactionSubmit, hdecode]
    exact ⟨_, rfl, hL.encodeResp _ _ _ _⟩
  | appBlockIdByHeightRead =>
    obtain ⟨hword, hdr, record, hdecode⟩ := hword _ rfl
    rw [packetFor, pweDndDataserviceMessage_eq hr hword]
    cases r <;> cases hr
    simp only [pweBranch, pweDndDataserviceBlockIdByHeightGet, hdecode]
    exact ⟨_, rfl, hL.encodeResp _ _ _ _⟩
  | _ => cases r <;> cases hr

end ClientProtocol
