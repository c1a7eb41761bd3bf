import Agentd.ClientProtocol

/-! # The protocol fiber of a connection

A connection starts with a handshake: the client names its entity, both sides send nonces, and the
shared secret comes from the keys and the nonces. From then on packets are encrypted, each with an
initialization vector of its own that counts up on either side. After the handshake a data service
context is opened and a write fiber is started; the protocol fiber reads and dispatches packets
until one cannot be read. Everything that can fail is an outcome that is given to the step. -/
namespace ProtocolFiber

open ByteString
open DataserviceRecords
open NotificationEndpoint (protocolserviceError)
open ClientProtocol

/-! ### Outcomes -/

abbrev Failure := {status : Status // status ≠ 0}

/-- What a function returns; `none` is success. -/
abbrev Retval := Option Failure

def missingPrivateKey : Failure := ⟨protocolserviceError 0x18, by decide⟩

def requestPacketBad : Failure := ⟨protocolserviceError 0x15, by decide⟩

def malformedRequest : Failure := ⟨errorMalformedRequest, by decide⟩

def unauthorized : Failure := ⟨errorUnauthorized, by decide⟩

def prngRequestFailure : Failure := ⟨protocolserviceError 0x11, by decide⟩

/-- The status of a cleanup replaces the one that led to it when it is a failure itself. -/
def mergeRelease (release retval : Retval) : Retval := release.or retval

theorem mergeRelease_some (release : Retval) (e : Failure) :
    ∃ e', mergeRelease release (some e) = some e' := by
  cases release with
  | none => exact ⟨e, rfl⟩
  | some e' => exact ⟨e', rfl⟩

/-- A write to the encrypted socket can fail before the packet is encrypted or after. -/
structure AuthedWrite where
  encrypted : Bool
  retval : Retval
  written : retval = none → encrypted = true

/-- A read from the encrypted socket can fail for other reasons than the packet, and it can leave
something in its output when it fails. -/
structure AuthedRead where
  packet : Bytes
  fault : Retval
  left : Option Bytes

structure Env where
  privateKeySet : Bool
  agentdUuid : Uuid
  agentdEncPubkey : Bytes
  agentdEncPrivkey : Bytes
  cryptoSuite : BitVec 32
  nonceSize : ℕ
  authorizedEntity : Uuid → Option Entity
  /-- The key agreement, and the code that the response of the handshake is signed with. -/
  shortTermSecret : (privkey pubkey serverNonce clientNonce : Bytes) → Except Failure Bytes
  shortMac : (secret data : Bytes) → Bytes
  /-- What an encrypted packet of the client holds, if it is authentic. -/
  authentic : (iv : BitVec 64) → (secret packet : Bytes) → Option Bytes
  /-- The encrypted packet that `psock_write_authed_data` writes for a payload. -/
  sealedPacket : (iv : BitVec 64) → (secret payload : Bytes) → Bytes
  notAuthentic : Failure

/-! ### State -/

/-- What passes the socket and what becomes of it, a ghost. -/
inductive Event where
  | readBoxed (packet : Bytes)
  | writeBoxed (payload : Bytes)
  | random (bytes : Bytes)
  | readAuthed (iv : BitVec 64) (secret packet : Bytes) (payload : Option Bytes)
  | writeAuthed (iv : BitVec 64) (secret payload : Bytes) (encrypted : Bool)
  | contextOpen
  | contextClose
  | dispatch (payload : Bytes)

/-- `protocolservice_protocol_fiber_context`, as far as the connection itself goes. -/
structure Context where
  clientKeyNonce : Bytes
  clientChallengeNonce : Bytes
  serverKeyNonce : Bytes
  serverChallengeNonce : Bytes
  sharedSecret : Bytes
  clientIv : BitVec 64
  serverIv : BitVec 64
  entityUuid : Uuid
  entity : Option Entity
  dataserviceContextOpened : Bool
  reqShutdown : Bool
  log : List Event

def newContext : Context where
  clientKeyNonce := []
  clientChallengeNonce := []
  serverKeyNonce := []
  serverChallengeNonce := []
  sharedSecret := []
  clientIv := 0
  serverIv := 0
  entityUuid := zeroUuid
  entity := none
  dataserviceContextOpened := false
  reqShutdown := false
  log := []

def record (k : Context) (e : Event) : Context := { k with log := k.log ++ [e] }

/-! ### Reading and writing -/

variable (E : Env)

def psockWriteBoxedData (k : Context) (payload : Bytes) (write : Retval) : Context × Retval :=
  (record k (.writeBoxed payload), write)

def psockWriteAuthedData (k : Context) (payload : Bytes) (write : AuthedWrite) : Context × Retval :=
  (record k (.writeAuthed k.serverIv k.sharedSecret payload write.encrypted), write.retval)

def psockReadAuthedData (k : Context) (read : AuthedRead) : Context × Retval × Option Bytes :=
  let payload := E.authentic k.clientIv k.sharedSecret read.packet
  match read.fault, payload with
  | none, some payload =>
    (record k (.readAuthed k.clientIv k.sharedSecret read.packet (some payload)), none,
      some payload)
  | some e, _ =>
    (record k (.readAuthed k.clientIv k.sharedSecret read.packet none), some e, read.left)
  | none, none =>
    (record k (.readAuthed k.clientIv k.sharedSecret read.packet none), some E.notAuthentic,
      read.left)

def responsePayload (requestId status offset : BitVec 32) : Bytes :=
  be 4 requestId ++ be 4 status ++ be 4 offset

def advanceServerIv (k : Context) : Context := { k with serverIv := k.serverIv + 1 }

def advanceClientIv (k : Context) : Context := { k with clientIv := k.clientIv + 1 }

def writeErrorResponse (k : Context) (requestId : BitVec 32) (status : Failure) (write : Retval) :
    Context × Retval :=
  psockWriteBoxedData k (responsePayload requestId status.val 0) write

/-- `protocolservice_write_error_response` encrypted; the server IV goes on whatever happens. -/
def writeErrorResponseEncrypted (k : Context) (requestId : BitVec 32) (status : Failure)
    (write : AuthedWrite) : Context × Retval :=
  let (k, retval) := psockWriteAuthedData k (responsePayload requestId status.val 0) write
  (advanceServerIv k, retval)

/-- An error response in the clear, and the status when it could be written. -/
def refuse (k : Context) (requestId : BitVec 32) (reported returned : Failure) (write : Retval) :
    Context × Retval :=
  let (k, retval) := writeErrorResponse k requestId reported write
  (k, retval.or (some returned))

/-! ### Handshake -/

def handshakeInitiate : BitVec 32 := 0x00

def handshakeAcknowledge : BitVec 32 := 0x01

structure HandshakeOutcome where
  request : Except Failure Bytes
  requestReclaim : Retval
  random : Except Unit Bytes
  agreementInit : Retval
  preparation : Retval
  responseWrite : Retval
  /-- The one error response that can be written in the clear. -/
  errorWrite : Retval
  ack : AuthedRead
  ackErrorWrite : AuthedWrite
  ackReclaim : Retval
  ackRespWrite : AuthedWrite
  ackRespErrorWrite : AuthedWrite

def requestUuid (request : Bytes) : Uuid := bits 128 (slice request 16 16)

def requestKeyNonce (request : Bytes) : Bytes := slice request 32 E.nonceSize

def requestChallengeNonce (request : Bytes) : Bytes :=
  slice request (32 + E.nonceSize) E.nonceSize

def randomChallengeNonce (bytes : Bytes) : Bytes := slice bytes 0 E.nonceSize

def randomKeyNonce (bytes : Bytes) : Bytes := slice bytes E.nonceSize E.nonceSize

def decodeHandshakeReq (k : Context) (o : HandshakeOutcome) (request : Bytes) : Context × Retval :=
  if request.length ≠ 32 + E.nonceSize + E.nonceSize then
    refuse k 0 malformedRequest malformedRequest o.errorWrite
  else if wordAt request 0 ≠ handshakeInitiate then
    refuse k 0 malformedRequest malformedRequest o.errorWrite
  else if wordAt request 4 ≠ 0 then
    refuse k handshakeInitiate malformedRequest malformedRequest o.errorWrite
  else if wordAt request 8 ≠ 1 then
    refuse k handshakeInitiate malformedRequest malformedRequest o.errorWrite
  else if wordAt request 12 ≠ E.cryptoSuite then
    refuse k handshakeInitiate malformedRequest malformedRequest o.errorWrite
  else
    ({ k with
        entityUuid := requestUuid request
        clientKeyNonce := requestKeyNonce E request
        clientChallengeNonce := requestChallengeNonce E request }, none)

def protocolReadHandshakeReq (o : HandshakeOutcome) (k : Context) : Context × Retval :=
  match o.request with
  | .error _ => (k, some requestPacketBad)
  | .ok request =>
    let (k, retval) := decodeHandshakeReq E (record k (.readBoxed request)) o request
    (k, mergeRelease o.requestReclaim retval)

def authorizedEntityLookup (o : HandshakeOutcome) (k : Context) : Context × Retval :=
  match E.authorizedEntity k.entityUuid with
  | none => refuse k handshakeInitiate unauthorized unauthorized o.errorWrite
  | some entity => ({ k with entity := some entity }, none)

def readRandomBytes (o : HandshakeOutcome) (k : Context) : Context × Retval :=
  match o.random with
  | .error _ => refuse k handshakeInitiate prngRequestFailure prngRequestFailure o.errorWrite
  | .ok bytes =>
    ({ record k (.random bytes) with
        serverChallengeNonce := randomChallengeNonce E bytes
        serverKeyNonce := randomKeyNonce E bytes }, none)

def encryptionPubkey (k : Context) : Bytes := (k.entity.map Entity.encryptionPubkey).getD []

def initialClientIv : BitVec 64 := 0x0000000000000001

def initialServerIv : BitVec 64 := 0x8000000000000001

def computeSharedSecret (o : HandshakeOutcome) (k : Context) : Context × Retval :=
  match o.agreementInit with
  | some _ => refuse k handshakeInitiate unauthorized unauthorized o.errorWrite
  | none =>
    match E.shortTermSecret E.agentdEncPrivkey (encryptionPubkey k) k.serverKeyNonce
        k.clientKeyNonce with
    | .error _ => refuse k handshakeInitiate unauthorized unauthorized o.errorWrite
    | .ok secret =>
      ({ k with
          sharedSecret := secret, clientIv := initialClientIv, serverIv := initialServerIv }, none)

def handshakeResponse (k : Context) : Bytes :=
  let data := be 4 handshakeInitiate ++ be 4 (0 : Status) ++ be 4 (0 : BitVec 32) ++
    be 4 (1 : BitVec 32) ++ be 4 E.cryptoSuite ++ be 16 E.agentdUuid ++ E.agentdEncPubkey ++
    k.serverKeyNonce ++ k.serverChallengeNonce
  data ++ E.shortMac k.sharedSecret (data ++ k.clientChallengeNonce)

def protocolWriteHandshakeReqResp (o : HandshakeOutcome) (k : Context) : Context × Retval :=
  match o.preparation with
  | some _ => refuse k handshakeInitiate unauthorized unauthorized o.errorWrite
  | none =>
    match psockWriteBoxedData k (handshakeResponse E k) o.responseWrite with
    | (k, none) => (k, none)
    | (k, some _) => refuse k handshakeInitiate unauthorized unauthorized o.errorWrite

/-- When something was left in the output by a read that failed, the status of the cleanup replaces
the failure, also when the cleanup succeeds. -/
def protocolReadHandshakeAckReq (o : HandshakeOutcome) (k : Context) : Context × Retval :=
  match psockReadAuthedData E k o.ack with
  | (k, none, _) => (advanceClientIv k, none)
  | (k, some _, left) =>
    let (k, retval) := writeErrorResponseEncrypted k 0 malformedRequest o.ackErrorWrite
    (k, if left.isSome then o.ackReclaim else mergeRelease retval (some malformedRequest))

/-- The server IV goes on only when the write succeeds. -/
def protocolWriteHandshakeAckResp (o : HandshakeOutcome) (k : Context) : Context × Retval :=
  match psockWriteAuthedData k (responsePayload handshakeAcknowledge 0 0) o.ackRespWrite with
  | (k, none) => (advanceServerIv k, none)
  | (k, some e) =>
    let (k, release) :=
      writeErrorResponseEncrypted k handshakeAcknowledge e o.ackRespErrorWrite
    (k, mergeRelease release (some e))

/-- A step of the handshake after those before it have succeeded. -/
def after (before : Context × Retval) (step : Context → Context × Retval) : Context × Retval :=
  match before with
  | (k, none) => step k
  | (k, some e) => (k, some e)

def protocolHandleHandshake (o : HandshakeOutcome) (k : Context) : Context × Retval :=
  if E.privateKeySet = false then (k, some missingPrivateKey)
  else
    after (after (after (after (after (after (protocolReadHandshakeReq E o k)
      (authorizedEntityLookup E o)) (readRandomBytes E o)) (computeSharedSecret E o))
      (protocolWriteHandshakeReqResp E o)) (protocolReadHandshakeAckReq E o))
      (protocolWriteHandshakeAckResp o)

/-! ### Data service context and packets -/

/-- How the request for a data service context goes: it is not sent, or it is sent and the endpoint
opens a context or does not, and the answer, which is not looked at, is received or is not. -/
inductive OpenOutcome where
  | notSent (e : Failure)
  | notReceived (opened : Bool) (e : Failure)
  | received (opened : Bool) (release : Retval)

inductive CloseOutcome where
  | notSent (e : Failure)
  | notReceived (e : Failure)
  | received (release : Retval)

def recordOpen (k : Context) (opened : Bool) : Context :=
  if opened then record k .contextOpen else k

def requestDataServiceContext (k : Context) : OpenOutcome → Context × Retval
  | .notSent e => (k, some e)
  | .notReceived opened e => (recordOpen k opened, some e)
  | .received opened release =>
    ({ recordOpen k opened with dataserviceContextOpened := true }, release)

def closeDataServiceContext (k : Context) : CloseOutcome → Context × Retval
  | .notSent e => (k, some e)
  | .notReceived e => (record k .contextClose, some e)
  | .received release =>
    ({ record k .contextClose with dataserviceContextOpened := false }, release)

structure TurnOutcome where
  read : AuthedRead
  dispatch : Retval
  /-- The packet was a request to close the connection. -/
  closes : Bool
  errorSend : Retval
  reclaim : Retval

def protocolReadDecodeAndDispatchPacket (o : TurnOutcome) (k : Context) : Context × Retval :=
  match psockReadAuthedData E k o.read with
  | (k, some e, left) =>
    let retval := mergeRelease o.errorSend (some e)
    (k, if left.isSome then mergeRelease o.reclaim retval else retval)
  | (k, none, payload) =>
    let k := advanceClientIv k
    let payload := payload.getD []
    if payload.length < 8 then
      (k, mergeRelease o.reclaim (mergeRelease o.errorSend (some malformedRequest)))
    else
      ({ record k (.dispatch payload) with reqShutdown := k.reqShutdown || o.closes },
        mergeRelease o.reclaim o.dispatch)

/-! ### A connection -/

inductive Stage where
  | handshake
  | opening
  | adding
  | reading
  | stopping
  | gone
  deriving DecidableEq

def inSession : Stage → Bool
  | .handshake => false
  | .opening => true
  | .adding => true
  | .reading => true
  | .stopping => false
  | .gone => false

structure Connection where
  context : Context
  stage : Stage
  /-- The write fiber is in its loop. -/
  writing : Bool
  /-- The write fiber was sent a message to stop. -/
  shutdown : Bool
  released : Bool

def start : Connection := ⟨newContext, .handshake, false, false, false⟩

def stageAfter (next : Stage) : Retval → Stage
  | none => next
  | some _ => .gone

/-- The reference of a fiber that has ended is gone with it; whoever is last releases the
context. -/
inductive Action where
  | handshake (o : HandshakeOutcome)
  | openContext (o : OpenOutcome)
  | addWriter (retval : Retval)
  | turn (o : TurnOutcome)
  | shutdownWriter (retval : Retval)
  | write (payload : Bytes) (w : AuthedWrite)
  | writerFails
  | writerStops
  | release (o : CloseOutcome)

def Enabled (s : Connection) : Action → Prop
  | .handshake _ => s.stage = .handshake
  | .openContext _ => s.stage = .opening
  | .addWriter _ => s.stage = .adding
  | .turn _ => s.stage = .reading
  | .shutdownWriter _ => s.stage = .stopping
  | .write _ _ => s.writing = true
  | .writerFails => s.writing = true
  | .writerStops => s.writing = true ∧ s.shutdown = true
  | .release _ => s.stage = .gone ∧ s.writing = false ∧ s.released = false

instance (s : Connection) : DecidablePred (Enabled s)
  | .handshake _ => inferInstanceAs (Decidable (s.stage = .handshake))
  | .openContext _ => inferInstanceAs (Decidable (s.stage = .opening))
  | .addWriter _ => inferInstanceAs (Decidable (s.stage = .adding))
  | .turn _ => inferInstanceAs (Decidable (s.stage = .reading))
  | .shutdownWriter _ => inferInstanceAs (Decidable (s.stage = .stopping))
  | .write _ _ => inferInstanceAs (Decidable (s.writing = true))
  | .writerFails => inferInstanceAs (Decidable (s.writing = true))
  | .writerStops => inferInstanceAs (Decidable (s.writing = true ∧ s.shutdown = true))
  | .release _ =>
    inferInstanceAs (Decidable (s.stage = .gone ∧ s.writing = false ∧ s.released = false))

def next (s : Connection) : Action → Connection
  | .handshake o =>
    let (k, retval) := protocolHandleHandshake E o s.context
    { s with context := k, stage := stageAfter .opening retval }
  | .openContext o =>
    let (k, retval) := requestDataServiceContext s.context o
    { s with context := k, stage := stageAfter .adding retval }
  | .addWriter retval =>
    { s with stage := stageAfter .reading retval, writing := retval.isNone }
  | .turn o =>
    let (k, retval) := protocolReadDecodeAndDispatchPacket E o s.context
    { s with
      context := k
      stage := if retval.isSome || k.reqShutdown then .stopping else .reading }
  | .shutdownWriter retval => { s with stage := .gone, shutdown := retval.isNone }
  | .write payload w =>
    let (k, retval) := psockWriteAuthedData s.context payload w
    { s with context := advanceServerIv k, writing := retval.isNone }
  | .writerFails => { s with writing := false }
  | .writerStops => { s with writing := false }
  | .release o =>
    { s with
      context := if s.context.dataserviceContextOpened then (closeDataServiceContext s.context o).1
        else s.context
      released := true }

inductive Run (allowed : Connection → Action → Prop) : Connection → Prop
  | start : Run allowed start
  | tail {s : Connection} {a : Action} (before : Run allowed s) (enabled : Enabled s a)
      (meets : allowed s a) : Run allowed (next E s a)

/-- Actions that can be taken one after another. -/
def Allowed (allowed : Connection → Action → Prop) : Connection → List Action → Prop
  | _, [] => True
  | s, a :: as => Enabled s a ∧ allowed s a ∧ Allowed allowed (next E s a) as

variable {E}

theorem run_of_allowed {allowed : Connection → Action → Prop} {s : Connection} {as : List Action}
    (hrun : Run E allowed s) (h : Allowed E allowed s as) :
    Run E allowed (as.foldl (next E) s) := by
  induction as generalizing s with
  | nil => exact hrun
  | cons a as ih =>
    obtain ⟨henabled, hmeets, hrest⟩ := h
    exact ih (hrun.tail henabled hmeets) hrest

end ProtocolFiber
