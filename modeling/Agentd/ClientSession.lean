import Agentd.AuthedPackets
import Agentd.HandshakeSteps
import Agentd.OrderedChannels
import Agentd.TransitionRuns

/-! # A client and its connection

The blocking client calls for the handshake, and a client that is connected to the protocol fiber of
the server by two sockets that lose nothing. The handshake of the server is taken in the two halves
between which it waits for the client. -/
namespace ClientSession

open ByteString
open DataserviceRecords
open AuthedPackets
open NotificationEndpoint (protocolserviceError)
open ClientProtocol
open ProtocolFiber
open HandshakeSteps
open OrderedChannels
open TransitionRuns

/-! ### Client calls -/

structure ClientSuite where
  suiteVeloV1 : BitVec 32
  publicKeySize : ℕ
  nonceSize : ℕ
  macSize : ℕ
  agreement : (privkey pubkey serverNonce clientNonce : Bytes) → Except Failure Bytes
  mac : (secret data : Bytes) → Bytes
  crypto : CryptoSuite Bytes

def malformedResponse : Failure := ⟨protocolserviceError 0x0F, by decide⟩

def unexpectedDataType : Failure := ⟨0x8000000 ||| (0x01 <<< 16) ||| 0x0007, by decide⟩

def unexpectedDataSize : Failure := ⟨0x8000000 ||| (0x01 <<< 16) ||| 0x0008, by decide⟩

variable (C : ClientSuite)

def sendreqHandshakeRequest (entityId : Uuid) (keyNonce challengeNonce : Bytes) : Bytes :=
  be 4 handshakeInitiate ++ be 4 (0 : BitVec 32) ++ be 4 (1 : BitVec 32) ++ be 4 C.suiteVeloV1 ++
    be 16 entityId ++ keyNonce ++ challengeNonce

structure Offer where
  serverId : Uuid
  serverPublicKey : Bytes
  serverChallengeNonce : Bytes
  sharedSecret : Bytes

def responseSize : ℕ := 36 + C.publicKeySize + C.nonceSize + C.nonceSize + C.macSize

/-- `protocolservice_api_recvresp_handshake_request_block`. The fields are taken from fixed places,
those of keys and nonces of 32 bytes. -/
def recvrespHandshakeRequest (privkey keyNonce challengeNonce val : Bytes) :
    Except Failure Offer :=
  if val.length < 12 then .error malformedResponse
  else if h : wordAt val 4 ≠ 0 then .error ⟨wordAt val 4, h⟩
  else if val.length ≠ responseSize C then .error malformedResponse
  else if wordAt val 12 ≠ 1 then .error malformedResponse
  else if wordAt val 16 ≠ C.suiteVeloV1 then .error malformedResponse
  else
    let pubkey := slice val 36 C.publicKeySize
    match C.agreement privkey pubkey (slice val 68 C.nonceSize) keyNonce with
    | .error e => .error e
    | .ok secret =>
      let digested := responseSize C - C.macSize
      if C.mac secret (val.take digested ++ challengeNonce) ≠ slice val digested C.macSize then
        .error malformedResponse
      else .ok ⟨bits 128 (slice val 20 16), pubkey, slice val 100 C.nonceSize, secret⟩

def sendreqHandshakeAck (secret serverChallengeNonce : Bytes) : Bytes :=
  C.crypto.macShort secret serverChallengeNonce

/-- `protocolservice_api_recvresp_handshake_ack_block`, once the packet is read: offset and
status. -/
def recvrespHandshakeAck (val : Bytes) : Except Failure (BitVec 32 × BitVec 32) :=
  if val.length ≠ 12 then .error unexpectedDataSize
  else if wordAt val 0 ≠ handshakeAcknowledge then .error unexpectedDataType
  else .ok (wordAt val 8, wordAt val 4)

/-! ### The two halves of the server's handshake -/

variable (E : Env)

def respondHandshake (o : HandshakeOutcome) (k : Context) : Context × Retval :=
  after (after (after (after (protocolReadHandshakeReq E o k) (authorizedEntityLookup E o))
    (readRandomBytes E o)) (computeSharedSecret E o)) (protocolWriteHandshakeReqResp E o)

def acknowledgeHandshake (o : HandshakeOutcome) (k : Context) : Context × Retval :=
  after (protocolReadHandshakeAckReq E o k) (protocolWriteHandshakeAckResp o)

theorem handshake_halves (o : HandshakeOutcome) (k : Context) (hkey : E.privateKeySet = true) :
    protocolHandleHandshake E o k = after (respondHandshake E o k) (acknowledgeHandshake E o) := by
  have hset : ¬ E.privateKeySet = false := by simp [hkey]
  rw [protocolHandleHandshake, if_neg hset]
  unfold respondHandshake
  generalize after (after (after (after (protocolReadHandshakeReq E o k)
    (authorizedEntityLookup E o)) (readRandomBytes E o)) (computeSharedSecret E o))
    (protocolWriteHandshakeReqResp E o) = r
  obtain ⟨t, retval⟩ := r
  cases retval with
  | none => rfl
  | some e => rfl

def workingHandshake (request random ack : Bytes) : HandshakeOutcome where
  request := .ok request
  requestReclaim := none
  random := .ok random
  agreementInit := none
  preparation := none
  responseWrite := none
  errorWrite := none
  ack := ⟨ack, none, none⟩
  ackErrorWrite := written
  ackReclaim := none
  ackRespWrite := written
  ackRespErrorWrite := written

/-! ### The two parties -/

/-- What is written to a socket: a packet in the clear or an encrypted one. -/
inductive Wire where
  | boxed (payload : Bytes)
  | authed (packet : Bytes)
  deriving DecidableEq

inductive ClientStage where
  | idle
  | requested (keyNonce challengeNonce : Bytes)
  | verified (secret serverChallengeNonce : Bytes)
  | acknowledged (secret : Bytes) (clientIv : BitVec 64)
  | session (secret : Bytes) (clientIv serverIv : BitVec 64)
  | ended

/-- `sent` and `received` are what was encrypted and decrypted so far, ghosts. -/
structure Client where
  stage : ClientStage
  sent : List Bytes
  received : List Bytes

structure Session where
  server : Connection
  responded : Bool
  client : Client
  toServer : List Wire
  toClient : List Wire

def opened : Session := ⟨start, false, ⟨.idle, [], []⟩, [], []⟩

structure ClientIdentity where
  entityId : Uuid
  privkey : Bytes

inductive SessionEvent where
  | clientRequest (keyNonce challengeNonce : Bytes)
  | serverRespond (random : Bytes)
  | clientVerify
  | clientAcknowledge
  | serverAcknowledge
  | clientFinish (frags : List Bytes)
  | clientSend (payload : Bytes)
  | clientReceive (frags : List Bytes)
  | serverTurn (o : TurnOutcome)
  | serverWrite (payload : Bytes)
  | serverOther (a : Action)
  | clientEnds
  | serverEnds

/-! ### Steps -/

def wireOf : Event → Option Wire
  | .writeBoxed payload => some (.boxed payload)
  | .writeAuthed iv secret payload true => some (.authed (E.sealedPacket iv secret payload))
  | _ => none

/-- The server goes on as `t`, and what it wrote on the way is under way to the client. -/
def served (s : Session) (t : Connection) : Session :=
  { s with
    server := t
    toClient := s.toClient ++ (t.context.log.drop s.server.context.log.length).filterMap
      (wireOf E) }

def readPacket (secret : Bytes) (iv : BitVec 64) (packet : Bytes) (frags : List Bytes) :
    Option (Except AuthedError Bytes) :=
  if frags.flatten = packet then
    some (ipcReadAuthedDataBlock C.crypto none secret iv frags).1
  else none

def clientStep (c : Client) (stage : ClientStage) : Client := { c with stage := stage }

def clientSent (c : Client) (payload : Bytes) (stage : ClientStage) : Client :=
  { c with stage := stage, sent := c.sent ++ [payload] }

def clientReceived (c : Client) (payload : Bytes) (stage : ClientStage) : Client :=
  { c with stage := stage, received := c.received ++ [payload] }

def afterRead (s : Session) (rest : List Wire) (stage : Bytes → ClientStage) :
    Except AuthedError Bytes → Session
  | .ok val => { s with client := clientReceived s.client val (stage val), toClient := rest }
  | .error _ => { s with client := clientStep s.client .ended, toClient := rest }

/-- The client continues its session when the acknowledgement is a success. -/
def finishedStage (secret : Bytes) (clientIv : BitVec 64) (val : Bytes) : ClientStage :=
  match recvrespHandshakeAck val with
  | .ok (_, status) => if status = 0 then .session secret clientIv (initialServerIv + 1) else .ended
  | .error _ => .ended

/-- The actions of the server that neither read from the client nor write to it. -/
def isOther : Action → Bool
  | .handshake _ => false
  | .turn _ => false
  | .write .. => false
  | _ => true

/-- Neither side sends a packet that is over the limit of the readers. A socket that fails ends the
side that uses it. -/
def step (id : ClientIdentity) (s : Session) : SessionEvent → Option Session
  | .clientRequest keyNonce challengeNonce =>
    match s.client.stage with
    | .idle =>
      if keyNonce.length = C.nonceSize ∧ challengeNonce.length = C.nonceSize then
        some { s with
          client := clientStep s.client (.requested keyNonce challengeNonce)
          toServer := s.toServer ++
            [.boxed (sendreqHandshakeRequest C id.entityId keyNonce challengeNonce)] }
      else none
    | _ => none
  | .serverRespond random =>
    if s.server.stage = .handshake ∧ s.responded = false ∧ E.privateKeySet = true ∧
        random.length = E.nonceSize + E.nonceSize then
      match s.toServer with
      | .boxed request :: rest =>
        let (k, retval) :=
          respondHandshake E (workingHandshake request random []) s.server.context
        some { served E s { s.server with context := k, stage := stageAfter .handshake retval } with
          responded := true
          toServer := rest }
      | _ => none
    else none
  | .clientVerify =>
    match s.client.stage, s.toClient with
    | .requested keyNonce challengeNonce, .boxed val :: rest =>
      match recvrespHandshakeRequest C id.privkey keyNonce challengeNonce val with
      | .ok offer => some { s with
          client := clientStep s.client (.verified offer.sharedSecret offer.serverChallengeNonce)
          toClient := rest }
      | .error _ => some { s with client := clientStep s.client .ended, toClient := rest }
    | _, _ => none
  | .clientAcknowledge =>
    match s.client.stage with
    | .verified secret challenge =>
      let payload := sendreqHandshakeAck C secret challenge
      some { s with
        client := clientSent s.client payload (.acknowledged secret (initialClientIv + 1))
        toServer := s.toServer ++ [.authed (authedPacket C.crypto secret initialClientIv payload)] }
    | _ => none
  | .serverAcknowledge =>
    if s.server.stage = .handshake ∧ s.responded = true then
      match s.toServer with
      | .authed packet :: rest =>
        let (k, retval) := acknowledgeHandshake E (workingHandshake [] [] packet) s.server.context
        some { served E s { s.server with context := k, stage := stageAfter .opening retval } with
          toServer := rest }
      | _ => none
    else none
  | .clientFinish frags =>
    match s.client.stage, s.toClient with
    | .acknowledged secret iv, .authed packet :: rest =>
      (readPacket C secret initialServerIv packet frags).map
        (afterRead s rest (finishedStage secret iv))
    | _, _ => none
  | .clientSend payload =>
    match s.client.stage with
    | .session secret clientIv serverIv =>
      if payload.length ≤ maxAuthedSize then
        some { s with
          client := clientSent s.client payload (.session secret (clientIv + 1) serverIv)
          toServer := s.toServer ++ [.authed (authedPacket C.crypto secret clientIv payload)] }
      else none
    | _ => none
  | .clientReceive frags =>
    match s.client.stage, s.toClient with
    | .session secret clientIv serverIv, .authed packet :: rest =>
      (readPacket C secret serverIv packet frags).map
        (afterRead s rest fun _ => .session secret clientIv (serverIv + 1))
    | _, _ => none
  | .serverTurn o =>
    if s.server.stage = .reading then
      match s.toServer with
      | .authed packet :: rest =>
        some { served E s (next E s.server (.turn { o with read := ⟨packet, none, none⟩ })) with
          toServer := rest }
      | _ => none
    else none
  | .serverWrite payload =>
    if s.server.writing = true ∧ payload.length ≤ maxAuthedSize then
      some (served E s (next E s.server (.write payload written)))
    else none
  | .serverOther a =>
    if isOther a = true ∧ Enabled s.server a then some (served E s (next E s.server a)) else none
  | .clientEnds => some { s with client := clientStep s.client .ended }
  | .serverEnds => some { s with server := { s.server with stage := .gone, writing := false } }

/-! ### What passed -/

def serverSent (log : List Event) : List Bytes :=
  log.filterMap fun
    | .writeAuthed _ _ payload true => some payload
    | _ => none

def serverReceived (log : List Event) : List Bytes :=
  log.filterMap fun
    | .readAuthed _ _ _ (some payload) => some payload
    | _ => none

end ClientSession
