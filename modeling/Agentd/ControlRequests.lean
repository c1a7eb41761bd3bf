import Agentd.ProtocolFiber

/-! # The control API of the protocol service

The supervisor sets the private key, adds entities and gives them capabilities over a control
socket, before any client is let in. Here are the packets that the API writes and the fiber that
serves them; what can fail around it is an outcome that is given to the step. -/
namespace ControlRequests

open ByteString
open DataserviceRecords
open NotificationEndpoint (protocolserviceError)
open ClientProtocol
open ProtocolFiber

/-! ### Requests -/

def reqIdAuthEntityAdd : BitVec 32 := 0x00000000

def reqIdAuthEntityCapAdd : BitVec 32 := 0x00000001

def reqIdPrivateKeySet : BitVec 32 := 0x00000002

def reqIdFinalize : BitVec 32 := 0x00000003

inductive ControlRequest where
  | authorizedEntityAdd (entityId : Uuid) (encPubkey signPubkey : Bytes)
  | authorizedEntityCapabilityAdd (entityId subjectId verbId objectId : Uuid)
  | privateKeySet (entityId : Uuid) (encPubkey encPrivkey signPubkey signPrivkey : Bytes)
  deriving DecidableEq

def sizeWord (key : Bytes) : Bytes := be 4 (BitVec.ofNat 32 key.length)

@[simp] theorem length_sizeWord (key : Bytes) : (sizeWord key).length = 4 := length_be 4 _

/-- `protocolservice_control_api_sendreq_authorized_entity_add`; the offset of the API is zero. -/
def encodeAuthorizedEntityAdd (entityId : Uuid) (encPubkey signPubkey : Bytes) : Bytes :=
  be 4 reqIdAuthEntityAdd ++ (be 4 (0 : BitVec 32) ++ (sizeWord encPubkey ++ (sizeWord signPubkey ++
    (be 16 entityId ++ (encPubkey ++ signPubkey)))))

def encodeAuthorizedEntityCapabilityAdd (entityId subjectId verbId objectId : Uuid) : Bytes :=
  be 4 reqIdAuthEntityCapAdd ++ (be 4 (0 : BitVec 32) ++ (be 16 entityId ++ (be 16 subjectId ++
    (be 16 verbId ++ be 16 objectId))))

def encodePrivateKeySet (entityId : Uuid) (encPubkey encPrivkey signPubkey signPrivkey : Bytes) :
    Bytes :=
  be 4 reqIdPrivateKeySet ++ (be 4 (0 : BitVec 32) ++ (sizeWord encPubkey ++ (sizeWord encPrivkey ++
    (sizeWord signPubkey ++ (sizeWord signPrivkey ++ (be 16 entityId ++ (encPubkey ++ (encPrivkey ++
      (signPubkey ++ signPrivkey)))))))))

namespace ControlRequest

def requestId : ControlRequest → BitVec 32
  | authorizedEntityAdd .. => reqIdAuthEntityAdd
  | authorizedEntityCapabilityAdd .. => reqIdAuthEntityCapAdd
  | privateKeySet .. => reqIdPrivateKeySet

def encode : ControlRequest → Bytes
  | authorizedEntityAdd id enc sign => encodeAuthorizedEntityAdd id enc sign
  | authorizedEntityCapabilityAdd id subject verb object =>
    encodeAuthorizedEntityCapabilityAdd id subject verb object
  | privateKeySet id encPub encPriv signPub signPriv =>
    encodePrivateKeySet id encPub encPriv signPub signPriv

end ControlRequest

/-! ### State -/

/-- The key sizes of the crypto suite; a size goes over the socket in 32 bits. -/
structure Suite where
  encPubkeySize : ℕ
  encPrivkeySize : ℕ
  signPubkeySize : ℕ
  signPrivkeySize : ℕ
  fits : encPubkeySize < 2 ^ 32 ∧ encPrivkeySize < 2 ^ 32 ∧ signPubkeySize < 2 ^ 32 ∧
    signPrivkeySize < 2 ^ 32
  /-- What a tree answers when the key is there. -/
  rbtreeDuplicate : Failure

/-- The part of `protocolservice_context` that the control fiber writes, and its own flag. -/
structure ControlContext where
  agentdUuid : Uuid
  agentdEncPubkey : Bytes
  agentdEncPrivkey : Bytes
  agentdSignPubkey : Bytes
  agentdSignPrivkey : Bytes
  privateKeySet : Bool
  authorizedEntityDict : Uuid → Option Entity
  shouldExit : Bool

structure Outcome where
  encPubkeyAllocFails : Bool
  signPubkeyAllocFails : Bool
  entityAlloc : Retval
  treeCreate : Retval
  entityInsert : Retval
  entityRelease : Retval
  capabilityCreate : Retval
  capabilityInsert : Retval
  capabilityRelease : Retval
  responseAllocFails : Bool
  responseWrite : Retval
  responseReclaim : Retval
  requestReclaim : Retval

structure Dispatched where
  context : ControlContext
  responses : List Bytes
  retval : Retval

/-! ### Responses -/

def outOfMemory : Failure := ⟨0x8000001, by decide⟩

def requestPacketInvalidSize : Failure := ⟨protocolserviceError 0x14, by decide⟩

def ipcWriteDataFailure : Failure := ⟨protocolserviceError 0x16, by decide⟩

def controlEntityNotFound : Failure := ⟨protocolserviceError 0x1B, by decide⟩

def controlResponse (requestId : BitVec 32) (status : Status) : Bytes :=
  be 4 requestId ++ (be 4 (0 : BitVec 32) ++ be 4 status)

variable (S : Suite) (o : Outcome) (k : ControlContext)

def writeResponse (requestId : BitVec 32) (status : Status) : Dispatched :=
  if o.responseAllocFails then ⟨k, [], some outOfMemory⟩
  else
    match o.responseWrite with
    | some _ => ⟨k, [], mergeRelease o.responseReclaim (some ipcWriteDataFailure)⟩
    | none => ⟨k, [controlResponse requestId status], o.responseReclaim⟩

/-- A response that reports an error, and the status when it could be written. -/
def reject (requestId : BitVec 32) (e : Failure) : Dispatched :=
  let d := writeResponse o k requestId e.val
  { d with retval := d.retval.or (some e) }

inductive RecvError where
  | readUnexpectedDataSize
  | readUnexpectedDataType
  deriving DecidableEq, Repr

/-- The functions of the API that read the responses differ in their request id; offset and
status. -/
def recvresp (requestId : BitVec 32) (b : Bytes) : Except RecvError (BitVec 32 × Status) :=
  if b.length ≠ 12 then .error .readUnexpectedDataSize
  else if wordAt b 0 ≠ requestId then .error .readUnexpectedDataType
  else .ok (wordAt b 4, wordAt b 8)

/-! ### Decoding -/

/-- What is in the packet of a request behind its method, if its sizes are right. -/
def decodeAuthEntityAdd (payload : Bytes) : Option ControlRequest :=
  let encSize := (wordAt payload 4).toNat
  let signSize := (wordAt payload 8).toNat
  if payload.length < 12 then none
  else if S.encPubkeySize ≠ encSize ∨ S.signPubkeySize ≠ signSize then none
  else if payload.length - 12 < 16 + encSize + signSize then none
  else some (.authorizedEntityAdd (bits 128 (slice payload 12 16)) (slice payload 28 encSize)
    (slice payload (28 + encSize) signSize))

def decodeAuthEntityCapabilityAdd (payload : Bytes) : Option ControlRequest :=
  if payload.length < 4 + 4 * 16 then none
  else some (.authorizedEntityCapabilityAdd (bits 128 (slice payload 4 16))
    (bits 128 (slice payload 20 16)) (bits 128 (slice payload 36 16))
      (bits 128 (slice payload 52 16)))

def decodePrivateKeySet (payload : Bytes) : Option ControlRequest :=
  let encPubSize := (wordAt payload 4).toNat
  let encPrivSize := (wordAt payload 8).toNat
  let signPubSize := (wordAt payload 12).toNat
  let signPrivSize := (wordAt payload 16).toNat
  if payload.length < 20 then none
  else if S.encPubkeySize ≠ encPubSize ∨ S.encPrivkeySize ≠ encPrivSize ∨
      S.signPubkeySize ≠ signPubSize ∨ S.signPrivkeySize ≠ signPrivSize then none
  else if payload.length - 20 < 16 + encPubSize + encPrivSize + signPubSize + signPrivSize then none
  else some (.privateKeySet (bits 128 (slice payload 20 16)) (slice payload 36 encPubSize)
    (slice payload (36 + encPubSize) encPrivSize)
    (slice payload (36 + encPubSize + encPrivSize) signPubSize)
    (slice payload (36 + encPubSize + encPrivSize + signPubSize) signPrivSize))

/-! ### Dispatching -/

def rbtreeInsert (isPresent : Bool) (insert : Retval) : Retval :=
  if isPresent then some S.rbtreeDuplicate else insert

def authorizedEntityAdd (entityId : Uuid) (encPubkey signPubkey : Bytes) :
    ControlContext × Retval :=
  match o.entityAlloc with
  | some e => (k, some e)
  | none =>
    match o.treeCreate.or (rbtreeInsert S
      (k.authorizedEntityDict entityId).isSome o.entityInsert) with
    | some e => (k, mergeRelease o.entityRelease (some e))
    | none =>
      ({ k with
          authorizedEntityDict := Function.update k.authorizedEntityDict entityId
            (some ⟨entityId, [], encPubkey, signPubkey⟩) }, none)

/-- An entity that is not added is reported, and then the request counts as served. -/
def performAuthEntityAdd (entityId : Uuid) (encPubkey signPubkey : Bytes) : Dispatched :=
  if o.encPubkeyAllocFails then reject o k reqIdAuthEntityAdd outOfMemory
  else if o.signPubkeyAllocFails then reject o k reqIdAuthEntityAdd outOfMemory
  else
    match authorizedEntityAdd S o k entityId encPubkey signPubkey with
    | (k, some e) =>
      let d := writeResponse o k reqIdAuthEntityAdd e.val
      { d with retval := if d.retval.isNone then none else some e }
    | (k, none) => writeResponse o k reqIdAuthEntityAdd 0

/-- Capabilities are compared as a whole. -/
local instance capability_lawful : LawfulBEq (Uuid × Uuid × Uuid) := inferInstance

def performAuthEntityCapabilityAdd (entityId subjectId verbId objectId : Uuid) : Dispatched :=
  match k.authorizedEntityDict entityId with
  | none => ⟨k, [], some controlEntityNotFound⟩
  | some entity =>
    match o.capabilityCreate with
    | some e => ⟨k, [], some e⟩
    | none =>
      match rbtreeInsert S (decide ((subjectId, verbId, objectId) ∈ entity.capabilities))
          o.capabilityInsert with
      | some e => ⟨k, [], mergeRelease o.capabilityRelease (some e)⟩
      | none =>
        let entity :=
          { entity with capabilities := (subjectId, verbId, objectId) :: entity.capabilities }
        writeResponse o { k with
            authorizedEntityDict := Function.update k.authorizedEntityDict entityId (some entity) }
          reqIdAuthEntityCapAdd 0

def performPrivateKeySet (entityId : Uuid) (encPubkey encPrivkey signPubkey signPrivkey : Bytes) :
    Dispatched :=
  writeResponse o { k with
      agentdUuid := entityId
      agentdEncPubkey := encPubkey
      agentdEncPrivkey := encPrivkey
      agentdSignPubkey := signPubkey
      agentdSignPrivkey := signPrivkey
      privateKeySet := true }
    reqIdPrivateKeySet 0

def perform : ControlRequest → Dispatched
  | .authorizedEntityAdd id enc sign => performAuthEntityAdd S o k id enc sign
  | .authorizedEntityCapabilityAdd id subject verb object =>
    performAuthEntityCapabilityAdd S o k id subject verb object
  | .privateKeySet id encPub encPriv signPub signPriv =>
    performPrivateKeySet o k id encPub encPriv signPub signPriv

/-- A request of the API: what cannot be decoded has the wrong size. -/
def dispatchRequest (requestId : BitVec 32) (decoded : Option ControlRequest) : Dispatched :=
  match decoded with
  | none => reject o k requestId requestPacketInvalidSize
  | some r => perform S o k r

def dispatchAuthEntityAdd (payload : Bytes) : Dispatched :=
  dispatchRequest S o k reqIdAuthEntityAdd (decodeAuthEntityAdd S payload)

def dispatchAuthEntityCapabilityAdd (payload : Bytes) : Dispatched :=
  dispatchRequest S o k reqIdAuthEntityCapAdd (decodeAuthEntityCapabilityAdd payload)

def dispatchPrivateKeySet (payload : Bytes) : Dispatched :=
  dispatchRequest S o k reqIdPrivateKeySet (decodePrivateKeySet S payload)

def dispatchFinalize : Dispatched :=
  writeResponse o { k with shouldExit := true } reqIdFinalize 0

/-- `protocolservice_control_decode_and_dispatch`; a packet without a method is not answered. -/
def decodeAndDispatch (packet : Bytes) : Dispatched :=
  if packet.length < 4 then ⟨k, [], some requestPacketInvalidSize⟩
  else
    let method := wordAt packet 0
    let payload := packet.drop 4
    if method = reqIdAuthEntityAdd then dispatchAuthEntityAdd S o k payload
    else if method = reqIdAuthEntityCapAdd then dispatchAuthEntityCapabilityAdd S o k payload
    else if method = reqIdPrivateKeySet then dispatchPrivateKeySet S o k payload
    else if method = reqIdFinalize then dispatchFinalize o k
    else reject o k method requestPacketBad

/-! ### The control fiber -/

def ends (d : Dispatched) (o : Outcome) : Bool :=
  d.retval.isSome || o.requestReclaim.isSome || d.context.shouldExit

structure Exchange where
  before : ControlContext
  packet : Bytes
  outcome : Outcome
  result : Dispatched

/-- The packets that are read one after another, until the fiber leaves its loop. -/
def serve (k : ControlContext) : List (Bytes × Outcome) → List Exchange
  | [] => []
  | (packet, o) :: rest =>
    let d := decodeAndDispatch S o k packet
    ⟨k, packet, o, d⟩ :: if ends d o then [] else serve d.context rest

end ControlRequests
