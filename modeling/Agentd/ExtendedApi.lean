import Agentd.ClientRequests

/-! # The extended API and its pointers

Requests for an entity go to the connection that has enabled the extended API for it, the sentinel,
and its responses go back to the connection that asked. What is modelled here are the dictionaries,
the lifetimes of their entries and of the connections, and where a protocol fiber stands while
`message_send` lets other fibers run. -/
namespace ExtendedApi

open ByteString
open DataserviceRecords
open ClientProtocol
open ClientRequests (Env extendedApiCanRespond)

/-! ### State -/

inductive Packet where
  | clientRequest (offset : BitVec 64) (clientId verbId : Uuid)
    (encryptionPubkey signingPubkey requestBody : Bytes)
  | extendedApiResponse (offset : BitVec 32) (status : Status) (responseBody : Bytes)
  | statusResponse (requestId : BitVec 32) (status : Status) (offset : BitVec 32)
  deriving DecidableEq

/-- `protocolservice_extended_api_dict_entry`. A connection makes at most one, so that its number
stands for the pointer to it. -/
structure DictEntry where
  entityId : Uuid
  ctx : ℕ
  deriving DecidableEq

/-- `protocolservice_extended_api_response_xlat_entry`. -/
structure XlatEntry where
  serverOffset : BitVec 64
  clientOffset : BitVec 32
  clientReturnAddress : ℕ
  deriving DecidableEq

/-- Where the protocol fiber of a connection is. Inside `message_send` it has what it goes on
with. -/
inductive Fiber where
  | absent
  | reading
  | sendingRequest (entry : DictEntry) (offset : BitVec 32)
  | sendingResponse (offset : BitVec 64) (requestOffset : BitVec 32)
  | ended
  deriving DecidableEq

/-- `protocolservice_protocol_fiber_context`, referred to by the protocol fiber and by the write
fiber of a connection. Its release has begun when both have let go of it. -/
structure FiberContext where
  fiber : Fiber
  writing : Bool
  released : Bool
  mailbox : Option (List Packet)
  extendedApiEnabled : Bool
  extendedApiCanRespond : Bool
  extendedApiOffset : BitVec 64
  extendedApiOffsetDict : List XlatEntry
  deriving DecidableEq

def FiberContext.absent : FiberContext := ⟨.absent, false, false, none, false, false, 0, []⟩

structure Accepted where
  client : ℕ
  sentinel : ℕ
  serverOffset : BitVec 64
  request : Decoded ExtendedApiFields
  deriving DecidableEq

structure Responded where
  sentinel : ℕ
  entry : XlatEntry
  response : ExtendedApiResponse
  deriving DecidableEq

/-- The last five fields are ghosts: requests and responses, what ever came into a mailbox and what
of it was written, and the entries that were used after their release. -/
structure System where
  connection : ℕ → FiberContext
  extendedApiDict : List DictEntry
  accepted : List Accepted
  responded : List Responded
  arrived : ℕ → List Packet
  written : ℕ → List Packet
  stale : List DictEntry

def start : System := ⟨fun _ => .absent, [], [], [], fun _ => [], fun _ => [], []⟩

def System.set (s : System) (c : ℕ) (k : FiberContext) : System :=
  { s with connection := Function.update s.connection c k }

def System.setFiber (s : System) (c : ℕ) (fiber : Fiber) : System :=
  s.set c { s.connection c with fiber := fiber }

/-! ### Messages -/

/-- A message to a mailbox that is closed is not sent. -/
def messageSend (s : System) (c : ℕ) (p : Packet) : Option System :=
  match (s.connection c).mailbox with
  | none => none
  | some q => some { s.set c { s.connection c with mailbox := some (q ++ [p]) } with
      arrived := Function.update s.arrived c (s.arrived c ++ [p]) }

def sendErrorResponse (s : System) (c : ℕ) (requestId : BitVec 32) (status : Status)
    (offset : BitVec 32) : System :=
  (messageSend s c (.statusResponse requestId status offset)).getD s

def touch (s : System) (entry : DictEntry) : System :=
  if entry ∈ s.extendedApiDict ∧ (s.connection entry.ctx).released = false then s
  else { s with stale := s.stale ++ [entry] }

/-! ### Requests -/

abbrev Outcome := System × Option Status

variable (E : Env)

/-- An entry that is there is not clobbered. -/
def routeExtendedApiForEntity (s : System) (c : ℕ) : Except Status System :=
  if (s.extendedApiDict.find? fun e => e.entityId = (E.entity c).uuid).isSome then
    .error errorExtendedApiAlreadyEnabled
  else .ok { s with extendedApiDict := s.extendedApiDict ++ [⟨(E.entity c).uuid, c⟩] }

def unrouteExtendedApiForEntity (s : System) (c : ℕ) : System :=
  { s with extendedApiDict := s.extendedApiDict.filter fun e => e.entityId ≠ (E.entity c).uuid }

def dndExtendedApiEnable (s : System) (c : ℕ) (offset : BitVec 32) (p : Bytes) : Outcome :=
  if (E.entity c).capabilityCheck capabilityExtendedApiEnable E.agentdUuid = false then
    (s, some errorUnauthorized)
  else
    match E.library.decodeReq .extendedApiEnable p with
    | .error e => (s, some e)
    | .ok req =>
      let s := s.set c
        { s.connection c with extendedApiCanRespond := extendedApiCanRespond E c }
      match routeExtendedApiForEntity E s c with
      | .error e => (s, some e)
      | .ok s =>
        let s := s.set c { s.connection c with extendedApiEnabled := true }
        (sendErrorResponse s c req.requestId 0 offset, none)

/-- The tree of a sentinel does not take a second entry for an offset. -/
def xlatEntryAdd (s : System) (d : ℕ) (entry : XlatEntry) : Except Status System :=
  let k := s.connection d
  if (k.extendedApiOffsetDict.find? fun e => e.serverOffset = entry.serverOffset).isSome then
    .error E.library.rbtreeDuplicate
  else .ok (s.set d { k with extendedApiOffsetDict := k.extendedApiOffsetDict ++ [entry] })

/-- The packet goes to the write fiber of the sentinel, and the client's protocol fiber waits in
`message_send` with the entry. -/
def sendOn (s : System) (c : ℕ) (entry : DictEntry) (offset : BitVec 32) (packet : Packet) :
    Outcome :=
  match messageSend s entry.ctx packet with
  | none => (s, some E.library.messageSendFailure)
  | some s => (s.setFiber c (.sendingRequest entry offset), none)

def clientRequestPacket (c : ℕ) (offset : BitVec 64) (req : Decoded ExtendedApiFields) : Packet :=
  .clientRequest offset (E.entity c).uuid req.fields.verbId (E.entity c).encryptionPubkey
    (E.entity c).signingPubkey req.fields.requestBody

def extendedApiSendReq (s : System) (c : ℕ) (req : Decoded ExtendedApiFields) : Outcome :=
  if (E.entity c).capabilityCheck req.fields.verbId req.fields.entityId = false then
    (s, some errorUnauthorized)
  else
    match s.extendedApiDict.find? fun e => e.entityId = req.fields.entityId with
    | none => (s, some errorExtendedApiUnknownEntity)
    | some entry =>
      let s := touch s entry
      let k := s.connection entry.ctx
      let offset := k.extendedApiOffset + 1
      let s := { s.set entry.ctx { k with extendedApiOffset := offset } with
        accepted := s.accepted ++ [⟨c, entry.ctx, offset, req⟩] }
      let packet := clientRequestPacket E c offset req
      if k.extendedApiCanRespond then
        match xlatEntryAdd E s entry.ctx ⟨offset, req.offset, c⟩ with
        | .error e => (s, some e)
        | .ok s => sendOn E s c entry req.offset packet
      else sendOn E s c entry req.offset packet

def dndExtendedApiSendrecv (s : System) (c : ℕ) (p : Bytes) : Outcome :=
  if (E.entity c).capabilityCheck capabilityExtendedApiSendrecv E.agentdUuid = false then
    (s, some errorUnauthorized)
  else
    match E.library.decodeReqExtendedApi p with
    | .error e => (s, some e)
    | .ok req => extendedApiSendReq E s c req

def dndExtendedApiSendresp (s : System) (c : ℕ) (offset : BitVec 32) (p : Bytes) : Outcome :=
  if (E.entity c).capabilityCheck capabilityExtendedApiResp E.agentdUuid = false then
    (s, some errorUnauthorized)
  else
    match E.library.decodeReqExtendedApiResponse p with
    | .error e => (s, some e)
    | .ok req =>
      match (s.connection c).extendedApiOffsetDict.find? fun e => e.serverOffset = req.offset with
      | none => (s, some E.library.rbtreeNotFound)
      | some entry =>
        match messageSend s entry.clientReturnAddress
            (.extendedApiResponse entry.clientOffset req.status req.responseBody) with
        | none => (s, some E.library.messageSendFailure)
        | some s =>
          ({ s.setFiber c (.sendingResponse req.offset offset) with
            responded := s.responded ++ [⟨c, entry, req⟩] }, none)

/-- The other requests have nothing to do with the dictionaries. -/
def decodeAndDispatch (s : System) (c : ℕ) (p : Bytes) : Outcome :=
  match ProtocolRequest.ofCode (wordAt p 0) with
  | some .extendedApiEnable => dndExtendedApiEnable E s c (wordAt p 4) p
  | some .extendedApiSendrecv => dndExtendedApiSendrecv E s c p
  | some .extendedApiSendresp => dndExtendedApiSendresp E s c (wordAt p 4) p
  | _ => (s, none)

def respondFailure (c : ℕ) (requestId offset : BitVec 32) : Outcome → System
  | (s, none) => s
  | (s, some status) => sendErrorResponse s c requestId status offset

/-- `message_send` returns. After a request the entry is read once more, for whether its sentinel
responds; in memory that was released that can be anything. After a response its entry goes. -/
def resume (s : System) (c : ℕ) (anything : Bool) : Fiber → System
  | .sendingRequest entry offset =>
    let s := touch s entry
    let responds := if entry ∈ s.extendedApiDict then
      (s.connection entry.ctx).extendedApiCanRespond else anything
    let s := s.setFiber c .reading
    if responds then s
    else sendErrorResponse s c ProtocolRequest.extendedApiSendrecv.code 0 offset
  | .sendingResponse offset requestOffset =>
    let k := s.connection c
    let s := s.set c { k with
      fiber := .reading
      extendedApiOffsetDict := k.extendedApiOffsetDict.filter fun e => e.serverOffset ≠ offset }
    if (k.extendedApiOffsetDict.find? fun e => e.serverOffset = offset).isSome then
      sendErrorResponse s c ProtocolRequest.extendedApiSendresp.code 0 (offset.setWidth 32)
    else
      sendErrorResponse s c ProtocolRequest.extendedApiSendresp.code E.library.rbtreeNotFound
        requestOffset
  | _ => s

def contextRelease (s : System) (c : ℕ) : System :=
  let k := s.connection c
  let s := s.set c { k with released := true }
  if k.extendedApiEnabled then unrouteExtendedApiForEntity E s c else s

/-- The data service context is closed in between, and other fibers run meanwhile. -/
def contextReclaim (s : System) (c : ℕ) : System :=
  s.set c { s.connection c with mailbox := none, extendedApiOffsetDict := [] }

/-! ### Steps -/

inductive Action where
  | connect (c : ℕ)
  | request (c : ℕ) (p : Bytes)
  | resume (c : ℕ) (anything : Bool)
  | disconnect (c : ℕ)
  | write (c : ℕ)
  | writeEnds (c : ℕ)
  | release (c : ℕ)
  | reclaim (c : ℕ)
  deriving DecidableEq

def Fiber.sends : Fiber → Bool
  | .sendingRequest _ _ => true
  | .sendingResponse _ _ => true
  | _ => false

def Enabled (s : System) : Action → Prop
  | .connect c => (s.connection c).fiber = .absent
  | .request c _ => (s.connection c).fiber = .reading
  | .resume c _ => (s.connection c).fiber.sends = true
  | .disconnect c => (s.connection c).fiber = .reading
  | .write c => (s.connection c).writing = true ∧ ((s.connection c).mailbox.getD []) ≠ []
  | .writeEnds c => (s.connection c).writing = true
  | .release c => (s.connection c).fiber = .ended ∧ (s.connection c).writing = false ∧
    (s.connection c).released = false
  | .reclaim c => (s.connection c).released = true ∧ (s.connection c).mailbox ≠ none

instance (s : System) (a : Action) : Decidable (Enabled s a) := by
  cases a <;> dsimp only [Enabled] <;> infer_instance

def writePacket (s : System) (c : ℕ) : Option (List Packet) → System
  | some (p :: q) =>
    { s.set c { s.connection c with mailbox := some q } with
      written := Function.update s.written c (s.written c ++ [p]) }
  | _ => s

def next (s : System) : Action → System
  | .connect c =>
    s.set c { s.connection c with fiber := .reading, writing := true, mailbox := some [] }
  | .request c p => respondFailure c (wordAt p 0) (wordAt p 4) (decodeAndDispatch E s c p)
  | .resume c anything => resume E s c anything (s.connection c).fiber
  | .disconnect c => s.setFiber c .ended
  | .write c => writePacket s c (s.connection c).mailbox
  | .writeEnds c => s.set c { s.connection c with writing := false }
  | .release c => contextRelease E s c
  | .reclaim c => contextReclaim s c

inductive Run (allowed : System → Action → Prop) : System → Prop
  | start : Run allowed start
  | tail {s : System} {a : Action} (before : Run allowed s) (enabled : Enabled s a)
      (meets : allowed s a) : Run allowed (next E s a)

def play (allowed : System → Action → Prop) [∀ s a, Decidable (allowed s a)] (s : System)
    (as : List Action) : Option System :=
  as.foldlM (fun s a => if Enabled s a ∧ allowed s a then some (next E s a) else none) s

variable {E} in
theorem run_of_play {allowed meets : System → Action → Prop} [∀ s a, Decidable (allowed s a)]
    {s t : System} {as : List Action} (hmeets : ∀ s a, allowed s a → meets s a)
    (hs : Run E meets s) (h : play E allowed s as = some t) : Run E meets t := by
  induction as generalizing s with
  | nil =>
    cases h
    exact hs
  | cons a as ih =>
    rw [play, List.foldlM_cons] at h
    obtain ⟨u, hu, hrest⟩ := Option.bind_eq_some_iff.mp h
    by_cases ha : Enabled s a ∧ allowed s a
    · rw [if_pos ha] at hu
      cases hu
      exact ih (hs.tail ha.1 (hmeets s a ha.2)) hrest
    · rw [if_neg ha] at hu
      cases hu

end ExtendedApi
