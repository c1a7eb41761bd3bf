import Agentd.AssertionTrips
import Agentd.ClientProtocol
import Mathlib.Data.Finset.Card

/-! # Requests of clients and their responses

The connections with all that they can ask: requests for the data service go through its endpoint
fiber, assertions through the notification endpoint, and requests of the extended API to the client
that has enabled it, the sentinel, whose response goes back to the client that asked. A protocol
fiber dispatches one packet after the other; it can be interrupted after each message it sends.
Before its first packet it has a child context opened in the data service, which is closed when it
is gone. -/
namespace ClientRequests

open ByteString
open DataserviceRecords
open DataserviceDispatch
open RequestCodec
open ResponseCodec
open DataEndpoint
open NotificationEndpoint
open AssertionTrips
open ClientProtocol

/-! ### State -/

/-- What does not change: the library, the entity of the agent and the ones that the connections
were authenticated for. -/
structure Env where
  library : Library
  agentdUuid : Uuid
  entity : ℕ → Entity

structure DataRequest where
  client : ℕ
  protocolRequestId : BitVec 32
  offset : BitVec 32
  request : ClientRequest
  deriving DecidableEq

/-- What is in the mailbox of the data service endpoint. -/
inductive DataMessage where
  | contextOpen (client : ℕ)
  | contextClose (client : ℕ)
  | dataserviceReq (q : DataRequest)
  deriving DecidableEq

def DataMessage.client : DataMessage → ℕ
  | .contextOpen c => c
  | .contextClose c => c
  | .dataserviceReq q => q.client

def DataMessage.isContext : DataMessage → Bool
  | .dataserviceReq _ => false
  | _ => true

/-- The child context of a connection. While it is opened and closed its protocol fiber waits. -/
inductive ContextStage where
  | none
  | opening
  | opened
  | closing
  | closed
  deriving DecidableEq

/-- `protocolservice_extended_api_response_xlat_entry`, with the sentinel whose tree it is in. -/
structure ResponseXlatEntry where
  sentinel : ℕ
  serverOffset : BitVec 64
  clientOffset : BitVec 32
  clientReturnAddress : ℕ
  deriving DecidableEq

/-- What a protocol fiber has left to do when it has sent a message to another connection: whether a
request has to be answered is read from the entry of its sentinel, and the entry that a response was
for is removed. -/
inductive Rest where
  | requested (sentinel : ℕ) (offset : BitVec 32)
  | responded (offset : BitVec 64) (requestOffset : BitVec 32)
  deriving DecidableEq

def Rest.spent : Rest → Option (BitVec 64)
  | .requested _ _ => none
  | .responded offset _ => some offset

variable {n : ℕ}

/-- The trees of the sentinels are one list, and the child contexts that the data service holds are
those of a set of connections. The last three fields are ghosts: the requests that were read from
each connection, the requests of others that were passed on to it, and the packets that were written
to it. -/
structure System (n : ℕ) where
  endpoint : NotificationEndpoint.System n
  dataInbox : List DataMessage
  contexts : Finset ℕ
  dataContext : ℕ → ContextStage
  dataReply : Option (ℕ × WriteMessage)
  dataEndpointRuns : Bool
  extendedApiDict : Uuid → Option ℕ
  extendedApiEnabled : ℕ → Bool
  extendedApiOffset : ℕ → BitVec 64
  extendedApiOffsetDict : List ResponseXlatEntry
  rest : ℕ → Option Rest
  /-- The protocol fiber has read its last packet. -/
  loopEnds : ℕ → Bool
  asked : ℕ → List RequestHeader
  forwarded : ℕ → List Header
  written : ℕ → List Bytes

def start (n : ℕ) : System n where
  endpoint := NotificationEndpoint.start n
  dataInbox := []
  contexts := ∅
  dataContext _ := .none
  dataReply := none
  dataEndpointRuns := true
  extendedApiDict _ := none
  extendedApiEnabled _ := false
  extendedApiOffset _ := 0
  extendedApiOffsetDict := []
  rest _ := none
  loopEnds _ := false
  asked _ := []
  forwarded _ := []
  written _ := []

/-! ### Dispatch -/

abbrev Outcome (n : ℕ) := System n × Option Status

def sendTo (s : System n) (c : ℕ) (m : WriteMessage) : System n :=
  { s with endpoint := messageSend s.endpoint c m }

def mailboxOpen (s : System n) (c : ℕ) : Bool := (s.endpoint.returnBox c).isSome

def packetMessage (payload : Bytes) : WriteMessage := ⟨.packet, 0, 0, payload⟩

variable (E : Env)

def dndAssertLatestBlockId (s : System n) (c : ℕ) (offset : BitVec 32) (p : Bytes) : Outcome n :=
  if (E.entity c).capabilityCheck capabilityAssertLatestBlockId E.agentdUuid = false then
    (s, some errorUnauthorized)
  else
    match E.library.decodeReqId .assertLatestBlockId p with
    | .error e => (s, some e)
    | .ok req =>
      if (s.endpoint.connection c).latestBlockIdAssertionSet then
        (s, some errorBlockAssertionAlreadySet)
      else
        ({ s with endpoint :=
            askEndpoint s.endpoint c (.asserting offset) ⟨false, req.offset, req.fields, c⟩ }, none)

def dndAssertLatestBlockIdCancel (s : System n) (c : ℕ) (offset : BitVec 32) (p : Bytes) :
    Outcome n :=
  if (E.entity c).capabilityCheck capabilityAssertLatestBlockIdCancel E.agentdUuid = false then
    (s, some errorUnauthorized)
  else
    match E.library.decodeReq .assertLatestBlockIdCancel p with
    | .error e => (s, some e)
    | .ok _ =>
      if (s.endpoint.connection c).latestBlockIdAssertionSet = false then
        (s, some errorBlockAssertionNotSet)
      else
        ({ s with endpoint := askEndpoint s.endpoint c .cancelling ⟨true, offset, zeroUuid, c⟩ },
          none)

/-- The flag is set when the API is enabled, from capabilities that do not change. -/
def extendedApiCanRespond (c : ℕ) : Bool :=
  (E.entity c).capabilityCheck capabilityExtendedApiResp E.agentdUuid

/-- One connection of an entity can be its sentinel. -/
def dndExtendedApiEnable (s : System n) (c : ℕ) (offset : BitVec 32) (p : Bytes) : Outcome n :=
  if (E.entity c).capabilityCheck capabilityExtendedApiEnable E.agentdUuid = false then
    (s, some errorUnauthorized)
  else
    match E.library.decodeReq .extendedApiEnable p with
    | .error e => (s, some e)
    | .ok req =>
      if (s.extendedApiDict (E.entity c).uuid).isSome then (s, some errorExtendedApiAlreadyEnabled)
      else
        (sendTo { s with
          extendedApiDict := Function.update s.extendedApiDict (E.entity c).uuid (some c)
          extendedApiEnabled := Function.update s.extendedApiEnabled c true } c
          (errorResponseMessage req.requestId 0 offset), none)

def findEntry (s : System n) (sentinel : ℕ) (offset : BitVec 64) : Option ResponseXlatEntry :=
  s.extendedApiOffsetDict.find? fun e => e.sentinel = sentinel ∧ e.serverOffset = offset

def forward (s : System n) (d : ℕ) (packet : Bytes) : System n :=
  { sendTo s d (packetMessage packet) with
    forwarded := Function.update s.forwarded d (s.forwarded d ++ [responseHeader packet]) }

/-- Inside `message_send` other fibers run. -/
def sendOn (s : System n) (c d : ℕ) (offset : BitVec 32) (packet : Bytes) : Outcome n :=
  if mailboxOpen s d = false then (s, some E.library.messageSendFailure)
  else
    ({ forward s d packet with
      rest := Function.update s.rest c (some (.requested d offset)) }, none)

/-- The request gets an offset of the sentinel. A sentinel that cannot respond is only told. -/
def extendedApiSendReq (s : System n) (c : ℕ) (req : Decoded ExtendedApiFields) : Outcome n :=
  if (E.entity c).capabilityCheck req.fields.verbId req.fields.entityId = false then
    (s, some errorUnauthorized)
  else
    match s.extendedApiDict req.fields.entityId with
    | none => (s, some errorExtendedApiUnknownEntity)
    | some d =>
      let offset := s.extendedApiOffset d + 1
      let s := { s with extendedApiOffset := Function.update s.extendedApiOffset d offset }
      let packet := E.library.encodeRespExtendedApiClientRequest offset (E.entity c).uuid
        req.fields.verbId (E.entity c).encryptionPubkey (E.entity c).signingPubkey
        req.fields.requestBody
      if extendedApiCanRespond E d then
        if (findEntry s d offset).isSome then (s, some E.library.rbtreeDuplicate)
        else
          sendOn E { s with
            extendedApiOffsetDict := s.extendedApiOffsetDict ++ [⟨d, offset, req.offset, c⟩] } c d
            req.offset packet
      else sendOn E s c d req.offset packet

def dndExtendedApiSendrecv (s : System n) (c : ℕ) (p : Bytes) : Outcome n :=
  if (E.entity c).capabilityCheck capabilityExtendedApiSendrecv E.agentdUuid = false then
    (s, some errorUnauthorized)
  else
    match E.library.decodeReqExtendedApi p with
    | .error e => (s, some e)
    | .ok req => extendedApiSendReq E s c req

def dndExtendedApiSendresp (s : System n) (c : ℕ) (offset : BitVec 32) (p : Bytes) : Outcome n :=
  if (E.entity c).capabilityCheck capabilityExtendedApiResp E.agentdUuid = false then
    (s, some errorUnauthorized)
  else
    match E.library.decodeReqExtendedApiResponse p with
    | .error e => (s, some e)
    | .ok req =>
      match findEntry s c req.offset with
      | none => (s, some E.library.rbtreeNotFound)
      | some e =>
        if mailboxOpen s e.clientReturnAddress = false then (s, some E.library.messageSendFailure)
        else
          ({ sendTo s e.clientReturnAddress (packetMessage (E.library.encodeResp
              .extendedApiSendrecv e.clientOffset req.status (.data req.responseBody))) with
            rest := Function.update s.rest c (some (.responded req.offset offset)) }, none)

def dndStatusGet (s : System n) (c : ℕ) (offset : BitVec 32) (p : Bytes) : Outcome n :=
  match E.library.decodeReq .statusGet p with
  | .error e => (s, some e)
  | .ok req => (sendTo s c (errorResponseMessage req.requestId 0 offset), none)

def dndClose (s : System n) (c : ℕ) (offset : BitVec 32) : Outcome n :=
  (sendTo { s with loopEnds := Function.update s.loopEnds c true } c
    (errorResponseMessage ProtocolRequest.close.code 0 offset), none)

def sendRequest (s : System n) (c : ℕ) (offset : BitVec 32) :
    Except Status (BitVec 32 × ClientRequest) → Outcome n
  | .error e => (s, some e)
  | .ok (id, q) =>
    ({ s with dataInbox := s.dataInbox ++ [.dataserviceReq ⟨c, id, offset, q⟩] }, none)

def decodeAndDispatch (s : System n) (c : ℕ) (requestId offset : BitVec 32) (p : Bytes) :
    Outcome n :=
  match ProtocolRequest.ofCode requestId with
  | none => (s, some errorInvalidRequestId)
  | some .assertLatestBlockId => dndAssertLatestBlockId E s c offset p
  | some .assertLatestBlockIdCancel => dndAssertLatestBlockIdCancel E s c offset p
  | some .extendedApiEnable => dndExtendedApiEnable E s c offset p
  | some .extendedApiSendrecv => dndExtendedApiSendrecv E s c p
  | some .extendedApiSendresp => dndExtendedApiSendresp E s c offset p
  | some .statusGet => dndStatusGet E s c offset p
  | some .close => dndClose s c offset
  | some r =>
    match dataserviceRequest E.library p r with
    | none => (s, some errorInvalidRequestId)
    | some request => sendRequest s c offset request

def respondFailure (c : ℕ) (requestId offset : BitVec 32) : Outcome n → System n
  | (s, none) => s
  | (s, some status) => sendTo s c (errorResponseMessage requestId status offset)

/-- After a packet that is too short the connection ends. -/
def readDecodeAndDispatchPacket (s : System n) (c : ℕ) (p : Bytes) : System n :=
  let s := { s with asked := Function.update s.asked c (s.asked c ++ [requestHeader E.library p]) }
  if p.length < 8 then
    sendTo { s with loopEnds := Function.update s.loopEnds c true } c
      (errorResponseMessage 0 errorMalformedRequest 0)
  else
    respondFailure c (wordAt p 0) (wordAt p 4)
      (decodeAndDispatch E s c (wordAt p 0) (wordAt p 4) p)

def deleteEntry (c : ℕ) (entries : List ResponseXlatEntry) :
    Option (BitVec 64) → List ResponseXlatEntry
  | none => entries
  | some offset => entries.filter fun e => ¬ (e.sentinel = c ∧ e.serverOffset = offset)

/-- The entry of the sentinel is read once more; in memory that was released the flag can be
anything. -/
def responds (s : System n) (d : ℕ) (anything : Bool) : Bool :=
  if s.extendedApiDict (E.entity d).uuid = some d then extendedApiCanRespond E d else anything

/-- `message_send` returns. The entry goes when its response has been sent, and the sentinel is
answered with the lower half of its offset. -/
def proceed (s : System n) (c : ℕ) (anything : Bool) : Option Rest → System n
  | none => s
  | some r =>
    let t := { s with
      rest := Function.update s.rest c none
      extendedApiOffsetDict := deleteEntry c s.extendedApiOffsetDict r.spent }
    match r with
    | .requested d offset =>
      if responds E s d anything then t
      else sendTo t c (errorResponseMessage ProtocolRequest.extendedApiSendrecv.code 0 offset)
    | .responded offset requestOffset =>
      if (findEntry s c offset).isSome then
        sendTo t c
          (errorResponseMessage ProtocolRequest.extendedApiSendresp.code 0 (offset.setWidth 32))
      else
        sendTo t c (errorResponseMessage ProtocolRequest.extendedApiSendresp.code
          E.library.rbtreeNotFound requestOffset)

/-! ### Write fibers and the data service -/

/-- A write fiber without a packet for a message leaves its loop. -/
def writeMessage (s : System n) (c : ℕ) : Option WriteMessage → System n
  | none => s
  | some m =>
    match packetFor E.library m with
    | none =>
      let k := s.endpoint.connection c
      { s with endpoint := setConnection s.endpoint c { k with hand := none, writing := false } }
    | some p =>
      { s with
        endpoint := finishMessage s.endpoint c m
        written := Function.update s.written c (s.written c ++ [p]) }

def requestContext (s : System n) (c : ℕ) : System n :=
  { s with
    dataInbox := s.dataInbox ++ [.contextOpen c]
    dataContext := Function.update s.dataContext c .opening }

/-- A child context that the data service refuses leaves the endpoint without a reply to send. -/
def takeContext (s : System n) : List DataMessage → System n
  | .contextOpen c :: rest =>
    if s.contexts.card < maxChildContexts then
      { s with
        dataInbox := rest
        contexts := insert c s.contexts
        dataContext := Function.update s.dataContext c .opened }
    else { s with dataInbox := rest, dataEndpointRuns := false }
  | .contextClose c :: rest =>
    { s with
      dataInbox := rest
      contexts := s.contexts.erase c
      dataContext := Function.update s.dataContext c .closed }
  | _ => s

def takeData (s : System n) (answer : Bytes) : List DataMessage → System n
  | .dataserviceReq q :: rest =>
    { s with
      dataInbox := rest
      dataReply := some (q.client, ⟨.dataservice, q.protocolRequestId, q.offset, answer⟩) }
  | _ => s

def sendData (s : System n) : Option (ℕ × WriteMessage) → System n
  | none => s
  | some (c, m) =>
    if mailboxOpen s c then sendTo { s with dataReply := none } c m
    else { s with dataReply := none, dataEndpointRuns := false }

/-- The release begins with the route, and the data service is asked to close the context. -/
def contextRelease (s : System n) (c : ℕ) : System n :=
  { s with
    extendedApiDict := if s.extendedApiEnabled c then
      Function.update s.extendedApiDict (E.entity c).uuid none else s.extendedApiDict
    extendedApiEnabled := Function.update s.extendedApiEnabled c false
    dataInbox := s.dataInbox ++ [.contextClose c]
    dataContext := Function.update s.dataContext c .closing }

/-- The table and the mailboxes go last. -/
def contextReclaim (home : Fin n) (s : System n) (c : ℕ) : System n :=
  { s with
    endpoint := NotificationEndpoint.next home s.endpoint (.closeMailboxes c)
    extendedApiOffsetDict := s.extendedApiOffsetDict.filter fun e => e.sentinel ≠ c }

/-! ### Steps -/

inductive Action (n : ℕ) where
  | requestContext (c : ℕ)
  | request (c : ℕ) (p : Bytes)
  | proceed (c : ℕ) (anything : Bool)
  | finish (c : ℕ)
  | takeContext
  | takeData (answer : Bytes)
  | sendData
  | release (c : ℕ)
  | reclaim (c : ℕ)
  | other (a : NotificationEndpoint.Action n)

/-- The steps that are as they are without the other requests. -/
def Carried : NotificationEndpoint.Action n → Prop
  | .connect _ => True
  | .assertLatestBlockId .. => False
  | .assertLatestBlockIdCancel .. => False
  | .resume _ => True
  | .respond .. => False
  | .leave _ => True
  | .receive _ => True
  | .finish _ => False
  | .writeFails _ => False
  | .closeMailboxes _ => False
  | .take => True
  | .reply => True
  | .serve _ => True
  | .service _ => True
  | .receiveResponse => True

variable (home : Fin n)

/-- The data service answers every request. A connection reads its first packet when it has its
context. -/
def Enabled (s : System n) (a : Action n) : Prop :=
  s.endpoint.endpointRuns = true ∧ s.endpoint.writeEndpointRuns = true ∧
  s.dataEndpointRuns = true ∧
  match a with
  | .requestContext c =>
    (s.endpoint.connection c).protocol = .absent ∧ s.dataContext c = .none
  | .request c _ =>
    (s.endpoint.connection c).protocol = .reading ∧ s.rest c = none ∧ s.loopEnds c = false
  | .proceed c _ => s.rest c ≠ none
  | .finish c => (s.endpoint.connection c).writing = true ∧ (s.endpoint.connection c).hand ≠ none
  | .takeContext =>
    s.dataReply = none ∧ ∃ m rest, s.dataInbox = m :: rest ∧ m.isContext = true
  | .takeData answer =>
    s.dataReply = none ∧
      ∃ q rest, s.dataInbox = .dataserviceReq q :: rest ∧ Answer q.request.method answer
  | .sendData => s.dataReply ≠ none
  | .release c =>
    (s.endpoint.connection c).protocol = .gone ∧ (s.endpoint.connection c).writing = false ∧
    s.dataContext c = .opened
  | .reclaim c => s.dataContext c = .closed ∧ mailboxOpen s c = true
  | .other a => Carried a ∧ NotificationEndpoint.Enabled home s.endpoint a ∧
    (∀ c, a = .leave c → s.rest c = none) ∧ ∀ c, a = .connect c → s.dataContext c = .opened

def next (s : System n) : Action n → System n
  | .requestContext c => requestContext s c
  | .request c p => readDecodeAndDispatchPacket E s c p
  | .proceed c anything => proceed E s c anything (s.rest c)
  | .finish c => writeMessage E s c (s.endpoint.connection c).hand
  | .takeContext => takeContext s s.dataInbox
  | .takeData answer => takeData s answer s.dataInbox
  | .sendData => sendData s s.dataReply
  | .release c => contextRelease E s c
  | .reclaim c => contextReclaim home s c
  | .other a => { s with endpoint := NotificationEndpoint.next home s.endpoint a }

inductive Run (allowed : System n → Action n → Prop) : System n → Prop
  | start : Run allowed (start n)
  | tail {s : System n} {a : Action n} (before : Run allowed s) (enabled : Enabled home s a)
      (meets : allowed s a) : Run allowed (next E home s a)

instance : DecidablePred (Carried (n := n))
  | .connect _ | .resume _ | .leave _ | .receive _ | .take | .reply | .serve _ | .service _ |
    .receiveResponse => isTrue trivial
  | .assertLatestBlockId .. | .assertLatestBlockIdCancel .. | .respond .. | .finish _ |
    .writeFails _ | .closeMailboxes _ => isFalse id

/-- The steps that are possible when the data service answers with a failure. -/
def possible (s : System n) (a : Action n) : Bool :=
  s.endpoint.endpointRuns && s.endpoint.writeEndpointRuns && s.dataEndpointRuns &&
  match a with
  | .requestContext c => decide ((s.endpoint.connection c).protocol = .absent) &&
    decide (s.dataContext c = .none)
  | .request c _ => decide ((s.endpoint.connection c).protocol = .reading) && (s.rest c).isNone &&
    !s.loopEnds c
  | .proceed c _ => (s.rest c).isSome
  | .finish c => (s.endpoint.connection c).writing && (s.endpoint.connection c).hand.isSome
  | .takeContext => s.dataReply.isNone && s.dataInbox.head?.any DataMessage.isContext
  | .takeData answer => s.dataReply.isNone && s.dataInbox.head?.any fun m =>
    match m with
    | .dataserviceReq q => decide (answer = responsePacket q.request.method.code 0 1 none)
    | _ => false
  | .sendData => s.dataReply.isSome
  | .release c => decide ((s.endpoint.connection c).protocol = .gone) &&
    !(s.endpoint.connection c).writing && decide (s.dataContext c = .opened)
  | .reclaim c => decide (s.dataContext c = .closed) && mailboxOpen s c
  | .other a => decide (Carried a) && decide (NotificationEndpoint.Enabled home s.endpoint a) &&
    match a with
    | .leave c => (s.rest c).isNone
    | .connect c => decide (s.dataContext c = .opened)
    | _ => true

variable {home} in
theorem enabled_of_possible {s : System n} {a : Action n} (h : possible home s a = true) :
    Enabled home s a := by
  simp only [possible, Bool.and_eq_true] at h
  obtain ⟨⟨⟨hendpoint, hwrite⟩, hdata⟩, h⟩ := h
  refine ⟨hendpoint, hwrite, hdata, ?_⟩
  cases a with
  | requestContext c => simpa using h
  | request c p => simpa [and_assoc] using h
  | proceed c anything => simpa [Option.isSome_iff_ne_none] using h
  | finish c => simpa [Option.isSome_iff_ne_none] using h
  | takeContext =>
    simp only [Bool.and_eq_true, Option.isNone_iff_eq_none, Option.any_eq_true] at h
    obtain ⟨hreply, m, hm, hcontext⟩ := h
    obtain ⟨rest, hrest⟩ := List.head?_eq_some_iff.mp hm
    exact ⟨hreply, m, rest, hrest, hcontext⟩
  | takeData answer =>
    simp only [Bool.and_eq_true, Option.isNone_iff_eq_none, Option.any_eq_true] at h
    obtain ⟨hreply, m, hm, hanswer⟩ := h
    obtain ⟨rest, hrest⟩ := List.head?_eq_some_iff.mp hm
    cases m with
    | dataserviceReq q =>
      obtain rfl := of_decide_eq_true hanswer
      exact ⟨hreply, q, rest, hrest, .failure 0 (by decide)⟩
    | contextOpen c => cases hanswer
    | contextClose c => cases hanswer
  | sendData => simpa [Option.isSome_iff_ne_none] using h
  | release c => simpa [and_assoc] using h
  | reclaim c => simpa using h
  | other a =>
    simp only [Bool.and_eq_true, decide_eq_true_eq] at h
    obtain ⟨⟨hcarried, henabled⟩, hrest⟩ := h
    refine ⟨hcarried, henabled, ?_, ?_⟩
    · rintro c rfl
      simpa using hrest
    · rintro c rfl
      simpa using hrest

def play (allowed : System n → Action n → Prop) [∀ s a, Decidable (allowed s a)] (s : System n)
    (xs : List (Action n)) : Option (System n) :=
  xs.foldlM (fun s x =>
    if possible home s x = true ∧ allowed s x then some (next E home s x) else none) s

variable {E home} in
theorem run_of_play {allowed meets : System n → Action n → Prop} [∀ s a, Decidable (allowed s a)]
    {s t : System n} {xs : List (Action n)} (hmeets : ∀ s a, allowed s a → meets s a)
    (hs : Run E home meets s) (h : play E home allowed s xs = some t) : Run E home meets t := by
  induction xs generalizing s with
  | nil =>
    cases h
    exact hs
  | cons x xs ih =>
    rw [play, List.foldlM_cons] at h
    obtain ⟨u, hu, hrest⟩ := Option.bind_eq_some_iff.mp h
    split at hu
    · rename_i hx
      cases hu
      exact ih (hs.tail (enabled_of_possible hx.1) (hmeets s x hx.2)) hrest
    · cases hu

end ClientRequests
