import Agentd.DataEndpoint
import Agentd.NotificationFibers

/-! # The notification endpoint of the protocol service

Two fibers stand between the connections and the notification service. The endpoint fiber takes the
assertions and cancels of the connections, gives every assertion an offset of its own in the
notification service and remembers in two maps whose it is. The write endpoint fiber reads the
responses, takes the entry for their offset from the maps and sends a message to the write fiber of
the connection. The protocol fiber of a connection waits until its request was passed on; it keeps a
flag of its own, which its write fiber clears. A connection is known by its number, which stands for
both of its mailboxes. -/
namespace NotificationEndpoint

open ByteString
open DataserviceRecords
open DataEndpoint
open NotificationFibers

/-! ### Messages -/

def reqIdAssertLatestBlockId : BitVec 32 := 0x30

def reqIdAssertLatestBlockIdCancel : BitVec 32 := 0x31

/-- `AGENTD_STATUS_ERROR_MACRO` with the number of the protocol service. -/
def protocolserviceError (reason : BitVec 32) : BitVec 32 :=
  0x8000000 ||| (0x0A <<< 16) ||| (reason &&& 0xFFFF)

def errorBlockAssertionAlreadySet : BitVec 32 := protocolserviceError 0x1C

def errorBlockAssertionNotSet : BitVec 32 := protocolserviceError 0x1D

/-- `protocolservice_notificationservice_block_assertion_request`; the reply goes to the protocol
fiber of the same connection. -/
structure AssertionRequest where
  cancel : Bool
  reqOffset : BitVec 32
  blockId : Uuid
  replyAddr : ℕ
  deriving DecidableEq

structure AssertionReply where
  offset : BitVec 64
  success : Bool
  deriving DecidableEq

structure XlatEntry where
  clientAddr : ℕ
  serverOffset : BitVec 64
  clientOffset : BitVec 32
  deriving DecidableEq

def errorResponseMessage (requestId status offset : BitVec 32) : WriteMessage :=
  ⟨.packet, 0, 0, be 4 requestId ++ be 4 status ++ be 4 offset⟩

/-! ### State -/

/-- Where a protocol fiber is: at its read, or waiting for the endpoint fiber. -/
inductive ProtocolFiber where
  | absent
  | reading
  | asserting (offset : BitVec 32)
  | cancelling
  | gone
  deriving DecidableEq

structure Connection where
  protocol : ProtocolFiber
  /-- The write fiber is in its loop. -/
  writing : Bool
  /-- The message that the write fiber is dealing with. -/
  hand : Option WriteMessage
  latestBlockIdAssertionSet : Bool
  latestBlockIdAssertionClientOffset : BitVec 32
  latestBlockIdAssertionServerOffset : BitVec 64
  deriving DecidableEq

def noConnection : Connection := ⟨.absent, false, none, false, 0, 0⟩

def newConnection : Connection := ⟨.reading, true, none, false, 0, 0⟩

variable {n : ℕ}

/-- The connections, the endpoint fibers and the notification service behind them. A mailbox that is
not open is `none`. -/
structure System (n : ℕ) where
  connection : ℕ → Connection
  returnBox : ℕ → Option (List WriteMessage)
  fiberBox : ℕ → Option (List AssertionReply)
  inbox : List AssertionRequest
  replying : Option (ℕ × AssertionReply)
  requestOffsetCounter : BitVec 64
  clientXlatMap : ℕ → Option XlatEntry
  serverXlatMap : BitVec 64 → Option XlatEntry
  endpointRuns : Bool
  writeEndpointRuns : Bool
  /-- Requests on the socket to the notification service. -/
  requests : List Request
  service : Service n
  /-- The number of responses that were read from the socket. -/
  received : ℕ

def start (n : ℕ) : System n where
  connection _ := noConnection
  returnBox _ := none
  fiberBox _ := none
  inbox := []
  replying := none
  requestOffsetCounter := 0
  clientXlatMap _ := none
  serverXlatMap _ := none
  endpointRuns := true
  writeEndpointRuns := true
  requests := []
  service := serviceCreate n
  received := 0

def responsesTo (home : Fin n) (log : List (Event n)) : List Response :=
  log.filterMap fun e =>
    match e with
    | .response j r _ _ => if j = home then some r else none
    | .request .. => none

def nextResponse (home : Fin n) (s : System n) : Option Response :=
  (responsesTo home s.service.log)[s.received]?

/-! ### Protocol and write fibers -/

def setConnection (s : System n) (c : ℕ) (k : Connection) : System n :=
  { s with connection := Function.update s.connection c k }

def messageSend (s : System n) (c : ℕ) (m : WriteMessage) : System n :=
  { s with returnBox := Function.update s.returnBox c ((s.returnBox c).map (· ++ [m])) }

def fiberSend (s : System n) (c : ℕ) (r : AssertionReply) : System n :=
  { s with fiberBox := Function.update s.fiberBox c ((s.fiberBox c).map (· ++ [r])) }

def askEndpoint (s : System n) (c : ℕ) (p : ProtocolFiber) (r : AssertionRequest) : System n :=
  { setConnection s c { s.connection c with protocol := p } with inbox := s.inbox ++ [r] }

def dndAssertLatestBlockId (s : System n) (c : ℕ) (offset : BitVec 32) (blockId : Uuid) :
    System n :=
  if (s.connection c).latestBlockIdAssertionSet then
    messageSend s c
      (errorResponseMessage reqIdAssertLatestBlockId errorBlockAssertionAlreadySet offset)
  else askEndpoint s c (.asserting offset) ⟨false, offset, blockId, c⟩

def dndAssertLatestBlockIdCancel (s : System n) (c : ℕ) (offset : BitVec 32) : System n :=
  if (s.connection c).latestBlockIdAssertionSet = false then
    messageSend s c
      (errorResponseMessage reqIdAssertLatestBlockIdCancel errorBlockAssertionNotSet offset)
  else askEndpoint s c .cancelling ⟨true, offset, zeroUuid, c⟩

/-- The protocol fiber gets its reply; what a cancel was told is ignored. -/
def resumeDispatch (s : System n) (c : ℕ) : List AssertionReply → System n
  | [] => s
  | r :: rest =>
    let s := { s with fiberBox := Function.update s.fiberBox c (some rest) }
    match (s.connection c).protocol with
    | .asserting offset =>
      setConnection s c { s.connection c with
        protocol := .reading
        latestBlockIdAssertionSet := true
        latestBlockIdAssertionClientOffset := offset
        latestBlockIdAssertionServerOffset := r.offset }
    | .cancelling => setConnection s c { s.connection c with protocol := .reading }
    | _ => s

def receiveMessage (s : System n) (c : ℕ) : List WriteMessage → System n
  | [] => s
  | m :: rest =>
    setConnection { s with returnBox := Function.update s.returnBox c (some rest) } c
      { s.connection c with hand := some m }

/-- The write fiber is done with a message. After a notification was written the flag is cleared. -/
def finishMessage (s : System n) (c : ℕ) (m : WriteMessage) : System n :=
  match m.messageType with
  | .notification =>
    setConnection s c { s.connection c with hand := none, latestBlockIdAssertionSet := false }
  | .dataservice | .packet => setConnection s c { s.connection c with hand := none }
  | _ => setConnection s c { s.connection c with hand := none, writing := false }

/-! ### Endpoint fibers -/

/-- The counter goes on whatever becomes of the entry. An entry that is in the client map and cannot
be put in the server map stays there. -/
def takeAssertion (s : System n) (r : AssertionRequest) : System n :=
  let offset := s.requestOffsetCounter + 1
  let entry : XlatEntry := ⟨r.replyAddr, offset, r.reqOffset⟩
  let s := { s with requestOffsetCounter := offset }
  if (s.clientXlatMap entry.clientAddr).isSome then { s with endpointRuns := false }
  else
    let s := { s with
      clientXlatMap := Function.update s.clientXlatMap entry.clientAddr (some entry) }
    if (s.serverXlatMap entry.serverOffset).isSome then { s with endpointRuns := false }
    else
      { s with
        serverXlatMap := Function.update s.serverXlatMap entry.serverOffset (some entry)
        requests := s.requests ++ [⟨.blockAssertion, offset, be 16 r.blockId⟩]
        replying := some (r.replyAddr, ⟨offset, true⟩) }

/-- A cancel without an entry is told so, and the endpoint fiber leaves its loop. -/
def takeCancel (s : System n) (r : AssertionRequest) : System n :=
  match s.clientXlatMap r.replyAddr with
  | none => { fiberSend s r.replyAddr ⟨0, false⟩ with endpointRuns := false }
  | some entry =>
    { s with
      requests := s.requests ++ [⟨.blockAssertionCancel, entry.serverOffset, []⟩]
      replying := some (r.replyAddr, ⟨entry.serverOffset, true⟩) }

def takeRequest (s : System n) : List AssertionRequest → System n
  | [] => s
  | r :: rest =>
    let s := { s with inbox := rest }
    if r.cancel then takeCancel s r else takeAssertion s r

def sendReply (s : System n) : Option (ℕ × AssertionReply) → System n
  | none => s
  | some (c, r) =>
    if (s.fiberBox c).isSome then fiberSend { s with replying := none } c r
    else { s with replying := none, endpointRuns := false }

def returnMethodId : NotificationMethod → BitVec 32
  | .blockAssertionCancel => reqIdAssertLatestBlockIdCancel
  | _ => reqIdAssertLatestBlockId

/-- The status of the response is not looked at. -/
def receiveResponse (s : System n) : Option Response → System n
  | none => s
  | some r =>
    let s := { s with received := s.received + 1 }
    match s.serverXlatMap r.offset with
    | none => s
    | some entry =>
      let s := { s with
        serverXlatMap := Function.update s.serverXlatMap entry.serverOffset none
        clientXlatMap := Function.update s.clientXlatMap entry.clientAddr none }
      if (s.returnBox entry.clientAddr).isSome then
        messageSend s entry.clientAddr
          ⟨.notification, returnMethodId r.method, entry.clientOffset, []⟩
      else { s with writeEndpointRuns := false }

/-! ### Steps -/

/-- A connection may be sent other messages at any time: responses to its other requests, and what
other connections send it. -/
inductive Action (n : ℕ) where
  | connect (c : ℕ)
  | assertLatestBlockId (c : ℕ) (offset : BitVec 32) (blockId : Uuid)
  | assertLatestBlockIdCancel (c : ℕ) (offset : BitVec 32)
  | resume (c : ℕ)
  | respond (c : ℕ) (payload : Bytes)
  | leave (c : ℕ)
  | receive (c : ℕ)
  | finish (c : ℕ)
  | writeFails (c : ℕ)
  | closeMailboxes (c : ℕ)
  | take
  | reply
  | serve (f : Faults n)
  | service (a : NotificationFibers.Action n)
  | receiveResponse

/-- A step of the notification service that does not read from the socket of the endpoint. -/
def Elsewhere (home : Fin n) : NotificationFibers.Action n → Prop
  | .request j _ _ => j ≠ home
  | .resume _ _ => True
  | .close j => j ≠ home

instance (home : Fin n) (a : NotificationFibers.Action n) : Decidable (Elsewhere home a) :=
  match a with
  | .request j _ _ => inferInstanceAs (Decidable (j ≠ home))
  | .resume _ _ => inferInstanceAs (Decidable True)
  | .close j => inferInstanceAs (Decidable (j ≠ home))

variable (home : Fin n)

def serveRequest (s : System n) (f : Faults n) : List Request → Option (System n)
  | [] => none
  | r :: rest =>
    (NotificationFibers.step s.service (.request home r f)).map fun service =>
      { s with service := service, requests := rest }

/-- What follows after an endpoint fiber has left its loop is not looked at. -/
def Enabled (s : System n) (a : Action n) : Prop :=
  s.endpointRuns = true ∧ s.writeEndpointRuns = true ∧
  match a with
  | .connect c => (s.connection c).protocol = .absent
  | .assertLatestBlockId c _ _ => (s.connection c).protocol = .reading
  | .assertLatestBlockIdCancel c _ => (s.connection c).protocol = .reading
  | .resume c => s.fiberBox c ≠ some [] ∧ s.fiberBox c ≠ none
  | .respond _ _ => True
  | .leave c => (s.connection c).protocol = .reading
  | .receive c => (s.connection c).writing = true ∧ (s.connection c).hand = none
  | .finish c => (s.connection c).writing = true ∧ (s.connection c).hand ≠ none
  | .writeFails c => (s.connection c).writing = true ∧ (s.connection c).hand ≠ none
  | .closeMailboxes c =>
    (s.connection c).protocol = .gone ∧ (s.connection c).writing = false
  | .take => s.replying = none
  | .reply => s.replying ≠ none
  | .serve f => (serveRequest home s f s.requests).isSome
  | .service a => Elsewhere home a ∧ (NotificationFibers.step s.service a).isSome
  | .receiveResponse => True

def next (s : System n) : Action n → System n
  | .connect c =>
    setConnection { s with
      returnBox := Function.update s.returnBox c (some [])
      fiberBox := Function.update s.fiberBox c (some []) } c newConnection
  | .assertLatestBlockId c offset blockId => dndAssertLatestBlockId s c offset blockId
  | .assertLatestBlockIdCancel c offset => dndAssertLatestBlockIdCancel s c offset
  | .resume c => resumeDispatch s c ((s.fiberBox c).getD [])
  | .respond c payload => messageSend s c ⟨.packet, 0, 0, payload⟩
  | .leave c =>
    messageSend (setConnection s c { s.connection c with protocol := .gone }) c
      ⟨.shutdown, 0, 0, []⟩
  | .receive c => receiveMessage s c ((s.returnBox c).getD [])
  | .finish c =>
    match (s.connection c).hand with
    | none => s
    | some m => finishMessage s c m
  | .writeFails c => setConnection s c { s.connection c with hand := none, writing := false }
  | .closeMailboxes c =>
    { s with
      returnBox := Function.update s.returnBox c none
      fiberBox := Function.update s.fiberBox c none }
  | .take => takeRequest s s.inbox
  | .reply => sendReply s s.replying
  | .serve f => (serveRequest home s f s.requests).getD s
  | .service a =>
    { s with service := (NotificationFibers.step s.service a).getD s.service }
  | .receiveResponse => receiveResponse s (nextResponse home s)

instance (s : System n) (a : Action n) : Decidable (Enabled home s a) :=
  match a with
  | .connect c => inferInstanceAs (Decidable (_ ∧ _ ∧ (s.connection c).protocol = .absent))
  | .assertLatestBlockId c _ _ =>
    inferInstanceAs (Decidable (_ ∧ _ ∧ (s.connection c).protocol = .reading))
  | .assertLatestBlockIdCancel c _ =>
    inferInstanceAs (Decidable (_ ∧ _ ∧ (s.connection c).protocol = .reading))
  | .resume c => inferInstanceAs (Decidable (_ ∧ _ ∧ s.fiberBox c ≠ some [] ∧ s.fiberBox c ≠ none))
  | .respond _ _ => inferInstanceAs (Decidable (_ ∧ _ ∧ True))
  | .leave c => inferInstanceAs (Decidable (_ ∧ _ ∧ (s.connection c).protocol = .reading))
  | .receive c => inferInstanceAs
    (Decidable (_ ∧ _ ∧ (s.connection c).writing = true ∧ (s.connection c).hand = none))
  | .finish c => inferInstanceAs
    (Decidable (_ ∧ _ ∧ (s.connection c).writing = true ∧ (s.connection c).hand ≠ none))
  | .writeFails c => inferInstanceAs
    (Decidable (_ ∧ _ ∧ (s.connection c).writing = true ∧ (s.connection c).hand ≠ none))
  | .closeMailboxes c => inferInstanceAs
    (Decidable (_ ∧ _ ∧ (s.connection c).protocol = .gone ∧ (s.connection c).writing = false))
  | .take => inferInstanceAs (Decidable (_ ∧ _ ∧ s.replying = none))
  | .reply => inferInstanceAs (Decidable (_ ∧ _ ∧ s.replying ≠ none))
  | .serve f =>
    inferInstanceAs (Decidable (_ ∧ _ ∧ (serveRequest home s f s.requests).isSome = true))
  | .service a => inferInstanceAs
    (Decidable (_ ∧ _ ∧ Elsewhere home a ∧ (NotificationFibers.step s.service a).isSome = true))
  | .receiveResponse => inferInstanceAs (Decidable (_ ∧ _ ∧ True))

inductive Run (allowed : System n → Action n → Prop) : System n → Prop
  | start : Run allowed (start n)
  | tail {s : System n} {a : Action n} (before : Run allowed s) (enabled : Enabled home s a)
      (meets : allowed s a) : Run allowed (next home s a)

def play (allowed : System n → Action n → Prop) [∀ s a, Decidable (allowed s a)] (s : System n)
    (xs : List (Action n)) : Option (System n) :=
  xs.foldlM (fun s x => if Enabled home s x ∧ allowed s x then some (next home s x) else none) s

variable {home} in
theorem run_of_play {allowed : System n → Action n → Prop} [∀ s a, Decidable (allowed s a)]
    {s t : System n} {xs : List (Action n)} (hs : Run home allowed s)
    (h : play home allowed s xs = some t) : Run home allowed t := by
  induction xs generalizing s with
  | nil =>
    cases h
    exact hs
  | cons x xs ih =>
    rw [play, List.foldlM_cons] at h
    obtain ⟨u, hu, hrest⟩ := Option.bind_eq_some_iff.mp h
    split at hu
    · rename_i hx
      cases hu
      exact ih (hs.tail hx.1 hx.2) hrest
    · cases hu

end NotificationEndpoint
