import Agentd.ContextBijection

/-! # The connections of the data service endpoint

Every connection has a protocol fiber, which reads requests, and a write fiber, which writes what
arrives in the mailbox of the connection. They share a context that is released when both have gone.
All requests for the data service go through one mailbox, in the order in which they were sent, and
the endpoint takes one, waits for the data service and replies before it takes the next. A step ends
where a fiber may have to wait or another may run. -/
namespace DataEndpointClients

open ByteString
open DataserviceStore
open DataserviceDispatch
open DataEndpoint

structure Mailboxes where
  returnAddr : ℕ → Address
  fiberAddr : ℕ → Address
  returnAddr_injective : Function.Injective returnAddr
  fiberAddr_injective : Function.Injective fiberAddr
  apart : ∀ c d, returnAddr c ≠ fiberAddr d

/-! ### State -/

/-- Where a protocol fiber is. It is asking while it waits for the notification endpoint, and
leaving once it has told the write fiber to shut down. -/
inductive ProtocolFiber where
  | absent
  | handshake
  | opening
  | reading
  | asking
  | answered
  | leaving
  | gone
  deriving DecidableEq, Repr

inductive WriteFiber where
  | absent
  | reading
  | leaving
  | gone
  deriving DecidableEq, Repr

/-- Whether the context is held by its fibers, waits in its release for the data service context to
be closed, or was released with its mailboxes. -/
inductive ContextState where
  | absent
  | held
  | closing
  | released
  deriving DecidableEq, Repr

structure Connection where
  protocol : ProtocolFiber
  write : WriteFiber
  context : ContextState
  referenceCount : ℕ
  dataserviceContextOpened : Bool
  shutdown : Bool
  reqShutdown : Bool
  deriving DecidableEq

def noConnection : Connection := ⟨.absent, .absent, .absent, 0, false, false, false⟩

def fiberAdd : Connection := ⟨.handshake, .absent, .held, 1, false, false, false⟩

structure Message where
  returnAddress : Address
  request : RequestMessage
  deriving DecidableEq

/-- A mailbox that is not open is `none`. The counts are ghosts: of the messages that were queued
with a return address, and of the replies that were sent to it. -/
structure System where
  connection : ℕ → Connection
  mailbox : Address → Option (List WriteMessage)
  inbox : List Message
  endpoint : Endpoint
  replying : Option (Address × WriteMessage)
  queued : Address → ℕ
  answered : Address → ℕ

def start (apicaps : Bitcap) (datadir : Bytes) : System where
  connection _ := noConnection
  mailbox _ := none
  inbox := []
  endpoint := endpointAdd apicaps datadir
  replying := none
  queued _ := 0
  answered _ := 0

variable (A : Mailboxes)

/-! ### Messages -/

def setConnection (s : System) (c : ℕ) (k : Connection) : System :=
  { s with connection := Function.update s.connection c k }

def messageSend (s : System) (a : Address) (m : WriteMessage) : System :=
  { s with mailbox := Function.update s.mailbox a ((s.mailbox a).map (· ++ [m])) }

def messageReceive (s : System) (a : Address) : System :=
  { s with mailbox := Function.update s.mailbox a ((s.mailbox a).map List.tail) }

def firstMessage (s : System) (a : Address) : Option WriteMessage := (s.mailbox a).bind List.head?

def sendToEndpoint (s : System) (m : Message) : System :=
  { s with
    inbox := s.inbox ++ [m]
    queued := Function.update s.queued m.returnAddress (s.queued m.returnAddress + 1) }

def mailboxOpen (s : System) (c : ℕ) : System :=
  { s with
    mailbox := Function.update (Function.update s.mailbox (A.returnAddr c) (some []))
      (A.fiberAddr c) (some []) }

def mailboxClose (s : System) (c : ℕ) : System :=
  { s with
    mailbox := Function.update (Function.update s.mailbox (A.returnAddr c) none)
      (A.fiberAddr c) none }

def openMessage (c : ℕ) (caps : Bitcap) : Message :=
  ⟨A.fiberAddr c, .contextOpen (A.returnAddr c) caps⟩

def closeMessage (c : ℕ) : Message := ⟨A.fiberAddr c, .contextClose 0 (A.returnAddr c)⟩

def shutdownMessage : WriteMessage := ⟨.shutdown, 0, 0, []⟩

def packetMessage (payload : Bytes) : WriteMessage := ⟨.packet, 0, 0, payload⟩

/-! ### Fibers -/

/-- The last of the fibers closes the data service context, if there is one, and waits for that; the
mailboxes go when it has been closed. -/
def contextRelease (s : System) (c : ℕ) : System :=
  let k := s.connection c
  if 1 < k.referenceCount then
    setConnection s c { k with referenceCount := k.referenceCount - 1 }
  else if k.dataserviceContextOpened then
    sendToEndpoint (setConnection s c { k with referenceCount := 0, context := .closing })
      (closeMessage A c)
  else
    mailboxClose A (setConnection s c { k with referenceCount := 0, context := .released }) c

def shutdownWriteEndpoint (s : System) (c : ℕ) : System :=
  messageSend (setConnection s c { s.connection c with protocol := .leaving }) (A.returnAddr c)
    shutdownMessage

/-- The write fiber takes a message from its mailbox; whether it can be written is up to the
client. -/
def writeEndpointDispatch (s : System) (c : ℕ) (fails : Bool) (m : WriteMessage) : System :=
  let k := s.connection c
  let s := messageReceive s (A.returnAddr c)
  match m.messageType with
  | .shutdown => setConnection s c { k with shutdown := true, write := .leaving }
  | .dataservice | .notification | .packet =>
    if fails then setConnection s c { k with write := .leaving } else s
  | .dataserviceContextCreate | .errorMessage => setConnection s c { k with write := .leaving }

def Connection.continues (k : Connection) : Prop :=
  k.protocol = .reading ∧ k.shutdown = false ∧ k.reqShutdown = false

instance (k : Connection) : Decidable k.continues :=
  inferInstanceAs (Decidable (k.protocol = .reading ∧ k.shutdown = false ∧ k.reqShutdown = false))

/-! ### Steps -/

/-- A protocol fiber responds to its own connection, or to another one through the extended API. It
leaves at any time, when it cannot read, when a dispatch fails or when its loop ends. -/
inductive Action where
  | connect (c : ℕ)
  | handshakeFails (c : ℕ)
  | requestContext (c : ℕ) (caps : Bitcap)
  | contextArrives (c : ℕ)
  | dataRequest (c : ℕ) (protocolRequestId offset : BitVec 32) (payload : RequestBuffer)
  | respond (c d : ℕ) (payload : Bytes)
  | closeRequest (c : ℕ) (payload : Bytes)
  | ask (c : ℕ)
  | notificationReplies (c : ℕ) (m : WriteMessage)
  | resume (c : ℕ)
  | leave (c : ℕ)
  | releaseProtocol (c : ℕ)
  | notified (c : ℕ) (requestId offset : BitVec 32)
  | write (c : ℕ) (fails : Bool)
  | releaseWrite (c : ℕ)
  | closeArrives (c : ℕ)
  | take (answer : Bytes)
  | send

def Enabled (s : System) : Action → Prop
  | .connect c => (s.connection c).protocol = .absent
  | .handshakeFails c => (s.connection c).protocol = .handshake
  | .requestContext c _ => (s.connection c).protocol = .handshake
  | .contextArrives c =>
    (s.connection c).protocol = .opening ∧ (firstMessage s (A.fiberAddr c)).isSome
  | .dataRequest c _ _ _ => (s.connection c).continues
  | .respond c _ _ => (s.connection c).continues
  | .closeRequest c _ => (s.connection c).continues
  | .ask c => (s.connection c).continues
  | .notificationReplies c _ => (s.connection c).protocol = .asking
  | .resume c => (s.connection c).protocol = .answered ∧ (firstMessage s (A.fiberAddr c)).isSome
  | .leave c => (s.connection c).protocol = .reading
  | .releaseProtocol c => (s.connection c).protocol = .leaving
  | .notified _ _ _ => True
  | .write c _ => (s.connection c).write = .reading ∧ (s.connection c).shutdown = false ∧
    (firstMessage s (A.returnAddr c)).isSome
  | .releaseWrite c => (s.connection c).write = .leaving
  | .closeArrives c =>
    (s.connection c).context = .closing ∧ (firstMessage s (A.fiberAddr c)).isSome
  | .take _ => s.endpoint.running = true ∧ s.replying = none ∧ s.inbox ≠ []
  | .send => s.endpoint.running = true ∧ s.replying.isSome

def takeMessage (s : System) (answer : Bytes) : List Message → System
  | [] => s
  | m :: rest =>
    match decodeAndDispatchReq s.endpoint ⟨m.returnAddress, m.request, .none, answer⟩ with
    | (endpoint, .replied reply) =>
      { s with inbox := rest, endpoint := endpoint, replying := some (m.returnAddress, reply) }
    | (endpoint, _) => { s with inbox := rest, endpoint := { endpoint with running := false } }

/-- A reply to a mailbox that is not open makes the endpoint leave its loop. -/
def sendReply (s : System) : Option (Address × WriteMessage) → System
  | none => s
  | some (a, m) =>
    if (s.mailbox a).isSome then
      messageSend { s with
        replying := none
        answered := Function.update s.answered a (s.answered a + 1) } a m
    else { s with replying := none, endpoint := { s.endpoint with running := false } }

def next (s : System) : Action → System
  | .connect c => setConnection (mailboxOpen A s c) c fiberAdd
  | .handshakeFails c =>
    contextRelease A (setConnection s c { s.connection c with protocol := .gone }) c
  | .requestContext c caps =>
    sendToEndpoint (setConnection s c { s.connection c with protocol := .opening })
      (openMessage A c caps)
  | .contextArrives c =>
    setConnection (messageReceive s (A.fiberAddr c)) c { s.connection c with
      protocol := .reading
      write := .reading
      referenceCount := (s.connection c).referenceCount + 1
      dataserviceContextOpened := true }
  | .dataRequest c protocolRequestId offset payload =>
    sendToEndpoint s ⟨A.returnAddr c, .dataserviceReq protocolRequestId offset payload⟩
  | .respond c d payload =>
    if (s.mailbox (A.returnAddr d)).isSome then
      messageSend s (A.returnAddr d) (packetMessage payload)
    else shutdownWriteEndpoint A s c
  | .closeRequest c payload =>
    messageSend (setConnection s c { s.connection c with reqShutdown := true }) (A.returnAddr c)
      (packetMessage payload)
  | .ask c => setConnection s c { s.connection c with protocol := .asking }
  | .notificationReplies c m =>
    messageSend (setConnection s c { s.connection c with protocol := .answered }) (A.fiberAddr c) m
  | .resume c =>
    setConnection (messageReceive s (A.fiberAddr c)) c { s.connection c with protocol := .reading }
  | .leave c => shutdownWriteEndpoint A s c
  | .releaseProtocol c =>
    contextRelease A (setConnection s c { s.connection c with protocol := .gone }) c
  | .notified c requestId offset =>
    messageSend s (A.returnAddr c) ⟨.notification, requestId, offset, []⟩
  | .write c fails =>
    match firstMessage s (A.returnAddr c) with
    | none => s
    | some m => writeEndpointDispatch A s c fails m
  | .releaseWrite c =>
    contextRelease A (setConnection s c { s.connection c with write := .gone }) c
  | .closeArrives c =>
    mailboxClose A (setConnection s c { s.connection c with
      context := .released, dataserviceContextOpened := false }) c
  | .take answer => takeMessage s answer s.inbox
  | .send => sendReply s s.replying

def Accepts (s : System) : Action → Prop
  | .take _ => ∀ m rest data caps, s.inbox = m :: rest → m.request = .contextOpen data caps →
    (createChild s.endpoint.inst caps false).isSome = true
  | _ => True

inductive Run (initial : System) : System → Prop
  | start : Run initial initial
  | tail {s : System} {a : Action} (before : Run initial s) (enabled : Enabled A s a)
      (accepted : Accepts s a) : Run initial (next A s a)

variable {A}

instance (s : System) (x : Action) : Decidable (Enabled A s x) := by
  cases x <;> dsimp only [Enabled] <;> infer_instance

def accepts (s : System) : Action → Bool
  | .take _ =>
    match s.inbox with
    | ⟨_, .contextOpen _ caps⟩ :: _ => (createChild s.endpoint.inst caps false).isSome
    | _ => true
  | _ => true

theorem accepts_of_check {s : System} {x : Action} (h : accepts s x = true) : Accepts s x := by
  cases x with
  | take answer =>
    intro m rest data caps hinbox hrequest
    obtain ⟨returnAddress, request⟩ := m
    simp only at hrequest
    subst hrequest
    simpa only [accepts, hinbox] using h
  | _ => trivial

variable (A) in
def play (s : System) (xs : List Action) : Option System :=
  xs.foldlM (fun s x => if Enabled A s x ∧ accepts s x then some (next A s x) else none) s

theorem run_of_play {initial s t : System} {xs : List Action} (hs : Run A initial s)
    (h : play A s xs = some t) : Run A initial t := by
  induction xs generalizing s with
  | nil =>
    cases h
    exact hs
  | cons x xs ih =>
    rw [play, List.foldlM_cons] at h
    obtain ⟨u, hu, hrest⟩ := Option.bind_eq_some_iff.mp h
    split at hu
    · rename_i hx
      cases hu
      exact ih (hs.tail hx.1 (accepts_of_check hx.2)) hrest
    · cases hu

end DataEndpointClients
