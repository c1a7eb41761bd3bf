import Agentd.CanonizationService
import Agentd.BlockchainInvariant

/-! # Canonization among the other services

The canonization service, its own data service, the random service and the notification service
exchange messages; other clients change the same database through data services of their own. A
socket keeps the order of its messages, everything else interleaves. -/
namespace CanonizationSystem

open ByteString
open FaultyTransactions
open DataserviceRecords
open DataserviceStore
open DataserviceRequests
open DataserviceDispatch
open CanonizationService

/-! ### Notification service -/

structure NotificationService where
  blockUpdateAllowed : Bool
  latestBlockId : Uuid
  deriving DecidableEq

def notificationNotAuthorized : BitVec 32 := 0x080F000C

def blockUpdateOffset : BitVec 64 := 7474

/-- The block id is stored before the waiting assertions are answered, which may fail with a
status. -/
def dispatchBlockUpdate (n : NotificationService) (status : BitVec 32) (blockId : Uuid) :
    NotificationService × Bytes :=
  let respond (status : BitVec 32) := be 4 1#32 ++ be 8 blockUpdateOffset ++ be 4 status
  if n.blockUpdateAllowed = false then (n, respond notificationNotAuthorized)
  else ({ n with latestBlockId := blockId }, respond status)

/-! ### System -/

structure System where
  canon : CanonizationService.Instance
  data : Service
  dataExited : Bool
  notification : NotificationService
  net : List Message

def System.store (s : System) (dir : Bytes) : Store := s.data.disk dir

inductive Action where
  | control (o : Outside) (c : ControlCommand)
  | timer (o : Outside)
  | random (packet : Bytes)
  | randomRead (o : Outside)
  | serve (d : Delivery)
  | dataRead (o : Outside)
  | update (status : BitVec 32)
  | notifyRead (o : Outside)
  | client (i : Invocation)

def takeMessage {α : Type} (kind : Message → Option α) : List Message → Option (α × List Message)
  | [] => none
  | m :: ms =>
    match kind m with
    | some a => some (a, ms)
    | none => (takeMessage kind ms).map fun r => (r.1, m :: r.2)

def isTimer : Message → Option Unit
  | .timer => some ()
  | _ => none

def isRandomRequest : Message → Option Unit
  | .randomRequest => some ()
  | _ => none

def isRandomResponse : Message → Option Bytes
  | .randomResponse packet => some packet
  | _ => none

def isDataRequest : Message → Option Bytes
  | .dataRequest packet => some packet
  | _ => none

def isDataResponse : Message → Option Response
  | .dataResponse resp => some resp
  | _ => none

def isBlockUpdate : Message → Option Uuid
  | .blockUpdate blockId => some blockId
  | _ => none

def isNotifyResponse : Message → Option Bytes
  | .notifyResponse packet => some packet
  | _ => none

/-- A callback of the canonization service; none runs after it was told to exit. -/
def callback (s : System) (net : List Message) (e : Option Effect) : Option System :=
  if s.canon.forceExit then none
  else e.map fun e => { s with canon := e.1, net := net ++ e.2 }

/-- A packet of 1 GiB or more ends the data service, as does one whose dispatch fails. -/
def serveData (E : Env) (s : System) (d : Delivery) (packet : Bytes) (net : List Message) :
    Option System :=
  if s.dataExited then none
  else if maxPayload ≤ packet.length then some { s with dataExited := true, net := net }
  else (decodeAndDispatch E s.data { d with packet := packet }).map fun r =>
    { s with
      data := r.1
      dataExited := match r.2.2 with
        | .ok () => false
        | .error _ => true
      net := net ++ r.2.1.toList.map .dataResponse }

/-- Undefined behaviour has no next state. The contexts of other clients do not hold the capability
to write blocks. -/
def step (E : Env) (B : CertBuilder) (dir : Bytes) (s : System) : Action → Option System
  | .control o c => callback s s.net (some (controlRead o s.canon c))
  | .timer o => do
    let (_, net) ← takeMessage isTimer s.net
    callback s net (some (timerCb o s.canon))
  | .random packet => do
    let (_, net) ← takeMessage isRandomRequest s.net
    some { s with net := net ++ [.randomResponse packet] }
  | .randomRead o => do
    let (packet, net) ← takeMessage isRandomResponse s.net
    callback s net (some (CanonizationService.randomRead o s.canon packet))
  | .serve d => do
    let (packet, net) ← takeMessage isDataRequest s.net
    serveData E s d packet net
  | .dataRead o => do
    let (resp, net) ← takeMessage isDataResponse s.net
    callback s net (CanonizationService.dataRead E B o s.canon resp)
  | .update status => do
    let (blockId, net) ← takeMessage isBlockUpdate s.net
    let (n, packet) := dispatchBlockUpdate s.notification status blockId
    some { s with notification := n, net := net ++ [.notifyResponse packet] }
  | .notifyRead o => do
    let (packet, net) ← takeMessage isNotifyResponse s.net
    callback s net (some (CanonizationService.notifyRead o s.canon packet))
  | .client i =>
    if bitcapIsset i.caps .appBlockWrite then none
    else some { s with data := { s.data with
      disk := Function.update s.data.disk dir (perform E (s.data.disk dir) i).2 } }

inductive Execution (E : Env) (B : CertBuilder) (dir : Bytes) (allowed : System → Action → Prop)
    (start : System) : System → Prop
  | refl : Execution E B dir allowed start start
  | tail {s t : System} {a : Action} (before : Execution E B dir allowed start s)
      (meets : allowed s a) (taken : step E B dir s a = some t) : Execution E B dir allowed start t

structure Start (E : Env) (dir : Bytes) (s : System) : Prop where
  canon : s.canon = CanonizationService.instanceCreate
  net : s.net = []
  opened : s.data.inst.details = .opened dir
  store : ∃ log, Run E (fun _ i => i.request.Decoded) log (s.store dir)

def execute (E : Env) (B : CertBuilder) (dir : Bytes) (check : System → Action → Bool)
    (s : System) (as : List Action) : Option System :=
  as.foldlM (fun s a => if check s a then step E B dir s a else none) s

theorem execution_of_execute {E : Env} {B : CertBuilder} {dir : Bytes}
    {check : System → Action → Bool} {allowed : System → Action → Prop}
    (hcheck : ∀ s a, check s a = true → allowed s a) {start s t : System} {as : List Action}
    (hs : Execution E B dir allowed start s) (h : execute E B dir check s as = some t) :
    Execution E B dir allowed start t := by
  induction as generalizing s with
  | nil =>
    cases h
    exact hs
  | cons a as ih =>
    rw [execute, List.foldlM_cons] at h
    obtain ⟨u, hu, hrest⟩ := Option.bind_eq_some_iff.mp h
    split at hu
    · rename_i hc
      exact ih (hs.tail (hcheck _ _ hc) hu) hrest
    · cases hu

/-! ### Sample systems -/

/-- A data service that has opened its database in the directory "/", and a new canonization
service. -/
def startSystem (d : Store) : System where
  canon := CanonizationService.instanceCreate
  data := ⟨(rootContextInit none [47] DataserviceDispatch.instanceCreate).1, fun _ => d⟩
  dataExited := false
  notification := ⟨true, zeroUuid⟩
  net := []

theorem opened_startSystem (d : Store) : (startSystem d).data.inst.details = .opened [47] := by
  have hcap : ¬ bitcapIsset DataserviceDispatch.instanceCreate.apicaps .llRootContextCreate =
      false := by
    rw [ChildContexts.apicaps_instanceCreate]
    decide
  rw [startSystem]
  simp only [rootContextInit, if_neg hcap]
  rfl

theorem start_startSystem {E : Env} {log : List (Invocation × Outcome)} {d : Store}
    (h : Run E (fun _ i => i.request.Decoded) log d) : Start E [47] (startSystem d) :=
  ⟨rfl, rfl, opened_startSystem d, log, h⟩

def randomPacket (id : Uuid) : Bytes :=
  be 4 methodGetRandomBytes ++ be 4 0#32 ++ be 4 0#32 ++ be 16 id

def startActions (maxTransactions : BitVec 64) (blockId : Uuid) : List Action :=
  [.control (allWorks 0) (.configure 1000 maxTransactions),
    .control (allWorks 0) (.privateKeySet ⟨3, []⟩), .control (allWorks 0) .start,
    .timer (allWorks 0), .random (randomPacket blockId), .randomRead (allWorks 0)]

/-- A number of requests to the data service, each served and its response read. -/
def exchanges (n : ℕ) : List Action :=
  (List.replicate n [Action.serve (workingDelivery []), .dataRead (allWorks 0)]).flatten

/-! ### Messages in flight -/

section Kinds

variable {m : Message}

theorem eq_of_isDataRequest {packet : Bytes} (h : isDataRequest m = some packet) :
    m = .dataRequest packet := by
  cases m with
  | dataRequest p =>
    cases h
    rfl
  | _ => cases h

theorem eq_of_isDataResponse {resp : Response} (h : isDataResponse m = some resp) :
    m = .dataResponse resp := by
  cases m with
  | dataResponse r =>
    cases h
    rfl
  | _ => cases h

theorem eq_of_isBlockUpdate {blockId : Uuid} (h : isBlockUpdate m = some blockId) :
    m = .blockUpdate blockId := by
  cases m with
  | blockUpdate b =>
    cases h
    rfl
  | _ => cases h

end Kinds

section Take

variable {α : Type} {kind : Message → Option α}

/-- With at most one message in flight, taking one leaves none. -/
theorem takeMessage_single {ms rest : List Message} {a : α} (hms : ms.length ≤ 1)
    (h : takeMessage kind ms = some (a, rest)) : ∃ m, ms = [m] ∧ kind m = some a ∧ rest = [] := by
  cases ms with
  | nil => cases h
  | cons m ms =>
    have hnil : ms = [] := by
      apply List.eq_nil_of_length_eq_zero
      rw [List.length_cons] at hms
      omega
    subst hnil
    rw [takeMessage] at h
    cases hk : kind m with
    | none =>
      rw [hk] at h
      cases h
    | some b =>
      rw [hk] at h
      obtain ⟨rfl, rfl⟩ := Prod.mk.inj (Option.some.inj h)
      exact ⟨m, rfl, hk, rfl⟩

end Take

end CanonizationSystem
