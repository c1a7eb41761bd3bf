import Agentd.RoundTurns

/-! # One round at a time

The canonization service among services that answer each of its requests once, in order and with any
status. A round is in progress from the timer that starts it to the response for its closed child
context: it has one request outstanding, it owns the transaction list, and no timer is armed. That
the child context of a round is gone when the next one starts is up to the data service, since the
status of the close is not looked at. -/
namespace RoundDiscipline

open ByteString
open DataserviceRecords
open DataserviceStore
open DataserviceRequests
open DataserviceDispatch
open DataserviceClient
open CanonizationService
open CanonizationSystem
open RoundTurns

/-! ### The service and its answers -/

/-- The rounds begun so far, and the child contexts open in the data service, each with the round
that opened it. -/
structure Office where
  canon : CanonizationService.Instance
  net : List Message
  rounds : ℕ
  contexts : List (BitVec 32 × ℕ)

inductive OfficeAction where
  | control (o : Outside) (c : ControlCommand)
  | timer (o : Outside)
  | answerRandom (packet : Bytes)
  | randomRead (o : Outside)
  | answerData (resp : Response)
  | dataRead (o : Outside)
  | answerNotify (packet : Bytes)
  | notifyRead (o : Outside)

def requestMethod (packet : Bytes) : BitVec 32 := bits 32 (slice packet 0 4)

def requestChild (packet : Bytes) : BitVec 32 := bits 32 (slice packet 4 4)

/-- The data service opens a context when it grants a create, and deletes the one a close names when
it grants that. -/
def contextsAfter (rounds : ℕ) (packet : Bytes) (resp : Response)
    (contexts : List (BitVec 32 × ℕ)) : List (BitVec 32 × ℕ) :=
  if requestMethod packet = Method.llChildContextCreate.code then
    match decodeResponseChildContextCreate resp with
    | some (.ok child) => (child, rounds) :: contexts
    | _ => contexts
  else if requestMethod packet = Method.llChildContextClose.code ∧ resp.status = .ok () then
    contexts.filter fun c => c.1 ≠ requestChild packet
  else contexts

def beginnings (ms : List Message) : ℕ := ms.count .randomRequest

/-- A callback of the service; none runs after it was told to exit. -/
def officeCallback (s : Office) (net : List Message) (e : Option Effect) : Option Office :=
  if s.canon.forceExit then none
  else e.map fun e =>
    { s with canon := e.1, net := net ++ e.2, rounds := s.rounds + beginnings e.2 }

/-- An answer of the data service carries the method of the request. Undefined behaviour has no next
state. -/
def officeStep (E : Env) (B : CertBuilder) (s : Office) : OfficeAction → Option Office
  | .control o c => officeCallback s s.net (some (controlRead o s.canon c))
  | .timer o => do
    let (_, net) ← takeMessage isTimer s.net
    officeCallback s net (some (timerCb o s.canon))
  | .answerRandom packet => do
    let (_, net) ← takeMessage isRandomRequest s.net
    some { s with net := net ++ [.randomResponse packet] }
  | .randomRead o => do
    let (packet, net) ← takeMessage isRandomResponse s.net
    officeCallback s net (some (CanonizationService.randomRead o s.canon packet))
  | .answerData resp => do
    let (packet, net) ← takeMessage isDataRequest s.net
    if resp.method = requestMethod packet then
      some { s with
        net := net ++ [.dataResponse resp]
        contexts := contextsAfter s.rounds packet resp s.contexts }
    else none
  | .dataRead o => do
    let (resp, net) ← takeMessage isDataResponse s.net
    officeCallback s net (CanonizationService.dataRead E B o s.canon resp)
  | .answerNotify packet => do
    let (_, net) ← takeMessage isBlockUpdate s.net
    some { s with net := net ++ [.notifyResponse packet] }
  | .notifyRead o => do
    let (packet, net) ← takeMessage isNotifyResponse s.net
    officeCallback s net (some (CanonizationService.notifyRead o s.canon packet))

def office : Office := ⟨CanonizationService.instanceCreate, [], 0, []⟩

inductive OfficeRun (E : Env) (B : CertBuilder) (allowed : Office → OfficeAction → Prop) :
    Office → Prop
  | start : OfficeRun E B allowed office
  | tail {s t : Office} {a : OfficeAction} (before : OfficeRun E B allowed s)
      (meets : allowed s a) (taken : officeStep E B s a = some t) : OfficeRun E B allowed t

def ClosesGranted (s : Office) : OfficeAction → Prop
  | .answerData resp => ∀ packet net, takeMessage isDataRequest s.net = some (packet, net) →
      requestMethod packet = Method.llChildContextClose.code → resp.status = .ok ()
  | _ => True

/-! ### The discipline -/

/-- The service is idle between the end of a round and the timer that starts the next. -/
def Office.inRound (s : Office) : Prop := s.canon.state ≠ .idle

instance (s : Office) : Decidable s.inRound := inferInstanceAs (Decidable (_ ≠ _))

def ofRound (m : Message) : Bool := m ≠ .timer

structure Disciplined (E : Env) (B : CertBuilder) (s : Office) : Prop where
  oneRequest : (s.net.filter ofRound).length ≤ 1
  list : s.canon.transactionList.isSome = true ↔ s.inRound
  timerAssertion : .timer ∈ s.net → s.canon.transactionList = none
  defined : ∀ o resp, .dataResponse resp ∈ s.net →
    (CanonizationService.dataRead E B o s.canon resp).isSome = true
  oneTimer : s.net.count .timer ≤ 1
  timerIdle : .timer ∈ s.net → ¬ s.inRound
  contexts : ∀ c ∈ s.contexts, c.2 = s.rounds

/-! ### Phases -/

inductive Phase (s : Office) : Prop
  | new (hrun : s.canon.running = false) (hidle : s.canon.state = .idle) (hnet : s.net = [])
      (hlist : s.canon.transactionList = none) : Phase s
  | between (hrun : s.canon.running = true) (hidle : s.canon.state = .idle)
      (hnet : s.net = [.timer]) (hlist : s.canon.transactionList = none) : Phase s
  | inside (hrun : s.canon.running = true) (hbusy : s.canon.state ≠ .idle) {m : Message}
      (hm : m ≠ .timer) (hnet : s.net = [m]) (hlist : s.canon.transactionList.isSome = true) :
      Phase s

structure OfficeInvariant (s : Office) : Prop where
  phase : Phase s
  key : s.canon.running = true → s.canon.privateKey.isSome = true

section Phases

variable {E : Env} {B : CertBuilder} {s t : Office} {m : Message} {e : Effect}

theorem Phase.single (h : Phase s) : s.net.length ≤ 1 := by
  cases h with
  | new _ _ hnet _ => simp [hnet]
  | between _ _ hnet _ => simp [hnet]
  | inside _ _ _ hnet _ => simp [hnet]

/-- A message in flight means that the service was started. -/
theorem Phase.running (h : Phase s) (hm : m ∈ s.net) : s.canon.running = true := by
  cases h with
  | new _ _ hnet _ => simp [hnet] at hm
  | between hrun _ _ _ => exact hrun
  | inside hrun _ _ _ _ => exact hrun

theorem Phase.busy (h : Phase s) (hm : m ∈ s.net) (htimer : m ≠ .timer) :
    s.canon.state ≠ .idle ∧ s.canon.transactionList.isSome = true := by
  cases h with
  | new _ _ hnet _ => simp [hnet] at hm
  | between _ _ hnet _ =>
    rw [hnet, List.mem_singleton] at hm
    exact absurd hm htimer
  | inside _ hbusy _ _ hlist => exact ⟨hbusy, hlist⟩

theorem Phase.idle (h : Phase s) (hm : .timer ∈ s.net) :
    s.canon.state = .idle ∧ s.canon.transactionList = none := by
  cases h with
  | new _ hidle _ hlist => exact ⟨hidle, hlist⟩
  | between _ hidle _ hlist => exact ⟨hidle, hlist⟩
  | inside _ _ hne hnet _ =>
    rw [hnet, List.mem_singleton] at hm
    exact absurd hm.symm hne

/-- An answer takes the place of the request. -/
theorem Phase.answered (h : Phase s) {request answer : Message} (hnet : s.net = [request])
    (hrequest : request ≠ .timer) (hanswer : answer ≠ .timer)
    (contexts : List (BitVec 32 × ℕ)) :
    Phase { s with net := [answer], contexts := contexts } := by
  have hmem : request ∈ s.net := by simp [hnet]
  obtain ⟨hbusy, hlist⟩ := h.busy hmem hrequest
  exact .inside (h.running hmem) hbusy hanswer rfl hlist

def afterTurn (s : Office) (e : Effect) : Office :=
  { s with canon := e.1, net := e.2, rounds := s.rounds + beginnings e.2 }

/-- What a turn does to the phase: it keeps the key, and sends the timer of the next round or the
next message of this one. -/
theorem turn_phase (hturn : Turn E B s.canon m e) (hexit : e.1.forceExit = false)
    (hlist : m ≠ .timer → s.canon.state ≠ .idle ∧ s.canon.transactionList.isSome = true) :
    e.1.running = s.canon.running ∧ e.1.privateKey = s.canon.privateKey ∧
      ((e.2 = [.timer] ∧ e.1.state = .idle ∧ e.1.transactionList = none) ∨
        ∃ next, e.2 = [next] ∧ next ≠ .timer ∧ e.1.state ≠ .idle ∧
          e.1.transactionList.isSome = true) := by
  cases hturn with
  | exits hout =>
    rw [hout] at hexit
    cases hexit
  | sleeps _ => exact ⟨rfl, rfl, Or.inl ⟨rfl, rfl, rfl⟩⟩
  | collects _ _ _ => exact ⟨rfl, rfl, Or.inr ⟨_, rfl, by simp, (hlist (by simp)).1, rfl⟩⟩
  | begins | beginsAgain _ | makes _ _ _ _ _ =>
    exact ⟨rfl, rfl, Or.inr ⟨_, rfl, by simp, by simp, rfl⟩⟩
  | drew _ | announced _ | created _ _ | emptyChain _ _ | latest _ _ _ | block _ _ _
  | announcesLatest _ _ | finishes _ | announces _ =>
    exact ⟨rfl, rfl, Or.inr ⟨_, rfl, by simp, by simp, (hlist (by simp)).2⟩⟩

theorem OfficeInvariant.afterTurn (h : OfficeInvariant s) (hmem : m ∈ s.net)
    (hturn : Turn E B s.canon m e) (hexit : e.1.forceExit = false) :
    OfficeInvariant (afterTurn s e) := by
  have hrun := h.phase.running hmem
  obtain ⟨hrun', hkey', hnext⟩ := turn_phase hturn hexit (h.phase.busy hmem)
  constructor
  · rcases hnext with ⟨hnet, hidle, hlist⟩ | ⟨next, hnet, hne, hbusy, hlist⟩
    · exact .between (hrun'.trans hrun) hidle hnet hlist
    · exact .inside (hrun'.trans hrun) hbusy hne hnet hlist
  · intro _
    show e.1.privateKey.isSome = true
    rw [hkey']
    exact h.key hrun

/-- A control command leaves the round alone, or arms the first timer. -/
theorem OfficeInvariant.afterControl (h : OfficeInvariant s) (hturn : ControlTurn s.canon e)
    (hexit : e.1.forceExit = false) :
    OfficeInvariant { s with canon := e.1, net := s.net ++ e.2,
                             rounds := s.rounds + beginnings e.2 } := by
  cases hturn with
  | exits hout =>
    rw [hout] at hexit
    cases hexit
  | refused | configured _ _ _ =>
    simp only [List.append_nil]
    constructor
    · cases h.phase with
      | new hrun hidle hnet hlist => exact .new hrun hidle hnet hlist
      | between hrun hidle hnet hlist => exact .between hrun hidle hnet hlist
      | inside hrun hbusy hm hnet hlist => exact .inside hrun hbusy hm hnet hlist
    · exact h.key
  | keySet key hkey =>
    simp only [List.append_nil]
    constructor
    · cases h.phase with
      | new hrun hidle hnet hlist => exact .new hrun hidle hnet hlist
      | between hrun hidle hnet hlist => exact .between hrun hidle hnet hlist
      | inside hrun hbusy hm hnet hlist => exact .inside hrun hbusy hm hnet hlist
    · intro _
      rfl
  | started hkey hrun =>
    constructor
    · cases h.phase with
      | new _ hidle hnet hlist => exact .between rfl hidle (by simp [hnet]) hlist
      | between hrun' _ _ _ =>
        rw [hrun] at hrun'
        cases hrun'
      | inside hrun' _ _ _ _ =>
        rw [hrun] at hrun'
        cases hrun'
    · intro _
      exact hkey

end Phases

/-! ### One step -/

section Steps

variable {E : Env} {B : CertBuilder} {s t : Office} {a : OfficeAction}

inductive Progress (E : Env) (B : CertBuilder) (s : Office) : OfficeAction → Office → Prop
  | control {o : Outside} {c : ControlCommand} {e : Effect} (hturn : ControlTurn s.canon e) :
    Progress E B s (.control o c) { s with canon := e.1, net := s.net ++ e.2,
                                           rounds := s.rounds + beginnings e.2 }
  | handled {a : OfficeAction} {m : Message} {e : Effect} (hnet : s.net = [m])
      (hturn : Turn E B s.canon m e) : Progress E B s a (afterTurn s e)
  | random {packet : Bytes} (hnet : s.net = [.randomRequest]) :
    Progress E B s (.answerRandom packet) { s with net := [.randomResponse packet] }
  | data {packet : Bytes} {resp : Response} (hnet : s.net = [.dataRequest packet])
      (hm : resp.method = requestMethod packet) :
    Progress E B s (.answerData resp) { s with
      net := [.dataResponse resp]
      contexts := contextsAfter s.rounds packet resp s.contexts }
  | notify {b : Uuid} {packet : Bytes} (hnet : s.net = [.blockUpdate b]) :
    Progress E B s (.answerNotify packet) { s with net := [.notifyResponse packet] }

theorem officeCallback_some {net : List Message} {e : Option Effect}
    (h : officeCallback s net e = some t) : s.canon.forceExit = false ∧ ∃ e', e = some e' ∧
      t = { s with canon := e'.1, net := net ++ e'.2, rounds := s.rounds + beginnings e'.2 } := by
  unfold officeCallback at h
  split at h
  · cases h
  · rename_i hrun
    obtain ⟨e', he, rfl⟩ := Option.map_eq_some_iff.mp h
    exact ⟨by simpa using hrun, e', he, rfl⟩

theorem handled_of_callback {m : Message} {e : Option Effect} (hnet : s.net = [m])
    (h : officeCallback s [] e = some t)
    (hturn : s.canon.forceExit = false → ∀ e', e = some e' → Turn E B s.canon m e') :
    Progress E B s a t := by
  obtain ⟨hrun, e', he, rfl⟩ := officeCallback_some h
  exact .handled hnet (hturn hrun e' he)

theorem eq_of_isTimer {m : Message} (h : isTimer m = some ()) : m = .timer := by
  cases m with
  | timer => rfl
  | _ => cases h

theorem eq_of_isRandomRequest {m : Message} (h : isRandomRequest m = some ()) :
    m = .randomRequest := by
  cases m with
  | randomRequest => rfl
  | _ => cases h

theorem eq_of_isRandomResponse {m : Message} {packet : Bytes}
    (h : isRandomResponse m = some packet) : m = .randomResponse packet := by
  cases m with
  | randomResponse p =>
    cases h
    rfl
  | _ => cases h

theorem eq_of_isNotifyResponse {m : Message} {packet : Bytes}
    (h : isNotifyResponse m = some packet) : m = .notifyResponse packet := by
  cases m with
  | notifyResponse p =>
    cases h
    rfl
  | _ => cases h

theorem step_progress (hsingle : s.net.length ≤ 1) (h : officeStep E B s a = some t) :
    Progress E B s a t := by
  cases a with
  | control o c =>
    obtain ⟨-, e, he, rfl⟩ := officeCallback_some h
    cases he
    exact .control (controlRead_turn c)
  | timer o =>
    obtain ⟨⟨_, net⟩, ht, h⟩ := Option.bind_eq_some_iff.mp h
    obtain ⟨m, hnet, hk, rfl⟩ := takeMessage_single hsingle ht
    obtain rfl := eq_of_isTimer hk
    exact handled_of_callback hnet h fun _ e he => Option.some.inj he ▸ timerCb_turn
  | answerRandom packet =>
    obtain ⟨⟨_, net⟩, ht, h⟩ := Option.bind_eq_some_iff.mp h
    obtain ⟨m, hnet, hk, rfl⟩ := takeMessage_single hsingle ht
    obtain rfl := eq_of_isRandomRequest hk
    cases h
    exact .random hnet
  | randomRead o =>
    obtain ⟨⟨packet, net⟩, ht, h⟩ := Option.bind_eq_some_iff.mp h
    obtain ⟨m, hnet, hk, rfl⟩ := takeMessage_single hsingle ht
    obtain rfl := eq_of_isRandomResponse hk
    exact handled_of_callback hnet h fun _ e he => Option.some.inj he ▸ randomRead_turn
  | answerData resp =>
    obtain ⟨⟨packet, net⟩, ht, h⟩ := Option.bind_eq_some_iff.mp h
    obtain ⟨m, hnet, hk, rfl⟩ := takeMessage_single hsingle ht
    obtain rfl := eq_of_isDataRequest hk
    simp only at h
    split at h
    · rename_i hm
      cases h
      exact .data hnet hm
    · cases h
  | dataRead o =>
    obtain ⟨⟨resp, net⟩, ht, h⟩ := Option.bind_eq_some_iff.mp h
    obtain ⟨m, hnet, hk, rfl⟩ := takeMessage_single hsingle ht
    obtain rfl := eq_of_isDataResponse hk
    exact handled_of_callback hnet h fun hrun e he => dataRead_turn hrun he
  | answerNotify packet =>
    obtain ⟨⟨b, net⟩, ht, h⟩ := Option.bind_eq_some_iff.mp h
    obtain ⟨m, hnet, hk, rfl⟩ := takeMessage_single hsingle ht
    obtain rfl := eq_of_isBlockUpdate hk
    cases h
    exact .notify hnet
  | notifyRead o =>
    obtain ⟨⟨packet, net⟩, ht, h⟩ := Option.bind_eq_some_iff.mp h
    obtain ⟨m, hnet, hk, rfl⟩ := takeMessage_single hsingle ht
    obtain rfl := eq_of_isNotifyResponse hk
    exact handled_of_callback hnet h fun _ e he => Option.some.inj he ▸ notifyRead_turn

theorem OfficeInvariant.step (h : OfficeInvariant s) (hstep : officeStep E B s a = some t)
    (hexit : t.canon.forceExit = false) : OfficeInvariant t := by
  cases step_progress h.phase.single hstep with
  | control hturn => exact h.afterControl hturn hexit
  | handled hnet hturn => exact h.afterTurn (by simp [hnet]) hturn hexit
  | random hnet => exact ⟨h.phase.answered hnet (by simp) (by simp) s.contexts, h.key⟩
  | data hnet _ => exact ⟨h.phase.answered hnet (by simp) (by simp) _, h.key⟩
  | notify hnet => exact ⟨h.phase.answered hnet (by simp) (by simp) s.contexts, h.key⟩

end Steps

/-! ### The child context of a round -/

/-- The contexts that are open while a message is in flight: none before the create and after the
close, and between them the one of this round. -/
def Stage (s : Office) : Message → Prop
  | .timer | .randomRequest | .randomResponse _ => s.contexts = []
  | .dataRequest packet =>
    if requestMethod packet = Method.llChildContextCreate.code then s.contexts = []
    else s.contexts = [(s.canon.dataChildContext, s.rounds)] ∧
      (requestMethod packet = Method.llChildContextClose.code →
        requestChild packet = s.canon.dataChildContext)
  | .dataResponse resp =>
    if resp.method = Method.llChildContextCreate.code then
      s.contexts = match decodeResponseChildContextCreate resp with
        | some (.ok child) => [(child, s.rounds)]
        | _ => []
    else if resp.method = Method.llChildContextClose.code then s.contexts = []
    else s.contexts = [(s.canon.dataChildContext, s.rounds)]
  | .blockUpdate _ | .notifyResponse _ => s.contexts = [(s.canon.dataChildContext, s.rounds)]

structure Held (s : Office) : Prop where
  idle : s.net = [] → s.contexts = []
  stage : ∀ m ∈ s.net, Stage s m

section Contexts

variable {E : Env} {B : CertBuilder} {s t : Office} {a : OfficeAction} {m : Message} {e : Effect}

theorem requestMethod_requestPacket (m : Method) (child : BitVec 32) (args : Bytes) :
    requestMethod (requestPacket m child args) = m.code := by
  rw [requestMethod, slice, List.drop_zero]
  exact bits_method m _

theorem requestChild_requestPacket (m : Method) (child : BitVec 32) (args : Bytes) :
    requestChild (requestPacket m child args) = child := by
  rw [requestChild, slice, requestPacket, List.drop_left' (length_be 4 _),
    List.take_left' (length_be 4 _), bits_be (n := 4) (w := 32) rfl]

theorem requestMethod_create :
    requestMethod (encodeRequestChildContextCreate canonizationCaps) =
      Method.llChildContextCreate.code := by
  rw [requestMethod, slice, List.drop_zero]
  exact bits_method .llChildContextCreate _

/-- The request of a method in the middle of a round. -/
theorem stage_request {method : Method} {args : Bytes}
    (hm : method.code ≠ Method.llChildContextCreate.code)
    (h : s.contexts = [(s.canon.dataChildContext, s.rounds)]) :
    Stage s (.dataRequest (requestPacket method s.canon.dataChildContext args)) := by
  rw [Stage, requestMethod_requestPacket, if_neg hm]
  exact ⟨h, fun _ => requestChild_requestPacket _ _ _⟩

theorem Stage.entry {resp : Response} (h : Stage s (.dataResponse resp))
    (hcreate : resp.method ≠ Method.llChildContextCreate.code)
    (hclose : resp.method ≠ Method.llChildContextClose.code) :
    s.contexts = [(s.canon.dataChildContext, s.rounds)] := by
  rw [Stage, if_neg hcreate, if_neg hclose] at h
  exact h

theorem Stage.readsEntry {resp : Response} (h : Stage s (.dataResponse resp))
    (hm : ReadsEntry resp) : s.contexts = [(s.canon.dataChildContext, s.rounds)] := by
  rcases hm with hm | hm
  · exact h.entry (by rw [hm]; decide) (by rw [hm]; decide)
  · exact h.entry (by rw [hm]; decide) (by rw [hm]; decide)

theorem Stage.of_method {resp : Response} {method : Method} (h : Stage s (.dataResponse resp))
    (hm : resp.method = method.code) (hcreate : method.code ≠ Method.llChildContextCreate.code)
    (hclose : method.code ≠ Method.llChildContextClose.code) :
    s.contexts = [(s.canon.dataChildContext, s.rounds)] :=
  h.entry (by rwa [hm]) (by rwa [hm])

theorem Stage.closed {resp : Response} (h : Stage s (.dataResponse resp))
    (hm : resp.method = Method.llChildContextClose.code) : s.contexts = [] := by
  rw [Stage, hm, if_neg (by decide), if_pos rfl] at h
  exact h

/-- The next message finds the contexts it needs. -/
theorem turn_stage (hstage : Stage s m) (hturn : Turn E B s.canon m e)
    (hexit : e.1.forceExit = false) : ∀ next ∈ e.2, Stage (afterTurn s e) next := by
  intro next hnext
  cases hturn with
  | exits hout =>
    rw [hout] at hexit
    cases hexit
  | begins =>
    rw [List.mem_singleton.mp hnext]
    exact hstage
  | drew _ =>
    rw [List.mem_singleton.mp hnext, Stage, requestMethod_create, if_pos rfl]
    exact hstage
  | created hm h =>
    rw [Stage, if_pos hm, h] at hstage
    rw [List.mem_singleton.mp hnext]
    exact stage_request (s := afterTurn s _) (by decide) hstage
  | emptyChain hm _ =>
    rw [List.mem_singleton.mp hnext]
    exact stage_request (s := afterTurn s _) (by decide)
      (hstage.of_method hm (by decide) (by decide))
  | latest hm _ _ =>
    rw [List.mem_singleton.mp hnext]
    exact stage_request (s := afterTurn s _) (by decide)
      (hstage.of_method hm (by decide) (by decide))
  | block hm _ _ =>
    rw [List.mem_singleton.mp hnext]
    exact stage_request (s := afterTurn s _) (by decide)
      (hstage.of_method hm (by decide) (by decide))
  | collects hm _ _ =>
    rw [List.mem_singleton.mp hnext]
    exact stage_request (s := afterTurn s _) (by decide) (hstage.readsEntry hm)
  | makes hm _ _ _ _ =>
    rw [List.mem_singleton.mp hnext]
    exact stage_request (s := afterTurn s _) (by decide) (hstage.readsEntry hm)
  | announcesLatest hm _ =>
    rw [List.mem_singleton.mp hnext]
    exact hstage.readsEntry hm
  | finishes hm =>
    rw [List.mem_singleton.mp hnext]
    exact stage_request (s := afterTurn s _) (by decide) (hstage.readsEntry hm)
  | announces hm =>
    rw [List.mem_singleton.mp hnext]
    exact hstage.of_method hm (by decide) (by decide)
  | announced packet =>
    rw [List.mem_singleton.mp hnext]
    exact stage_request (s := afterTurn s _) (by decide) hstage
  | sleeps hm =>
    rw [List.mem_singleton.mp hnext]
    exact hstage.closed hm
  | beginsAgain hm =>
    rw [List.mem_singleton.mp hnext]
    exact hstage.closed hm

/-- A granted create opens the context of the round, a granted close deletes it. -/
theorem Stage.answered {packet : Bytes} {resp : Response} (h : Stage s (.dataRequest packet))
    (hm : resp.method = requestMethod packet)
    (hgranted : requestMethod packet = Method.llChildContextClose.code → resp.status = .ok ()) :
    Stage { s with
      net := [.dataResponse resp]
      contexts := contextsAfter s.rounds packet resp s.contexts } (.dataResponse resp) := by
  rw [Stage, hm]
  simp only
  by_cases hcreate : requestMethod packet = Method.llChildContextCreate.code
  · rw [Stage, if_pos hcreate] at h
    rw [if_pos hcreate, contextsAfter, if_pos hcreate, h]
  · rw [Stage, if_neg hcreate] at h
    obtain ⟨hopen, hchild⟩ := h
    rw [if_neg hcreate, contextsAfter, if_neg hcreate]
    by_cases hclose : requestMethod packet = Method.llChildContextClose.code
    · rw [if_pos hclose, if_pos ⟨hclose, hgranted hclose⟩, hopen, hchild hclose]
      simp
    · rw [if_neg hclose, if_neg (fun hand => hclose hand.1)]
      exact hopen

theorem Stage.congr (h : Stage s m) (hchild : t.canon.dataChildContext = s.canon.dataChildContext)
    (hcontexts : t.contexts = s.contexts) (hrounds : t.rounds = s.rounds) : Stage t m := by
  cases m with
  | timer | randomRequest | randomResponse _ => exact hcontexts.trans h
  | dataRequest packet =>
    rw [Stage] at h ⊢
    rwa [hcontexts, hchild, hrounds]
  | dataResponse resp =>
    rw [Stage] at h ⊢
    rwa [hcontexts, hchild, hrounds]
  | blockUpdate _ | notifyResponse _ =>
    rw [Stage] at h ⊢
    rwa [hcontexts, hchild, hrounds]

theorem Held.step (h : Held s) (hinv : OfficeInvariant s) (hok : ClosesGranted s a)
    (hstep : officeStep E B s a = some t) (hexit : t.canon.forceExit = false) : Held t := by
  cases step_progress hinv.phase.single hstep with
  | control hturn =>
    cases hturn with
    | exits hout =>
      rw [hout] at hexit
      cases hexit
    | refused | configured _ _ _ | keySet _ _ =>
      constructor
      · intro hnet
        exact h.idle (by simpa using hnet)
      · intro m hm
        rw [List.append_nil] at hm
        exact (h.stage m hm).congr rfl rfl rfl
    | started _ hrun =>
      have hnil : s.net = [] := by
        cases hinv.phase with
        | new _ _ hnet _ => exact hnet
        | between hrun' _ _ _ =>
          rw [hrun] at hrun'
          cases hrun'
        | inside hrun' _ _ _ _ =>
          rw [hrun] at hrun'
          cases hrun'
      constructor
      · intro hnet
        simp at hnet
      · intro m hm
        rw [hnil] at hm
        rw [List.mem_singleton.mp hm]
        exact h.idle hnil
  | handled hnet hturn =>
    have hstage := turn_stage (h.stage _ (by simp [hnet])) hturn hexit
    constructor
    · intro hnone
      obtain ⟨-, -, hnext⟩ := turn_phase hturn hexit (hinv.phase.busy (by simp [hnet]))
      rcases hnext with ⟨hsent, -⟩ | ⟨next, hsent, -⟩
      · exact absurd (hsent.symm.trans hnone) (by simp)
      · exact absurd (hsent.symm.trans hnone) (by simp)
    · exact hstage
  | random hnet =>
    have hstage := h.stage .randomRequest (by simp [hnet])
    constructor
    · intro hnone
      cases hnone
    · intro m hm
      rw [List.mem_singleton.mp hm]
      exact hstage
  | data hnet hm =>
    rename_i packet resp
    have hstage := h.stage (.dataRequest packet) (by simp [hnet])
    have hgranted := hok packet [] (by rw [hnet]; rfl)
    constructor
    · intro hnone
      cases hnone
    · intro m hmem
      rw [List.mem_singleton.mp hmem]
      exact hstage.answered hm hgranted
  | notify hnet =>
    rename_i b packet
    have hstage := h.stage (.blockUpdate b) (by simp [hnet])
    constructor
    · intro hnone
      cases hnone
    · intro m hm
      rw [List.mem_singleton.mp hm]
      exact hstage

/-- Every open context was opened by the last round that began. -/
theorem Stage.contexts (h : Stage s m) : ∀ c ∈ s.contexts, c.2 = s.rounds := by
  have hone : ∀ child, s.contexts = [(child, s.rounds)] → ∀ c ∈ s.contexts, c.2 = s.rounds := by
    intro child heq c hc
    rw [heq, List.mem_singleton] at hc
    rw [hc]
  have hnone : s.contexts = [] → ∀ c ∈ s.contexts, c.2 = s.rounds := by
    intro heq c hc
    rw [heq] at hc
    cases hc
  cases m with
  | timer | randomRequest | randomResponse _ => exact hnone h
  | dataRequest packet =>
    rw [Stage] at h
    split at h
    · exact hnone h
    · exact hone _ h.1
  | dataResponse resp =>
    rw [Stage] at h
    split at h
    · split at h
      · exact hone _ h
      · exact hnone h
    · split at h
      · exact hnone h
      · exact hone _ h
  | blockUpdate _ | notifyResponse _ => exact hone _ h

theorem Held.contexts (h : Held s) : ∀ c ∈ s.contexts, c.2 = s.rounds := by
  cases hnet : s.net with
  | nil =>
    intro c hc
    rw [h.idle hnet] at hc
    cases hc
  | cons m _ => exact (h.stage m (by simp [hnet])).contexts

end Contexts

/-! ### Runs -/

section Runs

variable {E : Env} {B : CertBuilder} {s t : Office} {a : OfficeAction}

/-- What was told to exit stays so. -/
theorem exiting_step (h : officeStep E B s a = some t) (hexit : s.canon.forceExit = true) :
    t.canon.forceExit = true := by
  have hcallback : ∀ net e, officeCallback s net e ≠ some t := by
    intro net e hcall
    have hrun := (officeCallback_some hcall).1
    rw [hexit] at hrun
    cases hrun
  cases a with
  | control o c => exact (hcallback _ _ h).elim
  | timer o =>
    obtain ⟨_, -, h⟩ := Option.bind_eq_some_iff.mp h
    exact (hcallback _ _ h).elim
  | randomRead o =>
    obtain ⟨_, -, h⟩ := Option.bind_eq_some_iff.mp h
    exact (hcallback _ _ h).elim
  | dataRead o =>
    obtain ⟨_, -, h⟩ := Option.bind_eq_some_iff.mp h
    exact (hcallback _ _ h).elim
  | notifyRead o =>
    obtain ⟨_, -, h⟩ := Option.bind_eq_some_iff.mp h
    exact (hcallback _ _ h).elim
  | answerRandom packet =>
    obtain ⟨_, -, h⟩ := Option.bind_eq_some_iff.mp h
    cases h
    exact hexit
  | answerData resp =>
    obtain ⟨_, -, h⟩ := Option.bind_eq_some_iff.mp h
    simp only at h
    split at h
    · cases h
      exact hexit
    · cases h
  | answerNotify packet =>
    obtain ⟨_, -, h⟩ := Option.bind_eq_some_iff.mp h
    cases h
    exact hexit

theorem running_before (h : officeStep E B s a = some t) (hrun : t.canon.forceExit = false) :
    s.canon.forceExit = false := by
  by_contra hne
  rw [Bool.not_eq_false] at hne
  rw [exiting_step h hne] at hrun
  cases hrun

theorem run_invariant {allowed : Office → OfficeAction → Prop} (h : OfficeRun E B allowed s) :
    s.canon.forceExit = false → OfficeInvariant s := by
  induction h with
  | start =>
    intro _
    constructor
    · exact .new rfl rfl rfl rfl
    · intro hrun
      cases hrun
  | tail before meets taken ih =>
    intro hrun
    exact (ih (running_before taken hrun)).step taken hrun

theorem run_held (h : OfficeRun E B ClosesGranted s) : s.canon.forceExit = false → Held s := by
  induction h with
  | start =>
    intro _
    constructor
    · intro _
      rfl
    · intro m hm
      cases hm
  | tail before meets taken ih =>
    intro hrun
    have hbefore := running_before taken hrun
    exact (ih hbefore).step (run_invariant before hbefore) meets taken hrun

/-- The order of rounds holds whatever the answers are; only the contexts depend on them. -/
theorem OfficeInvariant.disciplined (h : OfficeInvariant s)
    (hcontexts : ∀ c ∈ s.contexts, c.2 = s.rounds) : Disciplined E B s where
  oneRequest := (List.length_filter_le _ _).trans h.phase.single
  list := by
    rw [Office.inRound]
    cases h.phase with
    | new _ hidle _ hlist => simp [hidle, hlist]
    | between _ hidle _ hlist => simp [hidle, hlist]
    | inside _ hbusy _ _ hlist => simp [hbusy, hlist]
  timerAssertion hm := (h.phase.idle hm).2
  defined o resp hm := by
    obtain ⟨-, hlist⟩ := h.phase.busy hm (by simp)
    exact dataRead_isSome hlist (h.key (h.phase.running hm))
  oneTimer := List.count_le_length.trans h.phase.single
  timerIdle hm hround := hround (h.phase.idle hm).1
  contexts := hcontexts

/-- While every close of a child context is granted and the service has not been told to exit, it
has at most one request outstanding, holds the transaction list exactly during a round, arms its
timer only between rounds, and has no child context of an earlier round left open. -/
theorem rounds_follow_each_other (h : OfficeRun E B ClosesGranted s)
    (hrun : s.canon.forceExit = false) : Disciplined E B s :=
  (run_invariant h hrun).disciplined (run_held h hrun).contexts

end Runs

/-! ### A close that is refused -/

def officeExecute (E : Env) (B : CertBuilder) (check : Office → OfficeAction → Bool) (s : Office)
    (as : List OfficeAction) : Option Office :=
  as.foldlM (fun s a => if check s a then officeStep E B s a else none) s

theorem officeRun_of_execute {E : Env} {B : CertBuilder} {check : Office → OfficeAction → Bool}
    {allowed : Office → OfficeAction → Prop} (hcheck : ∀ s a, check s a = true → allowed s a)
    {s t : Office} {as : List OfficeAction} (hs : OfficeRun E B allowed s)
    (h : officeExecute E B check s as = some t) : OfficeRun E B allowed t := by
  induction as generalizing s with
  | nil =>
    cases h
    exact hs
  | cons a as ih =>
    rw [officeExecute, List.foldlM_cons] at h
    obtain ⟨u, hu, hrest⟩ := Option.bind_eq_some_iff.mp h
    split at hu
    · rename_i hc
      exact ih (hs.tail (hcheck _ _ hc) hu) hrest
    · cases hu

/-- The first round on an empty database: the latest block is the root block, the queue is empty,
and the root block is announced. The close is answered with a status. -/
def firstRound (status : Except AgentdError Unit) : List OfficeAction :=
  [.control (allWorks 0) (.configure 1000 10), .control (allWorks 0) (.privateKeySet ⟨3, []⟩),
    .control (allWorks 0) .start, .timer (allWorks 0), .answerRandom (randomPacket 9),
    .randomRead (allWorks 0),
    .answerData ⟨Method.llChildContextCreate.code, 0, .ok (), some (be 4 5#32)⟩,
    .dataRead (allWorks 0),
    .answerData ⟨Method.appBlockIdLatestRead.code, 5, .ok (), some (be 16 (1 : Uuid))⟩,
    .dataRead (allWorks 0),
    .answerData ⟨Method.appPqTransactionFirstRead.code, 5, .error .notFound, none⟩,
    .dataRead (allWorks 0), .answerNotify (be 4 1#32 ++ be 8 blockUpdateOffset ++ be 4 0#32),
    .notifyRead (allWorks 0), .answerData ⟨Method.llChildContextClose.code, 5, status, none⟩,
    .dataRead (allWorks 0), .timer (allWorks 0)]

def closesGrantedCheck (s : Office) : OfficeAction → Bool
  | .answerData resp =>
    match takeMessage isDataRequest s.net with
    | some (packet, _) =>
      requestMethod packet != Method.llChildContextClose.code || resp.status == .ok ()
    | none => true
  | _ => true

theorem closesGranted_of_check (s : Office) (a : OfficeAction)
    (h : closesGrantedCheck s a = true) : ClosesGranted s a := by
  cases a with
  | answerData resp =>
    intro packet net htake hmethod
    simp only [closesGrantedCheck, htake, hmethod] at h
    simpa using h
  | _ => trivial

theorem first_round_follows : ∃ s, OfficeRun (codecEnv false) codecBuilder ClosesGranted s ∧
    s.canon.forceExit = false ∧ s.rounds = 2 ∧ s.contexts = [] ∧
    Disciplined (codecEnv false) codecBuilder s := by
  have hrun : ((officeExecute (codecEnv false) codecBuilder closesGrantedCheck office
      (firstRound (.ok ()))).map fun s => (s.canon.forceExit, s.rounds, s.contexts)) =
      some (false, 2, []) := by
    decide +kernel
  obtain ⟨s, hs, heq⟩ := Option.map_eq_some_iff.mp hrun
  obtain ⟨hexit, hrest⟩ := Prod.mk.inj heq
  obtain ⟨hrounds, hcontexts⟩ := Prod.mk.inj hrest
  have hoffice := officeRun_of_execute closesGranted_of_check .start hs
  exact ⟨s, hoffice, hexit, hrounds, hcontexts, rounds_follow_each_other hoffice hexit⟩

/-- A close that is refused ends the round like any other; the second round begins while the context
of the first is still open. -/
theorem refused_close_is_forgotten :
    ∃ s, OfficeRun (codecEnv false) codecBuilder (fun _ _ => True) s ∧
      s.canon.forceExit = false ∧ s.rounds = 2 ∧ s.contexts = [(5, 1)] ∧
      ¬ Disciplined (codecEnv false) codecBuilder s := by
  have hrun : ((officeExecute (codecEnv false) codecBuilder (fun _ _ => true) office
      (firstRound (.error .notAuthorized))).map fun s =>
        (s.canon.forceExit, s.rounds, s.contexts)) = some (false, 2, [(5, 1)]) := by
    decide +kernel
  obtain ⟨s, hs, heq⟩ := Option.map_eq_some_iff.mp hrun
  obtain ⟨hexit, hrest⟩ := Prod.mk.inj heq
  obtain ⟨hrounds, hcontexts⟩ := Prod.mk.inj hrest
  refine ⟨s, officeRun_of_execute (fun _ _ _ => trivial) .start hs, hexit, hrounds, hcontexts, ?_⟩
  intro hdisciplined
  have hround := hdisciplined.contexts (5, 1) (by simp [hcontexts])
  rw [hrounds] at hround
  cases hround

end RoundDiscipline
