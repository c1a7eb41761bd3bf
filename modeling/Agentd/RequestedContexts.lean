import Agentd.ClientRequests

/-! # The child contexts of the connections

The endpoint of the data service takes its messages in the order in which they were sent. A
connection sends the one that opens its child context first and the one that closes it last, so that
what it asks in between finds a context; and while the data service has room for every context that
is asked for, the endpoint goes on. -/
namespace RequestedContexts

open DataserviceDispatch
open ClientRequests
open NotificationEndpoint (ProtocolFiber)

variable {n : ℕ} {s : System n} {c d : ℕ} {held : Finset ℕ} {l : List DataMessage}
  {m : DataMessage} {stage : ContextStage}

/-! ### Room -/

def contextsWith (held : Finset ℕ) : DataMessage → Finset ℕ
  | .contextOpen c => insert c held
  | .contextClose c => held.erase c
  | .dataserviceReq _ => held

def contextsAfter (held : Finset ℕ) (l : List DataMessage) : Finset ℕ := l.foldl contextsWith held

def Admitted (held : Finset ℕ) : DataMessage → Prop
  | .contextOpen _ => held.card < maxChildContexts
  | _ => True

def RoomFor (held : Finset ℕ) : List DataMessage → Prop
  | [] => True
  | m :: l => Admitted held m ∧ RoomFor (contextsWith held m) l

theorem roomFor_append (hroom : RoomFor held l) (hadmitted : Admitted (contextsAfter held l) m) :
    RoomFor held (l ++ [m]) := by
  induction l generalizing held with
  | nil => exact ⟨hadmitted, trivial⟩
  | cons m' l ih => exact ⟨hroom.1, ih hroom.2 hadmitted⟩

/-! ### Mail -/

def Holding (stage : ContextStage) : Prop := stage = .opened ∨ stage = .closing

/-- What a connection has in the mailbox of the endpoint. -/
def Mail (c : ℕ) (l : List DataMessage) : ContextStage → Prop
  | .none => l = []
  | .opening => l = [.contextOpen c]
  | .opened => ∀ m ∈ l, m.isContext = false
  | .closing => ∃ asked, l = asked ++ [.contextClose c] ∧ ∀ m ∈ asked, m.isContext = false
  | .closed => l = []

theorem Mail.of_contextOpen (h : Mail c (.contextOpen d :: l) stage) :
    stage = .opening ∧ l = [] := by
  cases stage with
  | none => cases h
  | opening =>
    cases h
    exact ⟨rfl, rfl⟩
  | opened => simpa [DataMessage.isContext] using h (.contextOpen d) (by simp)
  | closing =>
    obtain ⟨asked, hl, hasked⟩ := h
    cases asked with
    | nil => cases hl
    | cons m asked =>
      cases hl
      simpa [DataMessage.isContext] using hasked (.contextOpen d) (by simp)
  | closed => cases h

theorem Mail.of_contextClose (h : Mail c (.contextClose d :: l) stage) :
    stage = .closing ∧ l = [] := by
  cases stage with
  | none => cases h
  | opening => cases h
  | opened => simpa [DataMessage.isContext] using h (.contextClose d) (by simp)
  | closing =>
    obtain ⟨asked, hl, hasked⟩ := h
    cases asked with
    | nil =>
      cases hl
      exact ⟨rfl, rfl⟩
    | cons m asked =>
      cases hl
      simpa [DataMessage.isContext] using hasked (.contextClose d) (by simp)
  | closed => cases h

theorem Mail.of_dataserviceReq {q : DataRequest} (h : Mail c (.dataserviceReq q :: l) stage) :
    Holding stage ∧ Mail c l stage := by
  cases stage with
  | none => cases h
  | opening => cases h
  | opened => exact ⟨Or.inl rfl, fun m hm => h m (List.mem_cons_of_mem _ hm)⟩
  | closing =>
    obtain ⟨asked, hl, hasked⟩ := h
    cases asked with
    | nil => cases hl
    | cons m asked =>
      cases hl
      exact ⟨Or.inr rfl, asked, rfl, fun m hm => hasked m (List.mem_cons_of_mem _ hm)⟩
  | closed => cases h

def mailOf (c : ℕ) (l : List DataMessage) : List DataMessage := l.filter (·.client = c)

theorem mailOf_cons_self (m : DataMessage) (l : List DataMessage) :
    mailOf m.client (m :: l) = m :: mailOf m.client l := by simp [mailOf]

theorem mailOf_cons_other (hm : m.client ≠ c) (l : List DataMessage) :
    mailOf c (m :: l) = mailOf c l := by simp [mailOf, hm]

theorem mailOf_append_self (m : DataMessage) (l : List DataMessage) :
    mailOf m.client (l ++ [m]) = mailOf m.client l ++ [m] := by simp [mailOf]

theorem mailOf_append_other (hm : m.client ≠ c) (l : List DataMessage) :
    mailOf c (l ++ [m]) = mailOf c l := by simp [mailOf, hm]

/-! ### The invariant -/

/-- Where the protocol fiber of a connection can be. -/
def Standing (p : ProtocolFiber) : ContextStage → Prop
  | .none => p = .absent
  | .opening => p = .absent
  | .opened => True
  | .closing => p = .gone
  | .closed => p = .gone

structure View where
  contexts : Finset ℕ
  dataInbox : List DataMessage
  dataContext : ℕ → ContextStage
  dataReply : Option (ℕ × DataEndpoint.WriteMessage)
  protocol : ℕ → ProtocolFiber

def view (s : System n) : View :=
  ⟨s.contexts, s.dataInbox, s.dataContext, s.dataReply, fun c => (s.endpoint.connection c).protocol⟩

structure Contexts (v : View) : Prop where
  room : RoomFor v.contexts v.dataInbox
  mail : ∀ c, Mail c (mailOf c v.dataInbox) (v.dataContext c)
  reply : ∀ d m, v.dataReply = some (d, m) → Holding (v.dataContext d)
  standing : ∀ c, Standing (v.protocol c) (v.dataContext c)

theorem contexts_start (n : ℕ) : Contexts (view (start n)) where
  room := trivial
  mail _ := rfl
  reply _ _ hreply := by cases hreply
  standing _ := rfl

variable {v : View}

theorem Contexts.mail_of (hv : Contexts v) (hstage : v.dataContext c = stage) :
    Mail c (mailOf c v.dataInbox) stage := hstage ▸ hv.mail c

theorem Contexts.opened (hv : Contexts v) (habsent : v.protocol c ≠ .absent)
    (hgone : v.protocol c ≠ .gone) : v.dataContext c = .opened := by
  have hstanding := hv.standing c
  cases hstage : v.dataContext c with
  | opened => rfl
  | _ =>
    rw [hstage] at hstanding
    first
    | exact absurd hstanding habsent
    | exact absurd hstanding hgone

/-- A connection whose context is closed has nothing more in the mailbox. -/
theorem Contexts.closed (hv : Contexts v) (hclosed : v.dataContext c = .closed) :
    (∀ m ∈ v.dataInbox, m.client ≠ c) ∧ ∀ d m, v.dataReply = some (d, m) → d ≠ c := by
  constructor
  · intro m hm hmc
    have hempty : mailOf c v.dataInbox = [] := hv.mail_of hclosed
    have hmem : m ∈ mailOf c v.dataInbox := List.mem_filter.mpr ⟨hm, decide_eq_true hmc⟩
    rw [hempty] at hmem
    cases hmem
  · rintro d m hm rfl
    have hholding := hv.reply d m hm
    simp [hclosed, Holding] at hholding

theorem Contexts.setProtocol (hv : Contexts v) {protocol : ℕ → ProtocolFiber}
    (hstanding : ∀ c, Standing (protocol c) (v.dataContext c)) :
    Contexts { v with protocol := protocol } :=
  ⟨hv.room, hv.mail, hv.reply, hstanding⟩

theorem Contexts.replied (hv : Contexts v) : Contexts { v with dataReply := none } :=
  ⟨hv.room, hv.mail, fun _ _ hm => (nomatch hm), hv.standing⟩

/-- A message at the end of the mailbox. -/
theorem Contexts.post (hv : Contexts v) (stage : ContextStage)
    (hadmitted : Admitted (contextsAfter v.contexts v.dataInbox) m)
    (hmail : Mail m.client (mailOf m.client v.dataInbox ++ [m]) stage)
    (hreply : Holding (v.dataContext m.client) → Holding stage)
    (hstanding : Standing (v.protocol m.client) stage) :
    Contexts { v with
      dataInbox := v.dataInbox ++ [m]
      dataContext := Function.update v.dataContext m.client stage } := by
  refine ⟨roomFor_append hv.room hadmitted, ?_, ?_, ?_⟩
  · refine (Function.forall_update_iff v.dataContext fun d stage =>
      Mail d (mailOf d (v.dataInbox ++ [m])) stage).mpr ⟨?_, ?_⟩
    · rw [mailOf_append_self]
      exact hmail
    · intro d hd
      rw [mailOf_append_other hd.symm]
      exact hv.mail d
  · exact (Function.forall_update_iff v.dataContext fun d stage =>
      ∀ m', v.dataReply = some (d, m') → Holding stage).mpr
        ⟨fun m' hm' => hreply (hv.reply _ m' hm'), fun d _ => hv.reply d⟩
  · exact (Function.forall_update_iff v.dataContext fun d stage =>
      Standing (v.protocol d) stage).mpr ⟨hstanding, fun d _ => hv.standing d⟩

/-- The first message, when it is dealt with and its connection goes to another stage. -/
theorem Contexts.settle (hv : Contexts v) (stage : ContextStage) (hinbox : v.dataInbox = m :: l)
    (hreply : v.dataReply = none) (hmail : Mail m.client (mailOf m.client l) stage)
    (hstanding : Standing (v.protocol m.client) stage) :
    Contexts { v with
      dataInbox := l
      contexts := contextsWith v.contexts m
      dataContext := Function.update v.dataContext m.client stage } := by
  refine ⟨?_, ?_, ?_, ?_⟩
  · have hroom := hv.room
    rw [hinbox] at hroom
    exact hroom.2
  · refine (Function.forall_update_iff v.dataContext fun d stage =>
      Mail d (mailOf d l) stage).mpr ⟨hmail, ?_⟩
    intro d hd
    rw [← mailOf_cons_other hd.symm, ← hinbox]
    exact hv.mail d
  · intro d m' hm'
    simp only [hreply] at hm'
    cases hm'
  · exact (Function.forall_update_iff v.dataContext fun d stage =>
      Standing (v.protocol d) stage).mpr ⟨hstanding, fun d _ => hv.standing d⟩

/-! ### Steps -/

theorem contexts_requestContext (hv : Contexts (view s))
    (habsent : (s.endpoint.connection c).protocol = .absent) (hnone : s.dataContext c = .none)
    (hroom : (contextsAfter s.contexts s.dataInbox).card < maxChildContexts) :
    Contexts (view (requestContext s c)) := by
  have hempty : mailOf c s.dataInbox = [] := hv.mail_of hnone
  refine hv.post .opening (m := .contextOpen c) hroom ?_ ?_ habsent
  · simp [DataMessage.client, view, hempty, Mail]
  · simp [DataMessage.client, view, hnone, Holding]

theorem contexts_dataserviceReq (hv : Contexts (view s)) (q : DataRequest)
    (hopened : s.dataContext q.client = .opened) :
    Contexts (view { s with dataInbox := s.dataInbox ++ [.dataserviceReq q] }) := by
  have hmail := hv.mail_of hopened
  have hpost := hv.post .opened (m := .dataserviceReq q) trivial ?_ (fun _ => Or.inl rfl) trivial
  · have hsame : Function.update s.dataContext q.client .opened = s.dataContext := by
      rw [← hopened, Function.update_eq_self]
    simp only [view, DataMessage.client, hsame] at hpost
    exact hpost
  · intro m hm
    rcases List.mem_append.mp hm with hold | hnew
    · exact hmail m hold
    · rw [List.mem_singleton.mp hnew]
      rfl

theorem contexts_release (hv : Contexts (view s)) (E : Env)
    (hgone : (s.endpoint.connection c).protocol = .gone) (hopened : s.dataContext c = .opened) :
    Contexts (view (contextRelease E s c)) := by
  exact hv.post .closing (m := .contextClose c) trivial ⟨_, rfl, hv.mail_of hopened⟩
    (fun _ => Or.inr rfl) hgone

theorem contexts_takeData (hv : Contexts (view s)) {q : DataRequest}
    (hinbox : s.dataInbox = .dataserviceReq q :: l) (answer : ByteString.Bytes) :
    Contexts (view (takeData s answer (.dataserviceReq q :: l))) := by
  obtain ⟨hroom, hmail, -, hstanding⟩ := hv
  simp only [view, hinbox] at hroom hmail
  have hcons : mailOf q.client (.dataserviceReq q :: l) =
      .dataserviceReq q :: mailOf q.client l := mailOf_cons_self (.dataserviceReq q) l
  have hown := hmail q.client
  rw [hcons] at hown
  obtain ⟨hholding, hrest⟩ := hown.of_dataserviceReq
  refine ⟨hroom.2, ?_, ?_, hstanding⟩
  · intro d
    by_cases hq : q.client = d
    · rw [← hq]
      exact hrest
    · have hd := hmail d
      rwa [mailOf_cons_other (m := .dataserviceReq q) hq] at hd
  · intro d m hm
    cases hm
    exact hholding

/-- The endpoint opens and closes what it is asked to, and goes on. -/
theorem contexts_takeContext (hv : Contexts (view s)) (hinbox : s.dataInbox = m :: l)
    (hcontext : m.isContext = true) (hreply : s.dataReply = none) :
    s.dataContext m.client ≠ .opened ∧
      ∃ stage, takeContext s (m :: l) = { s with
          dataInbox := l
          contexts := contextsWith s.contexts m
          dataContext := Function.update s.dataContext m.client stage } ∧
        Contexts (view (takeContext s (m :: l))) := by
  have hmail := hv.mail m.client
  have hroom := hv.room
  have hstanding := hv.standing m.client
  simp only [view, hinbox, mailOf_cons_self] at hmail hroom hstanding
  cases m with
  | contextOpen c =>
    obtain ⟨hopening, hrest⟩ := hmail.of_contextOpen
    have htake : takeContext s (.contextOpen c :: l) = { s with
        dataInbox := l
        contexts := contextsWith s.contexts (.contextOpen c)
        dataContext := Function.update s.dataContext c .opened } := if_pos hroom.1
    refine ⟨by simp [hopening], .opened, htake, ?_⟩
    rw [htake]
    refine hv.settle .opened (m := .contextOpen c) hinbox hreply ?_ trivial
    simp [hrest, Mail]
  | contextClose c =>
    obtain ⟨hclosing, hrest⟩ := hmail.of_contextClose
    rw [hclosing] at hstanding
    exact ⟨by simp [hclosing], .closed, rfl,
      hv.settle .closed (m := .contextClose c) hinbox hreply hrest hstanding⟩
  | dataserviceReq q => cases hcontext

end RequestedContexts
