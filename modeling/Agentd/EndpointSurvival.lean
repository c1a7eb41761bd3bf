import Agentd.DataEndpointClients

/-! # The data service endpoint outlives its connections

What the endpoint and a connection can do to each other is seen in a small part of the state: the
messages of the connection that wait in order, the reply that is on its way to it, whether its
mailboxes are open and whether it has an entry. This view of a connection goes through stages from
the first open to the last close, and in none of them is a reply on its way to a closed mailbox. -/
namespace EndpointSurvival

open ByteString
open DataserviceStore
open DataserviceDispatch
open DataEndpoint
open ContextBijection
open DataEndpointClients

variable (A : Mailboxes)

def Owns (c : ℕ) (a : Address) : Prop := a = A.returnAddr c ∨ a = A.fiberAddr c

instance (c : ℕ) (a : Address) : Decidable (Owns A c a) :=
  inferInstanceAs (Decidable (a = A.returnAddr c ∨ a = A.fiberAddr c))

structure View where
  connection : Connection
  queue : List Message
  reply : Option Address
  fiberBox : Option ℕ
  writeOpen : Bool
  entry : Bool

def queueOf (c : ℕ) (inbox : List Message) : List Message :=
  inbox.filter fun m => Owns A c m.returnAddress

def replyTo (c : ℕ) (replying : Option (Address × WriteMessage)) : Option Address :=
  (replying.map Prod.fst).filter fun a => Owns A c a

def view (s : System) (c : ℕ) : View where
  connection := s.connection c
  queue := queueOf A c s.inbox
  reply := replyTo A c s.replying
  fiberBox := (s.mailbox (A.fiberAddr c)).map List.length
  writeOpen := (s.mailbox (A.returnAddr c)).isSome
  entry := (s.endpoint.mailboxContextTree (A.returnAddr c)).isSome

/-! ### Stages -/

def ProtocolFiber.live : ProtocolFiber → ℕ
  | .absent | .gone => 0
  | _ => 1

def WriteFiber.live : WriteFiber → ℕ
  | .absent | .gone => 0
  | _ => 1

structure Held (k : Connection) : Prop where
  context : k.context = .held
  opened : k.dataserviceContextOpened = true
  count : k.referenceCount = ProtocolFiber.live k.protocol + WriteFiber.live k.write
  live : 0 < k.referenceCount
  absent : k.protocol ≠ .absent
  handshake : k.protocol ≠ .handshake
  opening : k.protocol ≠ .opening

/-- A context in its first phase, before the write fiber was added. -/
structure Young (k : Connection) (p : ProtocolFiber) : Prop where
  protocol : k.protocol = p
  write : k.write = .absent
  context : k.context = .held
  opened : k.dataserviceContextOpened = false
  count : k.referenceCount = 1

structure Abandoned (k : Connection) (p : ContextState) : Prop where
  context : k.context = p
  protocol : k.protocol = .gone
  write : k.write = .absent ∨ k.write = .gone

def IsData (c : ℕ) (m : Message) : Prop :=
  ∃ protocolRequestId offset payload,
    m = ⟨A.returnAddr c, .dataserviceReq protocolRequestId offset payload⟩

/-- The view of a connection that is being served: only data requests wait. -/
structure Served (c : ℕ) (v : View) : Prop where
  held : Held v.connection
  queue : ∀ m ∈ v.queue, IsData A c m
  reply : v.reply ≠ some (A.fiberAddr c)
  fiberBox : v.fiberBox = some (if v.connection.protocol = .answered then 1 else 0)
  writeOpen : v.writeOpen = true
  entry : v.entry = true

inductive Stage (c : ℕ) : View → Prop
  | absent : Stage c ⟨noConnection, [], none, none, false, false⟩
  | handshake {k : Connection} (hk : Young k .handshake) :
    Stage c ⟨k, [], none, some 0, true, false⟩
  | openQueued {k : Connection} (caps : Bitcap) (hk : Young k .opening) :
    Stage c ⟨k, [openMessage A c caps], none, some 0, true, false⟩
  | openServed {k : Connection} (hk : Young k .opening) :
    Stage c ⟨k, [], some (A.fiberAddr c), some 0, true, true⟩
  | openAnswered {k : Connection} (hk : Young k .opening) :
    Stage c ⟨k, [], none, some 1, true, true⟩
  | running {v : View} (h : Served A c v) : Stage c v
  | closeQueued {k : Connection} {queue : List Message} {reply : Option Address}
      (hk : Abandoned k .closing) (hqueue : ∀ m ∈ queue, IsData A c m)
      (hreply : reply ≠ some (A.fiberAddr c)) :
    Stage c ⟨k, queue ++ [closeMessage A c], reply, some 0, true, true⟩
  | closeServed {k : Connection} {entry : Bool} (hk : Abandoned k .closing) :
    Stage c ⟨k, [], some (A.fiberAddr c), some 0, true, entry⟩
  | closeAnswered {k : Connection} {entry : Bool} (hk : Abandoned k .closing) :
    Stage c ⟨k, [], none, some 1, true, entry⟩
  | released {k : Connection} {entry : Bool} (hk : Abandoned k .released) :
    Stage c ⟨k, [], none, none, false, entry⟩

def replyCount (replying : Option (Address × WriteMessage)) (a : Address) : ℕ :=
  if replying.map Prod.fst = some a then 1 else 0

/-- Every message that waits and the reply on its way belong to a connection, and what was queued
for an address was answered, waits or is being answered. -/
structure Ledger (s : System) : Prop where
  endpoint : ContextBijection.Inv s.endpoint
  running : s.endpoint.running = true
  known : ∀ m ∈ s.inbox, ∃ c, Owns A c m.returnAddress
  replies : ∀ a ∈ s.replying.map Prod.fst, ∃ c, Owns A c a
  counted : ∀ a, s.queued a = s.answered a + s.inbox.countP (fun m => m.returnAddress = a) +
    replyCount s.replying a

structure Inv (s : System) : Prop where
  ledger : Ledger A s
  stage : ∀ c, Stage A c (view A s c)

variable {A} {s t : System} {c d : ℕ} {k : Connection} {a : Address} {m : WriteMessage}

theorem ledger_start (apicaps : Bitcap) (datadir : Bytes) : Ledger A (start apicaps datadir) where
  endpoint := inv_endpointAdd apicaps datadir
  running := rfl
  known := by
    intro m hm
    cases hm
  replies := by
    intro a ha
    cases ha
  counted _ := rfl

theorem owns_unique (hc : Owns A c a) (hd : Owns A d a) : c = d := by
  rcases hc with rfl | rfl
  · rcases hd with hd | hd
    · exact A.returnAddr_injective hd
    · exact absurd hd (A.apart c d)
  · rcases hd with hd | hd
    · exact absurd hd.symm (A.apart d c)
    · exact A.fiberAddr_injective hd

theorem owns_return (c : ℕ) : Owns A c (A.returnAddr c) := Or.inl rfl

theorem owns_fiber (c : ℕ) : Owns A c (A.fiberAddr c) := Or.inr rfl

/-! ### Views of the parts of a step -/

theorem view_setConnection_self (s : System) (c : ℕ) (k : Connection) :
    view A (setConnection s c k) c = { view A s c with connection := k } := by
  simp only [view, setConnection, Function.update_self]

theorem view_setConnection_other (s : System) (k : Connection) (hd : d ≠ c) :
    view A (setConnection s c k) d = view A s d := by
  simp only [view, setConnection, Function.update_of_ne hd]

/-- What is sent to a write fiber or taken by it is not seen. -/
theorem view_messageSend_return (s : System) (c d : ℕ) (m : WriteMessage) :
    view A (messageSend s (A.returnAddr c) m) d = view A s d := by
  have hfiber : A.fiberAddr d ≠ A.returnAddr c := (A.apart c d).symm
  by_cases hd : A.returnAddr d = A.returnAddr c
  · simp [view, messageSend, Function.update_of_ne hfiber, hd]
  · simp [view, messageSend, Function.update_of_ne hfiber, Function.update_of_ne hd]

theorem view_messageReceive_return (s : System) (c d : ℕ) :
    view A (messageReceive s (A.returnAddr c)) d = view A s d := by
  have hfiber : A.fiberAddr d ≠ A.returnAddr c := (A.apart c d).symm
  by_cases hd : A.returnAddr d = A.returnAddr c
  · simp [view, messageReceive, Function.update_of_ne hfiber, hd]
  · simp [view, messageReceive, Function.update_of_ne hfiber, Function.update_of_ne hd]

theorem view_messageSend_fiber_self (s : System) (c : ℕ) (m : WriteMessage) :
    view A (messageSend s (A.fiberAddr c) m) c =
      { view A s c with fiberBox := (view A s c).fiberBox.map (· + 1) } := by
  simp [view, messageSend, Function.update_of_ne (A.apart c c), Function.comp_def]

theorem view_messageSend_fiber_other (s : System) (m : WriteMessage) (hd : d ≠ c) :
    view A (messageSend s (A.fiberAddr c) m) d = view A s d := by
  have hfiber : A.fiberAddr d ≠ A.fiberAddr c := fun h => hd (A.fiberAddr_injective h)
  simp [view, messageSend, Function.update_of_ne (A.apart d c), Function.update_of_ne hfiber]

theorem view_messageReceive_fiber_self (s : System) (c : ℕ) :
    view A (messageReceive s (A.fiberAddr c)) c =
      { view A s c with fiberBox := (view A s c).fiberBox.map (· - 1) } := by
  simp [view, messageReceive, Function.update_of_ne (A.apart c c), Function.comp_def]

theorem view_messageReceive_fiber_other (s : System) (hd : d ≠ c) :
    view A (messageReceive s (A.fiberAddr c)) d = view A s d := by
  have hfiber : A.fiberAddr d ≠ A.fiberAddr c := fun h => hd (A.fiberAddr_injective h)
  simp [view, messageReceive, Function.update_of_ne (A.apart d c), Function.update_of_ne hfiber]

theorem view_mailboxOpen_self (s : System) (c : ℕ) :
    view A (mailboxOpen A s c) c = { view A s c with fiberBox := some 0, writeOpen := true } := by
  simp [view, mailboxOpen, Function.update_of_ne (A.apart c c)]

theorem view_mailboxClose_self (s : System) (c : ℕ) :
    view A (mailboxClose A s c) c = { view A s c with fiberBox := none, writeOpen := false } := by
  simp [view, mailboxClose, Function.update_of_ne (A.apart c c)]

theorem mailbox_other (box : Address → Option (List WriteMessage)) (o : Option (List WriteMessage))
    (hd : d ≠ c) (ha : Owns A d a) :
    Function.update (Function.update box (A.returnAddr c) o) (A.fiberAddr c) o a = box a := by
  have hreturn : a ≠ A.returnAddr c := fun h => hd (owns_unique ha (Or.inl h))
  have hfiber : a ≠ A.fiberAddr c := fun h => hd (owns_unique ha (Or.inr h))
  rw [Function.update_of_ne hfiber, Function.update_of_ne hreturn]

theorem view_mailboxOpen_other (s : System) (hd : d ≠ c) :
    view A (mailboxOpen A s c) d = view A s d := by
  simp only [view, mailboxOpen, mailbox_other s.mailbox _ hd (owns_return d),
    mailbox_other s.mailbox _ hd (owns_fiber d)]

theorem view_mailboxClose_other (s : System) (hd : d ≠ c) :
    view A (mailboxClose A s c) d = view A s d := by
  simp only [view, mailboxClose, mailbox_other s.mailbox _ hd (owns_return d),
    mailbox_other s.mailbox _ hd (owns_fiber d)]

theorem queueOf_append (c : ℕ) (l₁ l₂ : List Message) :
    queueOf A c (l₁ ++ l₂) = queueOf A c l₁ ++ queueOf A c l₂ :=
  List.filter_append ..

theorem queueOf_own {m : Message} (hm : Owns A c m.returnAddress) (l : List Message) :
    queueOf A c (m :: l) = m :: queueOf A c l := by
  rw [queueOf, List.filter_cons_of_pos (by simpa using hm), queueOf]

theorem queueOf_other {m : Message} (hm : Owns A c m.returnAddress) (hd : d ≠ c)
    (l : List Message) : queueOf A d (m :: l) = queueOf A d l := by
  have hnot : ¬ Owns A d m.returnAddress := fun h => hd (owns_unique h hm)
  rw [queueOf, List.filter_cons_of_neg (by simpa using hnot), queueOf]

theorem view_sendToEndpoint_self (s : System) {m : Message} (hm : Owns A c m.returnAddress) :
    view A (sendToEndpoint s m) c = { view A s c with queue := (view A s c).queue ++ [m] } := by
  simp only [view, sendToEndpoint, queueOf_append, queueOf_own hm]
  rfl

theorem view_sendToEndpoint_other (s : System) {m : Message} (hm : Owns A c m.returnAddress)
    (hd : d ≠ c) : view A (sendToEndpoint s m) d = view A s d := by
  simp only [view, sendToEndpoint, queueOf_append, queueOf_other hm hd]
  rw [queueOf, queueOf, List.filter_nil, List.append_nil]

/-! ### What a stage tells a fiber -/

theorem Stage.of_absent {v : View} (h : Stage A c v) (hp : v.connection.protocol = .absent) :
    v = ⟨noConnection, [], none, none, false, false⟩ := by
  cases h with
  | absent => rfl
  | running h => exact absurd hp h.held.absent
  | handshake hk => simp [hk.protocol] at hp
  | openQueued caps hk => simp [hk.protocol] at hp
  | openServed hk => simp [hk.protocol] at hp
  | openAnswered hk => simp [hk.protocol] at hp
  | closeQueued hk => simp [hk.protocol] at hp
  | closeServed hk => simp [hk.protocol] at hp
  | closeAnswered hk => simp [hk.protocol] at hp
  | released hk => simp [hk.protocol] at hp

theorem Stage.of_handshake {v : View} (h : Stage A c v) (hp : v.connection.protocol = .handshake) :
    Young v.connection .handshake ∧ v = ⟨v.connection, [], none, some 0, true, false⟩ := by
  cases h with
  | handshake hk => exact ⟨hk, rfl⟩
  | absent => simp [noConnection] at hp
  | running h => exact absurd hp h.held.handshake
  | openQueued caps hk => simp [hk.protocol] at hp
  | openServed hk => simp [hk.protocol] at hp
  | openAnswered hk => simp [hk.protocol] at hp
  | closeQueued hk => simp [hk.protocol] at hp
  | closeServed hk => simp [hk.protocol] at hp
  | closeAnswered hk => simp [hk.protocol] at hp
  | released hk => simp [hk.protocol] at hp

theorem Stage.of_opening {v : View} (h : Stage A c v) (hp : v.connection.protocol = .opening)
    (hbox : v.fiberBox ≠ some 0) :
    Young v.connection .opening ∧ v = ⟨v.connection, [], none, some 1, true, true⟩ := by
  cases h with
  | openAnswered hk => exact ⟨hk, rfl⟩
  | absent => simp [noConnection] at hp
  | running h => exact absurd hp h.held.opening
  | handshake hk => simp [hk.protocol] at hp
  | openQueued caps hk => exact absurd rfl hbox
  | openServed hk => exact absurd rfl hbox
  | closeQueued hk => simp [hk.protocol] at hp
  | closeServed hk => simp [hk.protocol] at hp
  | closeAnswered hk => simp [hk.protocol] at hp
  | released hk => simp [hk.protocol] at hp

theorem Stage.of_closing {v : View} (h : Stage A c v) (hp : v.connection.context = .closing)
    (hbox : v.fiberBox ≠ some 0) : Abandoned v.connection .closing ∧
      ∃ entry, v = ⟨v.connection, [], none, some 1, true, entry⟩ := by
  cases h with
  | closeAnswered hk => exact ⟨hk, _, rfl⟩
  | absent => simp [noConnection] at hp
  | running h => simp [h.held.context] at hp
  | handshake hk => simp [hk.context] at hp
  | openQueued caps hk => simp [hk.context] at hp
  | openServed hk => simp [hk.context] at hp
  | openAnswered hk => simp [hk.context] at hp
  | closeQueued hk => exact absurd rfl hbox
  | closeServed hk => exact absurd rfl hbox
  | released hk => simp [hk.context] at hp

theorem Stage.served {v : View} (h : Stage A c v)
    (hp : (v.connection.protocol ≠ .handshake ∧ v.connection.protocol ≠ .opening ∧
      ProtocolFiber.live v.connection.protocol = 1) ∨ WriteFiber.live v.connection.write = 1) :
    Served A c v := by
  have hyoung : ∀ {k : Connection}
      {p : ProtocolFiber}, Young k p → (p = .handshake ∨ p = .opening) →
      ¬ ((k.protocol ≠ .handshake ∧ k.protocol ≠ .opening ∧
        ProtocolFiber.live k.protocol = 1) ∨ WriteFiber.live k.write = 1) := by
    rintro k p hk (rfl | rfl) <;> simp [hk.protocol, hk.write, WriteFiber.live]
  have hgone : ∀ {k : Connection} {p : ContextState}, Abandoned k p →
      ¬ ((k.protocol ≠ .handshake ∧ k.protocol ≠ .opening ∧
        ProtocolFiber.live k.protocol = 1) ∨ WriteFiber.live k.write = 1) := by
    intro k p hk
    rcases hk.write with hw | hw
    · simp [hk.protocol, hw, WriteFiber.live, ProtocolFiber.live]
    · simp [hk.protocol, hw, WriteFiber.live, ProtocolFiber.live]
  cases h with
  | running h => exact h
  | absent => simp [noConnection, WriteFiber.live, ProtocolFiber.live] at hp
  | handshake hk => exact absurd hp (hyoung hk (Or.inl rfl))
  | openQueued caps hk => exact absurd hp (hyoung hk (Or.inr rfl))
  | openServed hk => exact absurd hp (hyoung hk (Or.inr rfl))
  | openAnswered hk => exact absurd hp (hyoung hk (Or.inr rfl))
  | closeQueued hk => exact absurd hp (hgone hk)
  | closeServed hk => exact absurd hp (hgone hk)
  | closeAnswered hk => exact absurd hp (hgone hk)
  | released hk => exact absurd hp (hgone hk)

/-! ### Steps of a connection -/

theorem Inv.local (h : Inv A s) (hledger : Ledger A t)
    (hother : ∀ d, d ≠ c → view A t d = view A s d)
    (hself : Stage A c (view A t c)) : Inv A t := by
  refine ⟨hledger, ?_⟩
  intro d
  by_cases hd : d = c
  · rw [hd]
    exact hself
  · rw [hother d hd]
    exact h.stage d

/-- A step that changes connections and mailboxes only. -/
theorem Ledger.congr (h : Ledger A s) (hendpoint : t.endpoint = s.endpoint)
    (hinbox : t.inbox = s.inbox) (hreplying : t.replying = s.replying)
    (hqueued : t.queued = s.queued) (hanswered : t.answered = s.answered) : Ledger A t where
  endpoint := hendpoint ▸ h.endpoint
  running := hendpoint ▸ h.running
  known := hinbox ▸ h.known
  replies := hreplying ▸ h.replies
  counted := by
    rw [hinbox, hreplying, hqueued, hanswered]
    exact h.counted

theorem Ledger.sendToEndpoint (h : Ledger A s) {m : Message} (hm : Owns A c m.returnAddress) :
    Ledger A (sendToEndpoint s m) where
  endpoint := h.endpoint
  running := h.running
  known := by
    intro n hn
    rcases List.mem_append.mp hn with hn | hn
    · exact h.known n hn
    · obtain rfl := List.mem_singleton.mp hn
      exact ⟨c, hm⟩
  replies := h.replies
  counted := by
    intro a
    have hcount := h.counted a
    by_cases ha : a = m.returnAddress
    · subst ha
      simp only [DataEndpointClients.sendToEndpoint, Function.update_self, List.countP_append,
        List.countP_singleton, decide_true, if_true]
      omega
    · have ha' : ¬ m.returnAddress = a := fun heq => ha heq.symm
      simp only [DataEndpointClients.sendToEndpoint, Function.update_of_ne ha, List.countP_append,
        List.countP_singleton, ha', decide_false, Bool.false_eq_true, if_false]
      omega

theorem inv_connect (h : Inv A s) (hp : (s.connection c).protocol = .absent) :
    Inv A (setConnection (mailboxOpen A s c) c fiberAdd) := by
  refine h.local (c := c) ?_ ?_ ?_
  · exact h.ledger.congr rfl rfl rfl rfl rfl
  · intro d hd
    rw [view_setConnection_other _ _ hd, view_mailboxOpen_other _ hd]
  · rw [view_setConnection_self, view_mailboxOpen_self, (h.stage c).of_absent hp]
    exact Stage.handshake ⟨rfl, rfl, rfl, rfl, rfl⟩

theorem inv_requestContext (h : Inv A s) (hp : (s.connection c).protocol = .handshake)
    (caps : Bitcap) :
    Inv A (sendToEndpoint (setConnection s c { s.connection c with protocol := .opening })
      (openMessage A c caps)) := by
  obtain ⟨hk, hv⟩ := (h.stage c).of_handshake hp
  have hledger : Ledger A (setConnection s c { s.connection c with protocol := .opening }) :=
    h.ledger.congr rfl rfl rfl rfl rfl
  have hm : Owns A c (openMessage A c caps).returnAddress := owns_fiber c
  apply h.local (c := c) (hledger.sendToEndpoint hm)
  · intro d hd
    rw [view_sendToEndpoint_other _ hm hd, view_setConnection_other _ _ hd]
  · rw [view_sendToEndpoint_self _ hm, view_setConnection_self, hv]
    exact Stage.openQueued caps ⟨rfl, hk.write, hk.context, hk.opened, hk.count⟩

theorem inv_contextArrives (h : Inv A s) (hp : (s.connection c).protocol = .opening)
    (hbox : (view A s c).fiberBox ≠ some 0) :
    Inv A (setConnection (messageReceive s (A.fiberAddr c)) c { s.connection c with
      protocol := .reading
      write := .reading
      referenceCount := (s.connection c).referenceCount + 1
      dataserviceContextOpened := true }) := by
  obtain ⟨hk, hv⟩ := (h.stage c).of_opening hp hbox
  refine h.local (c := c) ?_ ?_ ?_
  · exact h.ledger.congr rfl rfl rfl rfl rfl
  · intro d hd
    rw [view_setConnection_other _ _ hd, view_messageReceive_fiber_other _ hd]
  · rw [view_setConnection_self, view_messageReceive_fiber_self, hv]
    have hcount : (s.connection c).referenceCount = 1 := hk.count
    apply Stage.running
    refine ⟨⟨hk.context, rfl, ?_, ?_, ?_, ?_, ?_⟩, ?_, ?_, rfl, rfl, rfl⟩
    · simp [ProtocolFiber.live, WriteFiber.live, hcount]
    · simp
    · simp
    · simp
    · simp
    · simp
    · simp

theorem inv_handshakeFails (h : Inv A s) (hp : (s.connection c).protocol = .handshake) :
    Inv A (contextRelease A (setConnection s c { s.connection c with protocol := .gone }) c) := by
  obtain ⟨hk, hv⟩ := (h.stage c).of_handshake hp
  have hcount : (s.connection c).referenceCount = 1 := hk.count
  have hopened : (s.connection c).dataserviceContextOpened = false := hk.opened
  have hrelease : contextRelease A
      (setConnection s c { s.connection c with protocol := .gone }) c =
      mailboxClose A (setConnection s c { s.connection c with
        protocol := .gone, referenceCount := 0, context := .released }) c := by
    simp [contextRelease, setConnection, hcount, hopened]
  rw [hrelease]
  refine h.local (c := c) ?_ ?_ ?_
  · exact h.ledger.congr rfl rfl rfl rfl rfl
  · intro d hd
    rw [view_mailboxClose_other _ hd, view_setConnection_other _ _ hd]
  · rw [view_mailboxClose_self, view_setConnection_self, hv]
    exact Stage.released ⟨rfl, rfl, Or.inl hk.write⟩

theorem inv_closeArrives (h : Inv A s) (hp : (s.connection c).context = .closing)
    (hbox : (view A s c).fiberBox ≠ some 0) :
    Inv A (mailboxClose A (setConnection s c { s.connection c with
      context := .released, dataserviceContextOpened := false }) c) := by
  obtain ⟨hk, entry, hv⟩ := (h.stage c).of_closing hp hbox
  refine h.local (c := c) ?_ ?_ ?_
  · exact h.ledger.congr rfl rfl rfl rfl rfl
  · intro d hd
    rw [view_mailboxClose_other _ hd, view_setConnection_other _ _ hd]
  · rw [view_mailboxClose_self, view_setConnection_self, hv]
    exact Stage.released ⟨rfl, hk.protocol, hk.write⟩

/-! ### Connections that are served -/

theorem Held.setProtocol (h : Held k) {p : ProtocolFiber}
    (hlive : ProtocolFiber.live p = ProtocolFiber.live k.protocol) (habsent : p ≠ .absent)
    (hhandshake : p ≠ .handshake) (hopening : p ≠ .opening) : Held { k with protocol := p } where
  context := h.context
  opened := h.opened
  count := by
    rw [h.count, hlive]
  live := h.live
  absent := habsent
  handshake := hhandshake
  opening := hopening

theorem Held.setWrite (h : Held k) {w : WriteFiber}
    (hlive : WriteFiber.live w = WriteFiber.live k.write) (b : Bool) :
    Held { k with write := w, shutdown := b } where
  context := h.context
  opened := h.opened
  count := by
    rw [h.count, hlive]
  live := h.live
  absent := h.absent
  handshake := h.handshake
  opening := h.opening

theorem Held.reqShutdown (h : Held k) : Held { k with reqShutdown := true } :=
  ⟨h.context, h.opened, h.count, h.live, h.absent, h.handshake, h.opening⟩

theorem inv_messageSend_return (h : Inv A s) (c : ℕ) (m : WriteMessage) :
    Inv A (messageSend s (A.returnAddr c) m) := by
  refine ⟨h.ledger.congr rfl rfl rfl rfl rfl, ?_⟩
  intro d
  rw [view_messageSend_return]
  exact h.stage d

theorem inv_messageReceive_return (h : Inv A s) (c : ℕ) :
    Inv A (messageReceive s (A.returnAddr c)) := by
  refine ⟨h.ledger.congr rfl rfl rfl rfl rfl, ?_⟩
  intro d
  rw [view_messageReceive_return]
  exact h.stage d

/-- The context of a connection that is served changes, and stays held. -/
theorem inv_setConnection (h : Inv A s) (hserved : Served A c (view A s c)) (hk : Held k)
    (hanswered : k.protocol = .answered ↔ (s.connection c).protocol = .answered) :
    Inv A (setConnection s c k) := by
  refine h.local (c := c) ?_ ?_ ?_
  · exact h.ledger.congr rfl rfl rfl rfl rfl
  · intro d hd
    rw [view_setConnection_other _ _ hd]
  · rw [view_setConnection_self]
    apply Stage.running
    refine ⟨hk, hserved.queue, hserved.reply, ?_, hserved.writeOpen, hserved.entry⟩
    rw [hserved.fiberBox]
    exact congrArg some (if_congr hanswered.symm rfl rfl)

theorem served_of_protocol (h : Inv A s) {p : ProtocolFiber} (hp : (s.connection c).protocol = p)
    (hhandshake : p ≠ .handshake) (hopening : p ≠ .opening) (hlive : ProtocolFiber.live p = 1) :
    Served A c (view A s c) := by
  apply (h.stage c).served
  left
  rw [view, hp]
  exact ⟨hhandshake, hopening, hlive⟩

theorem served_of_write (h : Inv A s) (hw : WriteFiber.live (s.connection c).write = 1) :
    Served A c (view A s c) :=
  (h.stage c).served (Or.inr hw)

theorem inv_setProtocol (h : Inv A s) {p q : ProtocolFiber} (hp : (s.connection c).protocol = p)
    (hlive : ProtocolFiber.live p = 1) (hlive' : ProtocolFiber.live q = 1)
    (hyoung : p ≠ .handshake ∧ p ≠ .opening) (hyoung' : q ≠ .handshake ∧ q ≠ .opening)
    (hanswered : q = .answered ↔ p = .answered) :
    Inv A (setConnection s c { s.connection c with protocol := q }) := by
  have hserved := served_of_protocol h hp hyoung.1 hyoung.2 hlive
  have habsent : q ≠ .absent := by
    rintro rfl
    simp [ProtocolFiber.live] at hlive'
  apply inv_setConnection h hserved
  · apply Held.setProtocol hserved.held _ habsent hyoung'.1 hyoung'.2
    rw [view, hp, hlive, hlive']
  · rw [hp]
    exact hanswered

theorem inv_leave (h : Inv A s) (hp : (s.connection c).protocol = .reading) :
    Inv A (shutdownWriteEndpoint A s c) := by
  apply inv_messageSend_return
  exact inv_setProtocol h hp rfl rfl (by decide) (by decide) (by decide)

theorem inv_closeRequest (h : Inv A s) (hp : (s.connection c).protocol = .reading)
    (m : WriteMessage) :
    Inv A (messageSend (setConnection s c { s.connection c with reqShutdown := true })
      (A.returnAddr c) m) := by
  have hserved := served_of_protocol h hp (by decide) (by decide) rfl
  apply inv_messageSend_return
  exact inv_setConnection h hserved (Held.reqShutdown hserved.held) Iff.rfl

theorem inv_dataRequest (h : Inv A s) (hp : (s.connection c).protocol = .reading)
    {m : Message} (hm : IsData A c m) : Inv A (sendToEndpoint s m) := by
  have hserved := served_of_protocol h hp (by decide) (by decide) rfl
  have howns : Owns A c m.returnAddress := by
    obtain ⟨_, _, _, rfl⟩ := hm
    exact owns_return c
  refine h.local (c := c) (h.ledger.sendToEndpoint howns) ?_ ?_
  · intro d hd
    rw [view_sendToEndpoint_other _ howns hd]
  · rw [view_sendToEndpoint_self _ howns]
    apply Stage.running
    refine ⟨hserved.held, ?_, hserved.reply, hserved.fiberBox, hserved.writeOpen, hserved.entry⟩
    intro n hn
    rcases List.mem_append.mp hn with hn | hn
    · exact hserved.queue n hn
    · obtain rfl := List.mem_singleton.mp hn
      exact hm

theorem inv_notificationReplies (h : Inv A s) (hp : (s.connection c).protocol = .asking)
    (m : WriteMessage) :
    Inv A (messageSend (setConnection s c { s.connection c with protocol := .answered })
      (A.fiberAddr c) m) := by
  have hserved := served_of_protocol h hp (by decide) (by decide) rfl
  have hbox := hserved.fiberBox
  simp only [view, hp, reduceCtorEq, if_false] at hbox
  refine h.local (c := c) ?_ ?_ ?_
  · exact h.ledger.congr rfl rfl rfl rfl rfl
  · intro d hd
    rw [view_messageSend_fiber_other _ _ hd, view_setConnection_other _ _ hd]
  · rw [view_messageSend_fiber_self, view_setConnection_self]
    apply Stage.running
    refine ⟨?_, hserved.queue, hserved.reply, ?_, hserved.writeOpen, hserved.entry⟩
    · apply Held.setProtocol hserved.held _ (by decide) (by decide) (by decide)
      rw [view, hp]
      rfl
    · simp only [view, hbox]
      rfl

theorem inv_resume (h : Inv A s) (hp : (s.connection c).protocol = .answered) :
    Inv A (setConnection (messageReceive s (A.fiberAddr c)) c
      { s.connection c with protocol := .reading }) := by
  have hserved := served_of_protocol h hp (by decide) (by decide) rfl
  have hbox := hserved.fiberBox
  simp only [view, hp, if_true] at hbox
  refine h.local (c := c) ?_ ?_ ?_
  · exact h.ledger.congr rfl rfl rfl rfl rfl
  · intro d hd
    rw [view_setConnection_other _ _ hd, view_messageReceive_fiber_other _ hd]
  · rw [view_setConnection_self, view_messageReceive_fiber_self]
    apply Stage.running
    refine ⟨?_, hserved.queue, hserved.reply, ?_, hserved.writeOpen, hserved.entry⟩
    · apply Held.setProtocol hserved.held _ (by decide) (by decide) (by decide)
      rw [view, hp]
      rfl
    · simp only [view, hbox]
      rfl

theorem inv_writeEndpointDispatch (h : Inv A s) (hw : (s.connection c).write = .reading)
    (fails : Bool) (m : WriteMessage) : Inv A (writeEndpointDispatch A s c fails m) := by
  have hserved := served_of_write h (by rw [hw]; rfl)
  have hreceived : Inv A (messageReceive s (A.returnAddr c)) := inv_messageReceive_return h c
  have hserved' : Served A c (view A (messageReceive s (A.returnAddr c)) c) := by
    rw [view_messageReceive_return]
    exact hserved
  have hleaves : ∀ b, Inv A (setConnection (messageReceive s (A.returnAddr c)) c
      { s.connection c with write := .leaving, shutdown := b }) := by
    intro b
    have hheld : Held { s.connection c with write := .leaving, shutdown := b } := by
      apply Held.setWrite hserved.held
      rw [view, hw]
      rfl
    exact inv_setConnection hreceived hserved' hheld Iff.rfl
  rw [writeEndpointDispatch]
  cases m.messageType with
  | shutdown => exact hleaves true
  | dataserviceContextCreate => exact hleaves _
  | errorMessage => exact hleaves _
  | _ =>
    cases fails with
    | true => exact hleaves _
    | false => exact hreceived

/-! ### Release -/

structure Losing (k : Connection) : Prop where
  context : k.context = .held
  opened : k.dataserviceContextOpened = true
  count : k.referenceCount = ProtocolFiber.live k.protocol + WriteFiber.live k.write + 1
  absent : k.protocol ≠ .absent
  handshake : k.protocol ≠ .handshake
  opening : k.protocol ≠ .opening

theorem Losing.held (h : Losing k) (hmore : 1 < k.referenceCount) :
    Held { k with referenceCount := k.referenceCount - 1 } where
  context := h.context
  opened := h.opened
  count := by
    have hcount := h.count
    simp only
    omega
  live := by
    simp only
    omega
  absent := h.absent
  handshake := h.handshake
  opening := h.opening

theorem Losing.abandoned (h : Losing k) (hlast : ¬ 1 < k.referenceCount) :
    Abandoned { k with referenceCount := 0, context := .closing } .closing := by
  have hcount := h.count
  have hprotocol : ProtocolFiber.live k.protocol = 0 := by omega
  have hwrite : WriteFiber.live k.write = 0 := by omega
  refine ⟨rfl, ?_, ?_⟩
  · have habsent := h.absent
    revert hprotocol habsent
    cases k.protocol <;> simp [ProtocolFiber.live]
  · revert hwrite
    cases k.write <;> simp [WriteFiber.live]

theorem inv_contextRelease (h : Inv A s) (hserved : Served A c (view A s c)) (hk : Losing k)
    (hanswered : k.protocol = .answered ↔ (s.connection c).protocol = .answered) :
    Inv A (contextRelease A (setConnection s c k) c) := by
  have hself : (setConnection s c k).connection c = k := Function.update_self ..
  have hbox : (view A s c).fiberBox = some (if k.protocol = .answered then 1 else 0) := by
    rw [hserved.fiberBox]
    exact congrArg some (if_congr hanswered.symm rfl rfl)
  rw [contextRelease, hself]
  by_cases hmore : 1 < k.referenceCount
  · rw [if_pos hmore]
    refine h.local (c := c) ?_ ?_ ?_
    · exact h.ledger.congr rfl rfl rfl rfl rfl
    · intro d hd
      rw [view_setConnection_other _ _ hd, view_setConnection_other _ _ hd]
    · rw [view_setConnection_self, view_setConnection_self]
      apply Stage.running
      exact ⟨hk.held hmore, hserved.queue, hserved.reply, hbox, hserved.writeOpen, hserved.entry⟩
  · rw [if_neg hmore, if_pos hk.opened]
    have hgone := hk.abandoned hmore
    have hprotocol : k.protocol = .gone := hgone.protocol
    simp only [hprotocol, reduceCtorEq, if_false] at hbox
    have hm : Owns A c (closeMessage A c).returnAddress := owns_fiber c
    refine h.local (c := c) ?_ ?_ ?_
    · apply Ledger.sendToEndpoint _ hm
      exact h.ledger.congr rfl rfl rfl rfl rfl
    · intro d hd
      rw [view_sendToEndpoint_other _ hm hd, view_setConnection_other _ _ hd,
        view_setConnection_other _ _ hd]
    · rw [view_sendToEndpoint_self _ hm, view_setConnection_self, view_setConnection_self]
      simp only [hbox, hserved.writeOpen, hserved.entry]
      exact Stage.closeQueued hgone hserved.queue hserved.reply

theorem inv_releaseProtocol (h : Inv A s) (hp : (s.connection c).protocol = .leaving) :
    Inv A (contextRelease A (setConnection s c { s.connection c with protocol := .gone }) c) := by
  have hserved := served_of_protocol h hp (by decide) (by decide) rfl
  have hcount := hserved.held.count
  simp only [view, hp, ProtocolFiber.live] at hcount
  apply inv_contextRelease h hserved
  · refine ⟨hserved.held.context, hserved.held.opened, ?_, by simp, by simp, by simp⟩
    simp only [ProtocolFiber.live]
    omega
  · simp [hp]

theorem inv_releaseWrite (h : Inv A s) (hw : (s.connection c).write = .leaving) :
    Inv A (contextRelease A (setConnection s c { s.connection c with write := .gone }) c) := by
  have hserved := served_of_write h (by rw [hw]; rfl)
  have hheld := hserved.held
  have hcount := hheld.count
  simp only [view, hw, WriteFiber.live] at hcount
  apply inv_contextRelease h hserved
  · refine ⟨hheld.context, hheld.opened, ?_, hheld.absent, hheld.handshake, hheld.opening⟩
    simp only [WriteFiber.live]
    omega
  · exact Iff.rfl

/-! ### Steps of the endpoint -/

theorem replyTo_own (ha : Owns A c a) (m : WriteMessage) : replyTo A c (some (a, m)) = some a := by
  simp [replyTo, ha]

theorem replyTo_other (ha : Owns A c a) (hd : d ≠ c) (m : WriteMessage) :
    replyTo A d (some (a, m)) = none := by
  have hnot : ¬ Owns A d a := fun h => hd (owns_unique h ha)
  simp [replyTo, hnot]

/-- The head of the inbox was served and its reply is on its way. -/
theorem inv_taken (h : Inv A s) {n : Message} {rest : List Message} {e : Endpoint}
    (hinbox : s.inbox = n :: rest) (hreplying : s.replying = none) (hn : Owns A c n.returnAddress)
    (hendpoint : ContextBijection.Inv e) (hrunning : e.running = true)
    (hother : ∀ d, d ≠ c → e.mailboxContextTree (A.returnAddr d) =
      s.endpoint.mailboxContextTree (A.returnAddr d))
    (hself : Stage A c { view A s c with
      queue := queueOf A c rest
      reply := some n.returnAddress
      entry := (e.mailboxContextTree (A.returnAddr c)).isSome }) :
    Inv A { s with inbox := rest, endpoint := e, replying := some (n.returnAddress, m) } := by
  refine h.local (c := c) ⟨hendpoint, hrunning, ?_, ?_, ?_⟩ ?_ ?_
  · intro n' hn'
    exact h.ledger.known n' (by rw [hinbox]; exact List.mem_cons_of_mem n hn')
  · intro a ha
    obtain rfl : n.returnAddress = a := by simpa using ha
    exact ⟨c, hn⟩
  · intro a
    have hcount := h.ledger.counted a
    rw [hinbox, hreplying, List.countP_cons] at hcount
    simp only [replyCount, Option.map_some, Option.map_none, Option.some.injEq] at hcount ⊢
    by_cases ha : n.returnAddress = a
    · simp only [ha, decide_true, if_true, reduceCtorEq, if_false] at hcount ⊢
      omega
    · simp only [ha, decide_false, if_false, reduceCtorEq, Bool.false_eq_true] at hcount ⊢
      omega
  · intro d hd
    simp only [view, hother d hd, replyTo_other hn hd, hinbox, queueOf_other hn hd, hreplying]
    rfl
  · simp only [view, replyTo_own hn] at hself ⊢
    exact hself

theorem entry_of_view (h : (view A s c).entry = true) :
    ∃ e, s.endpoint.mailboxContextTree (A.returnAddr c) = some e :=
  Option.isSome_iff_exists.mp h

theorem IsData.not_fiber {n : Message} (h : IsData A c n) :
    some n.returnAddress ≠ some (A.fiberAddr c) := by
  obtain ⟨_, _, _, rfl⟩ := h
  intro heq
  exact A.apart c c (Option.some.inj heq)

/-- The head of the inbox belongs to a connection, and its queue tells what it is. -/
theorem take_cases (h : Inv A s) {n : Message} {rest : List Message} (hinbox : s.inbox = n :: rest)
    (hreplying : s.replying = none) : ∃ c, Owns A c n.returnAddress ∧
      ((∃ caps, n = openMessage A c caps ∧ Young (s.connection c) .opening ∧
          view A s c = ⟨s.connection c, [n], none, some 0, true, false⟩ ∧ queueOf A c rest = []) ∨
        (IsData A c n ∧ (view A s c).entry = true ∧ Stage A c { view A s c with
          queue := queueOf A c rest, reply := some n.returnAddress }) ∨
        (n = closeMessage A c ∧ Abandoned (s.connection c) .closing ∧
          view A s c = ⟨s.connection c, [n], none, some 0, true, true⟩ ∧
            queueOf A c rest = [])) := by
  obtain ⟨c, hc⟩ := h.ledger.known n (by rw [hinbox]; exact List.mem_cons_self)
  have hqueue : (view A s c).queue = n :: queueOf A c rest := by
    rw [view, hinbox, queueOf_own hc]
  have hconnection : (view A s c).connection = s.connection c := rfl
  have hnone : (view A s c).reply = none := by
    rw [view, hreplying]
    rfl
  have hstage := h.stage c
  refine ⟨c, hc, ?_⟩
  generalize view A s c = v at *
  cases hstage with
  | openQueued caps hk =>
    left
    obtain ⟨rfl, hrest⟩ := List.cons.inj hqueue
    subst hconnection
    exact ⟨caps, rfl, hk, rfl, hrest.symm⟩
  | running hserved =>
    right
    left
    have hall := hserved.queue
    rw [hqueue] at hall
    have hn : IsData A c n := hall n List.mem_cons_self
    refine ⟨hn, hserved.entry, ?_⟩
    apply Stage.running
    refine ⟨hserved.held, ?_, ?_, hserved.fiberBox, hserved.writeOpen, hserved.entry⟩
    · intro n' hn'
      exact hall n' (List.mem_cons_of_mem n hn')
    · exact hn.not_fiber
  | closeQueued hk hdata hreply =>
    rename_i k queue reply
    cases queue with
    | nil =>
      right
      right
      obtain ⟨rfl, hrest⟩ := List.cons.inj hqueue
      obtain rfl : reply = none := hnone
      subst hconnection
      exact ⟨rfl, hk, rfl, hrest.symm⟩
    | cons n' queue =>
      right
      left
      obtain ⟨rfl, hrest⟩ := List.cons.inj hqueue
      have hn : IsData A c n' := hdata n' List.mem_cons_self
      refine ⟨hn, rfl, ?_⟩
      rw [← hrest]
      apply Stage.closeQueued hk _ hn.not_fiber
      intro n'' hn''
      exact hdata n'' (List.mem_cons_of_mem n' hn'')
  | _ => cases hqueue

theorem take_open (h : Inv A s) {rest : List Message} {caps : Bitcap}
    (hinbox : s.inbox = openMessage A c caps :: rest) (hreplying : s.replying = none)
    (hk : Young (s.connection c) .opening)
    (hv : view A s c = ⟨s.connection c, [openMessage A c caps], none, some 0, true, false⟩)
    (hrest : queueOf A c rest = []) (answer : Bytes)
    (hcreate : (createChild s.endpoint.inst caps false).isSome = true) :
    Inv A (takeMessage s answer (openMessage A c caps :: rest)) := by
  obtain ⟨⟨inst, i⟩, hcreate⟩ := Option.isSome_iff_exists.mp hcreate
  have hfree : s.endpoint.mailboxContextTree (A.returnAddr c) = none := by
    have hentry : (view A s c).entry = false := by rw [hv]
    simpa [view] using hentry
  have hdispatch : decodeAndDispatchReq s.endpoint
      ⟨A.fiberAddr c, .contextOpen (A.returnAddr c) caps, .none, answer⟩ =
      (withContext s.endpoint (A.returnAddr c) inst i, contextReply 0) :=
    reqContextOpen_ok h.ledger.endpoint hfree hcreate
  simp only [takeMessage, openMessage, hdispatch, contextReply] at hinbox ⊢
  apply inv_taken h hinbox hreplying (owns_fiber c)
    (inv_withContext h.ledger.endpoint hfree hcreate) h.ledger.running
  · intro d hd
    have hne : A.returnAddr d ≠ A.returnAddr c := fun heq => hd (A.returnAddr_injective heq)
    simp only [withContext, Function.update_of_ne hne]
  · simp only [withContext, Function.update_self, hrest, hv]
    exact Stage.openServed hk

theorem take_data (h : Inv A s) {n : Message} {rest : List Message} (hinbox : s.inbox = n :: rest)
    (hreplying : s.replying = none) (hn : IsData A c n) (hentry : (view A s c).entry = true)
    (hstage : Stage A c { view A s c with
      queue := queueOf A c rest, reply := some n.returnAddress }) (answer : Bytes) :
    Inv A (takeMessage s answer (n :: rest)) := by
  obtain ⟨e, he⟩ := entry_of_view hentry
  obtain ⟨protocolRequestId, offset, payload, rfl⟩ := hn
  have hinv := reqDataserviceReq_inv h.ledger.endpoint (A.returnAddr c) protocolRequestId offset
    payload answer
  simp only [reqDataserviceReq, he] at hinv
  simp only [takeMessage, decodeAndDispatchReq, reqDataserviceReq, he]
  apply inv_taken h hinbox hreplying (owns_return c) hinv h.ledger.running
  · intro d hd
    rfl
  · exact hstage

theorem take_close (h : Inv A s) {rest : List Message}
    (hinbox : s.inbox = closeMessage A c :: rest) (hreplying : s.replying = none)
    (hk : Abandoned (s.connection c) .closing)
    (hv : view A s c = ⟨s.connection c, [closeMessage A c], none, some 0, true, true⟩)
    (hrest : queueOf A c rest = []) (answer : Bytes) :
    Inv A (takeMessage s answer (closeMessage A c :: rest)) := by
  obtain ⟨hother, hreply, hrun⟩ := reqContextClose_frame s.endpoint 0 (A.returnAddr c)
    h.ledger.endpoint
  have hinv := reqContextClose_inv h.ledger.endpoint 0 (A.returnAddr c)
  generalize hdispatch : reqContextClose s.endpoint 0 (A.returnAddr c) = r at *
  obtain ⟨e, outcome⟩ := r
  simp only at hother hreply hrun hinv
  subst hreply
  simp only [takeMessage, decodeAndDispatchReq, closeMessage, hdispatch, contextReply] at hinbox ⊢
  apply inv_taken h hinbox hreplying (owns_fiber c) hinv
  · rw [hrun]
    exact h.ledger.running
  · intro d hd
    exact hother _ fun heq => hd (A.returnAddr_injective heq)
  · simp only [hrest, hv]
    exact Stage.closeServed hk

theorem inv_takeMessage (h : Inv A s) (hreplying : s.replying = none) {answer : Bytes}
    (haccepts : Accepts s (.take answer)) : Inv A (takeMessage s answer s.inbox) := by
  cases hinbox : s.inbox with
  | nil => exact h
  | cons n rest =>
    obtain ⟨c, hc, hopen | hdata | hclose⟩ := take_cases h hinbox hreplying
    · obtain ⟨caps, rfl, hk, hv, hrest⟩ := hopen
      exact take_open h hinbox hreplying hk hv hrest answer (haccepts _ _ _ _ hinbox rfl)
    · obtain ⟨hn, hentry, hstage⟩ := hdata
      exact take_data h hinbox hreplying hn hentry hstage answer
    · obtain ⟨rfl, hk, hv, hrest⟩ := hclose
      exact take_close h hinbox hreplying hk hv hrest answer

/-- A reply is on its way to a mailbox that is open. -/
theorem reply_open (h : Inv A s) (hreplying : s.replying = some (a, m)) :
    (s.mailbox a).isSome = true := by
  obtain ⟨c, hc⟩ := h.ledger.replies a (by rw [hreplying]; rfl)
  have hreply : (view A s c).reply = some a := by
    rw [view, hreplying, replyTo_own hc]
  have hfiber : (view A s c).fiberBox.isSome = (s.mailbox (A.fiberAddr c)).isSome := by
    simp [view]
  have hwrite : (view A s c).writeOpen = (s.mailbox (A.returnAddr c)).isSome := rfl
  have hstage := h.stage c
  have hboth : (s.mailbox (A.fiberAddr c)).isSome = true ∧
      (s.mailbox (A.returnAddr c)).isSome = true := by
    rw [← hfiber, ← hwrite]
    generalize view A s c = v at *
    cases hstage with
    | running hserved => exact ⟨by rw [hserved.fiberBox]; rfl, hserved.writeOpen⟩
    | absent => cases hreply
    | released hk => cases hreply
    | _ => exact ⟨rfl, rfl⟩
  rcases hc with rfl | rfl
  · exact hboth.2
  · exact hboth.1

theorem Stage.reply_return {v : View} (h : Stage A c v) (hreply : v.reply = some (A.returnAddr c)) :
    Stage A c { v with reply := none } := by
  have hne : some (A.fiberAddr c) ≠ some (A.returnAddr c) :=
    fun heq => A.apart c c (Option.some.inj heq).symm
  cases h with
  | running hserved =>
    apply Stage.running
    exact ⟨hserved.held, hserved.queue, by simp, hserved.fiberBox, hserved.writeOpen, hserved.entry⟩
  | closeQueued hk hqueue _ => exact Stage.closeQueued hk hqueue (by simp)
  | openServed hk => exact absurd hreply hne
  | closeServed hk => exact absurd hreply hne
  | _ => cases hreply

theorem Stage.reply_fiber {v : View} (h : Stage A c v) (hreply : v.reply = some (A.fiberAddr c)) :
    Stage A c { v with reply := none, fiberBox := v.fiberBox.map (· + 1) } := by
  cases h with
  | running hserved => exact absurd hreply hserved.reply
  | closeQueued hk _ hne => exact absurd hreply hne
  | openServed hk => exact Stage.openAnswered hk
  | closeServed hk => exact Stage.closeAnswered hk
  | _ => cases hreply

theorem ledger_replied (h : Ledger A s) (hreplying : s.replying = some (a, m)) :
    Ledger A { s with
      replying := none
      answered := Function.update s.answered a (s.answered a + 1) } where
  endpoint := h.endpoint
  running := h.running
  known := h.known
  replies := by
    intro b hb
    cases hb
  counted := by
    intro b
    have hcount := h.counted b
    rw [hreplying] at hcount
    simp only [replyCount, Option.map_some, Option.map_none, Option.some.injEq, reduceCtorEq,
      if_false] at hcount ⊢
    by_cases hb : b = a
    · subst hb
      simp only [if_true, Function.update_self] at hcount ⊢
      omega
    · have hab : ¬ a = b := fun heq => hb heq.symm
      simp only [hab, if_false, Function.update_of_ne hb] at hcount ⊢
      omega

theorem inv_sendReply (h : Inv A s) : Inv A (sendReply s s.replying) := by
  cases hreplying : s.replying with
  | none => exact h
  | some r =>
    obtain ⟨a, m⟩ := r
    obtain ⟨c, hc⟩ := h.ledger.replies a (by rw [hreplying]; rfl)
    rw [sendReply, if_pos (reply_open h hreplying)]
    have hreply : (view A s c).reply = some a := by
      rw [view, hreplying, replyTo_own hc]
    have hledger := ledger_replied h.ledger hreplying
    have hother : ∀ d, d ≠ c → view A { s with
        replying := none
        answered := Function.update s.answered a (s.answered a + 1) } d = view A s d := by
      intro d hd
      simp only [view, hreplying, replyTo_other hc hd]
      rfl
    refine h.local (c := c) ?_ ?_ ?_
    · exact hledger.congr rfl rfl rfl rfl rfl
    · intro d hd
      rw [← hother d hd]
      rcases hc with rfl | rfl
      · exact view_messageSend_return ..
      · exact view_messageSend_fiber_other _ _ hd
    · rcases hc with rfl | rfl
      · rw [view_messageSend_return]
        exact (h.stage c).reply_return hreply
      · rw [view_messageSend_fiber_self]
        exact (h.stage c).reply_fiber hreply

/-! ### Runs -/

theorem fiberBox_ne_zero (h : (firstMessage s (A.fiberAddr c)).isSome = true) :
    (view A s c).fiberBox ≠ some 0 := by
  obtain ⟨m, hm⟩ := Option.isSome_iff_exists.mp h
  obtain ⟨box, hbox, hhead⟩ := Option.bind_eq_some_iff.mp hm
  cases box with
  | nil => cases hhead
  | cons m' box => simp [view, hbox]

theorem inv_next {x : DataEndpointClients.Action} (h : Inv A s) (henabled : Enabled A s x)
    (haccepts : Accepts s x) :
    Inv A (next A s x) := by
  cases x with
  | connect c => exact inv_connect h henabled
  | handshakeFails c => exact inv_handshakeFails h henabled
  | requestContext c caps => exact inv_requestContext h henabled caps
  | contextArrives c => exact inv_contextArrives h henabled.1 (fiberBox_ne_zero henabled.2)
  | dataRequest c protocolRequestId offset payload =>
    exact inv_dataRequest h henabled.1 ⟨protocolRequestId, offset, payload, rfl⟩
  | respond c d payload =>
    rw [next]
    split
    · exact inv_messageSend_return h d _
    · exact inv_leave h henabled.1
  | closeRequest c payload => exact inv_closeRequest h henabled.1 _
  | ask c => exact inv_setProtocol h henabled.1 rfl rfl (by decide) (by decide) (by decide)
  | notificationReplies c m => exact inv_notificationReplies h henabled m
  | resume c => exact inv_resume h henabled.1
  | leave c => exact inv_leave h henabled
  | releaseProtocol c => exact inv_releaseProtocol h henabled
  | notified c requestId offset => exact inv_messageSend_return h c _
  | write c fails =>
    rw [next]
    split
    · exact h
    · exact inv_writeEndpointDispatch h henabled.1 fails _
  | releaseWrite c => exact inv_releaseWrite h henabled
  | closeArrives c => exact inv_closeArrives h henabled.1 (fiberBox_ne_zero henabled.2)
  | take answer => exact inv_takeMessage h henabled.2.1 haccepts
  | send => exact inv_sendReply h

theorem inv_of_run {apicaps : Bitcap} {datadir : Bytes} (h : Run A (start apicaps datadir) s) :
    Inv A s := by
  induction h with
  | start => exact ⟨ledger_start apicaps datadir, fun _ => Stage.absent⟩
  | tail before henabled haccepts ih => exact inv_next ih henabled haccepts

/-- A connection whose write mailbox is closed has nothing in the inbox and nothing on its way. -/
theorem answered_of_closed (h : Inv A s) (hclosed : s.mailbox (A.returnAddr c) = none) :
    s.answered (A.returnAddr c) = s.queued (A.returnAddr c) := by
  have hwrite : (view A s c).writeOpen = false := by
    rw [view, hclosed]
    rfl
  have hempty : (view A s c).queue = [] ∧ (view A s c).reply = none := by
    have hstage := h.stage c
    generalize view A s c = v at *
    cases hstage with
    | running hserved =>
      rw [hserved.writeOpen] at hwrite
      cases hwrite
    | absent => exact ⟨rfl, rfl⟩
    | released hk => exact ⟨rfl, rfl⟩
    | _ => cases hwrite
  have hcount := h.ledger.counted (A.returnAddr c)
  have hqueue : s.inbox.countP (fun m => m.returnAddress = A.returnAddr c) = 0 := by
    rw [List.countP_eq_zero]
    intro n hn hreturn
    have hmem : n ∈ (view A s c).queue := by
      apply List.mem_filter.mpr
      exact ⟨hn, decide_eq_true (Or.inl (of_decide_eq_true hreturn))⟩
    rw [hempty.1] at hmem
    cases hmem
  have hreply : replyCount s.replying (A.returnAddr c) = 0 := by
    rw [replyCount, if_neg]
    intro heq
    obtain ⟨⟨a, m⟩, hreplying, rfl⟩ := Option.map_eq_some_iff.mp heq
    have hsome : (view A s c).reply = some (A.returnAddr c) := by
      rw [view, hreplying]
      exact replyTo_own (owns_return c) m
    rw [hempty.2] at hsome
    cases hsome
  omega

/-- In every run: the endpoint does not leave its loop, the mailbox to which it is about to reply is
open, and a write mailbox is closed only after everything that was queued for it has been
answered. -/
theorem endpoint_survives_its_clients (A : Mailboxes) (apicaps : Bitcap) (datadir : Bytes)
    {s : System} (h : Run A (start apicaps datadir) s) :
    s.endpoint.running = true ∧
    (∀ a m, s.replying = some (a, m) → (s.mailbox a).isSome = true) ∧
    ∀ c, s.mailbox (A.returnAddr c) = none →
      s.answered (A.returnAddr c) = s.queued (A.returnAddr c) := by
  have hinv := inv_of_run h
  refine ⟨hinv.ledger.running, ?_, ?_⟩
  · intro a m hreplying
    exact reply_open hinv hreplying
  · intro c hclosed
    exact answered_of_closed hinv hclosed

def numberedMailboxes : Mailboxes where
  returnAddr c := 2 * c + 1
  fiberAddr c := 2 * c + 2
  returnAddr_injective := by
    intro c d h
    have hsum : 2 * c + 1 = 2 * d + 1 := h
    omega
  fiberAddr_injective := by
    intro c d h
    have hsum : 2 * c + 2 = 2 * d + 2 := h
    omega
  apart := by
    intro c d h
    have hsum : 2 * c + 1 = 2 * d + 2 := h
    omega

/-- One request for the latest block id; the client goes before it is answered. -/
def hastyVisit : List DataEndpointClients.Action :=
  [.connect 0, .requestContext 0 (BitVec.allOnes 32), .take [], .send, .contextArrives 0,
    .dataRequest 0 2 7 ⟨DataserviceClient.encodeRequestLatestBlockIdGet 0, by decide⟩, .leave 0,
    .releaseProtocol 0, .write 0 false, .releaseWrite 0, .take [1], .send, .take [], .send,
    .closeArrives 0]

theorem hasty_visit_is_answered : ∃ s, Run numberedMailboxes (start (BitVec.allOnes 32) []) s ∧
    s.mailbox (numberedMailboxes.returnAddr 0) = none ∧
    s.queued (numberedMailboxes.returnAddr 0) = 1 ∧
    s.answered (numberedMailboxes.returnAddr 0) = s.queued (numberedMailboxes.returnAddr 0) := by
  have hplay : ((play numberedMailboxes (start (BitVec.allOnes 32) []) hastyVisit).map fun s =>
      ((s.mailbox (numberedMailboxes.returnAddr 0)).isSome,
        s.queued (numberedMailboxes.returnAddr 0))) = some (false, 1) := by
    decide +kernel
  obtain ⟨s, hs, hfacts⟩ := Option.map_eq_some_iff.mp hplay
  obtain ⟨hclosed, hqueued⟩ := Prod.mk.inj hfacts
  have hrun := run_of_play Run.start hs
  have hnone : s.mailbox (numberedMailboxes.returnAddr 0) = none := by simpa using hclosed
  obtain ⟨-, -, hanswered⟩ := endpoint_survives_its_clients numberedMailboxes _ _ hrun
  exact ⟨s, hrun, hnone, hqueued, hanswered 0 hnone⟩

end EndpointSurvival
