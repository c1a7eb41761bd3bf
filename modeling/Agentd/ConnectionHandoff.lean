import Agentd.DescriptorTables
import Agentd.OrderedChannels
import Agentd.TransitionRuns

/-! # Accepted connections on their way to the protocol service

The fibers of the listen service accept connections and send them to its accept endpoint, which
writes their descriptors to the protocol service; there each connection gets a fiber of its own. Who
has a descriptor either hands it on or closes it. -/
namespace ConnectionHandoff

open DescriptorTables
open OrderedChannels
open TransitionRuns

/-- Connections are numbered as they are accepted. -/
abbrev Connection := ℕ

structure Listener where
  table : Table Connection
  /-- The quiesce flags of the listen fibers that run. -/
  fibers : ℕ → Option Bool
  /-- That of the accept endpoint, while it runs. -/
  endpoint : Option Bool
  mailbox : List ℤ
  /-- The descriptor in the message that the endpoint has received. -/
  forwarding : Option ℤ

structure ProtocolService where
  table : Table Connection
  accepting : Bool
  quiesce : Bool
  /-- The protocol fibers that run, by their descriptors. -/
  fibers : List ℤ

structure System where
  accepted : ℕ
  listener : Listener
  /-- Written by the one endpoint and not yet read by the other. -/
  channel : List Connection
  protocol : ProtocolService
  /-- The connections that got a fiber. -/
  started : List Connection

inductive AcceptOutcome where
  | fails
  /-- The new descriptor, whether payload and message are created, and whether the message is
  sent. -/
  | accepts (desc : ℤ) (payload message sent : Bool)

inductive FiberAdd where
  | added
  /-- Before or after the socket belongs to the context of the fiber. -/
  | fails (ownsSocket : Bool)

inductive ReadOutcome where
  | fails
  | reads (desc : ℤ) (add : FiberAdd)

inductive Event where
  | accept (fiber : ℕ) (o : AcceptOutcome)
  | quiesceListen (fiber : ℕ)
  | receive (received : Bool)
  | forward (written released : Bool)
  | quiesceEndpoint
  | listenerExits
  | read (o : ReadOutcome)
  | quiesceProtocol
  | fiberExits (desc : ℤ)
  | protocolExits

/-! ### The listen service -/

def noFiles (limit : ℤ) : Table Connection := ⟨fun _ => none, limit, fun _ _ h => nomatch h⟩

def Listener.close (l : Listener) (desc : ℤ) : Listener := { l with table := l.table.close desc }

def Listener.releasePayload (l : Listener) (desc : ℤ) : Listener :=
  if 0 ≤ desc then l.close desc else l

def Listener.fiberExits (l : Listener) (i : ℕ) : Listener :=
  { l with fibers := Function.update l.fibers i none }

def Listener.endpointExits (l : Listener) : Listener :=
  { l with
    table := l.mailbox.foldl Table.close l.table
    endpoint := none
    mailbox := [] }

/-- `listenservice_listen_fiber_entry` behind an accept. A message that cannot be created leaves the
payload to be released and the descriptor to be closed as well. -/
def listenFiberEntry (l : Listener) (i : ℕ) (quiesce : Bool) (desc : ℤ)
    (payload message sent : Bool) : Listener :=
  if quiesce then (l.close desc).fiberExits i
  else if payload = false then (l.close desc).fiberExits i
  else if message = false then ((l.releasePayload desc).close desc).fiberExits i
  else if sent = false ∨ l.endpoint = none then (l.releasePayload desc).fiberExits i
  else { l with mailbox := l.mailbox ++ [desc] }

/-- `listenservice_accept_endpoint_fiber_entry` behind a message. The descriptor in it is closed
when the message is released, written or not. -/
def acceptEndpointFiberEntry (l : Listener) (quiesce : Bool) (desc : ℤ) (written released : Bool) :
    Listener :=
  let l := { l.releasePayload desc with forwarding := none }
  if written = false ∨ released = false ∨ quiesce then l.endpointExits else l

/-! ### The protocol service -/

def ProtocolService.close (p : ProtocolService) (desc : ℤ) : ProtocolService :=
  { p with table := p.table.close desc }

def protocolFiberAdd (p : ProtocolService) (desc : ℤ) : FiberAdd → ProtocolService × Bool
  | .added => ({ p with fibers := p.fibers ++ [desc] }, true)
  | .fails ownsSocket => (if ownsSocket then p.close desc else p, false)

/-- `protocolservice_accept_endpoint_fiber_entry` behind a read. -/
def protocolAcceptEntry (p : ProtocolService) (desc : ℤ) (add : FiberAdd) :
    ProtocolService × Bool :=
  let (p, added) := protocolFiberAdd p desc add
  (if added then p else p.close desc, added)

def System.acceptExits (s : System) : System :=
  { s with
    channel := []
    protocol := { s.protocol with accepting := false } }

/-! ### The two together -/

def step (s : System) : Event → Option System
  | .accept i .fails =>
    if (s.listener.fibers i).isSome then some
      { s with listener := s.listener.fiberExits i } else none
  | .accept i (.accepts desc payload message sent) =>
    match s.listener.fibers i with
    | none => none
    | some quiesce =>
      if h : 0 ≤ desc ∧ desc < s.listener.table.limit then
        if s.listener.table.entry desc = none then
          let l := { s.listener with table := s.listener.table.put desc s.accepted h }
          some { s with
            accepted := s.accepted + 1
            listener := listenFiberEntry l i quiesce desc payload message sent }
        else none
      else none
  | .quiesceListen i =>
    if (s.listener.fibers i).isSome then some { s with
      listener := { s.listener with fibers := Function.update s.listener.fibers i (some true) } }
    else none
  | .receive received =>
    match s.listener.endpoint, s.listener.forwarding, s.listener.mailbox with
    | some _, none, mailbox =>
      if received = false then some { s with listener := s.listener.endpointExits }
      else match mailbox with
        | [] => none
        | desc :: rest => some { s with
            listener := { s.listener with forwarding := some desc, mailbox := rest } }
    | _, _, _ => none
  | .forward written released =>
    match s.listener.endpoint, s.listener.forwarding with
    | some quiesce, some desc =>
      let written := written && s.protocol.accepting
      some { s with
        channel := if written then s.channel ++ s.listener.table.files [desc] else s.channel
        listener := acceptEndpointFiberEntry s.listener quiesce desc written released }
    | _, _ => none
  | .quiesceEndpoint =>
    if s.listener.endpoint.isSome then some { s with
      listener := { s.listener with endpoint := some true } }
    else none
  | .listenerExits => some { s with
      listener := ⟨noFiles s.listener.table.limit, fun _ => none, none, [], none⟩ }
  | .read .fails => if s.protocol.accepting then some s.acceptExits else none
  | .read (.reads desc add) =>
    match s.protocol.accepting, s.channel with
    | true, c :: rest =>
      if h : 0 ≤ desc ∧ desc < s.protocol.table.limit then
        if s.protocol.table.entry desc = none then
          let (p, added) := protocolAcceptEntry
            { s.protocol with table := s.protocol.table.put desc c h } desc add
          let s := { s with
            channel := rest
            protocol := p
            started := if added then s.started ++ [c] else s.started }
          some (if p.quiesce then s.acceptExits else s)
        else none
      else none
    | _, _ => none
  | .quiesceProtocol => some { s with protocol := { s.protocol with quiesce := true } }
  | .fiberExits desc =>
    if desc ∈ s.protocol.fibers then some { s with
      protocol := { s.protocol.close desc with fibers := s.protocol.fibers.erase desc } }
    else none
  | .protocolExits => some { s with
      channel := []
      protocol := ⟨noFiles s.protocol.table.limit, false, true, []⟩ }

def opened (limit : ℤ) (n : ℕ) : System where
  accepted := 0
  listener := ⟨noFiles limit, fun i => if i < n then some false else none, some false, [], none⟩
  channel := []
  protocol := ⟨noFiles limit, true, false, []⟩
  started := []

/-! ### The descriptors of the listen service -/

def Listener.waiting (l : Listener) : List ℤ := l.forwarding.toList ++ l.mailbox

def Listener.held (l : Listener) : List Connection := l.table.files l.forwarding.toList

def Listener.mailed (l : Listener) : List Connection := l.table.files l.mailbox

/-- Open is what is in a message, once, and without an endpoint there is no message. -/
structure Listener.Keeps (l : Listener) : Prop where
  holds : l.table.Holds l.waiting
  gone : l.endpoint = none → l.waiting = []

section Listener

variable {l l' : Listener} {desc : ℤ} {c : Connection} {i : ℕ}
  {quiesce payload message sent written released : Bool}

theorem releasePayload_eq (h : 0 ≤ desc) : l.releasePayload desc = l.close desc := if_pos h

/-- A new connection whose descriptor is closed at once, or once more than it is open. -/
theorem Listener.Keeps.refused (hl : l.Keeps) (hfree : l.table.entry desc = none)
    (h : 0 ≤ desc ∧ desc < l.table.limit) (hl' : l' = ({ l with
      table := l.table.put desc c h } : Listener).close desc ∨ l' = (({ l with
      table := l.table.put desc c h } : Listener).close desc).close desc) :
    (l'.fiberExits i).Keeps ∧ (l'.fiberExits i).held = l.held ∧
      (l'.fiberExits i).mailed = l.mailed := by
  have hnot := hl.holds.not_mem hfree
  have hheld : desc ∉ l.forwarding.toList := fun hd => hnot (List.mem_append_left _ hd)
  have hmailed : desc ∉ l.mailbox := fun hd => hnot (List.mem_append_right _ hd)
  have hput : ((l.table.put desc c h).close desc).Holds l.waiting :=
    List.append_nil l.waiting ▸ (hl.holds.put hfree h).close
  rcases hl' with rfl | rfl
  · refine ⟨⟨hput, hl.gone⟩, ?_, ?_⟩
    · exact (files_close hheld).trans (files_put h hheld)
    · exact (files_close hmailed).trans (files_put h hmailed)
  · refine ⟨⟨hput.close_again hnot, hl.gone⟩, ?_, ?_⟩
    · exact (files_close hheld).trans ((files_close hheld).trans (files_put h hheld))
    · exact (files_close hmailed).trans ((files_close hmailed).trans (files_put h hmailed))

def Listener.Sends (l : Listener) (quiesce payload message sent : Bool) : Prop :=
  quiesce = false ∧ payload = true ∧ message = true ∧ sent = true ∧ l.endpoint.isSome = true

/-- What a listen fiber does with a new connection: the endpoint gets a message, or the connection
is closed. -/
theorem Listener.Keeps.accepts (hl : l.Keeps) (hfree : l.table.entry desc = none)
    (h : 0 ≤ desc ∧ desc < l.table.limit)
    (hl' : l' = listenFiberEntry { l with table := l.table.put desc c h } i quiesce desc payload
      message sent) :
    l'.Keeps ∧ l'.held = l.held ∧
      (l.Sends quiesce payload message sent ∧ l'.mailed = l.mailed ++ [c] ∧
        l'.mailbox = l.mailbox ++ [desc] ∧ l'.forwarding = l.forwarding ∧
        l'.fibers = l.fibers ∧ l'.endpoint = l.endpoint ∨
      ¬ l.Sends quiesce payload message sent ∧ l'.mailed = l.mailed) := by
  by_cases hsends : l.Sends quiesce payload message sent
  · obtain ⟨rfl, rfl, rfl, rfl, hendpoint⟩ := hsends
    have hsome : l.endpoint ≠ none := Option.isSome_iff_ne_none.mp hendpoint
    have hnot := hl.holds.not_mem hfree
    have hheld : desc ∉ l.forwarding.toList := fun hd => hnot (List.mem_append_left _ hd)
    have hmailed : desc ∉ l.mailbox := fun hd => hnot (List.mem_append_right _ hd)
    simp only [listenFiberEntry, Bool.false_eq_true, Bool.true_eq_false, false_or, if_false,
      if_neg hsome] at hl'
    subst hl'
    refine ⟨⟨?_, fun hgone => absurd hgone hsome⟩, files_put h hheld,
      Or.inl ⟨⟨rfl, rfl, rfl, rfl, hendpoint⟩, ?_, rfl, rfl, rfl, rfl⟩⟩
    · have hput := hl.holds.put (f := c) hfree h
      rw [Listener.waiting, List.append_assoc] at hput
      exact hput
    · exact (files_append _ _ _).trans
        (congrArg₂ (· ++ ·) (files_put h hmailed) (files_put_self h))
  · have hrefused : ∃ k : Listener, (k = ({ l with
        table := l.table.put desc c h } : Listener).close desc ∨ k = (({ l with
        table := l.table.put desc c h } : Listener).close desc).close desc) ∧
        l' = k.fiberExits i := by
      rw [listenFiberEntry, releasePayload_eq h.1] at hl'
      split at hl'
      · exact ⟨_, Or.inl rfl, hl'⟩
      · split at hl'
        · exact ⟨_, Or.inl rfl, hl'⟩
        · split at hl'
          · exact ⟨_, Or.inr rfl, hl'⟩
          · split at hl'
            · exact ⟨_, Or.inl rfl, hl'⟩
            · exfalso
              rename_i hquiesce hpayload hmessage hsent
              obtain ⟨hs, hendpoint⟩ := not_or.mp hsent
              exact hsends ⟨Bool.not_eq_true _ ▸ hquiesce, Bool.not_eq_false _ ▸ hpayload,
                Bool.not_eq_false _ ▸ hmessage, Bool.not_eq_false _ ▸ hs,
                Option.isSome_iff_ne_none.mpr hendpoint⟩
    obtain ⟨k, hk, rfl⟩ := hrefused
    obtain ⟨hkeeps, hheld, hmailed⟩ := hl.refused (i := i) hfree h hk
    exact ⟨hkeeps, hheld, Or.inr ⟨hsends, hmailed⟩⟩

theorem Listener.Keeps.endpointExits (hl : l.Keeps) (hf : l.forwarding = none) :
    l.endpointExits.Keeps ∧ l.endpointExits.held = [] ∧ l.endpointExits.mailed = [] := by
  have hwaiting : l.endpointExits.waiting = [] := by
    simp [Listener.waiting, Listener.endpointExits, hf]
  refine ⟨⟨?_, fun _ => hwaiting⟩, ?_, rfl⟩
  · rw [hwaiting]
    have hholds : l.table.Holds ([] ++ l.mailbox) := by
      have := hl.holds
      rwa [Listener.waiting, hf] at this
    exact hholds.close_all
  · simp [Listener.held, Listener.endpointExits, hf, Table.files]

/-- What the endpoint does with a message. -/
theorem Listener.Keeps.forwards (hl : l.Keeps) (hf : l.forwarding = some desc)
    (he : l.endpoint.isSome = true)
    (hl' : l' = acceptEndpointFiberEntry l quiesce desc written released) :
    l'.Keeps ∧ l'.held = [] ∧ (l'.mailed = l.mailed ∨ l'.mailed = []) ∧
      (written = true ∧ released = true ∧ quiesce = false → l'.mailed = l.mailed ∧
        l'.mailbox = l.mailbox ∧ l'.forwarding = none ∧ l'.fibers = l.fibers ∧
        l'.endpoint = l.endpoint) := by
  have hholds : l.table.Holds ([] ++ desc :: l.mailbox) := by
    have := hl.holds
    rwa [Listener.waiting, hf] at this
  have hdesc : 0 ≤ desc := by
    obtain ⟨c, hc⟩ := Option.isSome_iff_exists.mp ((hholds.opened desc).mpr (by simp))
    exact (l.table.bounded desc c hc).1
  have hnot : desc ∉ l.mailbox := (List.nodup_cons.mp hholds.nodup).1
  have hmid : ({ l.close desc with forwarding := none } : Listener).Keeps := by
    refine ⟨hholds.close, fun hgone => ?_⟩
    have hgone' : l.endpoint = none := hgone
    rw [hgone'] at he
    cases he
  have hmailed : ({ l.close desc with forwarding := none } : Listener).mailed = l.mailed :=
    files_close hnot
  rw [acceptEndpointFiberEntry, releasePayload_eq hdesc] at hl'
  dsimp only at hl'
  split at hl'
  · rename_i hends
    obtain ⟨hkeeps, hheld, hnone⟩ := hmid.endpointExits rfl
    subst hl'
    refine ⟨hkeeps, hheld, Or.inr hnone, ?_⟩
    rintro ⟨rfl, rfl, rfl⟩
    simp at hends
  · subst hl'
    exact ⟨hmid, rfl, Or.inl hmailed, fun _ => ⟨hmailed, rfl, rfl, rfl, rfl⟩⟩

end Listener

/-! ### The descriptors of the protocol service -/

def ProtocolService.running (p : ProtocolService) : List Connection := p.table.files p.fibers

section ProtocolService

variable {p q : ProtocolService} {desc : ℤ} {c : Connection} {add : FiberAdd} {added : Bool}

/-- What the accept endpoint does with a descriptor: it gets a fiber or it is closed. -/
theorem protocolAcceptEntry_eq (hp : p.table.Holds p.fibers) (hfree : p.table.entry desc = none)
    (h : 0 ≤ desc ∧ desc < p.table.limit)
    (hq : protocolAcceptEntry { p with table := p.table.put desc c h } desc add = (q, added)) :
    q.table.Holds q.fibers ∧ q.accepting = p.accepting ∧ q.quiesce = p.quiesce ∧
      q.running = p.running ++ (if added then [c] else []) ∧ (added = true ↔ add = .added) := by
  have hnot := hp.not_mem hfree
  have hclosed : ((p.table.put desc c h).close desc).Holds p.fibers :=
    List.append_nil p.fibers ▸ (hp.put hfree h).close
  have hfiles : ((p.table.put desc c h).close desc).files p.fibers = p.running :=
    (files_close hnot).trans (files_put h hnot)
  cases add with
  | added =>
    obtain ⟨rfl, rfl⟩ := Prod.mk.inj hq
    refine ⟨hp.put hfree h, rfl, rfl, ?_, by simp⟩
    exact (files_append _ _ _).trans (congrArg₂ (· ++ ·) (files_put h hnot) (files_put_self h))
  | fails ownsSocket =>
    cases ownsSocket with
    | false =>
      obtain ⟨rfl, rfl⟩ := Prod.mk.inj hq
      exact ⟨hclosed, rfl, rfl, hfiles.trans (List.append_nil _).symm, by simp⟩
    | true =>
      obtain ⟨rfl, rfl⟩ := Prod.mk.inj hq
      refine ⟨hclosed.close_again hnot, rfl, rfl, ?_, by simp⟩
      exact ((files_close hnot).trans hfiles).trans (List.append_nil _).symm

theorem fiber_exits (hp : p.table.Holds p.fibers) (hdesc : desc ∈ p.fibers) :
    (p.table.close desc).Holds (p.fibers.erase desc) ∧
      List.Sublist ((p.table.close desc).files (p.fibers.erase desc)) p.running := by
  obtain ⟨l, m, hl, hfibers, herase⟩ := List.exists_erase_eq hdesc
  rw [herase]
  rw [hfibers] at hp
  refine ⟨hp.close, ?_⟩
  have hnot : desc ∉ l ++ m := (List.nodup_cons.mp (List.nodup_middle.mp hp.nodup)).1
  rw [files_close hnot, ProtocolService.running, hfibers]
  exact ((List.sublist_cons_self desc m).append_left l).filterMap _

end ProtocolService

/-! ### What every step keeps -/

def row (s : System) : Row Connection where
  entered := List.range s.accepted
  queues := [s.started, s.channel, s.listener.held, s.listener.mailed]

structure Safety (s : System) : Prop where
  order : List.Sublist (row s).held (row s).entered
  listener : s.listener.Keeps
  protocol : s.protocol.table.Holds s.protocol.fibers
  running : List.Sublist s.protocol.running s.started
  gone : s.protocol.accepting = false → s.channel = []

section Steps

variable {s s' : System} {n : ℕ} {limit : ℤ}

/-- Some connections are no longer where they were. -/
theorem row_drop {started channel held mailed channel' held' mailed' : List Connection}
    (hc : List.Sublist channel' channel) (hh : List.Sublist held' held)
    (hm : List.Sublist mailed' mailed) :
    Loses ⟨List.range n, [started, channel, held, mailed]⟩
      ⟨List.range n, [started, channel', held', mailed']⟩ :=
  .drop _ (.cons (List.Sublist.refl _) (.cons hc (.cons hh (.cons hm .nil))))

theorem sublist_of_eq_or_nil {l l' : List Connection} (h : l' = l ∨ l' = []) :
    List.Sublist l' l := by
  rcases h with rfl | rfl
  · exact List.Sublist.refl _
  · exact List.nil_sublist _

theorem holds_noFiles (limit : ℤ) : (noFiles limit).Holds [] where
  nodup := List.nodup_nil
  opened d := by simp [noFiles]

theorem keeps_without (limit : ℤ) (fibers : ℕ → Option Bool) (endpoint : Option Bool) :
    (⟨noFiles limit, fibers, endpoint, [], none⟩ : Listener).Keeps :=
  ⟨holds_noFiles limit, fun _ => rfl⟩

theorem safety_opened (limit : ℤ) (n : ℕ) : Safety (opened limit n) where
  order := List.Sublist.refl _
  listener := keeps_without _ _ _
  protocol := holds_noFiles limit
  running := List.Sublist.refl _
  gone h := by cases h

/-- A step of the listen service alone. -/
theorem Safety.of_listener (h : Safety s) {l : Listener} {k : ℕ} {channel : List Connection}
    (hl : l.Keeps) (hgone : s.protocol.accepting = false → channel = [])
    (hrow : Loses (row s) ⟨List.range k, [s.started, channel, l.held, l.mailed]⟩) :
    Safety { s with accepted := k, listener := l, channel := channel } where
  order := hrow.held h.order
  listener := hl
  protocol := h.protocol
  running := h.running
  gone := hgone

/-- A step of the protocol service alone. -/
theorem Safety.of_protocol (h : Safety s) {p : ProtocolService} {channel started : List Connection}
    (hp : p.table.Holds p.fibers) (hrun : List.Sublist p.running started)
    (hgone : p.accepting = false → channel = [])
    (hrow : Loses (row s)
      ⟨List.range s.accepted, [started, channel, s.listener.held, s.listener.mailed]⟩) :
    Safety { s with protocol := p, channel := channel, started := started } where
  order := hrow.held h.order
  listener := h.listener
  protocol := hp
  running := hrun
  gone := hgone

structure Alive (s : System) : Prop where
  fibers : ∀ i quiesce, s.listener.fibers i = some quiesce → quiesce = false
  endpoint : s.listener.endpoint = some false
  accepting : s.protocol.accepting = true
  quiesce : s.protocol.quiesce = false

/-- Nothing fails, and nobody is asked to quiesce or ends but the fiber of a connection. -/
def Works : Event → Prop
  | .accept _ (.accepts _ payload message sent) => payload = true ∧ message = true ∧ sent = true
  | .receive received => received = true
  | .forward written released => written = true ∧ released = true
  | .read (.reads _ .added) => True
  | .fiberExits _ => True
  | _ => False

def Accepts : Event → Bool
  | .accept _ _ => true
  | _ => false

def HandsOver : Event → Bool
  | .receive _ | .forward _ _ | .read _ => true
  | _ => false

def System.handoversLeft (s : System) : ℕ :=
  3 * s.listener.mailbox.length + 2 * s.listener.forwarding.toList.length + s.channel.length

structure Stepped (s : System) (e : Event) (s' : System) : Prop where
  safety : Safety s'
  alive : Alive s → Works e → Alive s' ∧ Moves (row s) (row s') ∧
    s'.handoversLeft + (HandsOver e).toNat = s.handoversLeft + 3 * (Accepts e).toNat

theorem step_accept (h : Safety s) {i : ℕ} {desc : ℤ} {payload message sent : Bool}
    (hs : step s (.accept i (.accepts desc payload message sent)) = some s') :
    Stepped s (.accept i (.accepts desc payload message sent)) s' := by
  cases hi : s.listener.fibers i with
  | none =>
    simp only [step, hi] at hs
    cases hs
  | some quiesce =>
    simp only [step, hi, Option.dite_none_right_eq_some, Option.ite_none_right_eq_some,
      Option.some.injEq] at hs
    obtain ⟨hrange, hfree, rfl⟩ := hs
    obtain ⟨hkeeps, hheld, hmailed⟩ := h.listener.accepts hfree hrange (Eq.refl (listenFiberEntry
      { s.listener with table := s.listener.table.put desc s.accepted hrange }
      i quiesce desc payload message sent))
    constructor
    · refine h.of_listener hkeeps h.gone ?_
      rw [hheld, List.range_succ]
      rcases hmailed with ⟨-, hmailed, -⟩ | ⟨-, hmailed⟩
      · rw [hmailed]
        exact .moves (.enter _ _ [s.started, s.channel, s.listener.held] _)
      · rw [hmailed]
        exact .refuse _ _
    · rintro halive ⟨rfl, rfl, rfl⟩
      have hquiesce := halive.fibers i quiesce hi
      have hendpoint : s.listener.endpoint.isSome = true := by rw [halive.endpoint]; rfl
      obtain ⟨-, hmailed, hmailbox, hforwarding, hfibers, hend⟩ :=
        hmailed.resolve_right fun hnot => hnot.1 ⟨hquiesce, rfl, rfl, rfl, hendpoint⟩
      refine ⟨⟨?_, hend.trans halive.endpoint, halive.accepting, halive.quiesce⟩, ?_, ?_⟩
      · rw [hfibers]
        exact halive.fibers
      · have hmoves : Moves (row s) ⟨List.range s.accepted ++ [s.accepted],
            [s.started, s.channel, s.listener.held, s.listener.mailed ++ [s.accepted]]⟩ :=
          .enter _ _ [s.started, s.channel, s.listener.held] _
        simp only [row, hheld, hmailed, List.range_succ] at hmoves ⊢
        exact hmoves
      · simp only [System.handoversLeft, hmailbox, hforwarding, List.length_append,
          List.length_singleton, HandsOver, Accepts, Bool.toNat_false, Bool.toNat_true]
        omega

theorem step_receive (h : Safety s) {received : Bool}
    (hs : step s (.receive received) = some s') : Stepped s (.receive received) s' := by
  cases hendpoint : s.listener.endpoint with
  | none =>
    simp only [step, hendpoint] at hs
    cases hs
  | some quiesce =>
    cases hforwarding : s.listener.forwarding with
    | some desc =>
      simp only [step, hendpoint, hforwarding] at hs
      cases hs
    | none =>
      simp only [step, hendpoint, hforwarding] at hs
      split at hs
      · rename_i hreceived
        cases hs
        obtain ⟨hkeeps, hheld, hmailed⟩ := h.listener.endpointExits hforwarding
        constructor
        · refine h.of_listener hkeeps h.gone ?_
          rw [hheld, hmailed]
          exact row_drop (List.Sublist.refl _) (List.nil_sublist _) (List.nil_sublist _)
        · rintro - hworks
          exact absurd (hreceived.symm.trans hworks) Bool.false_ne_true
      · cases hmailbox : s.listener.mailbox with
        | nil =>
          simp only [hmailbox] at hs
          cases hs
        | cons desc rest =>
          simp only [hmailbox, Option.some.injEq] at hs
          subst hs
          have hholds : s.listener.table.Holds (desc :: rest) := by
            have := h.listener.holds
            rwa [Listener.waiting, hforwarding, hmailbox] at this
          obtain ⟨c, hc⟩ := Option.isSome_iff_exists.mp ((hholds.opened desc).mpr (by simp))
          have hmoves : Moves (row s) ⟨List.range s.accepted,
              [s.started, s.channel, [] ++ [c], s.listener.table.files rest]⟩ := by
            have hheld : s.listener.held = [] := by simp [Listener.held, hforwarding, Table.files]
            have hmailed : s.listener.mailed = c :: s.listener.table.files rest := by
              simp [Listener.mailed, hmailbox, Table.files, hc]
            rw [row, hheld, hmailed]
            exact .pass _ [] _ [s.started, s.channel] [] c
          have hrow : ([] ++ [c] : List Connection) = s.listener.table.files [desc] := by
            simp [Table.files, hc]
          rw [hrow] at hmoves
          constructor
          · refine h.of_listener ⟨hholds, fun hgone => ?_⟩ h.gone (.moves hmoves)
            cases hgone
          · rintro halive -
            refine ⟨⟨halive.fibers, ?_, halive.accepting, halive.quiesce⟩, hmoves, ?_⟩
            · exact hendpoint.symm.trans halive.endpoint
            · simp [System.handoversLeft, hmailbox, hforwarding, HandsOver, Accepts]
              omega

theorem step_forward (h : Safety s) {written released : Bool}
    (hs : step s (.forward written released) = some s') :
    Stepped s (.forward written released) s' := by
  cases hendpoint : s.listener.endpoint with
  | none =>
    simp only [step, hendpoint] at hs
    cases hs
  | some quiesce =>
    cases hforwarding : s.listener.forwarding with
    | none =>
      simp only [step, hendpoint, hforwarding] at hs
      cases hs
    | some desc =>
      simp only [step, hendpoint, hforwarding, Option.some.injEq] at hs
      subst hs
      obtain ⟨hkeeps, hheld, hmailed, hworks⟩ := h.listener.forwards hforwarding
        (by rw [hendpoint]; rfl) (Eq.refl (acceptEndpointFiberEntry s.listener quiesce desc
          (written && s.protocol.accepting) released))
      have hfiles : s.listener.held = s.listener.table.files [desc] := by
        rw [Listener.held, hforwarding]
        rfl
      obtain ⟨c, hc⟩ : ∃ c, s.listener.table.files [desc] = [c] := by
        have hmem : desc ∈ s.listener.waiting := by simp [Listener.waiting, hforwarding]
        obtain ⟨c, hc⟩ := Option.isSome_iff_exists.mp ((h.listener.holds.opened desc).mpr hmem)
        exact ⟨c, by simp [Table.files, hc]⟩
      have hmoves : Moves (row s) ⟨List.range s.accepted,
          [s.started, s.channel ++ s.listener.table.files [desc], [], s.listener.mailed]⟩ := by
        rw [row, hfiles, hc]
        exact .pass _ _ [] [s.started] [s.listener.mailed] c
      constructor
      · refine h.of_listener hkeeps ?_ ?_
        · intro hgone
          simp [hgone, h.gone hgone]
        · rw [hheld]
          split
          · exact .trans (.moves hmoves) (row_drop (List.Sublist.refl _) (List.Sublist.refl _)
              (sublist_of_eq_or_nil hmailed))
          · exact row_drop (List.Sublist.refl _) (List.nil_sublist _) (sublist_of_eq_or_nil hmailed)
      · rintro halive ⟨rfl, rfl⟩
        have hquiesce : quiesce = false := Option.some.inj (hendpoint.symm.trans halive.endpoint)
        subst hquiesce
        have hwritten : (true && s.protocol.accepting) = true := halive.accepting
        obtain ⟨hmail, hmailbox, hforward, hfibers, hend⟩ := hworks ⟨hwritten, rfl, rfl⟩
        refine ⟨⟨?_, hend.trans halive.endpoint, halive.accepting, halive.quiesce⟩, ?_, ?_⟩
        · rw [hfibers]
          exact halive.fibers
        · simp only [row, hheld, hmail, if_pos hwritten] at hmoves ⊢
          exact hmoves
        · simp only [System.handoversLeft, hmailbox, hforward, hforwarding, if_pos hwritten, hc,
            List.length_append, List.length_singleton, Option.toList_none, Option.toList_some,
            List.length_nil, HandsOver, Accepts, Bool.toNat_true, Bool.toNat_false]
          omega

theorem step_read (h : Safety s) {desc : ℤ} {add : FiberAdd}
    (hs : step s (.read (.reads desc add)) = some s') : Stepped s (.read (.reads desc add)) s' := by
  cases haccepting : s.protocol.accepting with
  | false =>
    simp only [step, haccepting] at hs
    cases hs
  | true =>
    cases hchannel : s.channel with
    | nil =>
      simp only [step, haccepting, hchannel] at hs
      cases hs
    | cons c rest =>
      simp only [step, hchannel, haccepting, Option.dite_none_right_eq_some,
        Option.ite_none_right_eq_some, Option.some.injEq] at hs
      obtain ⟨hrange, hfree, hs'⟩ := hs
      obtain ⟨p, added, hq⟩ : ∃ p added, protocolAcceptEntry
          { s.protocol with table := s.protocol.table.put desc c hrange } desc add = (p, added) :=
        ⟨_, _, rfl⟩
      obtain ⟨hp, hpaccepting, hpquiesce, hrunning, hadded⟩ :=
        protocolAcceptEntry_eq h.protocol hfree hrange hq
      rw [haccepting] at hpaccepting
      simp only [haccepting] at hq
      simp only [hq] at hs'
      have hrun : List.Sublist p.running (if added then s.started ++ [c] else s.started) := by
        rw [hrunning]
        cases added with
        | true => exact h.running.append_right [c]
        | false => simpa using h.running
      have hrow : row s = ⟨List.range s.accepted,
          [s.started, c :: rest, s.listener.held, s.listener.mailed]⟩ := by
        rw [row, hchannel]
      have hmoves : added = true → Moves (row s) ⟨List.range s.accepted,
          [s.started ++ [c], rest, s.listener.held, s.listener.mailed]⟩ := by
        rintro -
        rw [hrow]
        exact .pass _ s.started rest [] [s.listener.held, s.listener.mailed] c
      have hloses : Loses (row s) ⟨List.range s.accepted,
          [if added then s.started ++ [c] else s.started, rest, s.listener.held,
            s.listener.mailed]⟩ := by
        cases added with
        | true => exact .moves (hmoves rfl)
        | false =>
          rw [hrow]
          exact row_drop (List.sublist_cons_self c rest) (List.Sublist.refl _) (List.Sublist.refl _)
      constructor
      · split at hs'
        · rw [← hs']
          refine h.of_protocol (p := { p with accepting := false }) hp hrun (fun _ => rfl) ?_
          exact hloses.trans
            (row_drop (List.nil_sublist _) (List.Sublist.refl _) (List.Sublist.refl _))
        · rw [← hs']
          refine h.of_protocol hp hrun (fun hgone => ?_) hloses
          rw [hpaccepting] at hgone
          cases hgone
      · intro halive hworks
        have hadd : add = .added := by
          cases add with
          | added => rfl
          | fails ownsSocket => exact hworks.elim
        have htrue := hadded.mpr hadd
        subst htrue
        have hquiet : p.quiesce = false := hpquiesce.trans halive.quiesce
        rw [hquiet, if_neg Bool.false_ne_true] at hs'
        subst hs'
        refine ⟨⟨halive.fibers, halive.endpoint, hpaccepting, hquiet⟩, hmoves rfl, ?_⟩
        simp only [System.handoversLeft, hchannel, List.length_cons, HandsOver, Accepts,
          Bool.toNat_true, Bool.toNat_false]
        omega

/-- In every state a step keeps what is safe, and where nothing fails it loses nothing. -/
theorem step_stepped (h : Safety s) {e : Event} (hs : step s e = some s') : Stepped s e s' := by
  cases e with
  | accept i o =>
    cases o with
    | accepts desc payload message sent => exact step_accept h hs
    | fails =>
      simp only [step, Option.ite_none_right_eq_some, Option.some.injEq] at hs
      obtain ⟨-, rfl⟩ := hs
      exact ⟨h.of_listener ⟨h.listener.holds, h.listener.gone⟩ h.gone (.moves (.stay _)),
        fun _ hworks => hworks.elim⟩
  | quiesceListen i =>
    simp only [step, Option.ite_none_right_eq_some, Option.some.injEq] at hs
    obtain ⟨-, rfl⟩ := hs
    exact ⟨h.of_listener ⟨h.listener.holds, h.listener.gone⟩ h.gone (.moves (.stay _)),
      fun _ hworks => hworks.elim⟩
  | receive received => exact step_receive h hs
  | forward written released => exact step_forward h hs
  | quiesceEndpoint =>
    simp only [step, Option.ite_none_right_eq_some, Option.some.injEq] at hs
    obtain ⟨-, rfl⟩ := hs
    exact ⟨h.of_listener ⟨h.listener.holds, fun hgone => by cases hgone⟩ h.gone (.moves (.stay _)),
      fun _ hworks => hworks.elim⟩
  | listenerExits =>
    cases hs
    refine ⟨h.of_listener (keeps_without _ _ _) h.gone ?_, fun _ hworks => hworks.elim⟩
    exact row_drop (List.Sublist.refl _) (List.nil_sublist _) (List.nil_sublist _)
  | read o =>
    cases o with
    | reads desc add => exact step_read h hs
    | fails =>
      simp only [step, Option.ite_none_right_eq_some, Option.some.injEq] at hs
      obtain ⟨-, rfl⟩ := hs
      refine ⟨h.of_protocol (p := { s.protocol with accepting := false }) h.protocol h.running
        (fun _ => rfl) ?_, fun _ hworks => hworks.elim⟩
      exact row_drop (List.nil_sublist _) (List.Sublist.refl _) (List.Sublist.refl _)
  | quiesceProtocol =>
    cases hs
    exact ⟨h.of_protocol (p := { s.protocol with quiesce := true }) h.protocol h.running h.gone
      (.moves (.stay _)), fun _ hworks => hworks.elim⟩
  | fiberExits desc =>
    simp only [step, Option.ite_none_right_eq_some, Option.some.injEq] at hs
    obtain ⟨hdesc, rfl⟩ := hs
    obtain ⟨hholds, hsub⟩ := fiber_exits h.protocol hdesc
    refine ⟨h.of_protocol (p := { s.protocol.close desc with
      fibers := s.protocol.fibers.erase desc }) hholds (hsub.trans h.running) h.gone
      (.moves (.stay _)), fun halive _ => ⟨?_, .stay _, rfl⟩⟩
    exact ⟨halive.fibers, halive.endpoint, halive.accepting, halive.quiesce⟩
  | protocolExits =>
    cases hs
    refine ⟨h.of_protocol (holds_noFiles _) (List.nil_sublist _) (fun _ => rfl) ?_,
      fun _ hworks => hworks.elim⟩
    exact row_drop (List.nil_sublist _) (List.Sublist.refl _) (List.Sublist.refl _)

/-- Nothing but an accept adds a connection. -/
theorem accepted_step {e : Event} (he : Accepts e = false) (hs : step s e = some s') :
    s'.accepted = s.accepted := by
  cases e with
  | accept i o => cases he
  | read o =>
    cases o with
    | fails =>
      simp only [step, Option.ite_none_right_eq_some, Option.some.injEq] at hs
      rw [← hs.2]
      rfl
    | reads desc add =>
      simp only [step] at hs
      split at hs
      · simp only [Option.dite_none_right_eq_some, Option.ite_none_right_eq_some,
          Option.some.injEq] at hs
        obtain ⟨-, -, rfl⟩ := hs
        split
        · rfl
        · rfl
      · cases hs
  | receive received =>
    simp only [step] at hs
    split at hs
    · split at hs
      · cases hs
        rfl
      · split at hs
        · cases hs
        · cases hs
          rfl
    · cases hs
  | forward written released =>
    simp only [step] at hs
    split at hs
    · cases hs
      rfl
    · cases hs
  | quiesceListen i =>
    simp only [step, Option.ite_none_right_eq_some, Option.some.injEq] at hs
    rw [← hs.2]
  | quiesceEndpoint =>
    simp only [step, Option.ite_none_right_eq_some, Option.some.injEq] at hs
    rw [← hs.2]
  | fiberExits desc =>
    simp only [step, Option.ite_none_right_eq_some, Option.some.injEq] at hs
    rw [← hs.2]
  | listenerExits =>
    cases hs
    rfl
  | quiesceProtocol =>
    cases hs
    rfl
  | protocolExits =>
    cases hs
    rfl

end Steps

/-! ### Whole runs -/

section Runs

variable {limit : ℤ} {n : ℕ} {log : List (Taken System Event)} {s : System}

theorem run_safety (h : Run step (opened limit n) log s) : Safety s :=
  h.invariant (safety_opened limit n) fun hs hstep => (step_stepped hs hstep).safety

theorem Safety.sublist (h : Safety s) : List.Sublist
    (s.started ++ (s.channel ++ (s.listener.held ++ s.listener.mailed)))
    (List.range s.accepted) := by
  simpa [row, Row.held] using h.order

/-- Whatever fails and whoever ends: no connection is in two places, whether in a fiber of the
protocol service, on the channel or in a message; those that get a fiber get it in the order in
which they were accepted; a descriptor is open exactly where a message or a fiber has it, so that
every other connection is closed; and no connection waits where nobody reads any more. -/
theorem connections_are_in_one_place (h : Run step (opened limit n) log s) :
    List.Sublist (s.started ++ (s.channel ++ (s.listener.held ++ s.listener.mailed)))
      (List.range s.accepted) ∧
    (s.protocol.running ++ (s.channel ++ (s.listener.held ++ s.listener.mailed))).Nodup ∧
    s.listener.table.Holds s.listener.waiting ∧ s.protocol.table.Holds s.protocol.fibers ∧
    (s.listener.endpoint = none → s.listener.waiting = []) ∧
    (s.protocol.accepting = false → s.channel = []) := by
  have hs := run_safety h
  have hnodup := List.nodup_range.sublist ((hs.running.append_right _).trans hs.sublist)
  exact ⟨hs.sublist, hnodup, hs.listener.holds, hs.protocol, hs.listener.gone, hs.gone⟩

/-- The second of three connections finds no message and is closed, twice; its descriptor is then
that of the third. -/
def acceptEvents : List Event :=
  [.accept 0 (.accepts 7 true true true), .accept 1 (.accepts 8 true false true),
    .accept 0 (.accepts 8 true true true), .receive true, .forward true true]

theorem two_of_three_are_in_one_place : ∃ log s, Run step (opened 1024 2) log s ∧
    (s.accepted, s.channel, s.listener.mailed) = (3, [0], [2]) ∧
    s.listener.table.Holds s.listener.waiting ∧
    (s.protocol.running ++ (s.channel ++ (s.listener.held ++ s.listener.mailed))).Nodup := by
  have hrun : (execute step (opened 1024 2) acceptEvents).map
      (fun r => (r.2.accepted, r.2.channel, r.2.listener.mailed)) = some (3, [0], [2]) := by
    decide +kernel
  obtain ⟨⟨log, s⟩, h, heq⟩ := Option.map_eq_some_iff.mp hrun
  obtain ⟨-, hnodup, hholds, -⟩ := connections_are_in_one_place (run_execute h).1
  exact ⟨log, s, (run_execute h).1, heq, hholds, hnodup⟩

theorem alive_opened (limit : ℤ) (n : ℕ) : Alive (opened limit n) where
  fibers i quiesce hi := by
    simp only [opened, Option.ite_none_right_eq_some, Option.some.injEq] at hi
    exact hi.2.symm
  endpoint := rfl
  accepting := rfl
  quiesce := rfl

theorem run_alive (h : Run step (opened limit n) log s) (hworks : ∀ t ∈ log, Works t.event) :
    Safety s ∧ Alive s ∧ (row s).held = (row s).entered := by
  refine h.invariant_on (P := fun s => Safety s ∧ Alive s ∧ (row s).held = (row s).entered) hworks
    ⟨safety_opened limit n, alive_opened limit n, rfl⟩ ?_
  rintro s e s' ⟨hs, halive, hheld⟩ he hstep
  have hstepped := step_stepped hs hstep
  obtain ⟨halive', hmoves, -⟩ := hstepped.alive halive he
  exact ⟨hstepped.safety, halive', hmoves.held hheld⟩

/-- As long as a connection is on its way, somebody can hand it over. -/
theorem exists_handover (hs : Safety s) (halive : Alive s) (hleft : 0 < s.handoversLeft)
    (hroom : (s.protocol.fibers.length : ℤ) < s.protocol.table.limit) :
    ∃ e, Works e ∧ HandsOver e = true ∧ (step s e).isSome = true := by
  cases hforwarding : s.listener.forwarding with
  | some desc =>
    refine ⟨.forward true true, ⟨rfl, rfl⟩, rfl, ?_⟩
    simp [step, halive.endpoint, hforwarding]
  | none =>
    cases hmailbox : s.listener.mailbox with
    | cons desc rest =>
      refine ⟨.receive true, rfl, rfl, ?_⟩
      simp [step, halive.endpoint, hforwarding, hmailbox]
    | nil =>
      cases hchannel : s.channel with
      | nil => simp [System.handoversLeft, hforwarding, hmailbox, hchannel] at hleft
      | cons c rest =>
        obtain ⟨desc, hrange, hfree⟩ := hs.protocol.exists_free hroom
        refine ⟨.read (.reads desc .added), trivial, rfl, ?_⟩
        simp [step, halive.accepting, hchannel, hrange, hfree]

theorem started_of_no_handover (hheld : (row s).held = (row s).entered)
    (hleft : s.handoversLeft = 0) : s.started = List.range s.accepted := by
  simp only [System.handoversLeft, Nat.add_eq_zero_iff, Nat.mul_eq_zero, List.length_eq_zero_iff]
    at hleft
  obtain ⟨⟨hmailbox, hforwarding⟩, hchannel⟩ := hleft
  have hmailed : s.listener.mailed = [] := by
    rw [Listener.mailed, hmailbox.resolve_left (by decide)]
    rfl
  have hnone : s.listener.held = [] := by
    rw [Listener.held, hforwarding.resolve_left (by decide)]
    rfl
  simpa [row, Row.held, hmailed, hnone, hchannel] using hheld

/-- As long as nothing fails no connection is lost, and all of them get a fiber: while none is
added, three handovers for each are the most there can be, they can go on until then if the protocol
service has a free descriptor, and then every connection has got its fiber, in the order in which
they were accepted. -/
theorem undisturbed_connections_are_started {l : List (Taken System Event)} {s' : System}
    (h : Run step (opened limit n) log s) (hworks : ∀ t ∈ log, Works t.event)
    (h' : Run step s l s') (hworks' : ∀ t ∈ l, Works t.event ∧ Accepts t.event = false) :
    s'.handoversLeft + l.countP (fun t => HandsOver t.event) = s.handoversLeft ∧
    (0 < s'.handoversLeft → (s'.protocol.fibers.length : ℤ) < s'.protocol.table.limit →
      ∃ e, Works e ∧ HandsOver e = true ∧ (step s' e).isSome = true) ∧
    (s'.handoversLeft = 0 → s'.started = List.range s.accepted) := by
  obtain ⟨hs, halive, hheld⟩ := run_alive h hworks
  have hkeep : ∀ {t e t'}, (Safety t ∧ Alive t ∧ (row t).held = (row t).entered ∧
      t.accepted = s.accepted) → (Works e ∧ Accepts e = false) → step t e = some t' →
      (Safety t' ∧ Alive t' ∧ (row t').held = (row t').entered ∧ t'.accepted = s.accepted) ∧
        t'.handoversLeft + (HandsOver e).toNat = t.handoversLeft := by
    rintro t e t' ⟨hs, halive, hheld, haccepted⟩ ⟨he, hnot⟩ hstep
    have hstepped := step_stepped hs hstep
    obtain ⟨halive', hmoves, hleft⟩ := hstepped.alive halive he
    rw [hnot] at hleft
    refine ⟨⟨hstepped.safety, halive', hmoves.held hheld, ?_⟩, by simpa using hleft⟩
    exact (accepted_step hnot hstep).trans haccepted
  obtain ⟨⟨hs, halive, hheld, haccepted⟩, hcount⟩ :=
    h'.countdown System.handoversLeft HandsOver hworks' ⟨hs, halive, hheld, rfl⟩ hkeep
  refine ⟨hcount, exists_handover hs halive, fun hleft => ?_⟩
  rw [← haccepted]
  exact started_of_no_handover hheld hleft

def twoAccepts : List Event :=
  [.accept 0 (.accepts 7 true true true), .accept 1 (.accepts 8 true true true)]

def sixHandovers : List Event :=
  [.receive true, .forward true true, .receive true, .read (.reads 5 .added), .forward true true,
    .read (.reads 6 .added)]

theorem works_twoAccepts : ∀ e ∈ twoAccepts, Works e := by
  intro e he
  simp only [twoAccepts, List.mem_cons, List.not_mem_nil, or_false] at he
  rcases he with rfl | rfl
  all_goals exact ⟨rfl, rfl, rfl⟩

theorem works_sixHandovers : ∀ e ∈ sixHandovers, Works e ∧ Accepts e = false := by
  intro e he
  simp only [sixHandovers, List.mem_cons, List.not_mem_nil, or_false] at he
  rcases he with rfl | rfl | rfl | rfl | rfl | rfl
  · exact ⟨rfl, rfl⟩
  · exact ⟨⟨rfl, rfl⟩, rfl⟩
  · exact ⟨rfl, rfl⟩
  · exact ⟨trivial, rfl⟩
  · exact ⟨⟨rfl, rfl⟩, rfl⟩
  · exact ⟨trivial, rfl⟩

theorem two_connections_are_started : ∃ log s l s', Run step (opened 1024 2) log s ∧
    s.accepted = 2 ∧ Run step s l s' ∧ s'.started = [0, 1] := by
  have hrun : ((execute step (opened 1024 2) twoAccepts).bind fun r =>
      (execute step r.2 sixHandovers).map fun r' =>
        (r.2.accepted, r'.2.handoversLeft)) = some (2, 0) := by
    decide +kernel
  obtain ⟨⟨log, s⟩, h, hrest⟩ := Option.bind_eq_some_iff.mp hrun
  obtain ⟨⟨l, s'⟩, h', heq⟩ := Option.map_eq_some_iff.mp hrest
  obtain ⟨haccepted, hleft⟩ := Prod.mk.inj heq
  obtain ⟨hrun₁, hevents₁⟩ := run_execute h
  obtain ⟨hrun₂, hevents₂⟩ := run_execute h'
  have hworks : ∀ t ∈ log, Works t.event := fun t ht =>
    works_twoAccepts _ (hevents₁ ▸ List.mem_map_of_mem ht)
  have hworks' : ∀ t ∈ l, Works t.event ∧ Accepts t.event = false := fun t ht =>
    works_sixHandovers _ (hevents₂ ▸ List.mem_map_of_mem ht)
  have hstarted := (undisturbed_connections_are_started hrun₁ hworks hrun₂ hworks').2.2 hleft
  refine ⟨log, s, l, s', hrun₁, haccepted, hrun₂, hstarted.trans ?_⟩
  rw [haccepted]
  rfl

end Runs

end ConnectionHandoff
