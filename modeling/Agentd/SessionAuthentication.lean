import Agentd.HandshakeSteps

/-! # Who gets a request dispatched

A session is a log with one handshake request, one draw of random bytes and packets that are all
authentic under the secret that comes from them, numbered from one. A request is dispatched only in
a session of an entity that is authorized, and a connection that leaves its session ends and closes
its data service context. -/
namespace SessionAuthentication

open ByteString
open ClientProtocol
open ProtocolFiber
open HandshakeSteps

variable {E : Env} {s : Connection} {k t : Context} {o : HandshakeOutcome} {a : Action}

/-! ### Sessions -/

def boxedRead? : Event → Option Bytes
  | .readBoxed packet => some packet
  | _ => none

def boxedReads (log : List Event) : List Bytes := log.filterMap boxedRead?

def random? : Event → Option Bytes
  | .random bytes => some bytes
  | _ => none

def randoms (log : List Event) : List Bytes := log.filterMap random?

/-- A read of an encrypted packet: its vector, the secret, the packet, and what it holds. -/
abbrev AuthedPacket := BitVec 64 × Bytes × Bytes × Option Bytes

def authedRead? : Event → Option AuthedPacket
  | .readAuthed iv secret packet payload => some (iv, secret, packet, payload)
  | _ => none

def authedReads (log : List Event) : List AuthedPacket := log.filterMap authedRead?

def clientIvAt (i : ℕ) : BitVec 64 := BitVec.ofNat 64 (i + 1)

/-- The packets of a client, each with what it holds, as they are read one after another. -/
def numbered (secret : Bytes) (packets : List (Bytes × Bytes)) : List AuthedPacket :=
  packets.mapIdx fun i p => (clientIvAt i, secret, p.1, some p.2)

structure Session (E : Env) (log : List Event) (secret : Bytes) (packets : List (Bytes × Bytes)) :
    Prop where
  agreed : ∃ request bytes entity, boxedReads log = [request] ∧ randoms log = [bytes] ∧
    E.authorizedEntity (requestUuid request) = some entity ∧
    E.shortTermSecret E.agentdEncPrivkey entity.encryptionPubkey (randomKeyNonce E bytes)
      (requestKeyNonce E request) = .ok secret
  reads : authedReads log = numbered secret packets
  authentic : ∀ i p, packets[i]? = some p → E.authentic (clientIvAt i) secret p.1 = some p.2

def contextLeftOpen (log : List Event) : Bool :=
  log.foldl (fun isOpen e =>
    match e with
    | .contextOpen => true
    | .contextClose => false
    | _ => isOpen) false

/-- Every request was dispatched in a session, after the acknowledgement and as its last packet. -/
def Dispatched (E : Env) (log : List Event) : Prop :=
  ∀ before payload rest, log = before ++ .dispatch payload :: rest →
    ∃ secret ack packets packet, Session E before secret (ack :: packets ++ [(packet, payload)])

def ending : Stage → Bool
  | .handshake => false
  | .opening => false
  | .adding => false
  | .reading => false
  | .stopping => true
  | .gone => true

/-! ### The condition -/

/-- The status of an acknowledgement that cannot be read is not lost, and the messages that end a
connection are sent and answered. -/
def Sound (s : Connection) : Action → Prop
  | .handshake o => o.ack.left = none ∨ o.ackReclaim ≠ none
  | .openContext (.notReceived opened _) => opened = false
  | .shutdownWriter retval => retval = none
  | .release (.notSent _) => s.context.dataserviceContextOpened = false
  | _ => True

/-! ### Logs -/

theorem boxedReads_append (log log' : List Event) :
    boxedReads (log ++ log') = boxedReads log ++ boxedReads log' := List.filterMap_append

theorem randoms_append (log log' : List Event) :
    randoms (log ++ log') = randoms log ++ randoms log' := List.filterMap_append

theorem authedReads_append (log log' : List Event) :
    authedReads (log ++ log') = authedReads log ++ authedReads log' := List.filterMap_append

theorem contextLeftOpen_append_quiet {log l : List Event}
    (hl : ∀ e ∈ l, e ≠ .contextOpen ∧ e ≠ .contextClose) :
    contextLeftOpen (log ++ l) = contextLeftOpen log := by
  rw [contextLeftOpen, List.foldl_append]
  show l.foldl _ (contextLeftOpen log) = contextLeftOpen log
  generalize contextLeftOpen log = isOpen
  induction l with
  | nil => rfl
  | cons e l ih =>
    obtain ⟨hopen, hclose⟩ := hl e (List.mem_cons_self ..)
    have hrest := ih fun e he => hl e (List.mem_cons_of_mem _ he)
    cases e with
    | contextOpen => exact absurd rfl hopen
    | contextClose => exact absurd rfl hclose
    | readBoxed => exact hrest
    | writeBoxed => exact hrest
    | random => exact hrest
    | readAuthed => exact hrest
    | writeAuthed => exact hrest
    | dispatch => exact hrest

/-- What is added to a log after its last request. -/
theorem Dispatched.append {log l : List Event} (h : Dispatched E log)
    (hl : ∀ e ∈ l, ∀ payload, e ≠ .dispatch payload) : Dispatched E (log ++ l) := by
  intro before payload rest hsplit
  rcases List.append_eq_append_iff.mp hsplit with ⟨l₁, hbefore, hl₁⟩ | ⟨l₁, hlog, hl₁⟩
  · refine absurd rfl (hl (.dispatch payload) ?_ payload)
    rw [hl₁]
    exact List.mem_append_right _ (List.mem_cons_self ..)
  · cases l₁ with
    | nil =>
      refine absurd rfl (hl (.dispatch payload) ?_ payload)
      rw [List.nil_append] at hl₁
      rw [← hl₁]
      exact List.mem_cons_self ..
    | cons e l₁ =>
      rw [List.cons_append] at hl₁
      obtain ⟨rfl, -⟩ := List.cons.inj hl₁
      exact h before payload l₁ hlog

theorem Dispatched.dispatch {log : List Event} {secret payload packet : Bytes} {ack : Bytes × Bytes}
    {packets : List (Bytes × Bytes)} (h : Dispatched E log)
    (hsession : Session E log secret (ack :: packets ++ [(packet, payload)])) :
    Dispatched E (log ++ [.dispatch payload]) := by
  intro before payload' rest hsplit
  rcases List.append_eq_append_iff.mp hsplit with ⟨l₁, hbefore, hl₁⟩ | ⟨l₁, hlog, hl₁⟩
  · cases l₁ with
    | nil =>
      rw [List.nil_append] at hl₁
      rw [List.append_nil] at hbefore
      obtain ⟨hpayload, -⟩ := List.cons.inj hl₁
      obtain rfl := Event.dispatch.inj hpayload
      exact ⟨secret, ack, packets, packet, hbefore ▸ hsession⟩
    | cons e l₁ =>
      have hlength := congrArg List.length hl₁
      simp at hlength
  · cases l₁ with
    | nil =>
      rw [List.nil_append] at hl₁
      rw [List.append_nil] at hlog
      obtain ⟨hpayload, -⟩ := List.cons.inj hl₁
      obtain rfl := Event.dispatch.inj hpayload
      exact ⟨secret, ack, packets, packet, hlog ▸ hsession⟩
    | cons e l₁ =>
      rw [List.cons_append] at hl₁
      obtain ⟨rfl, -⟩ := List.cons.inj hl₁
      exact h before payload' l₁ hlog

/-- Events that neither read anything of the client nor draw random bytes. -/
def isUnread (e : Event) : Bool :=
  (boxedRead? e).isNone && (random? e).isNone && (authedRead? e).isNone

theorem Session.append {log l : List Event} {secret : Bytes} {packets : List (Bytes × Bytes)}
    (h : Session E log secret packets) (hl : ∀ e ∈ l, isUnread e = true) :
    Session E (log ++ l) secret packets := by
  have hnone : boxedReads l = [] ∧ randoms l = [] ∧ authedReads l = [] := by
    simp only [boxedReads, randoms, authedReads, List.filterMap_eq_nil_iff]
    refine ⟨?_, ?_, ?_⟩
    all_goals
      intro e he
      have hunread := hl e he
      simp only [isUnread, Bool.and_eq_true, Option.isNone_iff_eq_none] at hunread
    · exact hunread.1.1
    · exact hunread.1.2
    · exact hunread.2
  obtain ⟨hagreed, hreads, hauthentic⟩ := h
  refine ⟨?_, ?_, hauthentic⟩
  · rw [boxedReads_append, randoms_append, hnone.1, hnone.2.1, List.append_nil, List.append_nil]
    exact hagreed
  · rw [authedReads_append, hnone.2.2, List.append_nil]
    exact hreads

theorem Session.read {log : List Event} {secret packet payload : Bytes}
    {packets : List (Bytes × Bytes)} (h : Session E log secret packets)
    (hauthentic : E.authentic (clientIvAt packets.length) secret packet = some payload) :
    Session E (log ++ [.readAuthed (clientIvAt packets.length) secret packet (some payload)]) secret
      (packets ++ [(packet, payload)]) := by
  obtain ⟨hagreed, hreads, hall⟩ := h
  refine ⟨?_, ?_, ?_⟩
  · have hboxed : boxedReads
        [.readAuthed (clientIvAt packets.length) secret packet (some payload)] =
        [] := rfl
    have hrandom : randoms [.readAuthed (clientIvAt packets.length) secret packet (some payload)] =
        [] := rfl
    rw [boxedReads_append, randoms_append, hboxed, hrandom, List.append_nil, List.append_nil]
    exact hagreed
  · rw [authedReads_append, hreads, numbered, numbered, List.mapIdx_concat]
    rfl
  · intro i p hi
    by_cases hlast : i < packets.length
    · rw [List.getElem?_append_left hlast] at hi
      exact hall i p hi
    · rw [List.getElem?_append_right (by omega)] at hi
      obtain ⟨hzero, rfl⟩ : i - packets.length = 0 ∧ p = (packet, payload) := by
        cases hsub : i - packets.length with
        | zero =>
          rw [hsub] at hi
          exact ⟨rfl, (Option.some.inj hi).symm⟩
        | succ n =>
          rw [hsub] at hi
          cases hi
      have hindex : i = packets.length := by omega
      rw [hindex]
      exact hauthentic

/-! ### The handshake -/

def isExchange : Event → Bool
  | .readBoxed _ => true
  | .writeBoxed _ => true
  | .random _ => true
  | .readAuthed .. => true
  | .writeAuthed .. => true
  | .contextOpen => false
  | .contextClose => false
  | .dispatch _ => false

theorem isExchange_of_isPlain {e : Event} (he : isPlain e = true) : isExchange e = true := by
  cases e with
  | readBoxed => rfl
  | writeBoxed => rfl
  | random => rfl
  | readAuthed => rfl
  | writeAuthed => rfl
  | contextOpen => simp [isPlain] at he
  | contextClose => simp [isPlain] at he
  | dispatch => simp [isPlain] at he

theorem not_context_of_isExchange {e : Event} (he : isExchange e = true) :
    e ≠ .contextOpen ∧ e ≠ .contextClose := by
  refine ⟨?_, ?_⟩
  · rintro rfl
    cases he
  · rintro rfl
    cases he

theorem not_dispatch_of_isExchange {e : Event} (he : isExchange e = true) (payload : Bytes) :
    e ≠ .dispatch payload := by
  rintro rfl
  cases he

/-- Nothing of a client was decrypted before the first response. -/
theorem session_of_responded {request bytes payload : Bytes} {entity : Entity}
    (ht : Responded E request bytes payload entity t) : Session E t.log t.sharedSecret [] := by
  refine ⟨⟨request, bytes, entity, ?_, ?_, ht.agreed.known, ht.agreed.secret⟩, ?_, ?_⟩
  · rw [ht.log]
    rfl
  · rw [ht.log]
    rfl
  · rw [ht.log]
    rfl
  · intro i p hi
    cases hi

structure Acknowledged (E : Env) (k : Context) : Prop where
  session : ∃ ack, Session E k.log k.sharedSecret [ack]
  clientIv : k.clientIv = clientIvAt 1
  exchange : ∀ e ∈ k.log, isExchange e = true

theorem Acknowledged.write (hk : Acknowledged E k) (payload : Bytes) (w : AuthedWrite) :
    Acknowledged E (psockWriteAuthedData k payload w).1 := by
  obtain ⟨⟨ack, hsession⟩, hclientIv, hexchange⟩ := hk
  refine ⟨⟨ack, hsession.append (by simp [isUnread, boxedRead?, random?, authedRead?])⟩,
    hclientIv, ?_⟩
  intro e he
  rcases List.mem_append.mp he with hold | hnew
  · exact hexchange e hold
  · rw [List.mem_singleton.mp hnew]
    rfl

theorem Acknowledged.advance (hk : Acknowledged E k) : Acknowledged E (advanceServerIv k) :=
  ⟨hk.session, hk.clientIv, hk.exchange⟩

/-- A handshake that succeeds has read an acknowledgement that is authentic. -/
theorem handshake_acknowledged (hk : k.log = [])
    (hsound : o.ack.left = none ∨ o.ackReclaim ≠ none) :
    (∀ e ∈ (protocolHandleHandshake E o k).1.log, isExchange e = true) ∧
      ((protocolHandleHandshake E o k).2 = none →
        Acknowledged E (protocolHandleHandshake E o k).1) := by
  rcases handshake_cases (E := E) (o := o) hk with
    ⟨e, he, l, hlog, hl⟩ | ⟨t, request, bytes, payload, entity, ht, heq⟩
  · refine ⟨?_, fun hnone => by rw [he] at hnone; cases hnone⟩
    rw [hlog, hk, List.nil_append]
    exact fun e he => isExchange_of_isPlain (hl e he)
  · have hresponded : ∀ e ∈ t.log, isExchange e = true := by
      rw [ht.log]
      simp [isExchange]
    have hsession := session_of_responded ht
    rw [heq]
    rcases ack_cases (E := E) (o := o) t with ⟨ack, hauthentic, hack⟩ | ⟨retval, hretval, hack⟩
    · have hacknowledged : Acknowledged E (advanceClientIv (record t (.readAuthed t.clientIv
          t.sharedSecret o.ack.packet (some ack)))) := by
        have hiv : t.clientIv = clientIvAt 0 := ht.agreed.clientIv
        refine ⟨⟨(o.ack.packet, ack), ?_⟩, ?_, ?_⟩
        · rw [hiv] at hauthentic ⊢
          exact hsession.read hauthentic
        · simp only [advanceClientIv, record, hiv]
          decide
        · intro e he
          rcases List.mem_append.mp he with hold | hnew
          · exact hresponded e hold
          · rw [List.mem_singleton.mp hnew]
            rfl
      rw [hack]
      simp only [after]
      rcases ackResp_cases (o := o) (advanceClientIv (record t (.readAuthed t.clientIv
        t.sharedSecret o.ack.packet (some ack)))) with ⟨_, hresp⟩ | ⟨e, e', _, hresp⟩
      · rw [hresp]
        have hwritten := (hacknowledged.write (responsePayload handshakeAcknowledge 0 0)
          o.ackRespWrite).advance
        exact ⟨hwritten.exchange, fun _ => hwritten⟩
      · rw [hresp]
        have hwritten := ((hacknowledged.write (responsePayload handshakeAcknowledge 0 0)
          o.ackRespWrite).write (responsePayload handshakeAcknowledge e.val 0)
          o.ackRespErrorWrite).advance
        exact ⟨hwritten.exchange, fun hnone => by cases hnone⟩
    · cases retval with
      | none =>
        obtain ⟨hleft, hreclaim⟩ := hretval rfl
        rcases hsound with hnone | hsome
        · exact absurd hnone hleft
        · exact absurd hreclaim hsome
      | some e =>
        rw [hack]
        refine ⟨?_, fun hnone => by cases hnone⟩
        intro e he
        simp only [after, writeErrorResponseEncrypted, psockWriteAuthedData, advanceServerIv,
          record, List.mem_append, List.mem_singleton] at he
        rcases he with (hold | rfl) | rfl
        · exact hresponded e hold
        · rfl
        · rfl

/-! ### Runs -/

structure Invariant (E : Env) (s : Connection) : Prop where
  dispatched : Dispatched E s.context.log
  unused : s.stage = .handshake → s.context.log = []
  idle : s.stage ≠ .reading → ending s.stage = false → s.writing = false
  session : inSession s.stage = true → ∃ ack packets,
    Session E s.context.log s.context.sharedSecret (ack :: packets) ∧
      s.context.clientIv = clientIvAt (packets.length + 1)
  opened : s.released = false → contextLeftOpen s.context.log = true →
    s.context.dataserviceContextOpened = true
  closed : s.released = true → contextLeftOpen s.context.log = false ∧ s.stage = .gone ∧
    s.writing = false
  stopped : s.stage = .gone → s.writing = true → s.shutdown = true

theorem start_invariant : Invariant E start where
  dispatched before payload rest hsplit := by
    have hlength := congrArg List.length hsplit
    simp [start, newContext] at hlength
  unused _ := rfl
  idle _ _ := rfl
  session h := by simp [start, inSession] at h
  opened _ h := by simp [start, newContext, contextLeftOpen] at h
  closed h := by simp [start] at h
  stopped h := by simp [start] at h

theorem Invariant.unreleased (hs : Invariant E s) (h : s.stage ≠ .gone) : s.released = false := by
  cases hreleased : s.released with
  | false => rfl
  | true => exact absurd (hs.closed hreleased).2.1 h

theorem handshake_invariant (hs : Invariant E s) (henabled : s.stage = .handshake)
    (hsound : o.ack.left = none ∨ o.ackReclaim ≠ none) :
    Invariant E (next E s (.handshake o)) := by
  have hlog := hs.unused henabled
  have hunreleased := hs.unreleased (by rw [henabled]; decide)
  have hwriting : s.writing = false := hs.idle (by rw [henabled]; decide) (by rw [henabled]; rfl)
  obtain ⟨hexchange, hacknowledged⟩ := handshake_acknowledged (E := E) hlog hsound
  have hdispatched : Dispatched E (protocolHandleHandshake E o s.context).1.log := by
    have hempty : Dispatched E [] := by
      rw [← hlog]
      exact hs.dispatched
    exact hempty.append fun e he => not_dispatch_of_isExchange (hexchange e he)
  have hcontext : contextLeftOpen ([] ++ (protocolHandleHandshake E o s.context).1.log) = false :=
    contextLeftOpen_append_quiet fun e he => not_context_of_isExchange (hexchange e he)
  have hopened : contextLeftOpen (protocolHandleHandshake E o s.context).1.log = true →
      (protocolHandleHandshake E o s.context).1.dataserviceContextOpened = true := by
    intro h
    rw [List.nil_append, h] at hcontext
    cases hcontext
  cases hretval : (protocolHandleHandshake E o s.context).2 with
  | none =>
    obtain ⟨⟨ack, hsession⟩, hclientIv, _⟩ := hacknowledged hretval
    refine ⟨hdispatched, ?_, fun _ _ => hwriting, fun _ => ⟨ack, [], hsession, hclientIv⟩,
      fun _ => hopened, ?_, ?_⟩
    · simp [next, hretval, stageAfter]
    · simp [next, hunreleased]
    · simp [next, hretval, stageAfter]
  | some e =>
    refine ⟨hdispatched, ?_, fun _ _ => hwriting, ?_, fun _ => hopened, ?_, ?_⟩
    · simp [next, hretval, stageAfter]
    · simp [next, hretval, stageAfter, inSession]
    · simp [next, hunreleased]
    · simp [next, hwriting]

/-- A turn that ends the session. -/
theorem Invariant.stop (hs : Invariant E s) (henabled : s.stage = .reading) {l : List Event}
    (hl : ∀ e ∈ l, e ≠ .contextOpen ∧ e ≠ .contextClose ∧ ∀ payload, e ≠ .dispatch payload)
    (hlog : k.log = s.context.log ++ l)
    (hflag : k.dataserviceContextOpened = s.context.dataserviceContextOpened) :
    Invariant E { s with context := k, stage := .stopping } := by
  have hunreleased := hs.unreleased (by rw [henabled]; decide)
  refine ⟨?_, (fun h => by cases h), (fun _ h => by cases h), (fun h => by cases h), ?_, ?_,
    (fun h => by cases h)⟩
  · simp only [hlog]
    exact hs.dispatched.append fun e he => (hl e he).2.2
  · intro _ h
    simp only [hlog, contextLeftOpen_append_quiet fun e he => ⟨(hl e he).1, (hl e he).2.1⟩] at h
    simp only [hflag]
    exact hs.opened hunreleased h
  · intro h
    rw [hunreleased] at h
    cases h

theorem turn_invariant (o : TurnOutcome) (hs : Invariant E s) (henabled : s.stage = .reading) :
    Invariant E (next E s (.turn o)) := by
  have hunreleased := hs.unreleased (by rw [henabled]; decide)
  obtain ⟨ack, packets, hsession, hclientIv⟩ := hs.session (by rw [henabled]; rfl)
  have hopened := hs.opened hunreleased
  have hkeeps : ∀ l : List Event, (∀ e ∈ l, e ≠ .contextOpen ∧ e ≠ .contextClose) →
      contextLeftOpen (s.context.log ++ l) = true → s.context.dataserviceContextOpened = true := by
    intro l hl
    rw [contextLeftOpen_append_quiet hl]
    exact hopened
  rcases turn_cases (E := E) o s.context with
    ⟨e, heq⟩ | ⟨payload, e, _, heq⟩ | ⟨payload, retval, hauthentic, heq⟩
  · have hstop := hs.stop henabled (k := (protocolReadDecodeAndDispatchPacket E o s.context).1)
      (l := [.readAuthed s.context.clientIv s.context.sharedSecret o.read.packet none])
      (by simp) (by rw [heq]; rfl) (by rw [heq]; rfl)
    simpa only [next, heq, Option.isSome_some, Bool.true_or, if_true] using hstop
  · have hstop := hs.stop henabled (k := (protocolReadDecodeAndDispatchPacket E o s.context).1)
      (l := [.readAuthed s.context.clientIv s.context.sharedSecret o.read.packet (some payload)])
      (by simp) (by rw [heq]; rfl) (by rw [heq]; rfl)
    simpa only [next, heq, Option.isSome_some, Bool.true_or, if_true] using hstop
  · rw [hclientIv] at hauthentic
    have hread : Session E (s.context.log ++ [.readAuthed (clientIvAt (packets.length + 1))
        s.context.sharedSecret o.read.packet (some payload)]) s.context.sharedSecret
        (ack :: packets ++ [(o.read.packet, payload)]) := hsession.read hauthentic
    have hdispatched : Dispatched E (s.context.log ++ [.readAuthed (clientIvAt (packets.length + 1))
        s.context.sharedSecret o.read.packet (some payload)] ++ [.dispatch payload]) :=
      (hs.dispatched.append (by simp)).dispatch hread
    have hafter := hread.append (l := [.dispatch payload]) (by
      simp [isUnread, boxedRead?, random?, authedRead?])
    have hlog : (next E s (.turn o)).context.log = s.context.log ++
        [.readAuthed (clientIvAt (packets.length + 1)) s.context.sharedSecret o.read.packet
          (some payload)] ++ [.dispatch payload] := by
      simp only [next, heq, record, advanceClientIv, hclientIv]
    have hstage : (next E s (.turn o)).stage = .reading ∨
        (next E s (.turn o)).stage = .stopping := by
      simp only [next]
      split
      · exact Or.inr rfl
      · exact Or.inl rfl
    refine ⟨hlog ▸ hdispatched, ?_, ?_, ?_, ?_, ?_, ?_⟩
    · rcases hstage with hstage | hstage
      · simp [hstage]
      · simp [hstage]
    · rcases hstage with hstage | hstage
      · simp [hstage]
      · simp [hstage, ending]
    · intro _
      refine ⟨ack, packets ++ [(o.read.packet, payload)], ?_, ?_⟩
      · rw [hlog]
        simp only [next, heq, record, advanceClientIv]
        exact hafter
      · simp only [next, heq, record, advanceClientIv, hclientIv, clientIvAt, List.length_append,
          List.length_singleton]
        rw [BitVec.ofNat_add (packets.length + 1 + 1) 1]
        rfl
    · intro _ h
      rw [hlog, List.append_assoc] at h
      simp only [next, heq]
      exact hkeeps _ (by simp) h
    · simp [next, hunreleased]
    · rcases hstage with hstage | hstage
      · simp [hstage]
      · simp [hstage]

theorem contextLeftOpen_close (log : List Event) :
    contextLeftOpen (log ++ [.contextClose]) = false := by
  rw [contextLeftOpen, List.foldl_append]
  rfl

theorem recordOpen_log (opened : Bool) :
    ∃ l, (recordOpen k opened).log = k.log ++ l ∧ ∀ e ∈ l, e = .contextOpen := by
  cases opened with
  | true => exact ⟨[.contextOpen], rfl, by simp⟩
  | false => exact ⟨[], (List.append_nil _).symm, by simp⟩

/-- The request for a data service context adds nothing else to the log, and a context that is open
is known to be open. -/
theorem openContext_cases {o : OpenOutcome} (hsound : Sound s (.openContext o))
    (hopened : contextLeftOpen k.log = true → k.dataserviceContextOpened = true) :
    (∃ l, (requestDataServiceContext k o).1.log = k.log ++ l ∧ ∀ e ∈ l, e = .contextOpen) ∧
      (contextLeftOpen (requestDataServiceContext k o).1.log = true →
        (requestDataServiceContext k o).1.dataserviceContextOpened = true) ∧
      (requestDataServiceContext k o).1.sharedSecret = k.sharedSecret ∧
      (requestDataServiceContext k o).1.clientIv = k.clientIv := by
  cases o with
  | notSent e => exact ⟨⟨[], (List.append_nil _).symm, by simp⟩, hopened, rfl, rfl⟩
  | notReceived opened e =>
    obtain rfl : opened = false := hsound
    exact ⟨⟨[], (List.append_nil _).symm, by simp⟩, hopened, rfl, rfl⟩
  | received opened release =>
    refine ⟨recordOpen_log opened, fun _ => rfl, ?_, ?_⟩
    · cases opened with
      | true => rfl
      | false => rfl
    · cases opened with
      | true => rfl
      | false => rfl

theorem openContext_invariant {o : OpenOutcome} (hs : Invariant E s)
    (henabled : s.stage = .opening) (hsound : Sound s (.openContext o)) :
    Invariant E (next E s (.openContext o)) := by
  have hunreleased := hs.unreleased (by rw [henabled]; decide)
  have hwriting : s.writing = false := hs.idle (by rw [henabled]; decide) (by rw [henabled]; rfl)
  obtain ⟨ack, packets, hsession, hclientIv⟩ := hs.session (by rw [henabled]; rfl)
  obtain ⟨⟨l, hlog, hl⟩, hopened, hsecret, hiv⟩ :=
    openContext_cases hsound (hs.opened hunreleased)
  have hdispatched := hs.dispatched.append (l := l) fun e he payload => by
    rw [hl e he]
    exact Event.noConfusion
  have hafter := hsession.append (l := l) fun e he => by
    rw [hl e he]
    rfl
  rw [← hlog] at hdispatched hafter
  cases hretval : (requestDataServiceContext s.context o).2 with
  | none =>
    refine ⟨hdispatched, ?_, fun _ _ => hwriting, fun _ => ⟨ack, packets, ?_, ?_⟩,
      fun _ => hopened, ?_, ?_⟩
    · simp [next, hretval, stageAfter]
    · simp only [next, hsecret]
      exact hafter
    · simp only [next, hiv, hclientIv]
    · simp [next, hunreleased]
    · simp [next, hretval, stageAfter]
  | some e =>
    refine ⟨hdispatched, ?_, fun _ _ => hwriting, ?_, fun _ => hopened, ?_, ?_⟩
    · simp [next, hretval, stageAfter]
    · simp [next, hretval, stageAfter, inSession]
    · simp [next, hunreleased]
    · simp [next, hwriting]

theorem release_invariant {o : CloseOutcome} (hs : Invariant E s)
    (henabled : Enabled s (.release o)) (hsound : Sound s (.release o)) :
    Invariant E (next E s (.release o)) := by
  obtain ⟨hgone, hwriting, hunreleased⟩ := henabled
  have hclosed : ∀ h : s.context.dataserviceContextOpened = true,
      (closeDataServiceContext s.context o).1.log = s.context.log ++ [.contextClose] := by
    intro h
    cases o with
    | notSent e =>
      have hclosed : s.context.dataserviceContextOpened = false := hsound
      rw [hclosed] at h
      cases h
    | notReceived e => rfl
    | received release => rfl
  have hlog : (∃ l, (next E s (.release o)).context.log = s.context.log ++ l ∧
      ∀ e ∈ l, e = .contextClose) ∧
        contextLeftOpen (next E s (.release o)).context.log = false := by
    simp only [next]
    split
    · rename_i h
      rw [hclosed h]
      exact ⟨⟨[.contextClose], rfl, by simp⟩, contextLeftOpen_close _⟩
    · rename_i h
      refine ⟨⟨[], (List.append_nil _).symm, by simp⟩, ?_⟩
      cases hopen : contextLeftOpen s.context.log with
      | false => rfl
      | true => exact absurd (hs.opened hunreleased hopen) h
  obtain ⟨⟨l, hl, hclose⟩, hleft⟩ := hlog
  have hdispatched := hs.dispatched.append (l := l) fun e he payload => by
    rw [hclose e he]
    exact Event.noConfusion
  rw [← hl] at hdispatched
  refine ⟨hdispatched, ?_, ?_, ?_, ?_, fun _ => ⟨hleft, hgone, hwriting⟩, ?_⟩
  · simp [next, hgone]
  · simp [next, hgone, ending]
  · simp [next, hgone, inSession]
  · simp [next]
  · simp [next, hwriting]

theorem next_invariant (hs : Invariant E s) (henabled : Enabled s a) (hsound : Sound s a) :
    Invariant E (next E s a) := by
  cases a with
  | handshake o => exact handshake_invariant hs henabled hsound
  | openContext o => exact openContext_invariant hs henabled hsound
  | addWriter retval =>
    have hadding : s.stage = .adding := henabled
    have hunreleased := hs.unreleased (by rw [hadding]; decide)
    have hsession := hs.session (by rw [hadding]; rfl)
    cases retval with
    | none =>
      refine ⟨hs.dispatched, (fun h => by cases h), fun h => absurd rfl h, fun _ => hsession,
        hs.opened, ?_, (fun h => by cases h)⟩
      simp [next, hunreleased]
    | some e =>
      refine ⟨hs.dispatched, (fun h => by cases h), fun _ _ => rfl, (fun h => by cases h),
        hs.opened, ?_, (fun _ h => by cases h)⟩
      simp [next, hunreleased]
  | turn o => exact turn_invariant o hs henabled
  | shutdownWriter retval =>
    have hstopping : s.stage = .stopping := henabled
    have hunreleased := hs.unreleased (by rw [hstopping]; decide)
    obtain rfl : retval = none := hsound
    refine ⟨hs.dispatched, (fun h => by cases h), (fun _ h => by cases h), (fun h => by cases h),
      hs.opened, ?_, fun _ _ => rfl⟩
    simp [next, hunreleased]
  | write payload w =>
    have hwriting : s.writing = true := henabled
    have hstarted : s.stage = .reading ∨ ending s.stage = true := by
      by_cases hreading : s.stage = .reading
      · exact Or.inl hreading
      · cases hending : ending s.stage with
        | true => exact Or.inr rfl
        | false =>
          have hidle := hs.idle hreading hending
          rw [hidle] at hwriting
          cases hwriting
    have hdispatched : Dispatched E (next E s (.write payload w)).context.log :=
      hs.dispatched.append (by simp)
    have hcontext : contextLeftOpen (next E s (.write payload w)).context.log =
        contextLeftOpen s.context.log := contextLeftOpen_append_quiet (by simp)
    refine ⟨hdispatched, ?_, ?_, ?_, ?_, ?_, ?_⟩
    · intro h
      rcases hstarted with hreading | hending
      · exact absurd (hreading.symm.trans h) (by decide)
      · exact absurd hending (by rw [show s.stage = .handshake from h]; decide)
    · intro hreading hending
      rcases hstarted with h | h
      · exact absurd h hreading
      · exact absurd h (by rw [show ending s.stage = false from hending]; decide)
    · intro h
      obtain ⟨ack, packets, hsession, hclientIv⟩ := hs.session h
      exact ⟨ack, packets, hsession.append (by simp [isUnread, boxedRead?, random?, authedRead?]),
        hclientIv⟩
    · rw [hcontext]
      exact hs.opened
    · intro h
      have hnotWriting := (hs.closed h).2.2
      rw [hnotWriting] at hwriting
      cases hwriting
    · intro hgone _
      exact hs.stopped hgone hwriting
  | writerFails =>
    refine ⟨hs.dispatched, hs.unused, fun _ _ =>
      rfl, hs.session, hs.opened, ?_, (fun _ h => by cases h)⟩
    exact fun h => ⟨(hs.closed h).1, (hs.closed h).2.1, rfl⟩
  | writerStops =>
    refine ⟨hs.dispatched, hs.unused, fun _ _ =>
      rfl, hs.session, hs.opened, ?_, (fun _ h => by cases h)⟩
    exact fun h => ⟨(hs.closed h).1, (hs.closed h).2.1, rfl⟩
  | release o => exact release_invariant hs henabled hsound

theorem run_invariant (hrun : Run E Sound s) : Invariant E s := by
  induction hrun with
  | start => exact start_invariant
  | tail before enabled meets ih => exact next_invariant ih enabled meets

/-! ### Connections that end -/

def isDispatch : Event → Bool
  | .dispatch _ => true
  | _ => false

def dispatches (log : List Event) : ℕ := log.countP isDispatch

def isWrite : Action → Bool
  | .write _ _ => true
  | _ => false

def isStopping : Stage → Bool
  | .stopping => true
  | _ => false

def distance (s : Connection) : ℕ :=
  (isStopping s.stage).toNat + s.writing.toNat + (!s.released).toNat

/-- Once out of its session a connection dispatches nothing, it gets closer to its end with every
step but the writes that are still due, and it is not stuck before it has been released. -/
structure Ends (E : Env) (s : Connection) : Prop where
  step : ∀ a, Enabled s a → ending (next E s a).stage = true ∧
    dispatches (next E s a).context.log = dispatches s.context.log ∧
    (distance (next E s a) < distance s ∨ isWrite a = true ∧ distance (next E s a) ≤ distance s)
  progress : s.released = false → ∃ a, isWrite a = false ∧ Enabled s a ∧ Sound s a

theorem dispatches_append {log l : List Event} (hl : ∀ e ∈ l, isDispatch e = false) :
    dispatches (log ++ l) = dispatches log := by
  have hzero : l.countP isDispatch = 0 := List.countP_eq_zero.mpr fun e he => by simp [hl e he]
  rw [dispatches, List.countP_append, hzero, Nat.add_zero]
  rfl

theorem ending_cases (h : ending s.stage = true) : s.stage = .stopping ∨ s.stage = .gone := by
  revert h
  cases s.stage with
  | stopping => exact fun _ => Or.inl rfl
  | gone => exact fun _ => Or.inr rfl
  | handshake => exact fun h => by cases h
  | opening => exact fun h => by cases h
  | adding => exact fun h => by cases h
  | reading => exact fun h => by cases h

theorem ending_step (h : ending s.stage = true) (henabled : Enabled s a) :
    ending (next E s a).stage = true ∧
      dispatches (next E s a).context.log = dispatches s.context.log ∧
      (distance (next E s a) < distance s ∨
        isWrite a = true ∧ distance (next E s a) ≤ distance s) := by
  have hnot : ∀ {stage : Stage}, s.stage = stage → ending stage = false → False := by
    intro stage hstage hending
    rw [hstage, hending] at h
    cases h
  cases a with
  | handshake o => exact (hnot henabled rfl).elim
  | openContext o => exact (hnot henabled rfl).elim
  | addWriter retval => exact (hnot henabled rfl).elim
  | turn o => exact (hnot henabled rfl).elim
  | shutdownWriter retval =>
    have hstage : s.stage = .stopping := henabled
    refine ⟨rfl, rfl, Or.inl ?_⟩
    simp only [distance, next, hstage, isStopping, Bool.toNat_true, Bool.toNat_false]
    omega
  | write payload w =>
    have hwriting : s.writing = true := henabled
    refine ⟨h, dispatches_append (by simp [isDispatch]), Or.inr ⟨rfl, ?_⟩⟩
    have hle := Bool.toNat_le (psockWriteAuthedData s.context payload w).2.isNone
    simp only [distance, next, hwriting, Bool.toNat_true]
    omega
  | writerFails =>
    have hwriting : s.writing = true := henabled
    refine ⟨h, rfl, Or.inl ?_⟩
    simp only [distance, next, hwriting, Bool.toNat_true, Bool.toNat_false]
    omega
  | writerStops =>
    have hwriting : s.writing = true := henabled.1
    refine ⟨h, rfl, Or.inl ?_⟩
    simp only [distance, next, hwriting, Bool.toNat_true, Bool.toNat_false]
    omega
  | release o =>
    obtain ⟨hgone, hwriting, hunreleased⟩ := henabled
    refine ⟨h, ?_, Or.inl ?_⟩
    · simp only [next]
      split
      · cases o with
        | notSent e => rfl
        | notReceived e => exact dispatches_append (by simp [isDispatch])
        | received release => exact dispatches_append (by simp [isDispatch])
      · rfl
    · simp only [distance, next, hunreleased, Bool.not_true, Bool.not_false, Bool.toNat_true,
        Bool.toNat_false]
      omega

theorem Invariant.ends (hs : Invariant E s) (h : ending s.stage = true) : Ends E s := by
  refine ⟨fun a henabled => ending_step h henabled, ?_⟩
  intro hunreleased
  rcases ending_cases h with hstopping | hgone
  · exact ⟨.shutdownWriter none, rfl, hstopping, rfl⟩
  · cases hwriting : s.writing with
    | true => exact ⟨.writerStops, rfl, ⟨hwriting, hs.stopped hgone hwriting⟩, trivial⟩
    | false => exact ⟨.release (.received none), rfl, ⟨hgone, hwriting, hunreleased⟩, trivial⟩

/-- Requests are dispatched in authenticated sessions only, every other connection has ended its
session or has not begun one, and a connection that is released has no data service context. -/
structure Authenticated (E : Env) (s : Connection) : Prop where
  dispatched : Dispatched E s.context.log
  session : inSession s.stage = true → ∃ secret ack packets,
    Session E s.context.log secret (ack :: packets)
  ends : ending s.stage = true → Ends E s
  closed : s.released = true → contextLeftOpen s.context.log = false

theorem only_authenticated_connections_dispatch (hrun : Run E Sound s) : Authenticated E s := by
  have hs := run_invariant hrun
  refine ⟨hs.dispatched, ?_, hs.ends, fun h => (hs.closed h).1⟩
  intro h
  obtain ⟨ack, packets, hsession, _⟩ := hs.session h
  exact ⟨_, ack, packets, hsession⟩

def endedActions : List Action :=
  [.handshake clientHandshake, .openContext (.received true none), .addWriter none,
    .turn (clientTurn 2 [0, 0, 0, 2, 0, 0, 0, 0]), .turn (clientTurn 4 []), .shutdownWriter none,
    .writerStops, .release (.received none)]

def ended : Connection := endedActions.foldl (next plainEnv) start

theorem ended_is_authenticated :
    (dispatches ended.context.log = 1 ∧ ended.released = true) ∧ Authenticated plainEnv ended := by
  have hallowed : Allowed plainEnv Sound start endedActions := by
    refine ⟨rfl, Or.inl rfl, ?_, trivial, ?_, trivial, ?_, trivial, ?_, trivial, ?_, rfl, ?_,
      trivial, ?_, trivial, trivial⟩
    all_goals decide +kernel
  exact ⟨by decide +kernel,
    only_authenticated_connections_dispatch (run_of_allowed .start hallowed)⟩

/-- The acknowledgement is not authentic, but its read leaves something that is reclaimed. -/
def unacknowledgedActions : List Action :=
  [.handshake { clientHandshake with ack := ⟨[0], none, some []⟩ },
    .openContext (.received true none), .addWriter none,
    .turn (clientTurn 1 [0, 0, 0, 2, 0, 0, 0, 0])]

def unacknowledged : Connection := unacknowledgedActions.foldl (next plainEnv) start

theorem unacknowledged_request_is_dispatched :
    ¬ ∀ s : Connection, Run plainEnv (fun _ _ => True) s → Authenticated plainEnv s := by
  intro hall
  have hallowed : Allowed plainEnv (fun _ _ => True) start unacknowledgedActions := by
    refine ⟨rfl, trivial, ?_, trivial, ?_, trivial, ?_, trivial, trivial⟩
    all_goals decide +kernel
  obtain ⟨secret, ack, packets, hsession⟩ :=
    (hall unacknowledged (run_of_allowed .start hallowed)).session (by decide +kernel)
  have hfirst : (authedReads unacknowledged.context.log)[0]? =
      some (1, [9, 2, 3], [0], none) := by decide +kernel
  rw [hsession.reads] at hfirst
  have hpayload := congrArg (Option.map fun p : AuthedPacket => p.2.2.2) hfirst
  simp [numbered] at hpayload

end SessionAuthentication
