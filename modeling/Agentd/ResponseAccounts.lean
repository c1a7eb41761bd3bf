import Agentd.ClientRequests

/-! # Accounts of the write fibers

How many responses with a request id and an offset are on their way in the messages for a write
fiber, and how many assertions with them wait in the notification endpoint. What the endpoint does
between two requests moves them from one account to the other and loses none. -/
namespace ResponseAccounts

open DataserviceRecords
open DataEndpoint
open NotificationEndpoint
open AssertionTrips
open ClientProtocol
open ClientRequests (Carried)

variable {n : ℕ} {L : Library} {home : Fin n} {s t : System n} {c d : ℕ} {h : Header}

/-! ### Counting -/

def hit (a b : Header) : ℕ := if a = b then 1 else 0

def headerFor (L : Library) (m : WriteMessage) : Option Header :=
  (packetFor L m).map responseHeader

def messages (s : System n) (c : ℕ) : List WriteMessage :=
  (s.connection c).hand.toList ++ (s.returnBox c).getD []

def queued (L : Library) (s : System n) (c : ℕ) (h : Header) : ℕ :=
  (messages s c).countP (headerFor L · = some h)

def entryHit (entry : Option XlatEntry) (h : Header) : ℕ :=
  match entry with
  | none => 0
  | some e => hit (reqIdAssertLatestBlockId, e.clientOffset) h

/-- An assertion before the endpoint has taken it, and one in its maps. -/
def pendingAssertion (s : System n) (c : ℕ) (h : Header) : ℕ :=
  s.inbox.countP (fun r => r.replyAddr = c ∧ (reqIdAssertLatestBlockId, r.reqOffset) = h) +
    entryHit (s.clientXlatMap c) h

def sentHit (L : Library) (d : ℕ) (m : WriteMessage) (c : ℕ) (h : Header) : ℕ :=
  if c = d ∧ headerFor L m = some h then 1 else 0

theorem messages_messageSend (hopen : (s.returnBox d).isSome = true) (m : WriteMessage) (c : ℕ) :
    messages (messageSend s d m) c = messages s c ++ if c = d then [m] else [] := by
  obtain ⟨box, hbox⟩ := Option.isSome_iff_exists.mp hopen
  by_cases hc : c = d
  · rw [hc]
    simp [messages, messageSend, hbox]
  · simp [messages, messageSend, hc]

theorem queued_messageSend (hopen : (s.returnBox d).isSome = true) (m : WriteMessage) :
    queued L (messageSend s d m) c h = queued L s c h + sentHit L d m c h := by
  rw [queued, messages_messageSend hopen, List.countP_append, ← queued, sentHit]
  by_cases hc : c = d
  · simp [hc, List.countP_singleton]
  · simp [hc]

theorem queued_congr (hmessages : messages t c = messages s c) :
    queued L t c h = queued L s c h := by
  rw [queued, queued, hmessages]

theorem accounts_congr (hmessages : messages t c = messages s c)
    (hpending : pendingAssertion t c h = pendingAssertion s c h) :
    queued L t c h + pendingAssertion t c h = queued L s c h + pendingAssertion s c h := by
  rw [queued_congr hmessages, hpending]

/-! ### The endpoint without cancels -/

/-- What holds of the endpoint in runs in which no cancel is passed on to it. -/
structure Uncancelled (L : Library) (home : Fin n) (s : System n) : Prop where
  trips : Inv s
  noCancel : ∀ r ∈ s.inbox, r.cancel = false
  assertionsOnly : ∀ r ∈ s.requests, r.method = .blockAssertion
  noCancellation : ∀ r ∈ responsesTo home s.service.log, r.method ≠ .blockAssertionCancel
  absent : ∀ c, (s.connection c).protocol = .absent →
    (s.connection c).hand = none ∧ s.returnBox c = none
  writes : ∀ c, live (s.connection c).protocol = true → (s.connection c).writing = true ∧
    ∀ m ∈ messages s c, (packetFor L m).isSome = true

structure Keeps (L : Library) (s t : System n) : Prop where
  accounts : ∀ c h, (t.connection c).protocol ≠ .gone →
    queued L t c h + pendingAssertion t c h = queued L s c h + pendingAssertion s c h
  stays : ∀ c, (t.connection c).protocol ≠ .gone → (s.connection c).protocol ≠ .gone
  opens : ∀ c, (s.returnBox c).isSome = true → (t.returnBox c).isSome = true

theorem uncancelled_start (L : Library) (home : Fin n) : Uncancelled L home (start n) := by
  constructor
  · exact inv_start n
  · intro r hr
    cases hr
  · intro r hr
    cases hr
  · intro r hr
    cases hr
  · intro c _
    exact ⟨rfl, rfl⟩
  · intro c hlive
    cases hlive

theorem mem_messages_messageSend {m m' : WriteMessage} (hm : m' ∈ messages (messageSend s d m) c) :
    m' ∈ messages s c ∨ m' = m := by
  by_cases hc : c = d
  · subst hc
    cases hbox : s.returnBox c with
    | none =>
      simp only [messages, messageSend, Function.update_self, hbox, Option.map_none] at hm
      exact Or.inl (by simpa [messages, hbox] using hm)
    | some box =>
      rw [messages_messageSend (by rw [hbox]; rfl), if_pos rfl, List.mem_append,
        List.mem_singleton] at hm
      exact hm
  · simp only [messages, messageSend, Function.update_of_ne hc] at hm
    exact Or.inl hm

/-- A packet or an answer of the data service that is sent to a connection. -/
theorem Uncancelled.messageSend (hs : Uncancelled L home s) {m : WriteMessage}
    (hnotice : isNotice m = false) (hpacket : (packetFor L m).isSome = true) (d : ℕ) :
    Uncancelled L home (messageSend s d m) := by
  obtain ⟨htrips, hcancel, hassert, hcancellation, habsent, hwrites⟩ := hs
  refine ⟨htrips.moves (moves_messageSend (a := .take) htrips hnotice d), hcancel, hassert,
    hcancellation, ?_, ?_⟩
  · intro c hc
    obtain ⟨hhand, hbox⟩ := habsent c hc
    refine ⟨hhand, ?_⟩
    by_cases hd : c = d
    · subst hd
      simp [NotificationEndpoint.messageSend, hbox]
    · simp [NotificationEndpoint.messageSend, hd, hbox]
  · intro c hlive
    refine ⟨(hwrites c hlive).1, ?_⟩
    intro m' hm'
    rcases mem_messages_messageSend hm' with hm | rfl
    · exact (hwrites c hlive).2 m' hm
    · exact hpacket

/-! ### Steps of the endpoint -/

structure Apart (s t : System n) : Prop where
  hand : ∀ c, (t.connection c).hand = (s.connection c).hand
  writing : ∀ c, (t.connection c).writing = (s.connection c).writing
  live : ∀ c, live (t.connection c).protocol = live (s.connection c).protocol
  absent : ∀ c, (t.connection c).protocol = .absent → (s.connection c).protocol = .absent
  stays : ∀ c, (t.connection c).protocol ≠ .gone → (s.connection c).protocol ≠ .gone
  returnBox : t.returnBox = s.returnBox
  inbox : t.inbox = s.inbox
  clientXlatMap : t.clientXlatMap = s.clientXlatMap

theorem Apart.messages (hapart : Apart s t) (c : ℕ) : messages t c = messages s c := by
  rw [ResponseAccounts.messages, ResponseAccounts.messages, hapart.hand, hapart.returnBox]

theorem Apart.keeps (hapart : Apart s t) : Keeps L s t := by
  refine ⟨?_, hapart.stays, ?_⟩
  · intro c h _
    rw [queued_congr (hapart.messages c), pendingAssertion, pendingAssertion, hapart.inbox,
      hapart.clientXlatMap]
  · intro c hc
    rw [hapart.returnBox]
    exact hc

theorem Apart.uncancelled (hapart : Apart s t) (hs : Uncancelled L home s) (htrips : Inv t)
    (hrequests : ∀ r ∈ t.requests, r.method = .blockAssertion)
    (hlog : ∀ r ∈ responsesTo home t.service.log, r.method ≠ .blockAssertionCancel) :
    Uncancelled L home t := by
  refine ⟨htrips, ?_, hrequests, hlog, ?_, ?_⟩
  · rw [hapart.inbox]
    exact hs.noCancel
  · intro c hc
    rw [hapart.hand, hapart.returnBox]
    exact hs.absent c (hapart.absent c hc)
  · intro c hlive
    rw [hapart.live] at hlive
    rw [hapart.writing, hapart.messages]
    exact hs.writes c hlive

/-- The endpoint and the notification service have nothing to do with it. -/
def Aside (s t : System n) : Prop :=
  Apart s t ∧ t.requests = s.requests ∧ t.service = s.service

theorem Aside.carries (haside : Aside s t) (hs : Uncancelled L home s) (htrips : Inv t) :
    Uncancelled L home t ∧ Keeps L s t := by
  obtain ⟨hapart, hrequests, hservice⟩ := haside
  refine ⟨hapart.uncancelled hs htrips ?_ ?_, hapart.keeps⟩
  · rw [hrequests]
    exact hs.assertionsOnly
  · rw [hservice]
    exact hs.noCancellation

theorem aside_resumeDispatch (box : List AssertionReply) : Aside s (resumeDispatch s c box) := by
  have hset : ∀ p f o o', live p = live (s.connection c).protocol → p ≠ .absent →
      (s.connection c).protocol ≠ .gone → ∀ rest, Aside s (setConnection
        { s with fiberBox := Function.update s.fiberBox c (some rest) } c
        ⟨p, (s.connection c).writing, (s.connection c).hand, f, o, o'⟩) := by
    intro p f o o' hlive habsent hgone rest
    refine ⟨?_, rfl, rfl⟩
    constructor
    · intro d
      by_cases hd : d = c
      · simp [setConnection, hd]
      · simp [setConnection, hd]
    · intro d
      by_cases hd : d = c
      · simp [setConnection, hd]
      · simp [setConnection, hd]
    · intro d
      by_cases hd : d = c
      · simp [setConnection, hd, hlive]
      · simp [setConnection, hd]
    · intro d
      by_cases hd : d = c
      · simp [setConnection, hd, habsent]
      · simp [setConnection, hd]
    · intro d
      by_cases hd : d = c
      · intro _
        rw [hd]
        exact hgone
      · simp [setConnection, hd]
    · rfl
    · rfl
    · rfl
  have hsame : ∀ fiberBox, Aside s { s with fiberBox := fiberBox } :=
    fun _ => ⟨⟨fun _ => rfl, fun _ => rfl, fun _ => rfl, fun _ hc => hc, fun _ hc => hc, rfl, rfl,
      rfl⟩, rfl, rfl⟩
  cases box with
  | nil => exact hsame s.fiberBox
  | cons r rest =>
    cases hprotocol : (s.connection c).protocol with
    | asserting offset =>
      simp only [resumeDispatch, hprotocol]
      exact hset _ _ _ _ (by rw [hprotocol]; rfl) (by simp) (by simp [hprotocol]) rest
    | cancelling =>
      simp only [resumeDispatch, hprotocol]
      exact hset _ _ _ _ (by rw [hprotocol]; rfl) (by simp) (by simp [hprotocol]) rest
    | absent =>
      simp only [resumeDispatch, hprotocol]
      exact hsame _
    | reading =>
      simp only [resumeDispatch, hprotocol]
      exact hsame _
    | gone =>
      simp only [resumeDispatch, hprotocol]
      exact hsame _

theorem aside_sendReply (reply : Option (ℕ × AssertionReply)) : Aside s (sendReply s reply) := by
  have hsame : ∀ replying fiberBox runs, Aside s { s with
      replying := replying, fiberBox := fiberBox, endpointRuns := runs } :=
    fun _ _ _ => ⟨⟨fun _ => rfl, fun _ => rfl, fun _ => rfl, fun _ hc => hc, fun _ hc => hc, rfl,
      rfl, rfl⟩, rfl, rfl⟩
  cases reply with
  | none => exact hsame s.replying s.fiberBox s.endpointRuns
  | some r =>
    rw [sendReply]
    split
    · exact hsame none _ s.endpointRuns
    · exact hsame none s.fiberBox false

/-- What the notification service sends to the endpoint is no cancellation when it was asked for
none. -/
theorem noCancellation_step {service service' : NotificationFibers.Service n}
    {a : NotificationFibers.Action n}
    (hs : ∀ r ∈ responsesTo home service.log, r.method ≠ .blockAssertionCancel)
    (ha : ∀ r f, a = .request home r f → r.method ≠ .blockAssertionCancel)
    (hstep : NotificationFibers.step service a = some service') :
    ∀ r ∈ responsesTo home service'.log, r.method ≠ .blockAssertionCancel := by
  have hnew : ∀ log, (∀ r ∈ responsesTo home log, r.method ≠ .blockAssertionCancel) →
      ∀ (j : Fin n) (r : NotificationFibers.Response) (about via : ℕ),
      (j = home → r.method ≠ .blockAssertionCancel) →
      ∀ q ∈ responsesTo home (log ++ [.response j r about via]),
        q.method ≠ .blockAssertionCancel := by
    intro log hlog j r about via hr q hq
    rw [responsesTo, List.filterMap_append, List.mem_append] at hq
    rcases hq with hq | hq
    · exact hlog q hq
    · by_cases hj : j = home
      · have hqr : q = r := by simpa [hj] using hq
        rw [hqr]
        exact hr hj
      · simp [hj] at hq
  have harrive : ∀ (j : Fin n) r,
      ∀ q ∈ responsesTo home (NotificationFibers.arrive service j r).log,
      q.method ≠ .blockAssertionCancel := by
    intro j r q hq
    apply hs q
    simpa [NotificationFibers.arrive, responsesTo] using hq
  have hfinish : ∀ (service : NotificationFibers.Service n) (j : Fin n) number
      (r : NotificationFibers.Response) fails,
      (∀ q ∈ responsesTo home service.log, q.method ≠ .blockAssertionCancel) →
      (j = home → r.method ≠ .blockAssertionCancel) →
      ∀ q ∈ responsesTo home (NotificationFibers.finish service j number r fails).log,
        q.method ≠ .blockAssertionCancel := by
    intro service j number r fails hlog hr
    cases fails with
    | true => exact hlog
    | false => exact hnew service.log hlog j r number number hr
  obtain ⟨-, hmove⟩ := NotificationFibers.step_move hstep
  cases hmove with
  | refuses hfiber hstatus =>
    apply hfinish _ _ _ _ _ (harrive _ _)
    rintro rfl
    exact ha _ _ rfl
  | reduces caps hfiber hmethod => exact hfinish _ _ _ _ _ (harrive _ _) (by simp)
  | swapFails hfiber hmethod hswap => exact hfinish _ _ _ _ _ (harrive _ _) (by simp)
  | takes hfiber hmethod => exact harrive _ _
  | invalidates hfiber hmethod hother =>
    exact hfinish _ _ _ _ _ (harrive _ _) (by simp [NotificationFibers.invalidation])
  | waits hfiber hmethod hlatest hfree => exact harrive _ _
  | cancels hfiber hmethod hcap hpayload =>
    apply hfinish _ _ _ _ _ (harrive _ _)
    rintro rfl
    exact absurd hmethod (ha _ _ rfl)
  | finishes hfiber => exact hfinish _ _ _ _ _ hs (by simp)
  | dangles hfiber hreleased => exact hs
  | sendFails hfiber hsend => exact hfinish _ _ _ _ _ hs (by simp)
  | reaches hfiber halive => exact hnew _ hs _ _ _ _ (by simp [NotificationFibers.invalidation])
  | closes hfiber => exact hs

theorem carries_connect (hs : Uncancelled L home s)
    (hprotocol : (s.connection c).protocol = .absent)
    (htrips : Inv (next home s (.connect c))) :
    Uncancelled L home (next home s (.connect c)) ∧ Keeps L s (next home s (.connect c)) := by
  obtain ⟨hhand, hbox⟩ := hs.absent c hprotocol
  have hmessages : ∀ d, messages (next home s (.connect c)) d = messages s d := by
    intro d
    by_cases hd : d = c
    · subst hd
      simp [messages, next, setConnection, newConnection, hhand, hbox]
    · simp [messages, next, setConnection, hd]
  have hother : ∀ d, d ≠ c → (next home s (.connect c)).connection d = s.connection d :=
    fun d hd => Function.update_of_ne hd ..
  refine ⟨⟨htrips, hs.noCancel, hs.assertionsOnly, hs.noCancellation, ?_, ?_⟩, ?_, ?_, ?_⟩
  · intro d habsent
    by_cases hd : d = c
    · subst hd
      simp [next, setConnection, newConnection] at habsent
    · rw [hother d hd] at habsent ⊢
      simpa [next, setConnection, hd] using hs.absent d habsent
  · intro d hlive
    rw [hmessages]
    by_cases hd : d = c
    · subst hd
      refine ⟨by simp [next, setConnection, newConnection], ?_⟩
      simp [messages, hhand, hbox]
    · rw [hother d hd] at hlive ⊢
      exact hs.writes d hlive
  · intro d h _
    rw [queued_congr (hmessages d)]
    rfl
  · intro d hgone
    by_cases hd : d = c
    · rw [hd, hprotocol]
      simp
    · rw [hother d hd] at hgone
      exact hgone
  · intro d hd
    by_cases hdc : d = c
    · subst hdc
      simp [next, setConnection]
    · simpa [next, setConnection, hdc] using hd

/-- The message that tells the write fiber to stop is no response. -/
theorem carries_leave (hs : Uncancelled L home s) (hprotocol : (s.connection c).protocol = .reading)
    (htrips : Inv (next home s (.leave c))) :
    Uncancelled L home (next home s (.leave c)) ∧ Keeps L s (next home s (.leave c)) := by
  have hself : ((next home s (.leave c)).connection c).protocol = .gone := by
    simp [next, messageSend, setConnection]
  have hother : ∀ d, d ≠ c → (next home s (.leave c)).connection d = s.connection d :=
    fun d hd => Function.update_of_ne hd ..
  have hbox : ∀ d, d ≠ c → (next home s (.leave c)).returnBox d = s.returnBox d :=
    fun d hd => Function.update_of_ne hd ..
  refine ⟨⟨htrips, hs.noCancel, hs.assertionsOnly, hs.noCancellation, ?_, ?_⟩, ?_, ?_, ?_⟩
  · intro d habsent
    have hd : d ≠ c := by
      rintro rfl
      rw [hself] at habsent
      cases habsent
    rw [hother d hd, hbox d hd]
    rw [hother d hd] at habsent
    exact hs.absent d habsent
  · intro d hlive
    have hd : d ≠ c := by
      rintro rfl
      rw [hself] at hlive
      cases hlive
    rw [messages, hbox d hd]
    rw [hother d hd] at hlive ⊢
    exact hs.writes d hlive
  · intro d h hgone
    have hd : d ≠ c := by
      rintro rfl
      exact hgone hself
    have hmessages : messages (next home s (.leave c)) d = messages s d := by
      rw [messages, messages, hother d hd, hbox d hd]
    rw [queued_congr hmessages]
    rfl
  · intro d hgone
    have hd : d ≠ c := by
      rintro rfl
      exact hgone hself
    rw [hother d hd] at hgone
    exact hgone
  · intro d hd
    by_cases hdc : d = c
    · subst hdc
      simpa [next, messageSend, setConnection] using hd
    · rw [hbox d hdc]
      exact hd

/-- A message that a write fiber takes in its hand is still the first of its messages. -/
theorem carries_receive (hs : Uncancelled L home s) (hhand : (s.connection c).hand = none)
    (htrips : Inv (next home s (.receive c))) :
    Uncancelled L home (next home s (.receive c)) ∧ Keeps L s (next home s (.receive c)) := by
  rw [next] at htrips ⊢
  cases hbox : (s.returnBox c).getD [] with
  | nil => exact ⟨hs, fun _ _ _ => rfl, fun _ hc => hc, fun _ hc => hc⟩
  | cons m rest =>
    have hsome : s.returnBox c = some (m :: rest) := by
      cases hreturn : s.returnBox c with
      | none => simp [hreturn] at hbox
      | some box => simpa [hreturn] using hbox
    rw [hbox] at htrips
    have hmessages : ∀ d, messages (receiveMessage s c (m :: rest)) d = messages s d := by
      intro d
      by_cases hd : d = c
      · subst hd
        simp [messages, receiveMessage, setConnection, hhand, hsome]
      · simp [messages, receiveMessage, setConnection, hd]
    have hconnection : ∀ d, ((receiveMessage s c (m :: rest)).connection d).protocol =
        (s.connection d).protocol ∧ ((receiveMessage s c (m :: rest)).connection d).writing =
        (s.connection d).writing := by
      intro d
      by_cases hd : d = c
      · subst hd
        simp [receiveMessage, setConnection]
      · simp [receiveMessage, setConnection, hd]
    refine ⟨⟨htrips, hs.noCancel, hs.assertionsOnly, hs.noCancellation, ?_, ?_⟩, ?_, ?_, ?_⟩
    · intro d habsent
      rw [(hconnection d).1] at habsent
      have hd : d ≠ c := by
        rintro rfl
        have hnone := (hs.absent d habsent).2
        rw [hsome] at hnone
        cases hnone
      simpa [receiveMessage, setConnection, hd] using hs.absent d habsent
    · intro d hlive
      rw [(hconnection d).1] at hlive
      rw [(hconnection d).2, hmessages]
      exact hs.writes d hlive
    · intro d h _
      rw [queued_congr (hmessages d)]
      rfl
    · intro d hgone
      rw [(hconnection d).1] at hgone
      exact hgone
    · intro d hd
      by_cases hdc : d = c
      · subst hdc
        simp [receiveMessage, setConnection]
      · simpa [receiveMessage, setConnection, hdc] using hd

/-- An assertion that is taken goes from the inbox to the maps. -/
theorem carries_take (hs : Uncancelled L home s) (hsafe : Safe home s .take)
    (htrips : Inv (next home s .take)) :
    Uncancelled L home (next home s .take) ∧ Keeps L s (next home s .take) := by
  rw [next] at htrips ⊢
  cases hinbox : s.inbox with
  | nil => exact ⟨hs, fun _ _ _ => rfl, fun _ hc => hc, fun _ hc => hc⟩
  | cons r rest =>
    have hcancel : r.cancel = false := hs.noCancel r (by simp [hinbox])
    have hclient := hs.trips.free_of_asked hinbox hcancel
    have hserver := hsafe r rest hinbox
    simp only [hcancel, Bool.false_eq_true, if_false] at hserver
    rw [hinbox] at htrips
    simp only [takeRequest, hcancel, takeAssertion, hclient, hserver, Option.isSome_none,
      Bool.false_eq_true, if_false] at htrips ⊢
    refine ⟨⟨htrips, ?_, ?_, hs.noCancellation, hs.absent, hs.writes⟩, ?_, fun _ hc => hc,
      fun _ hc => hc⟩
    · intro q hq
      exact hs.noCancel q (by rw [hinbox]; exact List.mem_cons_of_mem r hq)
    · intro q hq
      rcases List.mem_append.mp hq with hq | hq
      · exact hs.assertionsOnly q hq
      · rw [List.mem_singleton.mp hq]
    · intro c h _
      refine accounts_congr rfl ?_
      rw [pendingAssertion, pendingAssertion, hinbox, List.countP_cons]
      by_cases hc : c = r.replyAddr
      · subst hc
        simp [hclient, entryHit, hit]
      · have hne : ¬ r.replyAddr = c := fun heq => hc heq.symm
        simp [hc, hne]

/-- The answer to an assertion goes from the maps to the mailbox of its connection, under the
request id and the offset of the assertion. -/
theorem carries_receiveResponse (hL : L.Documented) (hs : Uncancelled L home s)
    (hsafe : Safe home s .receiveResponse) (htrips : Inv (next home s .receiveResponse)) :
    Uncancelled L home (next home s .receiveResponse) ∧
      Keeps L s (next home s .receiveResponse) := by
  rw [next] at htrips ⊢
  cases hresponse : nextResponse home s with
  | none => exact ⟨hs, fun _ _ _ => rfl, fun _ hc => hc, fun _ hc => hc⟩
  | some r =>
    rw [hresponse] at htrips
    cases hentry : s.serverXlatMap r.offset with
    | none =>
      simp only [receiveResponse, hentry] at htrips ⊢
      exact ⟨⟨htrips, hs.noCancel, hs.assertionsOnly, hs.noCancellation, hs.absent, hs.writes⟩,
        fun _ _ _ => rfl, fun _ hc => hc, fun _ hc => hc⟩
    | some e =>
      have hopen := hsafe r e hresponse hentry
      obtain ⟨-, hclient⟩ := hs.trips.twin.right hentry
      have hid : returnMethodId r.method = reqIdAssertLatestBlockId := by
        have hmem : r ∈ responsesTo home s.service.log := List.mem_of_getElem? hresponse
        have hmethod := hs.noCancellation r hmem
        revert hmethod
        cases r.method <;> simp [returnMethodId]
      simp only [receiveResponse, hentry, hopen, if_true, hid] at htrips ⊢
      generalize hm : (⟨.notification, reqIdAssertLatestBlockId, e.clientOffset, []⟩ :
        WriteMessage) = m at htrips ⊢
      have hqueued : ∀ c h, queued L (messageSend { s with
          received := s.received + 1
          serverXlatMap := Function.update s.serverXlatMap e.serverOffset none
          clientXlatMap := Function.update s.clientXlatMap e.clientAddr none } e.clientAddr m) c h =
          queued L s c h + sentHit L e.clientAddr m c h := by
        intro c h
        exact queued_messageSend (s := { s with
          received := s.received + 1
          serverXlatMap := Function.update s.serverXlatMap e.serverOffset none
          clientXlatMap := Function.update s.clientXlatMap e.clientAddr none }) hopen m
      have hpacket : packetFor L m = some (L.encodeRespGeneric reqIdAssertLatestBlockId
          e.clientOffset 0) := by
        rw [← hm]
        rfl
      have hheader : headerFor L m = some (reqIdAssertLatestBlockId, e.clientOffset) := by
        rw [headerFor, hpacket, Option.map_some, hL.encodeRespGeneric]
      refine ⟨⟨htrips, hs.noCancel, hs.assertionsOnly, hs.noCancellation, ?_, ?_⟩, ?_,
        fun _ hc => hc, ?_⟩
      · intro c habsent
        obtain ⟨hhand, hbox⟩ := hs.absent c habsent
        have hc : c ≠ e.clientAddr := by
          rintro rfl
          rw [hbox] at hopen
          cases hopen
        exact ⟨hhand, by simpa [messageSend, hc] using hbox⟩
      · intro c hlive
        refine ⟨(hs.writes c hlive).1, ?_⟩
        intro m' hm'
        rcases mem_messages_messageSend hm' with hold | rfl
        · exact (hs.writes c hlive).2 m' hold
        · rw [hpacket]
          rfl
      · intro c h _
        rw [hqueued, sentHit, hheader]
        by_cases hc : c = e.clientAddr
        · subst hc
          simp only [pendingAssertion, messageSend, Function.update_self, hclient, entryHit, hit,
            Option.some.injEq, true_and]
          omega
        · simp [pendingAssertion, messageSend, hc]
      · intro c hc
        by_cases hce : c = e.clientAddr
        · subst hce
          simpa [messageSend] using hc
        · simpa [messageSend, hce] using hc

/-- A step of the notification service. -/
theorem apart_service (service : NotificationFibers.Service n)
    (requests : List NotificationFibers.Request) :
    Apart s { s with service := service, requests := requests } :=
  ⟨fun _ => rfl, fun _ => rfl, fun _ => rfl, fun _ hc => hc, fun _ hc => hc, rfl, rfl, rfl⟩

theorem carries_serve (hs : Uncancelled L home s) {f : NotificationFibers.Faults n}
    (hguard : (serveRequest home s f s.requests).isSome = true)
    (htrips : Inv (next home s (.serve f))) :
    Uncancelled L home (next home s (.serve f)) ∧ Keeps L s (next home s (.serve f)) := by
  obtain ⟨t, ht⟩ := Option.isSome_iff_exists.mp hguard
  rw [next, ht, Option.getD_some] at htrips ⊢
  cases hrequests : s.requests with
  | nil =>
    rw [hrequests] at ht
    cases ht
  | cons r rest =>
    rw [hrequests] at ht
    obtain ⟨service, hstep, rfl⟩ := Option.map_eq_some_iff.mp ht
    have hapart := apart_service (s := s) service rest
    refine ⟨hapart.uncancelled hs htrips ?_ ?_, hapart.keeps⟩
    · intro q hq
      exact hs.assertionsOnly q (by rw [hrequests]; exact List.mem_cons_of_mem r hq)
    · apply noCancellation_step hs.noCancellation ?_ hstep
      intro q g heq
      cases heq
      rw [hs.assertionsOnly r (by simp [hrequests])]
      simp

theorem carries_service (hs : Uncancelled L home s) {a : NotificationFibers.Action n}
    (helsewhere : Elsewhere home a) (hguard : (NotificationFibers.step s.service a).isSome = true)
    (htrips : Inv (next home s (.service a))) :
    Uncancelled L home (next home s (.service a)) ∧ Keeps L s (next home s (.service a)) := by
  obtain ⟨service, hstep⟩ := Option.isSome_iff_exists.mp hguard
  rw [next, hstep, Option.getD_some] at htrips ⊢
  have hapart := apart_service (s := s) service s.requests
  refine ⟨hapart.uncancelled hs htrips hs.assertionsOnly ?_, hapart.keeps⟩
  apply noCancellation_step hs.noCancellation ?_ hstep
  rintro r f rfl
  exact absurd rfl helsewhere

theorem carried_step (hL : L.Documented) (hs : Uncancelled L home s) {a : Action n}
    (henabled : Enabled home s a) (hsafe : Safe home s a) (hcarried : Carried a) :
    Uncancelled L home (next home s a) ∧ Keeps L s (next home s a) := by
  have htrips := hs.trips.moves (step_moves hs.trips henabled hsafe)
  obtain ⟨-, -, hguard⟩ := henabled
  cases a with
  | connect c => exact carries_connect hs hguard htrips
  | resume c => exact (aside_resumeDispatch _).carries hs htrips
  | leave c => exact carries_leave hs hguard htrips
  | receive c => exact carries_receive hs hguard.2 htrips
  | take => exact carries_take hs hsafe htrips
  | reply => exact (aside_sendReply _).carries hs htrips
  | serve f => exact carries_serve hs hguard htrips
  | service a => exact carries_service hs hguard.1 hguard.2 htrips
  | receiveResponse => exact carries_receiveResponse hL hs hsafe htrips
  | assertLatestBlockId => cases hcarried
  | assertLatestBlockIdCancel => cases hcarried
  | respond => cases hcarried
  | finish => cases hcarried
  | writeFails => cases hcarried
  | closeMailboxes => cases hcarried

/-! ### Requests, responses and the end of a connection -/

/-- An assertion that is passed on to the endpoint. -/
theorem uncancelled_ask (hs : Uncancelled L home s)
    (hprotocol : (s.connection c).protocol = .reading)
    (hflag : (s.connection c).latestBlockIdAssertionSet = false) (offset : BitVec 32) (id : Uuid) :
    Uncancelled L home (askEndpoint s c (.asserting offset) ⟨false, offset, id, c⟩) := by
  have hmoves : Moves (.assertLatestBlockId c offset id) s
      (dndAssertLatestBlockId s c offset id) := moves_assert hs.trips hprotocol offset id
  simp only [dndAssertLatestBlockId, hflag, Bool.false_eq_true, if_false] at hmoves
  have hconnection : ∀ d, live ((askEndpoint s c (.asserting offset)
      ⟨false, offset, id, c⟩).connection d).protocol = live (s.connection d).protocol := by
    intro d
    by_cases hd : d = c
    · simp [askEndpoint, setConnection, hd, hprotocol, live]
    · simp [askEndpoint, setConnection, hd]
  have hsame : ∀ d, ((askEndpoint s c (.asserting offset) ⟨false, offset, id, c⟩).connection
      d).hand = (s.connection d).hand ∧ ((askEndpoint s c (.asserting offset)
      ⟨false, offset, id, c⟩).connection d).writing = (s.connection d).writing := by
    intro d
    by_cases hd : d = c
    · simp [askEndpoint, setConnection, hd]
    · simp [askEndpoint, setConnection, hd]
  refine ⟨hs.trips.moves hmoves, ?_, hs.assertionsOnly, hs.noCancellation, ?_, ?_⟩
  · intro r hr
    rcases List.mem_append.mp hr with hr | hr
    · exact hs.noCancel r hr
    · rw [List.mem_singleton.mp hr]
  · intro d habsent
    have hd : d ≠ c := by
      rintro rfl
      simp [askEndpoint, setConnection] at habsent
    rw [(hsame d).1]
    exact hs.absent d (by simpa [askEndpoint, setConnection, hd] using habsent)
  · intro d hlive
    rw [hconnection] at hlive
    rw [(hsame d).2, messages, (hsame d).1]
    exact hs.writes d hlive

theorem pendingAssertion_ask (p : ProtocolFiber) (b : Bool) (offset : BitVec 32) (id : Uuid) :
    pendingAssertion (askEndpoint s d p ⟨b, offset, id, d⟩) c h =
      pendingAssertion s c h + if c = d then hit (reqIdAssertLatestBlockId, offset) h else 0 := by
  simp only [pendingAssertion, askEndpoint, setConnection, List.countP_append,
    List.countP_singleton]
  by_cases hc : c = d
  · simp [hc, hit]
    omega
  · have hne : ¬ d = c := fun heq => hc heq.symm
    simp [hc, hne]

theorem messages_ask (p : ProtocolFiber) (r : AssertionRequest) :
    messages (askEndpoint s d p r) c = messages s c := by
  by_cases hc : c = d
  · simp [messages, askEndpoint, setConnection, hc]
  · simp [messages, askEndpoint, setConnection, hc]

/-- A message with a packet leaves the write fiber in its loop. -/
theorem finishMessage_eq {m : WriteMessage} (hpacket : (packetFor L m).isSome = true) :
    ∃ flag, finishMessage s c m = setConnection s c { s.connection c with
      hand := none, latestBlockIdAssertionSet := flag } := by
  rw [packetFor] at hpacket
  rw [finishMessage]
  cases htype : m.messageType with
  | notification => exact ⟨false, rfl⟩
  | dataservice => exact ⟨(s.connection c).latestBlockIdAssertionSet, rfl⟩
  | packet => exact ⟨(s.connection c).latestBlockIdAssertionSet, rfl⟩
  | shutdown => simp [htype] at hpacket
  | dataserviceContextCreate => simp [htype] at hpacket
  | errorMessage => simp [htype] at hpacket

theorem queued_finish {m : WriteMessage} (hhand : (s.connection d).hand = some m)
    (hpacket : (packetFor L m).isSome = true) :
    queued L (finishMessage s d m) c h + sentHit L d m c h = queued L s c h := by
  obtain ⟨flag, heq⟩ := finishMessage_eq (s := s) (c := d) hpacket
  rw [heq, queued, queued, sentHit]
  by_cases hc : c = d
  · subst hc
    simp [messages, setConnection, hhand, List.countP_cons]
  · simp [messages, setConnection, hc]

theorem uncancelled_finish (hs : Uncancelled L home s) {m : WriteMessage}
    (hhand : (s.connection c).hand = some m) (hpacket : (packetFor L m).isSome = true) :
    Uncancelled L home (finishMessage s c m) := by
  have htrips := hs.trips.moves (moves_finish hs.trips hhand)
  obtain ⟨flag, heq⟩ := finishMessage_eq (s := s) (c := c) hpacket
  rw [heq] at htrips ⊢
  refine ⟨htrips, hs.noCancel, hs.assertionsOnly, hs.noCancellation, ?_, ?_⟩
  · intro d habsent
    by_cases hd : d = c
    · subst hd
      simp only [setConnection, Function.update_self] at habsent ⊢
      exact ⟨trivial, (hs.absent d habsent).2⟩
    · simp only [setConnection, Function.update_of_ne hd] at habsent ⊢
      exact hs.absent d habsent
  · intro d hlive
    by_cases hd : d = c
    · subst hd
      simp only [setConnection, Function.update_self] at hlive
      obtain ⟨hwriting, hmessages⟩ := hs.writes d hlive
      refine ⟨by simpa [setConnection] using hwriting, ?_⟩
      intro m' hm'
      apply hmessages m'
      simp only [messages, setConnection, Function.update_self] at hm' ⊢
      exact List.mem_append_right _ (by simpa using hm')
    · simp only [messages, setConnection, Function.update_of_ne hd] at hlive ⊢
      exact hs.writes d hlive

theorem protocol_setConnection {k : Connection} (hk : k.protocol = (s.connection c).protocol)
    (d : ℕ) : ((setConnection s c k).connection d).protocol = (s.connection d).protocol := by
  by_cases hd : d = c
  · simp [setConnection, hd, hk]
  · simp [setConnection, hd]

/-- The write fiber of a connection that has ended leaves its loop. -/
theorem uncancelled_stop (hs : Uncancelled L home s) (hgone : (s.connection c).protocol = .gone) :
    Uncancelled L home (setConnection s c { s.connection c with
      hand := none, writing := false }) := by
  refine ⟨hs.trips.moves (moves_writeFails hs.trips), hs.noCancel, hs.assertionsOnly,
    hs.noCancellation, ?_, ?_⟩
  · intro d habsent
    by_cases hd : d = c
    · subst hd
      simp [setConnection, hgone] at habsent
    · simp only [setConnection, Function.update_of_ne hd] at habsent ⊢
      exact hs.absent d habsent
  · intro d hlive
    by_cases hd : d = c
    · subst hd
      simp [setConnection, hgone, live] at hlive
    · simp only [messages, setConnection, Function.update_of_ne hd] at hlive ⊢
      exact hs.writes d hlive

theorem keeps_stop (hgone : (s.connection c).protocol = .gone) :
    Keeps L s (setConnection s c { s.connection c with hand := none, writing := false }) := by
  have hstays : ∀ d, ((setConnection s c { s.connection c with
      hand := none, writing := false }).connection d).protocol ≠ .gone →
      (s.connection d).protocol ≠ .gone := by
    intro d hd hd'
    apply hd
    rw [← hd']
    exact protocol_setConnection (by rfl) d
  refine ⟨?_, hstays, fun _ hd => hd⟩
  intro d h hd
  have hdc : d ≠ c := by
    rintro rfl
    exact hstays d hd hgone
  refine accounts_congr ?_ rfl
  simp [messages, setConnection, hdc]

/-- The mailboxes of a connection that has ended are closed. -/
theorem uncancelled_closeMailboxes (hs : Uncancelled L home s)
    (hprotocol : (s.connection c).protocol = .gone) :
    Uncancelled L home (next home s (.closeMailboxes c)) := by
  have htrips := hs.trips.moves (moves_closeMailboxes hs.trips hprotocol)
  have hbox : ∀ d, (s.connection d).protocol ≠ .gone →
      (next home s (.closeMailboxes c)).returnBox d = s.returnBox d := by
    intro d hd
    have hne : d ≠ c := by
      rintro rfl
      exact hd hprotocol
    exact Function.update_of_ne hne ..
  refine ⟨htrips, hs.noCancel, hs.assertionsOnly, hs.noCancellation, ?_, ?_⟩
  · intro d habsent
    have habsent' : (s.connection d).protocol = .absent := habsent
    rw [hbox d (by rw [habsent']; simp)]
    exact hs.absent d habsent
  · intro d hlive
    have hlive' : live (s.connection d).protocol = true := hlive
    have hd : (s.connection d).protocol ≠ .gone := by
      intro hgone
      rw [hgone] at hlive'
      cases hlive'
    rw [messages, hbox d hd]
    exact hs.writes d hlive

end ResponseAccounts
