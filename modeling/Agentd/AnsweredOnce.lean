import Agentd.RequestAccounts

/-! # Every request is answered once

The accounts of the requests are kept by every step of an orderly run. What is on its way goes on
until the client has its response, by steps of the service alone; only assertions and requests to
sentinels wait for more. -/
namespace AnsweredOnce

open ByteString
open DataserviceRecords
open DataEndpoint
open NotificationFibers (noFaults)
open ResponseCodec (responsePacket)
open NotificationEndpoint (messageSend finishMessage setConnection errorResponseMessage)
open AssertionTrips (Moves Safe View isNotice live moves_writeFails step_moves view)
open ClientProtocol
open ClientRequests
open RequestedContexts (Standing contextsAfter contexts_release contexts_requestContext
  contexts_takeContext contexts_takeData)
open DataserviceDispatch (maxChildContexts)
open ResponseAccounts
open RequestAccounts

variable {n : ℕ} {E : Env} {home : Fin n} {s t : System n} {c d : ℕ} {h : Header}
  {p : Bytes}

/-! ### Requests -/

/-- A step that owes a response to what was asked. -/
theorem accounted_of_shift {due : ℕ → Header → ℕ}
    (hnarrow : ∀ c, ∀ k ∈ s.asked c, ∃ h, wide h = k)
    (hbalanced : ∀ c, (s.endpoint.connection c).protocol ≠ .gone → ∀ h,
      (s.written c).countP (responseHeader · = h) + inFlight E s c h + due c h =
        (s.asked c).count (wide h) + (s.forwarded c).count h)
    (hshift : Shift E home due s t) : Accounted E home t := by
  refine ⟨hshift.sound, ?_, ?_⟩
  · rw [hshift.asked]
    exact hnarrow
  · intro c hc h
    have hbefore := hbalanced c (hshift.stays c hc) h
    have haccounts := hshift.accounts c h hc
    rw [hshift.written, hshift.asked]
    omega

theorem accounted_of_still (hs : Accounted E home s) (hshift : Shift E home (fun _ _ => 0) s t) :
    Accounted E home t := by
  refine accounted_of_shift hs.narrow ?_ hshift
  intro c hc h
  rw [Nat.add_zero]
  exact hs.balanced c hc h

def noted (L : Library) (s : System n) (c : ℕ) (p : Bytes) : System n :=
  { s with asked := Function.update s.asked c (s.asked c ++ [requestHeader L p]) }

theorem sound_noted (hs : Sound E home s) (c : ℕ) (p : Bytes) :
    Sound E home (noted E.library s c p) :=
  { hs with }

/-- Whatever a packet holds, its client is owed one response. -/
theorem shift_request (hL : E.library.Documented) (hs : Sound E home (noted E.library s c p))
    (hreading : (s.endpoint.connection c).protocol = .reading) (hrest : s.rest c = none)
    (horderly : Orderly E home s (.request c p)) :
    ∃ k, wide k = requestHeader E.library p ∧ Shift E home (owed c k) (noted E.library s c p)
      (readDecodeAndDispatchPacket E s c p) := by
  have hlive : live (s.endpoint.connection c).protocol = true := by
    rw [hreading]
    rfl
  have hread : readDecodeAndDispatchPacket E s c p = if p.length < 8 then
      sendTo { noted E.library s c p with loopEnds := Function.update s.loopEnds c true } c
        (errorResponseMessage 0 errorMalformedRequest 0)
    else
      respondFailure c (wordAt p 0) (wordAt p 4)
        (decodeAndDispatch E (noted E.library s c p) c (wordAt p 0) (wordAt p 4) p) := rfl
  rw [hread, requestHeader]
  split
  · have haside := shift_counters hs s.extendedApiOffset (Function.update s.loopEnds c true)
    refine ⟨(0, 0), rfl, ?_⟩
    exact (haside.trans (shift_respond haside.sound hlive _ _ _)).congr fun _ _ => Nat.zero_add _
  · rename_i hlength
    obtain ⟨k, hk, hdispatched, hfailed⟩ :=
      dispatched hL hs hreading hrest (Nat.not_lt.mp hlength) horderly
    generalize decodeAndDispatch E (noted E.library s c p) c (wordAt p 0) (wordAt p 4) p = outcome
      at hdispatched hfailed ⊢
    obtain ⟨t, status⟩ := outcome
    refine ⟨k, hk, ?_⟩
    cases status with
    | none => exact hdispatched
    | some status =>
      obtain ⟨hshift, hendpoint⟩ := hdispatched
      have hstill : live (t.endpoint.connection c).protocol = true := by
        rw [hendpoint]
        exact hlive
      rw [hfailed (by simp)]
      exact (hshift.trans (shift_respond hshift.sound hstill _ _ _)).congr
        fun _ _ => Nat.zero_add _

theorem accounted_request (hL : E.library.Documented) (hs : Accounted E home s)
    (hreading : (s.endpoint.connection c).protocol = .reading) (hrest : s.rest c = none)
    (horderly : Orderly E home s (.request c p)) :
    Accounted E home (readDecodeAndDispatchPacket E s c p) := by
  obtain ⟨k, hk, hshift⟩ := shift_request hL (sound_noted hs.sound c p) hreading hrest horderly
  refine accounted_of_shift ?_ ?_ hshift
  · intro d k' hk'
    by_cases hdc : d = c
    · subst hdc
      simp only [noted, Function.update_self, List.mem_append, List.mem_singleton] at hk'
      rcases hk' with hold | rfl
      · exact hs.narrow d k' hold
      · exact ⟨k, hk⟩
    · simp only [noted, Function.update_of_ne hdc] at hk'
      exact hs.narrow d k' hk'
  · intro d hd h
    have hbefore := hs.balanced d hd h
    have hsame : inFlight E (noted E.library s c p) d h = inFlight E s d h := rfl
    rw [hsame]
    simp only [noted]
    by_cases hdc : d = c
    · subst hdc
      simp only [Function.update_self, List.count_append, List.count_singleton, owed, hit, if_true,
        beq_iff_eq, ← hk, wide_inj]
      omega
    · simp only [Function.update_of_ne hdc, owed, hdc, if_false]
      omega

/-! ### The end of a dispatch -/

theorem findEntry_filter {keep : ResponseXlatEntry → Bool} {o : BitVec 64}
    (hkeep : ∀ e : ResponseXlatEntry, e.sentinel = d → keep e = true)
    (hentry : (findEntry s d o).isSome = true) :
    ((s.extendedApiOffsetDict.filter keep).find? fun e => e.sentinel = d ∧
      e.serverOffset = o).isSome = true := by
  obtain ⟨e, he⟩ := Option.isSome_iff_exists.mp hentry
  obtain ⟨hmem, hsentinel, hoffset⟩ := findEntry_some he
  rw [List.find?_isSome]
  exact ⟨e, List.mem_filter.mpr ⟨hmem, hkeep e hsentinel⟩, decide_eq_true ⟨hsentinel, hoffset⟩⟩

/-- The protocol fiber has removed the entry and not yet responded. -/
def cleared (s : System n) (c : ℕ) (r : Rest) : System n :=
  { s with
    rest := Function.update s.rest c none
    extendedApiOffsetDict := deleteEntry c s.extendedApiOffsetDict r.spent }

theorem waiting_cleared {r : Rest} (hrest : s.rest c = some r) :
    waiting (cleared s c r) d h = waiting s d h := by
  have hfilter : ((cleared s c r).extendedApiOffsetDict.filter fun e => !spent (cleared s c r) e) =
      s.extendedApiOffsetDict.filter fun e => !spent s e := by
    cases hspent : r.spent with
    | none =>
      simp only [cleared, hspent, deleteEntry]
      apply List.filter_congr
      intro e _
      by_cases he : e.sentinel = c
      · simp [spent, he, hrest, hspent]
      · simp [spent, he]
    | some o =>
      simp only [cleared, hspent, deleteEntry, List.filter_filter]
      apply List.filter_congr
      intro e _
      by_cases he : e.sentinel = c
      · simp [spent, he, hrest, hspent, eq_comm]
      · simp [spent, he]
  rw [waiting, waiting, hfilter]

theorem sound_cleared (hs : Sound E home s) (c : ℕ) (r : Rest) :
    Sound E home (cleared s c r) := by
  have hrest : ∀ d r', (cleared s c r).rest d = some r' → d ≠ c ∧ s.rest d = some r' := by
    intro d r' hr'
    have hdc : d ≠ c := by
      rintro rfl
      simp [cleared] at hr'
    exact ⟨hdc, by simpa [cleared, hdc] using hr'⟩
  refine { hs with keys := ?_, idle := ?_, spending := ?_, pointed := ?_ }
  · cases hspent : r.spent with
    | none =>
      simp only [cleared, hspent, deleteEntry]
      exact hs.keys
    | some o =>
      simp only [cleared, hspent, deleteEntry]
      exact hs.keys.sublist List.filter_sublist
  · intro d hd
    obtain ⟨r', hr'⟩ := Option.ne_none_iff_exists'.mp hd
    exact hs.idle d (by simp [(hrest d r' hr').2])
  · intro d r' o hr' ho
    obtain ⟨hdc, hsame⟩ := hrest d r' hr'
    have hentry := hs.spending d r' o hsame ho
    cases hspent : r.spent with
    | none =>
      simp only [findEntry, cleared, hspent, deleteEntry]
      exact hentry
    | some o' =>
      simp only [findEntry, cleared, hspent, deleteEntry]
      refine findEntry_filter ?_ hentry
      intro e he
      exact decide_eq_true fun hkey => hdc (he.symm.trans hkey.1)
  · intro d d' o hr'
    exact hs.pointed d d' o (hrest d _ hr').2

theorem inFlight_cleared {r : Rest} (hrest : s.rest c = some r) :
    inFlight E (cleared s c r) d h + (if d = c then unfinished E (some r) h else 0) =
      inFlight E s d h := by
  have hdata : atDataservice E.library (cleared s c r) d h = atDataservice E.library s d h := rfl
  simp only [inFlight, hdata, waiting_cleared hrest]
  by_cases hdc : d = c
  · simp only [cleared, hdc, Function.update_self, hrest, if_true]
    simp only [unfinished]
    omega
  · simp only [cleared, Function.update_of_ne hdc, hdc, if_false]
    omega

/-- What a protocol fiber goes on with: whether its client is answered by the sentinel was settled
when the request was passed on. -/
theorem proceed_eq (hs : Sound E home s) {r : Rest} (hrest : s.rest c = some r) (anything : Bool) :
    (proceed E s c anything (some r) = cleared s c r ∧ ∀ h, unfinished E (some r) h = 0) ∨
    ∃ id offset, proceed E s c anything (some r) =
        sendTo (cleared s c r) c (errorResponseMessage id 0 offset) ∧
      ∀ h, unfinished E (some r) h = hit (id, offset) h := by
  cases r with
  | requested d offset =>
    have hresponds : responds E s d anything = extendedApiCanRespond E d :=
      if_pos (hs.pointed c d offset hrest)
    cases hcan : extendedApiCanRespond E d with
    | true =>
      refine Or.inl ⟨?_, fun h => ?_⟩
      · simp only [proceed, hresponds, hcan, if_true]
        rfl
      · simp [unfinished, hcan]
    | false =>
      refine Or.inr ⟨ProtocolRequest.extendedApiSendrecv.code, offset, ?_, fun h => ?_⟩
      · simp only [proceed, hresponds, hcan, Bool.false_eq_true, if_false]
        rfl
      · simp [unfinished, hcan]
  | responded o offset =>
    refine Or.inr ⟨ProtocolRequest.extendedApiSendresp.code, o.setWidth 32, ?_, fun h => rfl⟩
    simp only [proceed, hs.spending c _ o hrest rfl, if_true]
    rfl

/-- What a protocol fiber had left to do becomes a message. -/
theorem shift_proceed (hs : Sound E home s) {r : Rest} (hrest : s.rest c = some r)
    (anything : Bool) : Shift E home (fun _ _ => 0) s (proceed E s c anything (some r)) := by
  have hlive : live (s.endpoint.connection c).protocol = true := by
    rw [hs.idle c (by simp [hrest])]
    rfl
  have hcleared := sound_cleared hs c r
  rcases proceed_eq hs hrest anything with ⟨heq, hnone⟩ | ⟨id, offset, heq, hone⟩
  · rw [heq]
    refine ⟨hcleared, rfl, rfl, fun _ hd => hd, ?_⟩
    intro d h _
    have hbefore := inFlight_cleared (E := E) (d := d) (h := h) hrest
    rw [hnone, ite_self] at hbefore
    have hforwarded : (cleared s c r).forwarded = s.forwarded := rfl
    rw [hforwarded]
    omega
  · rw [heq]
    obtain ⟨hsound, hwritten, hasked, hstays, haccounts⟩ := shift_respond hcleared hlive id 0 offset
    refine ⟨hsound, hwritten, hasked, hstays, ?_⟩
    intro d h hd
    have hafter := haccounts d h hd
    have hbefore := inFlight_cleared (E := E) (d := d) (h := h) hrest
    rw [hone] at hbefore
    have hforwarded : (cleared s c r).forwarded = s.forwarded := rfl
    rw [hforwarded, owed] at hafter
    omega

/-! ### Child contexts -/

/-- A message about a child context is no request of a client. -/
theorem shift_mail (hs : Sound E home s) (l : List DataMessage) (contexts : Finset ℕ)
    (stages : ℕ → ContextStage)
    (hcontexts : RequestedContexts.Contexts (RequestedContexts.view
      { s with dataInbox := l, contexts := contexts, dataContext := stages }))
    (hopened : ∀ d, s.dataContext d = .opened → stages d = .opened)
    (hserved : ∀ q, .dataserviceReq q ∈ l → .dataserviceReq q ∈ s.dataInbox)
    (hcount : ∀ c h, l.countP (asks c h) = s.dataInbox.countP (asks c h)) :
    Shift E home (fun _ _ => 0) s
      { s with dataInbox := l, contexts := contexts, dataContext := stages } := by
  refine ⟨{ hs with
    contexts := hcontexts
    served := fun q hq => hs.served q (hserved q hq)
    enrolled := fun d hd => ⟨(hs.enrolled d hd).1, hopened d (hs.enrolled d hd).2⟩ },
    rfl, rfl, fun _ hd => hd, ?_⟩
  intro c h _
  have hwaiting : waiting
      { s with dataInbox := l, contexts := contexts, dataContext := stages } c h = waiting s c h :=
    rfl
  simp only [inFlight, hwaiting, atDataservice, hcount]
  omega

theorem shift_requestContext (hs : Sound E home s)
    (habsent : (s.endpoint.connection c).protocol = .absent) (hnone : s.dataContext c = .none)
    (horderly : Orderly E home s (.requestContext c)) :
    Shift E home (fun _ _ => 0) s (requestContext s c) := by
  refine shift_mail hs _ s.contexts _
    (contexts_requestContext hs.contexts habsent hnone horderly) ?_ ?_ ?_
  · intro d hd
    have hdc : d ≠ c := by
      rintro rfl
      rw [hnone] at hd
      cases hd
    rw [Function.update_of_ne hdc, hd]
  · intro q hq
    simpa using hq
  · intro d h
    simp [List.countP_append, asks]

theorem shift_takeContext (hs : Sound E home s) {m : DataMessage} {l : List DataMessage}
    (hinbox : s.dataInbox = m :: l) (hcontext : m.isContext = true) (hreply : s.dataReply = none) :
    Shift E home (fun _ _ => 0) s (takeContext s (m :: l)) := by
  obtain ⟨hstage, stage, htake, hcontexts⟩ :=
    contexts_takeContext hs.contexts hinbox hcontext hreply
  rw [htake] at hcontexts ⊢
  refine shift_mail hs l _ _ hcontexts ?_ ?_ ?_
  · intro d hd
    have hdm : d ≠ m.client := by
      rintro rfl
      exact hstage hd
    rw [Function.update_of_ne hdm, hd]
  · intro q hq
    rw [hinbox]
    exact List.mem_cons_of_mem m hq
  · intro d h
    rw [hinbox, List.countP_cons]
    cases m with
    | dataserviceReq q => cases hcontext
    | contextOpen c => simp [asks]
    | contextClose c => simp [asks]

/-! ### Answers of the data service -/

theorem shift_takeData (hL : E.library.Documented) (hs : Sound E home s) {q : DataRequest}
    {rest : List DataMessage} (hinbox : s.dataInbox = .dataserviceReq q :: rest)
    (hreply : s.dataReply = none) {answer : Bytes} (hanswer : Answer q.request.method answer) :
    Shift E home (fun _ _ => 0) s (takeData s answer (.dataserviceReq q :: rest)) := by
  obtain ⟨hopen, r, hcode, hmethod⟩ := hs.served q (by simp [hinbox])
  obtain ⟨p, hpacket, hheader⟩ := packetFor_answer hL hmethod hanswer q.offset
  rw [hcode] at hpacket hheader
  refine ⟨{ hs with
    contexts := contexts_takeData hs.contexts hinbox answer
    served := ?_
    answered := ?_ }, rfl, rfl, fun _ hd => hd, ?_⟩
  · intro q' hq'
    exact hs.served q' (by rw [hinbox]; exact List.mem_cons_of_mem _ hq')
  · intro d m hm
    cases hm
    refine ⟨hopen, rfl, ?_⟩
    rw [hpacket]
    rfl
  · intro d h _
    have hwaiting : waiting (takeData s answer (.dataserviceReq q :: rest)) d h =
        waiting s d h := rfl
    simp only [inFlight, hwaiting]
    simp only [takeData, atDataservice, hinbox, hreply, List.countP_cons, asks, sentHit, headerFor,
      hpacket, Option.map_some, hheader, Option.some.injEq]
    by_cases hd : d = q.client
    · simp only [hd, true_and, decide_eq_true_eq]
      omega
    · have hne : ¬ q.client = d := fun heq => hd heq.symm
      simp only [hd, hne, false_and, decide_false, Bool.false_eq_true, if_false]
      omega

/-- The data service endpoint has made its message and not yet sent it. -/
theorem shift_sendData (hs : Sound E home s) {m : WriteMessage}
    (hreply : s.dataReply = some (d, m)) :
    Shift E home (fun _ _ => 0) s (sendData s (some (d, m))) := by
  obtain ⟨hopen, htype, hpacket⟩ := hs.answered d m hreply
  have hnotice : isNotice m = false := by simp [isNotice, htype]
  have hfree : Sound E home { s with dataReply := none } :=
    { hs with
      contexts := hs.contexts.replied
      answered := fun _ _ hm => absurd hm.symm (Option.some_ne_none _) }
  obtain ⟨hsound, hwritten, hasked, hstays, haccounts⟩ := shift_sendTo hfree hnotice hpacket hopen
  rw [sendData, if_pos hopen]
  refine ⟨hsound, hwritten, hasked, hstays, ?_⟩
  intro c h hc
  have hafter := haccounts c h hc
  have hbefore : inFlight E { s with dataReply := none } c h + sentHit E.library d m c h =
      inFlight E s c h := by
    have hwaiting : waiting { s with dataReply := none } c h = waiting s c h := rfl
    simp only [inFlight, hwaiting, atDataservice, hreply]
    omega
  have hforwarded : ({ s with dataReply := none } : System n).forwarded = s.forwarded := rfl
  rw [hforwarded] at hafter
  omega

/-! ### Steps of the connections and of the notification endpoint -/

/-- A protocol fiber that waits for no reply stays where it is until it is connected, asks the
endpoint or leaves. -/
theorem protocol_stays {ep ep' : NotificationEndpoint.System n} {a : NotificationEndpoint.Action n}
    (hmoves : Moves a ep ep') (hcarried : Carried a) (hconnect : a ≠ .connect d)
    (hleave : a ≠ .leave d) (hasserting : ∀ offset, (ep.connection d).protocol ≠ .asserting offset)
    (hcancelling : (ep.connection d).protocol ≠ .cancelling) :
    (ep'.connection d).protocol = (ep.connection d).protocol := by
  obtain ⟨c, hchange, hother⟩ := hmoves.change
  by_cases hd : d = c
  · subst hd
    change (view ep' d).protocol = (view ep d).protocol
    change ∀ offset, (view ep d).protocol ≠ .asserting offset at hasserting
    change (view ep d).protocol ≠ .cancelling at hcancelling
    generalize view ep d = v at hchange hasserting hcancelling
    generalize view ep' d = w at hchange
    cases hchange with
    | connects habsent => exact absurd rfl hconnect
    | acknowledged hprotocol => exact absurd hprotocol (hasserting _)
    | passedOn hprotocol => exact absurd hprotocol hcancelling
    | leaves => exact absurd rfl hleave
    | asserts => cases hcarried
    | cancels => cases hcarried
    | _ => rfl
  · exact congrArg View.protocol (hother d hd)

/-- A step that is one of the notification endpoint alone. -/
theorem accounted_endpoint (hs : Accounted E home s) {ep : NotificationEndpoint.System n}
    (hendpoint : Uncancelled E.library home ep) (hkeeps : Keeps E.library s.endpoint ep)
    (hidle : ∀ d, s.rest d ≠ none → (ep.connection d).protocol = .reading)
    (hstanding : ∀ d, Standing (ep.connection d).protocol (s.dataContext d)) :
    Accounted E home { s with endpoint := ep } := by
  obtain ⟨hsound, hnarrow, hbalanced⟩ := hs
  refine ⟨hsound.setEndpoint hendpoint hkeeps.opens hidle hstanding, hnarrow, ?_⟩
  intro c hc h
  have hbefore := hbalanced c (hkeeps.stays c hc) h
  have haccounts := hkeeps.accounts c h hc
  have hsplit := inFlight_endpoint (E := E) (s := s) (c := c) (h := h) ep
  simp only
  omega

/-- A connection is made when its context is opened, and one that is gone stays so. -/
theorem standing_other (hs : Sound E home s) {a : NotificationEndpoint.Action n}
    (hcarried : Carried a) (henabled : NotificationEndpoint.Enabled home s.endpoint a)
    (hsafe : Safe home s.endpoint a) (hconnect : ∀ c, a = .connect c → s.dataContext c = .opened)
    (d : ℕ) : Standing ((NotificationEndpoint.next home s.endpoint a).connection d).protocol
      (s.dataContext d) := by
  have hstanding : Standing (s.endpoint.connection d).protocol (s.dataContext d) :=
    hs.contexts.standing d
  have hmoves := step_moves hs.endpoint.trips henabled hsafe
  cases hstage : s.dataContext d with
  | opened => trivial
  | _ =>
    rw [hstage] at hstanding
    refine (protocol_stays hmoves hcarried ?_ ?_ ?_ ?_).trans hstanding
    · rintro rfl
      have hopened := hconnect d rfl
      rw [hstage] at hopened
      cases hopened
    · rintro rfl
      have hreading : (s.endpoint.connection d).protocol = .reading := henabled.2.2
      rw [hstanding] at hreading
      cases hreading
    · intro offset
      rw [hstanding]
      nofun
    · rw [hstanding]
      nofun

theorem accounted_other (hL : E.library.Documented) (hs : Accounted E home s)
    {a : NotificationEndpoint.Action n} (hcarried : Carried a)
    (henabled : NotificationEndpoint.Enabled home s.endpoint a) (hsafe : Safe home s.endpoint a)
    (hleave : ∀ c, a = .leave c → s.rest c = none)
    (hconnect : ∀ c, a = .connect c → s.dataContext c = .opened) :
    Accounted E home { s with endpoint := NotificationEndpoint.next home s.endpoint a } := by
  obtain ⟨hendpoint, hkeeps⟩ := carried_step hL hs.sound.endpoint henabled hsafe hcarried
  refine accounted_endpoint hs hendpoint hkeeps ?_
    (standing_other hs.sound hcarried henabled hsafe hconnect)
  intro d hd
  have hreading := hs.sound.idle d hd
  refine (protocol_stays (step_moves hs.sound.endpoint.trips henabled hsafe) hcarried
    ?_ ?_ ?_ ?_).trans hreading
  · rintro rfl
    have habsent : (s.endpoint.connection d).protocol = .absent := henabled.2.2
    rw [hreading] at habsent
    cases habsent
  · rintro rfl
    exact hd (hleave d rfl)
  · intro offset
    rw [hreading]
    nofun
  · rw [hreading]
    nofun

/-- A write fiber without a packet is one whose connection has ended. -/
theorem gone_of_no_packet (hs : Uncancelled E.library home s.endpoint) {m : WriteMessage}
    (hhand : (s.endpoint.connection c).hand = some m) (hpacket : packetFor E.library m = none) :
    (s.endpoint.connection c).protocol = .gone := by
  have hdead : live (s.endpoint.connection c).protocol = false := by
    rw [← Bool.not_eq_true]
    intro hlive
    have hsome := (hs.writes c hlive).2 m (by simp [messages, hhand])
    rw [hpacket] at hsome
    cases hsome
  cases hprotocol : (s.endpoint.connection c).protocol with
  | gone => rfl
  | absent =>
    have hnone := (hs.absent c hprotocol).1
    rw [hhand] at hnone
    cases hnone
  | reading =>
    rw [hprotocol] at hdead
    cases hdead
  | asserting =>
    rw [hprotocol] at hdead
    cases hdead
  | cancelling =>
    rw [hprotocol] at hdead
    cases hdead

theorem accounted_stop (hs : Accounted E home s)
    (hgone : (s.endpoint.connection c).protocol = .gone) :
    Accounted E home { s with endpoint := setConnection s.endpoint c { s.endpoint.connection c with
      hand := none, writing := false } } := by
  refine accounted_endpoint hs (uncancelled_stop hs.sound.endpoint hgone) (keeps_stop hgone) ?_ ?_
  · intro d hd
    rw [← hs.sound.idle d hd]
    exact protocol_setConnection (by rfl) d
  · intro d
    rw [protocol_setConnection (by rfl)]
    exact hs.sound.contexts.standing d

/-- A response that is written. -/
theorem accounted_written (hs : Accounted E home s) {m : WriteMessage}
    (hhand : (s.endpoint.connection c).hand = some m) (hpacket : packetFor E.library m = some p) :
    Accounted E home { s with
      endpoint := finishMessage s.endpoint c m
      written := Function.update s.written c (s.written c ++ [p]) } := by
  obtain ⟨hsound, hnarrow, hbalanced⟩ := hs
  have hsome : (packetFor E.library m).isSome = true := by
    rw [hpacket]
    rfl
  have hendpoint := uncancelled_finish hsound.endpoint hhand hsome
  have hqueued := fun d h => queued_finish (c := d) (h := h) hhand hsome
  obtain ⟨flag, hfinish⟩ := finishMessage_eq (s := s.endpoint) (c := c) hsome
  have hprotocol : ∀ d, ((finishMessage s.endpoint c m).connection d).protocol =
      (s.endpoint.connection d).protocol := by
    intro d
    rw [hfinish]
    exact protocol_setConnection (by rfl) d
  have hpending : ∀ d h, pendingAssertion (finishMessage s.endpoint c m) d h =
      pendingAssertion s.endpoint d h := by
    intro d h
    rw [hfinish]
    rfl
  have hboxes : (finishMessage s.endpoint c m).returnBox = s.endpoint.returnBox := by
    rw [hfinish]
    rfl
  have hstanding : ∀ d, Standing ((finishMessage s.endpoint c m).connection d).protocol
      (s.dataContext d) := by
    intro d
    rw [hprotocol]
    exact hsound.contexts.standing d
  have hafter := hsound.setEndpoint hendpoint (by rw [hboxes]; exact fun _ hd => hd)
    (fun d hd => (hprotocol d).trans (hsound.idle d hd)) hstanding
  refine ⟨{ hafter with }, hnarrow, ?_⟩
  intro d hd h
  rw [hprotocol] at hd
  have hsplit := inFlight_endpoint (E := E) (s := s) (c := d) (h := h)
    (finishMessage s.endpoint c m)
  rw [hpending] at hsplit
  have hmoved := hqueued d h
  simp only [sentHit, headerFor, hpacket, Option.map_some, Option.some.injEq] at hmoved
  have hbefore := hbalanced d hd h
  have hsame : inFlight E { s with
      endpoint := finishMessage s.endpoint c m
      written := Function.update s.written c (s.written c ++ [p]) } d h =
      inFlight E { s with endpoint := finishMessage s.endpoint c m } d h := rfl
  rw [hsame]
  by_cases hdc : d = c
  · subst hdc
    simp only [Function.update_self, List.countP_append, List.countP_singleton, true_and,
      decide_eq_true_eq] at hmoved ⊢
    omega
  · simp only [Function.update_of_ne hdc, hdc, false_and, if_false] at hmoved ⊢
    omega

theorem accounted_finish (hs : Accounted E home s) {m : WriteMessage}
    (hhand : (s.endpoint.connection c).hand = some m) :
    Accounted E home (writeMessage E s c (some m)) := by
  rw [writeMessage]
  cases hpacket : packetFor E.library m with
  | none => exact accounted_stop hs (gone_of_no_packet hs.sound.endpoint hhand hpacket)
  | some p => exact accounted_written hs hhand hpacket

/-! ### The end of a connection -/

theorem routed_release (hs : Sound E home s) {u : Uuid}
    (hu : (contextRelease E s c).extendedApiDict u = some d) :
    s.extendedApiDict u = some d ∧ d ≠ c := by
  simp only [contextRelease] at hu
  split at hu
  · by_cases huc : u = (E.entity c).uuid
    · simp [huc] at hu
    · rw [Function.update_of_ne huc] at hu
      refine ⟨hu, ?_⟩
      rintro rfl
      exact huc (hs.routed u d hu).1
  · rename_i hdisabled
    refine ⟨hu, ?_⟩
    rintro rfl
    exact hdisabled (hs.routed u d hu).2.1

/-- The route of another sentinel stays. -/
theorem release_routed (hs : Sound E home s) (hd : s.extendedApiDict (E.entity d).uuid = some d)
    (hdc : d ≠ c) : (contextRelease E s c).extendedApiDict (E.entity d).uuid = some d := by
  simp only [contextRelease]
  split
  · rename_i henabled
    have hc := (hs.enrolled c henabled).1
    have hne : (E.entity d).uuid ≠ (E.entity c).uuid := by
      intro huuid
      rw [huuid, hc] at hd
      exact hdc (Option.some.inj hd).symm
    rw [Function.update_of_ne hne, hd]
  · exact hd

/-- A sentinel that begins to go is one that no request is being passed on to. -/
theorem shift_release (hs : Sound E home s) (hgone : (s.endpoint.connection c).protocol = .gone)
    (hopened : s.dataContext c = .opened) (horderly : Orderly E home s (.release c)) :
    Shift E home (fun _ _ => 0) s (contextRelease E s c) := by
  refine ⟨{ hs with
    contexts := contexts_release hs.contexts E hgone hopened
    served := ?_
    routed := ?_
    enrolled := ?_
    pointed := ?_ }, rfl, rfl, fun _ hd => hd, ?_⟩
  · intro q hq
    exact hs.served q (by simpa [contextRelease] using hq)
  · intro u d hu
    obtain ⟨hu', hd⟩ := routed_release hs hu
    obtain ⟨huuid, henabled, hopen⟩ := hs.routed u d hu'
    refine ⟨huuid, ?_, hopen⟩
    simpa [contextRelease, hd] using henabled
  · intro d hd
    have hdc : d ≠ c := by
      rintro rfl
      simp [contextRelease] at hd
    obtain ⟨hrouted, hd'⟩ := hs.enrolled d (by simpa [contextRelease, hdc] using hd)
    refine ⟨release_routed hs hrouted hdc, ?_⟩
    simpa [contextRelease, hdc] using hd'
  · intro d d' o hr
    have hdc : d' ≠ c := by
      rintro rfl
      exact horderly d o hr
    exact release_routed hs (hs.pointed d d' o hr) hdc
  · intro d h _
    have hwaiting : waiting (contextRelease E s c) d h = waiting s d h := rfl
    simp only [inFlight, hwaiting]
    simp [contextRelease, atDataservice, asks, List.countP_append]

/-- The entries of a sentinel that goes are of connections that have ended. -/
theorem waiting_reclaim (hentries : ∀ e ∈ s.extendedApiOffsetDict, e.sentinel = c →
      (s.endpoint.connection e.clientReturnAddress).protocol = .gone)
    (hd : (s.endpoint.connection d).protocol ≠ .gone) :
    waiting (contextReclaim home s c) d h = waiting s d h := by
  have hspent : ∀ e, spent (contextReclaim home s c) e = spent s e := fun _ => rfl
  simp only [waiting, hspent]
  simp only [contextReclaim, List.countP_filter, List.filter_filter]
  apply List.countP_congr
  intro e he
  by_cases hc : e.sentinel = c
  · have hne : e.clientReturnAddress ≠ d := by
      rintro rfl
      exact hd (hentries e he hc)
    simp [waitsFor, hne]
  · simp [hc]

/-- Nothing that is on its way needs the mailboxes of a connection whose context is closed. -/
theorem sound_reclaim (hs : Sound E home s) (hclosed : s.dataContext c = .closed) :
    (s.endpoint.connection c).protocol = .gone ∧ Sound E home (contextReclaim home s c) := by
  have hgone : (s.endpoint.connection c).protocol = .gone := by
    have hstanding : Standing (s.endpoint.connection c).protocol (s.dataContext c) :=
      hs.contexts.standing c
    rwa [hclosed] at hstanding
  obtain ⟨hinbox, hreply⟩ := hs.contexts.closed hclosed
  have hopen : ∀ d, d ≠ c → mailboxOpen (contextReclaim home s c) d = mailboxOpen s d := by
    intro d hd
    simp [mailboxOpen, contextReclaim, NotificationEndpoint.next, hd]
  refine ⟨hgone, { hs with
    endpoint := uncancelled_closeMailboxes hs.endpoint hgone
    served := ?_
    answered := ?_
    routed := ?_
    keys := hs.keys.sublist List.filter_sublist
    spending := ?_ }⟩
  · intro q hq
    rw [hopen q.client (hinbox _ hq)]
    exact hs.served q hq
  · intro d m hm
    rw [hopen d (hreply d m hm)]
    exact hs.answered d m hm
  · intro u d hu
    obtain ⟨huuid, henabled, hmailbox⟩ := hs.routed u d hu
    have hd : d ≠ c := by
      rintro rfl
      have hopened := (hs.enrolled d henabled).2
      rw [hclosed] at hopened
      cases hopened
    rw [hopen d hd]
    exact ⟨huuid, henabled, hmailbox⟩
  · intro d r o hr ho
    have hd : d ≠ c := by
      rintro rfl
      have hr' : s.rest d = some r := hr
      have hreading := hs.idle d (by simp [hr'])
      rw [hgone] at hreading
      cases hreading
    refine findEntry_filter ?_ (hs.spending d r o hr ho)
    intro e he
    exact decide_eq_true fun hec => hd (he.symm.trans hec)

theorem accounted_reclaim (hs : Accounted E home s) (hclosed : s.dataContext c = .closed)
    (horderly : Orderly E home s (.reclaim c)) : Accounted E home (contextReclaim home s c) := by
  obtain ⟨hsound, hnarrow, hbalanced⟩ := hs
  obtain ⟨hgone, hafter⟩ := sound_reclaim hsound hclosed
  refine ⟨hafter, hnarrow, ?_⟩
  intro d hd h
  have hstays : (s.endpoint.connection d).protocol ≠ .gone := hd
  have hdc : d ≠ c := by
    rintro rfl
    exact hstays hgone
  have hqueued : queued E.library (contextReclaim home s c).endpoint d h =
      queued E.library s.endpoint d h := by
    apply queued_congr
    simp [messages, contextReclaim, NotificationEndpoint.next, hdc]
  have hdata : atDataservice E.library (contextReclaim home s c) d h =
      atDataservice E.library s d h := rfl
  have hbefore := hbalanced d hstays h
  simp only [inFlight, hqueued, hdata, waiting_reclaim horderly hstays] at hbefore ⊢
  exact hbefore

/-! ### Runs -/

theorem accounted_step (hL : E.library.Documented) (hs : Accounted E home s) {a : Action n}
    (henabled : Enabled home s a) (horderly : Orderly E home s a) :
    Accounted E home (next E home s a) := by
  obtain ⟨-, -, -, hguard⟩ := henabled
  cases a with
  | request c p => exact accounted_request hL hs hguard.1 hguard.2.1 horderly
  | requestContext c =>
    exact accounted_of_still hs (shift_requestContext hs.sound hguard.1 hguard.2 horderly)
  | proceed c anything =>
    obtain ⟨r, hr⟩ := Option.ne_none_iff_exists'.mp hguard
    rw [next, hr]
    exact accounted_of_still hs (shift_proceed hs.sound hr anything)
  | takeContext =>
    obtain ⟨hreply, m, rest, hinbox, hcontext⟩ := hguard
    rw [next, hinbox]
    exact accounted_of_still hs (shift_takeContext hs.sound hinbox hcontext hreply)
  | finish c =>
    obtain ⟨m, hm⟩ := Option.ne_none_iff_exists'.mp hguard.2
    rw [next, hm]
    exact accounted_finish hs hm
  | takeData answer =>
    obtain ⟨hreply, q, rest, hinbox, hanswer⟩ := hguard
    rw [next, hinbox]
    exact accounted_of_still hs (shift_takeData hL hs.sound hinbox hreply hanswer)
  | sendData =>
    obtain ⟨⟨d, m⟩, hm⟩ := Option.ne_none_iff_exists'.mp hguard
    rw [next, hm]
    exact accounted_of_still hs (shift_sendData hs.sound hm)
  | release c =>
    exact accounted_of_still hs (shift_release hs.sound hguard.1 hguard.2.2 horderly)
  | reclaim c => exact accounted_reclaim hs hguard.1 horderly
  | other a =>
    obtain ⟨hcarried, henabled, hleave, hconnect⟩ := hguard
    exact accounted_other hL hs hcarried henabled horderly hleave hconnect

theorem accounted_of_run (hL : E.library.Documented) (h : Run E home (Orderly E home) s) :
    Accounted E home s := by
  induction h with
  | start => exact accounted_start E home
  | tail _ henabled horderly ih => exact accounted_step hL ih henabled horderly

/-! ### What the service does by itself -/

/-- The steps that bring what is on its way to the client of a connection: those of its own fibers,
and of the data service endpoint. A write fiber with an empty mailbox waits. -/
def Own (c : ℕ) (s : System n) : Action n → Prop
  | .requestContext _ => False
  | .request .. => False
  | .proceed d _ => d = c
  | .finish d => d = c
  | .takeContext => True
  | .takeData _ => True
  | .sendData => True
  | .release _ => False
  | .reclaim _ => False
  | .other (.receive d) => d = c ∧ (s.endpoint.returnBox c).getD [] ≠ []
  | .other _ => False

def OwnStep (E : Env) (home : Fin n) (c : ℕ) (s t : System n) : Prop :=
  ∃ a, Own c s a ∧ Enabled home s a ∧ t = next E home s a

def distance (s : System n) (c : ℕ) : ℕ :=
  4 * s.dataInbox.length + 3 * s.dataReply.toList.length + 3 * (s.rest c).toList.length +
    2 * ((s.endpoint.returnBox c).getD []).length + (s.endpoint.connection c).hand.toList.length

theorem own_orderly {a : Action n} (hown : Own c s a) : Orderly E home s a := by
  cases a with
  | proceed d anything => exact trivial
  | finish d => exact trivial
  | takeContext => exact trivial
  | takeData answer => exact trivial
  | sendData => exact trivial
  | other a =>
    cases a with
    | receive d => exact trivial
    | _ => cases hown
  | _ => cases hown

theorem distance_sendTo (m : WriteMessage) : distance (sendTo s d m) c ≤ distance s c + 2 := by
  have hbox : (((sendTo s d m).endpoint.returnBox c).getD []).length ≤
      ((s.endpoint.returnBox c).getD []).length + 1 := by
    by_cases hc : c = d
    · subst hc
      cases hbox : s.endpoint.returnBox c with
      | none => simp [sendTo, messageSend, hbox]
      | some box => simp [sendTo, messageSend, hbox]
    · simp [sendTo, messageSend, hc]
  have hrest : distance (sendTo s d m) c + 2 * ((s.endpoint.returnBox c).getD []).length =
      distance s c + 2 * (((sendTo s d m).endpoint.returnBox c).getD []).length := by
    simp only [distance, sendTo, messageSend]
    omega
  omega

theorem hand_finish (m : WriteMessage) :
    ((finishMessage s.endpoint c m).connection c).hand = none ∧
      (finishMessage s.endpoint c m).returnBox = s.endpoint.returnBox := by
  rw [finishMessage]
  split <;> simp [setConnection]

theorem proceed_cases (s : System n) (c : ℕ) (anything : Bool) (r : Rest) :
    proceed E s c anything (some r) = cleared s c r ∨
      ∃ m, proceed E s c anything (some r) = sendTo (cleared s c r) c m := by
  cases r with
  | requested d offset =>
    simp only [proceed]
    split
    · exact Or.inl rfl
    · exact Or.inr ⟨_, rfl⟩
  | responded o offset =>
    simp only [proceed]
    split
    · exact Or.inr ⟨_, rfl⟩
    · exact Or.inr ⟨_, rfl⟩

theorem takeContext_cases (s : System n) {m : DataMessage} (hcontext : m.isContext = true)
    (rest : List DataMessage) :
    (∃ contexts stages, takeContext s (m :: rest) =
      { s with dataInbox := rest, contexts := contexts, dataContext := stages }) ∨
    takeContext s (m :: rest) = { s with dataInbox := rest, dataEndpointRuns := false } := by
  cases m with
  | contextOpen c =>
    rw [takeContext]
    split
    · exact Or.inl ⟨_, _, rfl⟩
    · exact Or.inr rfl
  | contextClose c => exact Or.inl ⟨_, _, rfl⟩
  | dataserviceReq q => cases hcontext

/-- No step of the service by itself can be repeated forever. -/
theorem distance_lt (hstep : OwnStep E home c s t) : distance t c < distance s c := by
  obtain ⟨a, hown, ⟨-, -, -, hguard⟩, rfl⟩ := hstep
  cases a with
  | requestContext d => cases hown
  | request d p => cases hown
  | release d => cases hown
  | reclaim d => cases hown
  | proceed d anything =>
    obtain rfl : d = c := hown
    obtain ⟨r, hr⟩ := Option.ne_none_iff_exists'.mp hguard
    rw [next, hr]
    have hsent : distance (proceed E s d anything (some r)) d ≤ distance (cleared s d r) d + 2 := by
      rcases proceed_cases (E := E) s d anything r with heq | ⟨m, heq⟩
      · rw [heq]
        omega
      · rw [heq]
        exact distance_sendTo m
    have hcleared : distance (cleared s d r) d + 3 = distance s d := by
      simp [distance, cleared, hr]
      omega
    omega
  | takeContext =>
    obtain ⟨hreply, m, rest, hinbox, hcontext⟩ := hguard
    rw [next, hinbox]
    rcases takeContext_cases s hcontext rest with ⟨contexts, stages, heq⟩ | heq
    · simp only [heq, distance, hinbox, List.length_cons]
      omega
    · simp only [heq, distance, hinbox, List.length_cons]
      omega
  | finish d =>
    obtain rfl : d = c := hown
    obtain ⟨m, hm⟩ := Option.ne_none_iff_exists'.mp hguard.2
    rw [next, hm, writeMessage]
    cases hpacket : packetFor E.library m with
    | none => simp [distance, hm, setConnection]
    | some p =>
      obtain ⟨hhand, hbox⟩ := hand_finish (s := s) (c := d) m
      simp [distance, hm, hhand, hbox]
  | takeData answer =>
    obtain ⟨hreply, q, rest, hinbox, -⟩ := hguard
    simp only [next, hinbox, takeData, distance, hreply, List.length_cons, Option.toList_some,
      Option.toList_none, List.length_nil]
    omega
  | sendData =>
    obtain ⟨⟨d, m⟩, hm⟩ := Option.ne_none_iff_exists'.mp hguard
    rw [next, hm, sendData]
    split
    · have hsent := distance_sendTo (s := { s with dataReply := none }) (c := c) (d := d) m
      have hfree : distance { s with dataReply := none } c + 3 = distance s c := by
        simp [distance, hm]
        omega
      omega
    · simp [distance, hm]
  | other a =>
    cases a with
    | receive d =>
      obtain ⟨rfl, hbox⟩ := hown
      have hhand : (s.endpoint.connection d).hand = none := hguard.2.1.2.2.2
      obtain ⟨m, rest, hrest⟩ := List.exists_cons_of_ne_nil hbox
      simp only [next, NotificationEndpoint.next, hrest, NotificationEndpoint.receiveMessage]
      simp only [distance, setConnection, Function.update_self, hrest, hhand, Option.getD_some,
        List.length_cons, Option.toList_some, Option.toList_none, List.length_nil]
      omega
    | _ => cases hown

/-- While something is on its way, the service has a step to take. -/
theorem own_step_of_distance (hs : Accounted E home s)
    (hlive : live (s.endpoint.connection c).protocol = true) (hdistance : distance s c ≠ 0) :
    ∃ t, OwnStep E home c s t := by
  have hruns : s.endpoint.endpointRuns = true ∧ s.endpoint.writeEndpointRuns = true ∧
      s.dataEndpointRuns = true :=
    ⟨hs.sound.endpoint.trips.endpoint, hs.sound.endpoint.trips.writeEndpoint, hs.sound.dataEndpoint⟩
  obtain ⟨hend, hwrite, hdata⟩ := hruns
  have hwriting := (hs.sound.endpoint.writes c hlive).1
  have hstep : ∀ a, Own c s a → Enabled home s a → ∃ t, OwnStep E home c s t :=
    fun a hown henabled => ⟨_, a, hown, henabled, rfl⟩
  cases hreply : s.dataReply with
  | some r => exact hstep .sendData trivial ⟨hend, hwrite, hdata, by simp [hreply]⟩
  | none =>
    cases hinbox : s.dataInbox with
    | cons m rest =>
      cases hcontext : m.isContext with
      | true =>
        exact hstep .takeContext trivial
          ⟨hend, hwrite, hdata, hreply, m, rest, hinbox, hcontext⟩
      | false =>
        cases m with
        | contextOpen d => cases hcontext
        | contextClose d => cases hcontext
        | dataserviceReq q =>
          have hanswer : Answer q.request.method (responsePacket q.request.method.code 0 1 none) :=
            .failure 0 (by decide)
          exact hstep (.takeData _) trivial
            ⟨hend, hwrite, hdata, hreply, q, rest, hinbox, hanswer⟩
    | nil =>
      cases hrest : s.rest c with
      | some r => exact hstep (.proceed c true) rfl ⟨hend, hwrite, hdata, by simp [hrest]⟩
      | none =>
        cases hhand : (s.endpoint.connection c).hand with
        | some m =>
          exact hstep (.finish c) rfl ⟨hend, hwrite, hdata, hwriting, by simp [hhand]⟩
        | none =>
          have hbox : (s.endpoint.returnBox c).getD [] ≠ [] := by
            intro hnil
            apply hdistance
            simp [distance, hreply, hinbox, hrest, hhand, hnil]
          refine hstep (.other (.receive c)) ⟨rfl, hbox⟩
            ⟨hend, hwrite, hdata, trivial, ⟨hend, hwrite, hwriting, hhand⟩, ?_, ?_⟩
          · intro d hd
            cases hd
          · intro d hd
            cases hd

/-- What stays as it is: what was asked, and what waits for more than the service. -/
structure Waits (c : ℕ) (s t : System n) : Prop where
  asked : t.asked = s.asked
  forwarded : t.forwarded = s.forwarded
  protocol : (t.endpoint.connection c).protocol = (s.endpoint.connection c).protocol
  pending : ∀ h, pendingAssertion t.endpoint c h = pendingAssertion s.endpoint c h
  waiting : ∀ h, waiting t c h = waiting s c h

theorem waits_sendTo (m : WriteMessage) : Waits c s (sendTo s d m) :=
  ⟨rfl, rfl, rfl, fun _ => rfl, fun _ => rfl⟩

theorem Waits.trans {u : System n} (h₁ : Waits c s t) (h₂ : Waits c t u) : Waits c s u :=
  ⟨h₂.asked.trans h₁.asked, h₂.forwarded.trans h₁.forwarded, h₂.protocol.trans h₁.protocol,
    fun h => (h₂.pending h).trans (h₁.pending h), fun h => (h₂.waiting h).trans (h₁.waiting h)⟩

theorem waits_own_step (hstep : OwnStep E home c s t) : Waits c s t := by
  obtain ⟨a, hown, ⟨-, -, -, hguard⟩, rfl⟩ := hstep
  cases a with
  | requestContext d => cases hown
  | request d p => cases hown
  | release d => cases hown
  | reclaim d => cases hown
  | proceed d anything =>
    obtain ⟨r, hr⟩ := Option.ne_none_iff_exists'.mp hguard
    rw [next, hr]
    have hcleared : Waits c s (cleared s d r) :=
      ⟨rfl, rfl, rfl, fun _ => rfl, fun _ => waiting_cleared hr⟩
    rcases proceed_cases (E := E) s d anything r with heq | ⟨m, heq⟩
    · rw [heq]
      exact hcleared
    · rw [heq]
      exact hcleared.trans (waits_sendTo m)
  | takeContext =>
    obtain ⟨hreply, m, rest, hinbox, hcontext⟩ := hguard
    rw [next, hinbox]
    rcases takeContext_cases s hcontext rest with ⟨contexts, stages, heq⟩ | heq
    · rw [heq]
      exact ⟨rfl, rfl, rfl, fun _ => rfl, fun _ => rfl⟩
    · rw [heq]
      exact ⟨rfl, rfl, rfl, fun _ => rfl, fun _ => rfl⟩
  | finish d =>
    obtain ⟨m, hm⟩ := Option.ne_none_iff_exists'.mp hguard.2
    rw [next, hm, writeMessage]
    cases hpacket : packetFor E.library m with
    | none =>
      exact ⟨rfl, rfl, protocol_setConnection (by rfl) c, fun _ => rfl, fun _ => rfl⟩
    | some p =>
      have hsome : (packetFor E.library m).isSome = true := by
        rw [hpacket]
        rfl
      obtain ⟨flag, hfinish⟩ := finishMessage_eq (s := s.endpoint) (c := d) hsome
      simp only [hfinish]
      exact ⟨rfl, rfl, protocol_setConnection (by rfl) c, fun _ => rfl, fun _ => rfl⟩
  | takeData answer =>
    obtain ⟨hreply, q, rest, hinbox, -⟩ := hguard
    rw [next, hinbox]
    exact ⟨rfl, rfl, rfl, fun _ => rfl, fun _ => rfl⟩
  | sendData =>
    obtain ⟨⟨d, m⟩, hm⟩ := Option.ne_none_iff_exists'.mp hguard
    rw [next, hm, sendData]
    split
    · exact ⟨rfl, rfl, rfl, fun _ => rfl, fun _ => rfl⟩
    · exact ⟨rfl, rfl, rfl, fun _ => rfl, fun _ => rfl⟩
  | other a =>
    cases a with
    | receive d =>
      obtain ⟨rfl, hbox⟩ := hown
      obtain ⟨m, rest, hrest⟩ := List.exists_cons_of_ne_nil hbox
      simp only [next, NotificationEndpoint.next, hrest, NotificationEndpoint.receiveMessage]
      exact ⟨rfl, rfl, protocol_setConnection (by rfl) d, fun _ => rfl, fun _ => rfl⟩
    | _ => cases hown

theorem run_of_own_steps (hs : Run E home (Orderly E home) s)
    (hsteps : Relation.ReflTransGen (OwnStep E home c) s t) :
    Run E home (Orderly E home) t ∧ Waits c s t := by
  induction hsteps with
  | refl => exact ⟨hs, rfl, rfl, rfl, fun _ => rfl, fun _ => rfl⟩
  | tail _ hstep ih =>
    obtain ⟨hrun, hwaits⟩ := ih
    refine ⟨?_, hwaits.trans (waits_own_step hstep)⟩
    obtain ⟨a, hown, henabled, rfl⟩ := hstep
    exact hrun.tail henabled (own_orderly hown)

theorem ne_gone_of_live {p : NotificationEndpoint.ProtocolFiber} (hlive : live p = true) :
    p ≠ .gone := by
  rintro rfl
  cases hlive

theorem inFlight_of_distance (hdistance : distance s c = 0) :
    inFlight E s c h = pendingAssertion s.endpoint c h + waiting s c h := by
  have hparts : s.dataInbox = [] ∧ s.dataReply = none ∧ s.rest c = none ∧
      (s.endpoint.returnBox c).getD [] = [] ∧ (s.endpoint.connection c).hand = none := by
    simp only [distance, Nat.add_eq_zero_iff, Nat.mul_eq_zero] at hdistance
    simpa [and_assoc] using hdistance
  obtain ⟨hinbox, hreply, hrest, hbox, hhand⟩ := hparts
  simp [inFlight, queued, messages, atDataservice, unfinished, hinbox, hreply, hrest, hbox, hhand]

/-! ### The theorem -/

/-- While a connection stays, every request that was read from it has been answered once, with its
request id and its offset, or its one response is on its way. What is on its way arrives when the
service goes on by itself, which it can only do for so long; what is left then are assertions that
are pending and requests that wait for a sentinel. -/
theorem requests_are_answered_once (E : Env) (hL : E.library.Documented) (home : Fin n)
    (s : System n) (hrun : Run E home (Orderly E home) s) (c : ℕ)
    (hlive : live (s.endpoint.connection c).protocol = true) :
    (∀ k ∈ s.asked c, ∃ h, wide h = k) ∧ Balanced E s c ∧
    Acc (fun t u => OwnStep E home c u t) s ∧
    ∀ t, Relation.ReflTransGen (OwnStep E home c) s t → (∀ u, ¬ OwnStep E home c t u) →
      ∀ h, (t.written c).countP (responseHeader · = h) + pendingAssertion s.endpoint c h +
        waiting s c h = (s.asked c).count (wide h) + (s.forwarded c).count h := by
  have hs := accounted_of_run hL hrun
  refine ⟨hs.narrow c, hs.balanced c (ne_gone_of_live hlive), ?_, ?_⟩
  · exact Subrelation.accessible distance_lt
      (InvImage.accessible (distance · c) (Nat.lt_wfRel.wf.apply _))
  · intro t hsteps hstuck h
    obtain ⟨hrun', hwaits⟩ := run_of_own_steps hrun hsteps
    have ht := accounted_of_run hL hrun'
    have hlive' : live (t.endpoint.connection c).protocol = true := by
      rw [hwaits.protocol]
      exact hlive
    have hdistance : distance t c = 0 := by
      by_contra hne
      obtain ⟨u, hu⟩ := own_step_of_distance ht hlive' hne
      exact hstuck u hu
    have hbalanced := ht.balanced c (ne_gone_of_live hlive') h
    rw [inFlight_of_distance hdistance, hwaits.pending, hwaits.waiting, hwaits.asked,
      hwaits.forwarded] at hbalanced
    omega

/-! ### Runs of two clients -/

def decodeSized {α : Type} (size : ℕ) (fields : Bytes → α) (p : Bytes) :
    Except Status (Decoded α) :=
  if p.length = size then .ok ⟨wordAt p 0, wordAt p 4, fields p⟩ else .error 1

def uuidAt (p : Bytes) (i : ℕ) : Uuid := bits 128 (slice p i 16)

def responseBytes (requestId offset : BitVec 32) (status : Status) : Bytes :=
  be 4 requestId ++ be 4 status ++ be 4 offset

def sampleLibrary : Library where
  decodeReq _ := decodeSized 8 fun _ => ()
  decodeReqId _ := decodeSized 24 (uuidAt · 8)
  decodeReqBlockIdByHeightGet := decodeSized 16 fun p => bits 64 (slice p 8 8)
  decodeReqTransactionSubmit := decodeSized 40 fun p => ⟨uuidAt p 8, uuidAt p 24, []⟩
  decodeReqExtendedApi := decodeSized 40 fun p => ⟨uuidAt p 8, uuidAt p 24, []⟩
  decodeReqExtendedApiResponse p :=
    if p.length = 16 then .ok ⟨bits 64 (slice p 4 8), wordAt p 12, []⟩ else .error 1
  encodeResp r offset status _ := responseBytes r.code offset status
  encodeRespGeneric := responseBytes
  encodeErrorResp := responseBytes
  encodeRespExtendedApiClientRequest offset clientId verbId _ _ body :=
    responseBytes 0x52 0 0 ++ be 8 offset ++ be 16 clientId ++ be 16 verbId ++ body
  rbtreeNotFound := 2
  rbtreeDuplicate := 3
  messageSendFailure := 4

theorem sampleLibrary_documented : sampleLibrary.Documented := by
  have hreads : ∀ {α : Type} (size : ℕ) (fields : Bytes → α),
      ReadsHeader (decodeSized size fields) := by
    intro α size fields p d hd
    rw [decodeSized] at hd
    split at hd
    · cases hd
      exact ⟨rfl, rfl⟩
    · cases hd
  have hheader : ∀ requestId offset status,
      responseHeader (responseBytes requestId offset status) = (requestId, offset) := by
    intro requestId offset status
    exact responseHeader_errorResponseMessage requestId status offset
  constructor
  · intro r
    exact hreads 8 _
  · intro r
    exact hreads 24 _
  · exact hreads 16 _
  · exact hreads 40 _
  · exact hreads 40 _
  · intro r offset status body
    exact hheader r.code offset status
  · exact hheader
  · exact hheader

/-- All clients may do some things that need a capability of the agent, and ask the first one for a
verb. -/
def sampleClients (capabilities : List Uuid) : Env where
  library := sampleLibrary
  agentdUuid := 9
  entity c :=
    let uuid := BitVec.ofNat 128 c
    ⟨uuid, (uuid, 5, 1) :: capabilities.map (uuid, ·, 9), [], []⟩

def sampleEnv : Env := sampleClients
  [capabilityAssertLatestBlockId, capabilityAssertLatestBlockIdCancel,
    capabilityExtendedApiEnable, capabilityExtendedApiResp, capabilityExtendedApiSendrecv]

def silentEnv : Env := sampleClients [capabilityExtendedApiEnable, capabilityExtendedApiSendrecv]

def requestPacket (r : ProtocolRequest) (offset : BitVec 32) (fields : Bytes) : Bytes :=
  be 4 r.code ++ be 4 offset ++ fields

def sentinelResponse (offset : BitVec 64) : Bytes :=
  be 4 ProtocolRequest.extendedApiSendresp.code ++ be 8 offset ++ be 4 (0 : Status)

def sentinelRequest : Bytes :=
  requestPacket .extendedApiSendrecv 8 (be 16 (1 : Uuid) ++ be 16 (5 : Uuid))

def arrives (c : ℕ) : List (Action 2) := [.requestContext c, .takeContext, .other (.connect c)]

def writes (c : ℕ) : ℕ → List (Action 2)
  | 0 => []
  | k + 1 => .other (.receive c) :: .finish c :: writes c k

def leaves (c k : ℕ) : List (Action 2) :=
  .other (.leave c) :: writes c k ++ [.release c, .takeContext, .reclaim c]

/-- A client asks a sentinel, the data service and the notification service, and something that is
no request. -/
def allRoutes : List (Action 2) :=
  arrives 1 ++ arrives 2 ++
    [.request 1 (requestPacket .extendedApiEnable 7 []), .request 2 sentinelRequest,
      .proceed 2 false, .request 2 (requestPacket .latestBlockIdGet 9 []),
      .request 2 [1, 2, 3, 4, 5, 6, 7, 8],
      .request 2 (requestPacket .assertLatestBlockId 10 (be 16 zeroUuid)),
      .request 1 (sentinelResponse 1),
      .takeData (responsePacket DataserviceDispatch.Method.appBlockIdLatestRead.code 0 1 none),
      .sendData, .proceed 1 false] ++ writes 1 3 ++ writes 2 3

def Tested (E : Env) (home : Fin n) (s : System n) : Action n → Prop
  | .release _ => False
  | a => Orderly E home s a

instance : DecidablePred (Tested E home s)
  | .requestContext _ =>
    inferInstanceAs (Decidable ((contextsAfter s.contexts s.dataInbox).card < maxChildContexts))
  | .request c p => inferInstanceAs (Decidable (¬ CancelPassedOn E s c p ∧ OffsetReturned E s c p))
  | .proceed _ _ | .finish _ | .takeContext | .takeData _ | .sendData => isTrue trivial
  | .release _ => isFalse id
  | .reclaim c => inferInstanceAs (Decidable (∀ e ∈ s.extendedApiOffsetDict, e.sentinel = c →
    (s.endpoint.connection e.clientReturnAddress).protocol = .gone))
  | .other a => inferInstanceAs (Decidable (Safe home s.endpoint a))

theorem Tested.orderly {a : Action n} (ha : Tested E home s a) : Orderly E home s a := by
  cases a with
  | release c => cases ha
  | _ => exact ha

theorem all_routes_are_answered : ∃ s : System 2, Run sampleEnv 0 (Orderly sampleEnv 0) s ∧
    s.asked 2 = [(0x51, 8), (0x02, 9), (0x01020304, 0x05060708), (0x30, 10)] ∧
    (s.written 2).map responseHeader = [(0x01020304, 0x05060708), (0x51, 8), (0x02, 9)] ∧
    Balanced sampleEnv s 2 ∧ pendingAssertion s.endpoint 2 (0x30, 10) = 1 := by
  have hplay : ((play sampleEnv 0 (Tested sampleEnv 0) (start 2) allRoutes).map fun s =>
      decide (live (s.endpoint.connection 2).protocol = true ∧
        s.asked 2 = [(0x51, 8), (0x02, 9), (0x01020304, 0x05060708), (0x30, 10)] ∧
        (s.written 2).map responseHeader = [(0x01020304, 0x05060708), (0x51, 8), (0x02, 9)] ∧
        pendingAssertion s.endpoint 2 (0x30, 10) = 1)) = some true := by
    decide +kernel
  obtain ⟨s, hs, hfacts⟩ := Option.map_eq_some_iff.mp hplay
  obtain ⟨hlive, hasked, hwritten, hpending⟩ := of_decide_eq_true hfacts
  have hrun := run_of_play (fun _ _ => Tested.orderly) Run.start hs
  obtain ⟨-, hbalanced, -⟩ :=
    requests_are_answered_once sampleEnv sampleLibrary_documented 0 s hrun 2 hlive
  exact ⟨s, hrun, hasked, hwritten, hbalanced, hpending⟩

def cancelled : List (Action 2) :=
  arrives 2 ++ [.request 2 (requestPacket .assertLatestBlockId 1 (be 16 zeroUuid)),
    .other .take, .other .reply, .other (.resume 2), .other (.serve noFaults),
    .request 2 (requestPacket .assertLatestBlockIdCancel 2 []), .other .take, .other .reply,
    .other (.resume 2), .other (.serve noFaults), .other .receiveResponse] ++ writes 2 1

def refused : List (Action 2) :=
  arrives 1 ++ [.request 1 (sentinelResponse 1)] ++ writes 1 1

def asksSentinel : List (Action 2) :=
  arrives 1 ++ arrives 2 ++
    [.request 1 (requestPacket .extendedApiEnable 7 []), .request 2 sentinelRequest]

def deserted : List (Action 2) := asksSentinel ++ [.proceed 2 true] ++ leaves 1 3

/-- A sentinel that does not respond goes while a client's protocol fiber is in `message_send`, and
the entry is read when it was released. -/
def misread : List (Action 2) := asksSentinel ++ leaves 1 3 ++ [.proceed 2 true]

/-- The data service holds contexts for the first connections, which have not yet gone on. -/
def occupied (k : ℕ) : System 2 :=
  { start 2 with
    contexts := Finset.range k
    dataContext := fun c => if c < k then .opened else .none }

theorem run_occupied {k : ℕ} (hk : k ≤ maxChildContexts) :
    Run sampleEnv 0 (fun _ _ => True) (occupied k) := by
  induction k with
  | zero => exact Run.start
  | succ k ih =>
    have hbefore := ih (Nat.le_of_lt hk)
    have hasked := hbefore.tail (a := .requestContext k)
      ⟨rfl, rfl, rfl, rfl, if_neg (Nat.lt_irrefl k)⟩ trivial
    have hopened := hasked.tail (a := .takeContext)
      ⟨rfl, rfl, rfl, rfl, .contextOpen k, [], rfl, rfl⟩ trivial
    have hroom : (occupied k).contexts.card < maxChildContexts := by
      rw [occupied, Finset.card_range]
      exact hk
    have hstages : Function.update (Function.update (occupied k).dataContext k .opening) k .opened =
        (occupied (k + 1)).dataContext := by
      funext c
      by_cases hc : c = k
      · simp [hc, occupied]
      · have hlt : c < k + 1 ↔ c < k := by omega
        simp only [occupied, Function.update_of_ne hc, hlt]
    have hnext : next sampleEnv 0 (next sampleEnv 0 (occupied k) (.requestContext k)) .takeContext =
        occupied (k + 1) := by
      have htake : next sampleEnv 0
          (next sampleEnv 0 (occupied k) (.requestContext k)) .takeContext =
          { occupied k with
            contexts := insert k (occupied k).contexts
            dataContext := Function.update (Function.update (occupied k).dataContext k .opening) k
              .opened } := if_pos hroom
      rw [htake, hstages, occupied, occupied, Finset.range_add_one]
    rw [← hnext]
    exact hopened

/-- A context too many is asked for while a client waits for the data service. -/
def crowded : List (Action 2) :=
  [.other (.connect 0), .requestContext maxChildContexts,
    .request 0 (requestPacket .latestBlockIdGet 9 []), .takeContext]

/-- There is a first instance. -/
local instance two_neZero : NeZero 2 := inferInstance

/-- Nothing is left that would be answered. -/
def Quiet (s : System 2) (c : ℕ) : Prop :=
  live (s.endpoint.connection c).protocol = true ∧ distance s c = 0 ∧ s.endpoint.inbox = [] ∧
  s.endpoint.clientXlatMap c = none ∧ s.endpoint.requests = [] ∧
  NotificationEndpoint.nextResponse 0 s.endpoint = none ∧ s.extendedApiOffsetDict = []

instance (s : System 2) (c : ℕ) : Decidable (Quiet s c) :=
  inferInstanceAs (Decidable (_ ∧ _ ∧ _ ∧ _ ∧ _ ∧ _ ∧ _))

theorem exists_of_play {P : System 2 → Prop} [DecidablePred P] {s : System 2}
    (hs : Run E 0 (fun _ _ => True) s) (xs : List (Action 2))
    (h : (play E 0 (fun _ _ => True) s xs).map (fun t => decide (P t)) = some true) :
    ∃ t, Run E 0 (fun _ _ => True) t ∧ P t := by
  obtain ⟨t, ht, hfacts⟩ := Option.map_eq_some_iff.mp h
  exact ⟨t, run_of_play (fun _ _ => id) hs ht, of_decide_eq_true hfacts⟩

theorem cancels_and_sentinels_are_not_answered :
    (∃ s : System 2, Run sampleEnv 0 (fun _ _ => True) s ∧ Quiet s 2 ∧
      s.asked 2 = [(0x30, 1), (0x31, 2)] ∧ (s.written 2).map responseHeader = [(0x31, 1)]) ∧
    (∃ s : System 2, Run sampleEnv 0 (fun _ _ => True) s ∧ Quiet s 1 ∧
      s.asked 1 = [(0x53, 1)] ∧ (s.written 1).map responseHeader = [(0x53, 0)]) ∧
    (∃ s : System 2, Run sampleEnv 0 (fun _ _ => True) s ∧ Quiet s 2 ∧
      s.asked 2 = [(0x51, 8)] ∧ s.written 2 = []) ∧
    (∃ s : System 2, Run silentEnv 0 (fun _ _ => True) s ∧ Quiet s 2 ∧
      s.asked 2 = [(0x51, 8)] ∧ s.written 2 = []) ∧
    ∃ s : System 2, Run sampleEnv 0 (fun _ _ => True) s ∧
      live (s.endpoint.connection 0).protocol = true ∧ s.dataEndpointRuns = false ∧
      s.asked 0 = [(0x02, 9)] ∧ s.written 0 = [] := by
  refine ⟨?_, ?_, ?_, ?_, ?_⟩
  · exact exists_of_play Run.start cancelled (by decide +kernel)
  · exact exists_of_play Run.start refused (by decide +kernel)
  · exact exists_of_play Run.start deserted (by decide +kernel)
  · exact exists_of_play Run.start misread (by decide +kernel)
  · exact exists_of_play (run_occupied (Nat.le_refl maxChildContexts)) crowded (by decide +kernel)

end AnsweredOnce
