import Agentd.RequestedContexts
import Agentd.ResponseAccounts

/-! # Accounts of requests

For every connection and every pair of a request id and an offset the requests that were read, with
the requests of others that were passed on, are as many as the responses that were written and the
ones that are still on their way. A request is on its way in one place at a time: at the data
service, in the notification endpoint, at a sentinel, in the hands of its own protocol fiber, or as
a message for the write fiber. -/
namespace RequestAccounts

open ByteString
open DataserviceRecords
open DataserviceDispatch
open RequestCodec
open DataEndpoint
open NotificationEndpoint (askEndpoint messageSend errorResponseMessage reqIdAssertLatestBlockId)
open AssertionTrips (Inv Safe isNotice live)
open ClientProtocol
open ClientRequests
open RequestedContexts
open ResponseAccounts

variable {n : ℕ} {E : Env} {home : Fin n} {s t : System n} {c d : ℕ} {h : Header}
  {p : Bytes}

/-! ### Accounts -/

def asks (c : ℕ) (h : Header) : DataMessage → Bool
  | .dataserviceReq q => q.client = c ∧ (q.protocolRequestId, q.offset) = h
  | _ => false

def atDataservice (L : Library) (s : System n) (c : ℕ) (h : Header) : ℕ :=
  s.dataInbox.countP (asks c h) +
    match s.dataReply with
    | none => 0
    | some (d, m) => sentHit L d m c h

/-- A request that was passed on to a sentinel which responds waits for it in its table. -/
def unfinished (E : Env) (rest : Option Rest) (h : Header) : ℕ :=
  match rest with
  | none => 0
  | some (.requested d offset) =>
    if extendedApiCanRespond E d then 0
    else hit (ProtocolRequest.extendedApiSendrecv.code, offset) h
  | some (.responded offset _) =>
    hit (ProtocolRequest.extendedApiSendresp.code, offset.setWidth 32) h

def spent (s : System n) (e : ResponseXlatEntry) : Bool :=
  (s.rest e.sentinel).bind Rest.spent = some e.serverOffset

def waitsFor (c : ℕ) (h : Header) (e : ResponseXlatEntry) : Bool :=
  e.clientReturnAddress = c ∧ (ProtocolRequest.extendedApiSendrecv.code, e.clientOffset) = h

def waiting (s : System n) (c : ℕ) (h : Header) : ℕ :=
  (s.extendedApiOffsetDict.filter fun e => !spent s e).countP (waitsFor c h)

def inFlight (E : Env) (s : System n) (c : ℕ) (h : Header) : ℕ :=
  queued E.library s.endpoint c h + atDataservice E.library s c h + unfinished E (s.rest c) h +
    pendingAssertion s.endpoint c h + waiting s c h

/-- Responses and what is on its way, against requests and what was passed on. -/
def Balanced (E : Env) (s : System n) (c : ℕ) : Prop :=
  ∀ h, (s.written c).countP (responseHeader · = h) + inFlight E s c h =
    (s.asked c).count (wide h) + (s.forwarded c).count h

/-! ### The condition -/

def CancelPassedOn (E : Env) (s : System n) (c : ℕ) (p : Bytes) : Prop :=
  8 ≤ p.length ∧ ProtocolRequest.ofCode (wordAt p 0) = some .assertLatestBlockIdCancel ∧
  (E.entity c).capabilityCheck capabilityAssertLatestBlockIdCancel E.agentdUuid = true ∧
  (∃ req, E.library.decodeReq .assertLatestBlockIdCancel p = .ok req) ∧
  (s.endpoint.connection c).latestBlockIdAssertionSet = true

/-- A response of a sentinel that is passed on to the client that waits for it. -/
def Granted (E : Env) (s : System n) (c : ℕ) (req : ExtendedApiResponse) : Prop :=
  (E.entity c).capabilityCheck capabilityExtendedApiResp E.agentdUuid = true ∧
  ∃ e, findEntry s c req.offset = some e ∧ mailboxOpen s e.clientReturnAddress = true

/-- The offset of a response of a sentinel comes back to the sentinel: from the response itself,
where it is cut to 32 bits, or from the second word of the packet when the response is refused. -/
def OffsetReturned (E : Env) (s : System n) (c : ℕ) (p : Bytes) : Prop :=
  8 ≤ p.length → ProtocolRequest.ofCode (wordAt p 0) = some .extendedApiSendresp →
  ∀ req, E.library.decodeReqExtendedApiResponse p = .ok req →
    (Granted E s c req → req.offset.toNat < 2 ^ 32) ∧
    (¬ Granted E s c req → req.offset = (wordAt p 4).setWidth 64)

/-- No cancel is passed on; the offset of every response of a sentinel comes back; there is room for
every child context that is asked for; no sentinel goes while a request is being passed on to it, or
while a request of a client that is still there waits for it; and the notification endpoint does not
meet what takes its fibers out of their loops. -/
def Orderly (E : Env) (home : Fin n) (s : System n) : Action n → Prop
  | .requestContext _ => (contextsAfter s.contexts s.dataInbox).card < maxChildContexts
  | .request c p => ¬ CancelPassedOn E s c p ∧ OffsetReturned E s c p
  | .proceed _ _ => True
  | .finish _ => True
  | .takeContext => True
  | .takeData _ => True
  | .sendData => True
  | .release c => ∀ d offset, s.rest d ≠ some (.requested c offset)
  | .reclaim c => ∀ e ∈ s.extendedApiOffsetDict, e.sentinel = c →
    (s.endpoint.connection e.clientReturnAddress).protocol = .gone
  | .other a => Safe home s.endpoint a

instance : Decidable (CancelPassedOn E s c p) :=
  decidable_of_iff (8 ≤ p.length ∧
    ProtocolRequest.ofCode (wordAt p 0) = some .assertLatestBlockIdCancel ∧
    (E.entity c).capabilityCheck capabilityAssertLatestBlockIdCancel E.agentdUuid = true ∧
    (E.library.decodeReq .assertLatestBlockIdCancel p).toOption.isSome = true ∧
    (s.endpoint.connection c).latestBlockIdAssertionSet = true) (by
      cases hdecode : E.library.decodeReq .assertLatestBlockIdCancel p with
      | error e => simp [CancelPassedOn, hdecode, Except.toOption]
      | ok req => simp [CancelPassedOn, hdecode, Except.toOption])

instance (req : ExtendedApiResponse) : Decidable (Granted E s c req) :=
  decidable_of_iff ((E.entity c).capabilityCheck capabilityExtendedApiResp E.agentdUuid = true ∧
    ((findEntry s c req.offset).any fun e => mailboxOpen s e.clientReturnAddress) = true)
    (by simp [Granted, Option.any_eq_true])

instance : Decidable (OffsetReturned E s c p) :=
  match hdecode : E.library.decodeReqExtendedApiResponse p with
  | .error _ => isTrue (by simp [OffsetReturned, hdecode])
  | .ok req => decidable_of_iff (8 ≤ p.length →
      ProtocolRequest.ofCode (wordAt p 0) = some .extendedApiSendresp →
      (Granted E s c req → req.offset.toNat < 2 ^ 32) ∧
      (¬ Granted E s c req → req.offset = (wordAt p 4).setWidth 64))
    (by simp [OffsetReturned, hdecode])

/-! ### The invariant -/

/-- A request for the data service comes from one that is served by its method. -/
def Served (q : DataRequest) : Prop :=
  ∃ r : ProtocolRequest, r.code = q.protocolRequestId ∧ methodOf r = some q.request.method

def sameKey (a b : ResponseXlatEntry) : Prop :=
  a.sentinel = b.sentinel ∧ a.serverOffset = b.serverOffset

structure Sound (E : Env) (home : Fin n) (s : System n) : Prop where
  endpoint : Uncancelled E.library home s.endpoint
  contexts : Contexts (RequestedContexts.view s)
  served : ∀ q, .dataserviceReq q ∈ s.dataInbox → mailboxOpen s q.client = true ∧ Served q
  answered : ∀ d m, s.dataReply = some (d, m) → mailboxOpen s d = true ∧
    m.messageType = .dataservice ∧ (packetFor E.library m).isSome = true
  dataEndpoint : s.dataEndpointRuns = true
  routed : ∀ u d, s.extendedApiDict u = some d →
    u = (E.entity d).uuid ∧ s.extendedApiEnabled d = true ∧ mailboxOpen s d = true
  enrolled : ∀ d, s.extendedApiEnabled d = true →
    s.extendedApiDict (E.entity d).uuid = some d ∧ s.dataContext d = .opened
  keys : s.extendedApiOffsetDict.Pairwise fun a b => ¬ sameKey a b
  idle : ∀ c, s.rest c ≠ none → (s.endpoint.connection c).protocol = .reading
  spending : ∀ c r o, s.rest c = some r → r.spent = some o → (findEntry s c o).isSome = true
  pointed : ∀ c d o, s.rest c = some (.requested d o) →
    s.extendedApiDict (E.entity d).uuid = some d

/-- The invariant together with the accounts of all connections that have not ended. The offsets of
all requests have 32 bits. -/
structure Accounted (E : Env) (home : Fin n) (s : System n) : Prop where
  sound : Sound E home s
  narrow : ∀ c, ∀ k ∈ s.asked c, ∃ h, wide h = k
  balanced : ∀ c, (s.endpoint.connection c).protocol ≠ .gone → Balanced E s c

theorem accounted_start (E : Env) (home : Fin n) : Accounted E home (start n) := by
  constructor
  · constructor
    · exact uncancelled_start E.library home
    · exact contexts_start n
    · intro q hq
      cases hq
    · intro d m hreply
      cases hreply
    · rfl
    · intro u d hd
      cases hd
    · intro d henabled
      cases henabled
    · exact List.Pairwise.nil
    · intro c hc
      exact absurd rfl hc
    · intro c r o hr
      cases hr
    · intro c d o hr
      cases hr
  · intro c k hk
    cases hk
  · intro c _ h
    rfl

theorem Sound.own_open (hs : Sound E home s)
    (hlive : live (s.endpoint.connection c).protocol = true) : mailboxOpen s c = true :=
  ((hs.endpoint.trips.fits c).opened hlive).1

theorem Sound.opened (hs : Sound E home s)
    (hreading : (s.endpoint.connection c).protocol = .reading) : s.dataContext c = .opened :=
  hs.contexts.opened (by simp [RequestedContexts.view, hreading])
    (by simp [RequestedContexts.view, hreading])

/-! ### Shifts -/

/-- A step, or part of one, that puts on its way what is due and loses nothing. -/
structure Shift (E : Env) (home : Fin n) (due : ℕ → Header → ℕ) (s t : System n) : Prop where
  sound : Sound E home t
  written : t.written = s.written
  asked : t.asked = s.asked
  stays : ∀ c, (t.endpoint.connection c).protocol ≠ .gone →
    (s.endpoint.connection c).protocol ≠ .gone
  accounts : ∀ c h, (t.endpoint.connection c).protocol ≠ .gone →
    inFlight E t c h + (s.forwarded c).count h =
      inFlight E s c h + (t.forwarded c).count h + due c h

def owed (c : ℕ) (k : Header) (d : ℕ) (h : Header) : ℕ := if d = c then hit k h else 0

theorem Shift.trans {due due' : ℕ → Header → ℕ} {u : System n} (h₁ : Shift E home due s t)
    (h₂ : Shift E home due' t u) : Shift E home (fun c h => due c h + due' c h) s u := by
  refine ⟨h₂.sound, h₂.written.trans h₁.written, h₂.asked.trans h₁.asked, ?_, ?_⟩
  · intro c hc
    exact h₁.stays c (h₂.stays c hc)
  · intro c h hc
    have hsecond := h₂.accounts c h hc
    have hfirst := h₁.accounts c h (h₂.stays c hc)
    omega

theorem Shift.congr {due due' : ℕ → Header → ℕ} (hshift : Shift E home due s t)
    (hdue : ∀ c h, due c h = due' c h) : Shift E home due' s t := by
  refine ⟨hshift.sound, hshift.written, hshift.asked, hshift.stays, ?_⟩
  intro c h hc
  rw [← hdue]
  exact hshift.accounts c h hc

theorem mailboxOpen_sendTo (m : WriteMessage) : mailboxOpen (sendTo s d m) c = mailboxOpen s c := by
  by_cases hc : c = d
  · simp [mailboxOpen, sendTo, messageSend, hc]
  · simp [mailboxOpen, sendTo, messageSend, hc]

theorem Sound.sendTo (hs : Sound E home s) {m : WriteMessage} (hnotice : isNotice m = false)
    (hpacket : (packetFor E.library m).isSome = true) (d : ℕ) :
    Sound E home (sendTo s d m) := by
  refine { hs with
    endpoint := hs.endpoint.messageSend hnotice hpacket d
    served := ?_
    answered := ?_
    routed := ?_ }
  · intro q hq
    rw [mailboxOpen_sendTo]
    exact hs.served q hq
  · intro d' m' hreply
    rw [mailboxOpen_sendTo]
    exact hs.answered d' m' hreply
  · intro u d' hd'
    rw [mailboxOpen_sendTo]
    exact hs.routed u d' hd'

theorem Sound.setEndpoint (hs : Sound E home s) {ep : NotificationEndpoint.System n}
    (hendpoint : Uncancelled E.library home ep)
    (hopens : ∀ d, (s.endpoint.returnBox d).isSome = true → (ep.returnBox d).isSome = true)
    (hidle : ∀ d, s.rest d ≠ none → (ep.connection d).protocol = .reading)
    (hstanding : ∀ d, Standing (ep.connection d).protocol (s.dataContext d)) :
    Sound E home { s with endpoint := ep } := by
  refine { hs with
    endpoint := hendpoint
    contexts := hs.contexts.setProtocol hstanding
    served := ?_
    answered := ?_
    routed := ?_
    idle := hidle }
  · intro q hq
    exact ⟨hopens _ (hs.served q hq).1, (hs.served q hq).2⟩
  · intro d m hm
    exact ⟨hopens d (hs.answered d m hm).1, (hs.answered d m hm).2⟩
  · intro u d hd
    obtain ⟨huuid, henabled, hopen⟩ := hs.routed u d hd
    exact ⟨huuid, henabled, hopens d hopen⟩

/-- What a change of the notification endpoint means for the accounts. -/
theorem inFlight_endpoint (ep : NotificationEndpoint.System n) :
    inFlight E { s with endpoint := ep } c h +
      (queued E.library s.endpoint c h + pendingAssertion s.endpoint c h) =
    inFlight E s c h + (queued E.library ep c h + pendingAssertion ep c h) := by
  have hdata : atDataservice E.library { s with endpoint := ep } c h =
      atDataservice E.library s c h := rfl
  have hwaiting : waiting { s with endpoint := ep } c h = waiting s c h := rfl
  simp only [inFlight, hdata, hwaiting]
  omega

theorem inFlight_sendTo (hopen : mailboxOpen s d = true) (m : WriteMessage) :
    inFlight E (sendTo s d m) c h = inFlight E s c h + sentHit E.library d m c h := by
  have hsplit := inFlight_endpoint (E := E) (s := s) (c := c) (h := h) (messageSend s.endpoint d m)
  have hpending : pendingAssertion (messageSend s.endpoint d m) c h =
      pendingAssertion s.endpoint c h := rfl
  rw [queued_messageSend hopen, hpending] at hsplit
  rw [sendTo]
  omega

theorem shift_sendTo (hs : Sound E home s) {m : WriteMessage} (hnotice : isNotice m = false)
    (hpacket : (packetFor E.library m).isSome = true) (hopen : mailboxOpen s d = true) :
    Shift E home (sentHit E.library d m) s (sendTo s d m) := by
  refine ⟨hs.sendTo hnotice hpacket d, rfl, rfl, fun _ hc => hc, ?_⟩
  intro c h _
  rw [inFlight_sendTo hopen]
  have hforwarded : (ClientRequests.sendTo s d m).forwarded = s.forwarded := rfl
  rw [hforwarded]
  omega

theorem sentHit_packet (L : Library) {p : Bytes} {k : Header} (hk : responseHeader p = k) :
    sentHit L d (packetMessage p) c h = owed d k c h := by
  have hheader : headerFor L (packetMessage p) = some k := by
    rw [← hk]
    rfl
  rw [sentHit, hheader, owed]
  by_cases hc : c = d
  · simp [hc, hit]
  · simp [hc]

theorem errorResponseMessage_eq (requestId status offset : BitVec 32) :
    errorResponseMessage requestId status offset =
      packetMessage (errorResponseMessage requestId status offset).payload := rfl

/-- A response of a connection to its own client. -/
theorem shift_respond (hs : Sound E home s)
    (hlive : live (s.endpoint.connection c).protocol = true) (requestId status offset : BitVec 32) :
    Shift E home (owed c (requestId, offset)) s
      (sendTo s c (errorResponseMessage requestId status offset)) := by
  refine (shift_sendTo hs rfl rfl (hs.own_open hlive)).congr ?_
  intro d h
  rw [errorResponseMessage_eq]
  exact sentHit_packet _ (responseHeader_errorResponseMessage requestId status offset)

/-- What is left out of the accounts. -/
theorem shift_aside (hs : Sound E home s) (dict : Uuid → Option ℕ) (enabled : ℕ → Bool)
    (offsets : ℕ → BitVec 64) (ends : ℕ → Bool)
    (hrouted : ∀ u d, dict u = some d →
      u = (E.entity d).uuid ∧ enabled d = true ∧ mailboxOpen s d = true)
    (henrolled : ∀ d, enabled d = true →
      dict (E.entity d).uuid = some d ∧ s.dataContext d = .opened)
    (hpointed : ∀ c d o, s.rest c = some (.requested d o) → dict (E.entity d).uuid = some d) :
    Shift E home (fun _ _ => 0) s { s with
      extendedApiDict := dict
      extendedApiEnabled := enabled
      extendedApiOffset := offsets
      loopEnds := ends } :=
  ⟨{ hs with
      routed := hrouted
      enrolled := henrolled
      pointed := hpointed },
    rfl, rfl, fun _ hc => hc, fun _ _ _ => rfl⟩

/-- Offsets of sentinels and the ends of loops. -/
theorem shift_counters (hs : Sound E home s) (offsets : ℕ → BitVec 64) (ends : ℕ → Bool) :
    Shift E home (fun _ _ => 0) s { s with
      extendedApiOffset := offsets
      loopEnds := ends } :=
  shift_aside hs s.extendedApiDict s.extendedApiEnabled offsets ends hs.routed hs.enrolled
    hs.pointed

theorem Shift.refl (hs : Sound E home s) : Shift E home (fun _ _ => 0) s s :=
  shift_counters hs s.extendedApiOffset s.loopEnds

/-! ### Entries of sentinels -/

theorem countP_filter_key {l : List ResponseXlatEntry} {e : ResponseXlatEntry}
    (hkeys : l.Pairwise fun a b => ¬ sameKey a b) (he : e ∈ l) (P : ResponseXlatEntry → Bool) :
    (l.filter fun a => ¬ (a.sentinel = e.sentinel ∧ a.serverOffset = e.serverOffset)).countP P +
      (if P e then 1 else 0) = l.countP P := by
  induction l with
  | nil => cases he
  | cons a l ih =>
    rw [List.pairwise_cons] at hkeys
    obtain ⟨hhead, htail⟩ := hkeys
    rcases List.mem_cons.mp he with rfl | hmem
    · have hrest : l.filter (fun a => ¬ (a.sentinel = e.sentinel ∧
          a.serverOffset = e.serverOffset)) = l := by
        apply List.filter_eq_self.mpr
        intro a ha
        exact decide_eq_true fun hkey => hhead a ha ⟨hkey.1.symm, hkey.2.symm⟩
      rw [List.filter_cons_of_neg (by simp), hrest, List.countP_cons]
    · have hne : ¬ (a.sentinel = e.sentinel ∧ a.serverOffset = e.serverOffset) := hhead e hmem
      rw [List.filter_cons_of_pos (by exact decide_eq_true hne), List.countP_cons,
        List.countP_cons]
      have hih := ih htail hmem
      omega

theorem findEntry_some {o : BitVec 64} {e : ResponseXlatEntry} (he : findEntry s c o = some e) :
    e ∈ s.extendedApiOffsetDict ∧ e.sentinel = c ∧ e.serverOffset = o := by
  refine ⟨List.mem_of_find?_eq_some he, ?_⟩
  have hkey := List.find?_some he
  simpa using hkey

theorem not_spent_of_rest {e : ResponseXlatEntry} (hrest : s.rest e.sentinel = none) :
    spent s e = false := by
  simp [spent, hrest]

/-- What a client is owed for its entry is whether the entry waits for it. -/
theorem owed_client (e : ResponseXlatEntry) :
    owed e.clientReturnAddress (ProtocolRequest.extendedApiSendrecv.code, e.clientOffset) d h =
      if waitsFor d h e then 1 else 0 := by
  by_cases hd : d = e.clientReturnAddress
  · simp [owed, waitsFor, hd, hit]
  · have hne : ¬ e.clientReturnAddress = d := fun heq => hd heq.symm
    simp [owed, waitsFor, hd, hne]

/-- An entry that is being responded to waits no longer. -/
theorem waiting_spend (hs : Sound E home s) (hrest : s.rest c = none) {o : BitVec 64}
    {e : ResponseXlatEntry} (he : findEntry s c o = some e) (offset : BitVec 32) :
    waiting { s with rest := Function.update s.rest c (some (.responded o offset)) } d h +
      owed e.clientReturnAddress (ProtocolRequest.extendedApiSendrecv.code, e.clientOffset) d h =
        waiting s d h := by
  obtain ⟨hmem, rfl, rfl⟩ := findEntry_some he
  have hfilter : (s.extendedApiOffsetDict.filter fun a => !spent { s with
      rest := Function.update s.rest e.sentinel (some (.responded e.serverOffset offset)) } a) =
      (s.extendedApiOffsetDict.filter fun a => !spent s a).filter fun a =>
        ¬ (a.sentinel = e.sentinel ∧ a.serverOffset = e.serverOffset) := by
    rw [List.filter_filter]
    apply List.filter_congr
    intro a _
    by_cases ha : a.sentinel = e.sentinel
    · simp [spent, Rest.spent, ha, hrest, eq_comm]
    · simp [spent, ha]
  have hunspent : e ∈ s.extendedApiOffsetDict.filter fun a => !spent s a := by
    rw [List.mem_filter]
    exact ⟨hmem, by simp [not_spent_of_rest hrest]⟩
  have hcount := countP_filter_key (hs.keys.sublist List.filter_sublist) hunspent (waitsFor d h)
  rw [waiting, waiting, hfilter, ← hcount]
  rw [owed_client]

/-- A new entry waits. -/
theorem waiting_append {e : ResponseXlatEntry} (hspent : spent s e = false) :
    waiting { s with extendedApiOffsetDict := s.extendedApiOffsetDict ++ [e] } d h =
      waiting s d h + owed e.clientReturnAddress
        (ProtocolRequest.extendedApiSendrecv.code, e.clientOffset) d h := by
  have hsame : ∀ a, spent { s with
      extendedApiOffsetDict := s.extendedApiOffsetDict ++ [e] } a = spent s a := fun _ => rfl
  simp only [waiting, hsame, List.filter_append, List.countP_append]
  have hone : [e].filter (fun a => !spent s a) = [e] := by simp [hspent]
  rw [hone, List.countP_singleton]
  rw [owed_client]

/-! ### Dispatch -/

/-- A dispatch takes on what its client is owed, or it fails and changes nothing that counts. -/
def Dispatched (E : Env) (home : Fin n) (c : ℕ) (k : Header) (s : System n) : Outcome n → Prop
  | (t, none) => Shift E home (owed c k) s t
  | (t, some _) => Shift E home (fun _ _ => 0) s t ∧ t.endpoint = s.endpoint

theorem dispatched_failure (hs : Sound E home s) {k : Header} (status : Status) :
    Dispatched E home c k s (s, some status) :=
  ⟨Shift.refl hs, rfl⟩

theorem dispatched_assert (hL : E.library.Documented) (hs : Sound E home s)
    (hreading : (s.endpoint.connection c).protocol = .reading) (hrest : s.rest c = none) :
    Dispatched E home c (reqIdAssertLatestBlockId, wordAt p 4) s
      (dndAssertLatestBlockId E s c (wordAt p 4) p) := by
  rw [dndAssertLatestBlockId]
  split
  · exact dispatched_failure hs _
  · cases hdecode : E.library.decodeReqId .assertLatestBlockId p with
    | error e => exact dispatched_failure hs e
    | ok req =>
      have hoffset : req.offset = wordAt p 4 := (hL.decodeReqId _ p req hdecode).2
      simp only [hoffset]
      split
      · exact dispatched_failure hs _
      · rename_i hflag
        have hunset := Bool.not_eq_true _ ▸ hflag
        have hask := uncancelled_ask hs.endpoint hreading hunset (wordAt p 4) req.fields
        have hopened := hs.opened hreading
        refine ⟨{ hs with
          endpoint := hask
          contexts := hs.contexts.setProtocol ?_
          idle := ?_ }, rfl, rfl, ?_, ?_⟩
        · intro d
          change Standing _ (s.dataContext d)
          by_cases hdc : d = c
          · rw [hdc, hopened]
            trivial
          · have hstanding : Standing (s.endpoint.connection d).protocol (s.dataContext d) :=
              hs.contexts.standing d
            simpa [askEndpoint, NotificationEndpoint.setConnection, hdc] using hstanding
        · intro d hd
          have hne : d ≠ c := by
            rintro rfl
            exact hd hrest
          rw [← hs.idle d hd]
          simp [askEndpoint, NotificationEndpoint.setConnection, hne]
        · intro d hd
          by_cases hdc : d = c
          · rw [hdc, hreading]
            simp
          · simpa [askEndpoint, NotificationEndpoint.setConnection, hdc] using hd
        · intro d h _
          have hsplit := inFlight_endpoint (E := E) (s := s) (c := d) (h := h)
            (askEndpoint s.endpoint c (.asserting (wordAt p 4))
              ⟨false, wordAt p 4, req.fields, c⟩)
          rw [queued_congr (messages_ask ..), pendingAssertion_ask] at hsplit
          simp only [owed]
          omega

/-- Only a cancel that fails is not passed on. -/
theorem dispatched_cancel (hs : Sound E home s) {k : Header}
    (hcancel : (E.entity c).capabilityCheck capabilityAssertLatestBlockIdCancel E.agentdUuid =
    true →
      (∃ req, E.library.decodeReq .assertLatestBlockIdCancel p = .ok req) →
      (s.endpoint.connection c).latestBlockIdAssertionSet = false) :
    Dispatched E home c k s (dndAssertLatestBlockIdCancel E s c (wordAt p 4) p) := by
  rw [dndAssertLatestBlockIdCancel]
  split
  · exact dispatched_failure hs _
  · rename_i hcheck
    cases hdecode : E.library.decodeReq .assertLatestBlockIdCancel p with
    | error e => exact dispatched_failure hs e
    | ok req =>
      have hunset := hcancel (Bool.not_eq_false _ ▸ hcheck) ⟨req, hdecode⟩
      simp only [hunset, if_true]
      exact dispatched_failure hs _

theorem dispatched_enable (hL : E.library.Documented) (hs : Sound E home s)
    (hreading : (s.endpoint.connection c).protocol = .reading) :
    Dispatched E home c (wordAt p 0, wordAt p 4) s
      (dndExtendedApiEnable E s c (wordAt p 4) p) := by
  have hlive : live (s.endpoint.connection c).protocol = true := by
    rw [hreading]
    rfl
  rw [dndExtendedApiEnable]
  split
  · exact dispatched_failure hs _
  · cases hdecode : E.library.decodeReq .extendedApiEnable p with
    | error e => exact dispatched_failure hs e
    | ok req =>
      simp only [(hL.decodeReq _ p req hdecode).1]
      split
      · exact dispatched_failure hs _
      · rename_i hunrouted
        have hfree : ∀ d, s.extendedApiDict (E.entity d).uuid = some d →
            (E.entity d).uuid ≠ (E.entity c).uuid := by
          intro d hd huuid
          rw [huuid] at hd
          simp [hd] at hunrouted
        have haside := shift_aside hs
          (Function.update s.extendedApiDict (E.entity c).uuid (some c))
          (Function.update s.extendedApiEnabled c true) s.extendedApiOffset s.loopEnds ?_ ?_ ?_
        · exact (haside.trans (shift_respond haside.sound hlive _ _ _)).congr
            fun _ _ => Nat.zero_add _
        · intro u d hd
          by_cases hu : u = (E.entity c).uuid
          · rw [hu, Function.update_self] at hd
            cases hd
            exact ⟨hu, Function.update_self .., hs.own_open hlive⟩
          · rw [Function.update_of_ne hu] at hd
            obtain ⟨huuid, henabled, hopen⟩ := hs.routed u d hd
            refine ⟨huuid, ?_, hopen⟩
            by_cases hdc : d = c
            · rw [hdc, Function.update_self]
            · rw [Function.update_of_ne hdc]
              exact henabled
        · intro d henabled
          by_cases hdc : d = c
          · rw [hdc, Function.update_self]
            exact ⟨rfl, hs.opened hreading⟩
          · rw [Function.update_of_ne hdc] at henabled
            obtain ⟨hd, hopened⟩ := hs.enrolled d henabled
            rw [Function.update_of_ne (hfree d hd), hd]
            exact ⟨rfl, hopened⟩
        · intro c' d o hrest
          have hd := hs.pointed c' d o hrest
          rw [Function.update_of_ne (hfree d hd), hd]

theorem dispatched_statusGet (hL : E.library.Documented) (hs : Sound E home s)
    (hlive : live (s.endpoint.connection c).protocol = true) :
    Dispatched E home c (wordAt p 0, wordAt p 4) s (dndStatusGet E s c (wordAt p 4) p) := by
  rw [dndStatusGet]
  cases hdecode : E.library.decodeReq .statusGet p with
  | error e => exact dispatched_failure hs e
  | ok req =>
    simp only [(hL.decodeReq _ p req hdecode).1]
    exact shift_respond hs hlive _ _ _

theorem dispatched_close (hs : Sound E home s) {offset : BitVec 32}
    (hlive : live (s.endpoint.connection c).protocol = true) :
    Dispatched E home c (ProtocolRequest.close.code, offset) s (dndClose s c offset) := by
  have haside := shift_counters hs s.extendedApiOffset (Function.update s.loopEnds c true)
  exact (haside.trans (shift_respond haside.sound hlive _ _ _)).congr fun _ _ => Nat.zero_add _

/-- A request for the data service keeps its request id and offset. -/
theorem dispatched_data (hL : E.library.Documented) (hs : Sound E home s)
    (hreading : (s.endpoint.connection c).protocol = .reading) {r : ProtocolRequest}
    (hr : r.code = wordAt p 0) {request : Except Status (BitVec 32 × ClientRequest)}
    (hrequest : dataserviceRequest E.library p r = some request) :
    Dispatched E home c (wordAt p 0, wordAt p 4) s (sendRequest s c (wordAt p 4) request) := by
  cases request with
  | error e => exact dispatched_failure hs e
  | ok passed =>
    obtain ⟨id, q⟩ := passed
    obtain ⟨hid, hmethod⟩ := dataserviceRequest_ok hL hr hrequest
    have hopen : mailboxOpen s c = true := by
      apply hs.own_open
      rw [hreading]
      rfl
    have hopened := hs.opened hreading
    refine ⟨{ hs with
      contexts := contexts_dataserviceReq hs.contexts ⟨c, id, wordAt p 4, q⟩ hopened
      served := ?_ }, rfl, rfl, fun _ hd => hd, ?_⟩
    · intro q' hq'
      rcases List.mem_append.mp hq' with hold | hnew
      · exact hs.served q' hold
      · cases List.mem_singleton.mp hnew
        exact ⟨hopen, r, hid.symm, hmethod⟩
    · intro d h _
      have hwaiting : waiting { s with
          dataInbox := s.dataInbox ++ [.dataserviceReq ⟨c, id, wordAt p 4, q⟩] } d h =
          waiting s d h := rfl
      simp only [inFlight, hwaiting, atDataservice, List.countP_append, List.countP_singleton, asks,
        owed]
      by_cases hd : d = c
      · simp only [hd, hid, hr, hit, true_and, if_true]
        simp only [decide_eq_true_eq]
        omega
      · have hne : ¬ c = d := fun heq => hd heq.symm
        simp only [hd, hne, false_and, decide_false, Bool.false_eq_true, if_false]
        omega

/-! ### Extended API -/

/-- A request of a client that is passed on to a sentinel. -/
theorem shift_forward (hs : Sound E home s) (hopen : mailboxOpen s d = true) (packet : Bytes) :
    Shift E home (fun _ _ => 0) s (forward s d packet) := by
  have hsend := shift_sendTo hs (m := packetMessage packet) rfl rfl hopen
  obtain ⟨hsound, hwritten, hasked, hstays, haccounts⟩ := hsend
  refine ⟨{ hsound with }, hwritten, hasked, hstays, ?_⟩
  intro c h hc
  have hsent := haccounts c h hc
  rw [sentHit_packet E.library rfl, owed] at hsent
  have hsame : inFlight E (forward s d packet) c h =
      inFlight E (sendTo s d (packetMessage packet)) c h := rfl
  have hforwarded : (sendTo s d (packetMessage packet)).forwarded = s.forwarded := rfl
  rw [hforwarded] at hsent
  rw [hsame]
  by_cases hcd : c = d
  · subst hcd
    simp only [forward, Function.update_self, List.count_append, List.count_singleton]
    simp only [hit, if_true, beq_iff_eq] at hsent ⊢
    omega
  · simp only [forward, Function.update_of_ne hcd]
    simp only [hcd, if_false] at hsent
    omega

/-- What the client of a request is owed when it was passed on to a sentinel. -/
def owedBy (E : Env) (d c : ℕ) (k : Header) (c' : ℕ) (h : Header) : ℕ :=
  if extendedApiCanRespond E d then 0 else owed c k c' h

/-- A protocol fiber waits in `message_send`. -/
theorem shift_requested (hs : Sound E home s)
    (hreading : (s.endpoint.connection c).protocol = .reading) (hrest : s.rest c = none)
    (hrouted : s.extendedApiDict (E.entity d).uuid = some d) (offset : BitVec 32) :
    Shift E home (owedBy E d c (ProtocolRequest.extendedApiSendrecv.code, offset)) s
      { s with rest := Function.update s.rest c (some (.requested d offset)) } := by
  have hspent : ∀ e, spent { s with
      rest := Function.update s.rest c (some (.requested d offset)) } e = spent s e := by
    intro e
    by_cases he : e.sentinel = c
    · simp [spent, Rest.spent, he, hrest]
    · simp [spent, he]
  refine ⟨{ hs with idle := ?_, spending := ?_, pointed := ?_ }, rfl, rfl, fun _ hd => hd, ?_⟩
  · intro c' hc'
    by_cases hcc : c' = c
    · rw [hcc]
      exact hreading
    · exact hs.idle c' (by simpa [hcc] using hc')
  · intro c' r o hr ho
    by_cases hcc : c' = c
    · rw [hcc] at hr
      simp only [Function.update_self, Option.some.injEq] at hr
      rw [← hr] at ho
      cases ho
    · exact hs.spending c' r o (by simpa [hcc] using hr) ho
  · intro c' d' o hr
    by_cases hcc : c' = c
    · rw [hcc] at hr
      simp only [Function.update_self, Option.some.injEq, Rest.requested.injEq] at hr
      rw [← hr.1]
      exact hrouted
    · exact hs.pointed c' d' o (by simpa [hcc] using hr)
  · intro c' h _
    have hwaiting : waiting { s with
        rest := Function.update s.rest c (some (.requested d offset)) } c' h = waiting s c' h := by
      simp only [waiting, hspent]
    have hdata : atDataservice E.library { s with
        rest := Function.update s.rest c (some (.requested d offset)) } c' h =
        atDataservice E.library s c' h := rfl
    simp only [inFlight, hwaiting, hdata, owedBy]
    by_cases hcc : c' = c
    · cases hresponds : extendedApiCanRespond E d with
      | true =>
        simp only [hcc, Function.update_self, hrest, unfinished, hresponds, if_true]
        omega
      | false =>
        simp only [hcc, Function.update_self, hrest, unfinished, hresponds, Bool.false_eq_true,
          if_false, owed, if_true]
        omega
    · simp only [Function.update_of_ne hcc]
      split
      · omega
      · simp only [owed, hcc, if_false]
        omega

/-- A request that waits for a sentinel. -/
theorem shift_entry (hs : Sound E home s) {o : BitVec 64} (hfree : findEntry s d o = none)
    (offset : BitVec 32) (c : ℕ) :
    Shift E home (owed c (ProtocolRequest.extendedApiSendrecv.code, offset)) s { s with
      extendedApiOffsetDict := s.extendedApiOffsetDict ++ [⟨d, o, offset, c⟩] } := by
  have hunspent : spent s ⟨d, o, offset, c⟩ = false := by
    by_contra hspent
    simp only [spent, decide_eq_false_iff_not, not_not, Option.bind_eq_some_iff] at hspent
    obtain ⟨r, hr, ho⟩ := hspent
    have hsome := hs.spending d r o hr ho
    rw [hfree] at hsome
    cases hsome
  refine ⟨{ hs with keys := ?_, spending := ?_ }, rfl, rfl, fun _ hd => hd, ?_⟩
  · rw [List.pairwise_append]
    refine ⟨hs.keys, List.pairwise_singleton .., ?_⟩
    intro a ha b hb
    rw [List.mem_singleton.mp hb]
    have hnot := List.find?_eq_none.mp hfree a ha
    simpa [sameKey] using hnot
  · intro c' r o' hr ho'
    have hsome := hs.spending c' r o' hr ho'
    rw [findEntry, List.find?_append, Option.isSome_or]
    rw [findEntry] at hsome
    rw [hsome, Bool.true_or]
  · intro d' h _
    have hwaiting := waiting_append (d := d') (h := h) hunspent
    have hdata : atDataservice E.library { s with
        extendedApiOffsetDict := s.extendedApiOffsetDict ++ [⟨d, o, offset, c⟩] } d' h =
        atDataservice E.library s d' h := rfl
    simp only [inFlight, hwaiting, hdata]
    omega

/-- The response of a sentinel: its client gets what it was waiting for, and the sentinel is left
with a response of its own. -/
theorem shift_spend (hL : E.library.Documented) (hs : Sound E home s)
    (hreading : (s.endpoint.connection c).protocol = .reading) (hrest : s.rest c = none)
    {o : BitVec 64} {e : ResponseXlatEntry} (he : findEntry s c o = some e)
    (hopen : mailboxOpen s e.clientReturnAddress = true) (status : Status) (body : ResponseBody)
    (offset : BitVec 32) :
    Shift E home (owed c (ProtocolRequest.extendedApiSendresp.code, o.setWidth 32)) s
      { sendTo s e.clientReturnAddress (packetMessage
          (E.library.encodeResp .extendedApiSendrecv e.clientOffset status body)) with
        rest := Function.update s.rest c (some (.responded o offset)) } := by
  have hsend := shift_sendTo hs (m := packetMessage
    (E.library.encodeResp .extendedApiSendrecv e.clientOffset status body)) rfl rfl hopen
  generalize hu : sendTo s e.clientReturnAddress (packetMessage
    (E.library.encodeResp .extendedApiSendrecv e.clientOffset status body)) = u at hsend ⊢
  have hentries : u.extendedApiOffsetDict = s.extendedApiOffsetDict := by
    rw [← hu]
    rfl
  have hurest : u.rest = s.rest := by
    rw [← hu]
    rfl
  have hprotocol : (u.endpoint.connection c).protocol = .reading := by
    rw [← hu]
    exact hreading
  have heu : findEntry u c o = some e := by
    rw [findEntry, hentries]
    exact he
  rw [← hurest]
  refine ⟨{ hsend.sound with idle := ?_, spending := ?_, pointed := ?_ }, hsend.written,
    hsend.asked, hsend.stays, ?_⟩
  · intro d hd
    by_cases hdc : d = c
    · rw [hdc]
      exact hprotocol
    · exact hsend.sound.idle d (by simpa [hdc] using hd)
  · intro d r o' hr ho'
    by_cases hdc : d = c
    · rw [hdc] at hr ⊢
      simp only [Function.update_self, Option.some.injEq] at hr
      rw [← hr] at ho'
      cases ho'
      exact Option.isSome_iff_exists.mpr ⟨e, heu⟩
    · exact hsend.sound.spending d r o' (by simpa [hdc] using hr) ho'
  · intro d d' o' hr
    by_cases hdc : d = c
    · simp [hdc] at hr
    · exact hsend.sound.pointed d d' o' (by simpa [hdc] using hr)
  · intro d h hd
    have hcount := hsend.accounts d h hd
    rw [sentHit_packet E.library (hL.encodeResp ..)] at hcount
    have hwaiting := waiting_spend hsend.sound (d := d) (h := h) (hurest ▸ hrest) heu offset
    have hdata : atDataservice E.library { u with
        rest := Function.update u.rest c (some (.responded o offset)) } d h =
        atDataservice E.library u d h := rfl
    have hunfinished : unfinished E (Function.update u.rest c (some (.responded o offset)) d) h =
        unfinished E (u.rest d) h +
          owed c (ProtocolRequest.extendedApiSendresp.code, o.setWidth 32) d h := by
      by_cases hdc : d = c
      · simp [hdc, hurest, hrest, unfinished, owed]
      · simp [hdc, owed]
    simp only [inFlight, hdata, hunfinished] at hcount ⊢
    omega

theorem shift_sendOn (hs : Sound E home s)
    (hreading : (s.endpoint.connection c).protocol = .reading) (hrest : s.rest c = none)
    (hrouted : s.extendedApiDict (E.entity d).uuid = some d) (offset : BitVec 32) (packet : Bytes) :
    ∃ t, sendOn E s c d offset packet = (t, none) ∧
      Shift E home (owedBy E d c (ProtocolRequest.extendedApiSendrecv.code, offset)) s t := by
  have hopen := (hs.routed _ d hrouted).2.2
  refine ⟨_, if_neg (by simp [hopen]), ?_⟩
  have hforward := shift_forward hs hopen packet
  refine (hforward.trans (shift_requested hforward.sound hreading hrest hrouted offset)).congr ?_
  intro c' h
  exact Nat.zero_add _

theorem dispatched_sendReq (hs : Sound E home s)
    (hreading : (s.endpoint.connection c).protocol = .reading) (hrest : s.rest c = none)
    (req : Decoded ExtendedApiFields) :
    Dispatched E home c (ProtocolRequest.extendedApiSendrecv.code, req.offset) s
      (extendedApiSendReq E s c req) := by
  rw [extendedApiSendReq]
  split
  · exact dispatched_failure hs _
  · cases hdict : s.extendedApiDict req.fields.entityId with
    | none => exact dispatched_failure hs _
    | some d =>
      have hrouted : s.extendedApiDict (E.entity d).uuid = some d := by
        rw [← (hs.routed _ d hdict).1]
        exact hdict
      have hcounter := shift_counters hs
        (Function.update s.extendedApiOffset d (s.extendedApiOffset d + 1)) s.loopEnds
      simp only
      split
      · rename_i hresponds
        split
        · exact ⟨hcounter, rfl⟩
        · rename_i hfree
          have hentry := shift_entry hcounter.sound (Option.not_isSome_iff_eq_none.mp hfree)
            req.offset c
          obtain ⟨t, ht, hsend⟩ := shift_sendOn hentry.sound hreading hrest hrouted req.offset
            (E.library.encodeRespExtendedApiClientRequest (s.extendedApiOffset d + 1)
              (E.entity c).uuid req.fields.verbId (E.entity c).encryptionPubkey
              (E.entity c).signingPubkey req.fields.requestBody)
          rw [ht]
          refine ((hcounter.trans hentry).trans hsend).congr ?_
          intro d' h
          rw [owedBy, if_pos hresponds]
          omega
      · rename_i hsilent
        obtain ⟨t, ht, hsend⟩ := shift_sendOn hcounter.sound hreading hrest hrouted req.offset
          (E.library.encodeRespExtendedApiClientRequest (s.extendedApiOffset d + 1)
            (E.entity c).uuid req.fields.verbId (E.entity c).encryptionPubkey
            (E.entity c).signingPubkey req.fields.requestBody)
        rw [ht]
        refine (hcounter.trans hsend).congr ?_
        intro d' h
        rw [owedBy, if_neg hsilent]
        omega

theorem dispatched_sendrecv (hL : E.library.Documented) (hs : Sound E home s)
    (hreading : (s.endpoint.connection c).protocol = .reading) (hrest : s.rest c = none) :
    Dispatched E home c (ProtocolRequest.extendedApiSendrecv.code, wordAt p 4) s
      (dndExtendedApiSendrecv E s c p) := by
  rw [dndExtendedApiSendrecv]
  split
  · exact dispatched_failure hs _
  · cases hdecode : E.library.decodeReqExtendedApi p with
    | error e => exact dispatched_failure hs e
    | ok req =>
      rw [← (hL.decodeReqExtendedApi p req hdecode).2]
      exact dispatched_sendReq hs hreading hrest req

/-- A dispatch of a packet: what its client is owed is what it has asked for, and so is what it is
answered when the dispatch fails. -/
def DispatchedPacket (E : Env) (home : Fin n) (c : ℕ) (p : Bytes) (s : System n) (o : Outcome n) :
    Prop :=
  ∃ k, wide k = (wordAt p 0, requestOffset E.library p) ∧ Dispatched E home c k s o ∧
    (o.2 ≠ none → k = (wordAt p 0, wordAt p 4))

theorem dndExtendedApiSendresp_refused {req : ExtendedApiResponse}
    (hdecode : E.library.decodeReqExtendedApiResponse p = .ok req)
    (hgranted : ¬ Granted E s c req) :
    ∃ status, dndExtendedApiSendresp E s c (wordAt p 4) p = (s, some status) := by
  rw [dndExtendedApiSendresp]
  split
  · exact ⟨_, rfl⟩
  · rename_i hcheck
    simp only [hdecode]
    cases hentry : findEntry s c req.offset with
    | none => exact ⟨_, rfl⟩
    | some e =>
      have hclosed : mailboxOpen s e.clientReturnAddress = false := by
        rw [← Bool.not_eq_true]
        intro hopen
        exact hgranted ⟨Bool.not_eq_false _ ▸ hcheck, e, hentry, hopen⟩
      exact ⟨_, if_pos hclosed⟩

theorem dispatched_sendresp (hL : E.library.Documented) (hs : Sound E home s)
    (hreading : (s.endpoint.connection c).protocol = .reading) (hrest : s.rest c = none)
    (hlength : 8 ≤ p.length)
    (hcode : ProtocolRequest.ofCode (wordAt p 0) = some .extendedApiSendresp)
    (hoffset : OffsetReturned E s c p) :
    DispatchedPacket E home c p s (dndExtendedApiSendresp E s c (wordAt p 4) p) := by
  have hr := ProtocolRequest.code_of_ofCode hcode
  cases hdecode : E.library.decodeReqExtendedApiResponse p with
  | error e =>
    have hfails : ∃ status, dndExtendedApiSendresp E s c (wordAt p 4) p = (s, some status) := by
      rw [dndExtendedApiSendresp]
      split
      · exact ⟨_, rfl⟩
      · simp only [hdecode]
        exact ⟨_, rfl⟩
    obtain ⟨status, hstatus⟩ := hfails
    rw [hstatus]
    refine ⟨(wordAt p 0, wordAt p 4), ?_, dispatched_failure hs status, fun _ => rfl⟩
    simp only [requestOffset, hcode, if_true, hdecode, wide]
  | ok req =>
    obtain ⟨hgrant, hrefuse⟩ := hoffset hlength hcode req hdecode
    by_cases hgranted : Granted E s c req
    · obtain ⟨hcheck, e, hentry, hopen⟩ := hgranted
      have hnot : ¬ mailboxOpen s e.clientReturnAddress = false := by simp [hopen]
      have hwide : (req.offset.setWidth 32).setWidth 64 = req.offset := by
        apply BitVec.eq_of_toNat_eq
        have hbound := hgrant ⟨hcheck, e, hentry, hopen⟩
        simp only [BitVec.toNat_setWidth]
        omega
      simp only [dndExtendedApiSendresp, hcheck, Bool.true_eq_false, if_false, hdecode, hentry,
        hnot]
      refine ⟨(ProtocolRequest.extendedApiSendresp.code, req.offset.setWidth 32), ?_, ?_, ?_⟩
      · simp only [requestOffset, hcode, if_true, hdecode, wide, hwide, hr]
      · exact shift_spend hL hs hreading hrest hentry hopen _ _ _
      · intro hfailed
        exact absurd rfl hfailed
    · obtain ⟨status, hstatus⟩ := dndExtendedApiSendresp_refused hdecode hgranted
      rw [hstatus]
      refine ⟨(wordAt p 0, wordAt p 4), ?_, dispatched_failure hs status, fun _ => rfl⟩
      simp only [requestOffset, hcode, if_true, hdecode, wide, hrefuse hgranted]

theorem dispatchedPacket_of (hother : ProtocolRequest.ofCode (wordAt p 0) ≠
      some .extendedApiSendresp) {o : Outcome n}
    (hdispatched : Dispatched E home c (wordAt p 0, wordAt p 4) s o) :
    DispatchedPacket E home c p s o := by
  refine ⟨(wordAt p 0, wordAt p 4), ?_, hdispatched, fun _ => rfl⟩
  simp only [requestOffset, hother, if_false, wide]

theorem dispatched (hL : E.library.Documented) (hs : Sound E home s)
    (hreading : (s.endpoint.connection c).protocol = .reading) (hrest : s.rest c = none)
    (hlength : 8 ≤ p.length) (horderly : Orderly E home s (.request c p)) :
    DispatchedPacket E home c p s
      (ClientRequests.decodeAndDispatch E s c (wordAt p 0) (wordAt p 4) p) := by
  have hlive : live (s.endpoint.connection c).protocol = true := by
    rw [hreading]
    rfl
  obtain ⟨hcancel, hoffset⟩ := horderly
  rw [ClientRequests.decodeAndDispatch]
  cases hcode : ProtocolRequest.ofCode (wordAt p 0) with
  | none => exact dispatchedPacket_of (by simp [hcode]) (dispatched_failure hs _)
  | some r =>
    have hr : r.code = wordAt p 0 := ProtocolRequest.code_of_ofCode hcode
    cases r with
    | extendedApiSendresp => exact dispatched_sendresp hL hs hreading hrest hlength hcode hoffset
    | assertLatestBlockId =>
      refine dispatchedPacket_of (by simp [hcode]) ?_
      rw [← hr]
      exact dispatched_assert hL hs hreading hrest
    | assertLatestBlockIdCancel =>
      refine dispatchedPacket_of (by simp [hcode]) (dispatched_cancel hs ?_)
      intro hcheck hdecode
      rw [← Bool.not_eq_true]
      intro hset
      exact hcancel ⟨hlength, hcode, hcheck, hdecode, hset⟩
    | extendedApiEnable =>
      exact dispatchedPacket_of (by simp [hcode]) (dispatched_enable hL hs hreading)
    | extendedApiSendrecv =>
      refine dispatchedPacket_of (by simp [hcode]) ?_
      rw [← hr]
      exact dispatched_sendrecv hL hs hreading hrest
    | statusGet => exact dispatchedPacket_of (by simp [hcode]) (dispatched_statusGet hL hs hlive)
    | close =>
      refine dispatchedPacket_of (by simp [hcode]) ?_
      rw [← hr]
      exact dispatched_close hs hlive
    | _ => exact dispatchedPacket_of (by simp [hcode]) (dispatched_data hL hs hreading hr rfl)

end RequestAccounts
