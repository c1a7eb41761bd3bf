import Agentd.ExtendedApiInvariant

/-! # Steps of the extended API

What a request does is said once for every kind of request; that a step keeps the invariant and that
it adds no more than it may follow from that. -/
namespace ExtendedApi

open ByteString
open DataserviceRecords
open ClientProtocol
open ClientRequests (Env extendedApiCanRespond)

variable {E : Env} {s t : System} {c d : ℕ} {p : Bytes} {o : Option Status}

/-! ### Steps that add nothing -/

/-- No request is accepted, no response is sent, and nothing is written. -/
structure Kept (s t : System) : Prop where
  accepted : t.accepted = s.accepted
  responded : t.responded = s.responded
  written : t.written = s.written
  writing : ∀ d, (t.connection d).writing = (s.connection d).writing

theorem Kept.refl (s : System) : Kept s s := ⟨rfl, rfl, rfl, fun _ => rfl⟩

theorem Kept.trans {u : System} (h : Kept s t) (k : Kept t u) : Kept s u where
  accepted := k.accepted.trans h.accepted
  responded := k.responded.trans h.responded
  written := k.written.trans h.written
  writing d := (k.writing d).trans (h.writing d)

theorem Kept.set {k : FiberContext} (h : k.writing = (s.connection c).writing) :
    Kept s (s.set c k) where
  accepted := rfl
  responded := rfl
  written := rfl
  writing d := by
    rw [connection_set]
    by_cases hdc : d = c
    · rw [if_pos hdc, h, hdc]
    · rw [if_neg hdc]

theorem Kept.posted {packet : Packet} {q : List Packet} : Kept s (posted s c packet q) := by
  have hset : Kept s (s.set c { s.connection c with mailbox := some (q ++ [packet]) }) :=
    Kept.set rfl
  exact { hset with }

theorem Kept.sendErrorResponse (requestId offset : BitVec 32) (status : Status) :
    Kept s (sendErrorResponse s c requestId status offset) := by
  unfold ExtendedApi.sendErrorResponse
  cases hq : (s.connection c).mailbox with
  | none =>
    rw [messageSend_closed hq]
    exact Kept.refl s
  | some q =>
    rw [messageSend_open hq]
    exact Kept.posted

/-! ### Requests -/

/-- An entry that is there can be looked at. -/
theorem touch_live (h : Lifetimes E s) {entry : DictEntry} (he : entry ∈ s.extendedApiDict) :
    touch s entry = s := by
  unfold touch
  rw [if_pos ⟨he, (h.entry_live entry he).2.1⟩]

/-- The sentinel of an entry takes messages. -/
theorem Lifetimes.sentinel_open (h : Lifetimes E s) {entry : DictEntry}
    (he : entry ∈ s.extendedApiDict) : ∃ q, (s.connection entry.ctx).mailbox = some q := by
  obtain ⟨henabled, hlive, -⟩ := h.entry_live entry he
  refine Option.ne_none_iff_exists'.mp (h.mailbox_open entry.ctx ?_ hlive)
  intro habsent
  rw [h.unused entry.ctx habsent] at henabled
  cases henabled

theorem sendOn_open {entry : DictEntry} {offset : BitVec 32} {packet : Packet} {q : List Packet}
    (hq : (s.connection entry.ctx).mailbox = some q) : sendOn E s c entry offset packet =
      ((posted s entry.ctx packet q).setFiber c (.sendingRequest entry offset), none) := by
  unfold sendOn
  rw [messageSend_open hq]

theorem xlatEntryAdd_fresh {x : XlatEntry}
    (h : ∀ y ∈ (s.connection d).extendedApiOffsetDict, y.serverOffset ≠ x.serverOffset) :
    xlatEntryAdd E s d x = .ok (s.set d { s.connection d with
      extendedApiOffsetDict := (s.connection d).extendedApiOffsetDict ++ [x] }) := by
  unfold xlatEntryAdd
  have hnone : (s.connection d).extendedApiOffsetDict.find?
      (fun y => decide (y.serverOffset = x.serverOffset)) = none := by
    rw [List.find?_eq_none]
    intro y hy heq
    exact h y hy (of_decide_eq_true heq)
  dsimp only
  rw [hnone]
  rfl

theorem set_set {k l : FiberContext} : (s.set c k).set c l = s.set c l := by
  unfold System.set
  rw [Function.update_idem]

theorem set_connection : s.set c (s.connection c) = s := by
  unfold System.set
  rw [Function.update_eq_self]

def numbered (s : System) (c d : ℕ) (req : Decoded ExtendedApiFields) : System :=
  { s.set d { s.connection d with extendedApiOffset := (s.connection d).extendedApiOffset + 1 } with
    accepted := s.accepted ++ [⟨c, d, (s.connection d).extendedApiOffset + 1, req⟩] }

theorem numbered_connection {req : Decoded ExtendedApiFields} :
    (numbered s c d req).connection d =
      { s.connection d with extendedApiOffset := (s.connection d).extendedApiOffset + 1 } :=
  connection_set_self

/-- The message after the request has its offset, and its entry if the sentinel responds. -/
theorem posted_numbered (req : Decoded ExtendedApiFields) {q : List Packet}
    (tree : List XlatEntry) (htree : tree = (s.connection d).extendedApiOffsetDict ++
      if (s.connection d).extendedApiCanRespond then
        [⟨(s.connection d).extendedApiOffset + 1, req.offset, c⟩] else []) :
    posted ((numbered s c d req).set d { (numbered s c d req).connection d with
      extendedApiOffsetDict := tree }) d
      (clientRequestPacket E c ((s.connection d).extendedApiOffset + 1) req) q =
      forwarded E s c d req q := by
  unfold posted arrive
  rw [connection_set_self, set_set, numbered_connection, htree]
  simp [forwarded, arrive, numbered, System.set, FiberContext.given]

/-- A request for an entity whose sentinel is there, and takes one more entry. -/
theorem extendedApiSendReq_found (h : Lifetimes E s) {req : Decoded ExtendedApiFields} {s' : System}
    (hcap : ¬ (E.entity c).capabilityCheck req.fields.verbId req.fields.entityId = false)
    {entry : DictEntry} (he : entry ∈ s.extendedApiDict)
    (hfind : (s.extendedApiDict.find? fun e => e.entityId = req.fields.entityId) = some entry)
    (hadd : xlatEntryAdd E (numbered s c entry.ctx req) entry.ctx
      ⟨(s.connection entry.ctx).extendedApiOffset + 1, req.offset, c⟩ = .ok s') :
    extendedApiSendReq E s c req =
      sendOn E (if (s.connection entry.ctx).extendedApiCanRespond = true then s'
        else numbered s c entry.ctx req) c entry req.offset
          (clientRequestPacket E c ((s.connection entry.ctx).extendedApiOffset + 1) req) := by
  unfold numbered at hadd ⊢
  rw [extendedApiSendReq, if_neg hcap, hfind]
  dsimp only
  rw [touch_live h he]
  by_cases hresponds : (s.connection entry.ctx).extendedApiCanRespond = true
  · rw [if_pos hresponds, if_pos hresponds]
    dsimp only at hadd
    rw [hadd]
  · rw [if_neg hresponds, if_neg hresponds]

/-- What a request for an entity does: it is refused, or goes on to the sentinel of the entity. -/
theorem extendedApiSendReq_cases (h : Invariant E s) {req : Decoded ExtendedApiFields}
    (hoffset : ∀ e ∈ s.extendedApiDict, e.entityId = req.fields.entityId →
      (s.connection e.ctx).extendedApiOffset ≠ BitVec.allOnes 64) :
    ((∃ status, extendedApiSendReq E s c req = (s, some status)) ∧
      ((E.entity c).capabilityCheck req.fields.verbId req.fields.entityId = true →
        ∀ e ∈ s.extendedApiDict, e.entityId ≠ req.fields.entityId)) ∨
    ∃ entry ∈ s.extendedApiDict, ∃ q, entry.entityId = req.fields.entityId ∧
      (E.entity c).capabilityCheck req.fields.verbId req.fields.entityId = true ∧
      (s.connection entry.ctx).mailbox = some q ∧
      extendedApiSendReq E s c req =
        ((forwarded E s c entry.ctx req q).setFiber c (.sendingRequest entry req.offset),
        none) := by
  by_cases hcap : (E.entity c).capabilityCheck req.fields.verbId req.fields.entityId = false
  · refine Or.inl ⟨⟨_, if_pos hcap⟩, fun htrue => ?_⟩
    rw [hcap] at htrue
    cases htrue
  · cases hfind : s.extendedApiDict.find? fun e => e.entityId = req.fields.entityId with
    | none =>
      refine Or.inl ⟨⟨errorExtendedApiUnknownEntity, ?_⟩, fun _ e he hid => ?_⟩
      · rw [extendedApiSendReq, if_neg hcap, hfind]
      · exact List.find?_eq_none.mp hfind e he (decide_eq_true hid)
    | some entry =>
      have he := List.mem_of_find?_eq_some hfind
      have hid : entry.entityId = req.fields.entityId := by
        simpa using List.find?_some hfind
      obtain ⟨q, hq⟩ := h.lifetimes.sentinel_open he
      refine Or.inr ⟨entry, he, q, hid, Bool.eq_true_of_not_eq_false hcap, hq, ?_⟩
      have hfresh : ∀ y ∈ ((numbered s c entry.ctx req).connection entry.ctx).extendedApiOffsetDict,
          y.serverOffset ≠ (s.connection entry.ctx).extendedApiOffset + 1 := by
        intro y hy
        rw [numbered_connection] at hy
        exact h.requests.fresh_entry (hoffset entry he hid) hy
      rw [extendedApiSendReq_found h.lifetimes hcap he hfind (xlatEntryAdd_fresh hfresh)]
      by_cases hresponds : (s.connection entry.ctx).extendedApiCanRespond = true
      · rw [if_pos hresponds, sendOn_open (q := q), posted_numbered]
        · rw [if_pos hresponds, numbered_connection]
        · rw [connection_set_self, numbered_connection]
          exact hq
      · rw [if_neg hresponds, sendOn_open (q := q)]
        · have hsame := posted_numbered (E := E) (s := s) (c := c) (d := entry.ctx) (q := q)
            req (s.connection entry.ctx).extendedApiOffsetDict
            (by rw [if_neg hresponds, List.append_nil])
          rw [← hsame, show ({ (numbered s c entry.ctx req).connection entry.ctx with
            extendedApiOffsetDict := (s.connection entry.ctx).extendedApiOffsetDict } :
              FiberContext)
              = (numbered s c entry.ctx req).connection entry.ctx by rw [numbered_connection],
            set_connection]
        · rw [numbered_connection]
          exact hq

/-- What a response does: it is refused, or goes on to the client of its entry. -/
theorem dndExtendedApiSendresp_cases (s : System) (c : ℕ) (offset : BitVec 32) (p : Bytes) :
    (∃ status, dndExtendedApiSendresp E s c offset p = (s, some status)) ∨
    ∃ response x q, E.library.decodeReqExtendedApiResponse p = .ok response ∧
      x ∈ (s.connection c).extendedApiOffsetDict ∧ x.serverOffset = response.offset ∧
      (s.connection x.clientReturnAddress).mailbox = some q ∧
      dndExtendedApiSendresp E s c offset p = (answered s c x response offset q, none) := by
  unfold dndExtendedApiSendresp
  by_cases hcap : (E.entity c).capabilityCheck capabilityExtendedApiResp E.agentdUuid = false
  · rw [if_pos hcap]
    exact Or.inl ⟨_, rfl⟩
  rw [if_neg hcap]
  cases hdecode : E.library.decodeReqExtendedApiResponse p with
  | error e => exact Or.inl ⟨e, rfl⟩
  | ok response =>
    dsimp only
    cases hfind : (s.connection c).extendedApiOffsetDict.find?
        fun e => e.serverOffset = response.offset with
    | none => exact Or.inl ⟨_, rfl⟩
    | some x =>
      dsimp only
      cases hq : (s.connection x.clientReturnAddress).mailbox with
      | none =>
        rw [messageSend_closed hq]
        exact Or.inl ⟨_, rfl⟩
      | some q =>
        rw [messageSend_open hq]
        refine Or.inr ⟨response, x, q, rfl, List.mem_of_find?_eq_some hfind, ?_, hq, rfl⟩
        simpa using List.find?_some hfind

theorem reading_used (h : (s.connection c).fiber = .reading) :
    (s.connection c).fiber ≠ .absent ∧ (s.connection c).fiber ≠ .ended := by
  rw [h]
  constructor <;> intro heq <;> cases heq

theorem route_ok {u : System} (h : routeExtendedApiForEntity E s c = .ok u) :
    (∀ e ∈ s.extendedApiDict, e.entityId ≠ (E.entity c).uuid) ∧
    u.set c { u.connection c with extendedApiEnabled := true } = routedTo E s c := by
  unfold routeExtendedApiForEntity at h
  cases hfind : s.extendedApiDict.find? fun e => e.entityId = (E.entity c).uuid with
  | some e =>
    rw [hfind] at h
    cases h
  | none =>
    rw [hfind] at h
    cases h
    refine ⟨fun e he hid => ?_, rfl⟩
    exact List.find?_eq_none.mp hfind e he (decide_eq_true hid)

/-- A sentinel that is going to be routed responds or does not. -/
theorem Invariant.setCanRespond (h : Invariant E s) (hreading : (s.connection c).fiber = .reading)
    (responds : Bool) :
    Invariant E (s.set c { s.connection c with extendedApiCanRespond := responds }) where
  lifetimes := h.lifetimes.set (reading_used hreading).1 rfl rfl (h.lifetimes.ended c)
    (h.lifetimes.mailbox_open c (reading_used hreading).1) (h.lifetimes.sending c)
  mail := h.mail.set (reading_used hreading).1 (Or.inl rfl)
  requests := h.requests.set rfl fun _ hx => hx
  responses := h.responses.set (fun _ hx => hx) fun _ _ offset hfib => ⟨offset, hfib⟩

/-- Enabling the API adds at most a route. -/
theorem enable_keeps (h : Invariant E s) (hreading : (s.connection c).fiber = .reading)
    (offset : BitVec 32) (p : Bytes) : Invariant E (dndExtendedApiEnable E s c offset p).1 ∧
      Kept s (dndExtendedApiEnable E s c offset p).1 := by
  unfold dndExtendedApiEnable
  by_cases hcap : (E.entity c).capabilityCheck capabilityExtendedApiEnable E.agentdUuid = false
  · rw [if_pos hcap]
    exact ⟨h, Kept.refl s⟩
  rw [if_neg hcap]
  cases hdecode : E.library.decodeReq .extendedApiEnable p with
  | error e => exact ⟨h, Kept.refl s⟩
  | ok req =>
    dsimp only
    have hresponds := h.setCanRespond hreading (extendedApiCanRespond E c)
    have hkept : Kept s (s.set c
        { s.connection c with extendedApiCanRespond := extendedApiCanRespond E c }) := Kept.set rfl
    have hstill : ((s.set c { s.connection c with
        extendedApiCanRespond := extendedApiCanRespond E c }).connection c).fiber = .reading := by
      rw [connection_set_self]
      exact hreading
    generalize s.set c { s.connection c with
      extendedApiCanRespond := extendedApiCanRespond E c } = u at hresponds hkept hstill ⊢
    cases hroute : routeExtendedApiForEntity E u c with
    | error e => exact ⟨hresponds, hkept⟩
    | ok v =>
      dsimp only
      obtain ⟨hfree, heq⟩ := route_ok hroute
      rw [heq]
      have hrouted : Kept u (routedTo E u c) := by
        have hset : Kept u (u.set c { u.connection c with extendedApiEnabled := true }) :=
          Kept.set rfl
        exact { hset with }
      exact ⟨(hresponds.route hstill hfree).sendErrorResponse _ _ _,
        (hkept.trans hrouted).trans (Kept.sendErrorResponse _ _ _)⟩

/-- What a request packet does: it adds nothing, or a request goes on to a sentinel, or a response
to a client. -/
theorem decodeAndDispatch_cases (h : Invariant E s) (hreading : (s.connection c).fiber = .reading)
    (htimely : Timely E s (.request c p)) :
    (Invariant E (decodeAndDispatch E s c p).1 ∧ Kept s (decodeAndDispatch E s c p).1 ∧
      ∀ req, Authorized E c p req → ∀ e ∈ s.extendedApiDict, e.entityId ≠ req.fields.entityId) ∨
    (∃ req, ∃ entry ∈ s.extendedApiDict, ∃ q, Authorized E c p req ∧
      entry.entityId = req.fields.entityId ∧ (s.connection entry.ctx).mailbox = some q ∧
      decodeAndDispatch E s c p =
        ((forwarded E s c entry.ctx req q).setFiber c (.sendingRequest entry req.offset), none)) ∨
    (∃ response x q, ProtocolRequest.ofCode (wordAt p 0) = some .extendedApiSendresp ∧
      E.library.decodeReqExtendedApiResponse p = .ok response ∧
      x ∈ (s.connection c).extendedApiOffsetDict ∧ x.serverOffset = response.offset ∧
      (s.connection x.clientReturnAddress).mailbox = some q ∧
      decodeAndDispatch E s c p = (answered s c x response (wordAt p 4) q, none)) := by
  unfold decodeAndDispatch
  split
  next hcode =>
    refine Or.inl ⟨(enable_keeps h hreading _ p).1, (enable_keeps h hreading _ p).2, ?_⟩
    intro req hauth
    cases hcode.symm.trans hauth.1
  next hcode =>
    unfold dndExtendedApiSendrecv
    by_cases hcap : (E.entity c).capabilityCheck capabilityExtendedApiSendrecv E.agentdUuid = false
    · rw [if_pos hcap]
      refine Or.inl ⟨h, Kept.refl s, fun req hauth => ?_⟩
      cases hcap.symm.trans hauth.2.2.1
    rw [if_neg hcap]
    cases hdecode : E.library.decodeReqExtendedApi p with
    | error e =>
      refine Or.inl ⟨h, Kept.refl s, fun req hauth => ?_⟩
      cases hdecode.symm.trans hauth.2.1
    | ok req =>
      have hauthorized : ∀ verb, verb = true →
          (E.entity c).capabilityCheck req.fields.verbId req.fields.entityId = verb →
          Authorized E c p req := by
        intro verb hverb hcheck
        exact ⟨hcode, hdecode, Bool.eq_true_of_not_eq_false hcap, hcheck.trans hverb⟩
      by_cases hverb : (E.entity c).capabilityCheck req.fields.verbId req.fields.entityId = true
      · rcases extendedApiSendReq_cases (c := c) h
          (htimely req (hauthorized true rfl hverb)) with ⟨⟨status, heq⟩, hnone⟩ |
            ⟨entry, he, q, hid, hcheck, hq, heq⟩
        · dsimp only
          rw [heq]
          refine Or.inl ⟨h, Kept.refl s, fun other hauth => ?_⟩
          cases hdecode.symm.trans hauth.2.1
          exact hnone hverb
        · exact Or.inr (Or.inl ⟨req, entry, he, q, hauthorized true rfl hcheck, hid, hq, heq⟩)
      · refine Or.inl ?_
        dsimp only
        unfold extendedApiSendReq
        rw [if_pos (Bool.eq_false_of_not_eq_true hverb)]
        refine ⟨h, Kept.refl s, fun other hauth => ?_⟩
        cases hdecode.symm.trans hauth.2.1
        exact (hverb hauth.2.2.2).elim
  next hcode =>
    rcases dndExtendedApiSendresp_cases (E := E) s c (wordAt p 4) p with ⟨status, heq⟩ |
      ⟨response, x, q, hdecode, hx, hkey, hq, heq⟩
    · rw [heq]
      refine Or.inl ⟨h, Kept.refl s, fun req hauth => ?_⟩
      cases hcode.symm.trans hauth.1
    · exact Or.inr (Or.inr ⟨response, x, q, hcode, hdecode, hx, hkey, hq, heq⟩)
  next _ hother _ =>
    refine Or.inl ⟨h, Kept.refl s, fun req hauth => ?_⟩
    exact (hother hauth.1).elim

/-! ### Other steps -/

theorem resume_keeps (h : Invariant E s) (hsends : (s.connection c).fiber.sends = true)
    (anything : Bool) : Invariant E (resume E s c anything (s.connection c).fiber) ∧
      Kept s (resume E s c anything (s.connection c).fiber) := by
  cases hfiber : (s.connection c).fiber with
  | absent =>
    rw [hfiber] at hsends
    cases hsends
  | reading =>
    rw [hfiber] at hsends
    cases hsends
  | ended =>
    rw [hfiber] at hsends
    cases hsends
  | sendingRequest entry offset =>
    have he := h.lifetimes.sending c entry offset hfiber
    have hset : Invariant E (s.setFiber c .reading) := by
      apply h.setFiber
      · rw [hfiber]
        rfl
      · rintro ⟨⟩
      · rintro _ _ ⟨⟩
    have hkept : Kept s (s.setFiber c .reading) := Kept.set rfl
    unfold resume
    dsimp only
    rw [touch_live h.lifetimes he, if_pos he]
    split
    · exact ⟨hset, hkept⟩
    · exact ⟨hset.sendErrorResponse _ _ _, hkept.trans (Kept.sendErrorResponse _ _ _)⟩
  | sendingResponse offset requestOffset =>
    have hused : (s.connection c).fiber ≠ .absent := by
      rw [hfiber]
      intro heq
      cases heq
    have hlive : (s.connection c).released = false := by
      apply h.lifetimes.not_released
      rw [hfiber]
      intro heq
      cases heq
    have hset : Invariant E (s.set c { s.connection c with
        fiber := .reading
        extendedApiOffsetDict := (s.connection c).extendedApiOffsetDict.filter
          fun e => e.serverOffset ≠ offset }) := by
      constructor
      · refine h.lifetimes.set (fun heq => by cases heq) rfl rfl ?_
          (h.lifetimes.mailbox_open c hused) (fun _ _ heq => by cases heq)
        intro hrel
        rw [show (s.connection c).released = true from hrel] at hlive
        cases hlive
      · exact h.mail.set (fun heq => by cases heq) (Or.inl rfl)
      · exact h.requests.set rfl fun x hx => (List.mem_filter.mp hx).1
      · refine h.responses.set (fun x hx => (List.mem_filter.mp hx).1) ?_
        intro x hx requestOffset' heq
        rw [hfiber] at heq
        cases heq
        exact ((of_decide_eq_true (List.mem_filter.mp hx).2) rfl).elim
    have hkept : Kept s (s.set c { s.connection c with
        fiber := .reading
        extendedApiOffsetDict := (s.connection c).extendedApiOffsetDict.filter
          fun e => e.serverOffset ≠ offset }) := Kept.set rfl
    unfold resume
    dsimp only
    split
    · exact ⟨hset.sendErrorResponse _ _ _, hkept.trans (Kept.sendErrorResponse _ _ _)⟩
    · exact ⟨hset.sendErrorResponse _ _ _, hkept.trans (Kept.sendErrorResponse _ _ _)⟩

theorem Invariant.connect (h : Invariant E s) (habsent : (s.connection c).fiber = .absent) :
    Invariant E (next E s (.connect c)) := by
  have hk := h.lifetimes.unused c habsent
  have hnone : s.arrived c = [] := h.mail.unused c habsent
  have hwritten : s.written c = [] := List.prefix_nil.mp (hnone ▸ h.mail.written c)
  change Invariant E (s.set c _)
  constructor
  · refine h.lifetimes.set (fun heq => by cases heq) rfl rfl ?_ (fun _ heq => by cases heq)
      (fun _ _ heq => by cases heq)
    intro hrel
    rw [hk] at hrel
    cases hrel
  · refine ⟨?_, ?_, h.mail.written⟩
    · intro d hd
      rw [connection_set] at hd
      by_cases hdc : d = c
      · rw [if_pos hdc] at hd
        cases hd
      · rw [if_neg hdc] at hd
        exact h.mail.unused d hd
    · intro d q hq
      rw [connection_set] at hq
      by_cases hdc : d = c
      · rw [if_pos hdc] at hq
        cases hq
        rw [hdc]
        change s.arrived c = s.written c ++ []
        rw [hnone, hwritten]
        rfl
      · rw [if_neg hdc] at hq
        exact h.mail.queued d q hq
  · exact h.requests.set rfl fun _ hx => hx
  · refine h.responses.set (fun _ hx => hx) ?_
    intro x hx
    rw [hk] at hx
    cases hx

/-- A packet that is written was the first in the mailbox. -/
theorem Invariant.write (h : Invariant E s) : Invariant E (next E s (.write c)) := by
  change Invariant E (writePacket s c (s.connection c).mailbox)
  cases hq : (s.connection c).mailbox with
  | none => exact h
  | some q =>
    cases q with
    | nil => exact h
    | cons packet q =>
      have hused := h.lifetimes.used hq
      have hlifetimes := h.lifetimes.set (c := c)
        (k := { s.connection c with mailbox := some q }) hused rfl rfl (h.lifetimes.ended c)
        (fun _ hnone => by cases hnone) (h.lifetimes.sending c)
      have hrequests := h.requests.set (c := c)
        (k := { s.connection c with mailbox := some q }) rfl fun _ hx => hx
      have hresponses := h.responses.set (c := c)
        (k := { s.connection c with mailbox := some q }) (fun _ hx => hx)
        fun _ _ offset hfib => ⟨offset, hfib⟩
      have hwritten : ∀ d, (writePacket s c (some (packet :: q))).written d =
          if d = c then s.written c ++ [packet] else s.written d :=
        Function.update_apply s.written c _
      have hall : s.arrived c = (s.written c ++ [packet]) ++ q := by
        rw [h.mail.queued c _ hq, List.append_assoc]
        rfl
      refine ⟨{ hlifetimes with }, ⟨?_, ?_, ?_⟩, { hrequests with }, { hresponses with }⟩
      · intro d hd
        change ((s.set c _).connection d).fiber = .absent at hd
        rw [connection_set] at hd
        by_cases hdc : d = c
        · rw [if_pos hdc] at hd
          exact (hused hd).elim
        · rw [if_neg hdc] at hd
          exact h.mail.unused d hd
      · intro d r hr
        rw [hwritten]
        change ((s.set c _).connection d).mailbox = some r at hr
        rw [connection_set] at hr
        by_cases hdc : d = c
        · rw [if_pos hdc] at hr ⊢
          cases hr
          rw [hdc]
          exact hall
        · rw [if_neg hdc] at hr ⊢
          exact h.mail.queued d r hr
      · intro d
        rw [hwritten]
        by_cases hdc : d = c
        · rw [if_pos hdc, hdc]
          exact ⟨q, hall.symm⟩
        · rw [if_neg hdc]
          exact h.mail.written d

theorem Invariant.release (h : Invariant E s) (henabled : Enabled s (.release c))
    (htimely : Timely E s (.release c)) : Invariant E (next E s (.release c)) := by
  obtain ⟨hended, -, hlive⟩ := henabled
  have hrequests := h.requests.set (c := c) (k := { s.connection c with released := true }) rfl
    fun _ hx => hx
  have hresponses := h.responses.set (c := c) (k := { s.connection c with released := true })
    (fun _ hx => hx) fun _ _ offset hfib => ⟨offset, hfib⟩
  have hmail := h.mail.set (c := c) (k := { s.connection c with released := true })
    (fun heq => by rw [show (s.connection c).fiber = _ from hended] at heq; cases heq)
    (Or.inl rfl)
  refine ⟨h.lifetimes.release hended hlive htimely, ?_, ?_, ?_⟩
  · change Mail (contextRelease E s c)
    unfold contextRelease
    dsimp only
    split
    · exact { hmail with }
    · exact hmail
  · change Requests E (contextRelease E s c)
    unfold contextRelease
    dsimp only
    split
    · exact { hrequests with }
    · exact hrequests
  · change Responses (contextRelease E s c)
    unfold contextRelease
    dsimp only
    split
    · exact { hresponses with }
    · exact hresponses

/-- Every step that meets the condition keeps the invariant. -/
theorem Invariant.next (h : Invariant E s) {a : Action} (henabled : Enabled s a)
    (htimely : Timely E s a) : Invariant E (next E s a) := by
  cases a with
  | connect c => exact h.connect henabled
  | request c p =>
    have hreading : (s.connection c).fiber = .reading := henabled
    change Invariant E (respondFailure c _ _ (decodeAndDispatch E s c p))
    rcases decodeAndDispatch_cases h hreading htimely with ⟨hinv, -, -⟩ |
      ⟨req, entry, he, q, hauth, hid, hq, heq⟩ | ⟨response, x, q, -, -, hx, hkey, hq, heq⟩
    · generalize decodeAndDispatch E s c p = outcome at hinv ⊢
      obtain ⟨t, status⟩ := outcome
      cases status with
      | none => exact hinv
      | some status => exact hinv.sendErrorResponse _ _ _
    · rw [heq]
      have hforward : Invariant E (forwarded E s c entry.ctx req q) :=
        h.forward hq (htimely req hauth entry he hid)
      have hfiber : ((forwarded E s c entry.ctx req q).connection c).fiber = .reading := by
        rw [forwarded_connection]
        by_cases hself : c = entry.ctx
        · rw [if_pos hself, ← hself]
          exact hreading
        · rw [if_neg hself]
          exact hreading
      apply hforward.setFiber
      · rw [hfiber]
        rfl
      · rintro ⟨⟩
      · rintro _ _ ⟨⟩
        exact he
    · rw [heq]
      exact h.answer hreading hx hkey hq
  | resume c anything => exact (resume_keeps h henabled anything).1
  | disconnect c =>
    have hreading : (s.connection c).fiber = .reading := henabled
    apply h.setFiber
    · rw [hreading]
      rfl
    · rintro ⟨⟩
    · rintro _ _ ⟨⟩
  | write c => exact h.write
  | writeEnds c =>
    have hused : (s.connection c).fiber ≠ .absent := by
      intro habsent
      have hwriting : (s.connection c).writing = true := henabled
      rw [h.lifetimes.unused c habsent] at hwriting
      cases hwriting
    exact ⟨h.lifetimes.set hused rfl rfl (h.lifetimes.ended c)
        (h.lifetimes.mailbox_open c hused) (h.lifetimes.sending c),
      h.mail.set hused (Or.inl rfl), h.requests.set rfl fun _ hx => hx,
      h.responses.set (fun _ hx => hx) fun _ _ offset hfib => ⟨offset, hfib⟩⟩
  | release c => exact h.release henabled htimely
  | reclaim c =>
    have hrel : (s.connection c).released = true := henabled.1
    have hended := h.lifetimes.ended c hrel
    have hused : (s.connection c).fiber ≠ .absent := by
      rw [hended]
      intro heq
      cases heq
    refine ⟨h.lifetimes.set hused rfl rfl (h.lifetimes.ended c) ?_ (h.lifetimes.sending c),
      h.mail.set hused (Or.inr rfl), h.requests.set rfl (fun _ hx => by cases hx),
      h.responses.set (fun _ hx => by cases hx) (fun _ hx => by cases hx)⟩
    intro hlive
    rw [show (s.connection c).released = false from hlive] at hrel
    cases hrel

theorem invariant_of_run (h : Run E (Timely E) s) : Invariant E s := by
  induction h with
  | start => exact invariant_start E
  | tail _ henabled htimely ih => exact ih.next henabled htimely

end ExtendedApi
