import Agentd.AnsweredOnce
import Agentd.ExtendedApiRuns

/-! # Requests and responses of the extended API belong together -/
namespace ExtendedApi

open ByteString
open DataserviceRecords
open ClientProtocol
open ClientRequests (Env extendedApiCanRespond)

/-! ### The property -/

structure Correlated (E : Env) (s : System) : Prop where
  one_entry : (s.extendedApiDict.map DictEntry.entityId).Nodup
  entry_live : ∀ e ∈ s.extendedApiDict, (s.connection e.ctx).extendedApiEnabled = true ∧
    (s.connection e.ctx).released = false ∧ (E.entity e.ctx).uuid = e.entityId
  not_stale : s.stale = []
  forwarded : ∀ d, (s.arrived d).filter Packet.isClientRequest =
    (s.accepted.filter fun a => a.sentinel = d).map (Accepted.packet E)
  given_once : (s.accepted.map fun a => (a.sentinel, a.serverOffset)).Nodup
  responses : ∀ c, (s.arrived c).filter Packet.isResponse =
    (s.responded.filter fun r => r.entry.clientReturnAddress = c).map Responded.packet
  responded_accepted : ∀ r ∈ s.responded, ∃ a ∈ s.accepted, a.sentinel = r.sentinel ∧
    a.entry = r.entry
  responded_once : (s.responded.map fun r => (r.sentinel, r.entry.serverOffset)).Nodup
  written : ∀ c, s.written c <+: s.arrived c

/-- What a step adds: every authorized request for an entity that is routed is accepted for its
sentinel, and nothing else is; a response to an offset that was not given, or to a client whose
mailbox is closed, reaches nobody; and when the write fiber of a connection has ended, nothing is
written. -/
structure Attributed (E : Env) (s : System) (a : Action) (t : System) : Prop where
  accepts : ∀ c p req e, a = .request c p → Authorized E c p req → e ∈ s.extendedApiDict →
    e.entityId = req.fields.entityId → ∃ offset,
      t.accepted = s.accepted ++ [⟨c, e.ctx, offset, req⟩]
  accepted : ∀ x ∈ t.accepted, x ∈ s.accepted ∨
    ∃ p, a = .request x.client p ∧ Authorized E x.client p x.request ∧
      ⟨x.request.fields.entityId, x.sentinel⟩ ∈ s.extendedApiDict
  responds : ∀ x ∈ t.responded, x ∈ s.responded ∨
    ∃ p, a = .request x.sentinel p ∧
      ProtocolRequest.ofCode (wordAt p 0) = some .extendedApiSendresp ∧
      E.library.decodeReqExtendedApiResponse p = .ok x.response ∧
      x.response.offset = x.entry.serverOffset
  unanswered : ∀ d p resp, a = .request d p → E.library.decodeReqExtendedApiResponse p = .ok resp →
    (∀ x ∈ s.accepted, x.sentinel = d → x.serverOffset = resp.offset →
      (s.connection x.client).mailbox = none) → t.responded = s.responded
  closed : ∀ c, (s.connection c).fiber ≠ .absent → (s.connection c).writing = false →
    (t.connection c).writing = false ∧ t.written c = s.written c

variable {E : Env} {s t : System} {a : Action} {c d : ℕ} {p : Bytes}

theorem Invariant.correlated (h : Invariant E s) : Correlated E s where
  one_entry := h.lifetimes.one_entry
  entry_live := h.lifetimes.entry_live
  not_stale := h.lifetimes.not_stale
  forwarded := h.requests.forwarded
  given_once := h.requests.given_once
  responses := h.responses.delivered
  responded_accepted := h.responses.accepted
  responded_once := h.responses.once
  written := h.mail.written

/-! ### What a step adds -/

theorem Attributed.of_same (haccepted : t.accepted = s.accepted)
    (hresponded : t.responded = s.responded)
    (hclosed : ∀ c, (s.connection c).fiber ≠ .absent → (s.connection c).writing = false →
      (t.connection c).writing = false ∧ t.written c = s.written c)
    (hnone : ∀ c p req, a = .request c p → Authorized E c p req →
      ∀ e ∈ s.extendedApiDict, e.entityId ≠ req.fields.entityId) : Attributed E s a t where
  accepts c p req e ha hauth he hid := (hnone c p req ha hauth e he hid).elim
  accepted _ hx := Or.inl (haccepted ▸ hx)
  responds _ hx := Or.inl (hresponded ▸ hx)
  unanswered _ _ _ _ _ _ := hresponded
  closed := hclosed

theorem Attributed.of_kept (h : Kept s t)
    (hnone : ∀ c p req, a = .request c p → Authorized E c p req →
      ∀ e ∈ s.extendedApiDict, e.entityId ≠ req.fields.entityId) : Attributed E s a t := by
  refine Attributed.of_same h.accepted h.responded ?_ hnone
  intro c _ hwriting
  exact ⟨(h.writing c).trans hwriting, by rw [h.written]⟩

theorem Attributed.set {k : FiberContext} (hrequest : ∀ c p, a ≠ .request c p)
    (hwriting : (s.connection c).fiber ≠ .absent → (s.connection c).writing = false →
      k.writing = false) : Attributed E s a (s.set c k) := by
  refine Attributed.of_same rfl rfl ?_ fun c p _ ha => (hrequest c p ha).elim
  intro d hused hclosed
  refine ⟨?_, rfl⟩
  rw [connection_set]
  by_cases hdc : d = c
  · rw [if_pos hdc]
    rw [hdc] at hused hclosed
    exact hwriting hused hclosed
  · rw [if_neg hdc]
    exact hclosed

/-- A write fiber that has stopped writes nothing more. -/
theorem Attributed.writePacket (hwriting : (s.connection c).writing = true) :
    Attributed E s (.write c) (writePacket s c (s.connection c).mailbox) := by
  have hrequest : ∀ c' p' req, Action.write c = .request c' p' → Authorized E c' p' req →
      ∀ e ∈ s.extendedApiDict, e.entityId ≠ req.fields.entityId := by
    intro _ _ _ heq
    cases heq
  cases hq : (s.connection c).mailbox with
  | none => exact Attributed.of_kept (Kept.refl s) hrequest
  | some q =>
    cases q with
    | nil => exact Attributed.of_kept (Kept.refl s) hrequest
    | cons packet q =>
      refine Attributed.of_same rfl rfl ?_ hrequest
      intro d _ hclosed
      have hdc : d ≠ c := by
        rintro rfl
        rw [hwriting] at hclosed
        cases hclosed
      constructor
      · change ((s.set c _).connection d).writing = false
        rw [connection_set, if_neg hdc]
        exact hclosed
      · exact Function.update_of_ne hdc _ _

/-- A request that goes on to the sentinel of its entity. -/
theorem Attributed.forward (h : Lifetimes E s) {req : Decoded ExtendedApiFields}
    {entry : DictEntry} {q : List Packet} {f : Fiber} (hauth : Authorized E c p req)
    (he : entry ∈ s.extendedApiDict) (hid : entry.entityId = req.fields.entityId) :
    Attributed E s (.request c p) ((forwarded E s c entry.ctx req q).setFiber c f) where
  accepts c' p' req' e ha hauth' he' hid' := by
    cases ha
    cases hauth.2.1.symm.trans hauth'.2.1
    rw [h.entry_unique he' he (hid'.trans hid.symm)]
    exact ⟨_, rfl⟩
  accepted x hx := by
    rcases List.mem_append.mp hx with hold | hnew
    · exact Or.inl hold
    · cases List.mem_singleton.mp hnew
      refine Or.inr ⟨p, rfl, hauth, ?_⟩
      rw [← hid]
      exact he
  responds x hx := Or.inl hx
  unanswered _ _ _ _ _ _ := rfl
  closed e _ hclosed := by
    refine ⟨?_, rfl⟩
    have hkept : Kept s (s.set entry.ctx ((s.connection entry.ctx).given c req q
        (clientRequestPacket E c ((s.connection entry.ctx).extendedApiOffset + 1) req))) :=
      Kept.set rfl
    have hfiber : Kept (forwarded E s c entry.ctx req q)
        ((forwarded E s c entry.ctx req q).setFiber c f) := Kept.set rfl
    exact ((hfiber.writing e).trans (hkept.writing e)).trans hclosed

/-- A response that goes on to the client of its entry. -/
theorem Attributed.answer (h : Requests E s) {response : ExtendedApiResponse} {x : XlatEntry}
    {q : List Packet} {offset : BitVec 32}
    (hcode : ProtocolRequest.ofCode (wordAt p 0) = some .extendedApiSendresp)
    (hdecode : E.library.decodeReqExtendedApiResponse p = .ok response)
    (hx : x ∈ (s.connection d).extendedApiOffsetDict) (hkey : x.serverOffset = response.offset)
    (hq : (s.connection x.clientReturnAddress).mailbox = some q) :
    Attributed E s (.request d p) (answered s d x response offset q) where
  accepts c p req e ha hauth he hid := by
    cases ha
    cases hcode.symm.trans hauth.1
  accepted y hy := Or.inl hy
  responds y hy := by
    rcases List.mem_append.mp hy with hold | hnew
    · exact Or.inl hold
    · cases List.mem_singleton.mp hnew
      exact Or.inr ⟨p, rfl, hcode, hdecode, hkey.symm⟩
  unanswered d' p' response' ha hdecode' hnone := by
    cases ha
    cases hdecode.symm.trans hdecode'
    obtain ⟨a, ha, hsentinel, hentry⟩ := h.entries d x hx
    subst hentry
    have hclosed := hnone a ha hsentinel hkey
    rw [show (s.connection a.client).mailbox = some q from hq] at hclosed
    cases hclosed
  closed e _ hclosed := by
    refine ⟨?_, rfl⟩
    have hposted : Kept s (posted s x.clientReturnAddress (Responded.packet ⟨d, x, response⟩) q) :=
      Kept.posted
    have hfiber : Kept (posted s x.clientReturnAddress (Responded.packet ⟨d, x, response⟩) q)
        ((posted s x.clientReturnAddress (Responded.packet ⟨d, x, response⟩) q).setFiber d
          (.sendingResponse response.offset offset)) := Kept.set rfl
    exact ((hfiber.writing e).trans (hposted.writing e)).trans hclosed

theorem Invariant.attributed (h : Invariant E s) (henabled : Enabled s a) (htimely : Timely E s a) :
    Attributed E s a (ExtendedApi.next E s a) := by
  cases a with
  | connect c =>
    change Attributed E s _ (s.set c _)
    refine Attributed.set ?_ (fun hused => (hused henabled).elim)
    intro _ _ heq
    cases heq
  | request c p =>
    have hreading : (s.connection c).fiber = .reading := henabled
    change Attributed E s _ (respondFailure c _ _ (decodeAndDispatch E s c p))
    rcases decodeAndDispatch_cases h hreading htimely with ⟨-, hkept, hnone⟩ |
      ⟨req, entry, he, q, hauth, hid, hq, heq⟩ | ⟨response, x, q, hcode, hdecode, hx, hkey, hq, heq⟩
    · have hrequest : ∀ c' p' req, Action.request c p = .request c' p' → Authorized E c' p' req →
          ∀ e ∈ s.extendedApiDict, e.entityId ≠ req.fields.entityId := by
        intro c' p' req ha
        cases ha
        exact hnone req
      generalize decodeAndDispatch E s c p = outcome at hkept ⊢
      obtain ⟨t, status⟩ := outcome
      cases status with
      | none => exact Attributed.of_kept hkept hrequest
      | some status =>
        exact Attributed.of_kept (hkept.trans (Kept.sendErrorResponse _ _ _)) hrequest
    · rw [heq]
      exact Attributed.forward h.lifetimes hauth he hid
    · rw [heq]
      exact Attributed.answer h.requests hcode hdecode hx hkey hq
  | resume c anything =>
    exact Attributed.of_kept (resume_keeps h henabled anything).2 fun _ _ _ heq => by cases heq
  | disconnect c =>
    change Attributed E s _ (s.set c _)
    refine Attributed.set ?_ (fun _ hclosed => hclosed)
    intro _ _ heq
    cases heq
  | write c =>
    exact Attributed.writePacket henabled.1
  | writeEnds c =>
    change Attributed E s _ (s.set c _)
    refine Attributed.set ?_ (fun _ _ => rfl)
    intro _ _ heq
    cases heq
  | release c =>
    obtain ⟨-, haccepted, hresponded, -, hwritten, -⟩ := release_frame (E := E) (s := s) (c := c)
    refine Attributed.of_kept ⟨haccepted, hresponded, hwritten, ?_⟩ fun _ _ _ heq => by cases heq
    intro d
    change ((contextRelease E s c).connection d).writing = _
    rw [release_connection]
    by_cases hdc : d = c
    · rw [if_pos hdc, hdc]
    · rw [if_neg hdc]
  | reclaim c =>
    change Attributed E s _ (s.set c _)
    refine Attributed.set ?_ (fun _ hclosed => hclosed)
    intro _ _ heq
    cases heq

/-! ### Runs -/

theorem correlated_while_timely (E : Env) (s : System) (h : Run E (Timely E) s) :
    Correlated E s ∧ ∀ a, Enabled s a → Timely E s a → Attributed E s a (next E s a) :=
  ⟨(invariant_of_run h).correlated, fun _ => (invariant_of_run h).attributed⟩

open AnsweredOnce (sampleEnv requestPacket sentinelRequest sentinelResponse)

/-- No connection is released, and no offset is the last one. -/
def Early (s : System) : Action → Prop
  | .release _ => False
  | .request _ _ => ∀ e ∈ s.extendedApiDict,
    (s.connection e.ctx).extendedApiOffset ≠ BitVec.allOnes 64
  | _ => True

instance (s : System) : (a : Action) → Decidable (Early s a)
  | .release _ => inferInstanceAs (Decidable False)
  | .request _ _ => inferInstanceAs (Decidable (∀ e ∈ s.extendedApiDict, _))
  | .connect _ => inferInstanceAs (Decidable True)
  | .resume _ _ => inferInstanceAs (Decidable True)
  | .disconnect _ => inferInstanceAs (Decidable True)
  | .write _ => inferInstanceAs (Decidable True)
  | .writeEnds _ => inferInstanceAs (Decidable True)
  | .reclaim _ => inferInstanceAs (Decidable True)

theorem timely_of_early (E : Env) (s : System) (a : Action) (h : Early s a) : Timely E s a := by
  cases a with
  | release c => exact h.elim
  | request c p => exact fun _ _ e he _ => h e he
  | _ => trivial

def answeredRequest : List Action :=
  [.connect 1, .connect 2, .request 1 (requestPacket .extendedApiEnable 7 []),
    .request 2 sentinelRequest, .resume 2 false, .write 1, .write 1,
    .request 1 (sentinelResponse 1), .resume 1 false, .write 2]

theorem answered_request_is_correlated : ∃ s : System, Run sampleEnv (Timely sampleEnv) s ∧
    s.written 2 = [.extendedApiResponse 8 0 []] ∧ Correlated sampleEnv s ∧
    ∀ a, Enabled s a → Timely sampleEnv s a → Attributed sampleEnv s a (next sampleEnv s a) := by
  have hplay : ((play sampleEnv Early start answeredRequest).map fun s =>
      decide (s.written 2 = [.extendedApiResponse 8 0 []])) = some true := by
    decide +kernel
  obtain ⟨s, hs, hwritten⟩ := Option.map_eq_some_iff.mp hplay
  have hrun := run_of_play (timely_of_early sampleEnv) Run.start hs
  obtain ⟨hcorrelated, hattributed⟩ := correlated_while_timely sampleEnv s hrun
  exact ⟨s, hrun, of_decide_eq_true hwritten, hcorrelated, hattributed⟩

/-- The sentinel goes before `message_send` returns to the client that has asked it. -/
def desertedRequest : List Action :=
  [.connect 1, .connect 2, .request 1 (requestPacket .extendedApiEnable 7 []),
    .request 2 sentinelRequest, .write 1, .write 1, .disconnect 1, .writeEnds 1, .release 1,
    .resume 2 true]

theorem deserted_request_uses_released_entry : ∃ s : System,
    Run sampleEnv (fun _ _ => True) s ∧ s.stale ≠ [] ∧ ¬ Correlated sampleEnv s := by
  have hplay : ((play sampleEnv (fun _ _ => True) start desertedRequest).map fun s =>
      decide (s.stale ≠ [])) = some true := by
    decide +kernel
  obtain ⟨s, hs, hstale⟩ := Option.map_eq_some_iff.mp hplay
  have hrun := run_of_play (fun _ _ h => h) Run.start hs
  exact ⟨s, hrun, of_decide_eq_true hstale, fun h => of_decide_eq_true hstale h.not_stale⟩

end ExtendedApi
