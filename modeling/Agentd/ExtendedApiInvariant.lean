import Agentd.ExtendedApi

/-! # The invariant of the extended API

It has four parts: the lifetimes of routes and connections, the mailboxes, the requests that were
accepted, and the responses. It holds as long as no sentinel goes while a request is being sent to
it, and the offsets of a sentinel do not start again. -/
namespace ExtendedApi

open ByteString
open DataserviceRecords
open ClientProtocol
open ClientRequests (Env extendedApiCanRespond)

/-! ### What was sent -/

def Packet.isClientRequest : Packet → Bool
  | .clientRequest .. => true
  | _ => false

def Packet.isResponse : Packet → Bool
  | .extendedApiResponse .. => true
  | _ => false

def Accepted.packet (E : Env) (a : Accepted) : Packet :=
  clientRequestPacket E a.client a.serverOffset a.request

def Accepted.entry (a : Accepted) : XlatEntry := ⟨a.serverOffset, a.request.offset, a.client⟩

def Responded.packet (r : Responded) : Packet :=
  .extendedApiResponse r.entry.clientOffset r.response.status r.response.responseBody

def Authorized (E : Env) (c : ℕ) (p : Bytes) (req : Decoded ExtendedApiFields) : Prop :=
  ProtocolRequest.ofCode (wordAt p 0) = some .extendedApiSendrecv ∧
  E.library.decodeReqExtendedApi p = .ok req ∧
  (E.entity c).capabilityCheck capabilityExtendedApiSendrecv E.agentdUuid = true ∧
  (E.entity c).capabilityCheck req.fields.verbId req.fields.entityId = true

/-- No sentinel is released while `message_send` has not returned from sending a request to it, and
none is given a request when it has been given all offsets. -/
def Timely (E : Env) (s : System) : Action → Prop
  | .release d => ∀ c entry offset,
    (s.connection c).fiber = .sendingRequest entry offset → entry.ctx ≠ d
  | .request c p => ∀ req, Authorized E c p req → ∀ e ∈ s.extendedApiDict,
    e.entityId = req.fields.entityId →
      (s.connection e.ctx).extendedApiOffset ≠ BitVec.allOnes 64
  | _ => True

/-! ### The invariant -/

structure Lifetimes (E : Env) (s : System) : Prop where
  unused : ∀ c, (s.connection c).fiber = .absent → s.connection c = .absent
  one_entry : (s.extendedApiDict.map DictEntry.entityId).Nodup
  entry_live : ∀ e ∈ s.extendedApiDict, (s.connection e.ctx).extendedApiEnabled = true ∧
    (s.connection e.ctx).released = false ∧ (E.entity e.ctx).uuid = e.entityId
  routed : ∀ c, (s.connection c).extendedApiEnabled = true → (s.connection c).released = false →
    ⟨(E.entity c).uuid, c⟩ ∈ s.extendedApiDict
  ended : ∀ c, (s.connection c).released = true → (s.connection c).fiber = .ended
  mailbox_open : ∀ c, (s.connection c).fiber ≠ .absent → (s.connection c).released = false →
    (s.connection c).mailbox ≠ none
  sending : ∀ c entry offset, (s.connection c).fiber = .sendingRequest entry offset →
    entry ∈ s.extendedApiDict
  not_stale : s.stale = []

structure Mail (s : System) : Prop where
  unused : ∀ c, (s.connection c).fiber = .absent → s.arrived c = []
  queued : ∀ c q, (s.connection c).mailbox = some q → s.arrived c = s.written c ++ q
  written : ∀ c, s.written c <+: s.arrived c

structure Requests (E : Env) (s : System) : Prop where
  offsets : ∀ a ∈ s.accepted,
    a.serverOffset.toNat ≤ (s.connection a.sentinel).extendedApiOffset.toNat
  given_once : (s.accepted.map fun a => (a.sentinel, a.serverOffset)).Nodup
  forwarded : ∀ d, (s.arrived d).filter Packet.isClientRequest =
    (s.accepted.filter fun a => a.sentinel = d).map (Accepted.packet E)
  entries : ∀ d, ∀ x ∈ (s.connection d).extendedApiOffsetDict, ∃ a ∈ s.accepted, a.sentinel = d ∧
    a.entry = x

/-- An entry that was answered stays in the tree until `message_send` has returned. -/
structure Responses (s : System) : Prop where
  accepted : ∀ r ∈ s.responded, ∃ a ∈ s.accepted, a.sentinel = r.sentinel ∧ a.entry = r.entry
  spent : ∀ r ∈ s.responded, ∀ x ∈ (s.connection r.sentinel).extendedApiOffsetDict,
    x.serverOffset = r.entry.serverOffset →
      ∃ offset, (s.connection r.sentinel).fiber = .sendingResponse x.serverOffset offset
  once : (s.responded.map fun r => (r.sentinel, r.entry.serverOffset)).Nodup
  delivered : ∀ c, (s.arrived c).filter Packet.isResponse =
    (s.responded.filter fun r => r.entry.clientReturnAddress = c).map Responded.packet

structure Invariant (E : Env) (s : System) : Prop where
  lifetimes : Lifetimes E s
  mail : Mail s
  requests : Requests E s
  responses : Responses s

theorem invariant_start (E : Env) : Invariant E start := by
  constructor <;> constructor <;> simp [start, FiberContext.absent]

variable {E : Env} {s t : System} {c d : ℕ} {k : FiberContext} {p : Packet}

@[simp] theorem connection_set_self : (s.set c k).connection c = k := by
  simp [System.set]

theorem connection_set (d : ℕ) :
    (s.set c k).connection d = if d = c then k else s.connection d :=
  Function.update_apply s.connection c k d

/-! ### Changes of one connection -/

/-- A change that keeps the route. -/
theorem Lifetimes.set (h : Lifetimes E s) (hfiber : k.fiber ≠ .absent)
    (henabled : k.extendedApiEnabled = (s.connection c).extendedApiEnabled)
    (hreleased : k.released = (s.connection c).released)
    (hended : k.released = true → k.fiber = .ended)
    (hopen : k.released = false → k.mailbox ≠ none)
    (hsending : ∀ entry offset, k.fiber = .sendingRequest entry offset →
      entry ∈ s.extendedApiDict) : Lifetimes E (s.set c k) where
  unused d hd := by
    rw [connection_set] at hd ⊢
    by_cases hdc : d = c
    · rw [if_pos hdc] at hd
      exact (hfiber hd).elim
    · rw [if_neg hdc] at hd ⊢
      exact h.unused d hd
  one_entry := h.one_entry
  entry_live e he := by
    have hold := h.entry_live e he
    rw [connection_set]
    by_cases hec : e.ctx = c
    · rw [hec] at hold
      rw [if_pos hec, henabled, hreleased, hec]
      exact hold
    · rw [if_neg hec]
      exact hold
  routed d hd hrel := by
    rw [connection_set] at hd hrel
    by_cases hdc : d = c
    · rw [if_pos hdc] at hd hrel
      rw [hdc]
      exact h.routed c (henabled ▸ hd) (hreleased ▸ hrel)
    · rw [if_neg hdc] at hd hrel
      exact h.routed d hd hrel
  ended d hd := by
    rw [connection_set] at hd ⊢
    by_cases hdc : d = c
    · rw [if_pos hdc] at hd ⊢
      exact hended hd
    · rw [if_neg hdc] at hd ⊢
      exact h.ended d hd
  mailbox_open d hd hrel := by
    rw [connection_set] at hd hrel ⊢
    by_cases hdc : d = c
    · rw [if_pos hdc] at hrel ⊢
      exact hopen hrel
    · rw [if_neg hdc] at hd hrel ⊢
      exact h.mailbox_open d hd hrel
  sending d entry offset hd := by
    rw [connection_set] at hd
    by_cases hdc : d = c
    · rw [if_pos hdc] at hd
      exact hsending entry offset hd
    · rw [if_neg hdc] at hd
      exact h.sending d entry offset hd
  not_stale := h.not_stale

/-- A change that keeps the mailbox or closes it. -/
theorem Mail.set (h : Mail s) (hfiber : k.fiber ≠ .absent)
    (hmailbox : k.mailbox = (s.connection c).mailbox ∨ k.mailbox = none) : Mail (s.set c k) where
  unused d hd := by
    rw [connection_set] at hd
    by_cases hdc : d = c
    · rw [if_pos hdc] at hd
      exact (hfiber hd).elim
    · rw [if_neg hdc] at hd
      exact h.unused d hd
  queued d q hq := by
    rw [connection_set] at hq
    by_cases hdc : d = c
    · rw [if_pos hdc] at hq
      subst hdc
      rcases hmailbox with heq | heq
      · exact h.queued d q (heq ▸ hq)
      · rw [heq] at hq
        cases hq
    · rw [if_neg hdc] at hq
      exact h.queued d q hq
  written := h.written

/-- A change that keeps the offset and adds no entry to the tree. -/
theorem Requests.set (h : Requests E s)
    (hoffset : k.extendedApiOffset = (s.connection c).extendedApiOffset)
    (hentries : ∀ x ∈ k.extendedApiOffsetDict, x ∈ (s.connection c).extendedApiOffsetDict) :
    Requests E (s.set c k) where
  offsets a ha := by
    have hold := h.offsets a ha
    rw [connection_set]
    by_cases hac : a.sentinel = c
    · rw [if_pos hac, hoffset, ← hac]
      exact hold
    · rw [if_neg hac]
      exact hold
  given_once := h.given_once
  forwarded := h.forwarded
  entries d x hx := by
    rw [connection_set] at hx
    by_cases hdc : d = c
    · rw [if_pos hdc] at hx
      subst hdc
      exact h.entries d x (hentries x hx)
    · rw [if_neg hdc] at hx
      exact h.entries d x hx

/-- A change that adds no entry to the tree, and after which the answered entries are as before
those that are being sent. -/
theorem Responses.set (h : Responses s)
    (hentries : ∀ x ∈ k.extendedApiOffsetDict, x ∈ (s.connection c).extendedApiOffsetDict)
    (hspent : ∀ x ∈ k.extendedApiOffsetDict, ∀ offset,
      (s.connection c).fiber = .sendingResponse x.serverOffset offset →
        ∃ offset', k.fiber = .sendingResponse x.serverOffset offset') :
    Responses (s.set c k) where
  accepted := h.accepted
  spent r hr x hx hkey := by
    rw [connection_set] at hx ⊢
    by_cases hrc : r.sentinel = c
    · rw [if_pos hrc] at hx ⊢
      have hold := hentries x hx
      rw [← hrc] at hold
      obtain ⟨offset, hfib⟩ := h.spent r hr x hold hkey
      rw [hrc] at hfib
      exact hspent x hx offset hfib
    · rw [if_neg hrc] at hx ⊢
      exact h.spent r hr x hx hkey
  once := h.once
  delivered := h.delivered

/-! ### Messages -/

def arrive (s : System) (c : ℕ) (k : FiberContext) (p : Packet) : System :=
  { s.set c k with arrived := Function.update s.arrived c (s.arrived c ++ [p]) }

def posted (s : System) (c : ℕ) (p : Packet) (q : List Packet) : System :=
  arrive s c { s.connection c with mailbox := some (q ++ [p]) } p

theorem messageSend_open {q : List Packet} (hq : (s.connection c).mailbox = some q) :
    messageSend s c p = some (posted s c p q) := by
  unfold messageSend
  rw [hq]
  rfl

theorem messageSend_closed (hq : (s.connection c).mailbox = none) :
    messageSend s c p = none := by
  unfold messageSend
  rw [hq]

theorem arrive_arrived (d : ℕ) : (arrive s c k p).arrived d =
    if d = c then s.arrived c ++ [p] else s.arrived d :=
  Function.update_apply s.arrived c _ d

theorem arrive_connection (d : ℕ) :
    (arrive s c k p).connection d = if d = c then k else s.connection d :=
  connection_set d

theorem Lifetimes.used (h : Lifetimes E s) {q : List Packet}
    (hq : (s.connection c).mailbox = some q) : (s.connection c).fiber ≠ .absent := by
  intro habsent
  rw [h.unused c habsent] at hq
  cases hq

theorem Lifetimes.posted (h : Lifetimes E s) {q : List Packet}
    (hq : (s.connection c).mailbox = some q) : Lifetimes E (posted s c p q) := by
  have hset : Lifetimes E (s.set c { s.connection c with mailbox := some (q ++ [p]) }) :=
    h.set (h.used hq) rfl rfl (h.ended c) (fun _ hnone => by cases hnone) (h.sending c)
  exact { hset with }

theorem Mail.arrive (h : Mail s) {q : List Packet} (hq : (s.connection c).mailbox = some q)
    (hfiber : k.fiber ≠ .absent) (hk : k.mailbox = some (q ++ [p])) : Mail (arrive s c k p) where
  unused d hd := by
    rw [arrive_connection] at hd
    rw [arrive_arrived]
    by_cases hdc : d = c
    · rw [if_pos hdc] at hd
      exact (hfiber hd).elim
    · rw [if_neg hdc] at hd ⊢
      exact h.unused d hd
  queued d r hr := by
    rw [arrive_connection] at hr
    rw [arrive_arrived]
    by_cases hdc : d = c
    · rw [if_pos hdc] at hr ⊢
      rw [hk] at hr
      cases hr
      rw [hdc, h.queued c q hq, List.append_assoc]
      rfl
    · rw [if_neg hdc] at hr ⊢
      exact h.queued d r hr
  written d := by
    rw [arrive_arrived]
    by_cases hdc : d = c
    · rw [if_pos hdc, hdc]
      exact (h.written c).trans (List.prefix_append _ _)
    · rw [if_neg hdc]
      exact h.written d

/-- Packets of another kind do not count. -/
theorem filter_arrived {A : ℕ → List Packet} {kind : Packet → Bool} (hp : kind p = false) (d : ℕ) :
    (Function.update A c (A c ++ [p]) d).filter kind = (A d).filter kind := by
  rw [Function.update_apply]
  by_cases hdc : d = c
  · rw [if_pos hdc, hdc, List.filter_append, List.filter_singleton, hp]
    exact List.append_nil _
  · rw [if_neg hdc]

/-- Packets of the kind count for the connection they came to. -/
theorem filter_arrived_kind {A : ℕ → List Packet} {kind : Packet → Bool} (hp : kind p = true)
    (d : ℕ) : (Function.update A c (A c ++ [p]) d).filter kind =
      (A d).filter kind ++ if c = d then [p] else [] := by
  rw [Function.update_apply]
  by_cases hdc : d = c
  · rw [if_pos hdc, if_pos hdc.symm, hdc, List.filter_append, List.filter_singleton, hp]
    rfl
  · rw [if_neg hdc, if_neg (Ne.symm hdc), List.append_nil]

theorem Requests.posted (h : Requests E s) {q : List Packet} (hp : p.isClientRequest = false) :
    Requests E (posted s c p q) := by
  have hset : Requests E (s.set c { s.connection c with mailbox := some (q ++ [p]) }) :=
    h.set rfl fun _ hx => hx
  exact { hset with forwarded := fun d => (filter_arrived hp d).trans (h.forwarded d) }

theorem Responses.posted (h : Responses s) {q : List Packet} (hp : p.isResponse = false) :
    Responses (posted s c p q) := by
  have hset : Responses (s.set c { s.connection c with mailbox := some (q ++ [p]) }) :=
    h.set (fun _ hx => hx) fun _ _ offset hfib => ⟨offset, hfib⟩
  exact { hset with delivered := fun d => (filter_arrived hp d).trans (h.delivered d) }

theorem Invariant.sendErrorResponse (h : Invariant E s) (requestId offset : BitVec 32)
    (status : Status) : Invariant E (sendErrorResponse s c requestId status offset) := by
  unfold ExtendedApi.sendErrorResponse
  cases hq : (s.connection c).mailbox with
  | none =>
    rw [messageSend_closed hq]
    exact h
  | some q =>
    rw [messageSend_open hq]
    exact ⟨h.lifetimes.posted hq, h.mail.arrive hq (h.lifetimes.used hq) rfl,
      h.requests.posted rfl, h.responses.posted rfl⟩

/-! ### The protocol fiber -/

/-- A fiber that runs or waits belongs to a connection that was not released. -/
theorem Lifetimes.not_released (h : Lifetimes E s) (hfiber : (s.connection c).fiber ≠ .ended) :
    (s.connection c).released = false := by
  by_contra hrel
  exact hfiber (h.ended c (Bool.eq_true_of_not_eq_false hrel))

/-- A fiber that runs and is not answering anyone. -/
def Fiber.moves : Fiber → Bool
  | .reading => true
  | .sendingRequest _ _ => true
  | _ => false

theorem Fiber.moves_ne {f : Fiber} (h : f.moves = true) :
    f ≠ .absent ∧ f ≠ .ended ∧
      ∀ offset requestOffset, f ≠ .sendingResponse offset requestOffset := by
  refine ⟨?_, ?_, ?_⟩
  · rintro rfl
    cases h
  · rintro rfl
    cases h
  · rintro offset requestOffset rfl
    cases h

theorem Invariant.setFiber (h : Invariant E s) {f : Fiber}
    (hmoves : (s.connection c).fiber.moves = true) (hf : f ≠ .absent)
    (hsending : ∀ entry offset, f = .sendingRequest entry offset → entry ∈ s.extendedApiDict) :
    Invariant E (s.setFiber c f) where
  lifetimes := by
    obtain ⟨hused, hruns, -⟩ := Fiber.moves_ne hmoves
    have hlive := h.lifetimes.not_released hruns
    refine h.lifetimes.set hf rfl rfl ?_ (h.lifetimes.mailbox_open c hused) hsending
    intro hrel
    rw [hlive] at hrel
    cases hrel
  mail := h.mail.set hf (Or.inl rfl)
  requests := h.requests.set rfl fun _ hx => hx
  responses := h.responses.set (fun _ hx => hx) fun x _ offset hfib =>
    ((Fiber.moves_ne hmoves).2.2 x.serverOffset offset hfib).elim

/-! ### Requests -/

/-- The sentinel after it was given a request. -/
def FiberContext.given (k : FiberContext) (c : ℕ) (req : Decoded ExtendedApiFields)
    (q : List Packet) (packet : Packet) : FiberContext :=
  { k with
    mailbox := some (q ++ [packet])
    extendedApiOffset := k.extendedApiOffset + 1
    extendedApiOffsetDict := k.extendedApiOffsetDict ++
      if k.extendedApiCanRespond then [⟨k.extendedApiOffset + 1, req.offset, c⟩] else [] }

/-- The state after a request was accepted and came into the mailbox of its sentinel. -/
def forwarded (E : Env) (s : System) (c d : ℕ) (req : Decoded ExtendedApiFields)
    (q : List Packet) : System :=
  let offset := (s.connection d).extendedApiOffset + 1
  let packet := clientRequestPacket E c offset req
  { arrive s d ((s.connection d).given c req q packet) packet with
    accepted := s.accepted ++ [⟨c, d, offset, req⟩] }

theorem forwarded_connection {req : Decoded ExtendedApiFields} {q : List Packet} (e : ℕ) :
    (forwarded E s c d req q).connection e =
      if e = d then (s.connection d).given c req q
        (clientRequestPacket E c ((s.connection d).extendedApiOffset + 1) req)
      else s.connection e :=
  connection_set e

theorem next_offset {offset : BitVec 64} (h : offset ≠ BitVec.allOnes 64) :
    (offset + 1).toNat = offset.toNat + 1 := by
  have hne : offset.toNat ≠ 2 ^ 64 - 1 := by
    intro heq
    apply h
    apply BitVec.eq_of_toNat_eq
    rw [heq, BitVec.toNat_allOnes]
  have hlt := offset.isLt
  rw [BitVec.toNat_add]
  change (offset.toNat + 1) % 2 ^ 64 = _
  omega

/-- The next offset of a sentinel was not given before. -/
theorem Requests.fresh (h : Requests E s)
    (hoffset : (s.connection d).extendedApiOffset ≠ BitVec.allOnes 64) {a : Accepted}
    (ha : a ∈ s.accepted) (hd : a.sentinel = d) :
    a.serverOffset ≠ (s.connection d).extendedApiOffset + 1 := by
  intro heq
  have hle := h.offsets a ha
  rw [hd, heq, next_offset hoffset] at hle
  omega

theorem Requests.fresh_entry (h : Requests E s)
    (hoffset : (s.connection d).extendedApiOffset ≠ BitVec.allOnes 64) {x : XlatEntry}
    (hx : x ∈ (s.connection d).extendedApiOffsetDict) :
    x.serverOffset ≠ (s.connection d).extendedApiOffset + 1 := by
  obtain ⟨a, ha, hd, rfl⟩ := h.entries d x hx
  exact h.fresh hoffset ha hd

variable {req : Decoded ExtendedApiFields} {q : List Packet}

theorem Lifetimes.forward (h : Lifetimes E s) (hq : (s.connection d).mailbox = some q) :
    Lifetimes E (forwarded E s c d req q) := by
  have hset := h.set (c := d) (k := (s.connection d).given c req q
      (clientRequestPacket E c ((s.connection d).extendedApiOffset + 1) req))
    (h.used hq) rfl rfl (h.ended d) (fun _ hnone => by cases hnone) (h.sending d)
  exact { hset with }

theorem Mail.forward (h : Mail s) (hq : (s.connection d).mailbox = some q)
    (hfiber : (s.connection d).fiber ≠ .absent) : Mail (forwarded E s c d req q) := by
  have harrive := h.arrive (k := (s.connection d).given c req q
      (clientRequestPacket E c ((s.connection d).extendedApiOffset + 1) req)) hq hfiber rfl
  exact { harrive with }

theorem Requests.forward (h : Requests E s)
    (hoffset : (s.connection d).extendedApiOffset ≠ BitVec.allOnes 64) :
    Requests E (ExtendedApi.forwarded E s c d req q) where
  offsets a ha := by
    rw [forwarded_connection]
    rcases List.mem_append.mp ha with hold | hnew
    · have hle := h.offsets a hold
      by_cases had : a.sentinel = d
      · rw [if_pos had]
        rw [had] at hle
        change _ ≤ ((s.connection d).extendedApiOffset + 1).toNat
        rw [next_offset hoffset]
        omega
      · rw [if_neg had]
        exact hle
    · cases List.mem_singleton.mp hnew
      rw [if_pos rfl]
      exact le_rfl
  given_once := by
    change ((s.accepted ++ [_]).map _).Nodup
    rw [List.map_append, List.map_singleton, List.nodup_append]
    refine ⟨h.given_once, List.nodup_singleton _, ?_⟩
    intro x hx y hy heq
    obtain ⟨a, ha, rfl⟩ := List.mem_map.mp hx
    rw [List.mem_singleton.mp hy] at heq
    obtain ⟨hsentinel, hgiven⟩ := Prod.mk.inj heq
    exact h.fresh hoffset ha hsentinel hgiven
  forwarded e := by
    refine (filter_arrived_kind rfl e).trans ?_
    change _ = ((s.accepted ++ [_]).filter _).map _
    rw [h.forwarded e, List.filter_append, List.map_append, List.filter_singleton]
    by_cases hde : d = e
    · rw [if_pos hde, decide_eq_true hde]
      rfl
    · rw [if_neg hde, decide_eq_false hde]
      rfl
  entries e x hx := by
    rw [forwarded_connection] at hx
    by_cases hed : e = d
    · rw [if_pos hed] at hx
      rcases List.mem_append.mp hx with hold | hnew
      · obtain ⟨a, ha, hsentinel, hentry⟩ := h.entries d x hold
        exact ⟨a, List.mem_append_left _ ha, hsentinel.trans hed.symm, hentry⟩
      · refine ⟨_, List.mem_append_right _ (List.mem_singleton_self _), hed.symm, ?_⟩
        by_cases hresponds : (s.connection d).extendedApiCanRespond = true
        · rw [if_pos hresponds] at hnew
          exact (List.mem_singleton.mp hnew).symm
        · rw [if_neg hresponds] at hnew
          cases hnew
    · rw [if_neg hed] at hx
      obtain ⟨a, ha, hfields⟩ := h.entries e x hx
      exact ⟨a, List.mem_append_left _ ha, hfields⟩

/-- A new entry is none that was answered. -/
theorem Responses.forward (h : Responses s) (hrequests : Requests E s)
    (hoffset : (s.connection d).extendedApiOffset ≠ BitVec.allOnes 64) :
    Responses (forwarded E s c d req q) where
  accepted r hr := by
    obtain ⟨a, ha, hfields⟩ := h.accepted r hr
    exact ⟨a, List.mem_append_left _ ha, hfields⟩
  spent r hr x hx hkey := by
    rw [forwarded_connection] at hx ⊢
    by_cases hrd : r.sentinel = d
    · rw [if_pos hrd] at hx ⊢
      rcases List.mem_append.mp hx with hold | hnew
      · rw [← hrd] at hold ⊢
        exact h.spent r hr x hold hkey
      · obtain ⟨a, ha, hsentinel, hentry⟩ := h.accepted r hr
        have hgiven : a.serverOffset = x.serverOffset := by
          rw [hkey, ← hentry]
          rfl
        refine (hrequests.fresh hoffset ha (hsentinel.trans hrd) ?_).elim
        by_cases hresponds : (s.connection d).extendedApiCanRespond = true
        · rw [if_pos hresponds] at hnew
          rw [hgiven, List.mem_singleton.mp hnew]
        · rw [if_neg hresponds] at hnew
          cases hnew
    · rw [if_neg hrd] at hx ⊢
      exact h.spent r hr x hx hkey
  once := h.once
  delivered e := (filter_arrived rfl e).trans (h.delivered e)

theorem Invariant.forward (h : Invariant E s) (hq : (s.connection d).mailbox = some q)
    (hoffset : (s.connection d).extendedApiOffset ≠ BitVec.allOnes 64) :
    Invariant E (forwarded E s c d req q) where
  lifetimes := h.lifetimes.forward hq
  mail := h.mail.forward hq (h.lifetimes.used hq)
  requests := h.requests.forward hoffset
  responses := h.responses.forward h.requests hoffset

/-! ### Responses -/

/-- The state after a response came into the mailbox of the client of an entry. -/
def answered (s : System) (d : ℕ) (x : XlatEntry) (response : ExtendedApiResponse)
    (offset : BitVec 32) (q : List Packet) : System :=
  { (posted s x.clientReturnAddress (Responded.packet ⟨d, x, response⟩) q).setFiber d
      (.sendingResponse response.offset offset) with
    responded := s.responded ++ [⟨d, x, response⟩] }

variable {x : XlatEntry} {response : ExtendedApiResponse} {offset : BitVec 32}

/-- The entries of a tree stay, and only the sentinel's fiber changes. -/
theorem answered_tree (e : ℕ) :
    ((answered s d x response offset q).connection e).extendedApiOffsetDict =
      (s.connection e).extendedApiOffsetDict := by
  change (((posted s _ _ q).set d _).connection e).extendedApiOffsetDict = _
  rw [connection_set]
  have hposted : ∀ e, ((posted s x.clientReturnAddress (Responded.packet ⟨d, x, response⟩)
      q).connection e).extendedApiOffsetDict = (s.connection e).extendedApiOffsetDict := by
    intro e
    rw [posted, arrive_connection]
    by_cases hec : e = x.clientReturnAddress
    · rw [if_pos hec, hec]
    · rw [if_neg hec]
  by_cases hed : e = d
  · rw [if_pos hed, hed]
    exact hposted d
  · rw [if_neg hed]
    exact hposted e

theorem answered_fiber (e : ℕ) : ((answered s d x response offset q).connection e).fiber =
    if e = d then .sendingResponse response.offset offset else (s.connection e).fiber := by
  change (((posted s _ _ q).set d _).connection e).fiber = _
  rw [connection_set]
  by_cases hed : e = d
  · rw [if_pos hed, if_pos hed]
  · rw [if_neg hed, if_neg hed, posted, arrive_connection]
    by_cases hec : e = x.clientReturnAddress
    · rw [if_pos hec, hec]
    · rw [if_neg hec]

/-- While the sentinel reads, no entry of its tree was answered. -/
theorem Responses.unanswered (h : Responses s) (hreading : (s.connection d).fiber = .reading)
    (hx : x ∈ (s.connection d).extendedApiOffsetDict) {r : Responded} (hr : r ∈ s.responded)
    (hd : r.sentinel = d) : r.entry.serverOffset ≠ x.serverOffset := by
  intro heq
  subst hd
  obtain ⟨offset, hfib⟩ := h.spent r hr x hx heq.symm
  rw [hreading] at hfib
  cases hfib

theorem Responses.answer (h : Responses s) (hrequests : Requests E s)
    (hreading : (s.connection d).fiber = .reading)
    (hx : x ∈ (s.connection d).extendedApiOffsetDict)
    (hkey : x.serverOffset = response.offset) :
    Responses (answered s d x response offset q) where
  accepted r hr := by
    rcases List.mem_append.mp hr with hold | hnew
    · exact h.accepted r hold
    · cases List.mem_singleton.mp hnew
      exact hrequests.entries d x hx
  spent r hr y hy hykey := by
    rw [answered_tree] at hy
    rw [answered_fiber]
    by_cases hrd : r.sentinel = d
    · rw [if_pos hrd]
      rcases List.mem_append.mp hr with hold | hnew
      · rw [hrd] at hy
        exact (h.unanswered hreading hy hold hrd hykey.symm).elim
      · cases List.mem_singleton.mp hnew
        exact ⟨offset, by rw [hykey, ← hkey]⟩
    · rw [if_neg hrd]
      rcases List.mem_append.mp hr with hold | hnew
      · exact h.spent r hold y hy hykey
      · cases List.mem_singleton.mp hnew
        exact (hrd rfl).elim
  once := by
    change ((s.responded ++ [_]).map _).Nodup
    rw [List.map_append, List.map_singleton, List.nodup_append]
    refine ⟨h.once, List.nodup_singleton _, ?_⟩
    intro u hu v hv heq
    obtain ⟨r, hr, rfl⟩ := List.mem_map.mp hu
    rw [List.mem_singleton.mp hv] at heq
    obtain ⟨hsentinel, hoffset⟩ := Prod.mk.inj heq
    exact h.unanswered hreading hx hr hsentinel hoffset
  delivered e := by
    refine (filter_arrived_kind rfl e).trans ?_
    change _ = ((s.responded ++ [_]).filter _).map _
    rw [h.delivered e, List.filter_append, List.map_append, List.filter_singleton]
    by_cases hce : x.clientReturnAddress = e
    · rw [if_pos hce, decide_eq_true hce]
      rfl
    · rw [if_neg hce, decide_eq_false hce]
      rfl

theorem Invariant.answer (h : Invariant E s) (hreading : (s.connection d).fiber = .reading)
    (hx : x ∈ (s.connection d).extendedApiOffsetDict) (hkey : x.serverOffset = response.offset)
    (hq : (s.connection x.clientReturnAddress).mailbox = some q) :
    Invariant E (answered s d x response offset q) := by
  have hposted : Lifetimes E (posted s x.clientReturnAddress
      (Responded.packet ⟨d, x, response⟩) q) := h.lifetimes.posted hq
  have hfiber : ((posted s x.clientReturnAddress (Responded.packet ⟨d, x, response⟩)
      q).connection d).fiber = .reading := by
    rw [posted, arrive_connection]
    by_cases hdc : d = x.clientReturnAddress
    · rw [if_pos hdc, ← hdc]
      exact hreading
    · rw [if_neg hdc]
      exact hreading
  have hused : Fiber.sendingResponse response.offset offset ≠ .absent := by
    intro habsent
    cases habsent
  constructor
  · have hset := hposted.set (c := d) (k := { (posted s x.clientReturnAddress
        (Responded.packet ⟨d, x, response⟩) q).connection d with
          fiber := .sendingResponse response.offset offset }) hused rfl rfl
      (by
        intro hrel
        have hended := hposted.ended d hrel
        rw [hfiber] at hended
        cases hended)
      (by
        intro hrel
        refine hposted.mailbox_open d ?_ hrel
        rw [hfiber]
        intro habsent
        cases habsent)
      (by
        intro entry offset hsending
        cases hsending)
    exact { hset with }
  · have hset := (h.mail.arrive (c := x.clientReturnAddress)
      (k := { s.connection x.clientReturnAddress with
        mailbox := some (q ++ [Responded.packet ⟨d, x, response⟩]) }) hq
      (h.lifetimes.used hq) rfl).set (c := d)
      (k := { (posted s x.clientReturnAddress (Responded.packet ⟨d, x, response⟩) q).connection d
        with fiber := .sendingResponse response.offset offset }) hused (Or.inl rfl)
    exact { hset with }
  · have hset := (h.requests.posted (c := x.clientReturnAddress)
      (p := Responded.packet ⟨d, x, response⟩) (q := q) rfl).set (c := d)
      (k := { (posted s x.clientReturnAddress (Responded.packet ⟨d, x, response⟩) q).connection d
        with fiber := .sendingResponse response.offset offset }) rfl fun _ hx => hx
    exact { hset with }
  · exact h.responses.answer h.requests hreading hx hkey

/-! ### Routes -/

theorem Lifetimes.entry_unique (h : Lifetimes E s) {e e' : DictEntry}
    (he : e ∈ s.extendedApiDict) (he' : e' ∈ s.extendedApiDict)
    (hid : e.entityId = e'.entityId) : e = e' :=
  List.inj_on_of_nodup_map h.one_entry he he' hid

def routedTo (E : Env) (s : System) (c : ℕ) : System :=
  { s.set c { s.connection c with extendedApiEnabled := true } with
    extendedApiDict := s.extendedApiDict ++ [⟨(E.entity c).uuid, c⟩] }

theorem Lifetimes.route (h : Lifetimes E s) (hreading : (s.connection c).fiber = .reading)
    (hfree : ∀ e ∈ s.extendedApiDict, e.entityId ≠ (E.entity c).uuid) :
    Lifetimes E (routedTo E s c) := by
  have hlive : (s.connection c).released = false := by
    apply h.not_released
    rw [hreading]
    intro hended
    cases hended
  have hconnection : ∀ d, (routedTo E s c).connection d =
      if d = c then { s.connection c with extendedApiEnabled := true } else s.connection d :=
    connection_set
  constructor
  · intro d hd
    rw [hconnection] at hd ⊢
    by_cases hdc : d = c
    · rw [if_pos hdc] at hd
      rw [show (s.connection c).fiber = _ from hreading] at hd
      cases hd
    · rw [if_neg hdc] at hd ⊢
      exact h.unused d hd
  · change ((s.extendedApiDict ++ [_]).map _).Nodup
    rw [List.map_append, List.map_singleton, List.nodup_append]
    refine ⟨h.one_entry, List.nodup_singleton _, ?_⟩
    intro u hu v hv heq
    obtain ⟨e, he, rfl⟩ := List.mem_map.mp hu
    rw [List.mem_singleton.mp hv] at heq
    exact hfree e he heq
  · intro e he
    rw [hconnection]
    rcases List.mem_append.mp he with hold | hnew
    · have hentry := h.entry_live e hold
      by_cases hec : e.ctx = c
      · rw [if_pos hec]
        rw [hec] at hentry
        exact ⟨rfl, hlive, hec ▸ hentry.2.2⟩
      · rw [if_neg hec]
        exact hentry
    · cases List.mem_singleton.mp hnew
      rw [if_pos rfl]
      exact ⟨rfl, hlive, rfl⟩
  · intro d hd hrel
    rw [hconnection] at hd hrel
    by_cases hdc : d = c
    · rw [hdc]
      exact List.mem_append_right _ (List.mem_singleton_self _)
    · rw [if_neg hdc] at hd hrel
      exact List.mem_append_left _ (h.routed d hd hrel)
  · intro d hd
    rw [hconnection] at hd ⊢
    by_cases hdc : d = c
    · rw [if_pos hdc] at hd ⊢
      exact h.ended c hd
    · rw [if_neg hdc] at hd ⊢
      exact h.ended d hd
  · intro d hd hrel
    rw [hconnection] at hd hrel ⊢
    by_cases hdc : d = c
    · rw [if_pos hdc] at hd hrel ⊢
      exact h.mailbox_open c hd hrel
    · rw [if_neg hdc] at hd hrel ⊢
      exact h.mailbox_open d hd hrel
  · intro d entry offset hd
    rw [hconnection] at hd
    by_cases hdc : d = c
    · rw [if_pos hdc] at hd
      exact List.mem_append_left _ (h.sending c entry offset hd)
    · rw [if_neg hdc] at hd
      exact List.mem_append_left _ (h.sending d entry offset hd)
  · exact h.not_stale

theorem Invariant.route (h : Invariant E s) (hreading : (s.connection c).fiber = .reading)
    (hfree : ∀ e ∈ s.extendedApiDict, e.entityId ≠ (E.entity c).uuid) :
    Invariant E (routedTo E s c) := by
  have hused : (s.connection c).fiber ≠ .absent := by
    rw [hreading]
    intro habsent
    cases habsent
  have hmail := h.mail.set (c := c)
    (k := { s.connection c with extendedApiEnabled := true }) hused (Or.inl rfl)
  have hrequests := h.requests.set (c := c)
    (k := { s.connection c with extendedApiEnabled := true }) rfl fun _ hx => hx
  have hresponses := h.responses.set (c := c)
    (k := { s.connection c with extendedApiEnabled := true }) (fun _ hx => hx)
    fun _ _ offset hfib => ⟨offset, hfib⟩
  exact ⟨h.lifetimes.route hreading hfree, { hmail with }, { hrequests with },
    { hresponses with }⟩

/-! ### The end of a connection -/

/-- Only the entry of the connection goes. -/
theorem Lifetimes.mem_release (h : Lifetimes E s) (hlive : (s.connection c).released = false)
    {e : DictEntry} : e ∈ (contextRelease E s c).extendedApiDict ↔
      e ∈ s.extendedApiDict ∧ e.ctx ≠ c := by
  unfold contextRelease
  by_cases henabled : (s.connection c).extendedApiEnabled = true
  · rw [if_pos henabled]
    change e ∈ s.extendedApiDict.filter _ ↔ _
    rw [List.mem_filter, decide_eq_true_iff]
    refine and_congr_right fun he => not_congr ?_
    constructor
    · intro hid
      rw [h.entry_unique he (h.routed c henabled hlive) hid]
    · intro hctx
      rw [← (h.entry_live e he).2.2, hctx]
  · rw [if_neg henabled]
    refine (and_iff_left_of_imp fun he hctx => henabled ?_).symm
    rw [← hctx]
    exact (h.entry_live e he).1

theorem release_connection (d : ℕ) : (contextRelease E s c).connection d =
    if d = c then { s.connection c with released := true } else s.connection d := by
  unfold contextRelease
  by_cases henabled : (s.connection c).extendedApiEnabled = true
  · rw [if_pos henabled]
    exact connection_set d
  · rw [if_neg henabled]
    exact connection_set d

/-- What a release leaves as it is. -/
theorem release_frame : (contextRelease E s c).extendedApiDict.Sublist s.extendedApiDict ∧
    (contextRelease E s c).accepted = s.accepted ∧
    (contextRelease E s c).responded = s.responded ∧
    (contextRelease E s c).arrived = s.arrived ∧ (contextRelease E s c).written = s.written ∧
    (contextRelease E s c).stale = s.stale := by
  unfold contextRelease
  by_cases henabled : (s.connection c).extendedApiEnabled = true
  · rw [if_pos henabled]
    exact ⟨List.filter_sublist, rfl, rfl, rfl, rfl, rfl⟩
  · rw [if_neg henabled]
    exact ⟨List.Sublist.refl _, rfl, rfl, rfl, rfl, rfl⟩

theorem Lifetimes.release (h : Lifetimes E s) (hended : (s.connection c).fiber = .ended)
    (hlive : (s.connection c).released = false)
    (htimely : ∀ d entry offset, (s.connection d).fiber = .sendingRequest entry offset →
      entry.ctx ≠ c) : Lifetimes E (contextRelease E s c) where
  unused d hd := by
    rw [release_connection] at hd ⊢
    by_cases hdc : d = c
    · rw [if_pos hdc] at hd
      rw [show (s.connection c).fiber = _ from hended] at hd
      cases hd
    · rw [if_neg hdc] at hd ⊢
      exact h.unused d hd
  one_entry := h.one_entry.sublist (release_frame.1.map _)
  entry_live e he := by
    obtain ⟨hold, hec⟩ := (h.mem_release hlive).mp he
    rw [release_connection, if_neg hec]
    exact h.entry_live e hold
  routed d hd hrel := by
    rw [release_connection] at hd hrel
    by_cases hdc : d = c
    · rw [if_pos hdc] at hrel
      cases hrel
    · rw [if_neg hdc] at hd hrel
      exact (h.mem_release hlive).mpr ⟨h.routed d hd hrel, hdc⟩
  ended d hd := by
    rw [release_connection] at hd ⊢
    by_cases hdc : d = c
    · rw [if_pos hdc]
      exact hended
    · rw [if_neg hdc] at hd ⊢
      exact h.ended d hd
  mailbox_open d hd hrel := by
    rw [release_connection] at hd hrel ⊢
    by_cases hdc : d = c
    · rw [if_pos hdc] at hrel
      cases hrel
    · rw [if_neg hdc] at hd hrel ⊢
      exact h.mailbox_open d hd hrel
  sending d entry offset hd := by
    rw [release_connection] at hd
    have hold : (s.connection d).fiber = .sendingRequest entry offset := by
      by_cases hdc : d = c
      · rw [if_pos hdc] at hd
        rw [hdc]
        exact hd
      · rw [if_neg hdc] at hd
        exact hd
    exact (h.mem_release hlive).mpr ⟨h.sending d entry offset hold, htimely d entry offset hold⟩
  not_stale := release_frame.2.2.2.2.2.trans h.not_stale

end ExtendedApi
