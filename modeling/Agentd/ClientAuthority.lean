import Agentd.ContextBijection
import Agentd.UserCapabilities

/-! # The authority of clients

Entities get their capabilities over the control socket, a connection gets a child context of the
data service with the bits of its entity, and the endpoint writes that child context into every
request of the connection. So a request is served only under a triple that its entity had when the
context was asked for. -/
namespace ClientAuthority

open ByteString
open DataserviceRecords
open DataserviceStore
open FaultyTransactions
open DataserviceRequests
open DataserviceDispatch
open CapabilityConfinement
open ChildContexts
open ChildContextSlots
open DataserviceClient
open RequestCodec
open ResponseCodec
open DataEndpoint
open ClientProtocol
open ControlRequests (Suite ControlContext)
open UserCapabilities
open ContextBijection (ofNat_inj)

/-! ### System -/

/-- A connection that has asked for its context, with the control state at that time, a ghost. -/
structure Opening where
  entityUuid : Uuid
  control : ControlContext
  caps : Bitcap

structure System where
  control : ControlContext
  endpoint : Endpoint
  /-- What the connection of a mailbox has asked for. -/
  opening : Address → Option Opening

/-- The root context was opened and its capabilities were reduced; no entity was added yet. -/
def start (k : ControlContext) (apicaps : Bitcap) (datadir : Bytes) : System where
  control := { k with authorizedEntityDict := fun _ => none }
  endpoint := endpointAdd apicaps datadir
  opening _ := none

inductive Action where
  | control (packet : Bytes) (o : ControlRequests.Outcome)
  | requestContext (data : Address) (entityUuid : Uuid) (allocFails : Bool)
  | openContext (data returnAddress : Address) (fault : OpenFault)
  | endpoint (a : DataEndpoint.Action)

def Enabled (s : System) : Action → Prop
  | .control _ _ => True
  | .requestContext data _ _ => s.opening data = none
  | .openContext data _ _ => (s.opening data).isSome
  | .endpoint a => ∀ data caps, a.request ≠ .contextOpen data caps

variable (S : Suite)

def next (s : System) : Action → System
  | .control packet o =>
    { s with control := (ControlRequests.decodeAndDispatch S o s.control packet).context }
  | .requestContext data entityUuid allocFails =>
    match mapUserCapabilities allocFails s.control entityUuid with
    | .error _ => s
    | .ok caps =>
      { s with opening := Function.update s.opening data (some ⟨entityUuid, s.control, caps⟩) }
  | .openContext data returnAddress fault =>
    match s.opening data with
    | none => s
    | some o =>
      { s with
        endpoint := step s.endpoint ⟨returnAddress, .contextOpen data o.caps, fault, []⟩ }
  | .endpoint a => { s with endpoint := step s.endpoint a }

inductive Run (initial : System) : System → Prop
  | start : Run initial initial
  | tail {s : System} {a : Action} (before : Run initial s) (enabled : Enabled s a) :
      Run initial (next S s a)

/-! ### Child contexts and what they were opened for -/

variable {S} {s : System} {inst inst' : Instance} {free : List (Fin maxChildContexts)}
  {i : Fin maxChildContexts}

/-- The child context has no bit that the capabilities do not have. -/
def Holds (inst : Instance) (i : Fin maxChildContexts) (caps : Bitcap) : Prop :=
  (inst.children i).dispose = true ∧
    ∀ cap, bitcapIsset (inst.children i).childcaps cap = true → bitcapIsset caps cap = true

theorem isset_setFalse_of {caps : Bitcap} {cap cap' : ApiCap}
    (h : bitcapIsset (bitcapSetFalse caps cap) cap' = true) : bitcapIsset caps cap' = true := by
  by_contra hnot
  have hzero := (within_setFalse caps cap).isset (Bool.not_eq_true _ ▸ hnot)
  rw [h] at hzero
  cases hzero

theorem createChild_holds {caps : Bitcap} {allocFails : Bool} (hslots : Slots inst free)
    (h : createChild inst caps allocFails = some (inst', i)) :
    Holds inst' i caps ∧ ∀ j, j ≠ i → inst'.children j = inst.children j := by
  cases hcreate : childDetailsCreate inst with
  | none =>
    simp only [createChild, hcreate] at h
    cases h
  | some made =>
    obtain ⟨inst₁, j⟩ := made
    obtain ⟨rest, rfl, -, rfl⟩ := hslots.create hcreate
    simp only [createChild, hcreate, childContextCreate, Function.update_self] at h
    by_cases hcap : bitcapIsset inst.apicaps .llChildContextCreate = false
    · rw [if_pos hcap] at h
      cases h
    · have hself : ¬ bitcapIsset (bitcapSetTrue clearedChild.childcaps .llChildContextCreate)
          .llChildContextCreate = false := by decide
      rw [if_neg hcap, if_neg hself] at h
      simp only at h
      split at h
      · cases h
      · cases h
        refine ⟨⟨?_, ?_⟩, ?_⟩
        · simp only [Function.update_self]
        · intro cap hset
          simp only [Function.update_self] at hset
          have hboth := isset_setFalse_of hset
          rw [bitcapIsset_intersect, Bool.and_eq_true] at hboth
          exact hboth.2
        · intro j hj
          simp only [Function.update_of_ne hj]

theorem closeChild_children {context : BitVec 32} (h : closeChild inst context = some inst') :
    ∃ i : Fin maxChildContexts, context = BitVec.ofNat 32 i ∧
      ∀ j, j ≠ i → inst'.children j = inst.children j := by
  rw [closeChild] at h
  cases hlook : childContextLookup inst context with
  | error e =>
    rw [hlook] at h
    cases h
  | ok i =>
    rw [hlook] at h
    simp only at h
    split at h
    · cases h
    · cases h
      refine ⟨i, (childContextLookup_ok hlook).1, ?_⟩
      intro j hj
      simp only [childDetailsDelete, Function.update_of_ne hj]

/-! ### The invariant -/

/-- Each entry of the endpoint has an open child context of its own, with the bits that its
connection has asked for. -/
structure Inv (e : Endpoint) (opening : Address → Option Opening) : Prop where
  slots : ∃ free, Slots e.inst free
  addr : ∀ {m x}, e.mailboxContextTree m = some x → x.addr = m
  own : ∀ {m m' x x'}, e.mailboxContextTree m = some x → e.mailboxContextTree m' = some x' →
    x.context = x'.context → m = m'
  holds : ∀ {m x}, e.mailboxContextTree m = some x → ∃ (i : Fin maxChildContexts) (o : Opening),
    x.context = BitVec.ofNat 32 i ∧ opening m = some o ∧ Holds e.inst i o.caps

variable {e e' : Endpoint} {opening : Address → Option Opening}

/-- A tree with fewer entries, over the same child contexts. -/
theorem Inv.shrink (h : Inv e opening) (hinst : e'.inst = e.inst)
    (htree : ∀ m x, e'.mailboxContextTree m = some x → e.mailboxContextTree m = some x) :
    Inv e' opening where
  slots := by
    rw [hinst]
    exact h.slots
  addr hx := h.addr (htree _ _ hx)
  own hx hx' := h.own (htree _ _ hx) (htree _ _ hx')
  holds hx := by
    rw [hinst]
    exact h.holds (htree _ _ hx)

/-- A child context was created: entries that were there keep theirs. -/
theorem Inv.created (h : Inv e opening) {caps : Bitcap} {allocFails : Bool}
    (hcreate : createChild e.inst caps allocFails = some (inst', i)) {m : Address}
    {x : MailboxContextEntry} (hx : e.mailboxContextTree m = some x) :
    x.context ≠ BitVec.ofNat 32 i ∧ ∃ (j : Fin maxChildContexts) (o : Opening),
      x.context = BitVec.ofNat 32 j ∧ opening m = some o ∧ Holds inst' j o.caps := by
  obtain ⟨free, hfree⟩ := h.slots
  obtain ⟨hfresh, -, -⟩ := createChild_some hfree hcreate
  obtain ⟨-, hothers⟩ := createChild_holds hfree hcreate
  obtain ⟨j, o, hj, ho, hopen, hcaps⟩ := h.holds hx
  have hne : j ≠ i := by
    rintro rfl
    exact hfresh hopen
  refine ⟨?_, j, o, hj, ho, ?_⟩
  · rw [hj]
    exact fun heq => hne (ofNat_inj heq)
  · rw [Holds, hothers j hne]
    exact ⟨hopen, hcaps⟩

theorem inv_opened (h : Inv e opening) {data : Address} {o : Opening} (ho : opening data = some o)
    {allocFails : Bool} (hcreate : createChild e.inst o.caps allocFails = some (inst', i))
    (hinst : e'.inst = inst')
    (htree : ∀ m x, e'.mailboxContextTree m = some x →
      (m = data ∧ x = ⟨data, BitVec.ofNat 32 i⟩) ∨ e.mailboxContextTree m = some x) :
    Inv e' opening := by
  obtain ⟨free, hfree⟩ := h.slots
  obtain ⟨-, -, hslots⟩ := createChild_some hfree hcreate
  refine ⟨hinst ▸ hslots, ?_, ?_, ?_⟩
  · intro m x hx
    rcases htree m x hx with ⟨rfl, rfl⟩ | hold
    · rfl
    · exact h.addr hold
  · intro m m' x x' hx hx' hcontext
    rcases htree m x hx with ⟨rfl, rfl⟩ | hold
    · rcases htree m' x' hx' with ⟨rfl, -⟩ | hold'
      · rfl
      · exact absurd hcontext.symm (h.created hcreate hold').1
    · rcases htree m' x' hx' with ⟨rfl, rfl⟩ | hold'
      · exact absurd hcontext (h.created hcreate hold).1
      · exact h.own hold hold' hcontext
  · intro m x hx
    rw [hinst]
    rcases htree m x hx with ⟨rfl, rfl⟩ | hold
    · exact ⟨i, o, rfl, ho, (createChild_holds hfree hcreate).1⟩
    · exact (h.created hcreate hold).2

theorem reqContextOpen_inv (h : Inv e opening) {data returnAddress : Address} {o : Opening}
    (ho : opening data = some o) (f : OpenFault) :
    Inv (reqContextOpen e returnAddress data o.caps f).1 opening := by
  rw [reqContextOpen]
  split
  · exact h
  cases hcreate : createChild e.inst o.caps (f = .childAlloc) with
  | none => exact h
  | some made =>
    obtain ⟨inst', i⟩ := made
    have hupdate : ∀ m x, Function.update e.mailboxContextTree data
        (some ⟨data, BitVec.ofNat 32 i⟩) m = some x →
        (m = data ∧ x = ⟨data, BitVec.ofNat 32 i⟩) ∨ e.mailboxContextTree m = some x := by
      intro m x hx
      by_cases hm : m = data
      · subst hm
        rw [Function.update_self] at hx
        exact Or.inl ⟨rfl, (Option.some.inj hx).symm⟩
      · rw [Function.update_of_ne hm] at hx
        exact Or.inr hx
    have herased : ∀ m x, Function.update (Function.update e.mailboxContextTree data
        (some ⟨data, BitVec.ofNat 32 i⟩)) returnAddress none m = some x →
        (m = data ∧ x = ⟨data, BitVec.ofNat 32 i⟩) ∨ e.mailboxContextTree m = some x := by
      intro m x hx
      by_cases hm : m = returnAddress
      · subst hm
        rw [Function.update_self] at hx
        cases hx
      · rw [Function.update_of_ne hm] at hx
        exact hupdate m x hx
    simp only
    split
    · exact inv_opened h ho hcreate rfl fun m x hx => Or.inr hx
    split
    · exact inv_opened h ho hcreate rfl fun m x hx => Or.inr hx
    split
    · exact inv_opened h ho hcreate rfl herased
    split
    · exact inv_opened h ho hcreate rfl herased
    · exact inv_opened h ho hcreate rfl hupdate

theorem reqContextClose_inv (h : Inv e opening) (offset : BitVec 32) (data : Address) :
    Inv (reqContextClose e offset data).1 opening := by
  rw [reqContextClose]
  cases hentry : e.mailboxContextTree data with
  | none => exact h
  | some x =>
    simp only [writePacket]
    cases hclose : closeChild e.inst x.context with
    | none => exact h.shrink rfl fun m x hx => hx
    | some inst' =>
      obtain ⟨free, hfree⟩ := h.slots
      obtain ⟨i, hi, hothers⟩ := closeChild_children hclose
      obtain ⟨j, o, hj, -, hopen, -⟩ := h.holds hentry
      obtain rfl := ofNat_inj (hi.symm.trans hj)
      rw [hi] at hclose
      obtain ⟨-, hslots⟩ := closeChild_some hfree hopen hclose
      have haddr := h.addr hentry
      have htree : ∀ m y, Function.update e.mailboxContextTree x.addr none m = some y →
          m ≠ data ∧ e.mailboxContextTree m = some y := by
        intro m y hy
        by_cases hm : m = x.addr
        · subst hm
          rw [Function.update_self] at hy
          cases hy
        · rw [Function.update_of_ne hm] at hy
          rw [haddr] at hm
          exact ⟨hm, hy⟩
      refine ⟨hslots, ?_, ?_, ?_⟩
      · intro m y hy
        exact h.addr (htree m y hy).2
      · intro m m' y y' hy hy'
        exact h.own (htree m y hy).2 (htree m' y' hy').2
      · intro m y hy
        obtain ⟨hm, hold⟩ := htree m y hy
        obtain ⟨l, o', hl, ho', hholds⟩ := h.holds hold
        have hne : l ≠ i := by
          rintro rfl
          exact hm (h.own hold hentry (hl.trans hi.symm))
        refine ⟨l, o', hl, ho', ?_⟩
        rw [Holds, hothers l hne]
        exact hholds

theorem step_inv (h : Inv e opening) {a : DataEndpoint.Action}
    (hopen : ∀ data caps, a.request = .contextOpen data caps →
      ∃ o, opening data = some o ∧ o.caps = caps) : Inv (step e a) opening := by
  have hdispatch : Inv (decodeAndDispatchReq e a).1 opening := by
    rw [decodeAndDispatchReq]
    cases hrequest : a.request with
    | contextOpen data caps =>
      obtain ⟨o, ho, rfl⟩ := hopen data caps hrequest
      exact reqContextOpen_inv h ho a.fault
    | contextClose offset data => exact reqContextClose_inv h offset data
    | dataserviceReq protocolRequestId offset payload =>
      simp only [reqDataserviceReq]
      split
      · exact h
      · exact h.shrink rfl fun m x hx => hx
    | other offset => exact h
  rw [step]
  split
  · exact h
  · split
    · rename_i heq
      rw [heq] at hdispatch
      exact hdispatch.shrink rfl fun m x hx => hx
    · rename_i heq
      rw [heq] at hdispatch
      exact hdispatch

/-! ### Runs -/

structure SystemInv (s : System) : Prop where
  endpoint : Inv s.endpoint s.opening
  mapped : ∀ {m o}, s.opening m = some o →
    ∃ allocFails, mapUserCapabilities allocFails o.control o.entityUuid = .ok o.caps

theorem start_inv (k : ControlContext) (apicaps : Bitcap) (datadir : Bytes) :
    SystemInv (start k apicaps datadir) where
  endpoint :=
    { slots := (ContextBijection.inv_endpointAdd apicaps datadir).slots
      addr := fun h => by cases h
      own := fun h => by cases h
      holds := fun h => by cases h }
  mapped h := by cases h

theorem next_inv {a : Action} (hs : SystemInv s) (henabled : Enabled s a) :
    SystemInv (next S s a) := by
  obtain ⟨hendpoint, hmapped⟩ := hs
  cases a with
  | control packet o => exact ⟨hendpoint, hmapped⟩
  | requestContext data entityUuid allocFails =>
    have hnone : s.opening data = none := henabled
    cases hcaps : mapUserCapabilities allocFails s.control entityUuid with
    | error e =>
      simp only [next, hcaps]
      exact ⟨hendpoint, hmapped⟩
    | ok caps =>
      simp only [next, hcaps]
      refine ⟨⟨hendpoint.slots, hendpoint.addr, hendpoint.own, ?_⟩, ?_⟩
      · intro m x hx
        obtain ⟨i, o, hi, ho, hholds⟩ := hendpoint.holds hx
        have hne : m ≠ data := by
          rintro rfl
          rw [hnone] at ho
          cases ho
        refine ⟨i, o, hi, ?_, hholds⟩
        simp only [Function.update_of_ne hne]
        exact ho
      · intro m o ho
        by_cases hm : m = data
        · subst hm
          simp only [Function.update_self] at ho
          obtain rfl := Option.some.inj ho
          exact ⟨allocFails, hcaps⟩
        · simp only [Function.update_of_ne hm] at ho
          exact hmapped ho
  | openContext data returnAddress fault =>
    cases ho : s.opening data with
    | none =>
      simp only [next, ho]
      exact ⟨hendpoint, hmapped⟩
    | some o =>
      simp only [next, ho]
      refine ⟨step_inv hendpoint ?_, hmapped⟩
      intro data' caps hrequest
      obtain ⟨rfl, rfl⟩ := RequestMessage.contextOpen.inj hrequest
      exact ⟨o, ho, rfl⟩
  | endpoint a =>
    refine ⟨step_inv hendpoint ?_, hmapped⟩
    intro data caps hrequest
    exact absurd hrequest (henabled data caps)

theorem run_inv {k : ControlContext} {apicaps : Bitcap} {datadir : Bytes}
    (hrun : Run S (start k apicaps datadir) s) : SystemInv s := by
  induction hrun with
  | start => exact start_inv k apicaps datadir
  | tail before enabled ih => exact next_inv ih enabled

/-- The child context of a connection has only bits of verbs that its entity was granted. -/
theorem SystemInv.granted (hs : SystemInv s) {m : Address} {x : MailboxContextEntry}
    (hx : s.endpoint.mailboxContextTree m = some x) :
    ∃ (i : Fin maxChildContexts) (o : Opening), x.context = BitVec.ofNat 32 i ∧
      s.opening m = some o ∧ (s.endpoint.inst.children i).dispose = true ∧
      ∀ cap, bitcapIsset (s.endpoint.inst.children i).childcaps cap = true →
        cap = .llChildContextClose ∨ ∃ verb, (verb, cap) ∈ userCapabilities ∧
          Granted o.control o.entityUuid verb := by
  obtain ⟨i, o, hi, ho, hopen, hcaps⟩ := hs.endpoint.holds hx
  obtain ⟨allocFails, hmap⟩ := hs.mapped ho
  exact ⟨i, o, hi, ho, hopen, fun cap hcap => mapUserCapabilities_isset hmap (hcaps cap hcap)⟩

end ClientAuthority
