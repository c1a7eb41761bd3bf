import Agentd.RootContextDatabase

/-! # Slots of the child array over whole runs

Whatever packets arrive, the slots that are not open are those of the free list, each once. So a
create takes a slot that nobody holds, a close gives back the one slot it names, and the index in a
request finds an open slot or nothing. -/
namespace ChildContextSlots

open ByteString
open DataserviceRecords
open DataserviceStore
open DataserviceRequests
open DataserviceDispatch
open LinkedKeys
open ChildContexts
open CapabilityConfinement
open RootContextDatabase

def openSlots (inst : Instance) : Set (Fin maxChildContexts) :=
  {i | (inst.children i).dispose = true}

structure SlotCalls (inst : Instance) : Prop where
  partition : ∃ free, Threaded (fun i => (inst.children i).next) inst.childHead free ∧ free.Nodup ∧
    ∀ i, i ∈ free ↔ i ∉ openSlots inst
  create_none : childDetailsCreate inst = none ↔ openSlots inst = Set.univ
  create : ∀ inst' i, childDetailsCreate inst = some (inst', i) →
    i ∉ openSlots inst ∧ openSlots inst' = insert i (openSlots inst)
  close : ∀ i ∈ openSlots inst, openSlots (childDetailsDelete inst i) = openSlots inst \ {i}
  lookup : ∀ offset i, childContextLookup inst offset = .ok i ↔
    offset = BitVec.ofNat 32 i ∧ i ∈ openSlots inst
  rejected : ∀ offset, (∃ e, childContextLookup inst offset = .error e) ↔
    ∀ i ∈ openSlots inst, offset ≠ BitVec.ofNat 32 i

section Calls

variable {inst : Instance} {free : List (Fin maxChildContexts)}

theorem not_mem_openSlots {i : Fin maxChildContexts} :
    i ∉ openSlots inst ↔ (inst.children i).dispose = false :=
  Bool.not_eq_true _ ▸ Iff.rfl

theorem openSlots_update (children : Fin maxChildContexts → ChildDetails) (i : Fin maxChildContexts)
    (child : ChildDetails) (caps : Bitcap) (details : Details)
    (head : Option (Fin maxChildContexts)) :
    openSlots ⟨caps, details, Function.update children i child, head⟩ =
      {j | if j = i then child.dispose = true else (children j).dispose = true} := by
  ext j
  by_cases hj : j = i
  · subst hj
    simp [openSlots]
  · simp [openSlots, hj]

theorem openSlots_opened (children : Fin maxChildContexts → ChildDetails) (i : Fin maxChildContexts)
    {child : ChildDetails} (hopen : child.dispose = true) (caps : Bitcap) (details : Details)
    (head head' : Option (Fin maxChildContexts)) :
    openSlots ⟨caps, details, Function.update children i child, head⟩ =
      insert i (openSlots ⟨caps, details, children, head'⟩) := by
  rw [openSlots_update]
  ext j
  by_cases hj : j = i
  · simp [hj, hopen]
  · simp [hj, openSlots]

theorem openSlots_childDetailsDelete (inst : Instance) (i : Fin maxChildContexts) :
    openSlots (childDetailsDelete inst i) = openSlots inst \ {i} := by
  rw [childDetailsDelete, openSlots_update]
  ext j
  by_cases hj : j = i
  · simp [hj, clearedChild]
  · simp [hj, openSlots]

theorem childContextLookup_iff (offset : BitVec 32) (i : Fin maxChildContexts) :
    childContextLookup inst offset = .ok i ↔ offset = BitVec.ofNat 32 i ∧ i ∈ openSlots inst := by
  constructor
  · exact childContextLookup_ok
  · rintro ⟨rfl, hopen⟩
    have hi : i.val < 2 ^ 32 := i.isLt.trans (by decide)
    have hval : (BitVec.ofNat 32 i.val).toNat = i.val := by
      rw [BitVec.toNat_ofNat, Nat.mod_eq_of_lt hi]
    have hlt : (BitVec.ofNat 32 i.val).toNat < maxChildContexts := by
      rw [hval]
      exact i.isLt
    have hslot : (⟨(BitVec.ofNat 32 i.val).toNat, hlt⟩ : Fin maxChildContexts) = i := Fin.ext hval
    have hopen' : ¬ (inst.children i).dispose = false := by
      rw [show (inst.children i).dispose = true from hopen]
      decide
    rw [childContextLookup, dif_pos hlt, hslot, if_neg hopen']

theorem childContextLookup_error_iff (offset : BitVec 32) :
    (∃ e, childContextLookup inst offset = .error e) ↔
      ∀ i ∈ openSlots inst, offset ≠ BitVec.ofNat 32 i := by
  constructor
  · rintro ⟨e, he⟩ i hi rfl
    rw [(childContextLookup_iff _ i).mpr ⟨rfl, hi⟩] at he
    cases he
  · intro hnone
    cases hlook : childContextLookup inst offset with
    | error e => exact ⟨e, rfl⟩
    | ok i =>
      obtain ⟨hoff, hi⟩ := childContextLookup_ok hlook
      exact absurd hoff (hnone i hi)

theorem slotCalls_of_slots (h : Slots inst free) : SlotCalls inst where
  partition := ⟨free, h.threaded, h.nodup, fun i => (h.mem_iff i).trans not_mem_openSlots.symm⟩
  create_none := by
    rw [childDetailsCreate_eq_none h, List.eq_nil_iff_forall_not_mem, Set.eq_univ_iff_forall]
    apply forall_congr'
    intro i
    rw [h.mem_iff i, ← not_mem_openSlots, not_not]
  create := by
    intro inst' i hc
    obtain ⟨rest, rfl, -, rfl⟩ := h.create hc
    refine ⟨not_mem_openSlots.mpr ((h.mem_iff i).mp (by simp)), ?_⟩
    exact openSlots_opened _ i rfl _ _ _ _
  close := fun i _ => openSlots_childDetailsDelete inst i
  lookup := childContextLookup_iff
  rejected := childContextLookup_error_iff

end Calls

/-! ### Packets -/

/-- What one packet does to the slots: nothing, or it opens one that was not open and announces it,
or it frees the open one that it names. -/
inductive SlotChange (t : Step) : Prop
  | kept (same : openSlots t.after.inst = openSlots t.before.inst)
  | opened (i : Fin maxChildContexts) (caps : Bitcap)
      (created : ChildCreated t.before t.delivery caps i t.after)
      (fresh : i ∉ openSlots t.before.inst)
      (slots : openSlots t.after.inst = insert i (openSlots t.before.inst))
      (announced : Announced i t.response)
  | freed (i : Fin maxChildContexts) (closed : ChildClosed t.before t.delivery i t.after)
      (held : i ∈ openSlots t.before.inst)
      (slots : openSlots t.after.inst = openSlots t.before.inst \ {i})

section Packets

variable {E : Env} {s s' : Service} {d : Delivery} {resp : Option Response}
  {st : Except AgentdError Unit} {free : List (Fin maxChildContexts)}

theorem served_slotChange (hfree : Slots s.inst free)
    (h : decodeAndDispatch E s d = some (s', resp, st)) : SlotChange ⟨s, d, s', resp, st⟩ := by
  rcases served_cases hfree h with ⟨rfl, -⟩ | ⟨hr, -⟩ | ⟨hr, -⟩ | ⟨caps, i, hc, han⟩ |
    ⟨⟨i, hc⟩, -⟩ | ⟨i, -, hinst⟩
  · exact .kept rfl
  · apply SlotChange.kept
    simp only [openSlots, hr.children.1]
  · obtain ⟨req, caps, -, -, hinst⟩ := hr.caps
    apply SlotChange.kept
    simp only [openSlots, hinst]
  · have hslot : (s.inst.children i).dispose = false := by
      obtain ⟨rest, rfl⟩ := hfree.head hc.slot
      exact (hfree.mem_iff i).mp (by simp)
    refine .opened i caps hc (not_mem_openSlots.mpr hslot) ?_ han
    simp only [hc.instance_eq]
    exact openSlots_opened _ i rfl _ _ _ _
  · refine .freed i hc hc.isOpen ?_
    simp only [hc.instance_eq, openSlots_childDetailsDelete]
    ext j
    by_cases hj : j = i
    · simp [hj]
    · simp [openSlots, hj]
  · apply SlotChange.kept
    simp only [hinst]

structure CreateAsked (s : Service) (d : Delivery) (caps : Bitcap) : Prop where
  request : ∃ req, Names d Method.llChildContextCreate.code req ∧ decodeCaps req = .ok caps
  authorized : bitcapIsset s.inst.apicaps .llChildContextCreate = true
  memory : d.payloadAllocFails = false

structure CloseAsked (s : Service) (d : Delivery) (i : Fin maxChildContexts) : Prop where
  request : ∃ req rest, Names d Method.llChildContextClose.code req ∧
    requestInit req = .ok (BitVec.ofNat 32 i, rest)
  held : i ∈ openSlots s.inst

/-- It is refused only when all slots are open. -/
theorem served_create (hfree : Slots s.inst free) {caps : Bitcap} (hask : CreateAsked s d caps)
    (h : decodeAndDispatch E s d = some (s', resp, st)) :
    (openSlots s.inst = Set.univ ∧ s' = s) ∨ ∃ i, ChildCreated s d caps i s' := by
  obtain ⟨req, hn, hcaps⟩ := hask.request
  obtain ⟨hlen, hmethod, hreq⟩ := hn
  have hcap : ¬ bitcapIsset s.inst.apicaps .llChildContextCreate = false := by
    simp [hask.authorized]
  have hself : ¬ bitcapIsset (bitcapSetTrue clearedChild.childcaps .llChildContextCreate)
      .llChildContextCreate = false := by decide
  rw [decodeAndDispatch, if_neg (not_lt.mpr hlen), hmethod, hreq] at h
  replace h : dispatchChildContextCreate s d req = some (s', resp, st) := h
  cases hcreate : childDetailsCreate s.inst with
  | none =>
    left
    refine ⟨(slotCalls_of_slots hfree).create_none.mp hcreate, ?_⟩
    simp only [dispatchChildContextCreate, hcaps, hcreate] at h
    exact (writeStatus_cases h).1
  | some made =>
    right
    obtain ⟨inst, i⟩ := made
    obtain ⟨rest, rfl, hhead, rfl⟩ := hfree.create hcreate
    simp only [dispatchChildContextCreate, hcaps, hcreate, childContextCreate, if_neg hcap,
      Function.update_self, if_neg hself, hask.memory, Bool.false_eq_true, if_false] at h
    obtain ⟨rfl, -⟩ := writeStatus_cases h
    refine ⟨i, ⟨req, ⟨hlen, hmethod, hreq⟩, hcaps⟩, hask.authorized, hhead, ?_, rfl⟩
    simp only [Function.update_idem]
    rfl

/-- It is refused only when the child context lacks the bit for it. -/
theorem served_close {i : Fin maxChildContexts} (hask : CloseAsked s d i)
    (h : decodeAndDispatch E s d = some (s', resp, st)) :
    (bitcapIsset (s.inst.children i).childcaps .llChildContextClose = false ∧ s' = s) ∨
      ChildClosed s d i s' := by
  obtain ⟨req, rest, hn, hinit⟩ := hask.request
  obtain ⟨hlen, hmethod, hreq⟩ := hn
  have hlook : childContextLookup s.inst (BitVec.ofNat 32 i) = .ok i :=
    (childContextLookup_iff _ i).mpr ⟨rfl, hask.held⟩
  rw [decodeAndDispatch, if_neg (not_lt.mpr hlen), hmethod, hreq] at h
  replace h : dispatchChildContextClose s d req = some (s', resp, st) := h
  by_cases hcap : bitcapIsset (s.inst.children i).childcaps .llChildContextClose = false
  · left
    simp only [dispatchChildContextClose, hinit, hlook, childContextClose, if_pos hcap] at h
    exact ⟨hcap, (writeStatus_cases h).1⟩
  · right
    simp only [dispatchChildContextClose, hinit, hlook, childContextClose, if_neg hcap] at h
    obtain ⟨rfl, -⟩ := writeStatus_cases h
    exact ⟨⟨req, rest, ⟨hlen, hmethod, hreq⟩, hinit⟩, hask.held, by simpa using hcap, rfl, rfl⟩

end Packets

section Runs

variable {E : Env} {disk : Bytes → Store} {log : List Step} {s : Service}

/-- In every run: the calls on the slots do what they should in the state reached and in every state
before; each packet opens a slot that was not open, frees an open one or keeps all; a permitted
create is refused only when all slots are open; and a close of an open slot frees it, or the child
context may not close. -/
theorem child_slots_are_partitioned (h : Serving E disk log s) :
    SlotCalls s.inst ∧
    (∀ t ∈ log, SlotCalls t.before.inst ∧ SlotChange t) ∧
    (∀ t ∈ log, ∀ caps, CreateAsked t.before t.delivery caps →
      (openSlots t.before.inst = Set.univ ∧ t.after = t.before) ∨
        ∃ i, ChildCreated t.before t.delivery caps i t.after) ∧
    ∀ t ∈ log, ∀ i, CloseAsked t.before t.delivery i →
      (bitcapIsset (t.before.inst.children i).childcaps .llChildContextClose = false ∧
        t.after = t.before) ∨ ChildClosed t.before t.delivery i t.after := by
  have hstep : ∀ t ∈ log, (∃ free, Slots t.before.inst free) ∧
      decodeAndDispatch E t.before t.delivery = some (t.after, t.response, t.status) := by
    intro t ht
    obtain ⟨l₁, l₂, hlog⟩ := List.append_of_mem ht
    obtain ⟨hrun, hserved⟩ := h.split hlog
    exact ⟨hrun.confined.slots, hserved⟩
  refine ⟨?_, ?_, ?_, ?_⟩
  · obtain ⟨free, hfree⟩ := h.confined.slots
    exact slotCalls_of_slots hfree
  · intro t ht
    obtain ⟨⟨free, hfree⟩, hserved⟩ := hstep t ht
    exact ⟨slotCalls_of_slots hfree, served_slotChange hfree hserved⟩
  · intro t ht caps hask
    obtain ⟨⟨free, hfree⟩, hserved⟩ := hstep t ht
    exact served_create hfree hask hserved
  · intro t ht i hask
    exact served_close hask (hstep t ht).2

theorem joined_child_is_found : ∃ log s i, Serving (codecEnv false) (fun _ => emptyStore) log s ∧
    log.map Step.delivery = openAndJoin none ∧ i ∈ openSlots s.inst ∧
    childContextLookup s.inst (BitVec.ofNat 32 i) = .ok i := by
  obtain ⟨log, s, i, hrun, hlog, -, hopen, -⟩ :=
    serving_openAndJoin (codecEnv false) (fun _ => emptyStore) none
  refine ⟨log, s, i, hrun, hlog, hopen, ?_⟩
  exact ((child_slots_are_partitioned hrun).1.lookup _ i).mpr ⟨rfl, hopen⟩

end Runs

end ChildContextSlots
