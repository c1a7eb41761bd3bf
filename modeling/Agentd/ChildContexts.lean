import Agentd.DataserviceDispatch
import Agentd.LinkedKeys

/-! # Child context slots

The entries of the child array that are not open are exactly those on the free list, each once, and
they are cleared. -/
namespace ChildContexts

open DataserviceStore
open DataserviceDispatch
open LinkedKeys

structure Slots (inst : Instance) (free : List (Fin maxChildContexts)) : Prop where
  threaded : Threaded (fun i => (inst.children i).next) inst.childHead free
  nodup : free.Nodup
  mem_iff : ∀ i, i ∈ free ↔ (inst.children i).dispose = false
  cleared : ∀ i ∈ free, inst.children i = { clearedChild with next := (inst.children i).next }

variable {inst : Instance} {free : List (Fin maxChildContexts)} {i : Fin maxChildContexts}

/-! ### Fresh instance -/

theorem threaded_threadFreeList {l : List (Fin maxChildContexts)}
    (hnd : (l.reverse ++ free).Nodup)
    (ht : Threaded (fun i => (inst.children i).next) inst.childHead free) :
    Threaded (fun i => ((threadFreeList l inst).children i).next) (threadFreeList l inst).childHead
      (l.reverse ++ free) := by
  induction l generalizing inst free with
  | nil => exact ht
  | cons a l ih =>
    have hsplit : (a :: l).reverse ++ free = l.reverse ++ a :: free := by simp
    rw [hsplit] at hnd ⊢
    have hfree : a ∉ free := by
      have hcons := (List.nodup_append.mp hnd).2.1
      exact (List.nodup_cons.mp hcons).1
    apply ih hnd
    refine ⟨rfl, ?_⟩
    simp only [Function.update_self]
    apply ht.congr
    intro b hb
    have hba : b ≠ a := fun heq => hfree (heq ▸ hb)
    rw [Function.update_of_ne hba]

theorem cleared_threadFreeList {l : List (Fin maxChildContexts)}
    (hc : ∀ i, inst.children i = { clearedChild with next := (inst.children i).next })
    (i : Fin maxChildContexts) : (threadFreeList l inst).children i =
      { clearedChild with next := ((threadFreeList l inst).children i).next } := by
  induction l generalizing inst with
  | nil => exact hc i
  | cons a l ih =>
    apply ih
    intro j
    by_cases hj : j = a
    · subst hj
      simp only [Function.update_self]
      rw [hc j]
    · simp only [Function.update_of_ne hj]
      exact hc j

theorem slots_threadFreeList {l : List (Fin maxChildContexts)} (hnd : l.Nodup)
    (hall : ∀ i, i ∈ l) (hhead : inst.childHead = none)
    (hc : ∀ i, inst.children i = { clearedChild with next := (inst.children i).next }) :
    Slots (threadFreeList l inst) l.reverse := by
  have hcleared : ∀ i, (threadFreeList l inst).children i =
      { clearedChild with next := ((threadFreeList l inst).children i).next } :=
    cleared_threadFreeList hc
  have ht : Threaded (fun i => ((threadFreeList l inst).children i).next)
      (threadFreeList l inst).childHead (l.reverse ++ []) :=
    threaded_threadFreeList (by simpa using hnd) hhead
  rw [List.append_nil] at ht
  refine ⟨ht, List.nodup_reverse.mpr hnd, fun i => ?_, fun i _ => hcleared i⟩
  constructor
  · intro _
    exact congrArg ChildDetails.dispose (hcleared i)
  · intro _
    exact List.mem_reverse.mpr (hall i)

theorem slots_instanceCreate :
    Slots instanceCreate (List.finRange maxChildContexts).reverse :=
  slots_threadFreeList (List.nodup_finRange _) (fun _ => List.mem_finRange _) rfl fun _ => rfl

/-- Threading the free list touches the child array only. -/
theorem threadFreeList_root (l : List (Fin maxChildContexts)) (inst : Instance) :
    (threadFreeList l inst).apicaps = inst.apicaps ∧
      (threadFreeList l inst).details = inst.details := by
  induction l generalizing inst with
  | nil => exact ⟨rfl, rfl⟩
  | cons a l ih => exact ih _

theorem apicaps_instanceCreate :
    instanceCreate.apicaps = bitcapSetTrue 0 .llRootContextCreate :=
  (threadFreeList_root _ _).1

theorem details_instanceCreate : instanceCreate.details = .null := (threadFreeList_root _ _).2

theorem not_open_instanceCreate (i : Fin maxChildContexts) :
    (instanceCreate.children i).dispose = false :=
  (slots_instanceCreate.mem_iff i).mp (List.mem_reverse.mpr (List.mem_finRange i))

theorem instanceCreate_eq : ∃ i, instanceCreate =
    ⟨bitcapSetTrue 0 .llRootContextCreate, .null, instanceCreate.children, some i⟩ := by
  have heta : ∀ (inst : Instance) (caps : Bitcap) (i : Fin maxChildContexts),
      inst.apicaps = caps → inst.details = .null → inst.childHead = some i →
      inst = ⟨caps, .null, inst.children, some i⟩ := by
    rintro ⟨_, _, _, _⟩ _ i rfl rfl rfl
    rfl
  obtain ⟨free, hfree⟩ : ∃ free, Slots instanceCreate free := ⟨_, slots_instanceCreate⟩
  have hzero : (⟨0, by decide⟩ : Fin maxChildContexts) ∈ free :=
    (hfree.mem_iff _).mpr (not_open_instanceCreate _)
  obtain ⟨i, rest, rfl⟩ := List.exists_cons_of_ne_nil (List.ne_nil_of_mem hzero)
  exact ⟨i, heta _ _ i apicaps_instanceCreate details_instanceCreate hfree.threaded.1⟩

/-! ### Taking and returning a slot -/

theorem Slots.congr {inst' : Instance} (h : Slots inst free)
    (hchildren : inst'.children = inst.children) (hhead : inst'.childHead = inst.childHead) :
    Slots inst' free := by
  refine ⟨?_, h.nodup, ?_, ?_⟩
  · rw [hchildren, hhead]
    exact h.threaded
  · rw [hchildren]
    exact h.mem_iff
  · rw [hchildren]
    exact h.cleared

/-- The slot at the head of the free list is taken. -/
theorem Slots.head (h : Slots inst free) (hi : inst.childHead = some i) :
    ∃ rest, free = i :: rest := by
  cases free with
  | nil =>
    have hnone : inst.childHead = none := h.threaded
    rw [hnone] at hi
    cases hi
  | cons a rest =>
    have hhead : inst.childHead = some a := h.threaded.1
    rw [Option.some.inj (hi.symm.trans hhead)]
    exact ⟨rest, rfl⟩

theorem Slots.create {inst' : Instance} (h : Slots inst free)
    (hc : childDetailsCreate inst = some (inst', i)) : ∃ rest, free = i :: rest ∧
      inst.childHead = some i ∧ inst' = { inst with
        childHead := (inst.children i).next
        children := Function.update inst.children i { clearedChild with dispose := true } } := by
  obtain ⟨j, hj, heq⟩ := Option.map_eq_some_iff.mp hc
  obtain ⟨hinst, rfl⟩ := Prod.mk.inj heq
  obtain ⟨rest, hrest⟩ := h.head hj
  exact ⟨rest, hrest, hj, hinst.symm⟩

theorem childDetailsCreate_eq_none (h : Slots inst free) :
    childDetailsCreate inst = none ↔ free = [] := by
  rw [childDetailsCreate, Option.map_eq_none_iff]
  cases free with
  | nil => exact ⟨fun _ => rfl, fun _ => h.threaded⟩
  | cons a rest =>
    have hhead : inst.childHead = some a := h.threaded.1
    simp [hhead]

/-- A slot that was taken and is kept open. -/
theorem Slots.keep {rest : List (Fin maxChildContexts)} {child : ChildDetails}
    (h : Slots inst (i :: rest)) (hopen : child.dispose = true) :
    Slots { inst with
      childHead := (inst.children i).next
      children := Function.update inst.children i child } rest := by
  have hir : i ∉ rest := (List.nodup_cons.mp h.nodup).1
  have hne : ∀ j ∈ rest, j ≠ i := fun j hj heq => hir (heq ▸ hj)
  refine ⟨?_, (List.nodup_cons.mp h.nodup).2, ?_, ?_⟩
  · apply h.threaded.2.congr
    intro j hj
    simp only [Function.update_of_ne (hne j hj)]
  · intro j
    by_cases hj : j = i
    · subst hj
      simp [hir, hopen]
    · simp only [Function.update_of_ne hj]
      rw [← h.mem_iff j]
      simp [hj]
  · intro j hj
    simp only [Function.update_of_ne (hne j hj)]
    exact h.cleared j (List.mem_cons_of_mem i hj)

/-- A slot that was taken and is returned at once leaves the instance as it was. -/
theorem Slots.giveBack {rest : List (Fin maxChildContexts)} {child child' : ChildDetails}
    (h : Slots inst (i :: rest)) :
    childDetailsDelete { inst with
      childHead := (inst.children i).next
      children := Function.update (Function.update inst.children i child) i child' } i = inst := by
  have hhead : inst.childHead = some i := h.threaded.1
  have hclear := h.cleared i (by simp)
  have hupd : Function.update inst.children i
      { clearedChild with next := (inst.children i).next } = inst.children := by
    rw [← hclear]
    exact Function.update_eq_self i inst.children
  obtain ⟨apicaps, details, children, childHead⟩ := inst
  simp only [childDetailsDelete, Function.update_idem] at hupd hhead ⊢
  rw [hupd, ← hhead]

/-- An open slot is returned. -/
theorem Slots.delete {child : ChildDetails} (h : Slots inst free)
    (hopen : (inst.children i).dispose = true) :
    Slots (childDetailsDelete
      { inst with children := Function.update inst.children i child } i) (i :: free) := by
  have hif : i ∉ free := by
    rw [h.mem_iff i, hopen]
    simp
  have hne : ∀ j ∈ free, j ≠ i := fun j hj heq => hif (heq ▸ hj)
  simp only [childDetailsDelete, Function.update_idem]
  refine ⟨⟨rfl, ?_⟩, List.nodup_cons.mpr ⟨hif, h.nodup⟩, ?_, ?_⟩
  · simp only [Function.update_self]
    apply h.threaded.congr
    intro j hj
    simp only [Function.update_of_ne (hne j hj)]
  · intro j
    by_cases hj : j = i
    · subst hj
      simp [clearedChild]
    · simp only [Function.update_of_ne hj]
      rw [← h.mem_iff j]
      simp [hj]
  · intro j hj
    by_cases hji : j = i
    · subst hji
      simp only [Function.update_self]
    · simp only [Function.update_of_ne hji]
      exact h.cleared j (List.mem_of_ne_of_mem hji hj)

end ChildContexts
