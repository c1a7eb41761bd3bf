import Mathlib.Data.Int.Basic
import Mathlib.Data.List.Nodup
import Mathlib.Data.List.Perm.Subperm
import Mathlib.Logic.Function.Basic

/-! # Tables of descriptors

A process refers to its open files by descriptors from zero up to a limit. Descriptors are
duplicated to places of their own and closed; a row of moves from some places to others is as good
as all of them at once when no place is used twice. -/
namespace DescriptorTables

structure Table (φ : Type*) where
  entry : ℤ → Option φ
  limit : ℤ
  bounded : ∀ d f, entry d = some f → 0 ≤ d ∧ d < limit

variable {φ : Type*} {t t' : Table φ} {f : φ} {a b d : ℤ}

def Table.put (t : Table φ) (d : ℤ) (f : φ) (h : 0 ≤ d ∧ d < t.limit) : Table φ where
  entry := Function.update t.entry d (some f)
  limit := t.limit
  bounded e g he := by
    rw [Function.update_apply] at he
    split at he
    · rename_i heq
      rw [heq]
      exact h
    · exact t.bounded e g he

/-- A descriptor that is not open stays as it is. -/
def Table.close (t : Table φ) (d : ℤ) : Table φ where
  entry := Function.update t.entry d none
  limit := t.limit
  bounded e g he := by
    rw [Function.update_apply] at he
    split at he
    · cases he
    · exact t.bounded e g he

/-- `dup2`: it fails when `a` is not open or `b` is out of range. -/
def Table.dup2 (t : Table φ) (a b : ℤ) : Option (Table φ) :=
  match t.entry a with
  | none => none
  | some f => if h : 0 ≤ b ∧ b < t.limit then some (t.put b f h) else none

theorem close_entry : (t.close a).entry d = if d = a then none else t.entry d :=
  Function.update_apply ..

@[simp] theorem close_limit : (t.close a).limit = t.limit := rfl

theorem dup2_some (ha : t.entry a = some f) (hb : 0 ≤ b ∧ b < t.limit) :
    ∃ t', t.dup2 a b = some t' ∧ t'.limit = t.limit ∧
      ∀ d, t'.entry d = if d = b then some f else t.entry d := by
  refine ⟨t.put b f hb, ?_, rfl, fun d => Function.update_apply ..⟩
  rw [Table.dup2, ha]
  exact dif_pos hb

/-! ### Moves -/

/-- One after the other: a duplicate at its new place, and the old place closed. -/
def Table.moves (t : Table φ) : List (ℤ × ℤ) → Option (Table φ)
  | [] => some t
  | (a, b) :: l => (t.dup2 a b).bind fun t => (t.close a).moves l

def source (l : List (ℤ × ℤ)) (d : ℤ) : Option ℤ := (l.find? fun m => m.2 = d).map Prod.fst

structure Movable (t : Table φ) (l : List (ℤ × ℤ)) : Prop where
  sources : (l.map Prod.fst).Nodup
  targets : (l.map Prod.snd).Nodup
  apart : ∀ m ∈ l, ∀ m' ∈ l, m.1 ≠ m'.2
  opened : ∀ m ∈ l, ∃ f, t.entry m.1 = some f
  inRange : ∀ m ∈ l, 0 ≤ m.2 ∧ m.2 < t.limit

def moved (t : Table φ) (l : List (ℤ × ℤ)) (d : ℤ) : Option φ :=
  match source l d with
  | some a => t.entry a
  | none => if d ∈ l.map Prod.fst then none else t.entry d

theorem source_cons (m : ℤ × ℤ) (l : List (ℤ × ℤ)) (d : ℤ) :
    source (m :: l) d = if m.2 = d then some m.1 else source l d := by
  rw [source, List.find?_cons]
  by_cases h : m.2 = d
  · simp [h]
  · simp [h, source]

theorem source_none {l : List (ℤ × ℤ)} : source l d = none ↔ ∀ m ∈ l, m.2 ≠ d := by
  simp [source]

theorem source_mem {l : List (ℤ × ℤ)} (h : source l d = some a) : (a, d) ∈ l := by
  obtain ⟨m, hm, rfl⟩ := Option.map_eq_some_iff.mp h
  have hd := List.find?_some hm
  have hmem := List.mem_of_find?_eq_some hm
  obtain rfl : m.2 = d := by simpa using hd
  exact hmem

theorem Movable.tail {m : ℤ × ℤ} {l : List (ℤ × ℤ)} (h : Movable t (m :: l))
    (hlimit : t'.limit = t.limit) (hentry : ∀ d, d ≠ m.2 → t'.entry d = t.entry d) :
    Movable (t'.close m.1) l := by
  refine ⟨(List.nodup_cons.mp h.sources).2, (List.nodup_cons.mp h.targets).2,
    fun x hx y hy => h.apart x (List.mem_cons_of_mem _ hx) y (List.mem_cons_of_mem _ hy), ?_, ?_⟩
  · intro x hx
    have hne : x.1 ≠ m.1 := fun heq =>
      (List.nodup_cons.mp h.sources).1 (List.mem_map.mpr ⟨x, hx, heq⟩)
    rw [close_entry, if_neg hne,
      hentry x.1 (h.apart x (List.mem_cons_of_mem _ hx) m List.mem_cons_self)]
    exact h.opened x (List.mem_cons_of_mem _ hx)
  · intro x hx
    rw [close_limit, hlimit]
    exact h.inRange x (List.mem_cons_of_mem _ hx)

/-- The moves one after the other are all moves at once. -/
theorem moves_eq {l : List (ℤ × ℤ)} (h : Movable t l) :
    ∃ t', t.moves l = some t' ∧ t'.limit = t.limit ∧ ∀ d, t'.entry d = moved t l d := by
  induction l generalizing t with
  | nil => exact ⟨t, rfl, rfl, fun d => by simp [moved, source]⟩
  | cons m l ih =>
    obtain ⟨a, b⟩ := m
    obtain ⟨f, hf⟩ := h.opened (a, b) List.mem_cons_self
    obtain ⟨t₁, hdup, hlimit, hentry⟩ := dup2_some hf (h.inRange (a, b) List.mem_cons_self)
    have htail : Movable (t₁.close a) l :=
      h.tail hlimit fun d hd => by rw [hentry, if_neg hd]
    obtain ⟨t₂, hmoves, hlimit₂, hentry₂⟩ := ih htail
    refine ⟨t₂, by rw [Table.moves, hdup]; exact hmoves, hlimit₂.trans hlimit, fun d => ?_⟩
    rw [hentry₂, moved, moved, source_cons]
    have hab : b ≠ a := (h.apart (a, b) List.mem_cons_self (a, b) List.mem_cons_self).symm
    cases hsource : source l d with
    | some a' =>
      have hmem := source_mem hsource
      have hbd : b ≠ d := fun heq =>
        (List.nodup_cons.mp h.targets).1 (List.mem_map.mpr ⟨(a', d), hmem, heq.symm⟩)
      have haa : a' ≠ a := fun heq =>
        (List.nodup_cons.mp h.sources).1 (List.mem_map.mpr ⟨(a', d), hmem, heq⟩)
      have hab' : a' ≠ b := h.apart (a', d) (List.mem_cons_of_mem _ hmem) (a, b) List.mem_cons_self
      simp only [if_neg hbd, close_entry, if_neg haa, hentry, if_neg hab']
    | none =>
      by_cases hbd : b = d
      · subst hbd
        have hnot : b ∉ l.map Prod.fst := fun hmem => by
          obtain ⟨x, hx, heq⟩ := List.mem_map.mp hmem
          exact h.apart x (List.mem_cons_of_mem _ hx) (a, b) List.mem_cons_self heq
        simp only [if_true, if_neg hnot, close_entry, if_neg hab, hentry, hf]
      · have hbd' : d ≠ b := fun heq => hbd heq.symm
        simp only [if_neg hbd, List.map_cons, List.mem_cons, close_entry, hentry, if_neg hbd']
        by_cases hda : d = a
        · simp [hda]
        · rw [if_neg hda]
          exact if_congr (by simp [hda]) rfl rfl

/-- A source that is not open cannot be moved, and no other move opens it. -/
theorem moves_none {l : List (ℤ × ℤ)} (hapart : ∀ m ∈ l, ∀ m' ∈ l, m.1 ≠ m'.2) {m : ℤ × ℤ}
    (hm : m ∈ l) (hclosed : t.entry m.1 = none) : t.moves l = none := by
  induction l generalizing t with
  | nil => exact absurd hm List.not_mem_nil
  | cons x l ih =>
    obtain ⟨a, b⟩ := x
    rw [Table.moves]
    cases hentry : t.entry a with
    | none => rw [Table.dup2, hentry]; rfl
    | some f =>
      rcases List.mem_cons.mp hm with rfl | hm
      · rw [hclosed] at hentry
        cases hentry
      · by_cases hb : 0 ≤ b ∧ b < t.limit
        · obtain ⟨t₁, hdup, -, hentry₁⟩ := dup2_some hentry hb
          rw [hdup, Option.bind_some]
          refine ih (fun x hx y hy =>
            hapart x (List.mem_cons_of_mem _ hx) y (List.mem_cons_of_mem _ hy))
            hm ?_
          have hmb : m.1 ≠ b := hapart m (List.mem_cons_of_mem _ hm) (a, b) List.mem_cons_self
          rw [close_entry, hentry₁, if_neg hmb, hclosed, ite_self]
        · rw [Table.dup2, hentry]
          simp only [dif_neg hb, Option.bind_none]

theorem moved_of_mem {l : List (ℤ × ℤ)} (hl : (l.map Prod.snd).Nodup) (h : (a, b) ∈ l) :
    moved t l b = t.entry a := by
  cases hsource : source l b with
  | none => exact absurd rfl (source_none.mp hsource (a, b) h)
  | some a' =>
    obtain rfl : a' = a :=
      congrArg Prod.fst (List.inj_on_of_nodup_map hl (source_mem hsource) h rfl)
    simp only [moved, hsource]

theorem moved_of_not_mem {l : List (ℤ × ℤ)} (h : d ∉ l.map Prod.snd) :
    moved t l d = if d ∈ l.map Prod.fst then none else t.entry d := by
  have hsource : source l d = none :=
    source_none.mpr fun m hm heq => h (List.mem_map.mpr ⟨m, hm, heq⟩)
  simp only [moved, hsource]

/-- Places between the old ones and the new ones. -/
theorem mem_zip_through {l : List (ℤ × ℤ)} {p : List ℤ} (hp : p.length = l.length) {m : ℤ × ℤ}
    (hm : m ∈ l) :
    ∃ b ∈ p, (m.1, b) ∈ (l.map Prod.fst).zip p ∧ (b, m.2) ∈ p.zip (l.map Prod.snd) := by
  obtain ⟨i, hi, rfl⟩ := List.mem_iff_getElem.mp hm
  have hip : i < p.length := by omega
  refine ⟨p[i], List.getElem_mem hip, ?_, ?_⟩
  · exact List.mem_iff_getElem.mpr ⟨i, by simp; omega, by simp⟩
  · exact List.mem_iff_getElem.mpr ⟨i, by simp; omega, by simp⟩

/-! ### Closing -/

theorem foldl_close_entry (l : List ℤ) :
    (l.foldl Table.close t).entry d = if d ∈ l then none else t.entry d := by
  induction l generalizing t with
  | nil => simp
  | cons a l ih =>
    rw [List.foldl_cons, ih, close_entry]
    by_cases hd : d = a
    · simp [hd]
    · rw [if_neg hd]
      exact if_congr (by simp [hd]) rfl rfl

theorem foldl_close_limit (l : List ℤ) : (l.foldl Table.close t).limit = t.limit := by
  induction l generalizing t with
  | nil => rfl
  | cons a l ih => exact ih

/-! ### Who has what -/

/-- What is open is open at the places given, at each once. -/
structure Table.Holds (t : Table φ) (l : List ℤ) : Prop where
  nodup : l.Nodup
  opened : ∀ d, (t.entry d).isSome = true ↔ d ∈ l

def Table.files (t : Table φ) (l : List ℤ) : List φ := l.filterMap t.entry

section Holds

variable {l m : List ℤ}

@[simp] theorem put_entry (h : 0 ≤ a ∧ a < t.limit) :
    (t.put a f h).entry d = if d = a then some f else t.entry d :=
  Function.update_apply ..

theorem Table.Holds.not_mem (ht : t.Holds l) (ha : t.entry a = none) : a ∉ l := by
  intro hmem
  have hopen := (ht.opened a).mpr hmem
  rw [ha] at hopen
  cases hopen

theorem Table.Holds.put (ht : t.Holds l) (ha : t.entry a = none) (h : 0 ≤ a ∧ a < t.limit) :
    (t.put a f h).Holds (l ++ [a]) where
  nodup := List.nodup_append.mpr ⟨ht.nodup, List.nodup_singleton a, fun x hx y hy hxy => by
    rw [hxy, List.mem_singleton.mp hy] at hx
    exact ht.not_mem ha hx⟩
  opened d := by
    rw [put_entry, List.mem_append, List.mem_singleton, ← ht.opened d]
    by_cases hd : d = a
    · simp [hd]
    · simp [hd]

theorem Table.Holds.close (ht : t.Holds (l ++ a :: m)) : (t.close a).Holds (l ++ m) where
  nodup := (List.nodup_cons.mp (List.nodup_middle.mp ht.nodup)).2
  opened d := by
    have hnot := (List.nodup_cons.mp (List.nodup_middle.mp ht.nodup)).1
    rw [close_entry]
    by_cases hd : d = a
    · simpa [hd] using hnot
    · rw [if_neg hd, ht.opened d]
      simp [hd]

/-- A place that is not open can be closed again. -/
theorem Table.Holds.close_again (ht : t.Holds l) (ha : a ∉ l) : (t.close a).Holds l where
  nodup := ht.nodup
  opened d := by
    rw [close_entry]
    by_cases hd : d = a
    · simpa [hd] using ha
    · rw [if_neg hd, ht.opened d]

theorem Table.Holds.close_all (ht : t.Holds (l ++ m)) : (m.foldl Table.close t).Holds l := by
  obtain ⟨hl, -, hdisjoint⟩ := List.nodup_append.mp ht.nodup
  refine ⟨hl, fun d => ?_⟩
  rw [foldl_close_entry]
  by_cases hd : d ∈ m
  · rw [if_pos hd]
    have hnot : d ∉ l := fun h => hdisjoint d h d hd rfl
    simp [hnot]
  · rw [if_neg hd, ht.opened d, List.mem_append]
    exact or_iff_left hd

/-- A table that is not full has a free place. -/
theorem Table.Holds.exists_free (ht : t.Holds l) (hl : (l.length : ℤ) < t.limit) :
    ∃ d, (0 ≤ d ∧ d < t.limit) ∧ t.entry d = none := by
  by_contra hfull
  have hsubset : (List.range t.limit.toNat).map Int.ofNat ⊆ l := by
    intro d hd
    obtain ⟨k, hk, rfl⟩ := List.mem_map.mp hd
    rw [List.mem_range] at hk
    refine (ht.opened _).mp (Option.isSome_iff_ne_none.mpr fun hnone => hfull ⟨_, ⟨?_, ?_⟩, hnone⟩)
    · exact Int.natCast_nonneg k
    · exact Int.lt_toNat.mp hk
  have hnodup : ((List.range t.limit.toNat).map Int.ofNat).Nodup :=
    List.Nodup.map (fun _ _ h => Int.ofNat.inj h) List.nodup_range
  have hle := (hnodup.subperm hsubset).length_le
  rw [List.length_map, List.length_range] at hle
  omega

theorem files_congr (h : ∀ d ∈ l, t'.entry d = t.entry d) : t'.files l = t.files l :=
  List.filterMap_congr h

theorem files_close (ha : a ∉ l) : (t.close a).files l = t.files l := by
  refine files_congr fun d hd => ?_
  have hne : d ≠ a := fun heq => ha (heq ▸ hd)
  rw [close_entry, if_neg hne]

theorem files_put (h : 0 ≤ a ∧ a < t.limit) (ha : a ∉ l) : (t.put a f h).files l = t.files l := by
  refine files_congr fun d hd => ?_
  have hne : d ≠ a := fun heq => ha (heq ▸ hd)
  rw [put_entry, if_neg hne]

@[simp] theorem files_put_self (h : 0 ≤ a ∧ a < t.limit) : (t.put a f h).files [a] = [f] := by
  simp [Table.files]

theorem files_append (t : Table φ) (l m : List ℤ) : t.files (l ++ m) = t.files l ++ t.files m :=
  List.filterMap_append

end Holds

end DescriptorTables
