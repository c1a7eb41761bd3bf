import Mathlib.Algebra.BigOperators.Group.List.Basic
import Mathlib.Algebra.GroupWithZero.Nat
import Mathlib.Logic.Function.Basic

/-! # Streams by position

A stream masks the elements of a list by where they stand in it, in one piece or in several that
follow one another. Another one is handed out in portions, each from where the last one ended:
together they are one portion, and no element is in two of them. -/
namespace IndexedStreams

/-! ### Masks -/

section Masks

variable {α : Type*} {mask : ℕ → α → α}

/-- The elements of a list that stand in the stream from position `n` on. -/
def applyFrom (mask : ℕ → α → α) : ℕ → List α → List α
  | _, [] => []
  | n, a :: l => mask n a :: applyFrom mask (n + 1) l

@[simp] theorem length_applyFrom (n : ℕ) (l : List α) : (applyFrom mask n l).length = l.length := by
  induction l generalizing n with
  | nil => rfl
  | cons a l ih => rw [applyFrom, List.length_cons, List.length_cons, ih]

/-- The second piece goes on where the first one ends. -/
theorem applyFrom_append (n : ℕ) (l r : List α) :
    applyFrom mask n (l ++ r) = applyFrom mask n l ++ applyFrom mask (n + l.length) r := by
  induction l generalizing n with
  | nil => rfl
  | cons a l ih =>
    have hnext : n + 1 + l.length = n + (a :: l).length := by
      rw [List.length_cons]
      omega
    rw [List.cons_append, applyFrom, applyFrom, ih, hnext, List.cons_append]

/-- Applied twice from the same position the stream gives the list back. -/
theorem applyFrom_applyFrom (h : ∀ i, Function.Involutive (mask i)) (n : ℕ) (l : List α) :
    applyFrom mask n (applyFrom mask n l) = l := by
  induction l generalizing n with
  | nil => rfl
  | cons a l ih => rw [applyFrom, applyFrom, ih, h n a]

end Masks

/-! ### Portions -/

section Portions

variable {α : Type*} (stream : ℕ → α)

def portion (start size : ℕ) : List α := (List.range size).map fun i => stream (start + i)

def portions (start : ℕ) : List ℕ → List (List α)
  | [] => []
  | size :: sizes => portion stream start size :: portions (start + size) sizes

variable {stream} {start i j : ℕ} {sizes : List ℕ}

@[simp] theorem length_portion (start size : ℕ) : (portion stream start size).length = size := by
  simp [portion]

theorem portion_add (start m n : ℕ) :
    portion stream start (m + n) = portion stream start m ++ portion stream (start + m) n := by
  simp only [portion, List.range_add, List.map_append, List.map_map]
  refine congrArg _ (List.map_congr_left fun i _ => ?_)
  rw [Function.comp_apply, Nat.add_assoc]

/-- A part of a portion is a portion. -/
theorem take_drop_portion {k m n : ℕ} (h : k + m ≤ n) :
    ((portion stream start n).drop k).take m = portion stream (start + k) m := by
  obtain ⟨l, rfl⟩ := Nat.exists_eq_add_of_le h
  rw [portion_add, portion_add, List.append_assoc, List.drop_append_of_le_length (by simp),
    List.drop_of_length_le (by simp), List.nil_append, List.take_append_of_le_length (by simp),
    List.take_of_length_le (by simp)]

@[simp] theorem length_portions (start : ℕ) (sizes : List ℕ) :
    (portions stream start sizes).length = sizes.length := by
  induction sizes generalizing start with
  | nil => rfl
  | cons size sizes ih => rw [portions, List.length_cons, List.length_cons, ih]

theorem portions_concat (start size : ℕ) (sizes : List ℕ) :
    portions stream start (sizes ++ [size]) =
      portions stream start sizes ++ [portion stream (start + sizes.sum) size] := by
  induction sizes generalizing start with
  | nil => rfl
  | cons first sizes ih =>
    rw [List.cons_append, portions, portions, ih, List.sum_cons, List.cons_append, Nat.add_assoc]

/-- Where a portion starts is what was handed out before it. -/
theorem getElem?_portions (start : ℕ) (sizes : List ℕ) (i : ℕ) :
    (portions stream start sizes)[i]? =
      sizes[i]?.map (portion stream (start + (sizes.take i).sum)) := by
  induction sizes generalizing start i with
  | nil => simp [portions]
  | cons size sizes ih =>
    cases i with
    | zero => simp [portions]
    | succ i =>
      rw [portions, List.getElem?_cons_succ, List.getElem?_cons_succ, ih, List.take_succ_cons,
        List.sum_cons, Nat.add_assoc]

/-- A portion ends before a later one starts. -/
theorem end_le_start (hij : i < j) {size : ℕ} (hi : sizes[i]? = some size) :
    (sizes.take i).sum + size ≤ (sizes.take j).sum := by
  obtain ⟨hlt, rfl⟩ := List.getElem?_eq_some_iff.mp hi
  have hnext : (sizes.take (i + 1)).sum = (sizes.take i).sum + sizes[i] := by
    rw [List.take_succ_eq_append_getElem hlt, List.sum_append, List.sum_singleton]
  have hprefix : sizes.take (i + 1) <+: sizes.take j := List.take_prefix_take_left hij
  obtain ⟨rest, hrest⟩ := hprefix
  rw [← hnext, ← hrest, List.sum_append]
  exact Nat.le_add_right ..

end Portions

end IndexedStreams
