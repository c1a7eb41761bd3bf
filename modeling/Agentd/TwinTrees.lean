import Mathlib.Logic.Function.Basic
import Mathlib.Data.Option.Basic

/-! # Two trees over the same entries

A tree finds an entry by a key of its own. Two trees are twins when each holds the entries of the
other, so that a key of the one and a key of the other belong together. -/
namespace TwinTrees

variable {ν κ κ' : Type} {key : ν → κ} {key' : ν → κ'} {tree : κ → Option ν}
  {tree' : κ' → Option ν}

structure Twin (key : ν → κ) (key' : ν → κ') (tree : κ → Option ν) (tree' : κ' → Option ν) :
    Prop where
  left : ∀ {a e}, tree a = some e → key e = a ∧ tree' (key' e) = some e
  right : ∀ {c e}, tree' c = some e → key' e = c ∧ tree (key e) = some e

theorem Twin.empty : Twin key key' (fun _ => none) (fun _ => none) := by
  constructor
  · intro a e h
    cases h
  · intro c e h
    cases h

theorem Twin.symm (h : Twin key key' tree tree') : Twin key' key tree' tree := ⟨h.right, h.left⟩

theorem Twin.same_entries (h : Twin key key' tree tree') (e : ν) :
    (∃ a, tree a = some e) ↔ ∃ c, tree' c = some e := by
  constructor
  · rintro ⟨a, ha⟩
    exact ⟨key' e, (h.left ha).2⟩
  · rintro ⟨c, hc⟩
    exact ⟨key e, (h.right hc).2⟩

theorem Twin.inverse (h : Twin key key' tree tree') (a : κ) (c : κ') :
    (∃ e, tree a = some e ∧ key' e = c) ↔ ∃ e, tree' c = some e ∧ key e = a := by
  constructor
  · rintro ⟨e, he, rfl⟩
    exact ⟨e, (h.left he).2, (h.left he).1⟩
  · rintro ⟨e, he, rfl⟩
    exact ⟨e, (h.right he).2, (h.right he).1⟩

theorem Twin.eq_of_key (h : Twin key key' tree tree') {a b : κ} {e d : ν} (he : tree a = some e)
    (hd : tree b = some d) (hkey : key' e = key' d) : e = d := by
  have hfound := (h.left he).2
  rw [hkey, (h.left hd).2] at hfound
  exact (Option.some.inj hfound).symm

section Updates

variable [DecidableEq κ] [DecidableEq κ']

theorem Twin.left_insert (h : Twin key key' tree tree') {e d : ν} {a : κ}
    (hfree' : tree' (key' e) = none) (hd : Function.update tree (key e) (some e) a = some d) :
    key d = a ∧ Function.update tree' (key' e) (some e) (key' d) = some d := by
  by_cases ha : a = key e
  · subst ha
    rw [Function.update_self] at hd
    cases hd
    exact ⟨rfl, Function.update_self ..⟩
  · rw [Function.update_of_ne ha] at hd
    obtain ⟨hkey, hd'⟩ := h.left hd
    have hne : key' d ≠ key' e := by
      intro heq
      rw [heq, hfree'] at hd'
      cases hd'
    refine ⟨hkey, ?_⟩
    rw [Function.update_of_ne hne, hd']

theorem Twin.insert (h : Twin key key' tree tree') {e : ν} (hfree : tree (key e) = none)
    (hfree' : tree' (key' e) = none) :
    Twin key key' (Function.update tree (key e) (some e))
      (Function.update tree' (key' e) (some e)) :=
  ⟨h.left_insert hfree', h.symm.left_insert hfree⟩

theorem Twin.left_delete (h : Twin key key' tree tree') {e d : ν} {a : κ}
    (he : tree (key e) = some e) (hd : Function.update tree (key e) none a = some d) :
    key d = a ∧ Function.update tree' (key' e) none (key' d) = some d := by
  by_cases ha : a = key e
  · subst ha
    rw [Function.update_self] at hd
    cases hd
  · rw [Function.update_of_ne ha] at hd
    obtain ⟨hkey, hd'⟩ := h.left hd
    have hne : key' d ≠ key' e := by
      intro heq
      apply ha
      rw [← hkey, h.eq_of_key hd he heq]
    refine ⟨hkey, ?_⟩
    rw [Function.update_of_ne hne, hd']

theorem Twin.delete (h : Twin key key' tree tree') {e : ν} (he : tree (key e) = some e) :
    Twin key key' (Function.update tree (key e) none) (Function.update tree' (key' e) none) :=
  ⟨h.left_delete he, h.symm.left_delete (h.left he).2⟩

end Updates

end TwinTrees
