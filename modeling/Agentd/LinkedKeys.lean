import Mathlib.Data.List.Chain
import Mathlib.Data.List.Nodup
import Mathlib.Logic.Function.Basic

/-! Doubly linked lists of keys. The links are kept in maps from keys to keys; a list is linked when
every two neighbours point at each other. -/
namespace LinkedKeys

variable {K : Type*} {next prev next' prev' : K → Option K} {l r : List K} {a b p x n : K}

def Linked (next prev : K → Option K) (l : List K) : Prop :=
  l.IsChain fun a b => next a = some b ∧ prev b = some a

namespace Linked

theorem neighbours (h : Linked next prev (l ++ a :: b :: r)) :
    next a = some b ∧ prev b = some a :=
  (List.isChain_append_cons_cons.mp h).2.1

theorem congr (h : Linked next prev l) (hn : ∀ a ∈ l, next' a = next a)
    (hp : ∀ b ∈ l, prev' b = prev b) : Linked next' prev' l := by
  apply List.IsChain.imp_of_mem_imp _ h
  intro a b ha hb hab
  rw [hn a ha, hp b hb]
  exact hab

/-- What holds for the first key and goes on along the links holds for all keys. -/
theorem forall_mem {P : K → Prop} (h : Linked next prev (a :: l)) (ha : P a)
    (hstep : ∀ x y, P x → next x = some y → P y) : ∀ k ∈ a :: l, P k := by
  induction l generalizing a with
  | nil =>
    intro k hk
    rw [List.mem_singleton.mp hk]
    exact ha
  | cons b l ih =>
    obtain ⟨⟨hab, -⟩, htail⟩ := List.isChain_cons_cons.mp h
    intro k hk
    rcases List.mem_cons.mp hk with rfl | hk
    · exact ha
    · exact ih htail (hstep a b ha hab) k hk

/-- The last key of a linked list may point anywhere. -/
theorem congr_concat (h : Linked next prev (l ++ [p])) (hn : ∀ a ∈ l, next' a = next a)
    (hp : ∀ b ∈ l ++ [p], prev' b = prev b) : Linked next' prev' (l ++ [p]) := by
  induction l with
  | nil => exact List.IsChain.singleton p
  | cons a l ih =>
    have htail : Linked next' prev' (l ++ [p]) := by
      apply ih (List.IsChain.of_cons h)
      · intro c hc
        exact hn c (List.mem_cons_of_mem a hc)
      · intro c hc
        exact hp c (List.mem_cons_of_mem a hc)
    cases l with
    | nil =>
      obtain ⟨hab, -⟩ := List.isChain_cons_cons.mp h
      refine List.IsChain.cons_cons ?_ htail
      rw [hn a (by simp), hp p (by simp)]
      exact hab
    | cons c l =>
      obtain ⟨hab, -⟩ := List.isChain_cons_cons.mp h
      refine List.IsChain.cons_cons ?_ htail
      rw [hn a (by simp), hp c (by simp)]
      exact hab

/-- The first key of a linked list may be pointed at from anywhere. -/
theorem congr_cons (h : Linked next prev (n :: r)) (hn : ∀ a ∈ n :: r, next' a = next a)
    (hp : ∀ b ∈ r, prev' b = prev b) : Linked next' prev' (n :: r) := by
  apply List.IsChain.imp_of_mem_tail_imp _ h
  intro a b ha hb hab
  rw [hn a ha, hp b hb]
  exact hab

/-- Linking a new key `x` between two neighbours. -/
theorem insert (h : Linked next prev (l ++ p :: n :: r))
    (hnext : ∀ a ∈ l ++ n :: r, next' a = next a) (hprev : ∀ b ∈ l ++ p :: r, prev' b = prev b)
    (hpx : next' p = some x ∧ prev' x = some p) (hxn : next' x = some n ∧ prev' n = some x) :
    Linked next' prev' (l ++ p :: x :: n :: r) := by
  obtain ⟨hl, -, hr⟩ := List.isChain_append_cons_cons.mp h
  refine List.isChain_append_cons_cons.mpr ⟨?_, hpx, List.IsChain.cons_cons hxn ?_⟩
  · apply congr_concat hl
    · intro a ha
      exact hnext a (by simp [ha])
    · intro b hb
      rcases List.mem_append.mp hb with hb | hb
      · exact hprev b (by simp [hb])
      · exact hprev b (by simp_all)
  · apply congr_cons hr
    · intro a ha
      exact hnext a (List.mem_append_right l ha)
    · intro b hb
      exact hprev b (by simp [hb])

/-- Unlinking a key `x` from its neighbours. -/
theorem remove (h : Linked next prev (l ++ p :: x :: n :: r))
    (hnext : ∀ a ∈ l ++ n :: r, next' a = next a) (hprev : ∀ b ∈ l ++ p :: r, prev' b = prev b)
    (hpn : next' p = some n ∧ prev' n = some p) : Linked next' prev' (l ++ p :: n :: r) := by
  obtain ⟨hl, -, hr⟩ := List.isChain_append_cons_cons.mp h
  refine List.isChain_append_cons_cons.mpr ⟨?_, hpn, ?_⟩
  · apply congr_concat hl
    · intro a ha
      exact hnext a (by simp [ha])
    · intro b hb
      rcases List.mem_append.mp hb with hb | hb
      · exact hprev b (by simp [hb])
      · exact hprev b (by simp_all)
  · apply congr_cons (List.IsChain.of_cons hr)
    · intro a ha
      exact hnext a (List.mem_append_right l ha)
    · intro b hb
      exact hprev b (by simp [hb])

/-- The links determine a list by its first key and its length. -/
theorem eq_of_length (h : Linked next prev (a :: l)) (h' : Linked next prev (a :: r))
    (hlen : l.length = r.length) : l = r := by
  induction l generalizing a r with
  | nil => exact (List.eq_nil_of_length_eq_zero hlen.symm).symm
  | cons b l ih =>
    cases r with
    | nil => cases hlen
    | cons c r =>
      obtain ⟨⟨hb, -⟩, htail⟩ := List.isChain_cons_cons.mp h
      obtain ⟨⟨hc, -⟩, htail'⟩ := List.isChain_cons_cons.mp h'
      obtain rfl : b = c := Option.some.inj (hb.symm.trans hc)
      rw [ih htail htail' (Nat.succ.inj hlen)]

end Linked

/-- An inner element of a list between its two neighbours. -/
theorem exists_neighbours {α : Type*} (s e : α) (l₁ l₂ : List α) (y : α) :
    ∃ l p n r, s :: l₁ ++ y :: (l₂ ++ [e]) = l ++ p :: y :: n :: r ∧
      s :: l₁ = l ++ [p] ∧ l₂ ++ [e] = n :: r := by
  obtain ⟨l, p, hl⟩ := (List.eq_nil_or_concat (s :: l₁)).resolve_left (by simp)
  rw [List.concat_eq_append] at hl
  have hr : ∃ n r, l₂ ++ [e] = n :: r := by
    cases l₂ with
    | nil => exact ⟨e, [], rfl⟩
    | cons n l₂ => exact ⟨n, l₂ ++ [e], rfl⟩
  obtain ⟨n, r, hr⟩ := hr
  refine ⟨l, p, n, r, ?_, hl, hr⟩
  rw [hl, hr]
  simp

/-! ### Lists threaded through a map -/

/-- `l` is the list that starts at `head` and continues along `next`. -/
def Threaded (next : K → Option K) : Option K → List K → Prop
  | head, [] => head = none
  | head, a :: l => head = some a ∧ Threaded next (next a) l

theorem Threaded.congr {head : Option K} (h : Threaded next head l)
    (hn : ∀ a ∈ l, next' a = next a) : Threaded next' head l := by
  induction l generalizing head with
  | nil => exact h
  | cons a l ih =>
    obtain ⟨hhead, htail⟩ := h
    refine ⟨hhead, ?_⟩
    rw [hn a (by simp)]
    exact ih htail fun b hb => hn b (List.mem_cons_of_mem a hb)

/-! ### Keys by position -/

section Positions

variable {α K : Type*} {key : α → K} {base top : K} {l : List α} {a b : α} {j : ℕ}

/-- The key at a position of a list that grows at its end: `base` below the first element, `top`
above the last. -/
def keyAt (key : α → K) (base top : K) (l : List α) : ℕ → K
  | 0 => base
  | j + 1 => (l[j]?.map key).getD top

theorem keyAt_succ (h : l[j]? = some a) : keyAt key base top l (j + 1) = key a := by
  simp [keyAt, h]

theorem keyAt_above (h : l.length < j) : keyAt key base top l j = top := by
  cases j with
  | zero => omega
  | succ j =>
    have hle : l.length ≤ j := by omega
    simp [keyAt, List.getElem?_eq_none hle]

theorem keyAt_append (h : j ≤ l.length) :
    keyAt key base top (l ++ [b]) j = keyAt key base top l j := by
  cases j with
  | zero => rfl
  | succ j =>
    have hlt : j < l.length := h
    simp [keyAt, List.getElem?_append_left hlt]

theorem keyAt_append_last : keyAt key base top (l ++ [b]) (l.length + 1) = key b := by
  simp [keyAt]

theorem getElem?_snoc (h : (l ++ [b])[j]? = some a) :
    (j < l.length ∧ l[j]? = some a) ∨ (j = l.length ∧ a = b) := by
  by_cases hlt : j < l.length
  · rw [List.getElem?_append_left hlt] at h
    exact Or.inl ⟨hlt, h⟩
  · rw [List.getElem?_append_right (not_lt.mp hlt)] at h
    cases hd : j - l.length with
    | zero =>
      rw [hd] at h
      exact Or.inr ⟨by omega, (Option.some.inj h).symm⟩
    | succ n =>
      rw [hd] at h
      cases h

theorem exists_last (key : α → K) (base top : K) (hne : l ≠ []) :
    ∃ j a, j + 1 = l.length ∧ l[j]? = some a ∧ keyAt key base top l l.length = key a := by
  have hpos : 0 < l.length := List.length_pos_iff.mpr hne
  have hlt : l.length - 1 < l.length := by omega
  have hlast : l[l.length - 1]? = some l[l.length - 1] := List.getElem?_eq_getElem hlt
  have hsucc : l.length - 1 + 1 = l.length := by omega
  refine ⟨l.length - 1, l[l.length - 1], hsucc, hlast, ?_⟩
  have hat : keyAt key base top l (l.length - 1 + 1) = key l[l.length - 1] := keyAt_succ hlast
  rw [hsucc] at hat
  exact hat

/-- Distinct keys tell the positions apart. -/
theorem position_unique (hnd : (l.map key).Nodup) {n : ℕ} (ha : l[j]? = some a)
    (hb : l[n]? = some b) (hkey : key a = key b) : j = n := by
  have ha' : (l.map key)[j]? = some (key a) := by simp [ha]
  have hb' : (l.map key)[n]? = some (key a) := by simp [hb, hkey]
  have hlt : j < (l.map key).length := (List.getElem?_eq_some_iff.mp ha').1
  exact (List.getElem?_inj hlt hnd).mp (ha'.trans hb'.symm)

/-- The elements read one after the other along their next keys, up to the one whose next key is
`top`; the fuel bounds the number of reads. -/
def walk {β : Type*} [DecidableEq K] (get : K → Option β) (next : β → K) (top : K) :
    ℕ → K → List β
  | 0, _ => []
  | fuel + 1, k => match get k with
    | none => []
    | some x => x :: if next x = top then [] else walk get next top fuel (next x)

/-- A store of linked elements is walked from any of them to the end. -/
theorem map_walk_eq_drop {β γ : Type*} [DecidableEq K] {get : K → Option β} {next : β → K}
    {g : β → γ} {f : α → γ} (base : K) (hget : ∀ j a, l[j]? = some a →
      ∃ x, get (key a) = some x ∧ next x = keyAt key base top l (j + 2) ∧ g x = f a)
    (htop : ∀ a ∈ l, key a ≠ top) {fuel : ℕ} (ha : l[j]? = some a)
    (hfuel : l.length ≤ j + fuel) :
    (walk get next top fuel (key a)).map g = (l.drop j).map f := by
  induction fuel generalizing j a with
  | zero =>
    have hlt := (List.getElem?_eq_some_iff.mp ha).1
    omega
  | succ fuel ih =>
    obtain ⟨hlt, ha'⟩ := List.getElem?_eq_some_iff.mp ha
    obtain ⟨x, hx, hnext, hg⟩ := hget j a ha
    rw [walk, hx, List.drop_eq_getElem_cons hlt, ha']
    simp only [List.map_cons, hg, hnext]
    congr 1
    by_cases hlast : j + 1 < l.length
    · have hsucc := List.getElem?_eq_getElem hlast
      have hat : keyAt key base top l (j + 2) = key l[j + 1] := keyAt_succ hsucc
      rw [hat, if_neg (htop _ (List.getElem_mem hlast))]
      exact ih hsucc (by omega)
    · rw [keyAt_above (by omega), if_pos rfl, List.drop_of_length_le (by omega)]
      rfl

end Positions

end LinkedKeys
