import Mathlib.Data.List.Basic

/-! Parsing a stream that arrives in pieces. `next` takes one item off the front of a buffer, or
nothing as long as the item there is not complete. -/
namespace IncrementalParsing

variable {α β : Type} {next : List α → Option (β × List α)} {b c r : List α} {p : β}

/-- An item takes up room, and what follows it does not change it. -/
structure Incremental (next : List α → Option (β × List α)) : Prop where
  shrinks : ∀ {b p r}, next b = some (p, r) → r.length < b.length
  stable : ∀ {b p r} (c), next b = some (p, r) → next (b ++ c) = some (p, r ++ c)

def drain (next : List α → Option (β × List α)) : ℕ → List α → List β × List α
  | 0, b => ([], b)
  | n + 1, b =>
    match next b with
    | none => ([], b)
    | some (p, r) => (p :: (drain next n r).1, (drain next n r).2)

def parse (next : List α → Option (β × List α)) (b : List α) : List β × List α :=
  drain next b.length b

theorem drain_eq_parse (h : Incremental next) {n : ℕ} (hn : b.length ≤ n) :
    drain next n b = parse next b := by
  induction n using Nat.strongRecOn generalizing b with
  | ind n ih =>
    unfold parse
    cases hnext : next b with
    | none => cases n <;> cases b <;> simp [drain, hnext]
    | some item =>
      obtain ⟨p, r⟩ := item
      have hlt := h.shrinks hnext
      obtain ⟨m, rfl⟩ : ∃ m, n = m + 1 := ⟨n - 1, by omega⟩
      obtain ⟨k, hk⟩ : ∃ k, b.length = k + 1 := ⟨b.length - 1, by omega⟩
      have hm : drain next m r = parse next r := ih m (by omega) (by omega)
      have hkr : drain next k r = parse next r := by
        by_cases hkm : k = m
        · rw [hkm, hm]
        · exact ih k (by omega) (by omega)
      rw [hk]
      simp only [drain, hnext, hm, hkr]

theorem parse_none (h : next b = none) : parse next b = ([], b) := by
  unfold parse
  cases b with
  | nil => rfl
  | cons a b => simp [drain, h]

theorem parse_some (h : Incremental next) (hb : next b = some (p, r)) :
    parse next b = (p :: (parse next r).1, (parse next r).2) := by
  have hlt := h.shrinks hb
  obtain ⟨k, hk⟩ : ∃ k, b.length = k + 1 := ⟨b.length - 1, by omega⟩
  have hkr : drain next k r = parse next r := drain_eq_parse h (by omega)
  rw [parse, hk]
  simp only [drain, hb, hkr]

/-- What is left holds no complete item. -/
theorem next_parse (h : Incremental next) (b : List α) : next (parse next b).2 = none := by
  induction hb : b.length using Nat.strongRecOn generalizing b with
  | ind n ih =>
    cases hnext : next b with
    | none =>
      rw [parse_none hnext]
      exact hnext
    | some item =>
      obtain ⟨p, r⟩ := item
      have hlt := h.shrinks hnext
      rw [parse_some h hnext]
      exact ih r.length (by omega) r rfl

end IncrementalParsing
