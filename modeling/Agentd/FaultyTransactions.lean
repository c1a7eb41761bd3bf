import Mathlib.Logic.Function.Basic
import Mathlib.Data.List.Basic

/-! Programs over a transactional store whose outside calls may fail.

A fault pattern says for each kind of call and each position in the run whether that call
fails. Programs stop early with an error or with undefined behaviour and keep the state they
reached, so that cleanup code can run on it. Transactions nest as a stack of private copies. -/
namespace FaultyTransactions

inductive Stop (ε : Type) where
  | fail (e : ε)
  | undefined
  deriving DecidableEq, Repr

inductive Result (ε S α : Type) where
  | ok (a : α) (s : S)
  | stop (e : Stop ε) (s : S)

/-- `f c n` is true when the call of kind `c` made at position `n` fails. -/
abbrev Faults (κ : Type) := κ → ℕ → Bool

structure Prog (κ ε S α : Type) where
  run : Faults κ → S → Result ε S α

/-- Bookkeeping of one run: the number of outside calls made and a log of events. -/
structure Meter (τ : Type) where
  tick : ℕ
  trace : List τ

/-- The inside of an open transaction: its private copy of the store. -/
structure Tx (σ τ : Type) where
  view : σ
  meter : Meter τ

/-- The committed store, the stack of open transactions, innermost first, and whether the
disk refuses a commit. -/
structure Session (σ τ : Type) where
  disk : σ
  txns : List σ
  meter : Meter τ
  commitFails : Bool

class Metered (S : Type) (τ : outParam Type) where
  meter : S → Meter τ
  withMeter : S → Meter τ → S

variable {κ ε S α β σ τ : Type}

instance : Metered (Tx σ τ) τ := ⟨Tx.meter, fun s m => { s with meter := m }⟩

instance : Metered (Session σ τ) τ := ⟨Session.meter, fun s m => { s with meter := m }⟩

namespace Prog

instance : Monad (Prog κ ε S) where
  pure a := ⟨fun _ s => .ok a s⟩
  bind x g := ⟨fun f s =>
    match x.run f s with
    | .ok a t => (g a).run f t
    | .stop e t => .stop e t⟩

@[simp] theorem run_pure (a : α) (f : Faults κ) (s : S) :
    (pure a : Prog κ ε S α).run f s = .ok a s := rfl

theorem run_bind (x : Prog κ ε S α) (g : α → Prog κ ε S β) (f : Faults κ) (s : S) :
    (x >>= g).run f s = match x.run f s with
      | .ok a t => (g a).run f t
      | .stop e t => .stop e t := rfl

theorem run_bind_ok {x : Prog κ ε S α} (g : α → Prog κ ε S β) {f : Faults κ} {s t : S} {a : α}
    (h : x.run f s = .ok a t) : (x >>= g).run f s = (g a).run f t := by
  simp only [run_bind, h]

theorem run_bind_stop {x : Prog κ ε S α} (g : α → Prog κ ε S β) {f : Faults κ} {s t : S}
    {e : Stop ε} (h : x.run f s = .stop e t) : (x >>= g).run f s = .stop e t := by
  simp only [run_bind, h]

theorem bind_eq_ok {x : Prog κ ε S α} {g : α → Prog κ ε S β} {f : Faults κ} {s u : S} {b : β} :
    (x >>= g).run f s = .ok b u ↔
      ∃ a t, x.run f s = .ok a t ∧ (g a).run f t = .ok b u := by
  constructor
  · intro h
    cases hx : x.run f s with
    | ok a t => exact ⟨a, t, rfl, by rwa [run_bind_ok g hx] at h⟩
    | stop e t =>
      rw [run_bind_stop g hx] at h
      cases h
  · rintro ⟨a, t, hx, hg⟩
    rw [run_bind_ok g hx, hg]

def fail (e : ε) : Prog κ ε S α := ⟨fun _ s => .stop (.fail e) s⟩

/-- What C leaves undefined: reading past a buffer, using a handle that was ended. -/
def undefined : Prog κ ε S α := ⟨fun _ s => .stop .undefined s⟩

/-- A check: the program goes on unless `p` holds. -/
def reject (p : Prop) [Decidable p] (e : ε) : Prog κ ε S Unit := if p then fail e else pure ()

/-- A memory access: the program goes on when `p` holds. -/
def inBounds (p : Prop) [Decidable p] : Prog κ ε S Unit := if p then pure () else undefined

@[simp] theorem fail_ne_ok {e : ε} {f : Faults κ} {s u : S} {a : α} :
    (fail e : Prog κ ε S α).run f s ≠ .ok a u := by
  intro h
  cases h

@[simp] theorem undefined_ne_ok {f : Faults κ} {s u : S} {a : α} :
    (undefined : Prog κ ε S α).run f s ≠ .ok a u := by
  intro h
  cases h

/-- Runs `cleanup` when `x` stops with an error, then stops with the same error. -/
def onFail (x : Prog κ ε S α) (cleanup : Prog κ ε S Unit) : Prog κ ε S α :=
  ⟨fun f s =>
    match x.run f s with
    | .ok a t => .ok a t
    | .stop .undefined t => .stop .undefined t
    | .stop (.fail e) t =>
      match cleanup.run f t with
      | .ok _ u => .stop (.fail e) u
      | .stop e' u => .stop e' u⟩

/-- Runs `cleanup` on both exits of `x`. -/
def finally' (x : Prog κ ε S α) (cleanup : Prog κ ε S Unit) : Prog κ ε S α := do
  let a ← x.onFail cleanup
  cleanup
  pure a

section Meter

variable [Metered S τ]

/-- Makes an outside call; true when it works. -/
def attempt (c : κ) : Prog κ ε S Bool :=
  ⟨fun f s => .ok (!f c (Metered.meter s).tick)
    (Metered.withMeter s ⟨(Metered.meter s).tick + 1, (Metered.meter s).trace⟩)⟩

def note (e : τ) : Prog κ ε S Unit :=
  ⟨fun _ s => .ok ()
    (Metered.withMeter s ⟨(Metered.meter s).tick, (Metered.meter s).trace ++ [e]⟩)⟩

def require (c : κ) (e : ε) : Prog κ ε S Unit := do
  if ← attempt c then pure () else fail e

end Meter

end Prog

/-! ### Errors -/

def Result.error : Result ε S α → Option (Stop ε)
  | .ok _ _ => none
  | .stop e _ => some e

def Never (x : Prog κ ε S α) (e : ε) : Prop := ∀ f s, (x.run f s).error ≠ some (.fail e)

namespace Never

variable {x : Prog κ ε S α} {g : α → Prog κ ε S β} {e e' : ε}

theorem pure (a : α) (e : ε) : Never (Pure.pure a : Prog κ ε S α) e := by
  intro f s h
  cases h

theorem fail (hne : e' ≠ e) : Never (Prog.fail e' : Prog κ ε S α) e := by
  intro f s h
  cases h
  exact hne rfl

theorem bind (hx : Never x e) (hg : ∀ a, Never (g a) e) : Never (x >>= g) e := by
  intro f s h
  cases hrun : x.run f s with
  | ok a t =>
    rw [Prog.run_bind_ok g hrun] at h
    exact hg a f t h
  | stop e' t =>
    rw [Prog.run_bind_stop g hrun] at h
    apply hx f s
    rw [hrun]
    exact h

theorem reject (p : Prop) [Decidable p] (hne : e' ≠ e) :
    Never (Prog.reject p e' : Prog κ ε S Unit) e := by
  unfold Prog.reject
  by_cases hp : p
  · rw [if_pos hp]
    exact fail hne
  · rw [if_neg hp]
    exact pure () e

theorem attempt [Metered S τ] (c : κ) : Never (Prog.attempt c : Prog κ ε S Bool) e := by
  intro f s h
  cases h

theorem require [Metered S τ] (c : κ) (hne : e' ≠ e) :
    Never (Prog.require c e' : Prog κ ε S Unit) e := by
  apply (attempt c).bind
  intro r
  cases r with
  | true => exact pure () e
  | false => exact fail hne

end Never

/-! ### Programs inside one transaction

A program on `Tx` sees only the private copy, so nothing it does reaches the committed store
or an outer transaction before a commit. -/

/-- From the private copy `v` and any meter, `x` ends well with `a` and the copy `w`. -/
def Yields (x : Prog κ ε (Tx σ τ) α) (f : Faults κ) (v : σ) (a : α) (w : σ) : Prop :=
  ∀ m, ∃ m', x.run f ⟨v, m⟩ = .ok a ⟨w, m'⟩

namespace Yields

variable {x : Prog κ ε (Tx σ τ) α} {g : α → Prog κ ε (Tx σ τ) β} {f : Faults κ} {u v w : σ}
  {a : α} {b : β} {e : ε}

theorem pure (a : α) (f : Faults κ) (v : σ) :
    Yields (Pure.pure a : Prog κ ε (Tx σ τ) α) f v a v := fun m => ⟨m, rfl⟩

theorem bind (hx : Yields x f v a w) (hg : Yields (g a) f w b u) :
    Yields (x >>= g) f v b u := by
  intro m
  obtain ⟨m', h⟩ := hx m
  obtain ⟨m'', h'⟩ := hg m'
  exact ⟨m'', by rw [Prog.run_bind_ok g h, h']⟩

theorem attempt {c : κ} (hc : ∀ n, f c n = false) (v : σ) :
    Yields (Prog.attempt c : Prog κ ε (Tx σ τ) Bool) f v true v :=
  fun m => ⟨⟨m.tick + 1, m.trace⟩, by simp [Prog.attempt, Metered.meter, Metered.withMeter, hc]⟩

theorem require {c : κ} (hc : ∀ n, f c n = false) (e : ε) (v : σ) :
    Yields (Prog.require c e : Prog κ ε (Tx σ τ) Unit) f v () v :=
  (Yields.attempt hc v).bind (Yields.pure () f v)

theorem reject {p : Prop} [Decidable p] (hp : ¬ p) (e : ε) (f : Faults κ) (v : σ) :
    Yields (Prog.reject p e : Prog κ ε (Tx σ τ) Unit) f v () v := by
  unfold Prog.reject
  rw [if_neg hp]
  exact Yields.pure () f v

theorem inBounds {p : Prop} [Decidable p] (hp : p) (f : Faults κ) (v : σ) :
    Yields (Prog.inBounds p : Prog κ ε (Tx σ τ) Unit) f v () v := by
  unfold Prog.inBounds
  rw [if_pos hp]
  exact Yields.pure () f v

theorem note (e : τ) (f : Faults κ) (v : σ) :
    Yields (Prog.note e : Prog κ ε (Tx σ τ) Unit) f v () v := fun _ => ⟨_, rfl⟩

theorem finally' {cleanup : Prog κ ε (Tx σ τ) Unit} (hx : Yields x f v a w)
    (hc : Yields cleanup f w () u) : Yields (x.finally' cleanup) f v a u := by
  intro m
  obtain ⟨m', h⟩ := hx m
  obtain ⟨m'', h'⟩ := hc m'
  refine ⟨m'', ?_⟩
  simp [Prog.finally', Prog.run_bind, Prog.onFail, h, h']

end Yields

/-- Some run of `x` on the private copy `v` ends well with `a` and the copy `w`. -/
def Ends (x : Prog κ ε (Tx σ τ) α) (f : Faults κ) (v : σ) (a : α) (w : σ) : Prop :=
  ∃ m m', x.run f ⟨v, m⟩ = .ok a ⟨w, m'⟩

namespace Ends

variable {x : Prog κ ε (Tx σ τ) α} {g : α → Prog κ ε (Tx σ τ) β} {f : Faults κ} {u v w : σ}
  {a : α} {b : β} {e : ε}

theorem of_bind (h : Ends (x >>= g) f v b u) : ∃ a w, Ends x f v a w ∧ Ends (g a) f w b u := by
  obtain ⟨m, m', h⟩ := h
  obtain ⟨a, ⟨w, n⟩, hx, hg⟩ := Prog.bind_eq_ok.mp h
  exact ⟨a, w, ⟨m, n, hx⟩, ⟨n, m', hg⟩⟩

theorem of_pure {a' : α} (h : Ends (Pure.pure a : Prog κ ε (Tx σ τ) α) f v a' w) :
    a' = a ∧ w = v := by
  obtain ⟨m, m', h⟩ := h
  cases h
  exact ⟨rfl, rfl⟩

theorem not_fail (h : Ends (Prog.fail e : Prog κ ε (Tx σ τ) α) f v a w) : False := by
  obtain ⟨m, m', h⟩ := h
  cases h

theorem not_undefined (h : Ends (Prog.undefined : Prog κ ε (Tx σ τ) α) f v a w) : False := by
  obtain ⟨m, m', h⟩ := h
  cases h

theorem of_attempt {c : κ} {r : Bool}
    (h : Ends (Prog.attempt c : Prog κ ε (Tx σ τ) Bool) f v r w) : w = v := by
  obtain ⟨m, m', h⟩ := h
  cases h
  rfl

theorem of_note {n : τ} (h : Ends (Prog.note n : Prog κ ε (Tx σ τ) Unit) f v () w) :
    w = v := by
  obtain ⟨m, m', h⟩ := h
  cases h
  rfl

theorem of_require {c : κ} (h : Ends (Prog.require c e : Prog κ ε (Tx σ τ) Unit) f v () w) :
    w = v := by
  obtain ⟨r, u, hr, h⟩ := h.of_bind
  have hu := hr.of_attempt
  subst hu
  cases r with
  | true => exact h.of_pure.2
  | false => exact h.not_fail.elim

theorem of_reject {p : Prop} [Decidable p]
    (h : Ends (Prog.reject p e : Prog κ ε (Tx σ τ) Unit) f v () w) : ¬ p ∧ w = v := by
  unfold Prog.reject at h
  by_cases hp : p
  · rw [if_pos hp] at h
    exact h.not_fail.elim
  · rw [if_neg hp] at h
    exact ⟨hp, h.of_pure.2⟩

theorem of_inBounds {p : Prop} [Decidable p]
    (h : Ends (Prog.inBounds p : Prog κ ε (Tx σ τ) Unit) f v () w) : p ∧ w = v := by
  unfold Prog.inBounds at h
  by_cases hp : p
  · rw [if_pos hp] at h
    exact ⟨hp, h.of_pure.2⟩
  · rw [if_neg hp] at h
    exact h.not_undefined.elim

theorem of_onFail {cleanup : Prog κ ε (Tx σ τ) Unit} (h : Ends (x.onFail cleanup) f v a w) :
    Ends x f v a w := by
  obtain ⟨m, m', h⟩ := h
  refine ⟨m, m', ?_⟩
  unfold Prog.onFail at h
  cases hx : x.run f ⟨v, m⟩ with
  | ok a' t => simpa [hx] using h
  | stop e' t =>
    cases e' with
    | undefined => simp [hx] at h
    | fail e' =>
      simp only [hx] at h
      cases hc : cleanup.run f t <;> simp [hc] at h

theorem of_finally' {cleanup : Prog κ ε (Tx σ τ) Unit} (h : Ends (x.finally' cleanup) f v a u) :
    ∃ w, Ends x f v a w ∧ Ends cleanup f w () u := by
  obtain ⟨a', w, hx, h⟩ := h.of_bind
  obtain ⟨_, z, hc, h⟩ := h.of_bind
  obtain ⟨ha, hz⟩ := h.of_pure
  subst ha hz
  exact ⟨w, hx.of_onFail, hc⟩

end Ends

/-- Whenever `x` ends well on the copy `v` under the faults `f`, it ends in the same way on every
run under `f₀`: no failure of `f` is behind its success. -/
def Candid (x : Prog κ ε (Tx σ τ) α) (f f₀ : Faults κ) (v : σ) : Prop :=
  ∀ a w, Ends x f v a w → Yields x f₀ v a w

namespace Candid

variable {x : Prog κ ε (Tx σ τ) α} {g : α → Prog κ ε (Tx σ τ) β} {f f₀ : Faults κ} {v : σ}

theorem pure (a : α) : Candid (Pure.pure a : Prog κ ε (Tx σ τ) α) f f₀ v := by
  intro a' w h
  obtain ⟨rfl, rfl⟩ := h.of_pure
  exact Yields.pure a' f₀ w

theorem fail (e : ε) : Candid (Prog.fail e : Prog κ ε (Tx σ τ) α) f f₀ v :=
  fun _ _ h => h.not_fail.elim

theorem bind (hx : Candid x f f₀ v) (hg : ∀ a w, Ends x f v a w → Candid (g a) f f₀ w) :
    Candid (x >>= g) f f₀ v := by
  intro b u h
  obtain ⟨a, w, ha, hb⟩ := h.of_bind
  exact (hx a w ha).bind (hg a w ha b u hb)

theorem reject (p : Prop) [Decidable p] (e : ε) :
    Candid (Prog.reject p e : Prog κ ε (Tx σ τ) Unit) f f₀ v := by
  intro a w h
  obtain ⟨hp, rfl⟩ := h.of_reject
  exact Yields.reject hp e f₀ w

theorem inBounds (p : Prop) [Decidable p] :
    Candid (Prog.inBounds p : Prog κ ε (Tx σ τ) Unit) f f₀ v := by
  intro a w h
  obtain ⟨hp, rfl⟩ := h.of_inBounds
  exact Yields.inBounds hp f₀ w

theorem note (n : τ) : Candid (Prog.note n : Prog κ ε (Tx σ τ) Unit) f f₀ v := by
  intro a w h
  obtain rfl := h.of_note
  exact Yields.note n f₀ w

theorem require {c : κ} (hc : ∀ n, f₀ c n = false) (e : ε) :
    Candid (Prog.require c e : Prog κ ε (Tx σ τ) Unit) f f₀ v := by
  intro a w h
  obtain rfl := h.of_require
  exact Yields.require hc e w

theorem attempt {c : κ} (hc : ∀ n, f c n = false) (hc₀ : ∀ n, f₀ c n = false) :
    Candid (Prog.attempt c : Prog κ ε (Tx σ τ) Bool) f f₀ v := by
  rintro a w ⟨m, m', h⟩
  have ha : a = true ∧ w = v := by
    simp only [Prog.attempt, hc] at h
    cases h
    exact ⟨rfl, rfl⟩
  obtain ⟨rfl, rfl⟩ := ha
  exact Yields.attempt hc₀ w

theorem finally' {cleanup : Prog κ ε (Tx σ τ) Unit} (hx : Candid x f f₀ v)
    (hc : ∀ w, Candid cleanup f f₀ w) : Candid (x.finally' cleanup) f f₀ v := by
  intro a u h
  obtain ⟨w, ha, hu⟩ := h.of_finally'
  exact (hx a w ha).finally' (hc w () u hu)

end Candid

/-- No run of `x` on the private copy `v` is undefined. -/
def Safe (x : Prog κ ε (Tx σ τ) α) (f : Faults κ) (v : σ) : Prop :=
  ∀ m u, x.run f ⟨v, m⟩ ≠ .stop .undefined u

namespace Safe

variable {x : Prog κ ε (Tx σ τ) α} {g : α → Prog κ ε (Tx σ τ) β} {f : Faults κ} {v : σ}

theorem pure (a : α) : Safe (Pure.pure a : Prog κ ε (Tx σ τ) α) f v := by
  intro m u h
  cases h

theorem fail (e : ε) : Safe (Prog.fail e : Prog κ ε (Tx σ τ) α) f v := by
  intro m u h
  cases h

theorem attempt (c : κ) : Safe (Prog.attempt c : Prog κ ε (Tx σ τ) Bool) f v := by
  intro m u h
  cases h

theorem bind (hx : Safe x f v) (hg : ∀ a w, Ends x f v a w → Safe (g a) f w) :
    Safe (x >>= g) f v := by
  intro m u h
  cases hr : x.run f ⟨v, m⟩ with
  | ok a t =>
    rw [Prog.run_bind_ok g hr] at h
    exact hg a t.view ⟨m, t.meter, hr⟩ t.meter u h
  | stop e t =>
    rw [Prog.run_bind_stop g hr] at h
    cases h
    exact hx m u hr

theorem reject (p : Prop) [Decidable p] (e : ε) :
    Safe (Prog.reject p e : Prog κ ε (Tx σ τ) Unit) f v := by
  unfold Prog.reject
  by_cases hp : p
  · rw [if_pos hp]
    exact fail e
  · rw [if_neg hp]
    exact pure ()

theorem inBounds {p : Prop} [Decidable p] (hp : p) :
    Safe (Prog.inBounds p : Prog κ ε (Tx σ τ) Unit) f v := by
  unfold Prog.inBounds
  rw [if_pos hp]
  exact pure ()

theorem note (n : τ) : Safe (Prog.note n : Prog κ ε (Tx σ τ) Unit) f v := by
  intro m u h
  cases h

theorem require (c : κ) (e : ε) : Safe (Prog.require c e : Prog κ ε (Tx σ τ) Unit) f v := by
  apply (attempt c).bind
  intro r w _
  cases r with
  | true => exact pure ()
  | false => exact fail e

theorem finally' {cleanup : Prog κ ε (Tx σ τ) Unit} (hx : Safe x f v)
    (hc : ∀ w, Safe cleanup f w) : Safe (x.finally' cleanup) f v := by
  apply bind
  · intro m u h
    cases hr : x.run f ⟨v, m⟩ with
    | ok a t => simp [Prog.onFail, hr] at h
    | stop e t =>
      cases e with
      | undefined => exact hx m t hr
      | fail e =>
        cases hcl : cleanup.run f t with
        | ok _ t' => simp [Prog.onFail, hr, hcl] at h
        | stop e' t' =>
          simp only [Prog.onFail, hr, hcl] at h
          cases h
          exact hc t.view t.meter u hcl
  · intro a w _
    exact (hc w).bind fun _ u _ => pure a

end Safe

/-- Whatever error a run of `x` on the private copy `v` stops with, it and the copy that is left
have `Q`. -/
def FailsWith (x : Prog κ ε (Tx σ τ) α) (f : Faults κ) (v : σ) (Q : ε → σ → Prop) : Prop :=
  ∀ m e t, x.run f ⟨v, m⟩ = .stop (.fail e) t → Q e t.view

namespace FailsWith

variable {x : Prog κ ε (Tx σ τ) α} {g : α → Prog κ ε (Tx σ τ) β} {f : Faults κ} {v : σ}
  {Q : ε → σ → Prop}

theorem pure (a : α) : FailsWith (Pure.pure a : Prog κ ε (Tx σ τ) α) f v Q := by
  intro m e t h
  cases h

theorem fail {e : ε} (he : Q e v) : FailsWith (Prog.fail e : Prog κ ε (Tx σ τ) α) f v Q := by
  intro m e' t h
  cases h
  exact he

theorem attempt (c : κ) : FailsWith (Prog.attempt c : Prog κ ε (Tx σ τ) Bool) f v Q := by
  intro m e t h
  cases h

theorem bind (hx : FailsWith x f v Q) (hg : ∀ a w, Ends x f v a w → FailsWith (g a) f w Q) :
    FailsWith (x >>= g) f v Q := by
  intro m e t h
  cases hr : x.run f ⟨v, m⟩ with
  | ok a u =>
    rw [Prog.run_bind_ok g hr] at h
    exact hg a u.view ⟨m, u.meter, hr⟩ u.meter e t h
  | stop e' u =>
    rw [Prog.run_bind_stop g hr] at h
    cases h
    exact hx m e t hr

theorem reject (p : Prop) [Decidable p] {e : ε} (he : Q e v) :
    FailsWith (Prog.reject p e : Prog κ ε (Tx σ τ) Unit) f v Q := by
  unfold Prog.reject
  by_cases hp : p
  · rw [if_pos hp]
    exact fail he
  · rw [if_neg hp]
    exact pure ()

theorem require (c : κ) {e : ε} (he : Q e v) :
    FailsWith (Prog.require c e : Prog κ ε (Tx σ τ) Unit) f v Q := by
  refine (attempt c).bind ?_
  intro r w hr
  have hw := hr.of_attempt
  subst hw
  cases r with
  | true => exact pure ()
  | false => exact fail he

theorem inBounds (p : Prop) [Decidable p] :
    FailsWith (Prog.inBounds p : Prog κ ε (Tx σ τ) Unit) f v Q := by
  intro m e t h
  by_cases hp : p
  · rw [Prog.inBounds, if_pos hp] at h
    cases h
  · rw [Prog.inBounds, if_neg hp] at h
    cases h

theorem note_finally' {n : τ} {P : ε → Prop} (hx : FailsWith x f v fun e _ => P e) :
    FailsWith (x.finally' (Prog.note n)) f v fun e _ => P e := by
  intro m e t h
  cases hr : x.run f ⟨v, m⟩ with
  | ok a s => simp [Prog.finally', Prog.run_bind, Prog.onFail, Prog.note, hr] at h
  | stop e' s =>
    cases e' with
    | undefined => simp [Prog.finally', Prog.run_bind, Prog.onFail, hr] at h
    | fail e' =>
      simp only [Prog.finally', Prog.run_bind, Prog.onFail, Prog.note, hr] at h
      cases h
      exact hx m e s hr

end FailsWith

/-! ### The transaction stack -/

namespace Prog

def inTxn (x : Prog κ ε (Tx σ τ) α) : Prog κ ε (Session σ τ) α :=
  ⟨fun f s =>
    match s.txns with
    | [] => .stop .undefined s
    | t :: rest =>
      match x.run f ⟨t, s.meter⟩ with
      | .ok a u => .ok a { s with txns := u.view :: rest, meter := u.meter }
      | .stop e u => .stop e { s with txns := u.view :: rest, meter := u.meter }⟩

/-- Opens a transaction under the innermost open one, or under the committed store. -/
def txnBegin : Prog κ ε (Session σ τ) Unit :=
  ⟨fun _ s => .ok () { s with txns := s.txns.headD s.disk :: s.txns }⟩

def txnAbort : Prog κ ε (Session σ τ) Unit :=
  ⟨fun _ s =>
    match s.txns with
    | [] => .stop .undefined s
    | _ :: rest => .ok () { s with txns := rest }⟩

/-- Hands the private copy to the enclosing transaction or to the committed store. A failed
commit ends the transaction too and drops its copy. -/
def txnCommit : Prog κ ε (Session σ τ) Bool :=
  ⟨fun _ s =>
    match s.txns with
    | [] => .stop .undefined s
    | t :: rest =>
      if s.commitFails then .ok false { s with txns := rest }
      else match rest with
        | [] => .ok true { s with disk := t, txns := [] }
        | _ :: outer => .ok true { s with txns := t :: outer }⟩

/-- Whether the caller handed in an open transaction. -/
def hasParent : Prog κ ε (Session σ τ) Bool :=
  ⟨fun _ s => .ok (!s.txns.isEmpty) s⟩

end Prog

/-! ### How a whole operation ends

An operation with a transaction of its own runs from the committed store `v` with no open
transaction. -/

def Result.of (r : Except ε α) (s : S) : Result ε S α :=
  match r with
  | .ok a => .ok a s
  | .error e => .stop (.fail e) s

/-- `x` only moves the meter; neither the stores nor the disk decide how it ends. What it returns
has `P`. -/
def Passive (x : Prog κ ε (Session σ τ) α) (P : α → Prop) : Prop :=
  ∀ f m, ∃ r m', (∀ a, r = .ok a → P a) ∧
    ∀ v ts b, x.run f ⟨v, ts, m, b⟩ = .of r ⟨v, ts, m', b⟩

/-- A passive program that always ends well. -/
def Quiet (x : Prog κ ε (Session σ τ) Unit) : Prop :=
  ∀ f m, ∃ m', ∀ v ts b, x.run f ⟨v, ts, m, b⟩ = .ok () ⟨v, ts, m', b⟩

/-- A program that always runs into undefined behaviour and leaves the stores alone. -/
def Ruins (x : Prog κ ε (Session σ τ) Unit) : Prop :=
  ∀ f m, ∃ m', ∀ v ts b, x.run f ⟨v, ts, m, b⟩ = .stop .undefined ⟨v, ts, m', b⟩

/-- `x` only moves the meter and returns something with `P`. It never fails: where it cannot do its
work, which takes `U`, it is undefined. -/
def Risky (x : Prog κ ε (Session σ τ) α) (U : Faults κ → Prop) (P : α → Prop) : Prop :=
  ∀ f m, (U f ∧ ∃ m', ∀ v ts b, x.run f ⟨v, ts, m, b⟩ = .stop .undefined ⟨v, ts, m', b⟩) ∨
    ∃ a m', P a ∧ ∀ v ts b, x.run f ⟨v, ts, m, b⟩ = .ok a ⟨v, ts, m', b⟩

/-- `x` opens the only transaction, or fails and opens none. -/
def Opens (x : Prog κ ε (Session σ τ) Unit) : Prop :=
  ∀ f m, (∃ m', ∀ v b, x.run f ⟨v, [], m, b⟩ = .ok () ⟨v, [v], m', b⟩) ∨
    ∃ e m', ∀ v b, x.run f ⟨v, [], m, b⟩ = .stop (.fail e) ⟨v, [], m', b⟩

/-- Every run of `x` from the committed store `v` and the open transactions `ts` keeps `v` and
fails, or ends well and leaves it to the disk whether a store `w` with `Q` replaces `v`. Only
under `U` can it be undefined. -/
def Settles (x : Prog κ ε (Session σ τ) α) (f : Faults κ) (v : σ) (ts : List σ) (U : Prop)
    (Q : α → σ → Prop) : Prop :=
  ∀ m, (U ∧ ∃ us m', ∀ b, x.run f ⟨v, ts, m, b⟩ = .stop .undefined ⟨v, us, m', b⟩) ∨
    (∃ e m', ∀ b, x.run f ⟨v, ts, m, b⟩ = .stop (.fail e) ⟨v, [], m', b⟩) ∨
    ∃ a w m', Q a w ∧ ∀ b, x.run f ⟨v, ts, m, b⟩ = .ok a ⟨if b then v else w, [], m', b⟩

/-- Every run of `x` from the committed store `v` and the open transactions `ts` ends well with
`a` and offers the store `w` to the disk. -/
def Delivers (x : Prog κ ε (Session σ τ) α) (f : Faults κ) (v : σ) (ts : List σ) (a : α) (w : σ) :
    Prop :=
  ∀ m, ∃ m', ∀ b, x.run f ⟨v, ts, m, b⟩ = .ok a ⟨if b then v else w, [], m', b⟩

/-- `Settles` for one outcome of the commit at a time. -/
def Atomic (x : Prog κ ε (Session σ τ) α) (f : Faults κ) (v : σ) (U : Bool → Prop)
    (Q : α → σ → Prop) : Prop :=
  ∀ m b, (U b ∧ ∃ us m', x.run f ⟨v, [], m, b⟩ = .stop .undefined ⟨v, us, m', b⟩) ∨
    (∃ e m', x.run f ⟨v, [], m, b⟩ = .stop (.fail e) ⟨v, [], m', b⟩) ∨
    ∃ a w m', Q a w ∧ x.run f ⟨v, [], m, b⟩ = .ok a ⟨if b then v else w, [], m', b⟩

namespace Quiet

theorem note (e : τ) : Quiet (Prog.note e : Prog κ ε (Session σ τ) Unit) :=
  fun _ m => ⟨⟨m.tick, m.trace ++ [e]⟩, fun _ _ _ => rfl⟩

theorem seq {x y : Prog κ ε (Session σ τ) Unit} (hx : Quiet x) (hy : Quiet y) :
    Quiet (x >>= fun _ => y) := by
  intro f m
  obtain ⟨m', h⟩ := hx f m
  obtain ⟨m'', h'⟩ := hy f m'
  exact ⟨m'', fun v ts b => by rw [Prog.run_bind_ok _ (h v ts b), h']⟩

theorem passive {x : Prog κ ε (Session σ τ) Unit} (hx : Quiet x) : Passive x fun _ => True := by
  intro f m
  obtain ⟨m', h⟩ := hx f m
  exact ⟨.ok (), m', fun _ _ => trivial, h⟩

end Quiet

namespace Passive

variable {x : Prog κ ε (Session σ τ) α} {g : α → Prog κ ε (Session σ τ) β} {f : Faults κ} {v : σ}
  {P : α → Prop} {R : β → Prop} {U : Prop} {Q : β → σ → Prop}

theorem pure {a : α} (ha : P a) : Passive (Pure.pure a : Prog κ ε (Session σ τ) α) P := by
  intro f m
  refine ⟨.ok a, m, ?_, fun _ _ _ => rfl⟩
  rintro _ ⟨⟩
  exact ha

theorem fail (e : ε) : Passive (Prog.fail e : Prog κ ε (Session σ τ) α) P := by
  intro f m
  refine ⟨.error e, m, ?_, fun _ _ _ => rfl⟩
  rintro _ ⟨⟩

theorem attempt (c : κ) : Passive (Prog.attempt c : Prog κ ε (Session σ τ) Bool) fun _ => True :=
  fun f m => ⟨.ok (!f c m.tick), ⟨m.tick + 1, m.trace⟩, fun _ _ => trivial, fun _ _ _ => rfl⟩

theorem bind (hx : Passive x P) (hg : ∀ a, P a → Passive (g a) R) : Passive (x >>= g) R := by
  intro f m
  obtain ⟨r, m', hp, h⟩ := hx f m
  cases r with
  | error e =>
    refine ⟨.error e, m', ?_, fun v ts b => Prog.run_bind_stop g (h v ts b)⟩
    rintro _ ⟨⟩
  | ok a =>
    obtain ⟨r', m'', hp', h'⟩ := hg a (hp a rfl) f m'
    exact ⟨r', m'', hp', fun v ts b => by rw [Prog.run_bind_ok g (h v ts b), h']⟩

theorem reject (p : Prop) [Decidable p] (e : ε) :
    Passive (Prog.reject p e : Prog κ ε (Session σ τ) Unit) fun _ => ¬ p := by
  unfold Prog.reject
  by_cases hp : p
  · rw [if_pos hp]
    exact fail e
  · rw [if_neg hp]
    exact pure hp

theorem require (c : κ) (e : ε) :
    Passive (Prog.require c e : Prog κ ε (Session σ τ) Unit) fun _ => True := by
  apply (attempt c).bind
  intro r _
  cases r with
  | true => exact pure trivial
  | false => exact fail e

theorem bind_settles (hx : Passive x P) (hg : ∀ a, P a → Settles (g a) f v [] U Q) :
    Settles (x >>= g) f v [] U Q := by
  intro m
  obtain ⟨r, m', hp, h⟩ := hx f m
  cases r with
  | error e => exact Or.inr (Or.inl ⟨e, m', fun b => Prog.run_bind_stop g (h v [] b)⟩)
  | ok a =>
    have hr := fun b => Prog.run_bind_ok g (h v [] b)
    simpa only [hr] using hg a (hp a rfl) m'

end Passive

namespace Ruins

theorem undefined : Ruins (Prog.undefined : Prog κ ε (Session σ τ) Unit) :=
  fun _ m => ⟨m, fun _ _ _ => rfl⟩

theorem of_quiet {x y : Prog κ ε (Session σ τ) Unit} (hx : Quiet x) (hy : Ruins y) :
    Ruins (x >>= fun _ => y) := by
  intro f m
  obtain ⟨m', h⟩ := hx f m
  obtain ⟨m'', h'⟩ := hy f m'
  exact ⟨m'', fun v ts b => by rw [Prog.run_bind_ok _ (h v ts b), h']⟩

end Ruins

namespace Risky

variable {x : Prog κ ε (Session σ τ) α} {g : α → Prog κ ε (Session σ τ) β} {f : Faults κ} {v : σ}
  {W : Faults κ → Prop} {P : α → Prop} {U : Prop} {Q : β → σ → Prop}

/-- A cleanup that is undefined leaves no failure. -/
theorem of_onFail [Nonempty σ] {cleanup : Prog κ ε (Session σ τ) Unit} (hx : Passive x P)
    (hc : Ruins cleanup) (hu : ∀ f s e t, x.run f s = .stop (.fail e) t → W f) :
    Risky (x.onFail cleanup) W P := by
  intro f m
  obtain ⟨r, m', hp, h⟩ := hx f m
  cases r with
  | ok a => exact Or.inr ⟨a, m', hp a rfl, fun v ts b => by simp [Prog.onFail, h, Result.of]⟩
  | error e =>
    obtain ⟨m'', h'⟩ := hc f m'
    obtain ⟨v⟩ := ‹Nonempty σ›
    exact Or.inl ⟨hu f _ e _ (h v [] false), m'', fun v ts b => by
      simp [Prog.onFail, h, h', Result.of]⟩

theorem bind_settles (hx : Risky x W P) (hu : W f → U)
    (hg : ∀ a, P a → Settles (g a) f v [] U Q) : Settles (x >>= g) f v [] U Q := by
  intro m
  rcases hx f m with ⟨hw, m', h⟩ | ⟨a, m', ha, h⟩
  · exact Or.inl ⟨hu hw, [], m', fun b => Prog.run_bind_stop g (h v [] b)⟩
  · have hr := fun b => Prog.run_bind_ok g (h v [] b)
    simpa only [hr] using hg a ha m'

end Risky

namespace Opens

variable {x : Prog κ ε (Session σ τ) Unit} {f : Faults κ} {v : σ} {U : Prop} {Q : α → σ → Prop}

theorem txnBegin : Opens (Prog.txnBegin : Prog κ ε (Session σ τ) Unit) :=
  fun _ m => Or.inl ⟨m, fun _ _ => rfl⟩

theorem of_passive_bind {g : α → Prog κ ε (Session σ τ) Unit} {x : Prog κ ε (Session σ τ) α}
    {P : α → Prop} (hx : Passive x P) (hg : ∀ a, Opens (g a)) : Opens (x >>= g) := by
  intro f m
  obtain ⟨r, m', _, h⟩ := hx f m
  cases r with
  | error e => exact Or.inr ⟨e, m', fun v b => Prog.run_bind_stop g (h v [] b)⟩
  | ok a =>
    have hr := fun v b => Prog.run_bind_ok g (h v [] b)
    simpa only [hr] using hg a f m'

theorem seq_quiet {y : Prog κ ε (Session σ τ) Unit} (hx : Opens x) (hy : Quiet y) :
    Opens (x >>= fun _ => y) := by
  intro f m
  rcases hx f m with ⟨m', h⟩ | ⟨e, m', h⟩
  · obtain ⟨m'', h'⟩ := hy f m'
    exact Or.inl ⟨m'', fun v b => by rw [Prog.run_bind_ok _ (h v b), h']⟩
  · exact Or.inr ⟨e, m', fun v b => Prog.run_bind_stop _ (h v b)⟩

theorem onFail {cleanup : Prog κ ε (Session σ τ) Unit} (hx : Opens x) (hc : Quiet cleanup) :
    Opens (x.onFail cleanup) := by
  intro f m
  rcases hx f m with ⟨m', h⟩ | ⟨e, m', h⟩
  · exact Or.inl ⟨m', fun v b => by simp [Prog.onFail, h]⟩
  · obtain ⟨m'', h'⟩ := hc f m'
    exact Or.inr ⟨e, m'', fun v b => by simp [Prog.onFail, h, h']⟩

theorem bind_settles {g : Unit → Prog κ ε (Session σ τ) α} (hx : Opens x)
    (hg : Settles (g ()) f v [v] U Q) : Settles (x >>= g) f v [] U Q := by
  intro m
  rcases hx f m with ⟨m', h⟩ | ⟨e, m', h⟩
  · have hr := fun b => Prog.run_bind_ok g (h v b)
    simpa only [hr] using hg m'
  · exact Or.inr (Or.inl ⟨e, m', fun b => Prog.run_bind_stop g (h v b)⟩)

end Opens

namespace Settles

variable {x : Prog κ ε (Session σ τ) α} {f : Faults κ} {v : σ} {ts : List σ} {U : Prop}
  {Q R : α → σ → Prop} {cleanup : Prog κ ε (Session σ τ) Unit}

theorem mono {U' : Prop} (hx : Settles x f v ts U Q) (hu : U → U') (h : ∀ a w, Q a w → R a w) :
    Settles x f v ts U' R := by
  intro m
  rcases hx m with ⟨hu', hr⟩ | hf | ⟨a, w, m', hq, hr⟩
  · exact Or.inl ⟨hu hu', hr⟩
  · exact Or.inr (Or.inl hf)
  · exact Or.inr (Or.inr ⟨a, w, m', h a w hq, hr⟩)

theorem finally' (hx : Settles x f v ts U Q) (hc : Quiet cleanup) :
    Settles (x.finally' cleanup) f v ts U Q := by
  intro m
  rcases hx m with ⟨hu, us, m', h⟩ | ⟨e, m', h⟩ | ⟨a, w, m', hq, h⟩
  · exact Or.inl ⟨hu, us, m', fun b => by simp [Prog.finally', Prog.run_bind, Prog.onFail, h]⟩
  · obtain ⟨m'', h'⟩ := hc f m'
    exact Or.inr (Or.inl ⟨e, m'', fun b => by
      simp [Prog.finally', Prog.run_bind, Prog.onFail, h, h']⟩)
  · obtain ⟨m'', h'⟩ := hc f m'
    exact Or.inr (Or.inr ⟨a, w, m'', hq, fun b => by
      simp [Prog.finally', Prog.run_bind, Prog.onFail, h, h']⟩)

theorem atomic {V : Bool → Prop} (hx : Settles x f v [] U Q) (hu : ∀ b, U → V b) :
    Atomic x f v V Q := by
  intro m b
  rcases hx m with ⟨hU, us, m', h⟩ | ⟨e, m', h⟩ | ⟨a, w, m', hq, h⟩
  · exact Or.inl ⟨hu b hU, us, m', h b⟩
  · exact Or.inr (Or.inl ⟨e, m', h b⟩)
  · exact Or.inr (Or.inr ⟨a, w, m', hq, h b⟩)

theorem of_hasParent {g : Bool → Prog κ ε (Session σ τ) α} (h : Settles (g false) f v [] U Q) :
    Settles (Prog.hasParent >>= g) f v [] U Q := h

/-- What a reading operation returned is known to the rest of the program. -/
theorem bind_of_same {β : Type} {P : α → Prop} {g : α → Prog κ ε (Session σ τ) β}
    {R : β → σ → Prop} (hx : Settles x f v ts U fun a w => w = v ∧ P a)
    (hg : ∀ a, P a → Settles (g a) f v [] U R) : Settles (x >>= g) f v ts U R := by
  intro m
  rcases hx m with ⟨hu, us, m', h⟩ | ⟨e, m', h⟩ | ⟨a, w, m', ⟨hw, hp⟩, h⟩
  · exact Or.inl ⟨hu, us, m', fun b => Prog.run_bind_stop g (h b)⟩
  · exact Or.inr (Or.inl ⟨e, m', fun b => Prog.run_bind_stop g (h b)⟩)
  · subst hw
    simp only [ite_self] at h
    have hr := fun b => Prog.run_bind_ok g (h b)
    simpa only [hr] using hg a hp m'

/-- The body runs in the open transaction, which is aborted when the body fails and otherwise
handed to the disk. -/
theorem abort_or_commit {y : Prog κ ε (Tx σ τ) α} {abort : Prog κ ε (Session σ τ) Unit}
    {commit : Prog κ ε (Session σ τ) Bool}
    (ha : ∀ m, ∃ m', ∀ u b, abort.run f ⟨v, [u], m, b⟩ = .ok () ⟨v, [], m', b⟩)
    (hc : ∀ m, ∃ m', ∀ u b, commit.run f ⟨v, [u], m, b⟩ =
      .ok (!b) ⟨if b then v else u, [], m', b⟩) :
    Settles ((Prog.inTxn y).onFail abort >>= fun a => commit >>= fun _ => pure a) f v [v]
      (¬ Safe y f v) (fun a w => Ends y f v a w) := by
  intro m
  cases hy : y.run f ⟨v, m⟩ with
  | ok a t =>
    obtain ⟨m', h⟩ := hc t.meter
    refine Or.inr (Or.inr ⟨a, t.view, m', ⟨m, t.meter, hy⟩, fun b => ?_⟩)
    simp [Prog.run_bind, Prog.onFail, Prog.inTxn, hy, h]
  | stop e t =>
    cases e with
    | undefined =>
      refine Or.inl ⟨fun hs => hs m t hy, [t.view], t.meter, fun b => ?_⟩
      simp [Prog.run_bind, Prog.onFail, Prog.inTxn, hy]
    | fail e =>
      obtain ⟨m', h⟩ := ha t.meter
      refine Or.inr (Or.inl ⟨e, m', fun b => ?_⟩)
      simp [Prog.run_bind, Prog.onFail, Prog.inTxn, hy, h]

/-- The body runs in the open transaction, which is aborted in any case. -/
theorem always_abort {y : Prog κ ε (Tx σ τ) α} {abort : Prog κ ε (Session σ τ) Unit}
    (ha : ∀ m, ∃ m', ∀ u b, abort.run f ⟨v, [u], m, b⟩ = .ok () ⟨v, [], m', b⟩) :
    Settles ((Prog.inTxn y).finally' abort) f v [v] (¬ Safe y f v)
      (fun a w => w = v ∧ ∃ u, Ends y f v a u) := by
  intro m
  cases hy : y.run f ⟨v, m⟩ with
  | ok a t =>
    obtain ⟨m', h⟩ := ha t.meter
    refine Or.inr (Or.inr ⟨a, v, m', ⟨rfl, t.view, m, t.meter, hy⟩, fun b => ?_⟩)
    simp [Prog.finally', Prog.run_bind, Prog.onFail, Prog.inTxn, hy, h]
  | stop e t =>
    cases e with
    | undefined =>
      refine Or.inl ⟨fun hs => hs m t hy, [t.view], t.meter, fun b => ?_⟩
      simp [Prog.finally', Prog.run_bind, Prog.onFail, Prog.inTxn, hy]
    | fail e =>
      obtain ⟨m', h⟩ := ha t.meter
      refine Or.inr (Or.inl ⟨e, m', fun b => ?_⟩)
      simp [Prog.finally', Prog.run_bind, Prog.onFail, Prog.inTxn, hy, h]

theorem pure_bind_mono {β : Type} {U' : Prop} {R : β → σ → Prop} (hx : Settles x f v ts U Q)
    (g : α → β) (hu : U → U') (h : ∀ a w, Q a w → R (g a) w) :
    Settles (x >>= fun a => pure (g a)) f v ts U' R := by
  intro m
  rcases hx m with ⟨hu', us, m', hr⟩ | ⟨e, m', hr⟩ | ⟨a, w, m', hq, hr⟩
  · exact Or.inl ⟨hu hu', us, m', fun b => Prog.run_bind_stop _ (hr b)⟩
  · exact Or.inr (Or.inl ⟨e, m', fun b => Prog.run_bind_stop _ (hr b)⟩)
  · exact Or.inr (Or.inr ⟨g a, w, m', h a w hq, fun b => Prog.run_bind_ok _ (hr b)⟩)

end Settles

/-- Whatever error a run of `x` under the open transactions `us` stops with, it leaves the committed
store alone, and the error and the transactions that are left have `Q`. -/
def StopsWith (x : Prog κ ε (Session σ τ) α) (f : Faults κ) (v : σ) (us : List σ)
    (Q : ε → List σ → Prop) : Prop :=
  ∀ m b e t, x.run f ⟨v, us, m, b⟩ = .stop (.fail e) t → ∃ ws m', t = ⟨v, ws, m', b⟩ ∧ Q e ws

namespace StopsWith

variable {x : Prog κ ε (Session σ τ) α} {g : α → Prog κ ε (Session σ τ) β} {f : Faults κ} {v u : σ}
  {us ts : List σ} {P : α → Prop} {Q : ε → List σ → Prop}

theorem bind_of_passive (hx : Passive x P) (hstop : StopsWith x f v us Q)
    (hg : ∀ a, P a → StopsWith (g a) f v us Q) : StopsWith (x >>= g) f v us Q := by
  intro m b e t h
  obtain ⟨r, m', hp, hr⟩ := hx f m
  cases r with
  | error e' =>
    rw [Prog.run_bind_stop g (hr v us b)] at h
    cases h
    exact hstop m b e _ (hr v us b)
  | ok a =>
    rw [Prog.run_bind_ok g (hr v us b)] at h
    exact hg a (hp a rfl) m' b e t h

theorem of_passive (hx : Passive x P) (hq : ∀ e, Q e us)
    (hg : ∀ a, P a → StopsWith (g a) f v us Q) : StopsWith (x >>= g) f v us Q := by
  refine bind_of_passive hx ?_ hg
  intro m b e t h
  obtain ⟨r, m', -, hr⟩ := hx f m
  rw [hr v us b] at h
  cases r with
  | error e' =>
    cases h
    exact ⟨us, m', rfl, hq e⟩
  | ok a => cases h

theorem bind_of_risky {W : Faults κ → Prop} (hx : Risky x W P)
    (hg : ∀ a, P a → StopsWith (g a) f v us Q) : StopsWith (x >>= g) f v us Q := by
  intro m b e t h
  rcases hx f m with ⟨-, m', hr⟩ | ⟨a, m', ha, hr⟩
  · rw [Prog.run_bind_stop g (hr v us b)] at h
    cases h
  · rw [Prog.run_bind_ok g (hr v us b)] at h
    exact hg a ha m' b e t h

theorem bind_of_opens {x : Prog κ ε (Session σ τ) Unit} {g : Unit → Prog κ ε (Session σ τ) β}
    (hx : Opens x) (hstop : StopsWith x f v [] Q) (hg : StopsWith (g ()) f v [v] Q) :
    StopsWith (x >>= g) f v [] Q := by
  intro m b e t h
  rcases hx f m with ⟨m', hr⟩ | ⟨e', m', hr⟩
  · rw [Prog.run_bind_ok g (hr v b)] at h
    exact hg m' b e t h
  · rw [Prog.run_bind_stop g (hr v b)] at h
    cases h
    exact hstop m b e _ (hr v b)

theorem fail {e : ε} (he : Q e us) :
    StopsWith (Prog.fail e : Prog κ ε (Session σ τ) α) f v us Q := by
  intro m b e' t h
  cases h
  exact ⟨us, m, rfl, he⟩

theorem pure (a : α) : StopsWith (Pure.pure a : Prog κ ε (Session σ τ) α) f v us Q := by
  intro m b e t h
  cases h

theorem note (n : τ) : StopsWith (Prog.note n : Prog κ ε (Session σ τ) Unit) f v us Q := by
  intro m b e t h
  cases h

theorem require (c : κ) {e : ε} (he : Q e us) :
    StopsWith (Prog.require c e : Prog κ ε (Session σ τ) Unit) f v us Q := by
  refine bind_of_passive (Passive.attempt c) (fun m b e t h => by cases h) fun r _ => ?_
  cases r with
  | true => exact pure ()
  | false => exact fail he

theorem onFail {cleanup : Prog κ ε (Session σ τ) Unit} (hx : StopsWith x f v us Q)
    (hc : Quiet cleanup) : StopsWith (x.onFail cleanup) f v us Q := by
  intro m b e t h
  cases hr : x.run f ⟨v, us, m, b⟩ with
  | ok a s => simp [Prog.onFail, hr] at h
  | stop e' s =>
    cases e' with
    | undefined => simp [Prog.onFail, hr] at h
    | fail e' =>
      obtain ⟨ws, m', rfl, hq⟩ := hx m b e' s hr
      obtain ⟨m'', h'⟩ := hc f m'
      simp only [Prog.onFail, hr, h' v ws b] at h
      cases h
      exact ⟨ws, m'', rfl, hq⟩

theorem of_reject {p : Prop} [Decidable p] {e : ε} {g : Unit → Prog κ ε (Session σ τ) α}
    (he : Q e us) (hg : StopsWith (g ()) f v us Q) :
    StopsWith (Prog.reject p e >>= g) f v us Q := by
  unfold Prog.reject
  by_cases hp : p
  · rw [if_pos hp]
    intro m b e' t h
    cases h
    exact ⟨us, m, rfl, he⟩
  · rw [if_neg hp]
    exact hg

theorem bind_pure (hx : StopsWith x f v us Q) (k : α → β) :
    StopsWith (x >>= fun a => Pure.pure (k a)) f v us Q := by
  intro m b e t h
  cases hr : x.run f ⟨v, us, m, b⟩ with
  | ok a s =>
    rw [Prog.run_bind_ok _ hr] at h
    cases h
  | stop e' s =>
    rw [Prog.run_bind_stop _ hr] at h
    cases h
    exact hx m b e t hr

theorem finally' {cleanup : Prog κ ε (Session σ τ) Unit} (hx : StopsWith x f v us Q)
    (hc : Quiet cleanup) : StopsWith (x.finally' cleanup) f v us Q := by
  intro m b e t h
  cases hr : (x.onFail cleanup).run f ⟨v, us, m, b⟩ with
  | ok a s =>
    obtain ⟨m', h'⟩ := hc f s.meter
    have hs := h' s.disk s.txns s.commitFails
    simp [Prog.finally', Prog.run_bind, hr, hs] at h
  | stop e' s =>
    simp only [Prog.finally', Prog.run_bind, hr] at h
    cases h
    exact hx.onFail hc m b e _ hr

theorem of_hasParent {g : Bool → Prog κ ε (Session σ τ) α}
    (h : StopsWith (g true) f v (u :: ts) Q) :
    StopsWith (Prog.hasParent >>= g) f v (u :: ts) Q := h

/-- A program on the innermost transaction fails in it. -/
theorem inTxn {y : Prog κ ε (Tx σ τ) α} {R : ε → σ → Prop} (hy : FailsWith y f u R)
    (hq : ∀ e w, R e w → Q e (w :: ts)) : StopsWith (Prog.inTxn y) f v (u :: ts) Q := by
  intro m b e t h
  cases hr : y.run f ⟨u, m⟩ with
  | ok a s => simp [Prog.inTxn, hr] at h
  | stop e' s =>
    simp only [Prog.inTxn, hr] at h
    cases h
    exact ⟨s.view :: ts, s.meter, rfl, hq e _ (hy m e s hr)⟩

/-- What a body did in a transaction that is aborted when it fails does not reach the ones under
it. -/
theorem abort_or_commit {y : Prog κ ε (Tx σ τ) α} {abort : Prog κ ε (Session σ τ) Unit}
    {commit : Prog κ ε (Session σ τ) Bool} {R : ε → σ → Prop}
    (ha : ∀ m w b, ∃ m', abort.run f ⟨v, w :: ts, m, b⟩ = .ok () ⟨v, ts, m', b⟩)
    (hc : ∀ m w b, ∃ r s, commit.run f ⟨v, w :: ts, m, b⟩ = .ok r s) (hy : FailsWith y f u R)
    (hq : ∀ e w, R e w → Q e ts) :
    StopsWith ((Prog.inTxn y).onFail abort >>= fun a => commit >>= fun _ => Pure.pure a) f v
      (u :: ts) Q := by
  intro m b e t h
  cases hr : y.run f ⟨u, m⟩ with
  | ok a s =>
    obtain ⟨r, s', h'⟩ := hc s.meter s.view b
    simp [Prog.run_bind, Prog.onFail, Prog.inTxn, hr, h'] at h
  | stop e' s =>
    cases e' with
    | undefined => simp [Prog.run_bind, Prog.onFail, Prog.inTxn, hr] at h
    | fail e' =>
      obtain ⟨m', h'⟩ := ha s.meter s.view b
      simp only [Prog.run_bind, Prog.onFail, Prog.inTxn, hr, h'] at h
      cases h
      exact ⟨ts, m', rfl, hq e _ (hy m e s hr)⟩

end StopsWith

namespace Delivers

variable {x : Prog κ ε (Session σ τ) α} {f : Faults κ} {v w : σ} {ts : List σ} {a : α}
  {cleanup : Prog κ ε (Session σ τ) Unit}

theorem of_require {c : κ} {e : ε} {g : Unit → Prog κ ε (Session σ τ) α}
    (hc : ∀ n, f c n = false) (hg : Delivers (g ()) f v ts a w) :
    Delivers (Prog.require c e >>= g) f v ts a w := by
  intro m
  obtain ⟨m', h⟩ := hg ⟨m.tick + 1, m.trace⟩
  refine ⟨m', fun b => ?_⟩
  rw [← h b]
  simp [Prog.require, Prog.attempt, Prog.run_bind, Metered.meter, Metered.withMeter, hc]

theorem of_reject {p : Prop} [Decidable p] {e : ε} {g : Unit → Prog κ ε (Session σ τ) α}
    (hp : ¬ p) (hg : Delivers (g ()) f v ts a w) :
    Delivers (Prog.reject p e >>= g) f v ts a w := by
  unfold Prog.reject
  rw [if_neg hp]
  exact hg

theorem of_note {n : τ} {g : Unit → Prog κ ε (Session σ τ) α}
    (hg : Delivers (g ()) f v ts a w) : Delivers (Prog.note n >>= g) f v ts a w := by
  intro m
  exact hg ⟨m.tick, m.trace ++ [n]⟩

theorem of_hasParent {g : Bool → Prog κ ε (Session σ τ) α} (h : Delivers (g false) f v [] a w) :
    Delivers (Prog.hasParent >>= g) f v [] a w := h

theorem finally' (hx : Delivers x f v ts a w) (hc : Quiet cleanup) :
    Delivers (x.finally' cleanup) f v ts a w := by
  intro m
  obtain ⟨m', h⟩ := hx m
  obtain ⟨m'', h'⟩ := hc f m'
  exact ⟨m'', fun b => by simp [Prog.finally', Prog.run_bind, Prog.onFail, h, h']⟩

/-- A step that ends well does not run its cleanup. -/
theorem of_onFail {y : Prog κ ε (Session σ τ) β} {g : β → Prog κ ε (Session σ τ) α} {c : β}
    {u : List σ} (hy : ∀ m, ∃ m', ∀ b, y.run f ⟨v, ts, m, b⟩ = .ok c ⟨v, u, m', b⟩)
    (hg : Delivers (g c) f v u a w) : Delivers (y.onFail cleanup >>= g) f v ts a w := by
  intro m
  obtain ⟨m', h⟩ := hy m
  obtain ⟨m'', h'⟩ := hg m'
  exact ⟨m'', fun b => by simp [Prog.run_bind, Prog.onFail, h, h']⟩

/-- The rest of a program after a read. -/
theorem bind_of_same {g : α → Prog κ ε (Session σ τ) β} {b : β} (hx : Delivers x f v ts a v)
    (hg : Delivers (g a) f v [] b w) : Delivers (x >>= g) f v ts b w := by
  intro m
  obtain ⟨m', h⟩ := hx m
  obtain ⟨m'', h'⟩ := hg m'
  refine ⟨m'', fun c => ?_⟩
  have hc := h c
  rw [ite_self] at hc
  rw [Prog.run_bind_ok g hc, h']

theorem bind_pure (hx : Delivers x f v ts a w) (g : α → β) :
    Delivers (x >>= fun a => pure (g a)) f v ts (g a) w := by
  intro m
  obtain ⟨m', h⟩ := hx m
  exact ⟨m', fun b => Prog.run_bind_ok _ (h b)⟩

theorem abort_or_commit {y : Prog κ ε (Tx σ τ) α} {abort : Prog κ ε (Session σ τ) Unit}
    {commit : Prog κ ε (Session σ τ) Bool} (hy : Yields y f v a w)
    (hc : ∀ m, ∃ m', ∀ u b, commit.run f ⟨v, [u], m, b⟩ =
      .ok (!b) ⟨if b then v else u, [], m', b⟩) :
    Delivers ((Prog.inTxn y).onFail abort >>= fun a => commit >>= fun _ => pure a) f v [v] a w := by
  intro m
  obtain ⟨n, hn⟩ := hy m
  obtain ⟨m', h⟩ := hc n
  refine ⟨m', fun b => ?_⟩
  simp [Prog.run_bind, Prog.onFail, Prog.inTxn, hn, h]

theorem always_abort {y : Prog κ ε (Tx σ τ) α} {abort : Prog κ ε (Session σ τ) Unit}
    (hy : Yields y f v a w)
    (ha : ∀ m, ∃ m', ∀ u b, abort.run f ⟨v, [u], m, b⟩ = .ok () ⟨v, [], m', b⟩) :
    Delivers ((Prog.inTxn y).finally' abort) f v [v] a v := by
  intro m
  obtain ⟨n, hn⟩ := hy m
  obtain ⟨m', h⟩ := ha n
  refine ⟨m', fun b => ?_⟩
  simp [Prog.finally', Prog.run_bind, Prog.onFail, Prog.inTxn, hn, h]

end Delivers

end FaultyTransactions
