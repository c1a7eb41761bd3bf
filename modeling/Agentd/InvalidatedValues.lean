import Agentd.FaultyTransactions

/-! # Values that a later write invalidates

A read inside a transaction hands out a view. It shows the value that was read until the
transaction writes again, and whatever its memory has become after that. A program over views
runs under a drift, which says what that is; `Mirrors` compares it with a program over values. -/
namespace InvalidatedValues

open FaultyTransactions

/-- What a value read after `r` writes has become once `w` writes were made. -/
abbrev Drift (V : Type) := ℕ → ℕ → V → V

structure View (V : Type) where
  value : V
  readAt : ℕ

def stay (V : Type) : Drift V := fun _ _ v => v

/-- A program that knows how many writes were made before it. -/
structure ViewProg (κ ε S V α : Type) where
  run : Drift V → ℕ → Prog κ ε S (α × ℕ)

variable {κ ε S V α β γ σ τ : Type}

def View.now (v : View V) (d : Drift V) (w : ℕ) : V :=
  if v.readAt = w then v.value else d v.readAt w v.value

@[simp] theorem View.now_fresh (b : V) (d : Drift V) (w : ℕ) : View.now ⟨b, w⟩ d w = b := if_pos rfl

@[simp] theorem View.now_stay (v : View V) (w : ℕ) : v.now (stay V) w = v.value := by
  unfold View.now
  split
  · rfl
  · rfl

namespace ViewProg

instance : Monad (ViewProg κ ε S V) where
  pure a := ⟨fun _ w => pure (a, w)⟩
  bind x g := ⟨fun d w => x.run d w >>= fun r => (g r.1).run d r.2⟩

theorem run_bind (x : ViewProg κ ε S V α) (g : α → ViewProg κ ε S V β) (d : Drift V) (w : ℕ) :
    (x >>= g).run d w = x.run d w >>= fun r => (g r.1).run d r.2 := rfl

def plain (x : Prog κ ε S α) : ViewProg κ ε S V α := ⟨fun _ w => x >>= fun a => pure (a, w)⟩

/-- Calls that write: every view handed out before is out of date after them. -/
def writing (x : Prog κ ε S α) : ViewProg κ ε S V α := ⟨fun _ w => x >>= fun a => pure (a, w + 1)⟩

def seen (b : V) : ViewProg κ ε S V (View V) := ⟨fun _ w => pure (⟨b, w⟩, w)⟩

def look (v : View V) : ViewProg κ ε S V V := ⟨fun d w => pure (v.now d w, w)⟩

def lookMaybe : Option (View V) → ViewProg κ ε S V (Option V)
  | none => pure none
  | some v => do
    let b ← look v
    pure (some b)

def finally' (x : ViewProg κ ε S V α) (cleanup : Prog κ ε S Unit) : ViewProg κ ε S V α :=
  ⟨fun d w => (x.run d w).finally' cleanup⟩

/-- The program in a transaction that has not written yet. -/
def exec (x : ViewProg κ ε S V α) (d : Drift V) : Prog κ ε S α :=
  x.run d 0 >>= fun r => pure r.1

end ViewProg

/-! ### Agreement with a program over values -/

/-- From the state `s`, after `w` writes, the program `x` over views and the program `y` over
values stop alike, or both end in one state with results that `R` relates. -/
def Mirrors (d : Drift V) (f : Faults κ) (w : ℕ) (s : S) (x : ViewProg κ ε S V α)
    (y : Prog κ ε S β) (R : α → ℕ → β → S → Prop) : Prop :=
  (∃ e t, (x.run d w).run f s = .stop e t ∧ y.run f s = .stop e t) ∨
    ∃ a w' b t, (x.run d w).run f s = .ok (a, w') t ∧ y.run f s = .ok b t ∧ R a w' b t

namespace Mirrors

variable {d : Drift V} {f : Faults κ} {w : ℕ} {s : S} {x : ViewProg κ ε S V α} {y : Prog κ ε S β}
  {R Q : α → ℕ → β → S → Prop}

theorem pure {a : α} {b : β} (h : R a w b s) :
    Mirrors d f w s (Pure.pure a : ViewProg κ ε S V α) (Pure.pure b) R :=
  Or.inr ⟨a, w, b, s, rfl, rfl, h⟩

theorem fail {e : ε} : Mirrors d f w s (ViewProg.plain (Prog.fail e) : ViewProg κ ε S V α)
    (Prog.fail e) R :=
  Or.inl ⟨.fail e, s, rfl, rfl⟩

theorem mono (h : Mirrors d f w s x y R) (hq : ∀ a w' b t, R a w' b t → Q a w' b t) :
    Mirrors d f w s x y Q := by
  rcases h with hstop | ⟨a, w', b, t, hx, hy, hr⟩
  · exact Or.inl hstop
  · exact Or.inr ⟨a, w', b, t, hx, hy, hq a w' b t hr⟩

theorem bind {g : α → ViewProg κ ε S V γ} {δ : Type} {k : β → Prog κ ε S δ}
    {T : γ → ℕ → δ → S → Prop} (hx : Mirrors d f w s x y R)
    (hg : ∀ a w' b t, R a w' b t → Mirrors d f w' t (g a) (k b) T) :
    Mirrors d f w s (x >>= g) (y >>= k) T := by
  rcases hx with ⟨e, t, hx, hy⟩ | ⟨a, w', b, t, hx, hy, hr⟩
  · exact Or.inl ⟨e, t, Prog.run_bind_stop _ hx, Prog.run_bind_stop k hy⟩
  · have hxg := Prog.run_bind_ok (fun r => (g r.1).run d r.2) hx
    have hyk := Prog.run_bind_ok k hy
    unfold Mirrors
    rw [ViewProg.run_bind, hxg, hyk]
    exact hg a w' b t hr

/-- A call that is the same on both sides; its result and the state after it are known. -/
theorem plain (y : Prog κ ε S β) : Mirrors d f w s (ViewProg.plain y) y
    fun a w' b t => a = b ∧ w' = w ∧ y.run f s = .ok b t := by
  cases hy : y.run f s with
  | stop e t => exact Or.inl ⟨e, t, Prog.run_bind_stop _ hy, hy⟩
  | ok b t => exact Or.inr ⟨b, w, b, t, Prog.run_bind_ok _ hy, hy, rfl, rfl, rfl⟩

theorem writing (y : Prog κ ε S β) : Mirrors d f w s (ViewProg.writing y) y
    fun a w' b t => a = b ∧ w' = w + 1 ∧ y.run f s = .ok b t := by
  cases hy : y.run f s with
  | stop e t => exact Or.inl ⟨e, t, Prog.run_bind_stop _ hy, hy⟩
  | ok b t => exact Or.inr ⟨b, w + 1, b, t, Prog.run_bind_ok _ hy, hy, rfl, rfl, rfl⟩

theorem plain_bind {g : β → ViewProg κ ε S V γ} {δ : Type} {k : β → Prog κ ε S δ}
    {T : γ → ℕ → δ → S → Prop}
    (hg : ∀ b t, y.run f s = .ok b t → Mirrors d f w t (g b) (k b) T) :
    Mirrors d f w s (ViewProg.plain y >>= g) (y >>= k) T := by
  refine (plain y).bind ?_
  rintro a w' b t ⟨rfl, rfl, hy⟩
  exact hg a t hy

theorem writing_bind {g : β → ViewProg κ ε S V γ} {δ : Type} {k : β → Prog κ ε S δ}
    {T : γ → ℕ → δ → S → Prop}
    (hg : ∀ b t, y.run f s = .ok b t → Mirrors d f (w + 1) t (g b) (k b) T) :
    Mirrors d f w s (ViewProg.writing y >>= g) (y >>= k) T := by
  refine (writing y).bind ?_
  rintro a w' b t ⟨rfl, rfl, hy⟩
  exact hg a t hy

/-- A read that hands out a view, against one that returns the value. -/
theorem view_bind {y : Prog κ ε S V} {g : View V → ViewProg κ ε S V γ} {δ : Type}
    {k : V → Prog κ ε S δ} {T : γ → ℕ → δ → S → Prop}
    (hg : ∀ b t, y.run f s = .ok b t → Mirrors d f w t (g ⟨b, w⟩) (k b) T) :
    Mirrors d f w s ((ViewProg.plain y >>= fun b => ViewProg.seen b) >>= g) (y >>= k) T := by
  have hread : Mirrors d f w s (ViewProg.plain y >>= fun b => ViewProg.seen b) y
      fun v w' b t => v = ⟨b, w⟩ ∧ w' = w ∧ y.run f s = .ok b t := by
    cases hy : y.run f s with
    | stop e t =>
      refine Or.inl ⟨e, t, ?_, hy⟩
      simp [ViewProg.run_bind, ViewProg.plain, Prog.run_bind, hy]
    | ok b t =>
      refine Or.inr ⟨⟨b, w⟩, w, b, t, ?_, hy, rfl, rfl, rfl⟩
      simp [ViewProg.run_bind, ViewProg.plain, ViewProg.seen, Prog.run_bind, hy]
  refine hread.bind ?_
  rintro v w' b t ⟨rfl, rfl, hy⟩
  exact hg b t hy

/-- Handing out a view has no counterpart on the other side. -/
theorem seen_bind {b : V} {g : View V → ViewProg κ ε S V α} (hg : Mirrors d f w s (g ⟨b, w⟩) y R) :
    Mirrors d f w s (ViewProg.seen b >>= g) y R := hg

theorem look_bind {v : View V} {g : V → ViewProg κ ε S V α}
    (hg : Mirrors d f w s (g (v.now d w)) y R) : Mirrors d f w s (ViewProg.look v >>= g) y R := hg

theorem lookMaybe_bind {v : Option (View V)} {g : Option V → ViewProg κ ε S V α}
    (hg : Mirrors d f w s (g (v.map fun v => v.now d w)) y R) :
    Mirrors d f w s (ViewProg.lookMaybe v >>= g) y R := by
  cases v with
  | none => exact hg
  | some v => exact hg

theorem finally' {cleanup : Prog κ ε S Unit} (hx : Mirrors d f w s x y R)
    (hr : ∀ a w' b t u, R a w' b t → R a w' b u) :
    Mirrors d f w s (x.finally' cleanup) (y.finally' cleanup) R := by
  rcases hx with ⟨e, t, hx, hy⟩ | ⟨a, w', b, t, hx, hy, h⟩
  · refine Or.inl ?_
    cases e with
    | undefined =>
      refine ⟨.undefined, t, ?_, ?_⟩
      · simp [ViewProg.finally', Prog.finally', Prog.run_bind, Prog.onFail, hx]
      · simp [Prog.finally', Prog.run_bind, Prog.onFail, hy]
    | fail e =>
      cases hc : cleanup.run f t with
      | ok _ u =>
        refine ⟨.fail e, u, ?_, ?_⟩
        · simp [ViewProg.finally', Prog.finally', Prog.run_bind, Prog.onFail, hx, hc]
        · simp [Prog.finally', Prog.run_bind, Prog.onFail, hy, hc]
      | stop e' u =>
        refine ⟨e', u, ?_, ?_⟩
        · simp [ViewProg.finally', Prog.finally', Prog.run_bind, Prog.onFail, hx, hc]
        · simp [Prog.finally', Prog.run_bind, Prog.onFail, hy, hc]
  · cases hc : cleanup.run f t with
    | ok _ u =>
      refine Or.inr ⟨a, w', b, u, ?_, ?_, hr a w' b t u h⟩
      · simp [ViewProg.finally', Prog.finally', Prog.run_bind, Prog.onFail, hx, hc]
      · simp [Prog.finally', Prog.run_bind, Prog.onFail, hy, hc]
    | stop e u =>
      refine Or.inl ⟨e, u, ?_, ?_⟩
      · simp [ViewProg.finally', Prog.finally', Prog.run_bind, Prog.onFail, hx, hc]
      · simp [Prog.finally', Prog.run_bind, Prog.onFail, hy, hc]

theorem exec {y : Prog κ ε S α} (h : Mirrors d f 0 s x y fun a _ b _ => a = b) :
    (x.exec d).run f s = y.run f s := by
  rcases h with ⟨e, t, hx, hy⟩ | ⟨a, w', b, t, hx, hy, rfl⟩
  · rw [hy]
    exact Prog.run_bind_stop _ hx
  · rw [hy]
    exact Prog.run_bind_ok _ hx

theorem exec_eq {y : Prog κ ε S α} (h : ∀ f s, Mirrors d f 0 s x y fun a _ b _ => a = b) :
    x.exec d = y := by
  have hrun : (x.exec d).run = y.run := funext fun f => funext fun s => (h f s).exec
  exact congrArg Prog.mk hrun

end Mirrors

/-! ### Counting calls

A fault pattern that spares the first calls of a run lets the program get past them. -/

/-- All outside calls at the positions from `a` up to `b` work. -/
def Spares (f : Faults κ) (a b : ℕ) : Prop := ∀ c n, a ≤ n → n < b → f c n = false

/-- `x` makes `k` outside calls; when they work, it ends with `a` and the copy `u`. -/
def Proceeds (k : ℕ) (v : σ) (x : Prog κ ε (Tx σ τ) α) (a : α) (u : σ) : Prop :=
  ∀ f m, Spares f m.tick (m.tick + k) →
    ∃ t, x.run f ⟨v, m⟩ = .ok a ⟨u, ⟨m.tick + k, t⟩⟩

def Fails (f : Faults κ) (m : Meter τ) (v : σ) (x : Prog κ ε (Tx σ τ) α) (e : ε) : Prop :=
  ∃ t, x.run f ⟨v, m⟩ = .stop (.fail e) t

/-- The one call of the kind `c` at the position `n` fails. -/
def failsAt [DecidableEq κ] (c : κ) (n : ℕ) : Faults κ := fun c' n' => decide (c' = c ∧ n' = n)

theorem spares_failsAt [DecidableEq κ] (c : κ) {a b n : ℕ} (h : b ≤ n) :
    Spares (failsAt c n) a b := by
  intro c' n' _ hn'
  exact decide_eq_false (by omega)

theorem Spares.mono {f : Faults κ} {a b a' b' : ℕ} (h : Spares f a b) (ha : a ≤ a') (hb : b' ≤ b) :
    Spares f a' b' := fun c n h₁ h₂ => h c n (by omega) (by omega)

theorem spares_nothing (f : Faults κ) (a : ℕ) : Spares f a (a + 0) := by
  intro c n h₁ h₂
  omega

theorem failsAt_self [DecidableEq κ] (c : κ) (n : ℕ) : failsAt c n c n = true :=
  decide_eq_true ⟨rfl, rfl⟩

namespace Proceeds

variable {k j : ℕ} {v u z : σ} {x : Prog κ ε (Tx σ τ) α} {g : α → Prog κ ε (Tx σ τ) β} {a : α}
  {b : β}

theorem pure : Proceeds 0 v (Pure.pure a : Prog κ ε (Tx σ τ) α) a v := fun _ m _ => ⟨m.trace, rfl⟩

theorem bind (hx : Proceeds k v x a u) (hg : Proceeds j u (g a) b z) :
    Proceeds (k + j) v (x >>= g) b z := by
  intro f m hf
  obtain ⟨t, ht⟩ := hx f m fun c n h₁ h₂ => hf c n h₁ (by omega)
  obtain ⟨t', ht'⟩ := hg f ⟨m.tick + k, t⟩ fun c n h₁ h₂ => hf c n (by simp at h₁; omega)
    (by simp at h₂; omega)
  refine ⟨t', ?_⟩
  rw [Prog.run_bind_ok g ht, ht', Nat.add_assoc]

theorem attempt (c : κ) : Proceeds 1 v (Prog.attempt c : Prog κ ε (Tx σ τ) Bool) true v := by
  intro f m hf
  have hc : f c m.tick = false := hf c m.tick (Nat.le_refl _) (by omega)
  exact ⟨m.trace, by simp [Prog.attempt, Metered.meter, Metered.withMeter, hc]⟩

theorem require (c : κ) (e : ε) :
    Proceeds 1 v (Prog.require c e : Prog κ ε (Tx σ τ) Unit) () v := by
  intro f m hf
  obtain ⟨t, ht⟩ := attempt c f m hf
  exact ⟨t, Prog.run_bind_ok _ ht⟩

theorem reject {p : Prop} [Decidable p] (hp : ¬ p) (e : ε) :
    Proceeds 0 v (Prog.reject p e : Prog κ ε (Tx σ τ) Unit) () v := by
  unfold Prog.reject
  rw [if_neg hp]
  exact pure

theorem inBounds {p : Prop} [Decidable p] (hp : p) :
    Proceeds 0 v (Prog.inBounds p : Prog κ ε (Tx σ τ) Unit) () v := by
  unfold Prog.inBounds
  rw [if_pos hp]
  exact pure

theorem note (n : τ) : Proceeds 0 v (Prog.note n : Prog κ ε (Tx σ τ) Unit) () v :=
  fun _ m _ => ⟨m.trace ++ [n], rfl⟩

theorem finally' {cleanup : Prog κ ε (Tx σ τ) Unit} (hx : Proceeds k v x a u)
    (hc : Proceeds j u cleanup () z) : Proceeds (k + j) v (x.finally' cleanup) a z := by
  refine bind (k := k) (j := j) (a := a) (u := u) ?_ (bind (j := 0) hc pure)
  intro f m hf
  obtain ⟨t, ht⟩ := hx f m hf
  exact ⟨t, by simp [Prog.onFail, ht]⟩

/-- A program over views that has made its calls. -/
theorem plain {V : Type} (hx : Proceeds k v x a u) (d : Drift V) (w : ℕ) :
    Proceeds k v ((ViewProg.plain x : ViewProg κ ε (Tx σ τ) V α).run d w) (a, w) u :=
  hx.bind (j := 0) pure

theorem writing {V : Type} (hx : Proceeds k v x a u) (d : Drift V) (w : ℕ) :
    Proceeds k v ((ViewProg.writing x : ViewProg κ ε (Tx σ τ) V α).run d w) (a, w + 1) u :=
  hx.bind (j := 0) pure

end Proceeds

namespace Fails

variable {k : ℕ} {f : Faults κ} {m : Meter τ} {v u : σ} {x : Prog κ ε (Tx σ τ) α}
  {g : α → Prog κ ε (Tx σ τ) β} {a : α} {e : ε}

theorem fail : Fails f m v (Prog.fail e : Prog κ ε (Tx σ τ) α) e := ⟨⟨v, m⟩, rfl⟩

theorem bind (hx : Fails f m v x e) (g : α → Prog κ ε (Tx σ τ) β) : Fails f m v (x >>= g) e := by
  obtain ⟨t, ht⟩ := hx
  exact ⟨t, Prog.run_bind_stop g ht⟩

theorem of_proceeds (hx : Proceeds k v x a u) (hf : Spares f m.tick (m.tick + k))
    (hg : ∀ t, Fails f ⟨m.tick + k, t⟩ u (g a) e) : Fails f m v (x >>= g) e := by
  obtain ⟨t, ht⟩ := hx f m hf
  obtain ⟨t', ht'⟩ := hg t
  exact ⟨t', by rw [Prog.run_bind_ok g ht, ht']⟩

theorem plain {V : Type} (hx : Fails f m v x e) (d : Drift V) (w : ℕ) :
    Fails f m v ((ViewProg.plain x : ViewProg κ ε (Tx σ τ) V α).run d w) e := hx.bind _

theorem view_bind {V γ δ : Type} {x : ViewProg κ ε (Tx σ τ) V γ} {d : Drift V} {w : ℕ}
    (hx : Fails f m v (x.run d w) e) (g : γ → ViewProg κ ε (Tx σ τ) V δ) :
    Fails f m v ((x >>= g).run d w) e := hx.bind _

theorem of_view {V γ δ : Type} {x : ViewProg κ ε (Tx σ τ) V γ} {g : γ → ViewProg κ ε (Tx σ τ) V δ}
    {d : Drift V} {w w' : ℕ} {c : γ} (hx : Proceeds k v (x.run d w) (c, w') u)
    (hf : Spares f m.tick (m.tick + k))
    (hg : ∀ t, Fails f ⟨m.tick + k, t⟩ u ((g c).run d w') e) :
    Fails f m v ((x >>= g).run d w) e := of_proceeds hx hf hg

/-- A look makes no call. -/
theorem look_bind {V γ : Type} {c : View V} {g : V → ViewProg κ ε (Tx σ τ) V γ} {d : Drift V}
    {w : ℕ} (hg : Fails f m v ((g (c.now d w)).run d w) e) :
    Fails f m v ((ViewProg.look c >>= g).run d w) e := hg

theorem require {c : κ} (hc : f c m.tick = true) :
    Fails f m v (Prog.require c e : Prog κ ε (Tx σ τ) Unit) e := by
  refine ⟨⟨v, ⟨m.tick + 1, m.trace⟩⟩, ?_⟩
  simp [Prog.require, Prog.attempt, Prog.run_bind, Metered.meter, Metered.withMeter, hc, Prog.fail]

end Fails

/-! ### Whole operations -/

section Operations

variable {f : Faults κ} {v u : σ} {ts : List σ} {m : Meter τ} {b : Bool} {e : ε}

def Refuses (f : Faults κ) (s : Session σ τ) (x : Prog κ ε (Session σ τ) α) (e : ε) : Prop :=
  ∃ t, x.run f s = .stop (.fail e) t

theorem Refuses.bind {s : Session σ τ} {x : Prog κ ε (Session σ τ) α} (hx : Refuses f s x e)
    (g : α → Prog κ ε (Session σ τ) β) : Refuses f s (x >>= g) e := by
  obtain ⟨t, ht⟩ := hx
  exact ⟨t, Prog.run_bind_stop g ht⟩

theorem Refuses.of_ok {s t : Session σ τ} {x : Prog κ ε (Session σ τ) α} {a : α}
    {g : α → Prog κ ε (Session σ τ) β} (hx : x.run f s = .ok a t) (hg : Refuses f t (g a) e) :
    Refuses f s (x >>= g) e := by
  obtain ⟨t', ht'⟩ := hg
  exact ⟨t', by rw [Prog.run_bind_ok g hx, ht']⟩

theorem Refuses.finally' {x : Prog κ ε (Session σ τ) α} {cleanup : Prog κ ε (Session σ τ) Unit}
    {s : Session σ τ} (hx : Refuses f s x e) (hc : Quiet cleanup) :
    Refuses f s (x.finally' cleanup) e := by
  obtain ⟨t, ht⟩ := hx
  obtain ⟨m', h'⟩ := hc f t.meter
  have hrun := h' t.disk t.txns t.commitFails
  refine ⟨⟨t.disk, t.txns, m', t.commitFails⟩, ?_⟩
  simp only [Prog.finally', Prog.run_bind, Prog.onFail, ht, hrun]

/-- Programs that differ after a passive step only where that step cannot tell. -/
theorem run_congr_of_passive {x : Prog κ ε (Session σ τ) α} {g g' : α → Prog κ ε (Session σ τ) β}
    {P : α → Prop} (hx : Passive x P)
    (hg : ∀ a m', P a → (g a).run f ⟨v, ts, m', b⟩ = (g' a).run f ⟨v, ts, m', b⟩) :
    (x >>= g).run f ⟨v, ts, m, b⟩ = (x >>= g').run f ⟨v, ts, m, b⟩ := by
  obtain ⟨r, m', hp, hr⟩ := hx f m
  cases r with
  | error e => rw [Prog.run_bind_stop g (hr v ts b), Prog.run_bind_stop g' (hr v ts b)]
  | ok a =>
    rw [Prog.run_bind_ok g (hr v ts b), Prog.run_bind_ok g' (hr v ts b)]
    exact hg a m' (hp a rfl)

theorem run_congr_of_risky {x : Prog κ ε (Session σ τ) α} {g g' : α → Prog κ ε (Session σ τ) β}
    {W : Faults κ → Prop} {P : α → Prop} (hx : Risky x W P)
    (hg : ∀ a m', P a → (g a).run f ⟨v, ts, m', b⟩ = (g' a).run f ⟨v, ts, m', b⟩) :
    (x >>= g).run f ⟨v, ts, m, b⟩ = (x >>= g').run f ⟨v, ts, m, b⟩ := by
  rcases hx f m with ⟨-, m', hr⟩ | ⟨a, m', ha, hr⟩
  · rw [Prog.run_bind_stop g (hr v ts b), Prog.run_bind_stop g' (hr v ts b)]
  · rw [Prog.run_bind_ok g (hr v ts b), Prog.run_bind_ok g' (hr v ts b)]
    exact hg a m' ha

theorem run_finally'_congr {s : S} {x x' : Prog κ ε S α} (cleanup : Prog κ ε S Unit)
    (h : x.run f s = x'.run f s) :
    (x.finally' cleanup).run f s = (x'.finally' cleanup).run f s := by
  simp only [Prog.finally', Prog.run_bind, Prog.onFail, h]

/-- A body is run on the copy of the innermost transaction. -/
theorem run_inTxn_congr {y y' : Prog κ ε (Tx σ τ) α} (h : y.run f ⟨u, m⟩ = y'.run f ⟨u, m⟩) :
    (Prog.inTxn y).run f ⟨v, u :: ts, m, b⟩ = (Prog.inTxn y').run f ⟨v, u :: ts, m, b⟩ := by
  simp only [Prog.inTxn, h]

end Operations

end InvalidatedValues
