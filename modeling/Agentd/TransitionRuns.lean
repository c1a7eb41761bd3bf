import Mathlib.Data.List.Basic

/-! # Runs of a transition function

A step takes a state and an event to the next state, or to none where the event cannot happen. What
every step keeps holds in every state a run reaches. Where the system chooses the event itself, two
runs from one state to states without a step are the same run. -/
namespace TransitionRuns

variable {σ ε : Type*} {step : σ → ε → Option σ} {s₀ s s' : σ} {e : ε}

structure Taken (σ ε : Type*) where
  before : σ
  event : ε
  after : σ

variable {log log' l₁ l₂ : List (Taken σ ε)} {t : Taken σ ε}

/-- The steps taken from `s₀` on, oldest first, and the state they lead to. -/
inductive Run (step : σ → ε → Option σ) (s₀ : σ) : List (Taken σ ε) → σ → Prop
  | nil : Run step s₀ [] s₀
  | snoc {log : List (Taken σ ε)} {s s' : σ} {e : ε} (earlier : Run step s₀ log s)
      (taken : step s e = some s') : Run step s₀ (log ++ [⟨s, e, s'⟩]) s'

/-- An invariant of the steps holds at the end of a run. -/
theorem Run.invariant {P : σ → Prop} (h : Run step s₀ log s) (start : P s₀)
    (keep : ∀ {s e s'}, P s → step s e = some s' → P s') : P s := by
  induction h with
  | nil => exact start
  | snoc earlier taken ih => exact keep ih taken

/-- An invariant that speaks of the steps taken so far. -/
theorem Run.history {P : List (Taken σ ε) → σ → Prop} (h : Run step s₀ log s) (start : P [] s₀)
    (keep : ∀ {log s e s'}, P log s → step s e = some s' → P (log ++ [⟨s, e, s'⟩]) s') :
    P log s := by
  induction h with
  | nil => exact start
  | snoc earlier taken ih => exact keep ih taken

/-- An invariant that only some of the events keep, in a run of these. -/
theorem Run.invariant_on {P : σ → Prop} {Q : ε → Prop} (h : Run step s₀ log s)
    (hlog : ∀ t ∈ log, Q t.event) (start : P s₀)
    (keep : ∀ {s e s'}, P s → Q e → step s e = some s' → P s') : P s := by
  induction h with
  | nil => exact start
  | @snoc log s s' e earlier taken ih =>
    have hbefore := ih fun t ht => hlog t (List.mem_append_left _ ht)
    exact keep hbefore (hlog ⟨s, e, s'⟩ (by simp)) taken

/-- A rank that the events counted lower by one, and the others not at all. -/
theorem Run.countdown {P : σ → Prop} {Q : ε → Prop} (rank : σ → ℕ) (counted : ε → Bool)
    (h : Run step s₀ log s) (hlog : ∀ t ∈ log, Q t.event) (start : P s₀)
    (keep : ∀ {s e s'}, P s → Q e → step s e = some s' →
      P s' ∧ rank s' + (counted e).toNat = rank s) :
    P s ∧ rank s + log.countP (fun t => counted t.event) = rank s₀ := by
  induction h with
  | nil => exact ⟨start, by simp⟩
  | @snoc log s s' e earlier taken ih =>
    obtain ⟨hbefore, hcount⟩ := ih fun t ht => hlog t (List.mem_append_left _ ht)
    obtain ⟨hafter, hrank⟩ := keep hbefore (hlog ⟨s, e, s'⟩ (by simp)) taken
    refine ⟨hafter, ?_⟩
    rw [List.countP_append, List.countP_singleton]
    cases hc : counted e with
    | false =>
      rw [hc, Bool.toNat_false] at hrank
      simp only [Bool.false_eq_true, if_false]
      omega
    | true =>
      rw [hc, Bool.toNat_true] at hrank
      simp only [if_true]
      omega

theorem Run.trans (h : Run step s₀ log s) (h' : Run step s log' s') :
    Run step s₀ (log ++ log') s' := by
  induction h' with
  | nil =>
    rw [List.append_nil]
    exact h
  | snoc earlier taken ih =>
    rw [← List.append_assoc]
    exact .snoc ih taken

theorem Run.cons (taken : step s₀ e = some s) (h : Run step s log s') :
    Run step s₀ (⟨s₀, e, s⟩ :: log) s' :=
  (Run.snoc .nil taken).trans h

/-- A run that took a step: up to it, the step, and on from it. -/
theorem Run.split (h : Run step s₀ (l₁ ++ t :: l₂) s) :
    Run step s₀ l₁ t.before ∧ step t.before t.event = some t.after ∧ Run step t.after l₂ s := by
  generalize hlog : l₁ ++ t :: l₂ = log at h
  induction h generalizing l₂ with
  | nil => exact absurd hlog (by simp)
  | snoc earlier taken ih =>
    rcases List.eq_nil_or_concat l₂ with rfl | ⟨l, u, rfl⟩
    · obtain ⟨rfl, heq⟩ := List.append_inj' hlog rfl
      cases heq
      exact ⟨earlier, taken, .nil⟩
    · rw [List.concat_eq_append, ← List.cons_append, ← List.append_assoc] at hlog
      obtain ⟨hl, hu⟩ := List.append_inj' hlog rfl
      cases hu
      obtain ⟨hbefore, hstep, hafter⟩ := ih hl
      rw [List.concat_eq_append]
      exact ⟨hbefore, hstep, .snoc hafter taken⟩

/-- An invariant holds before every step of a run. -/
theorem Run.before {P : σ → Prop} (h : Run step s₀ log s) (start : P s₀)
    (keep : ∀ {s e s'}, P s → step s e = some s' → P s') (ht : t ∈ log) :
    P t.before ∧ step t.before t.event = some t.after := by
  obtain ⟨l₁, l₂, rfl⟩ := List.append_of_mem ht
  obtain ⟨hbefore, hstep, -⟩ := h.split
  exact ⟨hbefore.invariant start keep, hstep⟩

def execute (step : σ → ε → Option σ) (s : σ) : List ε → Option (List (Taken σ ε) × σ)
  | [] => some ([], s)
  | e :: es => (step s e).bind fun s' =>
    (execute step s' es).map fun r => (⟨s, e, s'⟩ :: r.1, r.2)

theorem run_execute {es : List ε} (h : execute step s₀ es = some (log, s)) :
    Run step s₀ log s ∧ log.map Taken.event = es := by
  induction es generalizing s₀ log with
  | nil =>
    cases h
    exact ⟨.nil, rfl⟩
  | cons e es ih =>
    obtain ⟨s', hstep, hrest⟩ := Option.bind_eq_some_iff.mp h
    obtain ⟨r, hr, heq⟩ := Option.map_eq_some_iff.mp hrest
    cases heq
    obtain ⟨hrun, hevents⟩ := ih hr
    exact ⟨.cons hstep hrun, by rw [List.map_cons, hevents]⟩

end TransitionRuns

/-! ### Systems that choose their steps -/

namespace TransitionRuns.Deterministic

variable {σ α : Type*}

inductive Steps (next : σ → Option (α × σ)) : σ → List α → σ → Prop
  | refl (s : σ) : Steps next s [] s
  | head {s t u : σ} {a : α} {as : List α} (taken : next s = some (a, t))
      (rest : Steps next t as u) : Steps next s (a :: as) u

def Halted (next : σ → Option (α × σ)) (s : σ) : Prop := next s = none

variable {next : σ → Option (α × σ)} {s t u v : σ} {a : α} {as bs : List α}

theorem Steps.single (h : next s = some (a, t)) : Steps next s [a] t := .head h (.refl t)

theorem Steps.trans (h : Steps next s as t) (h' : Steps next t bs u) :
    Steps next s (as ++ bs) u := by
  induction h with
  | refl s => exact h'
  | head taken rest ih => exact .head taken (ih h')

theorem Steps.halted_unique (h : Steps next s as u) (hu : Halted next u)
    (h' : Steps next s bs v) (hv : Halted next v) : as = bs ∧ u = v := by
  induction h generalizing bs with
  | refl s =>
    cases h' with
    | refl => exact ⟨rfl, rfl⟩
    | head taken rest =>
      rw [hu] at taken
      cases taken
  | head taken rest ih =>
    cases h' with
    | refl =>
      rw [hv] at taken
      cases taken
    | head taken' rest' =>
      rw [taken] at taken'
      obtain ⟨rfl, rfl⟩ := Prod.mk.inj (Option.some.inj taken')
      obtain ⟨rfl, rfl⟩ := ih hu rest'
      exact ⟨rfl, rfl⟩

end TransitionRuns.Deterministic
