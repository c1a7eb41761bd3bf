import Agentd.AssertionEntries

/-! # Every assertion is answered once

The log tells what becomes of an assertion: it is invalidated at once, or the first block update or
cancel behind it decides. The entries in the trees and in the hands of block updates are those whose
answer is still to come. -/
namespace AssertionAnswers

open ByteString
open DataserviceRecords
open NotificationFibers
open AssertionEntries

variable {n : ℕ}

/-! ### Reading the log -/

def isAssertion (i : Fin n) (offset : BitVec 64) : Event n → Bool
  | .request _ j r => j = i ∧ r.method = .blockAssertion ∧ r.offset = offset
  | .response .. => false

def isInvalidation (i : Fin n) (offset : BitVec 64) : Event n → Bool
  | .response j r _ _ => j = i ∧ r = invalidation offset
  | .request .. => false

def answersTo (i : Fin n) (offset : BitVec 64) (log : List (Event n)) : List (Event n) :=
  (log.takeWhile fun e => !isAssertion i offset e).filter (isInvalidation i offset)

def isAbout (number : ℕ) : Event n → Bool
  | .response _ r about _ => r.method = .blockAssertion ∧ about = number
  | .request .. => false

def answersAbout (number : ℕ) (log : List (Event n)) : List (Event n) := log.filter (isAbout number)

inductive Decision where
  | cancelled
  | updated (number : ℕ)
  deriving DecidableEq

def decides (i : Fin n) (offset : BitVec 64) : Event n → Option Decision
  | .request number j r =>
    if r.method = .blockUpdate then some (.updated number)
    else if r.method = .blockAssertionCancel ∧ j = i ∧ r.offset = offset then some .cancelled
    else none
  | .response .. => none

def decision (i : Fin n) (offset : BitVec 64) (log : List (Event n)) : Option Decision :=
  log.findSome? (decides i offset)

def latestAfter (log : List (Event n)) : Uuid :=
  log.foldl (fun latest e => match e with
    | .request _ _ r => if r.method = .blockUpdate then bits 128 r.payload else latest
    | .response .. => latest) zeroUuid

def assertionNumber (i : Fin n) (offset : BitVec 64) : Event n → Option ℕ
  | .request number j r =>
    if j = i ∧ r.method = .blockAssertion ∧ r.offset = offset then some number else none
  | .response .. => none

def lastAssertion (i : Fin n) (offset : BitVec 64) (log : List (Event n)) : Option ℕ :=
  (log.filterMap (assertionNumber i offset)).getLast?

def numberOf : Event n → Option ℕ
  | .request number _ _ => some number
  | .response .. => none

section Log

variable {i : Fin n} {offset : BitVec 64} {log l : List (Event n)} {e : Event n} {number : ℕ}

theorem answersTo_cons : answersTo i offset (e :: l) = if isAssertion i offset e then []
    else (if isInvalidation i offset e then [e] else []) ++ answersTo i offset l := by
  unfold answersTo
  cases hp : isAssertion i offset e with
  | true => simp [List.takeWhile, hp]
  | false =>
    cases hq : isInvalidation i offset e with
    | true => simp [List.takeWhile, hp, hq]
    | false => simp [List.takeWhile, hp, hq]

theorem answersTo_snoc_other (he : isInvalidation i offset e = false) :
    answersTo i offset (l ++ [e]) = answersTo i offset l := by
  induction l with
  | nil =>
    rw [List.nil_append, answersTo_cons, he]
    split
    · rfl
    · rfl
  | cons x l ih => rw [List.cons_append, answersTo_cons, answersTo_cons, ih]

theorem answersTo_snoc_closed (hl : ∃ x ∈ l, isAssertion i offset x = true) :
    answersTo i offset (l ++ [e]) = answersTo i offset l := by
  induction l with
  | nil =>
    obtain ⟨x, hx, -⟩ := hl
    cases hx
  | cons x l ih =>
    rw [List.cons_append, answersTo_cons, answersTo_cons]
    by_cases hx : isAssertion i offset x = true
    · rw [if_pos hx, if_pos hx]
    · rw [if_neg hx, if_neg hx, ih]
      obtain ⟨y, hy, hp⟩ := hl
      rcases List.mem_cons.mp hy with rfl | hy
      · exact absurd hp hx
      · exact ⟨y, hy, hp⟩

theorem answersTo_snoc_open (hl : ∀ x ∈ l, isAssertion i offset x = false)
    (he : isInvalidation i offset e = true) :
    answersTo i offset (l ++ [e]) = answersTo i offset l ++ [e] := by
  induction l with
  | nil =>
    have hp : isAssertion i offset e = false := by
      cases e with
      | request number j r => cases he
      | response j r about via => rfl
    rw [List.nil_append, answersTo_cons, hp, he]
    rfl
  | cons x l ih =>
    have hx : ¬ isAssertion i offset x = true := by simp [hl x List.mem_cons_self]
    rw [List.cons_append, answersTo_cons, answersTo_cons, if_neg hx, if_neg hx,
      ih fun y hy => hl y (List.mem_cons_of_mem x hy), List.append_assoc]

theorem answersAbout_snoc :
    answersAbout number (log ++ [e]) =
      answersAbout number log ++ if isAbout number e then [e] else [] := by
  unfold answersAbout
  rw [List.filter_append, List.filter_singleton]
  cases isAbout number e with
  | true => rfl
  | false => rfl

theorem decision_snoc : decision i offset (l ++ [e]) =
    (decision i offset l).or (decides i offset e) := by
  rw [decision, decision, List.findSome?_append]
  congr 1
  rw [List.findSome?_cons]
  cases decides i offset e with
  | none => rfl
  | some d => rfl

theorem latestAfter_snoc : latestAfter (log ++ [e]) = match e with
    | .request _ _ r => if r.method = .blockUpdate then bits 128 r.payload else latestAfter log
    | .response .. => latestAfter log := by
  rw [latestAfter, List.foldl_append]
  cases e with
  | request number j r => rfl
  | response j r about via => rfl

theorem lastAssertion_append : lastAssertion i offset (log ++ l) =
    (lastAssertion i offset l).or (lastAssertion i offset log) := by
  rw [lastAssertion, List.filterMap_append, List.getLast?_append]
  rfl

theorem lastAssertion_eq_none : lastAssertion i offset l = none ↔
    ∀ x ∈ l, isAssertion i offset x = false := by
  rw [lastAssertion, List.getLast?_eq_none_iff, List.filterMap_eq_nil_iff]
  constructor
  · intro h x hx
    have hnone := h x hx
    cases x with
    | request number j r => simpa [assertionNumber, isAssertion] using hnone
    | response j r about via => rfl
  · intro h x hx
    have hnot := h x hx
    cases x with
    | request number j r => simpa [assertionNumber, isAssertion] using hnot
    | response j r about via => rfl

theorem mem_of_lastAssertion (h : lastAssertion i offset log = some number) :
    ∃ r, Event.request number i r ∈ log ∧ r.method = .blockAssertion ∧ r.offset = offset := by
  have hmem := List.mem_of_getLast? h
  obtain ⟨x, hx, hnumber⟩ := List.mem_filterMap.mp hmem
  cases x with
  | request k j r =>
    rw [assertionNumber] at hnumber
    split at hnumber
    · rename_i hkey
      obtain ⟨rfl, hmethod, hoffset⟩ := hkey
      cases hnumber
      exact ⟨r, hx, hmethod, hoffset⟩
    · cases hnumber
  | response j r about via => cases hnumber

end Log

/-! ### Orderly runs -/

/-- Nothing fails, no fiber leaves its loop, and an offset is not asserted while an answer to it is
still to come. -/
def Orderly (s : Service n) (a : Action n) : Prop :=
  (∀ t, step s a = some t → ∀ j, t.fiber j ≠ .released) ∧ match a with
    | .request j r f => f = noFaults ∧ (r.method = .blockAssertion →
        ∀ e, Live s e → ¬ (e.context = j ∧ e.offset = r.offset))
    | .resume _ f => f = noFaults
    | .close _ => True

inductive Calm (s : Service n) : Service n → Prop
  | reduces {j : Fin n} {r : Request} (caps : Fin n → BitVec 32) (hfiber : s.fiber j = .reading)
      (hmethod : r.method = .reduceCaps) :
    Calm s (finish { arrive s j r with caps := caps } j s.clock ⟨.reduceCaps, r.offset, .success⟩
      false)
  | takes {j : Fin n} {r : Request} (hfiber : s.fiber j = .reading)
      (hmethod : r.method = .blockUpdate) :
    Calm s { arrive s j r with
      latestBlockId := bits 128 r.payload
      assertions := []
      fiber := Function.update s.fiber j (.notifying s.clock r.offset s.assertions) }
  | invalidates {j : Fin n} {r : Request} (hfiber : s.fiber j = .reading)
      (hmethod : r.method = .blockAssertion) (hother : bits 128 r.payload ≠ s.latestBlockId)
      (hfree : ∀ e, Live s e → ¬ (e.context = j ∧ e.offset = r.offset)) :
    Calm s (finish (arrive s j r) j s.clock (invalidation r.offset) false)
  | waits {j : Fin n} {r : Request} (hfiber : s.fiber j = .reading)
      (hmethod : r.method = .blockAssertion) (hlatest : bits 128 r.payload = s.latestBlockId)
      (hfree : ∀ e, Live s e → ¬ (e.context = j ∧ e.offset = r.offset)) :
    Calm s { arrive s j r with
      assertions := s.assertions.orderedInsert AssertionEntry.upTo ⟨j, r.offset, s.clock⟩ }
  | cancels {j : Fin n} {r : Request} (hfiber : s.fiber j = .reading)
      (hmethod : r.method = .blockAssertionCancel) :
    Calm s (finish { arrive s j r with assertions := deleteEntry s.assertions j r.offset } j s.clock
      (cancellation r.offset) false)
  | finishes {j : Fin n} {number : ℕ} {offset : BitVec 64}
      (hfiber : s.fiber j = .notifying number offset []) :
    Calm s (finish s j number ⟨.blockUpdate, offset, .success⟩ false)
  | reaches {j : Fin n} {number : ℕ} {offset : BitVec 64} {e : AssertionEntry n}
      {rest : List (AssertionEntry n)}
      (hfiber : s.fiber j = .notifying number offset (e :: rest)) :
    Calm s { s with
      log := s.log ++ [.response e.context (invalidation e.offset) e.request number]
      fiber := Function.update s.fiber j (.notifying number offset rest) }

theorem finish_released {s : Service n} {j : Fin n} {number : ℕ} {r : Response} {fails : Bool}
    (h : r.status ≠ .success) : (finish s j number r fails).fiber j = .released := by
  simp [finish, h]

/-- In an orderly run nothing is refused, fails or is left. -/
theorem orderly_calm {s t : Service n} {a : Action n} (halive : ∀ j, s.fiber j ≠ .released)
    (h : Orderly s a) (hstep : step s a = some t) :
    (∀ j, t.fiber j ≠ .released) ∧ Calm s t := by
  obtain ⟨-, hmove⟩ := step_move hstep
  obtain ⟨hstays, horder⟩ := h
  have hleft := hstays t hstep
  refine ⟨hleft, ?_⟩
  cases hmove with
  | refuses hfiber hstatus => exact absurd (finish_released hstatus) (hleft _)
  | reduces caps hfiber hmethod =>
    obtain ⟨rfl, -⟩ := horder
    exact .reduces caps hfiber hmethod
  | swapFails hfiber hmethod hswap =>
    obtain ⟨rfl, -⟩ := horder
    exact absurd rfl hswap
  | takes hfiber hmethod => exact .takes hfiber hmethod
  | invalidates hfiber hmethod hother =>
    obtain ⟨rfl, hfree⟩ := horder
    exact .invalidates hfiber hmethod hother (hfree hmethod)
  | waits hfiber hmethod hlatest hfree => exact .waits hfiber hmethod hlatest (horder.2 hmethod)
  | cancels hfiber hmethod hcap hpayload =>
    obtain ⟨rfl, -⟩ := horder
    exact .cancels hfiber hmethod
  | finishes hfiber =>
    obtain rfl := horder
    exact .finishes hfiber
  | dangles hfiber hreleased => exact absurd hreleased (halive _)
  | sendFails hfiber hsend =>
    obtain rfl := horder
    cases hsend
  | reaches hfiber halive => exact .reaches hfiber
  | @closes j hfiber => exact absurd (Function.update_self j _ _) (hleft j)

structure Recorded (s : Service n) : Prop where
  alive : ∀ j, s.fiber j ≠ .released
  numbers : s.log.filterMap numberOf = List.range s.clock
  about_lt : ∀ i r about via, Event.response i r about via ∈ s.log → r.method = .blockAssertion →
    about < s.clock
  latest : s.latestBlockId = latestAfter s.log
  last : ∀ e, Live s e → lastAssertion e.context e.offset s.log = some e.request
  pending : ∀ e ∈ s.assertions, ∃ r, Event.request e.request e.context r ∈ s.log ∧
    r.method = .blockAssertion ∧ r.offset = e.offset ∧ bits 128 r.payload = s.latestBlockId

section Recorded

variable {s t : Service n} {j : Fin n} {r : Request}

theorem number_mem {l : List (Event n)} {k : ℕ} {i : Fin n} (hmem : Event.request k i r ∈ l) :
    k ∈ l.filterMap numberOf :=
  List.mem_filterMap.mpr ⟨.request k i r, hmem, rfl⟩

theorem Recorded.number_lt (h : Recorded s) {k : ℕ} {i : Fin n}
    (hmem : Event.request k i r ∈ s.log) : k < s.clock := by
  have hk := number_mem hmem
  rw [h.numbers, List.mem_range] at hk
  exact hk

theorem Recorded.live_lt (h : Recorded s) {e : AssertionEntry n} (he : Live s e) :
    e.request < s.clock := by
  obtain ⟨r, hmem, -⟩ := mem_of_lastAssertion (h.last e he)
  exact h.number_lt hmem

/-- A number names one request. -/
theorem Recorded.request_unique (h : Recorded s) {k : ℕ} {i i' : Fin n} {r r' : Request}
    {l₁ l₂ : List (Event n)} (hlog : s.log = l₁ ++ .request k i r :: l₂)
    (hmem : Event.request k i' r' ∈ s.log) : i' = i ∧ r' = r := by
  have hnodup : (s.log.filterMap numberOf).Nodup := by
    rw [h.numbers]
    exact List.nodup_range
  rw [hlog, List.filterMap_append, List.filterMap_cons] at hnodup
  have hnot : k ∉ l₁.filterMap numberOf ∧ k ∉ l₂.filterMap numberOf := by
    simp only [numberOf, List.nodup_append, List.nodup_cons] at hnodup
    refine ⟨fun hk => ?_, hnodup.2.1.1⟩
    exact hnodup.2.2 k hk k List.mem_cons_self rfl
  rw [hlog, List.mem_append, List.mem_cons] at hmem
  rcases hmem with hmem | hmem | hmem
  · exact absurd (number_mem hmem) hnot.1
  · injection hmem with _ hi hr
    exact ⟨hi, hr⟩
  · exact absurd (number_mem hmem) hnot.2

/-- A response is logged; entries are only taken away. -/
theorem Recorded.respond (h : Recorded s) {i : Fin n} {q : Response} {about via : ℕ}
    (halive : ∀ j, t.fiber j ≠ .released) (hclock : t.clock = s.clock)
    (hlatest : t.latestBlockId = s.latestBlockId)
    (hlog : t.log = s.log ++ [.response i q about via])
    (habout : q.method = .blockAssertion → about < s.clock) (ha : t.assertions ⊆ s.assertions)
    (hr : ∀ j, (t.fiber j).rest ⊆ (s.fiber j).rest) : Recorded t := by
  refine ⟨halive, ?_, ?_, ?_, ?_, ?_⟩
  · rw [hlog, hclock, List.filterMap_append, h.numbers]
    simp [numberOf]
  · intro i' q' about' via' hmem hmethod
    rw [hlog, List.mem_append, List.mem_singleton] at hmem
    rw [hclock]
    rcases hmem with hmem | hmem
    · exact h.about_lt _ _ _ _ hmem hmethod
    · injection hmem with _ hq heq
      rw [heq]
      rw [hq] at hmethod
      exact habout hmethod
  · rw [hlog, hlatest, h.latest, latestAfter_snoc]
  · intro e he
    rw [hlog, lastAssertion_append, h.last e (live_of_subset ha hr he)]
    rfl
  · intro e he
    obtain ⟨r, hmem, hrest⟩ := h.pending e (ha he)
    refine ⟨r, ?_, ?_⟩
    · rw [hlog]
      exact List.mem_append_left _ hmem
    · rw [hlatest]
      exact hrest

/-- A request that is neither an assertion nor a block update is logged; entries are only taken
away. -/
theorem Recorded.request (h : Recorded s) (halive : ∀ j, t.fiber j ≠ .released)
    (hclock : t.clock = s.clock + 1) (hlatest : t.latestBlockId = s.latestBlockId)
    (hlog : t.log = s.log ++ [.request s.clock j r])
    (hupdate : r.method ≠ .blockUpdate)
    (hlast : r.method = .blockAssertion →
      ∀ e, Live t e → ¬ (e.context = j ∧ e.offset = r.offset))
    (ha : t.assertions ⊆ s.assertions) (hr : ∀ j, (t.fiber j).rest ⊆ (s.fiber j).rest) :
    Recorded t := by
  refine ⟨halive, ?_, ?_, ?_, ?_, ?_⟩
  · rw [hlog, hclock, List.filterMap_append, h.numbers, List.range_succ]
    rfl
  · intro i' q' about' via' hmem hmethod
    rw [hlog, List.mem_append, List.mem_singleton] at hmem
    rw [hclock]
    rcases hmem with hmem | hmem
    · exact (h.about_lt _ _ _ _ hmem hmethod).trans (Nat.lt_succ_self _)
    · cases hmem
  · rw [hlog, hlatest, h.latest, latestAfter_snoc]
    simp [hupdate]
  · intro e he
    have hnone : lastAssertion e.context e.offset [Event.request s.clock j r] = none := by
      rw [lastAssertion_eq_none]
      intro x hx
      rw [List.mem_singleton.mp hx]
      by_cases hmethod : r.method = .blockAssertion
      · have hkey := hlast hmethod e he
        simp only [isAssertion, hmethod, true_and, decide_eq_false_iff_not]
        rintro ⟨rfl, hoffset⟩
        exact hkey ⟨rfl, hoffset.symm⟩
      · simp [isAssertion, hmethod]
    rw [hlog, lastAssertion_append, hnone, h.last e (live_of_subset ha hr he)]
    rfl
  · intro e he
    obtain ⟨r', hmem, hrest⟩ := h.pending e (ha he)
    refine ⟨r', ?_, ?_⟩
    · rw [hlog]
      exact List.mem_append_left _ hmem
    · rw [hlatest]
      exact hrest

theorem Recorded.step (h : Recorded s) (halive : ∀ j, t.fiber j ≠ .released) (hcalm : Calm s t) :
    Recorded t := by
  cases hcalm with
  | @reduces j r caps hfiber hmethod =>
    have hrequest : Recorded { arrive s j r with caps := caps } :=
      h.request h.alive rfl rfl rfl (by simp [hmethod]) (by simp [hmethod])
        (List.Subset.refl _) fun _ => List.Subset.refl _
    exact hrequest.respond halive rfl rfl rfl (fun _ => Nat.lt_succ_self _) (List.Subset.refl _)
      fun j' => rest_finish _ _ _ j'
  | @takes j r hfiber hmethod =>
    have hlive : ∀ e, Live { arrive s j r with
        latestBlockId := bits 128 r.payload
        assertions := []
        fiber := Function.update s.fiber j (.notifying s.clock r.offset s.assertions) } e →
        Live s e := by
      rintro e (he | ⟨j', he⟩)
      · cases he
      · by_cases hj : j' = j
        · subst hj
          simp only [Function.update_self] at he
          exact Or.inl he
        · simp only [Function.update_of_ne hj] at he
          exact Or.inr ⟨j', he⟩
    refine ⟨halive, ?_, ?_, ?_, ?_, ?_⟩
    · show (s.log ++ [_]).filterMap numberOf = _
      rw [List.filterMap_append, h.numbers, arrive, List.range_succ]
      rfl
    · intro i q about via hmem hq
      rcases List.mem_append.mp hmem with hmem | hmem
      · exact (h.about_lt _ _ _ _ hmem hq).trans (Nat.lt_succ_self _)
      · simp at hmem
    · show _ = latestAfter (s.log ++ [_])
      rw [latestAfter_snoc]
      simp [hmethod]
    · intro e he
      show lastAssertion e.context e.offset (s.log ++ [_]) = _
      have hnone : lastAssertion e.context e.offset [Event.request s.clock j r] = none := by
        simp [lastAssertion, assertionNumber, hmethod]
      rw [lastAssertion_append, hnone, h.last e (hlive e he)]
      rfl
    · intro e he
      cases he
  | @invalidates j r hfiber hmethod hother hfree =>
    have hrequest : Recorded (arrive s j r) :=
      h.request h.alive rfl rfl rfl (by simp [hmethod]) (fun _ => hfree)
        (List.Subset.refl _) fun _ => List.Subset.refl _
    exact hrequest.respond halive rfl rfl rfl (fun _ => Nat.lt_succ_self _) (List.Subset.refl _)
      fun j' => rest_finish _ _ _ j'
  | @waits j r hfiber hmethod hlatest hfree =>
    have hrequest : Recorded (arrive s j r) :=
      h.request h.alive rfl rfl rfl (by simp [hmethod]) (fun _ => hfree)
        (List.Subset.refl _) fun _ => List.Subset.refl _
    refine ⟨halive, hrequest.numbers, hrequest.about_lt, hrequest.latest, ?_, ?_⟩
    · rintro e (he | he)
      · rcases (List.mem_orderedInsert _).mp he with rfl | he
        · show lastAssertion j r.offset (s.log ++ [_]) = _
          rw [lastAssertion_append]
          simp [lastAssertion, assertionNumber, hmethod]
        · exact hrequest.last e (Or.inl he)
      · exact hrequest.last e (Or.inr he)
    · intro e he
      rcases (List.mem_orderedInsert _).mp he with rfl | he
      · exact ⟨r, by simp [arrive], hmethod, rfl, hlatest⟩
      · exact hrequest.pending e he
  | @cancels j r hfiber hmethod =>
    have hrequest : Recorded
        { arrive s j r with assertions := deleteEntry s.assertions j r.offset } :=
      h.request h.alive rfl rfl rfl (by simp [hmethod]) (by simp [hmethod])
        (List.filter_subset_self _) fun _ => List.Subset.refl _
    exact hrequest.respond halive rfl rfl rfl (fun _ => Nat.lt_succ_self _) (List.Subset.refl _)
      fun j' => rest_finish _ _ _ j'
  | @finishes j number offset hfiber =>
    exact h.respond halive rfl rfl rfl (by simp) (List.Subset.refl _)
      fun j' => rest_finish _ _ _ j'
  | @reaches j number offset e rest hfiber =>
    refine h.respond halive rfl rfl rfl (fun _ => ?_) (List.Subset.refl _)
      fun j' => rest_reached hfiber j'
    exact h.live_lt (Or.inr ⟨j, by rw [hfiber]; exact List.mem_cons_self⟩)

end Recorded

/-! ### What becomes of an assertion -/

def held (k : ℕ) (entries : List (AssertionEntry n)) : List (AssertionEntry n) :=
  entries.filter fun e => e.request = k

def updateNumber : Fiber n → Option ℕ
  | .notifying number _ _ => some number
  | _ => none

def Gone (s : Service n) (k : ℕ) : Prop :=
  held k s.assertions = [] ∧ ∀ j, held k (s.fiber j).rest = []

/-- Where the entry of an assertion is and how it was answered, given what decided about it. -/
inductive Fate (s : Service n) (k : ℕ) (i : Fin n) (offset : BitVec 64) :
    Option Decision → List (Event n) → Prop
  | pending (htree : held k s.assertions = [⟨i, offset, k⟩])
      (hrest : ∀ j, held k (s.fiber j).rest = []) : Fate s k i offset none []
  | cancelled (hgone : Gone s k) : Fate s k i offset (some .cancelled) []
  | answered (u : ℕ) (hgone : Gone s k) :
    Fate s k i offset (some (.updated u)) [.response i (invalidation offset) k u]
  | underway {u : ℕ} {j : Fin n} (htree : held k s.assertions = [])
      (hupdate : updateNumber (s.fiber j) = some u)
      (hheld : held k (s.fiber j).rest = [⟨i, offset, k⟩])
      (hrest : ∀ j', j' ≠ j → held k (s.fiber j').rest = []) :
    Fate s k i offset (some (.updated u)) []

structure Tracked (s : Service n) (k : ℕ) (i : Fin n) (r : Request) (l₁ l₂ : List (Event n)) :
    Prop where
  tagged : answersAbout k s.log = answersTo i r.offset l₂
  atOnce : bits 128 r.payload ≠ latestAfter l₁ → Gone s k ∧
    answersTo i r.offset l₂ = [.response i (invalidation r.offset) k k] ∧
    l₂.head? = some (.response i (invalidation r.offset) k k)
  waits : bits 128 r.payload = latestAfter l₁ →
    Fate s k i r.offset (decision i r.offset l₂) (answersTo i r.offset l₂)

structure Kept (k : ℕ) (s t : Service n) : Prop where
  tree : held k t.assertions = held k s.assertions
  rest : ∀ j, held k (t.fiber j).rest = held k (s.fiber j).rest
  update : ∀ j, held k (s.fiber j).rest ≠ [] → updateNumber (t.fiber j) = updateNumber (s.fiber j)

section Fates

variable {s t : Service n} {k : ℕ} {i j : Fin n} {offset : BitVec 64} {r : Request}
  {l₁ l₂ : List (Event n)} {d : Option Decision} {as : List (Event n)} {e : Event n}

theorem Kept.gone (h : Kept k s t) (hgone : Gone s k) : Gone t k := by
  constructor
  · rw [h.tree]
    exact hgone.1
  · intro j
    rw [h.rest]
    exact hgone.2 j

theorem Fate.kept (h : Fate s k i offset d as) (hkept : Kept k s t) : Fate t k i offset d as := by
  have hrest : ∀ j, held k (s.fiber j).rest = [] → held k (t.fiber j).rest = [] := by
    intro j hj
    rw [hkept.rest]
    exact hj
  cases h with
  | pending htree hnone =>
    refine .pending ?_ fun j => hrest j (hnone j)
    rw [hkept.tree]
    exact htree
  | cancelled hgone => exact .cancelled (hkept.gone hgone)
  | answered u hgone => exact .answered u (hkept.gone hgone)
  | @underway u j htree hupdate hheld hnone =>
    refine .underway (j := j) ?_ ?_ ?_ fun j' hj' => hrest j' (hnone j' hj')
    · rw [hkept.tree]
      exact htree
    · rw [hkept.update j (by simp [hheld])]
      exact hupdate
    · rw [hkept.rest]
      exact hheld

/-- An event that is no answer to the assertion. -/
theorem Tracked.snoc (h : Tracked s k i r l₁ l₂) (hlog : t.log = s.log ++ [e])
    (habout : isAbout k e = false)
    (hanswer : answersTo i r.offset (l₂ ++ [e]) = answersTo i r.offset l₂)
    (hgone : Gone s k → Gone t k)
    (hfate : ∀ as, Fate s k i r.offset (decision i r.offset l₂) as →
      Fate t k i r.offset (decision i r.offset (l₂ ++ [e])) as) :
    Tracked t k i r l₁ (l₂ ++ [e]) := by
  refine ⟨?_, ?_, ?_⟩
  · rw [hlog, answersAbout_snoc, habout, hanswer, h.tagged]
    simp
  · intro hb
    obtain ⟨hno, hanswers, hfirst⟩ := h.atOnce hb
    rw [hanswer, List.head?_append, hfirst]
    exact ⟨hgone hno, hanswers, rfl⟩
  · intro hb
    rw [hanswer]
    exact hfate _ (h.waits hb)

/-- An event that neither answers nor decides. -/
theorem Tracked.snoc_kept (h : Tracked s k i r l₁ l₂) (hkept : Kept k s t)
    (hlog : t.log = s.log ++ [e]) (habout : isAbout k e = false)
    (hanswer : answersTo i r.offset (l₂ ++ [e]) = answersTo i r.offset l₂)
    (hdecides : decides i r.offset e = none) : Tracked t k i r l₁ (l₂ ++ [e]) := by
  refine h.snoc hlog habout hanswer hkept.gone ?_
  intro as hfate
  have hsame : decision i r.offset (l₂ ++ [e]) = decision i r.offset l₂ := by
    rw [decision_snoc, hdecides, Option.or_none]
  rw [hsame]
  exact hfate.kept hkept

/-- The report of a request other than an assertion. -/
theorem Tracked.report (h : Tracked s k i r l₁ l₂) (hkept : Kept k s t) {q : Response}
    {about via : ℕ} (hlog : t.log = s.log ++ [.response j q about via])
    (hq : q.method ≠ .blockAssertion) :
    Tracked t k i r l₁ (l₂ ++ [.response j q about via]) := by
  refine h.snoc_kept hkept hlog (by simp [isAbout, hq]) ?_ rfl
  apply answersTo_snoc_other
  simp only [isInvalidation, decide_eq_false_iff_not, not_and]
  rintro - rfl
  exact hq rfl

theorem kept_fiber (htree : held k t.assertions = held k s.assertions)
    (hfiber : t.fiber = s.fiber) :
    Kept k s t :=
  ⟨htree, fun j => by rw [hfiber], fun j _ => by rw [hfiber]⟩

/-- One fiber goes on. -/
theorem kept_update {x : Fiber n} (htree : held k t.assertions = held k s.assertions)
    (hfiber : t.fiber = Function.update s.fiber j x) (hx : held k x.rest = held k (s.fiber j).rest)
    (hupdate : held k x.rest ≠ [] → updateNumber x = updateNumber (s.fiber j)) : Kept k s t := by
  refine ⟨htree, fun j' => ?_, fun j' hne => ?_⟩
  · rw [hfiber]
    by_cases hj : j' = j
    · subst hj
      rw [Function.update_self, hx]
    · rw [Function.update_of_ne hj]
  · rw [hfiber]
    by_cases hj : j' = j
    · subst hj
      rw [Function.update_self]
      rw [← hx] at hne
      exact hupdate hne
    · rw [Function.update_of_ne hj]

theorem held_orderedInsert {x : AssertionEntry n} (l : List (AssertionEntry n))
    (hx : x.request ≠ k) : held k (l.orderedInsert AssertionEntry.upTo x) = held k l := by
  induction l with
  | nil => simp [held, hx]
  | cons y l ih =>
    rw [List.orderedInsert_cons]
    split
    · simp [held, hx]
    · rw [held, List.filter_cons, held, List.filter_cons]
      rw [held] at ih
      rw [ih]
      rfl

theorem held_orderedInsert_self {x : AssertionEntry n} {l : List (AssertionEntry n)}
    (hl : held x.request l = []) :
    held x.request (l.orderedInsert AssertionEntry.upTo x) = [x] := by
  have hperm : List.Perm (held x.request (l.orderedInsert AssertionEntry.upTo x))
      (held x.request (x :: l)) := (List.perm_orderedInsert _ x l).filter _
  have hcons : held x.request (x :: l) = [x] := by
    rw [held, List.filter_cons, if_pos (by simp)]
    rw [held] at hl
    rw [hl]
  rw [hcons] at hperm
  exact List.perm_singleton.mp hperm

theorem held_deleteEntry (l : List (AssertionEntry n)) (j : Fin n) (offset : BitVec 64) :
    held k (deleteEntry l j offset) = deleteEntry (held k l) j offset := by
  rw [held, deleteEntry, deleteEntry, held, List.filter_filter, List.filter_filter]
  congr 1
  funext x
  exact Bool.and_comm _ _

/-- A request other than a block update that leaves the entries alone. -/
theorem Tracked.request (h : Tracked s k i r l₁ l₂) (hkept : Kept k s t) {q : Request} {number : ℕ}
    (hlog : t.log = s.log ++ [.request number j q]) (hupdate : q.method ≠ .blockUpdate)
    (hcancel : ¬ (q.method = .blockAssertionCancel ∧ j = i ∧ q.offset = r.offset)) :
    Tracked t k i r l₁ (l₂ ++ [.request number j q]) := by
  refine h.snoc_kept hkept hlog rfl (answersTo_snoc_other rfl) ?_
  rw [decides, if_neg hupdate, if_neg hcancel]

/-- A block update takes the entry, if it still waits. -/
theorem Tracked.takes {q : Request} (h : Tracked s k i r l₁ l₂) (hfiber : s.fiber j = .reading)
    (hq : q.method = .blockUpdate) :
    Tracked { arrive s j q with
      latestBlockId := bits 128 q.payload
      assertions := []
      fiber := Function.update s.fiber j (.notifying s.clock q.offset s.assertions) }
      k i r l₁ (l₂ ++ [.request s.clock j q]) := by
  have hidle : held k (s.fiber j).rest = [] := by
    rw [hfiber]
    rfl
  have hkept : held k s.assertions = [] → Kept k s { arrive s j q with
      latestBlockId := bits 128 q.payload
      assertions := []
      fiber := Function.update s.fiber j (.notifying s.clock q.offset s.assertions) } :=
    fun htree => kept_update htree.symm rfl (htree.trans hidle.symm) fun hne => absurd htree hne
  refine h.snoc rfl rfl (answersTo_snoc_other rfl) (fun hgone => (hkept hgone.1).gone hgone) ?_
  intro as hfate
  rw [decision_snoc]
  generalize decision i r.offset l₂ = d at hfate
  cases hfate with
  | pending htree hrest =>
    have hdecides : decides i r.offset (.request s.clock j q) = some (.updated s.clock) := by
      rw [decides, if_pos hq]
    rw [hdecides]
    refine .underway (j := j) rfl ?_ ?_ ?_
    · simp only [Function.update_self]
      rfl
    · simp only [Function.update_self]
      exact htree
    · intro j' hj'
      simp only [Function.update_of_ne hj']
      exact hrest j'
  | cancelled hgone => exact .cancelled ((hkept hgone.1).gone hgone)
  | answered u hgone => exact .answered u ((hkept hgone.1).gone hgone)
  | underway htree hf hheld hrest =>
    exact (Fate.underway htree hf hheld hrest).kept (hkept htree)

/-- A cancel deletes the entry, if it still waits. -/
theorem Tracked.cancels {q : Request} (h : Tracked s k i r l₁ l₂)
    (hq : q.method = .blockAssertionCancel) :
    Tracked { arrive s j q with assertions := deleteEntry s.assertions j q.offset } k i r l₁
      (l₂ ++ [.request s.clock j q]) := by
  have hupdate : q.method ≠ .blockUpdate := by simp [hq]
  have hempty : held k s.assertions = [] → Kept k s
      { arrive s j q with assertions := deleteEntry s.assertions j q.offset } := by
    intro htree
    refine kept_fiber ?_ rfl
    rw [held_deleteEntry, htree]
    rfl
  refine h.snoc rfl rfl (answersTo_snoc_other rfl) (fun hgone => (hempty hgone.1).gone hgone) ?_
  intro as hfate
  rw [decision_snoc]
  generalize decision i r.offset l₂ = d at hfate
  cases hfate with
  | pending htree hrest =>
    by_cases hkey : j = i ∧ q.offset = r.offset
    · have hdecides : decides i r.offset (.request s.clock j q) = some .cancelled := by
        rw [decides, if_neg hupdate, if_pos ⟨hq, hkey⟩]
      rw [hdecides]
      refine .cancelled ⟨?_, hrest⟩
      rw [held_deleteEntry, htree]
      simp [deleteEntry, hkey.1, hkey.2]
    · have hother : ¬ i = j ∨ ¬ r.offset = q.offset :=
        not_and_or.mp fun hc => hkey ⟨hc.1.symm, hc.2.symm⟩
      have hdecides : decides i r.offset (.request s.clock j q) = none := by
        rw [decides, if_neg hupdate, if_neg fun hc => hkey hc.2]
      rw [hdecides]
      refine .pending ?_ hrest
      rw [held_deleteEntry, htree]
      simpa [deleteEntry] using hother
  | cancelled hgone => exact .cancelled ((hempty hgone.1).gone hgone)
  | answered u hgone => exact .answered u ((hempty hgone.1).gone hgone)
  | underway htree hf hheld hrest =>
    exact (Fate.underway htree hf hheld hrest).kept (hempty htree)

/-- The assertion is the last one of its offset exactly when none is behind it. -/
theorem Recorded.last_iff_open (hrec : Recorded s) (hlog : s.log = l₁ ++ .request k i r :: l₂)
    (hr : r.method = .blockAssertion) :
    lastAssertion i r.offset s.log = some k ↔ ∀ x ∈ l₂, isAssertion i r.offset x = false := by
  have hself : lastAssertion i r.offset (l₁ ++ [Event.request k i r]) = some k := by
    rw [lastAssertion_append]
    simp [lastAssertion, assertionNumber, hr]
  have hsplit : s.log = (l₁ ++ [.request k i r]) ++ l₂ := by
    rw [hlog, List.append_assoc]
    rfl
  rw [← lastAssertion_eq_none, hsplit, lastAssertion_append, hself]
  cases hl : lastAssertion i r.offset l₂ with
  | none => simp
  | some k' =>
    have hne : k' ≠ k := by
      rintro rfl
      obtain ⟨r', hmem, -⟩ := mem_of_lastAssertion hl
      have hnodup : (s.log.filterMap numberOf).Nodup := by
        rw [hrec.numbers]
        exact List.nodup_range
      rw [hlog, List.filterMap_append, List.filterMap_cons, List.nodup_append] at hnodup
      simp only [numberOf, List.nodup_cons] at hnodup
      exact hnodup.2.1.1 (number_mem hmem)
    simp [hne]

/-- An entry of the assertion has its instance and offset. -/
theorem Recorded.entry_of_request (hrec : Recorded s) (hlog : s.log = l₁ ++ .request k i r :: l₂)
    {x : AssertionEntry n} (hx : Live s x) (hk : x.request = k) :
    x = ⟨i, r.offset, k⟩ := by
  obtain ⟨r', hmem, -, hoffset⟩ := mem_of_lastAssertion (hrec.last x hx)
  rw [hk] at hmem
  obtain ⟨hi, rfl⟩ := hrec.request_unique hlog hmem
  rw [hoffset, ← hi, ← hk]

/-- Its own entry is reached by the block update that took it. -/
theorem Tracked.reached (hrec : Recorded s) (hlog : s.log = l₁ ++ .request k i r :: l₂)
    (hr : r.method = .blockAssertion) (h : Tracked s k i r l₁ l₂) {number : ℕ}
    {rest : List (AssertionEntry n)}
    (hfiber : s.fiber j = .notifying number offset (⟨i, r.offset, k⟩ :: rest)) :
    Tracked { s with
      log := s.log ++ [.response i (invalidation r.offset) k number]
      fiber := Function.update s.fiber j (.notifying number offset rest) }
      k i r l₁ (l₂ ++ [.response i (invalidation r.offset) k number]) := by
  have hx : Live s ⟨i, r.offset, k⟩ := Or.inr ⟨j, by rw [hfiber]; exact List.mem_cons_self⟩
  have hheld : held k (s.fiber j).rest ≠ [] := by
    rw [hfiber]
    simp [Fiber.rest, held]
  have hopen := (hrec.last_iff_open hlog hr).mp (hrec.last _ hx)
  have hanswer := answersTo_snoc_open hopen
    (e := .response i (invalidation r.offset) k number) (by simp [isInvalidation])
  refine ⟨?_, ?_, ?_⟩
  · rw [answersAbout_snoc, hanswer, h.tagged]
    simp [isAbout, invalidation]
  · intro hb
    obtain ⟨hgone, -⟩ := h.atOnce hb
    exact absurd (hgone.2 j) hheld
  · intro hb
    have hfate := h.waits hb
    rw [hanswer, decision_snoc]
    generalize decision i r.offset l₂ = d at hfate
    generalize answersTo i r.offset l₂ = as at hfate
    cases hfate with
    | pending htree hrest => exact absurd (hrest j) hheld
    | cancelled hgone => exact absurd (hgone.2 j) hheld
    | answered u hgone => exact absurd (hgone.2 j) hheld
    | @underway u j₀ htree hupdate hown hrest =>
      have hj : j = j₀ := by
        by_contra hne
        exact hheld (hrest j hne)
      subst hj
      rw [hfiber] at hupdate hown
      have hnumber : number = u := Option.some.inj hupdate
      have hnone : held k rest = [] := by
        have hcons : held k ((⟨i, r.offset, k⟩ : AssertionEntry n) :: rest) =
            ⟨i, r.offset, k⟩ :: held k rest := by
          simp [held]
        rw [Fiber.rest, hcons] at hown
        exact List.tail_eq_of_cons_eq hown
      rw [hnumber]
      refine .answered u ⟨htree, fun j' => ?_⟩
      by_cases hj' : j' = j
      · subst hj'
        simp only [Function.update_self]
        exact hnone
      · simp only [Function.update_of_ne hj']
        exact hrest j' hj'

/-- Another entry is reached. -/
theorem Tracked.passed (hrec : Recorded s) (hlog : s.log = l₁ ++ .request k i r :: l₂)
    (hr : r.method = .blockAssertion) (h : Tracked s k i r l₁ l₂) {number : ℕ}
    {x : AssertionEntry n} {rest : List (AssertionEntry n)}
    (hfiber : s.fiber j = .notifying number offset (x :: rest)) (hx : x.request ≠ k) :
    Tracked { s with
      log := s.log ++ [.response x.context (invalidation x.offset) x.request number]
      fiber := Function.update s.fiber j (.notifying number offset rest) }
      k i r l₁ (l₂ ++ [.response x.context (invalidation x.offset) x.request number]) := by
  have hlive : Live s x := Or.inr ⟨j, by rw [hfiber]; exact List.mem_cons_self⟩
  have hkept : Kept k s { s with
      log := s.log ++ [.response x.context (invalidation x.offset) x.request number]
      fiber := Function.update s.fiber j (.notifying number offset rest) } := by
    refine kept_update rfl rfl ?_ fun _ => ?_
    · rw [hfiber]
      simp [Fiber.rest, held, hx]
    · rw [hfiber]
      rfl
  refine h.snoc_kept hkept rfl (by simp [isAbout, hx]) ?_ rfl
  by_cases hkey : x.context = i ∧ x.offset = r.offset
  · apply answersTo_snoc_closed
    by_contra hnone
    have hopen : ∀ y ∈ l₂, isAssertion i r.offset y = false := by
      intro y hy
      by_contra hassert
      exact hnone ⟨y, hy, by simpa using hassert⟩
    have hlast := (hrec.last_iff_open hlog hr).mpr hopen
    rw [← hkey.1, ← hkey.2, hrec.last x hlive] at hlast
    exact hx (Option.some.inj hlast)
  · apply answersTo_snoc_other
    simp only [isInvalidation, decide_eq_false_iff_not]
    rintro ⟨hi, hoffset⟩
    injection hoffset with _ hoffset
    exact hkey ⟨hi, hoffset⟩

end Fates

/-! ### Runs -/

def AllTracked (s : Service n) : Prop :=
  ∀ k i r l₁ l₂, s.log = l₁ ++ .request k i r :: l₂ → r.method = .blockAssertion →
    Tracked s k i r l₁ l₂

section Runs

variable {s t : Service n} {j : Fin n} {r : Request} {e : Event n}

/-- One more event: what it does to the assertions before it, and what it begins. -/
theorem AllTracked.snoc (h : AllTracked s) (hlog : t.log = s.log ++ [e])
    (hnew : ∀ k i q, e = .request k i q → q.method = .blockAssertion → Tracked t k i q s.log [])
    (hold : ∀ k i q l₁ l₂, s.log = l₁ ++ .request k i q :: l₂ → q.method = .blockAssertion →
      Tracked s k i q l₁ l₂ → Tracked t k i q l₁ (l₂ ++ [e])) : AllTracked t := by
  intro k i q l₁ l₂ heq hq
  rw [hlog] at heq
  rcases snoc_eq_append_cons heq with ⟨rfl, he, rfl⟩ | ⟨l₂', rfl, hbefore⟩
  · exact hnew k i q he.symm hq
  · exact hold k i q l₁ l₂' hbefore hq (h k i q l₁ l₂' hbefore hq)

/-- The report of a request other than an assertion, by a fiber that has no entries. -/
theorem AllTracked.finish (h : AllTracked s) (hidle : (s.fiber j).rest = []) {number : ℕ}
    {q : Response} (hq : q.method ≠ .blockAssertion) (hok : q.status = .success) :
    AllTracked (finish s j number q false) := by
  refine h.snoc rfl (by simp) fun k i p l₁ l₂ _ _ htracked => ?_
  have hkept : Kept k s (NotificationFibers.finish s j number q false) := by
    refine kept_update rfl rfl ?_ ?_
    · rw [hidle]
      simp [hok, Fiber.rest]
    · simp [hok, Fiber.rest, held]
  exact htracked.report hkept rfl hq

theorem answersAbout_clock (hrec : Recorded s) : answersAbout s.clock s.log = [] := by
  rw [answersAbout, List.filter_eq_nil_iff]
  intro x hx habout
  cases x with
  | request number i q => cases habout
  | response i q about via =>
    simp only [isAbout, decide_eq_true_eq] at habout
    have hlt := hrec.about_lt i q about via hx habout.1
    omega

theorem gone_clock (hrec : Recorded s) : Gone s s.clock := by
  have hnone : ∀ l : List (AssertionEntry n), (∀ x ∈ l, Live s x) → held s.clock l = [] := by
    intro l hl
    rw [held, List.filter_eq_nil_iff]
    intro x hx heq
    have hlt := hrec.live_lt (hl x hx)
    simp only [decide_eq_true_eq] at heq
    omega
  exact ⟨hnone _ fun x hx => Or.inl hx, fun j => hnone _ fun x hx => Or.inr ⟨j, hx⟩⟩

theorem AllTracked.reduces (h : AllTracked s) (caps : Fin n → BitVec 32)
    (hfiber : s.fiber j = .reading) (hr : r.method = .reduceCaps) :
    AllTracked (NotificationFibers.finish { arrive s j r with caps := caps } j s.clock
      ⟨.reduceCaps, r.offset, .success⟩ false) := by
  have hkept : ∀ k, Kept k s { arrive s j r with caps := caps } := fun _ => kept_fiber rfl rfl
  have hrequest : AllTracked { arrive s j r with caps := caps } := by
    refine h.snoc rfl ?_ fun k i q l₁ l₂ _ _ htracked =>
      htracked.request (hkept k) rfl (by simp [hr]) (by simp [hr])
    intro k i q heq hq
    injection heq with _ _ hrq
    rw [← hrq, hr] at hq
    cases hq
  refine hrequest.finish ?_ (by simp) rfl
  show (s.fiber j).rest = []
  rw [hfiber]
  rfl

theorem AllTracked.takes (h : AllTracked s) (hfiber : s.fiber j = .reading)
    (hr : r.method = .blockUpdate) :
    AllTracked { arrive s j r with
      latestBlockId := bits 128 r.payload
      assertions := []
      fiber := Function.update s.fiber j (.notifying s.clock r.offset s.assertions) } := by
  refine h.snoc rfl ?_ fun k i q l₁ l₂ _ _ htracked => htracked.takes hfiber hr
  intro k i q heq hq
  injection heq with _ _ hrq
  rw [← hrq, hr] at hq
  cases hq

theorem AllTracked.cancels (h : AllTracked s) (hfiber : s.fiber j = .reading)
    (hr : r.method = .blockAssertionCancel) :
    AllTracked (NotificationFibers.finish
      { arrive s j r with assertions := deleteEntry s.assertions j r.offset } j s.clock
      (cancellation r.offset) false) := by
  have hrequest : AllTracked
      { arrive s j r with assertions := deleteEntry s.assertions j r.offset } := by
    refine h.snoc rfl ?_ fun k i q l₁ l₂ _ _ htracked => htracked.cancels hr
    intro k i q heq hq
    injection heq with _ _ hrq
    rw [← hrq, hr] at hq
    cases hq
  refine hrequest.finish ?_ (by simp [cancellation]) rfl
  show (s.fiber j).rest = []
  rw [hfiber]
  rfl

/-- A new assertion waits. -/
theorem AllTracked.waits (hrec : Recorded s) (h : AllTracked s) (hr : r.method = .blockAssertion)
    (hlatest : bits 128 r.payload = s.latestBlockId) :
    AllTracked { arrive s j r with
      assertions := s.assertions.orderedInsert AssertionEntry.upTo ⟨j, r.offset, s.clock⟩ } := by
  have hkept : ∀ k, s.clock ≠ k → Kept k s { arrive s j r with
      assertions := s.assertions.orderedInsert AssertionEntry.upTo ⟨j, r.offset, s.clock⟩ } :=
    fun k hne => kept_fiber (held_orderedInsert s.assertions hne) rfl
  refine h.snoc rfl ?_ ?_
  · intro k i q heq hq
    cases heq
    refine ⟨?_, ?_, ?_⟩
    · show answersAbout s.clock (s.log ++ [_]) = []
      rw [answersAbout_snoc, answersAbout_clock hrec]
      rfl
    · intro hb
      rw [hlatest, hrec.latest] at hb
      exact absurd rfl hb
    · intro _
      obtain ⟨htree, hrest⟩ := gone_clock hrec
      have hself : held s.clock (s.assertions.orderedInsert AssertionEntry.upTo
          ⟨j, r.offset, s.clock⟩) = [⟨j, r.offset, s.clock⟩] :=
        held_orderedInsert_self (x := ⟨j, r.offset, s.clock⟩) htree
      exact .pending hself hrest
  · intro k i q l₁ l₂ hbefore hq htracked
    have hmem : Event.request k i q ∈ s.log := by
      rw [hbefore]
      simp
    have hlt : k < s.clock := hrec.number_lt hmem
    have hne : s.clock ≠ k := by omega
    exact htracked.request (hkept k hne) rfl (by simp [hr]) (by simp [hr])

/-- A new assertion is answered at once. -/
theorem AllTracked.invalidates (hrec : Recorded s) (h : AllTracked s)
    (hfiber : s.fiber j = .reading) (hr : r.method = .blockAssertion)
    (hother : bits 128 r.payload ≠ s.latestBlockId) :
    AllTracked (NotificationFibers.finish (arrive s j r) j s.clock
      (invalidation r.offset) false) := by
  have hidle : ∀ k, Kept k (arrive s j r)
      (NotificationFibers.finish (arrive s j r) j s.clock (invalidation r.offset) false) := by
    intro k
    refine kept_update rfl rfl ?_ ?_
    · show held k _ = held k (s.fiber j).rest
      rw [hfiber]
      rfl
    · intro hne
      exact absurd rfl hne
  intro k i q l₁ l₂ heq hq
  have hlog : (NotificationFibers.finish (arrive s j r) j s.clock
      (invalidation r.offset) false).log =
      (s.log ++ [.request s.clock j r]) ++ [.response j (invalidation r.offset) s.clock s.clock] :=
        rfl
  rw [hlog] at heq
  rcases snoc_eq_append_cons heq with ⟨-, he, -⟩ | ⟨l₂', rfl, harrival⟩
  · cases he
  rcases snoc_eq_append_cons harrival with ⟨rfl, he, rfl⟩ | ⟨l₃, rfl, hbefore⟩
  · -- the assertion itself: its response stands right behind it
    cases he
    have hanswers : answersTo j r.offset
        ([] ++ [Event.response j (invalidation r.offset) s.clock s.clock]) =
        [.response j (invalidation r.offset) s.clock s.clock] := by
      rw [answersTo_snoc_open (by simp) (by simp [isInvalidation])]
      rfl
    refine ⟨?_, ?_, ?_⟩
    · rw [hlog, hanswers, answersAbout_snoc, answersAbout_snoc, answersAbout_clock hrec]
      simp [isAbout, invalidation]
    · intro _
      have hgone : Gone (arrive s j r) s.clock := gone_clock hrec
      exact ⟨(hidle _).gone hgone, hanswers, rfl⟩
    · intro hb
      rw [← hrec.latest] at hb
      exact absurd hb hother
  · -- an earlier one: the new assertion stands between it and the response
    have hmem : Event.request k i q ∈ s.log := by
      rw [hbefore]
      simp
    have hlt : k < s.clock := hrec.number_lt hmem
    have hne : s.clock ≠ k := by omega
    have harrived : Kept k s (arrive s j r) := kept_fiber rfl rfl
    have hrequest : Tracked (arrive s j r) k i q l₁ (l₃ ++ [.request s.clock j r]) :=
      (h k i q l₁ l₃ hbefore hq).request harrived rfl (by simp [hr]) (by simp [hr])
    refine hrequest.snoc_kept (hidle k) rfl (by simp [isAbout, hne]) ?_ rfl
    by_cases hkey : j = i ∧ r.offset = q.offset
    · apply answersTo_snoc_closed
      exact ⟨.request s.clock j r, by simp, by simp [isAssertion, hr, hkey.1, hkey.2]⟩
    · apply answersTo_snoc_other
      simp only [isInvalidation, decide_eq_false_iff_not]
      rintro ⟨hi, hoffset⟩
      injection hoffset with _ hoffset
      exact hkey ⟨hi, hoffset⟩

theorem AllTracked.reaches (hrec : Recorded s) (h : AllTracked s) {number : ℕ} {offset : BitVec 64}
    {x : AssertionEntry n} {rest : List (AssertionEntry n)}
    (hfiber : s.fiber j = .notifying number offset (x :: rest)) :
    AllTracked { s with
      log := s.log ++ [.response x.context (invalidation x.offset) x.request number]
      fiber := Function.update s.fiber j (.notifying number offset rest) } := by
  have hlive : Live s x := Or.inr ⟨j, by rw [hfiber]; exact List.mem_cons_self⟩
  refine h.snoc rfl (by simp) ?_
  intro k i q l₁ l₂ hbefore hq htracked
  by_cases hx : x.request = k
  · obtain rfl := hrec.entry_of_request hbefore hlive hx
    exact htracked.reached hrec hbefore hq hfiber
  · exact htracked.passed hrec hbefore hq hfiber hx

theorem AllTracked.step (hrec : Recorded s) (h : AllTracked s) (hcalm : Calm s t) :
    AllTracked t := by
  cases hcalm with
  | reduces caps hfiber hr => exact h.reduces caps hfiber hr
  | takes hfiber hr => exact h.takes hfiber hr
  | invalidates hfiber hr hother hfree => exact h.invalidates hrec hfiber hr hother
  | waits hfiber hr hlatest hfree => exact h.waits hrec hr hlatest
  | cancels hfiber hr => exact h.cancels hfiber hr
  | finishes hfiber => exact h.finish (by rw [hfiber]; rfl) (by simp) rfl
  | reaches hfiber => exact h.reaches hrec hfiber

end Runs

/-! ### Answers -/

/-- What the log says about an assertion, up to where it is asserted again: the invalidations of its
offset on its instance are the responses to it, there is one at once when it is not about the latest
block, and otherwise the first cancel or block update behind it decides. -/
structure Answered (s : Service n) (k : ℕ) (i : Fin n) (r : Request) (l₁ l₂ : List (Event n)) :
    Prop where
  own : answersAbout k s.log = answersTo i r.offset l₂
  atOnce : bits 128 r.payload ≠ latestAfter l₁ →
    answersTo i r.offset l₂ = [.response i (invalidation r.offset) k k] ∧
    l₂.head? = some (.response i (invalidation r.offset) k k)
  pending : bits 128 r.payload = latestAfter l₁ → decision i r.offset l₂ = none →
    answersTo i r.offset l₂ = [] ∧ ⟨i, r.offset, k⟩ ∈ s.assertions
  cancelled : bits 128 r.payload = latestAfter l₁ → decision i r.offset l₂ = some .cancelled →
    answersTo i r.offset l₂ = []
  updated : ∀ u, bits 128 r.payload = latestAfter l₁ →
    decision i r.offset l₂ = some (.updated u) →
    answersTo i r.offset l₂ = [.response i (invalidation r.offset) k u] ∨
    (answersTo i r.offset l₂ = [] ∧ ∃ j offset rest, s.fiber j = .notifying u offset rest ∧
      ⟨i, r.offset, k⟩ ∈ rest)

theorem mem_of_held {k : ℕ} {l : List (AssertionEntry n)} {x : AssertionEntry n}
    (h : held k l = [x]) : x ∈ l := by
  have hmem : x ∈ held k l := by
    rw [h]
    exact List.mem_singleton_self x
  exact (List.mem_filter.mp hmem).1

theorem Tracked.answered {s : Service n} {k : ℕ} {i : Fin n} {r : Request} {l₁ l₂ : List (Event n)}
    (h : Tracked s k i r l₁ l₂) : Answered s k i r l₁ l₂ := by
  refine ⟨h.tagged, fun hb => (h.atOnce hb).2, ?_, ?_, ?_⟩
  · intro hb hd
    have hfate := h.waits hb
    rw [hd] at hfate
    generalize answersTo i r.offset l₂ = as at hfate
    cases hfate with
    | pending htree hrest => exact ⟨rfl, mem_of_held htree⟩
  · intro hb hd
    have hfate := h.waits hb
    rw [hd] at hfate
    generalize answersTo i r.offset l₂ = as at hfate
    cases hfate with
    | cancelled hgone => rfl
  · intro u hb hd
    have hfate := h.waits hb
    rw [hd] at hfate
    generalize answersTo i r.offset l₂ = as at hfate
    cases hfate with
    | answered u hgone => exact Or.inl rfl
    | @underway u j htree hupdate hheld hrest =>
      refine Or.inr ⟨rfl, j, ?_⟩
      cases hfiber : s.fiber j with
      | notifying number offset rest =>
        rw [hfiber] at hupdate hheld
        obtain rfl := Option.some.inj hupdate
        exact ⟨offset, rest, rfl, mem_of_held hheld⟩
      | reading =>
        rw [hfiber] at hupdate
        cases hupdate
      | released =>
        rw [hfiber] at hupdate
        cases hupdate

section Answers

variable {s t : Service n}

theorem run_tracked (h : Run Orderly s) : Recorded s ∧ AllTracked s := by
  induction h with
  | start =>
    refine ⟨⟨by simp [serviceCreate], rfl, by simp [serviceCreate], rfl, ?_,
      by simp [serviceCreate]⟩, by simp [AllTracked, serviceCreate]⟩
    rintro e (he | ⟨j, he⟩)
    · cases he
    · cases he
  | tail before meets taken ih =>
    obtain ⟨hrec, hall⟩ := ih
    obtain ⟨halive, hcalm⟩ := orderly_calm hrec.alive meets taken
    exact ⟨hrec.step halive hcalm, hall.step hrec hcalm⟩

def finishUpdate (j : Fin n) (rest : List (AssertionEntry n)) : List (Action n) :=
  List.replicate (rest.length + 1) (.resume j noFaults)

theorem run_defined (h : Run Orderly s) : s.dangling = false := by
  induction h with
  | start => rfl
  | tail before meets taken ih =>
    obtain ⟨hrec, -⟩ := run_tracked before
    obtain ⟨-, hcalm⟩ := orderly_calm hrec.alive meets taken
    cases hcalm with
    | reduces | takes | invalidates | waits | cancels | finishes | reaches => exact ih

/-- A turn of a block update is orderly. -/
theorem Run.resume {j : Fin n} {number : ℕ} {offset : BitVec 64}
    {rest : List (AssertionEntry n)} (h : Run Orderly s)
    (hfiber : s.fiber j = .notifying number offset rest) {x : Fiber n}
    (hstep : step s (.resume j noFaults) = some t) (hx : x ≠ .released)
    (hnext : t.fiber = Function.update s.fiber j x) : Run Orderly t := by
  refine h.tail ⟨?_, rfl⟩ hstep
  intro t' hstep' j'
  obtain rfl := Option.some.inj (hstep.symm.trans hstep')
  rw [hnext]
  by_cases hj : j' = j
  · subst hj
    rw [Function.update_self]
    exact hx
  · rw [Function.update_of_ne hj]
    exact (run_tracked h).1.alive j'

/-- A block update that gets its turns sends an invalidation for each of its entries and is then
over. -/
theorem play_finishUpdate {j : Fin n} {number : ℕ} {offset : BitVec 64}
    {rest : List (AssertionEntry n)} (h : Run Orderly s)
    (hfiber : s.fiber j = .notifying number offset rest) :
    ∃ t, play (fun _ _ => true) s (finishUpdate j rest) = some t ∧ Run Orderly t ∧
      t.fiber j = .reading ∧
      t.log = s.log ++ rest.map (fun x =>
        .response x.context (invalidation x.offset) x.request number) ++
        [.response j ⟨.blockUpdate, offset, .success⟩ number number] := by
  have hdefined := run_defined h
  induction rest generalizing s with
  | nil =>
    have hstep : step s (.resume j noFaults) =
        some (finish s j number ⟨.blockUpdate, offset, .success⟩ false) := by
      simp [step, hdefined, hfiber, notify, noFaults]
    refine ⟨finish s j number ⟨.blockUpdate, offset, .success⟩ false, ?_, ?_, ?_, ?_⟩
    · simp [finishUpdate, play, hstep]
    · exact Run.resume h hfiber hstep (x := .reading) (by simp) rfl
    · simp [finish]
    · simp [finish]
  | cons x rest ih =>
    have halive := (run_tracked h).1.alive
    have hstep : step s (.resume j noFaults) = some { s with
        log := s.log ++ [.response x.context (invalidation x.offset) x.request number]
        fiber := Function.update s.fiber j (.notifying number offset rest) } := by
      simp [step, hdefined, hfiber, notify, halive x.context, noFaults]
    have hrun := Run.resume h hfiber hstep (x := .notifying number offset rest) (by simp) rfl
    obtain ⟨t, hplay, hagain, hreading, hlog⟩ := ih hrun (Function.update_self _ _ _) hdefined
    refine ⟨t, ?_, hagain, hreading, ?_⟩
    · rw [finishUpdate, List.length_cons, List.replicate_succ, play, List.foldlM_cons, if_pos rfl,
        hstep]
      exact hplay
    · rw [hlog]
      simp

/-- Each assertion has the one answer that the requests behind it call for, the entries in the trees
were asserted on the id that is the latest, and a block update in progress only needs its turns to
send what it holds. -/
structure AnsweredOnce (s : Service n) : Prop where
  answered : ∀ k i r l₁ l₂, s.log = l₁ ++ .request k i r :: l₂ → r.method = .blockAssertion →
    Answered s k i r l₁ l₂
  latest : ∀ e ∈ s.assertions, ∃ r, Event.request e.request e.context r ∈ s.log ∧
    r.method = .blockAssertion ∧ r.offset = e.offset ∧ bits 128 r.payload = s.latestBlockId
  ends : ∀ j number offset rest, s.fiber j = .notifying number offset rest →
    ∃ t, play (fun _ _ => true) s (finishUpdate j rest) = some t ∧ Run Orderly t ∧
      t.fiber j = .reading ∧
      t.log = s.log ++ rest.map (fun x =>
        .response x.context (invalidation x.offset) x.request number) ++
        [.response j ⟨.blockUpdate, offset, .success⟩ number number]

theorem assertions_are_answered_once (h : Run Orderly s) : AnsweredOnce s := by
  obtain ⟨hrec, hall⟩ := run_tracked h
  refine ⟨?_, hrec.pending, fun j number offset rest hfiber => play_finishUpdate h hfiber⟩
  intro k i r l₁ l₂ hlog hr
  exact (hall k i r l₁ l₂ hlog hr).answered

end Answers

/-! ### A sample run -/

def stays (s : Service n) (a : Action n) : Bool :=
  match step s a with
  | none => true
  | some t => decide (∀ j, t.fiber j ≠ .released)

def unused (s : Service n) (j : Fin n) (offset : BitVec 64) : Bool :=
  decide ((∀ e ∈ s.assertions, ¬ (e.context = j ∧ e.offset = offset)) ∧
    ∀ j', ∀ e ∈ (s.fiber j').rest, ¬ (e.context = j ∧ e.offset = offset))

def orderlyCheck (s : Service n) (a : Action n) : Bool :=
  stays s a && match a with
    | .request j r f => decide (f = noFaults) && unused s j r.offset
    | .resume _ f => decide (f = noFaults)
    | .close _ => true

theorem orderly_of_check (s : Service n) (a : Action n) (h : orderlyCheck s a = true) :
    Orderly s a := by
  unfold orderlyCheck at h
  obtain ⟨hstays, horder⟩ := Bool.and_eq_true_iff.mp h
  constructor
  · intro t hstep
    rw [stays, hstep] at hstays
    exact of_decide_eq_true hstays
  · cases a with
    | request j r f =>
      rw [Bool.and_eq_true] at horder
      refine ⟨of_decide_eq_true horder.1, fun _ e he => ?_⟩
      obtain ⟨htree, hrest⟩ := of_decide_eq_true horder.2
      rcases he with he | ⟨j', he⟩
      · exact htree e he
      · exact hrest j' e he
    | resume j f => exact of_decide_eq_true horder
    | close j => trivial

/-- The second instance asserts offset 5 on the latest block and offset 6 on another one. The first
is told by the update of the first instance, the second at once. -/
theorem two_assertions_are_answered : ∃ s : Service 2, Run Orderly s ∧ AnsweredOnce s ∧
    s.log.filter (isInvalidation 1 5) = [.response 1 (invalidation 5) 0 2] ∧
    s.log.filter (isInvalidation 1 6) = [.response 1 (invalidation 6) 1 1] := by
  have hrun : ((play orderlyCheck (serviceCreate 2)
      [assertLatest 1 5 0, assertLatest 1 6 3, announceBlock 0 9 7, .resume 0 noFaults,
        .resume 0 noFaults]).map fun s =>
      (s.log.filter (isInvalidation 1 5), s.log.filter (isInvalidation 1 6))) =
      some ([.response 1 (invalidation 5) 0 2], [.response 1 (invalidation 6) 1 1]) := by
    decide +kernel
  obtain ⟨s, hs, heq⟩ := Option.map_eq_some_iff.mp hrun
  obtain ⟨hfirst, hsecond⟩ := Prod.mk.inj heq
  have hrun := run_of_play orderly_of_check .start hs
  exact ⟨s, hrun, assertions_are_answered_once hrun, hfirst, hsecond⟩

end AssertionAnswers
