import Agentd.NotificationFibers

/-! # Entries that outlive their request

A block update keeps the entries it took from the trees while other fibers go on. A cancel only
looks into the trees, and a fiber that leaves its loop leaves its entries where they are. -/
namespace AssertionEntries

open ByteString
open DataserviceRecords
open NotificationFibers

variable {n : ℕ} {s t : Service n} {a : Action n} {j : Fin n}

/-! ### Entries after a step -/

theorem rest_update {x : Fiber n} (hx : x.rest ⊆ (s.fiber j).rest) (j' : Fin n) :
    (Function.update s.fiber j x j').rest ⊆ (s.fiber j').rest := by
  by_cases hj : j' = j
  · subst hj
    rw [Function.update_self]
    exact hx
  · rw [Function.update_of_ne hj]
    exact List.Subset.refl _

theorem rest_finish (number : ℕ) (r : Response) (fails : Bool) (j' : Fin n) :
    ((finish s j number r fails).fiber j').rest ⊆ (s.fiber j').rest := by
  apply rest_update
  split
  · exact List.nil_subset _
  · exact List.nil_subset _

theorem rest_reached {number : ℕ} {offset : BitVec 64} {e : AssertionEntry n}
    {rest : List (AssertionEntry n)} (hfiber : s.fiber j = .notifying number offset (e :: rest))
    (j' : Fin n) :
    (Function.update s.fiber j (.notifying number offset rest) j').rest ⊆ (s.fiber j').rest := by
  apply rest_update
  rw [hfiber]
  exact List.subset_cons_self e rest

theorem keptAssertions_subset (assertions : List (AssertionEntry n)) (fault : SwapFault n) :
    keptAssertions assertions fault ⊆ assertions := by
  cases fault with
  | none => exact List.nil_subset _
  | listCreate => exact fun _ h => h
  | treeCreate _ => exact List.filter_subset_self _
  | listAppend _ => exact List.filter_subset_self _

theorem live_of_subset {e : AssertionEntry n} (ha : t.assertions ⊆ s.assertions)
    (hr : ∀ j, (t.fiber j).rest ⊆ (s.fiber j).rest) (h : Live t e) : Live s e := by
  rcases h with h | ⟨j, h⟩
  · exact Or.inl (ha h)
  · exact Or.inr ⟨j, hr j h⟩

/-- Every step only takes entries away, except that a new one enters its tree and that a block
update takes the trees over; in these nobody leaves its loop. -/
theorem move_shrinks (h : Move s a t) :
    (t.assertions ⊆ s.assertions ∧ ∀ j, (t.fiber j).rest ⊆ (s.fiber j).rest) ∨
      (∀ j, t.fiber j = .released → s.fiber j = .released) ∧
        ∀ e, Live t e → Live s e ∨ t.fiber e.context = .reading := by
  cases h with
  | refuses | reduces | invalidates | finishes | sendFails =>
    exact Or.inl ⟨fun _ h => h, fun j => rest_finish _ _ _ j⟩
  | swapFails => exact Or.inl ⟨keptAssertions_subset _ _, fun j => rest_finish _ _ _ j⟩
  | cancels => exact Or.inl ⟨List.filter_subset_self _, fun j => rest_finish _ _ _ j⟩
  | dangles => exact Or.inl ⟨fun _ h => h, fun _ _ h => h⟩
  | @takes j r f hfiber hmethod =>
    refine Or.inr ⟨?_, ?_⟩
    · intro j' hj'
      by_cases hj : j' = j
      · subst hj
        simp at hj'
      · simpa [Function.update_of_ne hj] using hj'
    · rintro e (he | ⟨j', he⟩)
      · cases he
      · by_cases hj : j' = j
        · subst hj
          simp only [Function.update_self] at he
          exact Or.inl (Or.inl he)
        · simp only [Function.update_of_ne hj] at he
          exact Or.inl (Or.inr ⟨j', he⟩)
  | @waits j r f hfiber hmethod hlatest hfree =>
    refine Or.inr ⟨fun _ h => h, ?_⟩
    rintro e (he | he)
    · rcases (List.mem_orderedInsert _).mp he with rfl | he
      · exact Or.inr hfiber
      · exact Or.inl (Or.inl he)
    · exact Or.inl (Or.inr he)
  | @reaches j f number offset e rest hfiber halive =>
    exact Or.inl ⟨fun _ h => h, fun j' => rest_reached hfiber j'⟩
  | closes hfiber =>
    exact Or.inl ⟨fun _ h => h, fun j' => rest_update (List.nil_subset _) j'⟩

/-! ### Released contexts -/

structure Attached (s : Service n) : Prop where
  defined : s.dangling = false
  context : ∀ e, Live s e → s.fiber e.context ≠ .released

/-- Neither the trees nor a block update of another instance hold an entry of the instance. -/
def Unreferenced (s : Service n) (j : Fin n) : Prop :=
  (∀ e ∈ s.assertions, e.context ≠ j) ∧
    ∀ j', j' ≠ j → ∀ e ∈ (s.fiber j').rest, e.context ≠ j

/-- A fiber leaves its loop only when nothing refers to its context. -/
def LeavesUnreferenced (s : Service n) (a : Action n) : Prop :=
  ∀ t j, step s a = some t → s.fiber j ≠ .released → t.fiber j = .released → Unreferenced s j

theorem Attached.step (h : Attached s) (hleaves : LeavesUnreferenced s a)
    (hstep : step s a = some t) : Attached t := by
  obtain ⟨hdefined, hmove⟩ := step_move hstep
  constructor
  · cases hmove with
    | @dangles j f number offset e rest hfiber hreleased =>
      have hlive : Live s e := Or.inr ⟨j, by rw [hfiber]; exact List.mem_cons_self⟩
      exact absurd hreleased (h.context e hlive)
    | _ => exact hdefined
  · intro e he hreleased
    rcases move_shrinks hmove with ⟨ha, hr⟩ | ⟨hkept, hlive⟩
    · have hbefore : s.fiber e.context ≠ .released := h.context e (live_of_subset ha hr he)
      obtain ⟨htrees, hupdates⟩ := hleaves t e.context hstep hbefore hreleased
      rcases he with he | ⟨j, he⟩
      · exact htrees e (ha he) rfl
      · by_cases hj : j = e.context
        · rw [hj, hreleased] at he
          cases he
        · exact hupdates j hj e (hr j he) rfl
    · rcases hlive e he with hlive | hreading
      · exact h.context e hlive (hkept _ hreleased)
      · rw [hreading] at hreleased
        cases hreleased

theorem attached_serviceCreate : Attached (serviceCreate n) := by
  refine ⟨rfl, ?_⟩
  rintro e (he | ⟨j, he⟩)
  · cases he
  · cases he

theorem notify_attached {number : ℕ} {offset : BitVec 64} {e : AssertionEntry n}
    {rest : List (AssertionEntry n)} {f : Faults n} (h : Attached s)
    (hfiber : s.fiber j = .notifying number offset (e :: rest)) (hsend : f.send = false) :
    ∃ t, step s (.resume j f) = some t ∧
      t.log = s.log ++ [.response e.context (invalidation e.offset) e.request number] := by
  have hcontext : s.fiber e.context ≠ .released :=
    h.context e (Or.inr ⟨j, by rw [hfiber]; exact List.mem_cons_self⟩)
  simp [step, h.defined, hfiber, notify, hcontext, hsend]

/-- As long as no fiber leaves its loop while an entry of it is somewhere, every entry that a block
update reaches has its context, and its invalidation is queued. -/
theorem reached_entries_are_attached (h : Run LeavesUnreferenced s) :
    Attached s ∧ ∀ j number offset e rest f, s.fiber j = .notifying number offset (e :: rest) →
      f.send = false → ∃ t, step s (.resume j f) = some t ∧
        t.log = s.log ++ [.response e.context (invalidation e.offset) e.request number] := by
  have hattached : Attached s := by
    induction h with
    | start => exact attached_serviceCreate
    | tail before meets taken ih => exact ih.step meets taken
  exact ⟨hattached, fun j number offset e rest f hfiber hsend =>
    notify_attached hattached hfiber hsend⟩

instance (s : Service n) (j : Fin n) : Decidable (Unreferenced s j) :=
  inferInstanceAs (Decidable ((∀ e ∈ s.assertions, e.context ≠ j) ∧
    ∀ j', j' ≠ j → ∀ e ∈ (s.fiber j').rest, e.context ≠ j))

def leavesCheck (s : Service n) (a : Action n) : Bool :=
  match step s a with
  | none => true
  | some t => decide (∀ j, s.fiber j ≠ .released → t.fiber j = .released → Unreferenced s j)

theorem leavesUnreferenced_of_check (s : Service n) (a : Action n) (h : leavesCheck s a = true) :
    LeavesUnreferenced s a := by
  intro t j hstep
  rw [leavesCheck, hstep] at h
  exact of_decide_eq_true h j

/-! ### Cancelled assertions -/

def Reasserts (i : Fin n) (offset : BitVec 64) (e : Event n) : Prop :=
  ∃ number r, e = .request number i r ∧ r.method = .blockAssertion ∧ r.offset = offset

def Renewed (log : List (Event n)) (i : Fin n) (offset : BitVec 64) : Prop :=
  ∀ before after about via, log = before ++ .response i (cancellation offset) about via :: after →
    ∃ e ∈ after, Reasserts i offset e

/-- No invalidation follows the success of a cancel without an assertion in between. -/
def Silent (log : List (Event n)) : Prop :=
  ∀ i offset before between after about via about' via',
    log = before ++ .response i (cancellation offset) about via ::
      (between ++ .response i (invalidation offset) about' via' :: after) →
    ∃ e ∈ between, Reasserts i offset e

/-- An element of a list with one more at its end is that one, or it was there before. -/
theorem snoc_eq_append_cons {α : Type} {l before after : List α} {x y : α}
    (h : l ++ [y] = before ++ x :: after) :
    (before = l ∧ x = y ∧ after = []) ∨ ∃ after',
    after = after' ++ [y] ∧ l = before ++ x :: after' := by
  rcases List.eq_nil_or_concat after with rfl | ⟨after', z, rfl⟩
  · obtain ⟨hl, hy⟩ := List.append_inj' h rfl
    cases hy
    exact Or.inl ⟨hl.symm, rfl, rfl⟩
  · rw [List.concat_eq_append, ← List.cons_append, ← List.append_assoc] at h
    obtain ⟨hl, hy⟩ := List.append_inj' h rfl
    cases hy
    exact Or.inr ⟨after', List.concat_eq_append, hl⟩

theorem Renewed.snoc {log : List (Event n)} {i : Fin n} {offset : BitVec 64} {e : Event n}
    (h : Renewed log i offset)
    (he : ∀ about via, e ≠ .response i (cancellation offset) about via) :
    Renewed (log ++ [e]) i offset := by
  intro before after about via heq
  rcases snoc_eq_append_cons heq with ⟨-, hx, -⟩ | ⟨after', rfl, hlog⟩
  · exact absurd hx.symm (he about via)
  · obtain ⟨e', he', hagain⟩ := h before after' about via hlog
    exact ⟨e', List.mem_append_left _ he', hagain⟩

theorem renewed_snoc_request (log : List (Event n)) {i : Fin n} {offset : BitVec 64} {e : Event n}
    (he : Reasserts i offset e) : Renewed (log ++ [e]) i offset := by
  intro before after about via heq
  rcases snoc_eq_append_cons heq with ⟨-, hx, -⟩ | ⟨after', rfl, -⟩
  · obtain ⟨number, r, rfl, -⟩ := he
    cases hx
  · exact ⟨e, by simp, he⟩

theorem Silent.snoc {log : List (Event n)} {e : Event n} (h : Silent log)
    (he : ∀ i offset about via, e = .response i (invalidation offset) about via →
      Renewed log i offset) : Silent (log ++ [e]) := by
  intro i offset before between after about via about' via' heq
  rcases snoc_eq_append_cons heq with ⟨-, -, hnil⟩ | ⟨rest, hrest, hlog⟩
  · simp at hnil
  · rcases snoc_eq_append_cons hrest.symm with ⟨hbetween, hx, -⟩ | ⟨after', -, hrest'⟩
    · rw [← hbetween] at hlog
      exact he i offset about' via' hx.symm before between about via hlog
    · rw [hrest'] at hlog
      exact h i offset before between after' about via about' via' hlog

/-- A cancel that is granted finds no entry of its offset in the hands of a block update. -/
def CancelsIdle (s : Service n) : Action n → Prop
  | .request j r f => r.method = .blockAssertionCancel →
      (s.caps j).getLsbD capBlockAssertion = true → r.payload.length = 0 → f.report = false →
      ∀ j' e, e ∈ (s.fiber j').rest → ¬ (e.context = j ∧ e.offset = r.offset)
  | _ => True

structure Quieted (s : Service n) : Prop where
  silent : Silent s.log
  renewed : ∀ e, Live s e → Renewed s.log e.context e.offset

theorem Quieted.arrive (h : Quieted s) (j : Fin n) (r : Request) : Quieted (arrive s j r) :=
  ⟨h.silent.snoc (by simp), fun e he => (h.renewed e he).snoc (by simp)⟩

/-- The report of a request. An invalidation needs an assertion behind the last cancel, and after
the success of a cancel no entry may be left. -/
theorem Quieted.finish (h : Quieted s) {number : ℕ} {r : Response} {fails : Bool}
    (hinvalid : ∀ offset, r = invalidation offset → Renewed s.log j offset)
    (hcancel : ∀ offset, r = cancellation offset → fails = false → ∀ e, Live s e →
      ¬ (e.context = j ∧ e.offset = offset)) : Quieted (finish s j number r fails) := by
  have hlive : ∀ e, Live (NotificationFibers.finish s j number r fails) e → Live s e := by
    intro e he
    refine live_of_subset ?_ (fun j' => rest_finish number r fails j') he
    exact List.Subset.refl _
  cases fails with
  | true => exact ⟨h.silent, fun e he => h.renewed e (hlive e he)⟩
  | false =>
    constructor
    · apply h.silent.snoc
      rintro i offset about via heq
      injection heq with hi hr
      rw [← hi]
      exact hinvalid offset hr
    · intro e he
      apply (h.renewed e (hlive e he)).snoc
      intro about via heq
      injection heq with hi hr
      exact hcancel e.offset hr rfl e (hlive e he) ⟨hi.symm, rfl⟩

theorem Quieted.of_live (h : Quieted s) (hlog : t.log = s.log) (hlive : ∀ e, Live t e → Live s e) :
    Quieted t :=
  ⟨by rw [hlog]; exact h.silent, fun e he => by rw [hlog]; exact h.renewed e (hlive e he)⟩

theorem Quieted.of_subset (h : Quieted s) (hlog : t.log = s.log)
    (ha : t.assertions ⊆ s.assertions) (hr : ∀ j, (t.fiber j).rest ⊆ (s.fiber j).rest) :
    Quieted t :=
  h.of_live hlog fun _ he => live_of_subset ha hr he

theorem Quieted.step (h : Quieted s) (hidle : CancelsIdle s a) (hstep : step s a = some t) :
    Quieted t := by
  obtain ⟨-, hmove⟩ := step_move hstep
  cases hmove with
  | @refuses j r f status hfiber hstatus =>
    apply (h.arrive j r).finish
    · intro offset heq
      injection heq with _ _ hsuccess
      exact absurd hsuccess hstatus
    · intro offset heq
      injection heq with _ _ hsuccess
      exact absurd hsuccess hstatus
  | @reduces j r f caps hfiber hmethod =>
    have hcaps : Quieted { NotificationFibers.arrive s j r with caps := caps } :=
      (h.arrive j r).of_live rfl fun _ he => he
    exact hcaps.finish (by simp [invalidation]) (by simp [cancellation])
  | @swapFails j r f hfiber hmethod hswap =>
    have hkept : Quieted { NotificationFibers.arrive s j r with
        latestBlockId := bits 128 r.payload
        assertions := keptAssertions s.assertions f.swap } :=
      (h.arrive j r).of_subset rfl (keptAssertions_subset _ _) fun _ _ h => h
    exact hkept.finish (by simp [invalidation]) (by simp [cancellation])
  | @takes j r f hfiber hmethod =>
    refine (h.arrive j r).of_live rfl ?_
    rintro e (he | ⟨j', he⟩)
    · cases he
    · by_cases hj : j' = j
      · subst hj
        simp only [Function.update_self] at he
        exact Or.inl he
      · simp only [Function.update_of_ne hj] at he
        exact Or.inr ⟨j', he⟩
  | @invalidates j r f hfiber hmethod hother =>
    apply (h.arrive j r).finish
    · intro offset heq
      injection heq with _ hoffset
      exact renewed_snoc_request _ ⟨_, r, rfl, hmethod, hoffset⟩
    · simp [invalidation, cancellation]
  | @waits j r f hfiber hmethod hlatest hfree =>
    refine ⟨(h.arrive j r).silent, ?_⟩
    rintro e (he | he)
    · rcases (List.mem_orderedInsert _).mp he with rfl | he
      · exact renewed_snoc_request _ ⟨_, r, rfl, hmethod, rfl⟩
      · exact (h.arrive j r).renewed e (Or.inl he)
    · exact (h.arrive j r).renewed e (Or.inr he)
  | @cancels j r f hfiber hmethod hcap hpayload =>
    have hdeleted : Quieted { NotificationFibers.arrive s j r with
        assertions := deleteEntry s.assertions j r.offset } :=
      (h.arrive j r).of_subset rfl (List.filter_subset_self _) fun _ _ h => h
    apply hdeleted.finish
    · simp [invalidation, cancellation]
    · rintro offset heq hsent e (he | ⟨j', he⟩) hkey
      · injection heq with _ hoffset
        rw [← hoffset] at hkey
        have hkept := (List.mem_filter.mp he).2
        simp [hkey] at hkept
      · injection heq with _ hoffset
        rw [← hoffset] at hkey
        exact hidle hmethod hcap hpayload hsent j' e he hkey
  | finishes hfiber => exact h.finish (by simp [invalidation]) (by simp [cancellation])
  | sendFails hfiber hsend => exact h.finish (by simp [invalidation]) (by simp [cancellation])
  | dangles hfiber hreleased => exact h.of_live rfl fun _ he => he
  | @reaches j f number offset e rest hfiber halive =>
    have hreached : Live s e := Or.inr ⟨j, by rw [hfiber]; exact List.mem_cons_self⟩
    constructor
    · apply h.silent.snoc
      rintro i offset' about via heq
      injection heq with hi hr
      injection hr with _ hoffset
      rw [← hi, ← hoffset]
      exact h.renewed e hreached
    · intro e' he'
      have hbefore : Live s e' := by
        refine live_of_subset ?_ (fun j' => rest_reached hfiber j') he'
        exact List.Subset.refl _
      exact (h.renewed e' hbefore).snoc (by simp [invalidation, cancellation])
  | closes hfiber =>
    exact h.of_subset rfl (List.Subset.refl _) fun j' => rest_update (List.nil_subset _) j'

/-- As long as no cancel is granted while a block update still holds the entry, no invalidation
comes after the success of a cancel, unless the offset is asserted again. -/
theorem cancelled_assertions_stay_silent (h : Run CancelsIdle s) : Silent s.log := by
  have hquieted : Quieted s := by
    induction h with
    | start =>
      constructor
      · intro i offset before between after about via about' via' heq
        simp [serviceCreate] at heq
      · rintro e (he | ⟨j, he⟩)
        · cases he
        · cases he
    | tail before meets taken ih => exact ih.step meets taken
  exact hquieted.silent

/-! ### Sample runs -/

def assertLatest (j : Fin n) (offset : BitVec 64) (blockId : Uuid) : Action n :=
  .request j ⟨.blockAssertion, offset, be 16 blockId⟩ noFaults

def cancelAssertion (j : Fin n) (offset : BitVec 64) : Action n :=
  .request j ⟨.blockAssertionCancel, offset, []⟩ noFaults

def announceBlock (j : Fin n) (offset : BitVec 64) (blockId : Uuid) : Action n :=
  .request j ⟨.blockUpdate, offset, be 16 blockId⟩ noFaults

/-- The second instance is told about the block that the first one announces. -/
theorem subscriber_is_attached : ∃ s : Service 2,
    Run LeavesUnreferenced s ∧ Attached s ∧
      s.fiber 0 = .notifying 1 9 [⟨1, 5, 0⟩] ∧
      ∃ t, step s (.resume 0 noFaults) = some t ∧
        t.log = s.log ++ [.response 1 (invalidation 5) 0 1] := by
  have hrun : ((play leavesCheck (serviceCreate 2)
      [assertLatest 1 5 0, announceBlock 0 9 7]).map fun s => s.fiber 0) =
      some (.notifying 1 9 [⟨1, 5, 0⟩]) := by
    decide +kernel
  obtain ⟨s, hs, hfiber⟩ := Option.map_eq_some_iff.mp hrun
  have hrun := run_of_play leavesUnreferenced_of_check .start hs
  obtain ⟨hattached, hreaches⟩ := reached_entries_are_attached hrun
  exact ⟨s, hrun, hattached, hfiber, hreaches 0 1 9 ⟨1, 5, 0⟩ [] noFaults hfiber rfl⟩

def cancelsIdleCheck (s : Service n) : Action n → Bool
  | .request j r _ => r.method != .blockAssertionCancel ||
      decide (∀ j', ∀ e ∈ (s.fiber j').rest, ¬ (e.context = j ∧ e.offset = r.offset))
  | _ => true

theorem cancelsIdle_of_check (s : Service n) (a : Action n) (h : cancelsIdleCheck s a = true) :
    CancelsIdle s a := by
  cases a with
  | request j r f =>
    intro hmethod _ _ _ j' e he
    simp only [cancelsIdleCheck, hmethod, bne_self_eq_false, Bool.false_or] at h
    exact of_decide_eq_true h j' e he
  | _ => trivial

/-- A cancel, an update, and an assertion of the same offset: the update after that invalidates
it. -/
theorem reasserted_offset_is_told : ∃ s : Service 2, Run CancelsIdle s ∧ Silent s.log ∧
    s.log.filterMap (fun e => match e with
      | .response i r _ _ => some (i, r)
      | _ => none) = [(1, cancellation 5), (0, ⟨.blockUpdate, 9, .success⟩),
        (1, invalidation 5)] := by
  have hrun : ((play cancelsIdleCheck (serviceCreate 2)
      [assertLatest 1 5 0, cancelAssertion 1 5, announceBlock 0 9 7, .resume 0 noFaults,
        assertLatest 1 5 7, announceBlock 0 9 8, .resume 0 noFaults]).map fun s =>
        s.log.filterMap (fun e => match e with
          | .response i r _ _ => some (i, r)
          | _ => none)) =
      some [(1, cancellation 5), (0, ⟨.blockUpdate, 9, .success⟩), (1, invalidation 5)] := by
    decide +kernel
  obtain ⟨s, hs, hlog⟩ := Option.map_eq_some_iff.mp hrun
  have hrun := run_of_play cancelsIdle_of_check .start hs
  exact ⟨s, hrun, cancelled_assertions_stay_silent hrun, hlog⟩

/-- Two assertions wait. The block update has sent the first invalidation when the second assertion
is cancelled; its invalidation follows all the same. -/
theorem cancelled_assertion_is_told : ∃ s :
    Service 2, Run (fun _ _ => True) s ∧ ¬ Silent s.log := by
  have hrun : ((play (fun _ _ => true) (serviceCreate 2)
      [assertLatest 1 5 0, assertLatest 1 6 0, announceBlock 0 9 7, .resume 0 noFaults,
        cancelAssertion 1 6, .resume 0 noFaults]).map Service.log) =
      some [.request 0 1 ⟨.blockAssertion, 5, be 16 (0 : Uuid)⟩,
        .request 1 1 ⟨.blockAssertion, 6, be 16 (0 : Uuid)⟩,
        .request 2 0 ⟨.blockUpdate, 9, be 16 (7 : Uuid)⟩, .response 1 (invalidation 5) 0 2,
        .request 3 1 ⟨.blockAssertionCancel, 6, []⟩, .response 1 (cancellation 6) 3 3,
        .response 1 (invalidation 6) 1 2] := by
    decide +kernel
  obtain ⟨s, hs, hlog⟩ := Option.map_eq_some_iff.mp hrun
  refine ⟨s, run_of_play (fun _ _ _ => trivial) .start hs, ?_⟩
  intro hsilent
  rw [hlog] at hsilent
  obtain ⟨e, he, -⟩ := hsilent 1 6 [.request 0 1 ⟨.blockAssertion, 5, be 16 (0 : Uuid)⟩,
    .request 1 1 ⟨.blockAssertion, 6, be 16 (0 : Uuid)⟩,
    .request 2 0 ⟨.blockUpdate, 9, be 16 (7 : Uuid)⟩, .response 1 (invalidation 5) 0 2,
    .request 3 1 ⟨.blockAssertionCancel, 6, []⟩] [] [] 3 3 1 2 rfl
  cases he

/-- The second instance disconnects while its assertion waits; the block update of the first one
reads its context. -/
theorem disconnected_subscriber_dangles : ∃ s : Service 2,
    Run (fun _ _ => True) s ∧ s.dangling = true ∧ ¬ Attached s := by
  have hrun : ((play (fun _ _ => true) (serviceCreate 2)
      [assertLatest 1 5 0, .close 1, announceBlock 0 9 7, .resume 0 noFaults]).map
        Service.dangling) = some true := by
    decide +kernel
  obtain ⟨s, hs, hdangling⟩ := Option.map_eq_some_iff.mp hrun
  refine ⟨s, run_of_play (fun _ _ _ => trivial) .start hs, hdangling, ?_⟩
  intro hattached
  rw [hattached.defined] at hdangling
  cases hdangling

end AssertionEntries
