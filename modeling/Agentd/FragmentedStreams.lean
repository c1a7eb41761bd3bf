import Mathlib.Algebra.GroupWithZero.Nat
import Mathlib.Data.List.Flatten
import Agentd.IncrementalParsing

/-! Streams that arrive in fragments. One kind of reader takes what fits of the next fragment and
has to get a whole field at once; the other collects fragments in a buffer until there is an item in
it. -/
namespace FragmentedStreams

open IncrementalParsing

variable {α β ε : Type} {frags frags' : List (List α)} {n k : ℕ}

/-! ### Fields at the front -/

def readFront (n : ℕ) : List (List α) → List α × List (List α)
  | [] => ([], [])
  | [] :: rest => readFront n rest
  | (a :: c) :: rest =>
    if (a :: c).length ≤ n then (a :: c, rest)
    else ((a :: c).take n, (a :: c).drop n :: rest)

def Boundary (frags : List (List α)) (k : ℕ) : Prop :=
  ∃ done rest, frags = done ++ rest ∧ k = done.flatten.length

/-- No fragment ends inside the `n` elements from `a` on. -/
def Whole (frags : List (List α)) (a n : ℕ) : Prop :=
  ∀ k, Boundary frags k → ¬ (a < k ∧ k < a + n)

/-- So for fields of these sizes, one after the other. -/
def FieldsWhole (frags : List (List α)) : ℕ → List ℕ → Prop
  | _, [] => True
  | a, n :: ns => Whole frags a n ∧ FieldsWhole frags (a + n) ns

theorem boundary_zero (frags : List (List α)) : Boundary frags 0 := ⟨[], frags, rfl, rfl⟩

theorem boundary_cons {c : List α} :
    Boundary (c :: frags) k ↔ k = 0 ∨ ∃ j, Boundary frags j ∧ k = c.length + j := by
  constructor
  · rintro ⟨done, rest, heq, rfl⟩
    cases done with
    | nil => exact Or.inl rfl
    | cons d done =>
      obtain ⟨rfl, rfl⟩ := List.cons.inj heq
      refine Or.inr ⟨done.flatten.length, ⟨done, rest, rfl, rfl⟩, ?_⟩
      rw [List.flatten_cons, List.length_append]
  · rintro (rfl | ⟨j, ⟨done, rest, rfl, rfl⟩, rfl⟩)
    · exact boundary_zero _
    · refine ⟨c :: done, rest, rfl, ?_⟩
      rw [List.flatten_cons, List.length_append]

theorem boundary_nil_cons : Boundary ([] :: frags) k ↔ Boundary frags k := by
  rw [boundary_cons]
  constructor
  · rintro (rfl | ⟨j, hj, rfl⟩)
    · exact boundary_zero _
    · rwa [List.length_nil, Nat.zero_add]
  · intro hk
    exact Or.inr ⟨k, hk, by simp⟩

theorem boundary_le (h : Boundary frags k) : k ≤ frags.flatten.length := by
  obtain ⟨done, rest, rfl, rfl⟩ := h
  rw [List.flatten_append, List.length_append]
  omega

theorem readFront_flatten (n : ℕ) (frags : List (List α)) :
    (readFront n frags).1 ++ (readFront n frags).2.flatten = frags.flatten := by
  induction frags with
  | nil => rfl
  | cons c rest ih =>
    cases c with
    | nil => simpa [readFront] using ih
    | cons a c =>
      rw [readFront]
      split
      · simp
      · rw [List.flatten_cons, List.flatten_cons, ← List.append_assoc, List.take_append_drop]

/-- A read that gets all it asked for got it from one fragment. -/
theorem readFront_full (h : (readFront n frags).1.length = n) :
    n ≤ frags.flatten.length ∧ Whole frags 0 n ∧
      ∀ k, 0 < k → (Boundary (readFront n frags).2 k ↔ Boundary frags (n + k)) := by
  induction frags with
  | nil =>
    obtain rfl : 0 = n := h
    refine ⟨Nat.zero_le _, fun k _ hk => by omega, fun k _ => ?_⟩
    rw [readFront, Nat.zero_add]
  | cons c rest ih =>
    cases c with
    | nil =>
      obtain ⟨hle, hwhole, hshift⟩ := ih h
      refine ⟨by simpa using hle, fun k hk => hwhole k (boundary_nil_cons.mp hk), ?_⟩
      intro k hk
      rw [boundary_nil_cons]
      exact hshift k hk
    | cons a c =>
      rw [readFront] at h ⊢
      rw [List.flatten_cons, List.length_append]
      split at h
      · rename_i hfits
        simp only [if_pos hfits]
        simp only at h
        refine ⟨by omega, ?_, ?_⟩
        · rintro k hk ⟨hpos, hlt⟩
          rcases boundary_cons.mp hk with rfl | ⟨j, -, rfl⟩
          · omega
          · omega
        · intro k hk
          rw [boundary_cons]
          constructor
          · intro hrest
            exact Or.inr ⟨k, hrest, by omega⟩
          · rintro (hzero | ⟨j, hj, heq⟩)
            · omega
            · obtain rfl : k = j := by omega
              exact hj
      · rename_i hlong
        simp only [if_neg hlong]
        have hlt := Nat.lt_of_not_le hlong
        refine ⟨by omega, ?_, ?_⟩
        · rintro k hk ⟨hpos, hlt⟩
          rcases boundary_cons.mp hk with rfl | ⟨j, -, rfl⟩
          · omega
          · omega
        · intro k hk
          rw [boundary_cons, boundary_cons, List.length_drop]
          constructor
          · rintro (hzero | ⟨j, hj, heq⟩)
            · omega
            · exact Or.inr ⟨j, hj, by omega⟩
          · rintro (hzero | ⟨j, hj, heq⟩)
            · omega
            · exact Or.inr ⟨j, hj, by omega⟩

/-- A field that is there and whole is read at once. -/
theorem length_readFront (hle : n ≤ frags.flatten.length) (hwhole : Whole frags 0 n) :
    (readFront n frags).1.length = n := by
  induction frags with
  | nil =>
    have hzero : n = 0 := by simpa using hle
    rw [hzero]
    rfl
  | cons c rest ih =>
    cases c with
    | nil =>
      refine ih (by simpa using hle) fun k hk => hwhole k (boundary_nil_cons.mpr hk)
    | cons a c =>
      have hend : Boundary ((a :: c) :: rest) (a :: c).length :=
        boundary_cons.mpr (Or.inr ⟨0, boundary_zero _, rfl⟩)
      have hnot := hwhole _ hend
      rw [readFront]
      split
      · rename_i hfits
        simp only
        simp only [List.length_cons] at *
        omega
      · rename_i hlong
        rw [List.length_take]
        omega

theorem readFront_whole (hle : n ≤ frags.flatten.length) (hwhole : Whole frags 0 n) :
    (readFront n frags).1 = frags.flatten.take n ∧
      (readFront n frags).2.flatten = frags.flatten.drop n := by
  have hlen := length_readFront hle hwhole
  have heq := readFront_flatten n frags
  constructor
  · rw [← heq, List.take_left' hlen]
  · rw [← heq, List.drop_left' hlen]

/-- What is left of the fields after the first one. -/
theorem fieldsWhole_shift (h : ∀ k, 0 < k → (Boundary frags' k ↔ Boundary frags (n + k))) (a : ℕ)
    (ns : List ℕ) : FieldsWhole frags' a ns ↔ FieldsWhole frags (n + a) ns := by
  induction ns generalizing a with
  | nil => exact Iff.rfl
  | cons m ns ih =>
    have hfirst : Whole frags' a m ↔ Whole frags (n + a) m := by
      constructor
      · rintro hwhole k hk ⟨hlo, hhi⟩
        have hk' : Boundary frags' (k - n) := by
          rw [h (k - n) (by omega)]
          rwa [Nat.add_sub_cancel' (by omega)]
        exact hwhole (k - n) hk' ⟨by omega, by omega⟩
      · rintro hwhole k hk ⟨hlo, hhi⟩
        exact hwhole (n + k) ((h k (by omega)).mp hk) ⟨by omega, by omega⟩
    rw [FieldsWhole, FieldsWhole, hfirst, ih (a + m), Nat.add_assoc]

theorem fieldsWhole_append (a : ℕ) (ns ms : List ℕ) :
    FieldsWhole frags a (ns ++ ms) ↔
      FieldsWhole frags a ns ∧ FieldsWhole frags (a + ns.sum) ms := by
  induction ns generalizing a with
  | nil => simp [FieldsWhole]
  | cons n ns ih =>
    rw [List.cons_append, FieldsWhole, FieldsWhole, ih, List.sum_cons, Nat.add_assoc, and_assoc]

def Unbroken (frags : List (List α)) : Prop :=
  ∀ a n, a + n ≤ frags.flatten.length → Whole frags a n

theorem unbroken_singleton (l : List α) : Unbroken [l] := by
  intro a n hle k hk
  rw [List.flatten_singleton] at hle
  rcases boundary_cons.mp hk with rfl | ⟨j, hj, rfl⟩
  · omega
  · have hzero := boundary_le hj
    rw [List.flatten_nil, List.length_nil] at hzero
    omega

theorem Unbroken.fieldsWhole (h : Unbroken frags) {a : ℕ} {ns : List ℕ}
    (hle : a + ns.sum ≤ frags.flatten.length) : FieldsWhole frags a ns := by
  induction ns generalizing a with
  | nil => trivial
  | cons n ns ih =>
    rw [List.sum_cons] at hle
    exact ⟨h a n (by omega), ih (by omega)⟩

/-! ### Items in a buffer -/

/-- A reader over a buffer: it takes the item that `next` finds, waits for one that is not complete
and needs no more than the item itself. -/
structure Taker (next : List α → Option (β × List α)) (take : List α → Except ε β × List α)
    (wait : ε) : Prop where
  incremental : Incremental next
  ok_iff : ∀ {b p r}, take b = (.ok p, r) ↔ next b = some (p, r)
  waits : ∀ {b c x}, next b = none → next (b ++ c) = some x → take b = (.error wait, b)
  keeps : ∀ {b r}, take b = (.error wait, r) → r = b
  early : ∀ {b c p r}, next (b ++ c) = some (p, r) → c.length ≤ r.length → (next b).isSome = true

theorem incremental_map {γ : Type} {next : List α → Option (β × List α)} (f : β → γ)
    (h : Incremental next) : Incremental fun b => (next b).map fun x => (f x.1, x.2) where
  shrinks := by
    intro b p r hb
    obtain ⟨x, hx, heq⟩ := Option.map_eq_some_iff.mp hb
    obtain ⟨-, rfl⟩ := Prod.mk.inj heq
    exact h.shrinks hx
  stable := by
    intro b p r c hb
    obtain ⟨x, hx, heq⟩ := Option.map_eq_some_iff.mp hb
    obtain ⟨rfl, rfl⟩ := Prod.mk.inj heq
    rw [h.stable c hx]
    rfl

/-- The same reader with its items as values of another type. -/
theorem Taker.map {γ : Type} {next : List α → Option (β × List α)}
    {take : List α → Except ε β × List α} {wait : ε} (f : β → γ) (h : Taker next take wait) :
    Taker (fun b => (next b).map fun x => (f x.1, x.2)) (fun b => ((take b).1.map f, (take b).2))
      wait where
  incremental := incremental_map f h.incremental
  ok_iff := by
    intro b p r
    constructor
    · intro hb
      obtain ⟨hok, hrest⟩ := Prod.mk.inj hb
      cases htake : (take b).1 with
      | error e =>
        rw [htake] at hok
        cases hok
      | ok q =>
        rw [htake] at hok
        have hnext := h.ok_iff.mp (show take b = (.ok q, r) from Prod.ext htake hrest)
        rw [hnext, ← Except.ok.inj hok]
        rfl
    · intro hb
      obtain ⟨x, hx, heq⟩ := Option.map_eq_some_iff.mp hb
      obtain ⟨rfl, rfl⟩ := Prod.mk.inj heq
      rw [h.ok_iff.mpr hx]
      rfl
  waits := by
    intro b c x hnone hsome
    obtain ⟨y, hy, -⟩ := Option.map_eq_some_iff.mp hsome
    rw [h.waits (Option.map_eq_none_iff.mp hnone) hy]
    rfl
  keeps := by
    intro b r hb
    obtain ⟨herror, hrest⟩ := Prod.mk.inj hb
    cases htake : (take b).1 with
    | ok q =>
      rw [htake] at herror
      cases herror
    | error e =>
      rw [htake] at herror
      have he : e = wait := Except.error.inj herror
      rw [he] at htake
      exact h.keeps (show take b = (.error wait, r) from Prod.ext htake hrest)
  early := by
    intro b c p r hb hle
    obtain ⟨x, hx, heq⟩ := Option.map_eq_some_iff.mp hb
    obtain ⟨-, rfl⟩ := Prod.mk.inj heq
    rw [Option.isSome_map]
    exact h.early hx hle

/-- Fragments are fed to a reader until it has something else to say than to wait. At the end of the
fragments it is called once more. -/
def collect [DecidableEq ε] (wait : ε) (feed : List α → List α → Except ε β × List α)
    (atEnd : List α → Except ε β × List α) :
    List α → List (List α) → Except ε β × List α × List (List α)
  | b, [] => ((atEnd b).1, (atEnd b).2, [])
  | b, [] :: rest => collect wait feed atEnd b rest
  | b, (a :: c) :: rest =>
    match feed (a :: c) b with
    | (.ok p, b) => (.ok p, b, rest)
    | (.error e, b) =>
      if e = wait then collect wait feed atEnd b rest else (.error e, b, rest)

/-- The fragments that are taken for an item of some size, at least one: how many elements the
buffer holds then, and what is left. -/
def handOver (size : ℕ) : ℕ → List (List α) → ℕ × List (List α)
  | buffered, [] => (buffered, [])
  | buffered, [] :: rest => handOver size buffered rest
  | buffered, (a :: c) :: rest =>
    if size ≤ buffered + (a :: c).length then (buffered + (a :: c).length, rest)
    else handOver size (buffered + (a :: c).length) rest

theorem handOver_of_empty (h : frags.flatten = []) (size n : ℕ) :
    handOver size n frags = (n, []) := by
  induction frags with
  | nil => rfl
  | cons c rest ih =>
    obtain ⟨rfl, hrest⟩ := List.append_eq_nil_iff.mp h
    exact ih hrest

section Collect

variable [DecidableEq ε] {wait : ε} {next : List α → Option (β × List α)}
  {take : List α → Except ε β × List α} {feed : List α → List α → Except ε β × List α}
  {atEnd : List α → Except ε β × List α} {b b' r : List α} {p : β}

theorem collect_of_empty (h : frags.flatten = []) (b : List α) :
    collect wait feed atEnd b frags = ((atEnd b).1, (atEnd b).2, []) := by
  induction frags with
  | nil => rfl
  | cons c rest ih =>
    obtain ⟨rfl, hrest⟩ := List.append_eq_nil_iff.mp h
    exact ih hrest

/-- An item that is complete with the fragments is read, and nothing else. -/
theorem Taker.collect_ok (ht : Taker next take wait) (hfeed : ∀ c b, feed c b = take (b ++ c))
    (hmore : frags.flatten ≠ []) (hnext : next (b ++ frags.flatten) = some (p, r)) {size : ℕ}
    (hsize : size + r.length = (b ++ frags.flatten).length) :
    ∃ b', collect wait feed atEnd b frags = (.ok p, b', (handOver size b.length frags).2) ∧
      b' ++ (handOver size b.length frags).2.flatten = r ∧
      b'.length + size = (handOver size b.length frags).1 := by
  induction frags generalizing b with
  | nil => exact absurd rfl hmore
  | cons c rest ih =>
    cases c with
    | nil => exact ih hmore hnext hsize
    | cons a c =>
      rw [List.flatten_cons, ← List.append_assoc] at hnext hsize
      rw [collect, handOver, hfeed]
      rw [List.length_append] at hsize
      cases hfirst : next (b ++ (a :: c)) with
      | some item =>
        obtain ⟨p', b'⟩ := item
        have hstable := ht.incremental.stable rest.flatten hfirst
        obtain ⟨rfl, hr⟩ := Prod.mk.inj (Option.some.inj (hstable.symm.trans hnext))
        have hlen := congrArg List.length hr
        rw [List.length_append] at hlen
        have hshort := ht.incremental.shrinks hfirst
        rw [List.length_append] at hsize hshort
        rw [ht.ok_iff.mpr hfirst, if_pos (by omega)]
        exact ⟨b', rfl, hr, by omega⟩
      | none =>
        have hlate : ¬ size ≤ b.length + (a :: c).length := by
          intro hle
          rw [List.length_append] at hsize
          have hsome := ht.early hnext (by omega)
          rw [hfirst] at hsome
          cases hsome
        have hrest : rest.flatten ≠ [] := by
          intro hnil
          rw [hnil, List.append_nil, hfirst] at hnext
          cases hnext
        obtain ⟨b', hcollect, hleft, hlen⟩ := ih hrest hnext (by rw [List.length_append]; omega)
        rw [List.length_append] at hcollect hleft hlen
        rw [ht.waits hfirst hnext, if_neg hlate]
        exact ⟨b', by simpa only [if_true] using hcollect, hleft, hlen⟩

/-- What is read is the item at the front of the stream. -/
theorem Taker.collect_sound (ht : Taker next take wait) (hfeed : ∀ c b, feed c b = take (b ++ c))
    (hend : ∀ {b p r}, atEnd b = (.ok p, r) → next b = some (p, r))
    (h : collect wait feed atEnd b frags = (.ok p, b', frags')) :
    next (b ++ frags.flatten) = some (p, b' ++ frags'.flatten) := by
  induction frags generalizing b with
  | nil =>
    obtain ⟨hok, hrest⟩ := Prod.mk.inj h
    obtain ⟨hbuf, hfrags⟩ := Prod.mk.inj hrest
    rw [← hfrags, List.flatten_nil, List.append_nil, List.append_nil]
    exact hend (Prod.ext hok hbuf)
  | cons c rest ih =>
    cases c with
    | nil => exact ih h
    | cons a c =>
      rw [collect, hfeed] at h
      rw [List.flatten_cons, ← List.append_assoc]
      split at h
      · rename_i p' b'' htake
        obtain ⟨hp, hrest⟩ := Prod.mk.inj h
        obtain ⟨hb, hfrags⟩ := Prod.mk.inj hrest
        rw [← hb, ← hfrags, ← Except.ok.inj hp]
        exact ht.incremental.stable _ (ht.ok_iff.mp htake)
      · rename_i e b'' htake
        split at h
        · rename_i hwait
          rw [hwait] at htake
          rw [ht.keeps htake] at h
          exact ih h
        · cases h

end Collect

end FragmentedStreams
