import Mathlib.Algebra.Order.BigOperators.Group.List
import Mathlib.Data.List.TakeWhile
import Agentd.ByteString

/-! # Strings in buffers

A string ends at the first zero of its buffer. The functions of the C library are partial: there is
no result when one of them reads or writes outside of the buffer. -/
namespace CStrings

open ByteString

variable {buf buf' text src s x y : Bytes} {sep : UInt8}

/-! ### Buffers -/

def string (buf : Bytes) : Bytes := buf.takeWhile (· != 0)

def strlen (buf : Bytes) : Option ℕ := if 0 ∈ buf then some (string buf).length else none

def write (buf : Bytes) (off : ℕ) (v : Bytes) : Option Bytes :=
  if off + v.length ≤ buf.length then some (overwrite buf off v) else none

/-- At most `n` bytes and a zero behind the string of the buffer. -/
def strncat (buf src : Bytes) (n : ℕ) : Option Bytes := do
  let used ← strlen buf
  write buf used (src.take n ++ [0])

/-- Exactly `n` bytes, zeros when the string is shorter. -/
def strncpy (buf src : Bytes) (n : ℕ) : Option Bytes :=
  write buf 0 (src.take n ++ List.replicate (n - src.length) 0)

structure Holds (buf text : Bytes) : Prop where
  noNul : 0 ∉ text
  split : ∃ tail, buf = text ++ 0 :: tail

theorem string_append (h : 0 ∉ text) (tail : Bytes) : string (text ++ 0 :: tail) = text := by
  rw [string, List.takeWhile_append_of_pos]
  · exact List.append_nil text
  · intro c hc
    rw [bne_iff_ne]
    rintro rfl
    exact h hc

theorem Holds.string_eq (h : Holds buf text) : string buf = text := by
  obtain ⟨tail, rfl⟩ := h.split
  exact string_append h.noNul tail

theorem Holds.mem (h : Holds buf text) : 0 ∈ buf := by
  obtain ⟨tail, rfl⟩ := h.split
  exact List.mem_append_right _ List.mem_cons_self

theorem Holds.strlen_eq (h : Holds buf text) : strlen buf = some text.length := by
  rw [strlen, if_pos h.mem, h.string_eq]

theorem overwrite_split (l r v : Bytes) :
    overwrite (l ++ r) l.length v = l ++ (v ++ r.drop v.length) := by
  rw [overwrite, List.take_left, List.append_assoc, List.drop_append]
  have hdrop : l.drop (l.length + v.length) = [] := List.drop_eq_nil_of_le (Nat.le_add_right _ _)
  rw [hdrop, List.nil_append, Nat.add_sub_cancel_left]

/-- A string that is short enough is appended as a whole. -/
theorem strncat_spec (h : Holds buf text) (hsrc : 0 ∉ src) {n : ℕ} (hn : src.length ≤ n)
    (hfit : text.length + src.length < buf.length) :
    ∃ buf', strncat buf src n = some buf' ∧ Holds buf' (text ++ src) ∧
      buf'.length = buf.length := by
  have hlen : (src ++ [0]).length = src.length + 1 := List.length_append
  have hroom : text.length + (src ++ [0]).length ≤ buf.length := by omega
  have hwrite : strncat buf src n = some (overwrite buf text.length (src ++ [0])) := by
    rw [strncat, h.strlen_eq, List.take_of_length_le hn]
    exact if_pos hroom
  refine ⟨_, hwrite, ⟨?_, ?_⟩, length_overwrite buf _ _ hroom⟩
  · rw [List.mem_append, not_or]
    exact ⟨h.noNul, hsrc⟩
  · obtain ⟨tail, rfl⟩ := h.split
    rw [overwrite_split]
    refine ⟨(0 :: tail).drop (src ++ [0]).length, ?_⟩
    rw [List.append_assoc, List.append_assoc, List.singleton_append]

/-- A string that is copied without its zero. -/
theorem strncpy_spec {n : ℕ} (hsrc : src.length ≤ n) (hn : n ≤ buf.length) :
    ∃ buf', strncpy buf src n = some buf' ∧
      (∃ tail, buf' = src ++ List.replicate (n - src.length) 0 ++ tail) ∧
        buf'.length = buf.length := by
  have hlen : (src ++ List.replicate (n - src.length) 0).length = n := by
    rw [List.length_append, List.length_replicate]
    omega
  have hroom : 0 + (src ++ List.replicate (n - src.length) 0).length ≤ buf.length := by omega
  have hwrite : strncpy buf src n =
      some (overwrite buf 0 (src ++ List.replicate (n - src.length) 0)) := by
    rw [strncpy, List.take_of_length_le hsrc]
    exact if_pos hroom
  refine ⟨_, hwrite, ⟨buf.drop (0 + (src ++ List.replicate (n - src.length) 0).length), ?_⟩,
    length_overwrite buf _ _ hroom⟩
  rw [overwrite, List.take_zero, List.nil_append]

/-- A zero at or behind the end of the string leaves the string as it is. -/
theorem write_zero_spec (h : Holds buf text) {i : ℕ} (hi : i < buf.length)
    (htext : text.length ≤ i) :
    ∃ buf', write buf i [0] = some buf' ∧ Holds buf' text ∧ buf'.length = buf.length := by
  have hroom : i + [(0 : UInt8)].length ≤ buf.length := hi
  refine ⟨_, if_pos hroom, ⟨h.noNul, ?_⟩, length_overwrite buf _ _ hroom⟩
  obtain ⟨tail, rfl⟩ := h.split
  rw [overwrite_append_skip text (0 :: tail) [0] htext]
  cases i - text.length with
  | zero => exact ⟨_, rfl⟩
  | succ k => exact ⟨_, rfl⟩

/-- A zero ends the string before it. -/
theorem write_zero_holds (htext : 0 ∉ text) {tail : Bytes} (htail : tail ≠ []) :
    ∃ buf', write (text ++ tail) text.length [0] = some buf' ∧ Holds buf' text ∧
      buf'.length = (text ++ tail).length := by
  have hpos : 0 < tail.length := List.length_pos_iff.mpr htail
  have hroom : text.length + [(0 : UInt8)].length ≤ (text ++ tail).length := by
    rw [List.length_append, List.length_singleton]
    omega
  refine ⟨_, if_pos hroom, ⟨htext, ?_⟩, length_overwrite _ _ _ hroom⟩
  rw [overwrite_split]
  exact ⟨_, rfl⟩

/-- A string that is copied and ended by force. -/
theorem strncpy_write_zero {n : ℕ} (hsrc : 0 ∉ src) (hlen : src.length ≤ n) (hn : n < buf.length) :
    ∃ mid buf', strncpy buf src n = some mid ∧ write mid n [0] = some buf' ∧ Holds buf' src ∧
      buf'.length = buf.length := by
  obtain ⟨mid, hcopy, ⟨tail, hmid⟩, hmidlen⟩ := strncpy_spec hlen (le_of_lt hn)
  rw [List.append_assoc] at hmid
  cases hpad : n - src.length with
  | zero =>
    have hexact : src.length = n := by omega
    rw [hpad, List.replicate_zero, List.nil_append] at hmid
    have htail : tail ≠ [] := by
      rintro rfl
      rw [hmid, List.append_nil] at hmidlen
      omega
    obtain ⟨buf', hwrite, hholds, hbuf⟩ := write_zero_holds hsrc htail
    rw [← hmid, hexact] at hwrite
    rw [← hmid] at hbuf
    exact ⟨mid, buf', hcopy, hwrite, hholds, hbuf.trans hmidlen⟩
  | succ k =>
    rw [hpad, List.replicate_succ] at hmid
    obtain ⟨buf', hwrite, hholds, hbuf⟩ :=
      write_zero_spec ⟨hsrc, _, hmid⟩ (show n < mid.length by omega) hlen
    exact ⟨mid, buf', hcopy, hwrite, hholds, hbuf.trans hmidlen⟩

/-! ### Tokens -/

/-- The next token and what follows its separator. -/
def strtokR (sep : UInt8) (s : Bytes) : Option (Bytes × Bytes) :=
  match s.dropWhile (· == sep) with
  | [] => none
  | c :: cs => some ((c :: cs).takeWhile (· != sep), ((c :: cs).dropWhile (· != sep)).drop 1)

/-- What stands between separators, without what is empty. -/
def tokens (sep : UInt8) (s : Bytes) : List Bytes := (s.splitOn sep).filter (· ≠ [])

theorem tokens_nil (sep : UInt8) : tokens sep [] = [] := rfl

theorem tokens_append (sep : UInt8) (x y : Bytes) :
    tokens sep (x ++ sep :: y) = tokens sep x ++ tokens sep y := by
  rw [tokens, tokens, tokens, List.splitOn_append_cons_self, List.filter_append]

theorem tokens_sep (sep : UInt8) (s : Bytes) : tokens sep (sep :: s) = tokens sep s :=
  tokens_append sep [] s

theorem tokens_singleton {t : Bytes} (ht : t ≠ []) (hsep : sep ∉ t) : tokens sep t = [t] := by
  rw [tokens, List.splitOn_eq_singleton hsep]
  exact List.filter_cons_of_pos (decide_eq_true ht)

theorem tokens_dropWhile (sep : UInt8) (s : Bytes) :
    tokens sep (s.dropWhile (· == sep)) = tokens sep s := by
  induction s with
  | nil => rfl
  | cons c s ih =>
    rw [List.dropWhile_cons]
    split
    · rename_i hc
      rw [ih, eq_of_beq hc, tokens_sep]
    · rfl

theorem mem_splitOn {t : Bytes} (h : t ∈ s.splitOn sep) : sep ∉ t ∧ t ⊆ s := by
  induction s generalizing t with
  | nil =>
    rw [List.splitOn_nil, List.mem_singleton] at h
    rw [h]
    exact ⟨List.not_mem_nil, List.Subset.refl _⟩
  | cons c s ih =>
    rw [List.splitOn_cons_eq_if_modifyHead] at h
    split at h
    · rcases List.mem_cons.mp h with rfl | hrest
      · exact ⟨List.not_mem_nil, List.nil_subset _⟩
      · exact ⟨(ih hrest).1, List.subset_cons_of_subset c (ih hrest).2⟩
    · rename_i hc
      obtain ⟨first, rest, hsplit⟩ := List.exists_cons_of_ne_nil (List.splitOn_ne_nil sep s)
      rw [hsplit, List.modifyHead_cons, List.mem_cons] at h
      rw [hsplit] at ih
      rcases h with rfl | hrest
      · obtain ⟨hnot, hsub⟩ := ih List.mem_cons_self
        rw [List.mem_cons, not_or]
        exact ⟨⟨fun heq => hc (beq_iff_eq.mpr heq.symm), hnot⟩, List.cons_subset_cons c hsub⟩
      · obtain ⟨hnot, hsub⟩ := ih (List.mem_cons_of_mem first hrest)
        exact ⟨hnot, List.subset_cons_of_subset c hsub⟩

/-- A token has something in it, and no separator. -/
theorem mem_tokens {t : Bytes} (h : t ∈ tokens sep s) : t ≠ [] ∧ sep ∉ t ∧ t ⊆ s := by
  obtain ⟨hmem, hne⟩ := List.mem_filter.mp h
  exact ⟨of_decide_eq_true hne, mem_splitOn hmem⟩

theorem strtokR_none (h : strtokR sep s = none) : tokens sep s = [] := by
  rw [← tokens_dropWhile]
  rw [strtokR] at h
  split at h
  · rename_i hnil
    rw [hnil, tokens_nil]
  · cases h

/-- The next token is the first one, and the others are those of the rest. -/
theorem strtokR_some {t rest : Bytes} (h : strtokR sep s = some (t, rest)) :
    tokens sep s = t :: tokens sep rest ∧ rest.length < s.length := by
  rw [← tokens_dropWhile]
  rw [strtokR] at h
  split at h
  · cases h
  · rename_i c cs hs
    obtain ⟨rfl, rfl⟩ := Prod.mk.inj (Option.some.inj h)
    have hc : c ≠ sep := by
      have hnot := List.head?_dropWhile_not (· == sep) s
      rw [hs] at hnot
      exact fun heq => by simp [heq] at hnot
    have htoken : (c :: cs).takeWhile (· != sep) ≠ [] := by
      rw [List.takeWhile_cons, if_pos (bne_iff_ne.mpr hc)]
      exact List.cons_ne_nil _ _
    have hsep : sep ∉ (c :: cs).takeWhile (· != sep) := by
      intro hmem
      have hne := List.mem_takeWhile_imp (p := (· != sep)) hmem
      exact bne_iff_ne.mp hne rfl
    have hsplit := List.takeWhile_append_dropWhile (p := (· != sep)) (l := c :: cs)
    have hle : (c :: cs).length ≤ s.length := hs ▸ (List.dropWhile_sublist (· == sep)).length_le
    have hpos := List.length_pos_iff.mpr htoken
    have hsum := congrArg List.length hsplit
    rw [List.length_append] at hsum
    rw [hs]
    cases hrest : (c :: cs).dropWhile (· != sep) with
    | nil =>
      rw [hrest, List.append_nil] at hsplit
      refine ⟨?_, ?_⟩
      · conv_lhs => rw [← hsplit]
        exact tokens_singleton htoken hsep
      · rw [List.drop_nil, List.length_nil]
        exact lt_of_lt_of_le (Nat.succ_pos _) hle
    | cons d ds =>
      have hd : d = sep := by
        have hnot := List.head?_dropWhile_not (· != sep) (c :: cs)
        rw [hrest] at hnot
        simpa using hnot
      rw [hrest, hd] at hsplit
      refine ⟨?_, ?_⟩
      · conv_lhs => rw [← hsplit]
        rw [tokens_append, tokens_singleton htoken hsep]
        rfl
      · rw [hrest, List.length_cons] at hsum
        rw [List.drop_one, List.tail_cons]
        omega

/-! ### The length of tokens -/

def weight (ts : List Bytes) : ℕ := (ts.map fun t => t.length + 1).sum

theorem weight_cons (t : Bytes) (ts : List Bytes) : weight (t :: ts) = t.length + 1 + weight ts :=
  List.sum_cons

theorem weight_append (ts us : List Bytes) : weight (ts ++ us) = weight ts + weight us := by
  rw [weight, weight, weight, List.map_append, List.sum_append]

theorem weight_splitOn (sep : UInt8) (s : Bytes) : weight (s.splitOn sep) = s.length + 1 := by
  induction s with
  | nil => rfl
  | cons c s ih =>
    rw [List.splitOn_cons_eq_if_modifyHead]
    split
    · rw [weight_cons, ih, List.length_nil, List.length_cons]
      omega
    · obtain ⟨first, rest, hsplit⟩ := List.exists_cons_of_ne_nil (List.splitOn_ne_nil sep s)
      rw [hsplit, weight_cons] at ih
      rw [hsplit, List.modifyHead_cons, weight_cons, List.length_cons, List.length_cons]
      omega

theorem weight_tokens_le (sep : UInt8) (s : Bytes) : weight (tokens sep s) ≤ s.length + 1 := by
  rw [← weight_splitOn sep s]
  have hsub : (tokens sep s).Sublist (s.splitOn sep) := List.filter_sublist
  exact (hsub.map fun t => t.length + 1).sum_le_sum fun _ _ => Nat.zero_le _

end CStrings
