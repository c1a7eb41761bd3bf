import Agentd.IpcReaders

/-! # Values at the front of a stream

A value on a stream is a row of pieces, each of which has to be there as a whole when it is read. A
reader decodes values if it takes those that are at the front, and nothing else. -/
namespace StreamFronts

open ByteString
open FragmentedStreams
open IpcPackets (packetSize)
open TypedIpc
open IpcReaders

variable {ε ε' α β : Type} {frags mid left ps qs : List Bytes} {rest : Bytes}

/-! ### Pieces -/

structure Front (ps frags left : List Bytes) : Prop where
  flatten : frags.flatten = ps.flatten ++ left.flatten
  whole : FieldsWhole frags 0 (ps.map List.length)
  shift : ∀ a ns, FieldsWhole left a ns ↔ FieldsWhole frags (ps.flatten.length + a) ns

structure Arrives (ps frags : List Bytes) (rest : Bytes) : Prop where
  flatten : frags.flatten = ps.flatten ++ rest
  whole : FieldsWhole frags 0 (ps.map List.length)

theorem Front.nil (frags : List Bytes) : Front [] frags frags where
  flatten := rfl
  whole := trivial
  shift a ns := by simp

theorem Front.arrives (h : Front ps frags left) : Arrives ps frags left.flatten :=
  ⟨h.flatten, h.whole⟩

theorem Front.left_eq (h : Front ps frags left) (hs : frags.flatten = ps.flatten ++ rest) :
    left.flatten = rest :=
  List.append_cancel_left (h.flatten.symm.trans hs)

theorem Front.whole_append (h : Front ps frags left) :
    FieldsWhole frags 0 ((ps ++ qs).map List.length) ↔ FieldsWhole left 0 (qs.map List.length) := by
  rw [List.map_append, fieldsWhole_append, h.shift, List.length_flatten, Nat.zero_add, Nat.add_zero]
  exact and_iff_right h.whole

theorem Front.append (h : Front ps frags mid) (h' : Front qs mid left) :
    Front (ps ++ qs) frags left where
  flatten := by rw [h.flatten, h'.flatten, List.flatten_append, List.append_assoc]
  whole := h.whole_append.mpr h'.whole
  shift a ns := by rw [h'.shift, h.shift, List.flatten_append, List.length_append, Nat.add_assoc]

/-- What arrives behind the pieces that have been taken. -/
theorem Front.arrives_append (h : Front ps frags left) (ha : Arrives (ps ++ qs) frags rest) :
    Arrives qs left rest where
  flatten := h.left_eq (by rw [ha.flatten, List.flatten_append, List.append_assoc])
  whole := h.whole_append.mp ha.whole

theorem Front.arrives_cons (h : Front ps frags left) (ha : Arrives qs left rest) :
    Arrives (ps ++ qs) frags rest where
  flatten := by rw [h.flatten, ha.flatten, List.flatten_append, List.append_assoc]
  whole := h.whole_append.mpr ha.whole

theorem Arrives.front (h : Arrives (ps ++ qs) frags rest) :
    Arrives ps frags (qs.flatten ++ rest) where
  flatten := by rw [h.flatten, List.flatten_append, List.append_assoc]
  whole := by
    have hwhole := h.whole
    rw [List.map_append, fieldsWhole_append] at hwhole
    exact hwhole.1

/-- In one fragment everything arrives whole. -/
theorem arrives_singleton (ps : List Bytes) (rest : Bytes) :
    Arrives ps [ps.flatten ++ rest] rest where
  flatten := List.flatten_singleton
  whole := (unbroken_singleton _).fieldsWhole (by
    rw [List.flatten_singleton, List.length_append, List.length_flatten]
    omega)

/-! ### Readers -/

/-- The reader takes the values for which `P` holds off the front of a stream, where they stand in
these pieces. -/
structure Decodes (read : List Bytes → Except ε α × List Bytes) (pieces : α → List Bytes)
    (P : α → Prop) : Prop where
  sound : ∀ {frags left a}, read frags = (.ok a, left) → P a ∧ Front (pieces a) frags left
  complete : ∀ {frags rest a}, P a → Arrives (pieces a) frags rest →
    ∃ left, read frags = (.ok a, left) ∧ Front (pieces a) frags left

def thenRead (g : ε → ε') (read : List Bytes → Except ε α × List Bytes)
    (k : α → List Bytes → Except ε' β × List Bytes) (frags : List Bytes) :
    Except ε' β × List Bytes :=
  match read frags with
  | (.error e, frags) => (.error (g e), frags)
  | (.ok a, frags) => k a frags

section Decodes

variable {read : List Bytes → Except ε α × List Bytes} {pieces : α → List Bytes} {P Q : α → Prop}

/-- A stream begins with at most one of the values. -/
theorem Decodes.unique (h : Decodes read pieces P) {a b : α} {x y : Bytes} (ha : P a) (hb : P b)
    (heq : (pieces a).flatten ++ x = (pieces b).flatten ++ y) : a = b ∧ x = y := by
  obtain ⟨left, hread, -⟩ := h.complete ha (arrives_singleton (pieces a) x)
  obtain ⟨left', hread', -⟩ := h.complete hb (arrives_singleton (pieces b) y)
  rw [heq] at hread
  obtain rfl : a = b := Except.ok.inj (Prod.mk.inj (hread.symm.trans hread')).1
  exact ⟨rfl, List.append_cancel_left heq⟩

theorem Decodes.congr {pieces' : α → List Bytes} (h : Decodes read pieces P) (hP : ∀ a, P a ↔ Q a)
    (hpieces : ∀ a, P a → pieces a = pieces' a) : Decodes read pieces' Q where
  sound := by
    intro frags left a hread
    obtain ⟨ha, hfront⟩ := h.sound hread
    exact ⟨(hP a).mp ha, hpieces a ha ▸ hfront⟩
  complete := by
    intro frags rest a ha harrives
    rw [← hpieces a ((hP a).mpr ha)] at harrives ⊢
    exact h.complete ((hP a).mpr ha) harrives

theorem Decodes.of_iff (h : Decodes read pieces P) (hP : ∀ a, P a ↔ Q a) : Decodes read pieces Q :=
  h.congr hP fun _ _ => rfl

theorem decodes_pure (a : α) :
    Decodes (fun frags => ((.ok a : Except ε α), frags)) (fun _ => []) (· = a) where
  sound := by
    intro frags left b h
    obtain ⟨hb, rfl⟩ := Prod.mk.inj h
    exact ⟨(Except.ok.inj hb).symm, Front.nil _⟩
  complete := by
    rintro frags rest b rfl -
    exact ⟨frags, rfl, Front.nil _⟩

/-- A value that is refused is not read. -/
theorem Decodes.refuse {c : Prop} [Decidable c] {e : ε} (h : ¬ c → Decodes read pieces P) :
    Decodes (fun frags => if c then (.error e, frags) else read frags) pieces (fun a =>
      ¬ c ∧ P a) where
  sound := by
    intro frags left a hread
    by_cases hc : c
    · rw [if_pos hc] at hread
      cases hread
    · rw [if_neg hc] at hread
      obtain ⟨hP, hfront⟩ := (h hc).sound hread
      exact ⟨⟨hc, hP⟩, hfront⟩
  complete := by
    rintro frags rest a ⟨hc, hP⟩ harrives
    rw [if_neg hc]
    exact (h hc).complete hP harrives

/-- One value and then another one that the first is a part of. -/
theorem Decodes.bind {k : α → List Bytes → Except ε' β × List Bytes} {pieces' : β → List Bytes}
    {Q : β → Prop} {g : ε → ε'} (first : β → α) (h : Decodes read pieces P)
    (hk : ∀ a, P a → Decodes (k a) pieces' (fun b => first b = a ∧ Q b)) :
    Decodes (thenRead g read k) (fun b => pieces (first b) ++ pieces' b)
      (fun b => P (first b) ∧ Q b) where
  sound := by
    intro frags left b hread
    rw [thenRead] at hread
    split at hread
    · cases hread
    · rename_i a mid hfirst
      obtain ⟨hP, hfront⟩ := h.sound hfirst
      obtain ⟨⟨rfl, hQ⟩, hfront'⟩ := (hk a hP).sound hread
      exact ⟨⟨hP, hQ⟩, hfront.append hfront'⟩
  complete := by
    rintro frags rest b ⟨hP, hQ⟩ harrives
    obtain ⟨mid, hfirst, hfront⟩ := h.complete hP harrives.front
    obtain ⟨left, hread, hfront'⟩ :=
      (hk _ hP).complete ⟨rfl, hQ⟩ (hfront.arrives_append harrives)
    refine ⟨left, ?_, hfront.append hfront'⟩
    rw [thenRead, hfirst]
    exact hread

/-- The same reader with its values as a part of values of another type. -/
theorem Decodes.map {pieces' : β → List Bytes} {Q : β → Prop} (f : α → β)
    (h : Decodes read pieces P)
    (hpieces : ∀ a, pieces' (f a) = pieces a) (hQ : ∀ b, Q b ↔ ∃ a, P a ∧ f a = b) :
    Decodes (fun frags => mapResult f (read frags)) pieces' Q where
  sound := by
    intro frags left b hread
    cases hx : read frags with
    | mk x frags' =>
      cases x with
      | error e =>
        rw [hx] at hread
        cases hread
      | ok a =>
        rw [hx] at hread
        obtain ⟨hb, rfl⟩ := Prod.mk.inj hread
        obtain rfl : f a = b := Except.ok.inj hb
        obtain ⟨hP, hfront⟩ := h.sound hx
        exact ⟨(hQ _).mpr ⟨a, hP, rfl⟩, by rwa [hpieces]⟩
  complete := by
    intro frags rest b hb harrives
    obtain ⟨a, hP, rfl⟩ := (hQ b).mp hb
    rw [hpieces] at harrives ⊢
    obtain ⟨left, hread, hfront⟩ := h.complete hP harrives
    rw [hread]
    exact ⟨left, rfl, hfront⟩

end Decodes

/-! ### Typed values -/

def integerPieces (t : IpcType) (size : ℕ) {w : ℕ} (v : BitVec w) : List Bytes :=
  [be 4 t.code, be size v]

def sizedPieces (t : IpcType) (b : Bytes) : List Bytes :=
  [be 4 t.code, be 4 (BitVec.ofNat 32 b.length), b]

theorem take_four {s : Bytes} {code : BitVec 32} (hlen : 4 ≤ s.length) (h : typeAt s = code) :
    s.take 4 = be 4 code := by
  rw [← h, typeAt, be_bits (by decide) (by rw [List.length_take]; omega)]

theorem typeAt_be (code : BitVec 32) (s : Bytes) : typeAt (be 4 code ++ s) = code := by
  rw [typeAt, List.take_left' (by simp), bits_be (by decide)]

theorem Front.of_after {n : ℕ} (hps : frags.flatten.take n = ps.flatten)
    (hn : (ps.map List.length).sum = n) (hwhole : FieldsWhole frags 0 (ps.map List.length))
    (hafter : After n frags left) : Front ps frags left where
  flatten := by rw [hafter.flatten, ← hps, List.take_append_drop]
  whole := hwhole
  shift a ns := by rw [hafter.whole, List.length_flatten, hn]

theorem decodes_integer (t : IpcType) {size w : ℕ} (hw : w = 8 * size) :
    Decodes (fun frags => mapResult (bits w) (readTyped t (readField size) frags))
      (integerPieces t size) (fun _ => True) where
  sound := by
    intro frags left v hread
    obtain ⟨htype, hle, hwhole, rfl, hafter⟩ := (reads_bits t size w).ok_front hread
    simp only [List.sum_cons, List.sum_nil, Nat.add_zero] at hle hafter
    have hvalue := be_bits_slice (b := frags.flatten) hw (show 4 + size ≤ _ by omega)
    refine ⟨trivial, Front.of_after ?_ (by simp [integerPieces]) ?_ hafter⟩
    · rw [integerPieces, hvalue, ← take_four (by omega) htype, List.take_add]
      simp [slice]
    · simpa [integerPieces] using hwhole
  complete := by
    rintro frags rest v - ⟨hflatten, hwhole⟩
    have hlen : [4, size].sum = (integerPieces t size v).flatten.length := by simp [integerPieces]
    have hbytes : frags.flatten = be 4 t.code ++ (be size v ++ rest) := by
      rw [hflatten]
      simp [integerPieces]
    have hvalue : bits w (slice frags.flatten 4 size) = v := by
      rw [hbytes, slice_append_skip _ _ _ (by simp), length_be, Nat.sub_self,
        slice_append_self _ _ (by simp), bits_be hw]
    obtain ⟨left, hread, hafter⟩ := (reads_bits t size w).succeeds
      (by rw [hbytes]; exact typeAt_be _ _) (by rw [hlen, hflatten, List.length_append]; omega)
      (by simpa [integerPieces] using hwhole)
    rw [hvalue] at hread
    refine ⟨left, hread, Front.of_after ?_ (by simp [integerPieces]) hwhole hafter⟩
    rw [hlen, hflatten, List.take_left]

theorem decodes_sized (t : IpcType) (sizeOk : ℕ → Bool) :
    Decodes (readTyped t (readSized sizeOk false)) (sizedPieces t)
      (fun b => sizeOk b.length = true ∧ b.length < 2 ^ 32) where
  sound := by
    intro frags left b hread
    obtain ⟨⟨htype, hsize⟩, hle, hwhole, rfl, hafter⟩ := (reads_sized t sizeOk).ok_front hread
    simp only [List.sum_cons, List.sum_nil, Nat.add_zero] at hle hafter
    have hlen : (slice frags.flatten 8 (packetSize frags.flatten)).length =
        packetSize frags.flatten := by
      rw [slice, List.length_take, List.length_drop]
      omega
    have hnsize : be 4 (BitVec.ofNat 32 (packetSize frags.flatten)) = slice frags.flatten 4 4 := by
      rw [packetSize, BitVec.ofNat_toNat, BitVec.setWidth_eq, be_bits_slice (by decide) (by omega)]
    rw [hlen]
    refine ⟨⟨hsize, (bits 32 _).isLt⟩, Front.of_after ?_ (by simp [sizedPieces, hlen]) ?_ hafter⟩
    · rw [sizedPieces, hlen, hnsize, ← take_four (by omega) htype, ← Nat.add_assoc, List.take_add,
        List.take_add]
      simp [slice]
    · simpa [sizedPieces, hlen] using hwhole
  complete := by
    rintro frags rest b ⟨hok, hlt⟩ ⟨hflatten, hwhole⟩
    have hbytes : frags.flatten =
        be 4 t.code ++ (be 4 (BitVec.ofNat 32 b.length) ++ (b ++ rest)) := by
      rw [hflatten]
      simp [sizedPieces]
    have hsize : packetSize frags.flatten = b.length := by
      rw [packetSize, hbytes, slice_append_skip _ _ _ (by simp), length_be, Nat.sub_self,
        slice_append_self _ _ (by simp), bits_be (by decide), BitVec.toNat_ofNat,
        Nat.mod_eq_of_lt hlt]
    have hvalue : slice frags.flatten 8 b.length = b := by
      rw [hbytes, ← List.append_assoc, slice_append_skip _ _ _ (by simp), List.length_append,
        length_be, length_be]
      exact slice_append_self _ _ rfl
    have hlen : [4, 4, b.length].sum = (sizedPieces t b).flatten.length := by
      simp [sizedPieces]
    obtain ⟨left, hread, hafter⟩ := (reads_sized t sizeOk).succeeds
      ⟨by rw [hbytes]; exact typeAt_be _ _, by rw [hsize]; exact hok⟩
      (by rw [hsize, hlen, hflatten, List.length_append]; omega)
      (by simpa [sizedPieces, hsize] using hwhole)
    rw [hsize, hvalue] at hread
    rw [hsize, hlen] at hafter
    refine ⟨left, hread, Front.of_after ?_ ?_ hwhole hafter⟩
    · rw [hflatten, List.take_left]
    · rw [List.length_flatten]

theorem decodes_uint8 :
    Decodes ipcReadUint8Block (integerPieces .uint8 1) (fun _ => True) :=
  decodes_integer .uint8 rfl

theorem decodes_int64 :
    Decodes ipcReadInt64Block (integerPieces .int64 8) (fun _ => True) :=
  decodes_integer .int64 rfl

theorem decodes_uint64 :
    Decodes ipcReadUint64Block (integerPieces .uint64 8) (fun _ => True) :=
  decodes_integer .uint64 rfl

theorem decodes_string :
    Decodes (ipcReadStringBlock false) (sizedPieces .string) (fun b =>
      b.length ≤ maxStringSize) := by
  refine (decodes_sized .string (· ≤ maxStringSize)).of_iff fun b => ?_
  have hmax : maxStringSize < 2 ^ 32 := by decide
  rw [decide_eq_true_eq]
  constructor
  · exact And.left
  · intro hle
    exact ⟨hle, by omega⟩

theorem decodes_dataPacket :
    Decodes (ipcReadDataBlock false) (sizedPieces .dataPacket) (fun b => b.length < 2 ^ 32) :=
  (decodes_sized .dataPacket fun _ => true).of_iff fun _ => and_iff_right rfl

end StreamFronts
