import Agentd.TypedIpc

/-! # The readers of a type

What the reader for a blocking socket and the one for a buffer find at the front of a stream, in
whatever fragments it arrives, and when they find the same. -/
namespace IpcReaders

open ByteString
open DataserviceRequests
open IncrementalParsing
open IpcPackets
open FragmentedStreams
open TypedIpc

variable {t : IpcType} {frags : List Bytes} {buf : Bytes} {closed : Bool}

/-! ### Items in the buffer of a reader that does not block -/

def firstInteger (typeOk : BitVec 32 → Bool) (size : ℕ) (buf : Bytes) : Option (Bytes × Bytes) :=
  if size + 4 ≤ buf.length ∧ typeOk (bits 32 (buf.take 4)) = true then
    some (slice buf 4 size, buf.drop (4 + size))
  else none

theorem firstInteger_some {typeOk : BitVec 32 → Bool} {size : ℕ} {p r : Bytes}
    (h : firstInteger typeOk size buf = some (p, r)) :
    (size + 4 ≤ buf.length ∧ typeOk (bits 32 (buf.take 4)) = true) ∧
      p = slice buf 4 size ∧ r = buf.drop (4 + size) := by
  rw [firstInteger] at h
  split at h
  · rename_i hfront
    obtain ⟨rfl, rfl⟩ := Prod.mk.inj (Option.some.inj h)
    exact ⟨hfront, rfl, rfl⟩
  · cases h

theorem take_append_four {b c : Bytes} (h : 4 ≤ b.length) : (b ++ c).take 4 = b.take 4 :=
  List.take_append_of_le_length h

theorem integer_taker (typeOk : BitVec 32 → Bool) (size : ℕ) (hsize : 0 < size)
    (call : EvbufferRead) :
    Taker (firstInteger typeOk size) (takeInteger typeOk size (workingRead call))
      IpcError.wouldBlock where
  incremental :=
    { shrinks := by
        intro b p r h
        obtain ⟨⟨hlen, -⟩, -, rfl⟩ := firstInteger_some h
        rw [List.length_drop]
        omega
      stable := by
        intro b p r c h
        obtain ⟨⟨hlen, htype⟩, rfl, rfl⟩ := firstInteger_some h
        rw [firstInteger, take_append_four (by omega), if_pos ⟨by simp; omega, htype⟩, slice, slice,
          List.drop_append_of_le_length (by omega),
          List.take_append_of_le_length (by rw [List.length_drop]; omega),
          List.drop_append_of_le_length (by omega)] }
  ok_iff := by
    intro b p r
    constructor
    · intro h
      rw [takeInteger] at h
      split_ifs at h with hshort htype hlong hd hr
      all_goals simp only [Prod.mk.injEq, reduceCtorEq, false_and] at h
      obtain ⟨hp, hrest⟩ := h
      rw [firstInteger, if_pos ⟨by omega, by simpa using htype⟩, Except.ok.inj hp, hrest]
    · intro h
      obtain ⟨⟨hlen, htype⟩, rfl, rfl⟩ := firstInteger_some h
      rw [takeInteger, if_neg (by omega), if_neg (by simp [htype]), if_neg (by omega)]
      rfl
  waits := by
    intro b c x hnone hsome
    obtain ⟨p, r⟩ := x
    obtain ⟨⟨hlen, htype⟩, -, -⟩ := firstInteger_some hsome
    rw [takeInteger]
    by_cases hshort : b.length < 4
    · rw [if_pos hshort]
    · rw [take_append_four (by omega)] at htype
      rw [if_neg hshort, if_neg (by simp [htype])]
      by_cases hlong : b.length < size + 4
      · rw [if_pos hlong]
      · rw [firstInteger, if_pos ⟨by omega, htype⟩] at hnone
        cases hnone
  keeps := by
    intro b r h
    rw [takeInteger] at h
    split_ifs at h with hshort htype hlong hd hr
    all_goals simp only [Prod.mk.injEq, Except.error.injEq, reduceCtorEq, false_and, true_and] at h
    · exact h.symm
    · exact h.symm
  early := by
    intro b c p r h hle
    obtain ⟨⟨hlen, htype⟩, -, rfl⟩ := firstInteger_some h
    rw [List.length_drop, List.length_append] at hle
    rw [List.length_append] at hlen
    rw [take_append_four (by omega)] at htype
    rw [firstInteger, if_pos ⟨by omega, htype⟩]
    rfl

theorem packet_taker (call : EvbufferRead) :
    Taker firstPacket (takePacket (workingRead call)) IpcError.wouldBlock where
  incremental := firstPacket_incremental
  ok_iff := by
    intro b p r
    rw [takePacket_ok_iff]
    exact ⟨fun h => h.1, fun h => ⟨h, rfl, rfl, rfl⟩⟩
  waits := by
    intro b c x hnone hsome
    obtain ⟨p, r⟩ := x
    obtain ⟨⟨hlen, htype, hzero, hmax, hfull⟩, -, -⟩ := firstPacket_some hsome
    rw [takePacket]
    by_cases hshort : b.length < headerSize
    · rw [if_pos hshort]
    · have hheader : headerSize ≤ b.length := Nat.le_of_not_lt hshort
      rw [packetSize_append c hheader] at hzero hmax hfull
      rw [take_append_four (by simp only [headerSize] at hheader; omega)] at htype
      rw [if_neg hshort, if_neg (not_not.mpr htype), if_neg (not_or.mpr ⟨hzero, not_le.mpr hmax⟩)]
      by_cases hlong : b.length < packetSize b + headerSize
      · rw [if_pos hlong]
      · rw [firstPacket, if_pos ⟨hheader, htype, hzero, hmax, Nat.le_of_not_lt hlong⟩] at hnone
        cases hnone
  keeps := fun h => (takePacket_wouldBlock h).2
  early := by
    intro b c p r h hle
    obtain ⟨⟨hlen, htype, hzero, hmax, hfull⟩, -, rfl⟩ := firstPacket_some h
    rw [List.length_drop, List.length_append] at hle
    rw [List.length_append] at hfull
    have hheader : headerSize ≤ b.length := by
      simp only [headerSize] at *
      omega
    rw [take_append_four (by simp only [headerSize] at hheader; omega)] at htype
    rw [packetSize_append c hheader] at hzero hmax hfull hle
    rw [firstPacket, if_pos ⟨hheader, htype, hzero, hmax, by omega⟩]
    rfl

/-- What the drain returns is never the size of the header. -/
theorem evbufferDrain_ne (fails : Bool) (buf : Bytes) :
    (headerSize : ℤ) ≠ (evbufferDrain fails headerSize buf).1 := by
  cases fails with
  | true => exact (by decide : (headerSize : ℤ) ≠ -1)
  | false => exact (by decide : (headerSize : ℤ) ≠ 0)

/-- So no string is ever read. -/
theorem ipcReadStringNoblock_cases (c : ReadCall) (buf : Bytes) :
    ipcReadStringNoblock c buf = (.error .wouldBlock, buf) ∨
      ∃ e r, e ≠ .wouldBlock ∧ ipcReadStringNoblock c buf = (.error e, r) := by
  have hne := evbufferDrain_ne c.drainFails buf
  rw [ipcReadStringNoblock]
  generalize evbufferDrain c.drainFails headerSize buf = drained at hne
  obtain ⟨drained, r⟩ := drained
  split
  · exact Or.inl rfl
  split
  · exact Or.inr ⟨_, _, by decide, rfl⟩
  split
  · exact Or.inr ⟨_, _, by decide, rfl⟩
  split
  · exact Or.inl rfl
  split
  · exact Or.inr ⟨_, _, by decide, rfl⟩
  · simp only at hne
    simp only [if_pos hne]
    exact Or.inr ⟨_, _, by decide, rfl⟩

theorem string_taker (c : ReadCall) :
    Taker (fun _ => none) (ipcReadStringNoblock c) IpcError.wouldBlock where
  incremental :=
    { shrinks := fun h => by cases h
      stable := fun _ h => by cases h }
  ok_iff := by
    intro b p r
    constructor
    · intro h
      rcases ipcReadStringNoblock_cases c b with heq | ⟨e, r', -, heq⟩
      · rw [heq] at h
        cases h
      · rw [heq] at h
        cases h
    · intro h
      cases h
  waits := fun _ h => by cases h
  keeps := by
    intro b r h
    rcases ipcReadStringNoblock_cases c b with heq | ⟨e, r', hne, heq⟩
    · rw [heq] at h
      exact (Prod.mk.inj h).2.symm
    · rw [heq] at h
      exact absurd (Except.error.inj (Prod.mk.inj h).1) hne
  early := fun h => by cases h

/-! ### All types -/

def nextOf : IpcType → Bytes → Option (Result × Bytes)
  | .int64, b =>
    (firstInteger (· == IpcType.int64.code) 8 b).map fun x => (.int64 (bits 64 x.1), x.2)
  | .uint64, b =>
    (firstInteger (· == IpcType.uint64.code) 8 b).map fun x => (.uint64 (bits 64 x.1), x.2)
  | .int8, b => (firstInteger (fun _ => true) 1 b).map fun x => (.int8 (bits 8 x.1), x.2)
  | .uint8, b =>
    (firstInteger (· == IpcType.uint8.code) 1 b).map fun x => (.uint8 (bits 8 x.1), x.2)
  | .string, _ => none
  | .dataPacket, b => (firstPacket b).map fun x => (.dataPacket x.1, x.2)

def takeOf (t : IpcType) (b : Bytes) : Except IpcError Result × Bytes :=
  readNoblock (workingRead (.data [])) b t

theorem mapResult_mapResult {γ δ η ζ ι : Type} (f : γ → δ) (g : δ → η) (x : Except ι γ × ζ) :
    mapResult g (mapResult f x) = mapResult (fun a => g (f a)) x := by
  obtain ⟨e, z⟩ := x
  cases e with
  | error e => rfl
  | ok a => rfl

theorem taker_of (t : IpcType) : Taker (nextOf t) (takeOf t) IpcError.wouldBlock := by
  have hinteger : ∀ (typeOk : BitVec 32 → Bool) (size w : ℕ) (f : BitVec w → Result),
      (fun b => mapResult f (mapResult (bits w)
      (readInteger typeOk size (workingRead (.data [])) b))) =
        fun b => ((takeInteger typeOk size (workingRead (.data [])) b).1.map (fun b =>
          f (bits w b)), (takeInteger typeOk size (workingRead (.data [])) b).2) := by
    intro typeOk size w f
    funext b
    simp only [mapResult_mapResult, readInteger, workingRead, List.append_nil]
    rfl
  cases t with
  | int64 =>
    have htaker := (integer_taker (· == IpcType.int64.code) 8 (by decide) (.data [])).map
      fun b => Result.int64 (bits 64 b)
    rwa [← hinteger] at htaker
  | uint64 =>
    have htaker := (integer_taker (· == IpcType.uint64.code) 8 (by decide) (.data [])).map
      fun b => Result.uint64 (bits 64 b)
    rwa [← hinteger] at htaker
  | int8 =>
    have htaker := (integer_taker (fun _ => true) 1 (by decide) (.data [])).map
      fun b => Result.int8 (bits 8 b)
    rwa [← hinteger] at htaker
  | uint8 =>
    have htaker := (integer_taker (· == IpcType.uint8.code) 1 (by decide) (.data [])).map
      fun b => Result.uint8 (bits 8 b)
    rwa [← hinteger] at htaker
  | string =>
    have htaker := (string_taker (workingRead (.data []))).map Result.string
    have heq : takeOf .string = fun b => ((ipcReadStringNoblock (workingRead (.data [])) b).1.map
        Result.string, (ipcReadStringNoblock (workingRead (.data [])) b).2) := by
      funext b
      simp only [takeOf, readNoblock, workingRead, EvbufferRead.bytes, List.append_nil]
      rfl
    rw [heq]
    exact htaker
  | dataPacket =>
    have htaker := (packet_taker (.data [])).map Result.dataPacket
    have heq : takeOf .dataPacket = fun b => ((takePacket (workingRead (.data [])) b).1.map
        Result.dataPacket, (takePacket (workingRead (.data [])) b).2) := by
      funext b
      simp only [takeOf, readNoblock, ipcReadDataNoblock, workingRead, List.append_nil]
      rfl
    rw [heq]
    exact htaker

theorem feed_eq (t : IpcType) (c b : Bytes) :
    readNoblock (workingRead (.data c)) b t = takeOf t (b ++ c) := by
  cases t with
  | string => simp only [takeOf, readNoblock, workingRead, EvbufferRead.bytes, List.append_nil]; rfl
  | dataPacket =>
    simp only [takeOf, readNoblock, ipcReadDataNoblock, workingRead,
      List.append_nil]; rfl
  | _ =>
    simp only [takeOf, readNoblock, ipcReadInt64Noblock, ipcReadUint64Noblock, ipcReadInt8Noblock,
      ipcReadUint8Noblock, readInteger, workingRead, List.append_nil]
    rfl

/-- Whether a value that is in the buffer already is read when the socket has nothing more. -/
def readableAtEnd (closed : Bool) : IpcType → Bool
  | .string => true
  | .dataPacket => !closed
  | _ => closed

theorem atEnd_readable (h : readableAtEnd closed t = true) (b : Bytes) :
    readNoblock (workingRead (afterwards closed)) b t = takeOf t b := by
  cases t with
  | string =>
    cases closed with
    | true => rfl
    | false => rfl
  | dataPacket =>
    obtain rfl : closed = false := by simpa [readableAtEnd] using h
    simp only [takeOf, readNoblock, ipcReadDataNoblock, workingRead, afterwards, List.append_nil]
    rfl
  | _ =>
    obtain rfl : closed = true := h
    simp only [takeOf, readNoblock, ipcReadInt64Noblock, ipcReadUint64Noblock, ipcReadInt8Noblock,
      ipcReadUint8Noblock, readInteger, workingRead, afterwards, List.append_nil]
    rfl

theorem atEnd_unreadable (h : readableAtEnd closed t = false) (b : Bytes) :
    ∃ e, readNoblock (workingRead (afterwards closed)) b t = (.error e, b) := by
  cases t with
  | string => cases h
  | dataPacket =>
    obtain rfl : closed = true := by simpa [readableAtEnd] using h
    exact ⟨_, rfl⟩
  | _ =>
    obtain rfl : closed = false := h
    exact ⟨_, rfl⟩

theorem atEnd_sound {b r : Bytes} {p : Result}
    (h : readNoblock (workingRead (afterwards closed)) b t = (.ok p, r)) :
    nextOf t b = some (p, r) := by
  cases hend : readableAtEnd closed t with
  | true =>
    rw [atEnd_readable hend] at h
    exact (taker_of t).ok_iff.mp h
  | false =>
    obtain ⟨e, he⟩ := atEnd_unreadable hend b
    rw [he] at h
    cases h

/-- A value that is complete with the fragments is taken, and nothing else. -/
theorem readWhenReady_takes {r : Result} {rest : Bytes} {size : ℕ} (hmore : frags.flatten ≠ [])
    (hnext : nextOf t (buf ++ frags.flatten) = some (r, rest))
    (hsize : size + rest.length = (buf ++ frags.flatten).length) :
    ∃ buf', readWhenReady closed t (buf, frags) =
        (.ok r, buf', (handOver size buf.length frags).2) ∧
      buf' ++ (handOver size buf.length frags).2.flatten = rest ∧
      buf'.length + size = (handOver size buf.length frags).1 :=
  (taker_of t).collect_ok (fun c b => feed_eq t c b) hmore hnext hsize

theorem readWhenReady_sound {r : Result} {s : Bytes × List Bytes}
    (h : readWhenReady closed t (buf, frags) = (.ok r, s)) :
    nextOf t (buf ++ frags.flatten) = some (r, s.1 ++ s.2.flatten) :=
  (taker_of t).collect_sound (fun c b => feed_eq t c b) atEnd_sound h

/-! ### Fields that are read at once -/

structure After (n : ℕ) (frags left : List Bytes) : Prop where
  flatten : left.flatten = frags.flatten.drop n
  whole : ∀ a ns, FieldsWhole left a ns ↔ FieldsWhole frags (n + a) ns

theorem After.trans {n m : ℕ} {frags₁ left : List Bytes} (h : After n frags frags₁)
    (h' : After m frags₁ left) : After (n + m) frags left where
  flatten := by rw [h'.flatten, h.flatten, List.drop_drop]
  whole a ns := by rw [h'.whole, h.whole, Nat.add_assoc]

/-- A read of fields of these sizes: it gets its value if `ok` holds and the fields are there and
whole, and else it fails. -/
structure Reads {γ : Type} (frags : List Bytes) (x : Except ReadError γ × List Bytes) (ok : Prop)
    (ns : List ℕ) (val : γ) : Prop where
  succeeds : ok → ns.sum ≤ frags.flatten.length → FieldsWhole frags 0 ns →
    ∃ left, x = (.ok val, left) ∧ After ns.sum frags left
  fails : ¬ (ok ∧ ns.sum ≤ frags.flatten.length ∧ FieldsWhole frags 0 ns) →
    ∃ e left, x = (.error e, left)

theorem readField_whole {n : ℕ} (hle : n ≤ frags.flatten.length) (hwhole : Whole frags 0 n) :
    ∃ left, readField n frags = (.ok (frags.flatten.take n), left) ∧ After n frags left := by
  have hlen := length_readFront hle hwhole
  obtain ⟨hfront, hleft⟩ := readFront_whole hle hwhole
  obtain ⟨-, -, hshift⟩ := readFront_full hlen
  rw [readField, if_pos hlen, hfront]
  exact ⟨_, rfl, hleft, fun a ns => fieldsWhole_shift hshift a ns⟩

theorem readField_split {n : ℕ} (h : ¬ (n ≤ frags.flatten.length ∧ Whole frags 0 n)) :
    ∃ left, readField n frags = (.error .readBlockFailure, left) := by
  rw [readField, if_neg]
  · exact ⟨_, rfl⟩
  · intro hlen
    obtain ⟨hle, hwhole, -⟩ := readFront_full hlen
    exact h ⟨hle, hwhole⟩

/-- One field, and what is read behind it. -/
theorem Reads.cons {γ : Type} {n : ℕ} {ok : Prop} {ns : List ℕ} {val : γ}
    {k : Bytes → List Bytes → Except ReadError γ × List Bytes}
    (h : ∀ left, After n frags left → n ≤ frags.flatten.length →
      Reads left (k (frags.flatten.take n) left) ok ns val) :
    Reads frags (match readField n frags with
      | (.error e, frags) => (.error e, frags)
      | (.ok b, frags) => k b frags) ok (n :: ns) val where
  succeeds := by
    intro hok hsum hwhole
    rw [List.sum_cons] at hsum
    obtain ⟨hfirst, hrest⟩ := hwhole
    have hle : n ≤ frags.flatten.length := by omega
    obtain ⟨left, hread, hafter⟩ := readField_whole hle hfirst
    simp only [hread]
    have hlen : ns.sum ≤ left.flatten.length := by
      rw [hafter.flatten, List.length_drop]
      omega
    rw [Nat.zero_add, ← Nat.add_zero n, ← hafter.whole] at hrest
    obtain ⟨left', hx, hafter'⟩ := (h left hafter hle).succeeds hok hlen hrest
    exact ⟨left', hx, hafter.trans hafter'⟩
  fails := by
    intro hnot
    by_cases hfirst : n ≤ frags.flatten.length ∧ Whole frags 0 n
    · obtain ⟨left, hread, hafter⟩ := readField_whole hfirst.1 hfirst.2
      simp only [hread]
      apply (h left hafter hfirst.1).fails
      rintro ⟨hok, hlen, hrest⟩
      rw [hafter.flatten, List.length_drop] at hlen
      rw [hafter.whole, Nat.add_zero] at hrest
      refine hnot ⟨hok, ?_, hfirst.2, by rwa [Nat.zero_add]⟩
      rw [List.sum_cons]
      omega
    · obtain ⟨left, hread⟩ := readField_split hfirst
      simp only [hread]
      exact ⟨_, _, rfl⟩

theorem reads_field (n : ℕ) (frags : List Bytes) :
    Reads frags (readField n frags) True [n] (frags.flatten.take n) where
  succeeds := by
    rintro - hsum ⟨hwhole, -⟩
    exact readField_whole (by simpa using hsum) hwhole
  fails := by
    intro hnot
    have hsplit : ¬ (n ≤ frags.flatten.length ∧ Whole frags 0 n) := fun hfirst =>
      hnot ⟨trivial, by simpa using hfirst.1, hfirst.2, trivial⟩
    obtain ⟨left, hread⟩ := readField_split hsplit
    exact ⟨_, left, hread⟩

theorem Reads.guard {γ : Type} {c ok : Prop} [Decidable c] {ns : List ℕ} {val : γ} {e : ReadError}
    {x : Except ReadError γ × List Bytes} (h : Reads frags x ok ns val) :
    Reads frags (if c then x else (.error e, frags)) (c ∧ ok) ns val where
  succeeds := by
    rintro ⟨hc, hok⟩ hsum hwhole
    rw [if_pos hc]
    exact h.succeeds hok hsum hwhole
  fails := by
    intro hnot
    by_cases hc : c
    · rw [if_pos hc]
      exact h.fails fun hall => hnot ⟨⟨hc, hall.1⟩, hall.2⟩
    · rw [if_neg hc]
      exact ⟨_, _, rfl⟩

theorem Reads.map {γ δ : Type} {ok : Prop} {ns : List ℕ} {val : γ}
    {x : Except ReadError γ × List Bytes} (f : γ → δ) (h : Reads frags x ok ns val) :
    Reads frags (mapResult f x) ok ns (f val) where
  succeeds := by
    intro hok hsum hwhole
    obtain ⟨left, rfl, hafter⟩ := h.succeeds hok hsum hwhole
    exact ⟨left, rfl, hafter⟩
  fails := by
    intro hnot
    obtain ⟨e, left, rfl⟩ := h.fails hnot
    exact ⟨e, left, rfl⟩

theorem Reads.of_eq {γ : Type} {ok ok' : Prop} {ns ns' : List ℕ} {val val' : γ}
    {x : Except ReadError γ × List Bytes} (h : Reads frags x ok ns val) (hok : ok ↔ ok')
    (hns : ns = ns') (hval : val = val') : Reads frags x ok' ns' val' := by
  subst hns hval
  rwa [propext hok] at h

/-- A read that has succeeded got its value from the front of the stream. -/
theorem Reads.ok_front {γ : Type} {ok : Prop} {ns : List ℕ} {val v : γ} {left : List Bytes}
    {x : Except ReadError γ × List Bytes} (h : Reads frags x ok ns val) (hx : x = (.ok v, left)) :
    ok ∧ ns.sum ≤ frags.flatten.length ∧ FieldsWhole frags 0 ns ∧ v = val ∧
      After ns.sum frags left := by
  by_cases hall : ok ∧ ns.sum ≤ frags.flatten.length ∧ FieldsWhole frags 0 ns
  · obtain ⟨hok, hsum, hwhole⟩ := hall
    obtain ⟨left', hread, hafter⟩ := h.succeeds hok hsum hwhole
    obtain ⟨hv, hleft⟩ := Prod.mk.inj (hx.symm.trans hread)
    exact ⟨hok, hsum, hwhole, Except.ok.inj hv, hleft ▸ hafter⟩
  · obtain ⟨e, left', herror⟩ := h.fails hall
    rw [hx] at herror
    cases herror

/-! ### Types on a stream -/

def sizesAt (b : Bytes) : IpcType → List ℕ
  | .int64 => [4, 8]
  | .uint64 => [4, 8]
  | .int8 => [4, 1]
  | .uint8 => [4, 1]
  | .string => [4, 4, packetSize b]
  | .dataPacket => [4, 4, packetSize b]

def resultAt (b : Bytes) : IpcType → Result
  | .int64 => .int64 (bits 64 (slice b 4 8))
  | .uint64 => .uint64 (bits 64 (slice b 4 8))
  | .int8 => .int8 (bits 8 (slice b 4 1))
  | .uint8 => .uint8 (bits 8 (slice b 4 1))
  | .string => .string (slice b 8 (packetSize b))
  | .dataPacket => .dataPacket (slice b 8 (packetSize b))

def typeAt (b : Bytes) : BitVec 32 := bits 32 (b.take 4)

def sizeOkAt (b : Bytes) : IpcType → Prop
  | .string => packetSize b ≤ maxStringSize
  | _ => True

theorem reads_typed {γ : Type} {body : List Bytes → Except ReadError γ × List Bytes} {ok : Prop}
    {ns : List ℕ} {val : γ} (t : IpcType)
    (h : ∀ left, After 4 frags left → 4 ≤ frags.flatten.length → Reads left (body left) ok ns val) :
    Reads frags (readTyped t body frags) (typeAt frags.flatten = t.code ∧ ok) (4 :: ns) val :=
  Reads.cons fun left hafter hle => (h left hafter hle).guard

theorem reads_bits (t : IpcType) (size w : ℕ) :
    Reads frags (mapResult (bits w) (readTyped t (readField size) frags))
      (typeAt frags.flatten = t.code) [4, size] (bits w (slice frags.flatten 4 size)) := by
  have hbody : ∀ left, After 4 frags left → 4 ≤ frags.flatten.length →
      Reads left (readField size left) True [size] (slice frags.flatten 4 size) := by
    intro left hafter _
    exact (reads_field size left).of_eq Iff.rfl rfl (by rw [hafter.flatten, slice])
  exact ((reads_typed t hbody).map (bits w)).of_eq (and_iff_left trivial) rfl rfl

theorem reads_integer (t : IpcType) (size w : ℕ) (f : BitVec w → Result) :
    Reads frags (mapResult f (mapResult (bits w) (readTyped t (readField size) frags)))
      (typeAt frags.flatten = t.code) [4, size] (f (bits w (slice frags.flatten 4 size))) :=
  (reads_bits t size w).map f

theorem reads_sized (t : IpcType) (sizeOk : ℕ → Bool) :
    Reads frags (readTyped t (readSized sizeOk false) frags)
      (typeAt frags.flatten = t.code ∧ sizeOk (packetSize frags.flatten) = true)
      [4, 4, packetSize frags.flatten] (slice frags.flatten 8 (packetSize frags.flatten)) := by
  apply reads_typed
  intro left hafter _
  have hsize : (bits 32 (left.flatten.take 4)).toNat = packetSize frags.flatten := by
    rw [hafter.flatten]
    rfl
  rw [readSized]
  apply Reads.cons
  intro left' hafter' _
  simp only [hsize]
  have hslice : left'.flatten.take (packetSize frags.flatten) =
      slice frags.flatten 8 (packetSize frags.flatten) := by
    rw [hafter'.flatten, hafter.flatten, List.drop_drop, slice]
  have hpayload := (reads_field (packetSize frags.flatten) left').of_eq Iff.rfl rfl hslice
  have hguard : Reads left' (if sizeOk (packetSize frags.flatten) = true then
      readField (packetSize frags.flatten) left' else (.error .readUnexpectedDataSize, left'))
      (sizeOk (packetSize frags.flatten) = true ∧ True) _ _ := hpayload.guard
  rw [if_neg (by decide : ¬ false = true), ite_not]
  exact hguard.of_eq (and_iff_left trivial) rfl rfl

/-- The reader for a blocking socket, for every type. -/
theorem reads_block (t : IpcType) (frags : List Bytes) :
    Reads frags (readBlock frags t)
      (typeAt frags.flatten = t.code ∧ sizeOkAt frags.flatten t) (sizesAt frags.flatten t)
      (resultAt frags.flatten t) := by
  cases t with
  | int64 => exact (reads_integer .int64 8 64 .int64).of_eq (and_iff_left trivial).symm rfl rfl
  | uint64 => exact (reads_integer .uint64 8 64 .uint64).of_eq (and_iff_left trivial).symm rfl rfl
  | int8 => exact (reads_integer .int8 1 8 .int8).of_eq (and_iff_left trivial).symm rfl rfl
  | uint8 => exact (reads_integer .uint8 1 8 .uint8).of_eq (and_iff_left trivial).symm rfl rfl
  | string =>
    refine ((reads_sized .string (· ≤ maxStringSize)).map Result.string).of_eq ?_ rfl rfl
    rw [decide_eq_true_eq]
    rfl
  | dataPacket =>
    exact ((reads_sized .dataPacket fun _ => true).map Result.dataPacket).of_eq
      (and_congr_right fun _ => ⟨fun _ => trivial, fun _ => rfl⟩) rfl rfl

/-! ### Agreement of the readers -/

/-- On a stream both readers of a type accept or none does, with the same value and the same number
of bytes. -/
structure ReadersAgree (closed : Bool) (frags : List Bytes) (t : IpcType) : Prop where
  accept : (∃ r left, readBlock frags t = (.ok r, left)) ↔
    ∃ r s, readWhenReady closed t ([], frags) = (.ok r, s)
  same : ∀ r left r' s, readBlock frags t = (.ok r, left) →
    readWhenReady closed t ([], frags) = (.ok r', s) → r = r' ∧ left.flatten = s.1 ++ s.2.flatten

def Complete (b : Bytes) (t : IpcType) : Prop :=
  typeAt b = t.code ∧ (sizesAt b t).sum ≤ b.length

def Alike (frags : List Bytes) : IpcType → Prop
  | .int8 => 5 ≤ frags.flatten.length →
      typeAt frags.flatten = IpcType.int8.code ∧ FieldsWhole frags 0 [4, 1]
  | .string => ¬ (Complete frags.flatten .string ∧ packetSize frags.flatten ≤ maxStringSize ∧
      FieldsWhole frags 0 (sizesAt frags.flatten .string))
  | .dataPacket => Complete frags.flatten .dataPacket →
      ((packetSize frags.flatten ≠ 0 ∧ packetSize frags.flatten < maxPayload) ↔
        FieldsWhole frags 0 (sizesAt frags.flatten .dataPacket))
  | t => Complete frags.flatten t → FieldsWhole frags 0 (sizesAt frags.flatten t)

/-- What the reader that does not block takes off the front of a stream. -/
def Takes (b : Bytes) : IpcType → Prop
  | .int8 => 5 ≤ b.length
  | .string => False
  | .dataPacket => Complete b .dataPacket ∧ packetSize b ≠ 0 ∧ packetSize b < maxPayload
  | t => Complete b t

theorem nextOf_iff (b : Bytes) (t : IpcType) :
    (Takes b t → nextOf t b = some (resultAt b t, b.drop (sizesAt b t).sum)) ∧
      (¬ Takes b t → nextOf t b = none) := by
  have hinteger : ∀ (code : BitVec 32) (size : ℕ),
      ((bits 32 (b.take 4) = code ∧ [4, size].sum ≤ b.length) →
        firstInteger (· == code) size b = some (slice b 4 size, b.drop (4 + size))) ∧
      (¬ (bits 32 (b.take 4) = code ∧ [4, size].sum ≤ b.length) →
        firstInteger (· == code) size b = none) := by
    intro code size
    simp only [List.sum_cons, List.sum_nil]
    constructor
    · rintro ⟨htype, hle⟩
      rw [firstInteger, if_pos ⟨by omega, beq_iff_eq.mpr htype⟩]
    · intro hnot
      rw [firstInteger, if_neg]
      rintro ⟨hle, htype⟩
      exact hnot ⟨beq_iff_eq.mp htype, by omega⟩
  cases t with
  | int64 =>
    obtain ⟨hyes, hno⟩ := hinteger IpcType.int64.code 8
    refine ⟨fun h => ?_, fun h => ?_⟩
    · rw [nextOf, hyes h]
      rfl
    · rw [nextOf, hno h]
      rfl
  | uint64 =>
    obtain ⟨hyes, hno⟩ := hinteger IpcType.uint64.code 8
    refine ⟨fun h => ?_, fun h => ?_⟩
    · rw [nextOf, hyes h]
      rfl
    · rw [nextOf, hno h]
      rfl
  | uint8 =>
    obtain ⟨hyes, hno⟩ := hinteger IpcType.uint8.code 1
    refine ⟨fun h => ?_, fun h => ?_⟩
    · rw [nextOf, hyes h]
      rfl
    · rw [nextOf, hno h]
      rfl
  | int8 =>
    refine ⟨fun h => ?_, fun h => ?_⟩
    · rw [nextOf, firstInteger, if_pos ⟨h, rfl⟩]
      rfl
    · rw [nextOf, firstInteger, if_neg fun hall => h hall.1]
      rfl
  | string => exact ⟨False.elim, fun _ => rfl⟩
  | dataPacket =>
    have hsum : (sizesAt b .dataPacket).sum = headerSize + packetSize b := by
      simp only [sizesAt, headerSize, List.sum_cons, List.sum_nil]
      omega
    refine ⟨fun h => ?_, fun h => ?_⟩
    · obtain ⟨⟨htype, hle⟩, hzero, hmax⟩ := h
      rw [hsum] at hle ⊢
      rw [nextOf, firstPacket, if_pos ⟨by omega, htype, hzero, hmax, by omega⟩]
      rfl
    · rw [nextOf, firstPacket, if_neg]
      · rfl
      · rintro ⟨-, htype, hzero, hmax, hle⟩
        exact h ⟨⟨htype, by rw [hsum]; omega⟩, hzero, hmax⟩

def Accepts (frags : List Bytes) (t : IpcType) : Prop :=
  Complete frags.flatten t ∧ sizeOkAt frags.flatten t ∧
    FieldsWhole frags 0 (sizesAt frags.flatten t)

theorem readBlock_iff (frags : List Bytes) (t : IpcType) :
    (∃ r left, readBlock frags t = (.ok r, left)) ↔ Accepts frags t := by
  have hreads := reads_block t frags
  constructor
  · rintro ⟨r, left, hok⟩
    by_contra hnot
    obtain ⟨e, left', herror⟩ := hreads.fails fun ⟨⟨htype, hsize⟩, hsum, hwhole⟩ =>
      hnot ⟨⟨htype, hsum⟩, hsize, hwhole⟩
    rw [herror] at hok
    cases hok
  · rintro ⟨⟨htype, hsum⟩, hsize, hwhole⟩
    obtain ⟨left, hok, -⟩ := hreads.succeeds ⟨htype, hsize⟩ hsum hwhole
    exact ⟨_, left, hok⟩

theorem readBlock_ok {r : Result} {left : List Bytes} (h : readBlock frags t = (.ok r, left)) :
    r = resultAt frags.flatten t ∧
      left.flatten = frags.flatten.drop (sizesAt frags.flatten t).sum := by
  obtain ⟨⟨htype, hsum⟩, hsize, hwhole⟩ := (readBlock_iff frags t).mp ⟨r, left, h⟩
  obtain ⟨left', hok, hafter⟩ := (reads_block t frags).succeeds ⟨htype, hsize⟩ hsum hwhole
  obtain ⟨hr, hleft⟩ := Prod.mk.inj (hok.symm.trans h)
  exact ⟨(Except.ok.inj hr).symm, hleft ▸ hafter.flatten⟩

theorem Takes.length_pos {b : Bytes} (h : Takes b t) : b ≠ [] := by
  rintro rfl
  cases t with
  | string => exact h
  | int8 => exact absurd h (by decide : ¬ 5 ≤ 0)
  | dataPacket => exact absurd h.1.2 (by simp [sizesAt])
  | _ => exact absurd h.2 (by simp [sizesAt])

theorem readWhenReady_iff (closed : Bool) (frags : List Bytes) (t : IpcType) :
    (∃ r s, readWhenReady closed t ([], frags) = (.ok r, s)) ↔ Takes frags.flatten t := by
  obtain ⟨hyes, hno⟩ := nextOf_iff frags.flatten t
  constructor
  · rintro ⟨r, s, hok⟩
    by_contra hnot
    have hnext := readWhenReady_sound hok
    rw [List.nil_append, hno hnot] at hnext
    cases hnext
  · intro htakes
    have hnext := hyes htakes
    have hshort := (taker_of t).incremental.shrinks hnext
    have hsize : frags.flatten.length - (frags.flatten.drop (sizesAt frags.flatten t).sum).length +
        (frags.flatten.drop (sizesAt frags.flatten t).sum).length =
          ([] ++ frags.flatten).length := by
      rw [List.nil_append]
      omega
    obtain ⟨buf', hread, -, -⟩ := readWhenReady_takes htakes.length_pos hnext hsize
    exact ⟨_, _, hread⟩

theorem readWhenReady_ok {r : Result} {s : Bytes × List Bytes}
    (h : readWhenReady closed t ([], frags) = (.ok r, s)) :
    r = resultAt frags.flatten t ∧
      s.1 ++ s.2.flatten = frags.flatten.drop (sizesAt frags.flatten t).sum := by
  have htakes := (readWhenReady_iff closed frags t).mp ⟨r, s, h⟩
  have hnext := readWhenReady_sound h
  rw [List.nil_append, (nextOf_iff frags.flatten t).1 htakes] at hnext
  obtain ⟨hr, hs⟩ := Prod.mk.inj (Option.some.inj hnext)
  exact ⟨hr.symm, hs.symm⟩

theorem alike_iff (frags : List Bytes) (t : IpcType) :
    Alike frags t ↔ (Accepts frags t ↔ Takes frags.flatten t) := by
  have hplain : (Complete frags.flatten t → FieldsWhole frags 0 (sizesAt frags.flatten t)) ↔
      ((Complete frags.flatten t ∧ True ∧ FieldsWhole frags 0 (sizesAt frags.flatten t)) ↔
        Complete frags.flatten t) := by
    constructor
    · intro h
      exact ⟨fun hall => hall.1, fun hc => ⟨hc, trivial, h hc⟩⟩
    · intro h hc
      exact (h.mpr hc).2.2
  cases t with
  | int64 => exact hplain
  | uint64 => exact hplain
  | uint8 => exact hplain
  | int8 =>
    constructor
    · intro h
      constructor
      · exact fun hall => hall.1.2
      · intro hfive
        obtain ⟨htype, hwhole⟩ := h hfive
        exact ⟨⟨htype, hfive⟩, trivial, hwhole⟩
    · intro h hfive
      obtain ⟨⟨htype, -⟩, -, hwhole⟩ := h.mpr hfive
      exact ⟨htype, hwhole⟩
  | string => exact ⟨fun h => ⟨h, False.elim⟩, fun h => h.mp⟩
  | dataPacket =>
    constructor
    · intro h
      constructor
      · rintro ⟨hc, -, hwhole⟩
        exact ⟨hc, (h hc).mpr hwhole⟩
      · rintro ⟨hc, hsize⟩
        exact ⟨hc, trivial, (h hc).mp hsize⟩
    · intro h hc
      constructor
      · intro hsize
        exact (h.mpr ⟨hc, hsize⟩).2.2
      · intro hwhole
        exact (h.mp ⟨hc, trivial, hwhole⟩).2

theorem readersAgree_iff (closed : Bool) (frags : List Bytes) (t : IpcType) :
    ReadersAgree closed frags t ↔ Alike frags t := by
  rw [alike_iff]
  constructor
  · rintro ⟨haccept, -⟩
    rwa [readBlock_iff, readWhenReady_iff] at haccept
  · intro h
    refine ⟨by rwa [readBlock_iff, readWhenReady_iff], ?_⟩
    intro r left r' s hblock hnoblock
    obtain ⟨hr, hleft⟩ := readBlock_ok hblock
    obtain ⟨hr', hs⟩ := readWhenReady_ok hnoblock
    exact ⟨hr.trans hr'.symm, hleft.trans hs.symm⟩

end IpcReaders
