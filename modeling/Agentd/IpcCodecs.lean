import Agentd.IpcReaders

/-! # Values over a socket

Each type has two writers and two readers. For a sequence of values, what follows them and any way
in which the bytes arrive, this says exactly when the pairs do the same. -/
namespace IpcCodecs

open ByteString
open DataserviceRequests
open IpcPackets
open FragmentedStreams
open TypedIpc
open IpcReaders

variable {v : Value} {vs : List Value} {frags : List Bytes} {buf rest : Bytes} {closed : Bool}

/-! ### Bytes -/

def fields : Value → List Bytes
  | .int64 v => [be 4 IpcType.int64.code, be 8 v]
  | .uint64 v => [be 4 IpcType.uint64.code, be 8 v]
  | .int8 v => [be 4 IpcType.int8.code, be 1 v]
  | .uint8 v => [be 4 IpcType.uint8.code, be 1 v]
  | .string s => [be 4 IpcType.string.code, be 4 (BitVec.ofNat 32 s.bytes.length),
      s.bytes.take (BitVec.ofNat 32 s.bytes.length).toNat]
  | .dataPacket d => [be 4 IpcType.dataPacket.code, be 4 (BitVec.ofNat 32 d.bytes.length), d.bytes]

def bytes (v : Value) : Bytes := (fields v).flatten

theorem bytes_dataPacket (d : DataBlock) : bytes (.dataPacket d) = packet d.bytes := by
  simp only [bytes, fields, List.flatten_cons, List.flatten_nil, List.append_nil, packet,
    packetHeader, List.append_assoc]
  rfl

theorem writeBlock_eq (out : Bytes) (v : Value) :
    writeBlock none out v = (.ok (), out ++ bytes v) := by
  cases v with
  | dataPacket d =>
    rw [writeBlock, ipcWriteDataBlock, if_neg (by simp), bytes_dataPacket]
  | string s => simp [writeBlock, ipcWriteStringBlock, writeFields, bytes, fields]
  | int64 v => simp [writeBlock, ipcWriteInt64Block, writeFields, bytes, fields]
  | uint64 v => simp [writeBlock, ipcWriteUint64Block, writeFields, bytes, fields]
  | int8 v => simp [writeBlock, ipcWriteInt8Block, writeFields, bytes, fields]
  | uint8 v => simp [writeBlock, ipcWriteUint8Block, writeFields, bytes, fields]

/-- A byte that is widened to 64 bits has nothing but zeros in its upper bytes. -/
theorem uint8_oval (v : BitVec 8) : (htonll (v.setWidth 64)).setWidth 8 = (0 : BitVec 8) := by
  have hall : ∀ v : BitVec 8, (htonll (v.setWidth 64)).setWidth 8 = (0 : BitVec 8) := by
    decide +kernel
  exact hall v

def noblockBytes : Value → Bytes
  | .int8 v => hostBytes 4 IpcType.int8.code ++ be 1 ((htonll (v.signExtend 64)).setWidth 8)
  | .uint8 _ => be 4 IpcType.uint8.code ++ be 1 (0 : BitVec 8)
  | v => bytes v

theorem writeNoblock_eq (out : Bytes) (v : Value) :
    writeNoblock none out v = (.ok (), out ++ noblockBytes v) := by
  cases v with
  | dataPacket d =>
    have hbytes : noblockBytes (.dataPacket d) = packet d.bytes := bytes_dataPacket d
    rw [writeNoblock, ipcWriteDataNoblock, hbytes]
  | string s => simp [writeNoblock, ipcWriteStringNoblock, addFields, noblockBytes, bytes, fields]
  | int64 v => simp [writeNoblock, ipcWriteInt64Noblock, addFields, noblockBytes, bytes, fields]
  | uint64 v => simp [writeNoblock, ipcWriteUint64Noblock, addFields, noblockBytes, bytes, fields]
  | int8 v => simp [writeNoblock, ipcWriteInt8Noblock, addFields, noblockBytes]
  | uint8 v => simp [writeNoblock, ipcWriteUint8Noblock, addFields, noblockBytes, uint8_oval]

theorem writeAll_eq {write : Bytes → Value → Except IpcError Unit × Bytes} {f : Value → Bytes}
    (h : ∀ out v, write out v = (.ok (), out ++ f v)) (out : Bytes) (vs : List Value) :
    writeAll write out vs = (.ok (), out ++ vs.flatMap f) := by
  induction vs generalizing out with
  | nil => simp [writeAll]
  | cons v vs ih =>
    rw [writeAll, h]
    simp only [ih, List.flatMap_cons, List.append_assoc]

def WrittenAlike : Value → Prop
  | .int8 _ => False
  | .uint8 v => v = 0
  | _ => True

theorem length_noblockBytes (v : Value) : (noblockBytes v).length = (bytes v).length := by
  cases v with
  | int8 v => simp [noblockBytes, bytes, fields, hostBytes]
  | uint8 v => simp [noblockBytes, bytes, fields]
  | _ => rfl

theorem noblockBytes_eq_iff (v : Value) : noblockBytes v = bytes v ↔ WrittenAlike v := by
  cases v with
  | int8 v =>
    simp only [noblockBytes, bytes, fields, WrittenAlike, List.flatten_cons, List.flatten_nil,
      List.append_nil, iff_false]
    intro h
    have htype := (List.append_inj h (by simp [hostBytes])).1
    revert htype
    decide
  | uint8 v =>
    simp only [noblockBytes, bytes, fields, WrittenAlike, List.flatten_cons, List.flatten_nil,
      List.append_nil, List.append_cancel_left_eq]
    constructor
    · intro h
      rw [← bits_be (n := 1) (by decide) v, ← h, bits_be (by decide)]
    · intro h
      rw [h]
  | _ => exact ⟨fun _ => trivial, fun _ => rfl⟩

theorem writers_agree_iff (vs : List Value) :
    vs.flatMap noblockBytes = vs.flatMap bytes ↔ ∀ v ∈ vs, WrittenAlike v := by
  induction vs with
  | nil => simp
  | cons v vs ih =>
    rw [List.flatMap_cons, List.flatMap_cons, List.forall_mem_cons, ← noblockBytes_eq_iff, ← ih]
    constructor
    · intro h
      exact List.append_inj h (length_noblockBytes v)
    · rintro ⟨hfirst, hrest⟩
      rw [hfirst, hrest]

/-! ### Values read without blocking -/

def Readable : Value → Prop
  | .string _ => False
  | .dataPacket d => Sendable d.bytes
  | _ => True

theorem packetSize_bytes (d : DataBlock) (rest : Bytes) :
    packetSize (bytes (.dataPacket d) ++ rest) = d.bytes.length := by
  have hslice : slice (bytes (.dataPacket d) ++ rest) 4 4 =
      be 4 (BitVec.ofNat 32 d.bytes.length) := by
    simp only [bytes, fields, List.flatten_cons, List.append_assoc]
    rw [slice_append_skip _ _ 4 (by simp)]
    exact slice_append_self _ _ (by simp)
  rw [packetSize, hslice, bits_be (by decide), BitVec.toNat_ofNat, Nat.mod_eq_of_lt d.size_lt]

theorem firstInteger_bytes {typeOk : BitVec 32 → Bool} {size : ℕ} {code : BitVec 32}
    (hcode : typeOk code = true) {w : ℕ} (v : BitVec w) (rest : Bytes) :
    firstInteger typeOk size (be 4 code ++ be size v ++ rest) = some (be size v, rest) := by
  have htake : (be 4 code ++ be size v ++ rest).take 4 = be 4 code := by
    rw [List.append_assoc]
    exact List.take_left' (by simp)
  have hslice : slice (be 4 code ++ be size v ++ rest) 4 size = be size v := by
    rw [List.append_assoc, slice_append_skip _ _ _ (by simp)]
    exact slice_append_self _ _ (by simp)
  have hdrop : (be 4 code ++ be size v ++ rest).drop (4 + size) = rest :=
    List.drop_left' (by simp)
  rw [firstInteger, htake, bits_be (by decide), if_pos ⟨by simp; omega, hcode⟩, hslice, hdrop]

theorem nextInteger_bytes {typeOk : BitVec 32 → Bool} {size w : ℕ} {code : BitVec 32}
    (hcode : typeOk code = true) (hw : w = 8 * size) (f : BitVec w → Result) (v : BitVec w)
    (rest : Bytes) : ((firstInteger typeOk size (be 4 code ++ be size v ++ rest)).map fun x =>
      (f (bits w x.1), x.2)) = some (f v, rest) := by
  rw [firstInteger_bytes hcode, Option.map_some, bits_be hw]

theorem nextOf_bytes (h : Readable v) (rest : Bytes) :
    nextOf v.type (bytes v ++ rest) = some (v.result, rest) := by
  cases v with
  | string s => exact absurd h id
  | dataPacket d =>
    rw [Value.type, nextOf, bytes_dataPacket, firstPacket_packet h]
    rfl
  | int64 v =>
    have hbytes : bytes (.int64 v) = be 4 IpcType.int64.code ++ be 8 v := by simp [bytes, fields]
    rw [Value.type, nextOf, hbytes]
    exact nextInteger_bytes (beq_self_eq_true _) (by decide) .int64 v rest
  | uint64 v =>
    have hbytes : bytes (.uint64 v) = be 4 IpcType.uint64.code ++ be 8 v := by simp [bytes, fields]
    rw [Value.type, nextOf, hbytes]
    exact nextInteger_bytes (beq_self_eq_true _) (by decide) .uint64 v rest
  | int8 v =>
    have hbytes : bytes (.int8 v) = be 4 IpcType.int8.code ++ be 1 v := by simp [bytes, fields]
    rw [Value.type, nextOf, hbytes]
    exact nextInteger_bytes rfl (by decide) .int8 v rest
  | uint8 v =>
    have hbytes : bytes (.uint8 v) = be 4 IpcType.uint8.code ++ be 1 v := by simp [bytes, fields]
    rw [Value.type, nextOf, hbytes]
    exact nextInteger_bytes (beq_self_eq_true _) (by decide) .uint8 v rest

theorem nextOf_unreadable (h : ¬ Readable v) (rest : Bytes) :
    nextOf v.type (bytes v ++ rest) = none := by
  cases v with
  | string s => rfl
  | dataPacket d =>
    have hnot : ¬ (d.bytes ≠ [] ∧ d.bytes.length < maxPayload) := h
    rw [Value.type, nextOf, Option.map_eq_none_iff, firstPacket, packetSize_bytes, if_neg]
    rintro ⟨-, -, hzero, hmax, -⟩
    exact hnot ⟨fun hnil => hzero (by rw [hnil]; rfl), hmax⟩
  | _ => exact absurd trivial h

/-- Whenever the socket has nothing more before a value is read, the value is of a type for which
this is no failure. -/
def Supplied (closed : Bool) : List Value → ℕ → List Bytes → Prop
  | [], _, _ => True
  | v :: vs, buffered, frags =>
    (frags.flatten = [] → readableAtEnd closed v.type = true) ∧
      Supplied closed vs ((handOver (bytes v).length buffered frags).1 - (bytes v).length)
        (handOver (bytes v).length buffered frags).2

theorem readWhenReady_value (hs : buf ++ frags.flatten = bytes v ++ rest) (hv : Readable v)
    (hend : frags.flatten = [] → readableAtEnd closed v.type = true) :
    ∃ s, readWhenReady closed v.type (buf, frags) = (.ok v.result, s) ∧
      s.1 ++ s.2.flatten = rest ∧
      s.1.length = (handOver (bytes v).length buf.length frags).1 - (bytes v).length ∧
      s.2 = (handOver (bytes v).length buf.length frags).2 := by
  have hnext := nextOf_bytes hv rest
  rw [← hs] at hnext
  by_cases hmore : frags.flatten = []
  · rw [hmore, List.append_nil] at hnext hs
    rw [readWhenReady, collect_of_empty hmore, atEnd_readable (hend hmore),
      (taker_of v.type).ok_iff.mpr hnext, handOver_of_empty hmore, hs, List.length_append]
    exact ⟨(rest, []), rfl, by simp, by simp, rfl⟩
  · have hsize : (bytes v).length + rest.length = (buf ++ frags.flatten).length := by
      rw [hs, List.length_append]
    obtain ⟨buf', hread, hleft, hlen⟩ := readWhenReady_takes hmore hnext hsize
    exact ⟨_, hread, hleft, by simp only; omega, rfl⟩

theorem readWhenReady_fails {r : Result} {s : Bytes × List Bytes}
    (hs : buf ++ frags.flatten = bytes v ++ rest)
    (hnot : ¬ (Readable v ∧ (frags.flatten = [] → readableAtEnd closed v.type = true))) :
    readWhenReady closed v.type (buf, frags) ≠ (.ok r, s) := by
  intro h
  have hnext := readWhenReady_sound h
  by_cases hv : Readable v
  · have hend : frags.flatten = [] ∧ ¬ readableAtEnd closed v.type = true := by
      by_contra hcon
      exact hnot ⟨hv, fun hnil => by_contra fun hr => hcon ⟨hnil, hr⟩⟩
    obtain ⟨e, he⟩ := atEnd_unreadable (Bool.eq_false_iff.mpr hend.2) buf
    rw [readWhenReady, collect_of_empty hend.1, he] at h
    cases h
  · rw [hs, nextOf_unreadable hv] at hnext
    cases hnext

theorem mapResult_cons_iff {η ζ : Type} {x : Except η (List Result) × ζ} {r : Result}
    {rs : List Result} {z : ζ} :
    mapResult (r :: ·) x = (.ok (r :: rs), z) ↔ x = (.ok rs, z) := by
  obtain ⟨e, y⟩ := x
  cases e with
  | error e => simp [mapResult, Except.map]
  | ok ss => simp [mapResult, Except.map]

/-- A sequence of values is read as it was written exactly when each can be read and is supplied. -/
theorem readAllNoblock_iff (hs : buf ++ frags.flatten = vs.flatMap bytes ++ rest) :
    (∃ s, readAll (readWhenReady closed) (buf, frags) (vs.map Value.type) =
        (.ok (vs.map Value.result), s) ∧ s.1 ++ s.2.flatten = rest) ↔
      (∀ v ∈ vs, Readable v) ∧ Supplied closed vs buf.length frags := by
  induction vs generalizing buf frags with
  | nil =>
    constructor
    · intro _
      exact ⟨by simp, trivial⟩
    · intro _
      exact ⟨_, rfl, hs⟩
  | cons v vs ih =>
    rw [List.flatMap_cons, List.append_assoc] at hs
    rw [List.forall_mem_cons, List.map_cons, List.map_cons, Supplied]
    by_cases hv : Readable v ∧ (frags.flatten = [] → readableAtEnd closed v.type = true)
    · obtain ⟨s, hread, hleft, hlen, hfrags⟩ := readWhenReady_value hs hv.1 hv.2
      have hih := ih hleft
      rw [hlen, hfrags] at hih
      rw [readAll]
      simp only [hread]
      rw [← hfrags] at hih
      constructor
      · rintro ⟨s', hall, hrest⟩
        obtain ⟨hreadable, hsupplied⟩ := hih.mp ⟨s', mapResult_cons_iff.mp hall, hrest⟩
        exact ⟨⟨hv.1, hreadable⟩, hv.2, hfrags ▸ hsupplied⟩
      · rintro ⟨⟨-, hreadable⟩, -, hsupplied⟩
        obtain ⟨s', htail, hrest⟩ := hih.mpr ⟨hreadable, hfrags ▸ hsupplied⟩
        exact ⟨s', mapResult_cons_iff.mpr htail, hrest⟩
    · constructor
      · rintro ⟨s, hall, -⟩
        rw [readAll] at hall
        split at hall
        · cases hall
        · rename_i r s' hread
          exact absurd hread (readWhenReady_fails hs hv)
      · rintro ⟨⟨hreadable, -⟩, hend, -⟩
        exact absurd ⟨hreadable, hend⟩ hv

/-! ### Values read from a blocking socket -/

def sizes (v : Value) : List ℕ := (fields v).map List.length

theorem sum_sizes (v : Value) : (sizes v).sum = (bytes v).length := by
  rw [sizes, bytes, List.length_flatten]

/-- What stands at the front of a stream that begins with a value. -/
theorem front_value (hv : v.type ≠ .string) (rest : Bytes) :
    typeAt (bytes v ++ rest) = v.type.code ∧ sizeOkAt (bytes v ++ rest) v.type ∧
      sizesAt (bytes v ++ rest) v.type = sizes v ∧
        resultAt (bytes v ++ rest) v.type = v.result := by
  have hinteger : ∀ (code : BitVec 32) (size w : ℕ) (x : BitVec w), w = 8 * size →
      bits 32 ((be 4 code ++ be size x ++ rest).take 4) = code ∧
        bits w (slice (be 4 code ++ be size x ++ rest) 4 size) = x := by
    intro code size w x hw
    rw [List.append_assoc]
    constructor
    · rw [List.take_left' (by simp), bits_be (by decide)]
    · rw [slice_append_skip _ _ _ (by simp), length_be, Nat.sub_self,
        slice_append_self _ _ (by simp), bits_be hw]
  cases v with
  | string s => exact absurd rfl hv
  | int64 v =>
    obtain ⟨htype, hvalue⟩ := hinteger IpcType.int64.code 8 64 v rfl
    have hbytes : bytes (.int64 v) = be 4 IpcType.int64.code ++ be 8 v := by simp [bytes, fields]
    rw [hbytes]
    exact ⟨htype, trivial, by simp [sizes, fields, sizesAt, Value.type],
      congrArg Result.int64 hvalue⟩
  | uint64 v =>
    obtain ⟨htype, hvalue⟩ := hinteger IpcType.uint64.code 8 64 v rfl
    have hbytes : bytes (.uint64 v) = be 4 IpcType.uint64.code ++ be 8 v := by simp [bytes, fields]
    rw [hbytes]
    exact ⟨htype, trivial, by simp [sizes, fields, sizesAt, Value.type],
      congrArg Result.uint64 hvalue⟩
  | int8 v =>
    obtain ⟨htype, hvalue⟩ := hinteger IpcType.int8.code 1 8 v rfl
    have hbytes : bytes (.int8 v) = be 4 IpcType.int8.code ++ be 1 v := by simp [bytes, fields]
    rw [hbytes]
    exact ⟨htype, trivial, by simp [sizes, fields, sizesAt, Value.type],
      congrArg Result.int8 hvalue⟩
  | uint8 v =>
    obtain ⟨htype, hvalue⟩ := hinteger IpcType.uint8.code 1 8 v rfl
    have hbytes : bytes (.uint8 v) = be 4 IpcType.uint8.code ++ be 1 v := by simp [bytes, fields]
    rw [hbytes]
    exact ⟨htype, trivial, by simp [sizes, fields, sizesAt, Value.type],
      congrArg Result.uint8 hvalue⟩
  | dataPacket d =>
    have hsize := packetSize_bytes d rest
    have hpayload : slice (bytes (.dataPacket d) ++ rest) 8 d.bytes.length = d.bytes := by
      rw [bytes_dataPacket, packet, List.append_assoc,
        slice_append_skip _ _ _ (by simp [packetHeader])]
      simp only [packetHeader, List.length_append, length_be, Nat.sub_self]
      exact slice_append_self _ _ rfl
    refine ⟨?_, trivial, ?_, ?_⟩
    · rw [bytes_dataPacket]
      exact type_packet d.bytes rest
    · simp [sizes, fields, sizesAt, Value.type, hsize]
    · simp only [resultAt, Value.type, Value.result, hsize, hpayload]

/-- A sequence of values is read as it was written exactly when all their fields arrive whole. -/
theorem readAllBlock_iff (hs : frags.flatten = vs.flatMap bytes ++ rest)
    (hstring : ∀ v ∈ vs, v.type ≠ .string) :
    (∃ left, readAllBlock frags (vs.map Value.type) = (.ok (vs.map Value.result), left) ∧
        left.flatten = rest) ↔ FieldsWhole frags 0 (vs.flatMap sizes) := by
  induction vs generalizing frags with
  | nil =>
    constructor
    · intro _
      trivial
    · intro _
      exact ⟨frags, rfl, hs⟩
  | cons v vs ih =>
    rw [List.flatMap_cons, List.append_assoc] at hs
    obtain ⟨hv, hvs⟩ := List.forall_mem_cons.mp hstring
    obtain ⟨htype, hsize, hsizes, hresult⟩ := front_value hv (vs.flatMap bytes ++ rest)
    have hreads := reads_block v.type frags
    rw [hs, htype, hsizes, hresult] at hreads
    rw [List.flatMap_cons, fieldsWhole_append, Nat.zero_add, List.map_cons, List.map_cons,
      readAllBlock, readAll]
    by_cases hwhole : FieldsWhole frags 0 (sizes v)
    · obtain ⟨left, hread, hafter⟩ := hreads.succeeds ⟨rfl, hsize⟩
        (by rw [hs, sum_sizes, List.length_append]; omega) hwhole
      have hleft : left.flatten = vs.flatMap bytes ++ rest := by
        rw [hafter.flatten, hs, sum_sizes, List.drop_left]
      have hih := ih hleft hvs
      rw [hafter.whole, Nat.add_zero] at hih
      simp only [hread]
      rw [← hih]
      constructor
      · rintro ⟨left', hall, hrest⟩
        exact ⟨hwhole, left', mapResult_cons_iff.mp hall, hrest⟩
      · rintro ⟨-, left', hall, hrest⟩
        exact ⟨left', mapResult_cons_iff.mpr hall, hrest⟩
    · obtain ⟨e, left, hread⟩ := hreads.fails fun hall => hwhole hall.2.2
      simp only [hread]
      constructor
      · rintro ⟨left', hall, -⟩
        cases hall
      · exact fun hall => absurd hall.1 hwhole

/-! ### Round trips -/

/-- The bytes of a sequence of values, by the writers for a blocking socket. -/
def written (vs : List Value) : Bytes := (writeAll (writeBlock none) [] vs).2

theorem written_eq (vs : List Value) : written vs = vs.flatMap bytes := by
  rw [written, writeAll_eq writeBlock_eq, List.nil_append]

abbrev Fragmentation (b : Bytes) := { frags : List Bytes // frags.flatten = b }

/-- Both writers write the values alike, and both readers get them from the stream, with nothing of
what follows. -/
structure RoundTrips (closed : Bool) (vs : List Value) (rest : Bytes)
    (frags : Fragmentation (written vs ++ rest)) : Prop where
  writers : writeAll (writeNoblock none) [] vs = (.ok (), written vs)
  block : ∃ left, readAllBlock frags.val (vs.map Value.type) = (.ok (vs.map Value.result), left) ∧
    left.flatten = rest
  noblock : ∃ s, readAllNoblock closed frags.val (vs.map Value.type) =
    (.ok (vs.map Value.result), s) ∧ s.1 ++ s.2.flatten = rest

/-- A value that survives: a 64-bit integer, a zero byte, or a data block of a size that is not zero
and below the limit. -/
def Survives : Value → Prop
  | .int64 _ => True
  | .uint64 _ => True
  | .int8 _ => False
  | .uint8 v => v = 0
  | .string _ => False
  | .dataPacket d => Sendable d.bytes

structure Fair (closed : Bool) (vs : List Value) (frags : List Bytes) : Prop where
  survives : ∀ v ∈ vs, Survives v
  whole : FieldsWhole frags 0 (vs.flatMap sizes)
  supplied : Supplied closed vs 0 frags

theorem survives_iff (v : Value) : Survives v ↔ WrittenAlike v ∧ Readable v := by
  cases v with
  | int8 v => exact ⟨False.elim, fun h => h.1⟩
  | string s => exact ⟨False.elim, fun h => h.2⟩
  | int64 v => exact ⟨fun _ => ⟨trivial, trivial⟩, fun _ => trivial⟩
  | uint64 v => exact ⟨fun _ => ⟨trivial, trivial⟩, fun _ => trivial⟩
  | uint8 v => exact ⟨fun h => ⟨h, trivial⟩, fun h => h.1⟩
  | dataPacket d => exact ⟨fun h => ⟨trivial, h⟩, fun h => h.2⟩

theorem Readable.type_ne {v : Value} (h : Readable v) : v.type ≠ .string := by
  cases v with
  | string s => exact absurd h id
  | _ => exact (fun heq => by cases heq)

theorem roundTrips_iff (closed : Bool) (vs : List Value) (rest : Bytes)
    (frags : Fragmentation (written vs ++ rest)) :
    RoundTrips closed vs rest frags ↔ Fair closed vs frags.val := by
  have hs : frags.val.flatten = vs.flatMap bytes ++ rest :=
    frags.property.trans (by rw [written_eq])
  have hwriters : writeAll (writeNoblock none) [] vs = (.ok (), written vs) ↔
      ∀ v ∈ vs, WrittenAlike v := by
    rw [← writers_agree_iff, writeAll_eq writeNoblock_eq, written_eq, List.nil_append,
      Prod.mk.injEq]
    exact and_iff_right rfl
  have hnoblock : (∃ s, readAllNoblock closed frags.val (vs.map Value.type) =
      (.ok (vs.map Value.result), s) ∧ s.1 ++ s.2.flatten = rest) ↔
        (∀ v ∈ vs, Readable v) ∧ Supplied closed vs 0 frags.val := readAllNoblock_iff hs
  constructor
  · rintro ⟨halike, hblock, hread⟩
    obtain ⟨hreadable, hsupplied⟩ := hnoblock.mp hread
    refine ⟨?_, ?_, hsupplied⟩
    · intro v hv
      exact (survives_iff v).mpr ⟨hwriters.mp halike v hv, hreadable v hv⟩
    · exact (readAllBlock_iff hs fun v hv => (hreadable v hv).type_ne).mp hblock
  · rintro ⟨hsurvives, hwhole, hsupplied⟩
    have hreadable : ∀ v ∈ vs, Readable v := fun v hv => ((survives_iff v).mp (hsurvives v hv)).2
    refine ⟨?_, ?_, hnoblock.mpr ⟨hreadable, hsupplied⟩⟩
    · exact hwriters.mpr fun v hv => ((survives_iff v).mp (hsurvives v hv)).1
    · exact (readAllBlock_iff hs fun v hv => (hreadable v hv).type_ne).mpr hwhole

/-! ### The codec -/

/-- For every sequence of values and what follows it, every way in which the bytes arrive, and for
every type and stream. -/
theorem codec_works_when_fair (closed : Bool) (vs : List Value) (rest : Bytes)
    (frags : Fragmentation (written vs ++ rest)) (stream : List Bytes) (t : IpcType) :
    (RoundTrips closed vs rest frags ↔ Fair closed vs frags.val) ∧
      (ReadersAgree closed stream t ↔ Alike stream t) :=
  ⟨roundTrips_iff closed vs rest frags, readersAgree_iff closed stream t⟩

def letter : CString := ⟨[0x61], by decide⟩

/-- The string "a" in one piece, and the byte 1. -/
theorem strings_and_bytes_are_lost :
    readAllBlock [written [.string letter]] [.string] = (.ok [.string [0x61]], []) ∧
      (readAllNoblock false [written [.string letter]] [.string]).1 =
        .error .readBufferDrainFailure ∧
      ¬ RoundTrips false [.string letter] [] ⟨[written [.string letter]], rfl⟩ ∧
      written [.uint8 1] = [0, 0, 0, 0x17, 1] ∧
      (writeAll (writeNoblock none) [] [.uint8 1]).2 = [0, 0, 0, 0x17, 0] ∧
      ¬ ReadersAgree false [written [.string letter]] .string := by
  have hnoblock : (readAllNoblock false [written [.string letter]] [.string]).1 =
      .error .readBufferDrainFailure := by
    decide +kernel
  have hblock : readAllBlock [written [.string letter]] [.string] = (.ok [.string [0x61]], []) := by
    decide +kernel
  refine ⟨hblock, hnoblock, ?_, by decide +kernel, by decide +kernel, ?_⟩
  · rintro ⟨-, -, s, hread, -⟩
    have hok := hnoblock.symm.trans (congrArg Prod.fst hread)
    cases hok
  · rintro ⟨haccept, -⟩
    have hread : (readBlock [written [.string letter]] .string).1 = .ok (.string [0x61]) := by
      decide +kernel
    obtain ⟨r, s, hok⟩ := haccept.mp
      ⟨.string [0x61], (readBlock [written [.string letter]] .string).2, Prod.ext hread rfl⟩
    have hfails : (readWhenReady false .string ([], [written [.string letter]])).1 =
        .error .readBufferDrainFailure := by
      decide +kernel
    rw [hok] at hfails
    cases hfails

end IpcCodecs
