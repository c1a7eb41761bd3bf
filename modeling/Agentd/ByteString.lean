import Mathlib.Data.List.Induction
import Mathlib.Data.Nat.Basic
import Mathlib.Tactic.Ring

/-! Byte strings, fixed-width network-order numbers and the two buffer accesses of C code:
reading a field at an offset and copying a field over part of a buffer. -/
namespace ByteString

abbrev Bytes := List UInt8

/-- The low `n` bytes of a number, most significant byte first. -/
def toBigEndian : ℕ → ℕ → Bytes
  | 0, _ => []
  | n + 1, v => toBigEndian n (v / 256) ++ [UInt8.ofNat v]

def ofBigEndian (b : Bytes) : ℕ := b.foldl (fun acc x => acc * 256 + x.toNat) 0

@[simp] theorem length_toBigEndian (n v : ℕ) : (toBigEndian n v).length = n := by
  induction n generalizing v with
  | zero => rfl
  | succ n ih => simp [toBigEndian, ih]

theorem ofBigEndian_append_singleton (b : Bytes) (x : UInt8) :
    ofBigEndian (b ++ [x]) = ofBigEndian b * 256 + x.toNat := by
  simp [ofBigEndian, List.foldl_append]

theorem ofBigEndian_toBigEndian {n v : ℕ} (h : v < 256 ^ n) :
    ofBigEndian (toBigEndian n v) = v := by
  induction n generalizing v with
  | zero =>
    have : v = 0 := by simpa using h
    subst this
    rfl
  | succ n ih =>
    have hd : v / 256 < 256 ^ n := by
      rw [Nat.div_lt_iff_lt_mul (by decide)]
      rwa [pow_succ] at h
    rw [toBigEndian, ofBigEndian_append_singleton, ih hd]
    have hb : (UInt8.ofNat v).toNat = v % 256 := by simp
    rw [hb]
    omega

theorem toBigEndian_ofBigEndian (b : Bytes) : toBigEndian b.length (ofBigEndian b) = b := by
  induction b using List.reverseRecOn with
  | nil => rfl
  | append_singleton b x ih =>
    have hx : x.toNat < 256 := x.toNat_lt
    have hdiv : (ofBigEndian b * 256 + x.toNat) / 256 = ofBigEndian b := by omega
    rw [List.length_append, List.length_singleton, toBigEndian, ofBigEndian_append_singleton,
      hdiv, ih]
    congr 2
    apply UInt8.toNat_inj.mp
    simp

/-- A fixed-width value in network order. -/
def be (n : ℕ) {w : ℕ} (v : BitVec w) : Bytes := toBigEndian n v.toNat

def bits (w : ℕ) (b : Bytes) : BitVec w := BitVec.ofNat w (ofBigEndian b)

@[simp] theorem length_be (n : ℕ) {w : ℕ} (v : BitVec w) : (be n v).length = n :=
  length_toBigEndian n v.toNat

theorem bits_be {n w : ℕ} (hw : w = 8 * n) (v : BitVec w) : bits w (be n v) = v := by
  subst hw
  have hv : v.toNat < 256 ^ n := by
    have hp : (256 : ℕ) ^ n = 2 ^ (8 * n) := by rw [pow_mul]; rfl
    rw [hp]
    exact v.isLt
  rw [bits, be, ofBigEndian_toBigEndian hv, BitVec.ofNat_toNat, BitVec.setWidth_eq]

theorem ofBigEndian_lt (b : Bytes) : ofBigEndian b < 256 ^ b.length := by
  induction b using List.reverseRecOn with
  | nil => exact Nat.one_pos
  | append_singleton b x ih =>
    have hx : x.toNat < 256 := x.toNat_lt
    rw [ofBigEndian_append_singleton, List.length_append, List.length_singleton, pow_succ]
    omega

/-- Every field of the right width is the encoding of the number read from it. -/
theorem be_bits {n w : ℕ} (hw : w = 8 * n) {b : Bytes} (hb : b.length = n) :
    be n (bits w b) = b := by
  subst hw hb
  have hp : (2 : ℕ) ^ (8 * b.length) = 256 ^ b.length := by rw [pow_mul]; rfl
  rw [be, bits, BitVec.toNat_ofNat, hp, Nat.mod_eq_of_lt (ofBigEndian_lt b),
    toBigEndian_ofBigEndian]

/-- Reading `n` bytes at offset `off`. -/
def slice (b : Bytes) (off n : ℕ) : Bytes := (b.drop off).take n

/-- Copying `v` into the buffer `b` at offset `off`. -/
def overwrite (b : Bytes) (off : ℕ) (v : Bytes) : Bytes :=
  b.take off ++ v ++ b.drop (off + v.length)

theorem slice_append_self (l r : Bytes) {n : ℕ} (hn : l.length = n) : slice (l ++ r) 0 n = l := by
  subst hn
  simp [slice]

theorem slice_append_skip (l r : Bytes) {off : ℕ} (n : ℕ) (h : l.length ≤ off) :
    slice (l ++ r) off n = slice r (off - l.length) n := by
  simp [slice, List.drop_append, List.drop_eq_nil_of_le h]

theorem slice_append_slice (b : Bytes) (off n k : ℕ) :
    slice b off n ++ slice b (off + n) k = slice b off (n + k) := by
  rw [slice, slice, slice, List.take_add, List.drop_drop]

/-- A field inside a buffer is the encoding of the number read from it. -/
theorem be_bits_slice {n w : ℕ} (hw : w = 8 * n) {b : Bytes} {off : ℕ} (h : off + n ≤ b.length) :
    be n (bits w (slice b off n)) = slice b off n := by
  apply be_bits hw
  rw [slice, List.length_take, List.length_drop]
  omega

theorem overwrite_append_self (l r v : Bytes) (hv : v.length = l.length) :
    overwrite (l ++ r) 0 v = v ++ r := by
  simp [overwrite, hv]

theorem overwrite_append_skip (l r v : Bytes) {off : ℕ} (h : l.length ≤ off) :
    overwrite (l ++ r) off v = l ++ overwrite r (off - l.length) v := by
  have hd : l.drop (off + v.length) = [] := List.drop_eq_nil_of_le (by omega)
  have he : off + v.length - l.length = off - l.length + v.length := by omega
  simp [overwrite, List.take_append, List.drop_append, List.take_of_length_le h, hd, he]

theorem length_overwrite (b v : Bytes) (off : ℕ) (h : off + v.length ≤ b.length) :
    (overwrite b off v).length = b.length := by
  simp only [overwrite, List.length_append, List.length_take, List.length_drop]
  omega

/-- A buffer with a field copied over it, byte by byte. -/
theorem getElem?_overwrite {b v : Bytes} {off : ℕ} (h : off + v.length ≤ b.length) (i : ℕ) :
    (overwrite b off v)[i]? = if off ≤ i ∧ i < off + v.length then v[i - off]? else b[i]? := by
  have htake : (b.take off).length = off := by
    rw [List.length_take]
    omega
  rw [overwrite, List.append_assoc]
  by_cases hlo : i < off
  · rw [List.getElem?_append_left (by omega), List.getElem?_take, if_pos hlo,
      if_neg (by omega)]
  · rw [List.getElem?_append_right (by omega), htake]
    by_cases hhi : i < off + v.length
    · rw [List.getElem?_append_left (by omega), if_pos ⟨by omega, hhi⟩]
    · rw [List.getElem?_append_right (by omega), List.getElem?_drop, if_neg (by omega)]
      congr 1
      omega

theorem getElem?_slice (b : Bytes) (off n i : ℕ) :
    (slice b off n)[i]? = if i < n then b[off + i]? else none := by
  rw [slice, List.getElem?_take, List.getElem?_drop]

theorem slice_overwrite_of_disjoint {b v : Bytes} {off o n : ℕ} (h : off + v.length ≤ b.length)
    (hd : o + n ≤ off ∨ off + v.length ≤ o) : slice (overwrite b off v) o n = slice b o n := by
  apply List.ext_getElem?
  intro i
  rw [getElem?_slice, getElem?_slice]
  by_cases hi : i < n
  · rw [if_pos hi, if_pos hi, getElem?_overwrite h, if_neg (by omega)]
  · rw [if_neg hi, if_neg hi]

theorem slice_overwrite_self {b v : Bytes} {off n : ℕ} (h : off + v.length ≤ b.length)
    (hn : v.length = n) : slice (overwrite b off v) off n = v := by
  apply List.ext_getElem?
  intro i
  rw [getElem?_slice]
  by_cases hi : i < n
  · rw [if_pos hi, getElem?_overwrite h, if_pos (by omega), Nat.add_sub_cancel_left]
  · rw [if_neg hi, List.getElem?_eq_none (by omega)]

/-- The second copy of a field of the same size is the one that stays. -/
theorem overwrite_overwrite {b u v : Bytes} {off : ℕ} (h : off + v.length ≤ b.length)
    (huv : u.length = v.length) : overwrite (overwrite b off v) off u = overwrite b off u := by
  apply List.ext_getElem?
  intro i
  have hlen := length_overwrite b v off h
  rw [getElem?_overwrite (by omega), getElem?_overwrite h, getElem?_overwrite (by omega)]
  by_cases hi : off ≤ i ∧ i < off + u.length
  · rw [if_pos hi, if_pos hi]
  · rw [if_neg hi, if_neg (by omega), if_neg hi]

end ByteString
