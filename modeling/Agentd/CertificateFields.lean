import Agentd.ByteString

/-! # Certificates as lists of fields

What the certificate library hands to the services is a list of typed fields. The codec at the end
is one concrete library of that kind: a two-byte type, a two-byte size and the value of each
field. -/
namespace CertificateFields

open ByteString

inductive CertField where
  | certificateVersion
  | certificateValidFrom
  | certificateCryptoSuite
  | certificateType
  | certificateId
  | previousCertificateId
  | artifactId
  | newArtifactState
  | blockUuid
  | previousBlockUuid
  | previousBlockHash
  | blockHeight
  | wrappedTransactionTuple
  | signerId
  | signature
  | other (code : ℕ)
  deriving DecidableEq, Repr

def fieldValues (fs : List (CertField × Bytes)) (t : CertField) : List Bytes :=
  fs.filterMap fun p => if p.1 = t then some p.2 else none

theorem mem_of_mem_fieldValues {fs : List (CertField × Bytes)} {t : CertField} {v : Bytes}
    (h : v ∈ fieldValues fs t) : (t, v) ∈ fs := by
  obtain ⟨p, hp, hv⟩ := List.mem_filterMap.mp h
  by_cases ht : p.1 = t
  · rw [if_pos ht] at hv
    cases hv
    rwa [← ht]
  · rw [if_neg ht] at hv
    cases hv

def sizedField (fs : List (CertField × Bytes)) (t : CertField) (size : ℕ) : Option Bytes :=
  (fieldValues fs t).head?.filter fun v => v.length = size

theorem sizedField_eq_some {fs : List (CertField × Bytes)} {t : CertField} {size : ℕ} {v : Bytes} :
    sizedField fs t size = some v ↔ (fieldValues fs t).head? = some v ∧ v.length = size := by
  simp [sizedField, Option.filter_eq_some_iff]

/-! ### A concrete codec -/

def CertField.code : CertField → ℕ
  | .certificateVersion => 0
  | .certificateValidFrom => 1
  | .certificateCryptoSuite => 2
  | .certificateType => 3
  | .certificateId => 4
  | .previousCertificateId => 5
  | .artifactId => 6
  | .newArtifactState => 7
  | .blockUuid => 8
  | .previousBlockUuid => 9
  | .previousBlockHash => 10
  | .blockHeight => 11
  | .wrappedTransactionTuple => 12
  | .signerId => 13
  | .signature => 14
  | .other c => 15 + c

def CertField.ofCode : ℕ → CertField
  | 0 => .certificateVersion
  | 1 => .certificateValidFrom
  | 2 => .certificateCryptoSuite
  | 3 => .certificateType
  | 4 => .certificateId
  | 5 => .previousCertificateId
  | 6 => .artifactId
  | 7 => .newArtifactState
  | 8 => .blockUuid
  | 9 => .previousBlockUuid
  | 10 => .previousBlockHash
  | 11 => .blockHeight
  | 12 => .wrappedTransactionTuple
  | 13 => .signerId
  | 14 => .signature
  | c + 15 => .other c

theorem CertField.ofCode_code (t : CertField) : ofCode t.code = t := by
  cases t with
  | other c =>
    rw [code, Nat.add_comm]
    rfl
  | _ => rfl

def encodeField (p : CertField × Bytes) : Bytes :=
  toBigEndian 2 p.1.code ++ (toBigEndian 2 p.2.length ++ p.2)

def encodeFields (fs : List (CertField × Bytes)) : Bytes := fs.flatMap encodeField

def parseFields : ℕ → Bytes → Option (List (CertField × Bytes))
  | _, [] => some []
  | 0, _ :: _ => none
  | n + 1, b =>
    let size := ofBigEndian (slice b 2 2)
    if b.length < 4 + size then none
    else (parseFields n (b.drop (4 + size))).map fun fs =>
      (CertField.ofCode (ofBigEndian (slice b 0 2)), slice b 4 size) :: fs

def certFields (b : Bytes) : Option (List (CertField × Bytes)) := parseFields b.length b

theorem parseFields_value_length {n : ℕ} {b : Bytes} {fs : List (CertField × Bytes)}
    {t : CertField} {v : Bytes} (h : parseFields n b = some fs) (hv : (t, v) ∈ fs) :
    v.length < b.length := by
  induction n generalizing b fs with
  | zero =>
    cases b with
    | nil =>
      cases h
      cases hv
    | cons x b => cases h
  | succ n ih =>
    cases b with
    | nil =>
      cases h
      cases hv
    | cons x b =>
      simp only [parseFields] at h
      split at h
      · cases h
      · rename_i hlen
        obtain ⟨gs, hgs, rfl⟩ := Option.map_eq_some_iff.mp h
        rcases List.mem_cons.mp hv with heq | hmem
        · obtain ⟨-, rfl⟩ := Prod.mk.inj heq
          have hs : (slice (x :: b) 4 (ofBigEndian (slice (x :: b) 2 2))).length ≤
              ofBigEndian (slice (x :: b) 2 2) := by
            simp [slice]
          omega
        · have hrec := ih hgs hmem
          rw [List.length_drop] at hrec
          omega

theorem parseFields_encodeFields {fs : List (CertField × Bytes)} {n : ℕ}
    (hn : (encodeFields fs).length ≤ n)
    (hfs : ∀ p ∈ fs, p.1.code < 65536 ∧ p.2.length < 65536) :
    parseFields n (encodeFields fs) = some fs := by
  induction fs generalizing n with
  | nil =>
    cases n with
    | zero => rfl
    | succ n => rfl
  | cons p fs ih =>
    obtain ⟨hcode, hsize⟩ := hfs p (by simp)
    have hlen : (encodeFields (p :: fs)).length = 4 + p.2.length + (encodeFields fs).length := by
      simp [encodeFields, encodeField]
      omega
    have hty : slice (encodeFields (p :: fs)) 0 2 = toBigEndian 2 p.1.code := by
      simp [encodeFields, encodeField, slice_append_self]
    have hsz : slice (encodeFields (p :: fs)) 2 2 = toBigEndian 2 p.2.length := by
      simp [encodeFields, encodeField, slice_append_skip, slice_append_self]
    have hval : slice (encodeFields (p :: fs)) 4 p.2.length = p.2 := by
      simp [encodeFields, encodeField, slice_append_skip, slice_append_self]
    have hdrop : (encodeFields (p :: fs)).drop (4 + p.2.length) = encodeFields fs := by
      have hp : (encodeField p).length = 4 + p.2.length := by
        simp [encodeField]
        omega
      simp [encodeFields, List.drop_left' hp]
    cases n with
    | zero => omega
    | succ n =>
      have hrec := ih (n := n) (by omega) fun q hq => hfs q (by simp [hq])
      cases hb : encodeFields (p :: fs) with
      | nil =>
        rw [hb] at hlen
        simp at hlen
        omega
      | cons x b =>
        rw [hb] at hlen hty hsz hval hdrop
        simp only [parseFields, hty, hsz]
        rw [ofBigEndian_toBigEndian hsize, ofBigEndian_toBigEndian hcode, if_neg (by omega),
          hdrop, hrec, hval, CertField.ofCode_code]
        rfl

theorem certFields_encodeFields {fs : List (CertField × Bytes)}
    (hfs : ∀ p ∈ fs, p.1.code < 65536 ∧ p.2.length < 65536) :
    certFields (encodeFields fs) = some fs :=
  parseFields_encodeFields le_rfl hfs

def transactionCert (id prev artifact : BitVec 128) (state : BitVec 32) : Bytes :=
  encodeFields [(.certificateId, be 16 id), (.previousCertificateId, be 16 prev),
    (.artifactId, be 16 artifact), (.newArtifactState, be 4 state)]

def blockCert (id prev : BitVec 128) (height : BitVec 64) (txns : List Bytes) : Bytes :=
  encodeFields ([(.blockUuid, be 16 id), (.previousBlockUuid, be 16 prev),
    (.blockHeight, be 8 height)] ++ txns.map fun t => (.wrappedTransactionTuple, t))

end CertificateFields
