import Agentd.ConfigRoundTrip
import Agentd.EntityRuns

/-! # What is loaded from certificates

The process writes for each file the record of an entity, or the beginning of one. So whatever the
supervisor has loaded when its read succeeds is in the listed certificates. -/
namespace EntityLoading

open ByteString
open DataserviceRecords (Uuid)
open TypedIpc
open StreamFronts
open ConfigBlock
open EntityReader
open EntityStreams
open EntityRuns

variable {certs : Certificates} {ctx : Context} {conf : AgentConfig} {control frags : List Bytes}
  {rest : Bytes} {fs : List (CertFieldType × Bytes)}

/-! ### Values on the socket -/

theorem onSocket_eq (vs : List Value) : onSocket vs = vs.flatMap IpcCodecs.bytes := by
  rw [onSocket, IpcCodecs.writeAll_eq IpcCodecs.writeBlock_eq, List.nil_append]

theorem onSocket_append (vs us : List Value) :
    onSocket (vs ++ us) = onSocket vs ++ onSocket us := by
  simp only [onSocket_eq, List.flatMap_append]

theorem onSocket_cons (v : Value) (vs : List Value) :
    onSocket (v :: vs) = IpcCodecs.bytes v ++ onSocket vs := by
  simp only [onSocket_eq, List.flatMap_cons]

theorem onSocket_nil : onSocket [] = [] := by rw [onSocket_eq, List.flatMap_nil]

theorem bytes_uint8 (v : BitVec 8) : IpcCodecs.bytes (.uint8 v) = (markPieces v).flatten := rfl

theorem bytes_uint64 (v : BitVec 64) : IpcCodecs.bytes (.uint64 v) = (countPieces v).flatten := rfl

theorem bytes_dataValue {b : Bytes} (hb : b.length < 2 ^ 32) :
    IpcCodecs.bytes (dataValue b) = (dataPieces b).flatten := by
  have htake : b.take (b.length % 2 ^ 32) = b := by
    rw [Nat.mod_eq_of_lt hb, List.take_length]
  simp only [dataValue, IpcCodecs.bytes, IpcCodecs.fields, htake]
  rfl

/-! ### Capabilities of a certificate -/

def capabilityOf (b : Bytes) : Capability :=
  ⟨bits 128 (b.take 16), bits 128 (slice b 16 16), bits 128 (slice b 32 16)⟩

theorem onSocket_capabilityValues {b : Bytes} (hb : 48 ≤ b.length) :
    onSocket (capabilityValues b) = (capPieces (capabilityOf b)).flatten := by
  have hs : (b.take 16).length = 16 := by
    rw [List.length_take]
    omega
  have hv : (slice b 16 16).length = 16 := by
    rw [slice, List.length_take, List.length_drop]
    omega
  have ho : (slice b 32 16).length = 16 := by
    rw [slice, List.length_take, List.length_drop]
    omega
  simp only [capabilityValues, onSocket_cons, onSocket_nil, bytes_uint8, capPieces, capabilityOf,
    uuidPieces, be_16 hs, be_16 hv, be_16 ho, List.flatten_append, List.append_nil,
    bytes_dataValue (show (b.take 16).length < 2 ^ 32 by omega),
    bytes_dataValue (show (slice b 16 16).length < 2 ^ 32 by omega),
    bytes_dataValue (show (slice b 32 16).length < 2 ^ 32 by omega)]

theorem countFields_eq (bufs : List Bytes) (count : BitVec 64) :
    countFields bufs count = count + BitVec.ofNat 64 bufs.length := by
  induction bufs generalizing count with
  | nil => simp [countFields]
  | cons b bufs ih =>
    rw [countFields, ih, List.length_cons, BitVec.add_assoc, Nat.add_comm bufs.length 1,
      BitVec.ofNat_add]
    rfl

/-- The number that is announced is the number of fields. -/
theorem entityGetCapabilitiesCount_eq (fs : List (CertFieldType × Bytes)) :
    entityGetCapabilitiesCount fs = BitVec.ofNat 64 (findAll .veloEndorsement fs).length := by
  rw [entityGetCapabilitiesCount, countFields_eq]
  exact BitVec.zero_add _

theorem length_findAll_le (t : CertFieldType) (fs : List (CertFieldType × Bytes)) :
    (findAll t fs).length ≤ fs.length := by
  rw [findAll, List.length_map]
  exact List.length_filter_le _ _

/-- The capabilities of the fields, or only the first of them when a field is too short. -/
theorem onSocket_writeCapabilities {b : Bytes} (hb : 48 ≤ b.length) (found : List Bytes) :
    ∃ more, onSocket (writeCapabilities (found.length + 1) b found).1 ++ more =
        (((b :: found).map capabilityOf).flatMap capPieces).flatten ∧
      ((writeCapabilities (found.length + 1) b found).2 = true →
        more = [] ∧ ∀ c ∈ b :: found, 48 ≤ c.length) := by
  induction found generalizing b with
  | nil =>
    refine ⟨[], ?_, fun _ => ⟨rfl, by simpa using hb⟩⟩
    rw [List.append_nil, List.length_nil, writeCapabilities, List.map_singleton,
      List.flatMap_singleton]
    exact onSocket_capabilityValues hb
  | cons next found ih =>
    rw [List.length_cons, writeCapabilities]
    by_cases hshort : next.length < 48
    · refine ⟨(((next :: found).map capabilityOf).flatMap capPieces).flatten, ?_, ?_⟩
      · rw [if_pos hshort, onSocket_capabilityValues hb, List.map_cons (f := capabilityOf) (a := b),
          List.flatMap_cons, List.flatten_append]
      · rw [if_pos hshort]
        intro hok
        cases hok
    · obtain ⟨more, hmore, hok⟩ := ih (Nat.le_of_not_lt hshort)
      refine ⟨more, ?_, ?_⟩
      · rw [if_neg hshort, onSocket_append, onSocket_capabilityValues hb, List.append_assoc, hmore,
          List.map_cons (f := capabilityOf) (a := b), List.flatMap_cons, List.flatten_append]
      · rw [if_neg hshort]
        intro htrue
        obtain ⟨hnil, hall⟩ := hok htrue
        exact ⟨hnil, List.forall_mem_cons.mpr ⟨hb, hall⟩⟩

/-! ### The record of a certificate -/

def capsOf (withCaps : Bool) (fs : List (CertFieldType × Bytes)) : List Capability :=
  if withCaps then ((findAll .veloEndorsement fs).map capabilityOf).reverse else []

/-- No endorsement field is too short for a capability. -/
def EndorsementsFit (withCaps : Bool) (fs : List (CertFieldType × Bytes)) : Prop :=
  withCaps = true → ∀ b ∈ findAll .veloEndorsement fs, 48 ≤ b.length

theorem length_capsOf_lt (hfs : fs.length < 2 ^ 64) (w : Bool) : (capsOf w fs).length < 2 ^ 64 := by
  have hle := length_findAll_le .veloEndorsement fs
  cases w with
  | false => simp [capsOf]
  | true =>
    rw [capsOf, if_pos rfl, List.length_reverse, List.length_map]
    omega

/-- What is written for a certificate is the record of its entity, or the beginning of it. -/
theorem onSocket_writeEntity {id enc sign : Bytes} (hid : id.length = 16)
    (henc : enc.length < 2 ^ 32) (hsign : sign.length < 2 ^ 32) (hfs : fs.length < 2 ^ 64)
    (ctx : Context) (isEndorser : Bool) :
    ∃ more, onSocket (writeEntity ctx isEndorser fs id enc sign).1 ++ more =
        ((whole ⟨bits 128 id, capsOf (ctx.isSome && !isEndorser) fs, enc, sign⟩).pieces
          (ctx.isSome && !isEndorser)).flatten ∧
      ((writeEntity ctx isEndorser fs id enc sign).2 = true →
        more = [] ∧ EndorsementsFit (ctx.isSome && !isEndorser) fs) ∧
      ((writeEntity ctx isEndorser fs id enc sign).2 = false → more ≠ []) := by
  have hheader : onSocket [.uint8 streamTypeBom, dataValue id, dataValue enc, dataValue sign] =
      (headerPieces (be 16 (bits 128 id)) enc sign).flatten := by
    simp only [onSocket_cons, onSocket_nil, bytes_uint8, headerPieces, be_16 hid,
      bytes_dataValue (show id.length < 2 ^ 32 by omega), bytes_dataValue henc,
      bytes_dataValue hsign, List.flatten_append, List.append_nil]
  have heom : onSocket [.uint8 streamTypeEom] = (markPieces streamTypeEom).flatten := by
    rw [onSocket_cons, onSocket_nil, bytes_uint8, List.append_nil]
  have hmark : (markPieces streamTypeEom).flatten ≠ [] := by decide
  cases hw : ctx.isSome && !isEndorser with
  | false =>
    refine ⟨[], ?_, ?_, ?_⟩
    · simp only [writeEntity, hw, Bool.false_eq_true, if_false, onSocket_append, hheader, heom,
        Record.pieces, whole, List.flatten_append, List.nil_append, List.append_nil]
    · intro _
      exact ⟨rfl, fun hcaps => (by cases hcaps)⟩
    · intro hok
      simp only [writeEntity, hw, Bool.false_eq_true, if_false] at hok
      cases hok
  | true =>
    have hle := length_findAll_le .veloEndorsement fs
    have hcount : (entityGetCapabilitiesCount fs).toNat = (findAll .veloEndorsement fs).length := by
      rw [entityGetCapabilitiesCount_eq, BitVec.toNat_ofNat, Nat.mod_eq_of_lt (by omega)]
    have hpieces : ((whole ⟨bits 128 id, capsOf true fs, enc, sign⟩).pieces true).flatten =
        (headerPieces (be 16 (bits 128 id)) enc sign).flatten ++
          ((countPieces (entityGetCapabilitiesCount fs)).flatten ++
            ((((findAll .veloEndorsement fs).map capabilityOf).flatMap capPieces).flatten ++
              (markPieces streamTypeEom).flatten)) := by
      simp only [Record.pieces, whole, capsPieces, capsOf, if_true, List.reverse_reverse,
        List.length_reverse, List.length_map, entityGetCapabilitiesCount_eq, List.flatten_append,
        List.append_assoc]
    rw [hpieces]
    have hcountBytes : ∀ vs, onSocket (.uint64 (entityGetCapabilitiesCount fs) :: vs) =
        (countPieces (entityGetCapabilitiesCount fs)).flatten ++ onSocket vs := by
      intro vs
      rw [onSocket_cons, bytes_uint64]
    cases hfound : findAll .veloEndorsement fs with
    | nil =>
      have hzero : entityGetCapabilitiesCount fs = 0 := by
        rw [entityGetCapabilitiesCount_eq, hfound]
        rfl
      refine ⟨[], ?_, ?_, ?_⟩
      · simp only [writeEntity, hw, if_true, hfound, hzero, ne_eq, not_true_eq_false, if_false,
          onSocket_append, hheader, List.append_nil, List.map_nil, List.flatMap_nil,
          List.flatten_nil, List.nil_append]
        rw [onSocket_cons, heom, bytes_uint64]
      · intro _
        refine ⟨rfl, fun _ b hb => ?_⟩
        rw [hfound] at hb
        cases hb
      · intro hok
        simp only [writeEntity, hw, if_true, hfound, hzero, ne_eq, not_true_eq_false,
          if_false] at hok
        cases hok
    | cons b found =>
      by_cases hshort : b.length < 48
      · refine ⟨(((b :: found).map capabilityOf).flatMap capPieces).flatten ++
          (markPieces streamTypeEom).flatten, ?_, ?_, ?_⟩
        · simp only [writeEntity, hw, if_true, hfound, hshort, onSocket_append, hheader,
            hcountBytes, onSocket_nil, List.append_assoc, List.nil_append]
        · intro hok
          simp only [writeEntity, hw, if_true, hfound, hshort] at hok
          cases hok
        · intro _ hnil
          exact hmark (List.append_eq_nil_iff.mp hnil).2
      · have hlen : (entityGetCapabilitiesCount fs).toNat = found.length + 1 := by
          rw [hcount, hfound, List.length_cons]
        obtain ⟨more, hmore, hall⟩ := onSocket_writeCapabilities (Nat.le_of_not_lt hshort) found
        have hwrite : writeEntity ctx isEndorser fs id enc sign =
            if (writeCapabilities (found.length + 1) b found).2 then
              ([.uint8 streamTypeBom, dataValue id, dataValue enc, dataValue sign] ++
                [.uint64 (entityGetCapabilitiesCount fs)] ++
                (writeCapabilities (found.length + 1) b found).1 ++ [.uint8 streamTypeEom], true)
            else ([.uint8 streamTypeBom, dataValue id, dataValue enc, dataValue sign] ++
                [.uint64 (entityGetCapabilitiesCount fs)] ++
                (writeCapabilities (found.length + 1) b found).1, false) := by
          simp only [writeEntity, hw, if_true, hfound, hshort, if_false, hlen]
        rw [hwrite, ← hmore]
        cases hok : (writeCapabilities (found.length + 1) b found).2 with
        | true =>
          obtain ⟨rfl, hfit⟩ := hall hok
          refine ⟨[], ?_, fun _ => ⟨rfl, fun _ => hfound ▸ hfit⟩, fun hfalse => (by cases hfalse)⟩
          simp only [if_true, onSocket_append, hheader, hcountBytes, onSocket_nil, heom,
            List.append_assoc, List.append_nil]
        | false =>
          refine ⟨more ++ (markPieces streamTypeEom).flatten, ?_, fun htrue => (by cases htrue),
            fun _ hnil => hmark (List.append_eq_nil_iff.mp hnil).2⟩
          simp only [Bool.false_eq_true, if_false, onSocket_append, hheader, hcountBytes,
            onSocket_nil, List.append_assoc, List.append_nil]

/-- What is loaded for a file: the id and the keys of its certificate and, where the process has an
endorser, its capabilities; then the certificate was attested with the keys of the endorser. -/
structure Certified (certs : Certificates) (ctx : Context) (file : CString) (e : PublicEntity)
    (cert : Bytes) (fs : List (CertFieldType × Bytes)) : Prop where
  file : certs.file file = some cert
  fields : certs.fields cert = some fs
  attested : ctx.isSome = true → certs.attest (endorserKeyResolver ctx) cert = true
  id : ∃ id, findShort .artifactId fs = some id ∧ id.length = 16 ∧ e.id = bits 128 id
  enc : findShort .publicEncryptionKey fs = some e.encPubkey
  sign : findShort .publicSigningKey fs = some e.signPubkey
  caps : e.capHead = capsOf ctx.isSome fs
  fit : EndorsementsFit ctx.isSome fs

/-- A part of the record of an entity, and all of it if the process goes on. -/
def PartOfRecord (certs : Certificates) (ctx : Context) (isEndorser : Bool) (file : CString)
    (x : List Value × Option Context) : Prop :=
  ∃ e more, (whole e).Ok ctx.isSome ∧ onSocket x.1 ++ more = ((whole e).pieces ctx.isSome).flatten ∧
    (x.2 = none → more ≠ []) ∧ ∀ ctx', x.2 = some ctx' → more = [] ∧
      ctx' = (if isEndorser then some ⟨e.id, e.encPubkey, e.signPubkey⟩ else ctx) ∧
      ∃ cert fs, Certified certs ctx file e cert fs

theorem pieces_ne_nil (w : Bool) (r : Record) : (r.pieces w).flatten ≠ [] := by
  intro hnil
  have hlen := congrArg List.length hnil
  simp only [Record.pieces, headerPieces, markPieces, integerPieces, List.flatten_append,
    List.flatten_cons, List.length_append, length_be, List.length_nil] at hlen
  omega

theorem partOfRecord_nil (certs : Certificates) (ctx : Context) (isEndorser : Bool)
    (file : CString) : PartOfRecord certs ctx isEndorser file ([], none) := by
  refine ⟨⟨0, [], [], []⟩, _, ⟨by simp [whole], by simp [whole], fun _ => ⟨rfl, rfl⟩, by
    simp [whole, CapsOk]⟩, by rw [onSocket_nil, List.nil_append], fun _ => pieces_ne_nil _ _,
    fun ctx' h => (by cases h)⟩

theorem readPublicEntity_part (certs : Certificates) {isEndorser : Bool}
    (hctx : isEndorser = true → ctx = none) (file : CString) :
    PartOfRecord certs ctx isEndorser file (readPublicEntity certs ctx file isEndorser) := by
  rw [readPublicEntity]
  cases hfile : certs.file file with
  | none => exact partOfRecord_nil _ _ _ _
  | some cert =>
  cases hfields : certs.fields cert with
  | none =>
    simp only [hfields]
    exact partOfRecord_nil _ _ _ _
  | some fs =>
  simp only [hfields]
  by_cases hattest : (ctx.isSome && !certs.attest (endorserKeyResolver ctx) cert) = true
  · rw [if_pos hattest]
    exact partOfRecord_nil _ _ _ _
  rw [if_neg hattest]
  cases hid : findShort .artifactId fs with
  | none => exact partOfRecord_nil _ _ _ _
  | some id =>
  simp only
  by_cases hidSize : id.length ≠ 16
  · rw [if_pos hidSize]
    exact partOfRecord_nil _ _ _ _
  rw [if_neg hidSize]
  cases henc : findShort .publicEncryptionKey fs with
  | none => exact partOfRecord_nil _ _ _ _
  | some enc =>
  simp only
  by_cases hencSize : enc.length ≠ certs.encPublicKeySize
  · rw [if_pos hencSize]
    exact partOfRecord_nil _ _ _ _
  rw [if_neg hencSize]
  cases hsign : findShort .publicSigningKey fs with
  | none => exact partOfRecord_nil _ _ _ _
  | some sign =>
  simp only
  by_cases hsignSize : sign.length ≠ certs.signPublicKeySize
  · rw [if_pos hsignSize]
    exact partOfRecord_nil _ _ _ _
  rw [if_neg hsignSize]
  have hencLt : enc.length < 2 ^ 32 := by
    rw [not_not.mp hencSize]
    exact certs.encPublicKeySize_lt
  have hsignLt : sign.length < 2 ^ 32 := by
    rw [not_not.mp hsignSize]
    exact certs.signPublicKeySize_lt
  have hcaps : ((if isEndorser = true then some ⟨bits 128 id, enc,
      sign⟩ else ctx : Context).isSome &&
      !isEndorser) = ctx.isSome := by
    cases isEndorser with
    | false => simp
    | true =>
      rw [hctx rfl]
      rfl
  obtain ⟨more, hmore, hall, hpart⟩ := onSocket_writeEntity (not_not.mp hidSize) hencLt hsignLt
    (certs.fields_lt hfields)
    (if isEndorser = true then some ⟨bits 128 id, enc, sign⟩ else ctx : Context) isEndorser
  rw [hcaps] at hmore hall
  generalize writeEntity (if isEndorser = true then some ⟨bits 128 id, enc,
    sign⟩ else ctx : Context)
    isEndorser fs id enc sign = written at hmore hall hpart
  obtain ⟨values, ok⟩ := written
  refine ⟨⟨bits 128 id, capsOf ctx.isSome fs, enc, sign⟩, more, ⟨hencLt, hsignLt, ?_,
    length_capsOf_lt (certs.fields_lt hfields) _⟩, hmore, ?_, ?_⟩
  · intro hnone
    simp only [whole, hnone, capsOf, Bool.false_eq_true, if_false, and_self]
  · intro hstop
    cases ok with
    | false => exact hpart rfl
    | true => cases hstop
  · intro ctx' hgoes
    cases ok with
    | false => cases hgoes
    | true =>
      obtain ⟨hnil, hfit⟩ := hall rfl
      refine ⟨hnil, (Option.some.inj hgoes).symm, cert, fs, hfile, hfields, fun hsome => ?_,
        ⟨id, hid, not_not.mp hidSize, rfl⟩, henc, hsign, rfl, hfit⟩
      rw [hsome, Bool.true_and, Bool.not_eq_true', Bool.not_eq_false] at hattest
      exact hattest

/-! ### The conversation -/

def answers (certs : Certificates) : Context → Bool → List CString → List Value
  | _, _, [] => []
  | ctx, isEndorser, file :: files =>
    match readPublicEntity certs ctx file isEndorser with
    | (values, none) => values
    | (values, some ctx) => values ++ answers certs ctx false files

def NamesFit (files : List CString) : Prop := ∀ file ∈ files, file.bytes.length ≤ maxStringSize

def namePieces (files : List CString) : List Bytes :=
  files.flatMap fun file => sizedPieces .string file.bytes

/-- With a part of the names the process writes a part of the answers. -/
theorem readFiles_isPrefix {files : List CString} (hfit : NamesFit files) (n : ℕ) (ctx : Context)
    (isEndorser : Bool) (hcontrol : control.flatten <+:
      (namePieces files).flatten ++ (markPieces streamTypeEom).flatten) :
    onSocket (readFiles certs n ctx isEndorser control) <+:
      onSocket (answers certs ctx isEndorser files) := by
  induction n generalizing files ctx isEndorser control with
  | zero =>
    rw [readFiles, onSocket_nil]
    exact List.nil_prefix
  | succ n ih =>
    rw [readFiles]
    split
    · rw [onSocket_nil]
      exact List.nil_prefix
    · rename_i name left hname
      obtain ⟨hle, hfront⟩ := decodes_string.sound hname
      obtain ⟨more, hmore⟩ := hcontrol
      rw [hfront.flatten, List.append_assoc] at hmore
      cases files with
      | nil =>
        have hlen := congrArg List.length hmore
        simp only [sizedPieces, namePieces, markPieces, integerPieces, List.flatten_cons,
          List.flatten_nil, List.flatMap_nil, List.length_append, length_be,
          List.length_nil] at hlen
        omega
      | cons file files =>
        obtain ⟨hfile, hfiles⟩ := List.forall_mem_cons.mp hfit
        rw [namePieces, List.flatMap_cons, List.flatten_append, List.append_assoc] at hmore
        obtain ⟨rfl, hrest⟩ := decodes_string.unique hle hfile hmore
        rw [ConfigRoundTrip.ofBuffer_bytes, answers]
        generalize readPublicEntity certs ctx file isEndorser = x
        obtain ⟨values, next⟩ := x
        cases next with
        | none => exact List.prefix_refl _
        | some ctx =>
          simp only [onSocket_append, List.prefix_append_right_inj]
          exact ih hfiles _ _ ⟨more, hrest⟩

def listed (conf : AgentConfig) : List CString := conf.endorserKey.toList ++ conf.publicKeyHead

theorem onSocket_sentValues (hfit : NamesFit (listed conf)) : onSocket (sentValues conf) =
    (markPieces (if conf.endorserKey.isSome then 1 else 0)).flatten ++
      ((namePieces (listed conf)).flatten ++ (markPieces streamTypeEom).flatten) := by
  have hnames : ∀ files : List CString, NamesFit files →
      onSocket (files.map Value.string) = (namePieces files).flatten := by
    intro files hfiles
    induction files with
    | nil => exact onSocket_nil
    | cons file files ih =>
      obtain ⟨hfile, hrest⟩ := List.forall_mem_cons.mp hfiles
      rw [List.map_cons, onSocket_cons, ih hrest, namePieces, namePieces, List.flatMap_cons,
        List.flatten_append, IpcCodecs.bytes, ConfigRoundTrip.fields_string,
        ConfigRoundTrip.cutString_eq hfile]
  have hall := hnames _ hfit
  rw [listed] at hall
  rw [sentValues, onSocket_cons, onSocket_append, hall, onSocket_cons, onSocket_nil,
    List.append_nil]
  rfl

theorem readPublicEntities_isPrefix (hfit : NamesFit (listed conf))
    (hsent : control.flatten <+: onSocket (sentValues conf)) :
    onSocket (readPublicEntities certs control) <+:
      onSocket (answers certs none conf.endorserKey.isSome (listed conf)) := by
  rw [readPublicEntities]
  split
  · rw [onSocket_nil]
    exact List.nil_prefix
  · rename_i flag left hflag
    obtain ⟨-, hfront⟩ := decodes_uint8.sound hflag
    obtain ⟨more, hmore⟩ := hsent
    rw [onSocket_sentValues hfit, hfront.flatten, List.append_assoc] at hmore
    obtain ⟨rfl, hrest⟩ := mark_unique hmore
    have hbool : decide ((if conf.endorserKey.isSome = true then 1 else 0 : BitVec 8) ≠ 0) =
        conf.endorserKey.isSome := by
      cases conf.endorserKey.isSome <;> rfl
    rw [hbool]
    exact readFiles_isPrefix hfit _ _ _ ⟨more, hrest⟩

/-- A record at the front of the answers is the one of the first file. -/
theorem certified_of_record (ctx : Context) {isEndorser : Bool}
    (hctx : isEndorser = true → ctx = none)
    {file : CString} {files : List CString} {r : Record} (hr : r.Ok ctx.isSome)
    (hpre : (r.pieces ctx.isSome).flatten ++ rest <+:
      onSocket (answers certs ctx isEndorser (file :: files))) :
    (∃ cert fs, Certified certs ctx file r.entity cert fs) ∧
      rest <+: onSocket (answers certs (if isEndorser then
        some ⟨r.entity.id, r.entity.encPubkey, r.entity.signPubkey⟩ else ctx) false files) := by
  obtain ⟨e, more, hok, hrecord, hstop, hgoes⟩ := readPublicEntity_part certs hctx file
  obtain ⟨z, hz⟩ := hpre
  rw [answers] at hz
  cases hread : readPublicEntity certs ctx file isEndorser with
  | mk values next =>
    rw [hread] at hz hrecord hstop hgoes
    cases next with
    | none =>
      rw [← hz, List.append_assoc, List.append_assoc] at hrecord
      have hwhole : (r.pieces ctx.isSome).flatten ++ (rest ++ (z ++ more)) =
          ((whole e).pieces ctx.isSome).flatten ++ [] := by
        rw [hrecord, List.append_nil]
      obtain ⟨-, hnil⟩ := record_unique hr hok hwhole
      exact absurd (List.append_eq_nil_iff.mp (List.append_eq_nil_iff.mp hnil).2).2 (hstop rfl)
    | some ctx' =>
      obtain ⟨rfl, rfl, cert, fs, hcert⟩ := hgoes ctx' rfl
      rw [List.append_nil] at hrecord
      simp only [onSocket_append] at hz
      rw [hrecord, List.append_assoc] at hz
      obtain ⟨rfl, hrest⟩ := record_unique hr hok hz
      exact ⟨⟨cert, fs, hcert⟩, z, hrest⟩

/-- So the records of all files are those of their certificates. -/
theorem certified_of_records (ctx : Context) {files : List CString} {rs : List Record}
    (hrs : RecordsOk (files.map fun _ => ctx.isSome) rs)
    (hpre : (recordsPieces (files.map fun _ => ctx.isSome) rs).flatten <+:
      onSocket (answers certs ctx false files)) :
    List.Forall₂ (fun file e => ∃ cert fs, Certified certs ctx file e cert fs) files
      (rs.map Record.entity) := by
  induction files generalizing rs with
  | nil =>
    cases hrs
    exact List.Forall₂.nil
  | cons file files ih =>
    cases hrs with
    | cons hr hrs =>
      rw [List.map_cons, recordsPieces, List.flatten_append] at hpre
      obtain ⟨hcert, hrest⟩ := certified_of_record ctx (fun h => by cases h) hr hpre
      exact List.Forall₂.cons hcert (ih hrs hrest)

/-- The endorser and the entities are those of the listed certificates; with an endorser every
certificate was attested with its keys. -/
def Loads (certs : Certificates) (conf : AgentConfig) (loaded : Loaded) : Prop :=
  match conf.endorserKey with
  | none => loaded.endorser = none ∧
      List.Forall₂ (fun file e => ∃ cert fs, Certified certs none file e cert fs)
        conf.publicKeyHead loaded.entities.reverse
  | some endorserFile => ∃ e, loaded.endorser = some e ∧
      (∃ cert fs, Certified certs none endorserFile e cert fs) ∧
      List.Forall₂ (fun file entity => ∃ cert fs,
          Certified certs (some ⟨e.id, e.encPubkey, e.signPubkey⟩) file entity cert fs)
        conf.publicKeyHead loaded.entities.reverse

theorem loads {fails : ℕ → Bool} {loaded : Loaded} {left : List Bytes} {h h' : Heap}
    (hfit : NamesFit (listed conf)) (hconv : Conversation certs conf control frags)
    (hread : configReadPublicEntities fails conf frags h = (.ok loaded, left, h')) :
    Loads certs conf loaded := by
  rw [configReadPublicEntities_eq] at hread
  cases hrun : readInTurn fails (turns conf) frags h with
  | mk z u =>
    rw [hrun] at hread
    cases z with
    | error e => cases hread
    | ok es =>
      simp only [mapResult, Except.map, Prod.mk.injEq, Except.ok.injEq] at hread
      obtain ⟨rfl, rfl⟩ := hread
      obtain ⟨rs, rfl, hrs, hfront⟩ := readInTurn_sound hrun
      have hpre : (recordsPieces (turns conf) rs).flatten <+:
          onSocket (answers certs none conf.endorserKey.isSome (listed conf)) := by
        refine List.IsPrefix.trans ?_
          (hconv.answered.trans (readPublicEntities_isPrefix hfit hconv.sent))
        rw [hfront.flatten]
        exact List.prefix_append _ _
      rw [turns, listed] at *
      rw [Loads, assemble]
      cases hkey : conf.endorserKey with
      | none =>
        rw [hkey] at hrs hpre
        have hcerts := certified_of_records none hrs hpre
        refine ⟨rfl, ?_⟩
        simpa using hcerts
      | some endorserFile =>
        rw [hkey] at hrs hpre
        cases hrs with
        | @cons _ r _ rs hr hrs =>
          simp only [recordsPieces, List.flatten_append] at hpre
          obtain ⟨hcert, hrest⟩ := certified_of_record none (fun _ => rfl) hr hpre
          have hcerts := certified_of_records
            (some ⟨r.entity.id, r.entity.encPubkey, r.entity.signPubkey⟩) hrs hrest
          refine ⟨r.entity, rfl, hcert, ?_⟩
          simpa using hcerts

def FromReader (conf : AgentConfig) : Prop :=
  ∃ n frags read left, configReadBlock n frags = some (.ok read, left) ∧
    conf.endorserKey = read.endorserKey ∧ conf.publicKeyHead = read.publicKeyHead

theorem FromReader.namesFit (h : FromReader conf) : NamesFit (listed conf) := by
  obtain ⟨n, frags, read, left, hread, hendorser, hkeys⟩ := h
  obtain ⟨fs, hwell, rfl, -⟩ := ConfigFields.configReadBlock_sound hread
  have hcarried := ConfigRoundTrip.carried_of_read hwell.inRange
  intro file hfile
  rcases List.mem_append.mp hfile with hfirst | hrest
  · rw [hendorser] at hfirst
    exact hcarried.strings.string .endorserKey file (Option.mem_toList.mp hfirst)
  · rw [hkeys] at hrest
    exact hcarried.strings.publicKey file hrest

/-- Whatever is loaded in a conversation is in the listed certificates; on a stream as it may come,
what is loaded is what the stream says and the buffers are released as they should be exactly when
no capability is cut and none is announced to be missing. -/
theorem entities_load_when_regular (certs : Certificates) (h : FromReader conf) :
    (∀ control frags fails loaded left h', Conversation certs conf control frags →
      configReadPublicEntities fails conf frags Heap.empty = (.ok loaded, left, h') →
        Loads certs conf loaded) ∧
      ∀ frags, StreamSafe conf frags ↔ Regular conf frags := by
  constructor
  · intro control frags fails loaded left h' hconv hread
    exact loads h.namesFit hconv hread
  · exact streamSafe_iff conf

/-! ### An endorser and an entity -/

def endorserName : CString := ⟨[101], by decide⟩

def entityName : CString := ⟨[112], by decide⟩

def pairConf : AgentConfig :=
  { newConfig with
    endorserKey := some endorserName
    publicKeyHead := [entityName] }

def endorserId : Bytes := List.replicate 16 1

def entityId : Bytes := List.replicate 16 4

def endorsement : Bytes := List.replicate 48 7

/-- Each file holds its own name; the entity may have an endorsement. -/
def pairCerts (endorsed : Bool) : Certificates where
  file name := some name.bytes
  fields cert :=
    if cert = endorserName.bytes then
      some [(.artifactId, endorserId), (.publicEncryptionKey, [2]), (.publicSigningKey, [3])]
    else if cert = entityName.bytes then
      some ([(.artifactId, entityId), (.publicEncryptionKey, [5]), (.publicSigningKey, [6])] ++
        if endorsed then [(.veloEndorsement, endorsement)] else [])
    else none
  attest resolver _ := (resolver (bits 128 endorserId)).isSome
  encPublicKeySize := 1
  signPublicKeySize := 1
  fields_lt := by
    intro cert fs hfs
    split_ifs at hfs <;> cases hfs <;> decide
  encPublicKeySize_lt := by decide
  signPublicKeySize_lt := by decide

def pairLoaded (caps : List Capability) : Loaded :=
  ⟨some ⟨bits 128 endorserId, [], [2], [3]⟩, [⟨bits 128 entityId, caps, [5], [6]⟩]⟩

def pairControl : List Bytes := [onSocket (sentValues pairConf)]

def pairStream (endorsed : Bool) : List Bytes :=
  [onSocket (readPublicEntities (pairCerts endorsed) pairControl)]

theorem pairConversation (endorsed : Bool) :
    Conversation (pairCerts endorsed) pairConf pairControl (pairStream endorsed) where
  sent := by
    simp only [pairControl, List.flatten_singleton, List.prefix_refl]
  answered := by
    simp only [pairStream, List.flatten_singleton, List.prefix_refl]

theorem pairConf_fromReader : FromReader pairConf :=
  ⟨10, [ConfigRoundTrip.written pairConf], pairConf, [], by decide +kernel, rfl, rfl⟩

theorem pair_loads : Loads (pairCerts true) pairConf (pairLoaded [capabilityOf endorsement]) := by
  have hread : (configReadPublicEntities noFailure pairConf (pairStream true) Heap.empty).1 =
      .ok (pairLoaded [capabilityOf endorsement]) := by
    decide +kernel
  cases hrun : configReadPublicEntities noFailure pairConf (pairStream true) Heap.empty with
  | mk result u =>
    obtain ⟨left, h'⟩ := u
    rw [hrun] at hread
    obtain rfl : result = .ok (pairLoaded [capabilityOf endorsement]) := hread
    exact (entities_load_when_regular (pairCerts true) pairConf_fromReader).1 pairControl
      (pairStream true) noFailure _ left h' (pairConversation true) hrun

/-- Two capabilities are announced; the object of the second one has 15 bytes. -/
def cutStream : List Bytes :=
  [onSocket ([.uint8 streamTypeBom, dataValue endorserId, dataValue [2], dataValue [3],
      .uint8 streamTypeEom, .uint8 streamTypeBom, dataValue entityId, dataValue [5], dataValue [6],
      .uint64 2] ++ capabilityValues endorsement ++
    [.uint8 streamTypeBom, dataValue entityId, dataValue entityId, dataValue (entityId.take 15),
      .uint8 streamTypeEom])]

/-- For an entity without endorsements three pointers are released that were never set, and a
capability of a wrong size is left out without an error. -/
theorem pointers_and_capabilities_are_lost :
    (Conversation (pairCerts false) pairConf pairControl (pairStream false) ∧
      (configReadPublicEntities noFailure pairConf (pairStream false) Heap.empty).1 =
        .ok (pairLoaded []) ∧
      none ∈ (configReadPublicEntities noFailure pairConf (pairStream false)
        Heap.empty).2.2.released) ∧
    (configReadPublicEntities noFailure pairConf cutStream Heap.empty).1 =
        .ok (pairLoaded [capabilityOf endorsement]) ∧
      (loadedPieces (pairLoaded [capabilityOf endorsement])).flatten ≠ cutStream.flatten := by
  refine ⟨⟨pairConversation false, ?_, ?_⟩, ?_, ?_⟩
  · decide +kernel
  · decide +kernel
  · decide +kernel
  · decide +kernel

end EntityLoading
