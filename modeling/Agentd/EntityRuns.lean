import Mathlib.Data.List.Forall2
import Mathlib.Data.List.Nodup
import Agentd.EntityStreams

/-! # Runs of the entity reader

The supervisor reads one record after the other. This says exactly on which streams what it has
loaded is what the stream says, and nothing is released but buffers that were read. -/
namespace EntityRuns

open ByteString
open DataserviceRecords (Uuid)
open TypedIpc
open StreamFronts
open ConfigBlock
open EntityReader
open EntityStreams

variable {fails : ℕ → Bool} {frags left : List Bytes} {rest x y : Bytes} {h h' : Heap} {w : Bool}
  {ws : List Bool} {rs : List Record} {conf : AgentConfig}

/-! ### Records are determined -/

theorem mark_unique {a b : BitVec 8}
    (heq : (markPieces a).flatten ++ x = (markPieces b).flatten ++ y) : a = b ∧ x = y :=
  decodes_uint8.unique trivial trivial heq

theorem data_unique {a b : Bytes} (ha : a.length < 2 ^ 32) (hb : b.length < 2 ^ 32)
    (heq : (dataPieces a).flatten ++ x = (dataPieces b).flatten ++ y) : a = b ∧ x = y :=
  decodes_dataPacket.unique ha hb heq

theorem count_unique {a b : BitVec 64}
    (heq : (countPieces a).flatten ++ x = (countPieces b).flatten ++ y) : a = b ∧ x = y :=
  decodes_uint64.unique trivial trivial heq

theorem length_uuid_lt (id : Uuid) : (be 16 id).length < 2 ^ 32 := by simp

theorem be_16_injective {a b : Uuid} (heq : be 16 a = be 16 b) : a = b := by
  rw [← bits_be (n := 16) rfl a, heq, bits_be rfl]

theorem uuid_unique {a b : Uuid}
    (heq : (uuidPieces a).flatten ++ x = (uuidPieces b).flatten ++ y) : a = b ∧ x = y := by
  obtain ⟨hbytes, hrest⟩ := data_unique (length_uuid_lt a) (length_uuid_lt b) heq
  exact ⟨be_16_injective hbytes, hrest⟩

theorem wrongSize_ne_uuid {b : Bytes} {id : Uuid} (hb : b.length ≠ 16 ∧ b.length < 2 ^ 32) :
    (dataPieces b).flatten ++ x ≠ (uuidPieces id).flatten ++ y := by
  intro heq
  obtain ⟨rfl, -⟩ := data_unique hb.2 (length_uuid_lt id) heq
  exact hb.1 (length_uuid id)

theorem cap_unique {c d : Capability}
    (heq : (capPieces c).flatten ++ x = (capPieces d).flatten ++ y) : c = d ∧ x = y := by
  simp only [capPieces, List.flatten_append, List.append_assoc] at heq
  obtain ⟨-, hsubject⟩ := mark_unique heq
  obtain ⟨hs, hverb⟩ := uuid_unique hsubject
  obtain ⟨hv, hobject⟩ := uuid_unique hverb
  obtain ⟨ho, heom⟩ := uuid_unique hobject
  obtain ⟨-, hrest⟩ := mark_unique heom
  refine ⟨?_, hrest⟩
  cases c
  cases d
  simp only [Capability.mk.injEq]
  exact ⟨hs, hv, ho⟩

theorem cut_ne_cap {c : CutCapability} {d : Capability} (hc : c.WrongSize) :
    c.pieces.flatten ++ x ≠ (capPieces d).flatten ++ y := by
  intro heq
  cases c with
  | subject b =>
    simp only [CutCapability.pieces, capPieces, List.flatten_append, List.append_assoc] at heq
    exact wrongSize_ne_uuid hc (mark_unique heq).2
  | verb s b =>
    simp only [CutCapability.pieces, capPieces, List.flatten_append, List.append_assoc] at heq
    exact wrongSize_ne_uuid hc (uuid_unique (mark_unique heq).2).2
  | object s v b =>
    simp only [CutCapability.pieces, capPieces, List.flatten_append, List.append_assoc] at heq
    exact wrongSize_ne_uuid hc (uuid_unique (uuid_unique (mark_unique heq).2).2).2

/-- The shorter one of two rows of capabilities is the front of the other. -/
theorem caps_unique {cs ds : List Capability} (hlen : cs.length ≤ ds.length)
    (heq : (cs.flatMap capPieces).flatten ++ x = (ds.flatMap capPieces).flatten ++ y) :
    ∃ es, ds = cs ++ es ∧ x = (es.flatMap capPieces).flatten ++ y := by
  induction cs generalizing ds with
  | nil => exact ⟨ds, rfl, heq⟩
  | cons c cs ih =>
    cases ds with
    | nil => simp at hlen
    | cons d ds =>
      simp only [List.flatMap_cons, List.flatten_append, List.append_assoc] at heq
      obtain ⟨rfl, hrest⟩ := cap_unique heq
      obtain ⟨es, rfl, hx⟩ := ih (by simpa using hlen) hrest
      exact ⟨es, rfl, hx⟩

theorem capsPieces_unique {caps : List Capability} {cut : Option (BitVec 64 × CutCapability)}
    {caps' : List Capability} (hok : CapsOk caps cut) (hok' : CapsOk caps' none)
    (heq : (capsPieces caps cut).flatten ++ x = (capsPieces caps' none).flatten ++ y) :
    caps = caps' ∧ cut = none ∧ x = y := by
  have hlen' : (BitVec.ofNat 64 caps'.length).toNat = caps'.length := by
    rw [BitVec.toNat_ofNat, Nat.mod_eq_of_lt hok']
  cases cut with
  | none =>
    simp only [capsPieces, List.flatten_append, List.append_assoc] at heq
    obtain ⟨hcount, hcaps⟩ := count_unique heq
    have hlen : caps.length = caps'.length := by
      rw [← hlen', ← hcount, BitVec.toNat_ofNat, Nat.mod_eq_of_lt hok]
    obtain ⟨es, hes, hx⟩ := caps_unique
      (by rw [List.length_reverse, List.length_reverse]; omega) hcaps
    have hnil : es = [] := by
      have hsum := congrArg List.length hes
      rw [List.length_append, List.length_reverse, List.length_reverse] at hsum
      exact List.length_eq_zero_iff.mp (by omega)
    rw [hnil, List.append_nil, List.reverse_inj] at hes
    rw [hnil] at hx
    exact ⟨hes.symm, rfl, hx⟩
  | some cut =>
    obtain ⟨count, c⟩ := cut
    obtain ⟨hlen, hc⟩ := hok
    simp only [capsPieces, List.flatten_append, List.append_assoc] at heq
    obtain ⟨rfl, hcaps⟩ := count_unique heq
    rw [hlen'] at hlen
    obtain ⟨es, hes, hx⟩ := caps_unique
      (by rw [List.length_reverse, List.length_reverse]; omega) hcaps
    cases es with
    | nil =>
      have hsum := congrArg List.length hes
      rw [List.append_nil, List.length_reverse, List.length_reverse] at hsum
      omega
    | cons e es =>
      rw [List.flatMap_cons, List.flatten_append, List.append_assoc] at hx
      exact absurd hx (cut_ne_cap hc)

def whole (e : PublicEntity) : Record := ⟨e, none⟩

/-- A stream that begins with the record of an entity begins with no other record. -/
theorem record_unique {r : Record} {e : PublicEntity} (hr : r.Ok w) (he : (whole e).Ok w)
    (heq : (r.pieces w).flatten ++ x = ((whole e).pieces w).flatten ++ y) :
    r = whole e ∧ x = y := by
  obtain ⟨⟨id, caps, enc, sign⟩, cut⟩ := r
  obtain ⟨id', caps', enc', sign'⟩ := e
  simp only [Record.pieces, whole, headerPieces, List.flatten_append, List.append_assoc] at heq
  obtain ⟨-, hid⟩ := mark_unique heq
  obtain ⟨rfl, henc⟩ := uuid_unique hid
  obtain ⟨rfl, hsign⟩ := data_unique hr.enc he.enc henc
  obtain ⟨rfl, hcaps⟩ := data_unique hr.sign he.sign hsign
  cases w with
  | false =>
    obtain ⟨rfl, rfl⟩ := hr.noCaps rfl
    obtain ⟨rfl, -⟩ := he.noCaps rfl
    exact ⟨rfl, (mark_unique hcaps).2⟩
  | true =>
    obtain ⟨rfl, rfl, heom⟩ := capsPieces_unique hr.caps he.caps hcaps
    exact ⟨rfl, (mark_unique heom).2⟩

theorem whole_ok {r : Record} (hr : r.Ok w) : (whole r.entity).Ok w where
  enc := hr.enc
  sign := hr.sign
  noCaps hw := ⟨(hr.noCaps hw).1, rfl⟩
  caps := by
    have hcaps := hr.caps
    cases hcut : r.cut with
    | none =>
      rw [hcut] at hcaps
      exact hcaps
    | some cut =>
      rw [hcut] at hcaps
      exact hcaps.1.trans cut.1.isLt

/-! ### Rows of records -/

def RecordsOk (ws : List Bool) (rs : List Record) : Prop := List.Forall₂ (fun w r => r.Ok w) ws rs

def recordsPieces : List Bool → List Record → List Bytes
  | w :: ws, r :: rs => r.pieces w ++ recordsPieces ws rs
  | _, _ => []

theorem records_unique {es : List PublicEntity} (hrs : RecordsOk ws rs)
    (hes : RecordsOk ws (es.map whole))
    (heq : (recordsPieces ws rs).flatten ++ x = (recordsPieces ws (es.map whole)).flatten ++ y) :
    rs = es.map whole ∧ x = y := by
  induction hrs generalizing es with
  | nil =>
    cases es with
    | nil => exact ⟨rfl, heq⟩
    | cons e es => cases hes
  | cons hr hrs ih =>
    cases es with
    | nil => cases hes
    | cons e es =>
      cases hes with
      | cons he hes =>
        simp only [List.map_cons, recordsPieces, List.flatten_append, List.append_assoc] at heq
        obtain ⟨rfl, hrest⟩ := record_unique hr he heq
        obtain ⟨rfl, hxy⟩ := ih hes hrest
        exact ⟨rfl, hxy⟩

theorem RecordsOk.whole (hrs : RecordsOk ws rs) :
    RecordsOk ws ((rs.map Record.entity).map whole) := by
  induction hrs with
  | nil => exact List.Forall₂.nil
  | cons hr hrs ih => exact List.Forall₂.cons (whole_ok hr) ih

/-! ### Runs -/

def readInTurn (fails : ℕ → Bool) : List Bool → List Bytes → Heap →
    Except ReaderError (List PublicEntity) × List Bytes × Heap
  | [], frags, h => (.ok [], frags, h)
  | w :: ws, frags, h =>
    match configEntityRead fails w frags h with
    | (.error e, frags, h) => (.error e, frags, h)
    | (.ok entry, frags, h) => mapResult (entry :: ·) (readInTurn fails ws frags h)

def turns (conf : AgentConfig) : List Bool :=
  match conf.endorserKey with
  | none => conf.publicKeyHead.map fun _ => false
  | some _ => false :: conf.publicKeyHead.map fun _ => true

def assemble (conf : AgentConfig) (es : List PublicEntity) : Loaded :=
  if conf.endorserKey.isSome then ⟨es.head?, es.tail.reverse⟩ else ⟨none, es.reverse⟩

theorem readEntities_eq (fails : ℕ → Bool) (w : Bool) (files : List CString)
    (entities : List PublicEntity) (frags : List Bytes) (h : Heap) :
    readEntities fails w files entities frags h = mapResult (fun es => es.reverse ++ entities)
      (readInTurn fails (files.map fun _ => w) frags h) := by
  induction files generalizing entities frags h with
  | nil => rfl
  | cons file files ih =>
    rw [readEntities, List.map_cons, readInTurn]
    cases hread : configEntityRead fails w frags h with
    | mk x y =>
      obtain ⟨frags₁, h₁⟩ := y
      cases x with
      | error e => rfl
      | ok entry =>
        simp only [ih]
        generalize readInTurn fails (files.map fun _ => w) frags₁ h₁ = z
        obtain ⟨z, -⟩ := z
        cases z with
        | error e => rfl
        | ok es => simp [mapResult, Except.map]

theorem configReadPublicEntities_eq (fails : ℕ → Bool) (conf : AgentConfig) (frags : List Bytes)
    (h : Heap) : configReadPublicEntities fails conf frags h =
      mapResult (assemble conf) (readInTurn fails (turns conf) frags h) := by
  rw [configReadPublicEntities, turns]
  cases hkey : conf.endorserKey with
  | none =>
    simp only [readEntities_eq]
    generalize readInTurn fails (conf.publicKeyHead.map fun _ => false) frags h = z
    obtain ⟨z, -⟩ := z
    cases z with
    | error e => rfl
    | ok es => simp [mapResult, Except.map, assemble, hkey]
  | some file =>
    simp only [readInTurn]
    cases hread : configEntityRead fails false frags h with
    | mk x y =>
      obtain ⟨frags₁, h₁⟩ := y
      cases x with
      | error e => rfl
      | ok entry =>
        simp only [readEntities_eq]
        generalize readInTurn fails (conf.publicKeyHead.map fun _ => true) frags₁ h₁ = z
        obtain ⟨z, -⟩ := z
        cases z with
        | error e => rfl
        | ok es => simp [mapResult, Except.map, assemble, hkey]

theorem readInTurn_sound {es : List PublicEntity}
    (hread : readInTurn fails ws frags h = (.ok es, left, h')) :
    ∃ rs : List Record, rs.map Record.entity = es ∧ RecordsOk ws rs ∧
      Front (recordsPieces ws rs) frags left := by
  induction ws generalizing frags h es with
  | nil =>
    simp only [readInTurn, Prod.mk.injEq, Except.ok.injEq] at hread
    obtain ⟨rfl, rfl, -⟩ := hread
    exact ⟨[], rfl, List.Forall₂.nil, Front.nil _⟩
  | cons w ws ih =>
    have hdoes := configEntityRead_does fails w frags h
    rw [readInTurn] at hread
    split at hread
    · cases hread
    · rename_i entry frags₁ h₁ hentry
      obtain ⟨r, rfl, hr, hfront⟩ := hdoes.sound hentry
      cases hrest : readInTurn fails ws frags₁ h₁ with
      | mk z u =>
        rw [hrest] at hread
        cases z with
        | error e => cases hread
        | ok es' =>
          simp only [mapResult, Except.map, Prod.mk.injEq, Except.ok.injEq] at hread
          obtain ⟨rfl, rfl⟩ := hread
          obtain ⟨rs, rfl, hrs, hfronts⟩ := ih hrest
          exact ⟨r :: rs, rfl, List.Forall₂.cons hr hrs, hfront.append hfronts⟩

theorem readInTurn_complete (hrs : RecordsOk ws rs)
    (ha : Arrives (recordsPieces ws rs) frags rest) (h : Heap) :
    ∃ left h', readInTurn noFailure ws frags h = (.ok (rs.map Record.entity), left, h') ∧
      Front (recordsPieces ws rs) frags left := by
  induction hrs generalizing frags h with
  | nil => exact ⟨frags, h, rfl, Front.nil _⟩
  | cons hr hrs ih =>
    obtain ⟨mid, h₁, hread, hfront⟩ := configEntityRead_complete hr ha.front h
    obtain ⟨left, h', hreads, hfronts⟩ := ih (hfront.arrives_append ha) h₁
    refine ⟨left, h', ?_, hfront.append hfronts⟩
    rw [readInTurn, hread]
    simp only [hreads]
    rfl

/-- Somewhere on the stream, where capabilities are read, none is announced. -/
def SomewhereNone (ws : List Bool) (frags : List Bytes) : Prop :=
  ∃ ws₁ ws₂ rs id enc sign rest, ws = ws₁ ++ true :: ws₂ ∧ RecordsOk ws₁ rs ∧ id.length < 2 ^ 32 ∧
    enc.length < 2 ^ 32 ∧ sign.length < 2 ^ 32 ∧
    Arrives (recordsPieces ws₁ rs ++ (headerPieces id enc sign ++ countPieces 0)) frags rest

theorem readInTurn_clean (hnone : ¬ SomewhereNone ws frags) (h : Heap) :
    Clean h (readInTurn fails ws frags h).2.2 := by
  induction ws generalizing frags h with
  | nil => exact Clean.refl h
  | cons w ws ih =>
    have hdoes := configEntityRead_does fails w frags h
    have hfirst := hdoes.clean (by
      rintro ⟨rfl, id, enc, sign, rest, hid, henc, hsign, ha⟩
      exact hnone ⟨[], ws, [], id, enc, sign, rest, rfl, List.Forall₂.nil, hid, henc, hsign, ha⟩)
    rw [readInTurn]
    cases hread : configEntityRead fails w frags h with
    | mk z u =>
      obtain ⟨mid, h₁⟩ := u
      rw [hread] at hfirst
      cases z with
      | error e => exact hfirst
      | ok entry =>
        obtain ⟨r, -, hr, hfront⟩ := hdoes.sound hread
        refine hfirst.trans (ih ?_ h₁)
        rintro ⟨ws₁, ws₂, rs, id, enc, sign, rest, rfl, hrs, hid, henc, hsign, ha⟩
        refine hnone ⟨w :: ws₁, ws₂, r :: rs, id, enc, sign, rest, rfl,
          List.Forall₂.cons hr hrs, hid, henc, hsign, ?_⟩
        rw [recordsPieces, List.append_assoc]
        exact hfront.arrives_cons ha

theorem readInTurn_grows (ws : List Bool) (frags : List Bytes) (h : Heap) :
    h.released ⊆ (readInTurn fails ws frags h).2.2.released := by
  induction ws generalizing frags h with
  | nil => exact List.Subset.refl _
  | cons w ws ih =>
    have hfirst := (configEntityRead_does fails w frags h).grows
    rw [readInTurn]
    cases hread : configEntityRead fails w frags h with
    | mk z u =>
      obtain ⟨mid, h₁⟩ := u
      rw [hread] at hfirst
      cases z with
      | error e => exact hfirst
      | ok entry => exact List.Subset.trans hfirst (ih mid h₁)

theorem readInTurn_releases_none (hnone : SomewhereNone ws frags) (h : Heap) :
    none ∈ (readInTurn noFailure ws frags h).2.2.released := by
  obtain ⟨ws₁, ws₂, rs, id, enc, sign, rest, rfl, hrs, hid, henc, hsign, ha⟩ := hnone
  induction hrs generalizing frags h with
  | nil =>
    have hzero := configEntityRead_announcesNone ⟨id, enc, sign, rest, hid, henc, hsign, ha⟩ h
    rw [List.nil_append, readInTurn]
    cases hread : configEntityRead noFailure true frags h with
    | mk z u =>
      obtain ⟨mid, h₁⟩ := u
      rw [hread] at hzero
      cases z with
      | error e => exact hzero
      | ok entry => exact readInTurn_grows ws₂ mid h₁ hzero
  | cons hr hrs ih =>
    rw [recordsPieces, List.append_assoc] at ha
    obtain ⟨mid, h₁, hread, hfront⟩ := configEntityRead_complete hr ha.front h
    rw [List.cons_append, readInTurn, hread]
    exact ih h₁ (hfront.arrives_append ha)

/-! ### Safe streams -/

/-- Only buffers that were read have been released, each of them once. -/
def OnlyBuffersOnce (h : Heap) : Prop :=
  h.released.Nodup ∧ ∀ p ∈ h.released, ∃ k ∈ h.buffers, p = some k

theorem Clean.onlyBuffersOnce (hc : Clean Heap.empty h) : OnlyBuffersOnce h := by
  obtain ⟨-, -, ps, hps, hnodup, hin⟩ := hc
  have hreleased : h.released = ps.map some := by rw [hps]; rfl
  constructor
  · rw [hreleased]
    exact List.Nodup.map (Option.some_injective ℕ) hnodup
  · intro p hp
    rw [hreleased] at hp
    obtain ⟨k, hk, rfl⟩ := List.mem_map.mp hp
    exact ⟨k, (hin k hk).2.2, rfl⟩

def loadedPieces (loaded : Loaded) : List Bytes :=
  loaded.endorser.toList.flatMap (fun e => (whole e).pieces false) ++
    loaded.entities.reverse.flatMap fun e => (whole e).pieces loaded.endorser.isSome

/-- The stream says what was loaded, with nothing missing and nothing else before the rest. -/
def Says (conf : AgentConfig) (frags left : List Bytes) (loaded : Loaded) : Prop :=
  loaded.endorser.isSome = conf.endorserKey.isSome ∧
    loaded.entities.length = conf.publicKeyHead.length ∧
    frags.flatten = (loadedPieces loaded).flatten ++ left.flatten

/-- What is loaded is what the stream says, and the buffers are released as they should be, whatever
allocations fail. -/
def StreamSafe (conf : AgentConfig) (frags : List Bytes) : Prop :=
  ∀ fails, (∀ loaded left h, configReadPublicEntities fails conf frags Heap.empty =
      (.ok loaded, left, h) → Says conf frags left loaded) ∧
    OnlyBuffersOnce (configReadPublicEntities fails conf frags Heap.empty).2.2

/-- No record of the stream has a field of a wrong size in a capability, and none announces that
there is no capability. -/
structure Regular (conf : AgentConfig) (frags : List Bytes) : Prop where
  notCut : ∀ rs rest, RecordsOk (turns conf) rs →
    Arrives (recordsPieces (turns conf) rs) frags rest → ∀ r ∈ rs, r.cut = none
  someCaps : ¬ SomewhereNone (turns conf) frags

theorem recordsPieces_map (w : Bool) (files : List CString) (es : List PublicEntity)
    (hlen : es.length = files.length) :
    recordsPieces (files.map fun _ => w) (es.map whole) = es.flatMap fun e =>
      (whole e).pieces w := by
  induction es generalizing files with
  | nil =>
    cases files with
    | nil => rfl
    | cons file files => cases hlen
  | cons e es ih =>
    cases files with
    | nil => cases hlen
    | cons file files =>
      rw [List.map_cons, List.map_cons, recordsPieces, List.flatMap_cons,
        ih files (by simpa using hlen)]

theorem assemble_stated {es : List PublicEntity} (hlen : es.length = (turns conf).length) :
    (assemble conf es).endorser.isSome = conf.endorserKey.isSome ∧
      (assemble conf es).entities.length = conf.publicKeyHead.length ∧
      loadedPieces (assemble conf es) = recordsPieces (turns conf) (es.map whole) := by
  rw [turns, assemble] at *
  cases hkey : conf.endorserKey with
  | none =>
    rw [hkey] at hlen
    simp only [List.length_map] at hlen
    refine ⟨rfl, by simpa using hlen, ?_⟩
    simp only [Option.isSome_none, Bool.false_eq_true, if_false, loadedPieces, Option.toList_none,
      List.flatMap_nil, List.nil_append, List.reverse_reverse]
    exact (recordsPieces_map false _ es hlen).symm
  | some file =>
    rw [hkey] at hlen
    cases es with
    | nil => cases hlen
    | cons e es =>
      have hrest : es.length = conf.publicKeyHead.length := by simpa using hlen
      refine ⟨rfl, by simpa using hrest, ?_⟩
      simp only [Option.isSome_some, if_true, loadedPieces, List.head?_cons, Option.toList_some,
        List.tail_cons, List.reverse_reverse, List.flatMap_cons, List.flatMap_nil, List.append_nil,
        List.map_cons, recordsPieces]
      rw [recordsPieces_map true _ es hrest]

theorem map_whole_of_notCut (h : ∀ r ∈ rs, r.cut = none) :
    (rs.map Record.entity).map whole = rs := by
  induction rs with
  | nil => rfl
  | cons r rs ih =>
    obtain ⟨hr, hrs⟩ := List.forall_mem_cons.mp h
    obtain ⟨e, cut⟩ := r
    obtain rfl : cut = none := hr
    rw [List.map_cons, List.map_cons, ih hrs, whole]

theorem streamSafe_iff (conf : AgentConfig) (frags : List Bytes) :
    StreamSafe conf frags ↔ Regular conf frags := by
  constructor
  · intro hsafe
    obtain ⟨hstated, honce⟩ := hsafe noFailure
    rw [configReadPublicEntities_eq] at hstated honce
    refine ⟨fun rs rest hrs ha => ?_, fun hnone => ?_⟩
    · obtain ⟨left, h', hread, hfront⟩ := readInTurn_complete hrs ha Heap.empty
      rw [hread] at hstated
      obtain ⟨-, -, hflatten⟩ := hstated _ left h' rfl
      have hlen : (rs.map Record.entity).length = (turns conf).length := by
        rw [List.length_map, hrs.length_eq]
      rw [(assemble_stated hlen).2.2] at hflatten
      obtain ⟨heq, -⟩ := records_unique hrs hrs.whole (hfront.flatten.symm.trans hflatten)
      intro r hr
      rw [heq] at hr
      obtain ⟨e, -, rfl⟩ := List.mem_map.mp hr
      rfl
    · obtain ⟨k, -, hk⟩ := honce.2 none (readInTurn_releases_none hnone Heap.empty)
      cases hk
  · intro hregular fails
    rw [configReadPublicEntities_eq]
    refine ⟨fun loaded left h' hread => ?_,
      Clean.onlyBuffersOnce (readInTurn_clean hregular.someCaps Heap.empty)⟩
    cases hrun : readInTurn fails (turns conf) frags Heap.empty with
    | mk z u =>
      rw [hrun] at hread
      cases z with
      | error e => cases hread
      | ok es =>
        simp only [mapResult, Except.map, Prod.mk.injEq, Except.ok.injEq] at hread
        obtain ⟨rfl, rfl⟩ := hread
        obtain ⟨rs, rfl, hrs, hfront⟩ := readInTurn_sound hrun
        have hlen : (rs.map Record.entity).length = (turns conf).length := by
          rw [List.length_map, hrs.length_eq]
        obtain ⟨hendorser, hentities, hpieces⟩ := assemble_stated hlen
        refine ⟨hendorser, hentities, ?_⟩
        rw [hpieces, map_whole_of_notCut (hregular.notCut rs _ hrs hfront.arrives)]
        exact hfront.flatten

end EntityRuns
