import Agentd.ConfigBlock
import Agentd.StreamFronts

/-! # The fields of a configuration stream

What a reader accepts is a begin mark, fields and an end mark. The reader of a field is a decoder of
fields and what a field does to the configuration. -/
namespace ConfigFields

open ByteString
open FragmentedStreams
open TypedIpc
open StreamFronts
open ConfigBlock

variable {frags left : List Bytes} {rest : Bytes} {conf conf' : AgentConfig} {n : ℕ}

/-! ### Fields -/

inductive FieldKind where
  | string (f : StringField)
  | number (f : NumberField)
  | listenAddr
  | usergroup
  | publicKey
  deriving DecidableEq, Repr

namespace FieldKind

def tag : FieldKind → BitVec 8
  | string f => f.tag
  | number f => f.tag
  | listenAddr => streamTypeListenAddr
  | usergroup => streamTypeUsergroup
  | publicKey => streamTypePublicKey

def scalar : FieldKind → Bool
  | listenAddr => false
  | publicKey => false
  | _ => true

def isSet (conf : AgentConfig) : FieldKind → Bool
  | string f => (f.get conf).isSome
  | number f => (f.get conf).isSet
  | usergroup => conf.usergroup.isSome
  | listenAddr => false
  | publicKey => false

def all : List FieldKind :=
  [string .logdir, number .loglevel, number .blockMaxMilliseconds, number .blockMaxTransactions,
    string .secret, string .rootblock, string .datastore, listenAddr, string .chroot, usergroup,
    string .privateKey, string .endorserKey, publicKey]

theorem mem_all (k : FieldKind) : k ∈ all := by
  cases k with
  | string f => cases f <;> decide
  | number f => cases f <;> decide
  | _ => decide

theorem tag_injective {k k' : FieldKind} (h : k.tag = k'.tag) : k = k' := by
  have hall : ∀ k ∈ all, ∀ k' ∈ all, k.tag = k'.tag → k = k' := by decide
  exact hall k (mem_all k) k' (mem_all k') h

theorem tag_ne_eom (k : FieldKind) : k.tag ≠ streamTypeEom := by
  have hall : ∀ k ∈ all, k.tag ≠ streamTypeEom := by decide
  exact hall k (mem_all k)

end FieldKind

inductive Field where
  | string (f : StringField) (b : Bytes)
  | number (f : NumberField) (n : BitVec 64)
  | listenAddr (b : Bytes) (port : BitVec 64)
  | usergroup (user group : Bytes)
  | publicKey (b : Bytes)
  deriving DecidableEq

namespace Field

def kind : Field → FieldKind
  | string f _ => .string f
  | number f _ => .number f
  | listenAddr _ _ => .listenAddr
  | usergroup _ _ => .usergroup
  | publicKey _ => .publicKey

def body : Field → List Bytes
  | string _ b => sizedPieces .string b
  | number _ n => integerPieces .int64 8 n
  | listenAddr b port => sizedPieces .string b ++ integerPieces .uint64 8 port
  | usergroup user group => sizedPieces .string user ++ sizedPieces .string group
  | publicKey b => sizedPieces .string b

def pieces (f : Field) : List Bytes := integerPieces .uint8 1 f.kind.tag ++ f.body

def InRange : Field → Prop
  | string _ b => b.length ≤ maxStringSize
  | number f n => 0 ≤ n.toInt ∧ n.toInt ≤ f.maximum
  | listenAddr b _ => b.length ≤ maxStringSize ∧ (inetPton (CString.ofBuffer b).bytes).isSome
  | usergroup user group => user.length ≤ maxStringSize ∧ group.length ≤ maxStringSize
  | publicKey b => b.length ≤ maxStringSize

def apply (conf : AgentConfig) : Field → AgentConfig
  | string f b => f.set conf (CString.ofBuffer b)
  | number f n => f.set conf n
  | listenAddr b port =>
    let addr := (inetPton (CString.ofBuffer b).bytes).getD 0
    { conf with listenHead := ⟨addr, port.setWidth 16⟩ :: conf.listenHead }
  | usergroup user group =>
    { conf with usergroup := some ⟨CString.ofBuffer user, CString.ofBuffer group⟩ }
  | publicKey b => { conf with publicKeyHead := CString.ofBuffer b :: conf.publicKeyHead }

end Field

/-! ### Reading one field -/

def readFailure {ε : Type} : ε → ConfigError := fun _ => .ipcReadDataFailure

def readBuffer : List Bytes → Except ConfigError Bytes × List Bytes :=
  thenRead readFailure (ipcReadStringBlock false) fun b frags => (.ok b, frags)

/-- A field without its tag, in whatever configuration. -/
def readBody : FieldKind → List Bytes → Except ConfigError Field × List Bytes
  | .string f => fun frags => mapResult (Field.string f) (readBuffer frags)
  | .number f => thenRead readFailure ipcReadInt64Block fun n frags =>
      if n.toInt < 0 ∨ f.maximum < n.toInt then (.error .invalidStream, frags)
      else (.ok (.number f n), frags)
  | .listenAddr => thenRead id readBuffer fun b frags =>
      if inetPton (CString.ofBuffer b).bytes = none then (.error .inetPtonFailure, frags)
      else thenRead readFailure ipcReadUint64Block
        (fun port frags => (.ok (.listenAddr b port), frags)) frags
  | .usergroup => thenRead id readBuffer fun user frags =>
      mapResult (Field.usergroup user) (readBuffer frags)
  | .publicKey => fun frags => mapResult Field.publicKey (readBuffer frags)

theorem readString_eq (frags : List Bytes) :
    readString frags = mapResult CString.ofBuffer (readBuffer frags) := by
  rw [readString, readBuffer, thenRead]
  generalize ipcReadStringBlock false frags = x
  obtain ⟨x, mid⟩ := x
  cases x with
  | error e => rfl
  | ok b => rfl

theorem configReadString_eq (conf : AgentConfig) (frags : List Bytes) (f : StringField) :
    configReadString conf frags f = if FieldKind.isSet conf (.string f) = true then
        (.error .invalidStream, frags)
      else mapResult (Field.apply conf) (readBody (.string f) frags) := by
  rw [configReadString, readString_eq, readBody]
  beta_reduce
  generalize readBuffer frags = x
  obtain ⟨x, mid⟩ := x
  cases x with
  | error e => rfl
  | ok b => rfl

theorem configReadNumber_eq (conf : AgentConfig) (frags : List Bytes) (f : NumberField) :
    configReadNumber conf frags f = if FieldKind.isSet conf (.number f) = true then
        (.error .invalidStream, frags)
      else mapResult (Field.apply conf) (readBody (.number f) frags) := by
  rw [configReadNumber, readBody, thenRead]
  generalize ipcReadInt64Block frags = x
  obtain ⟨x, mid⟩ := x
  cases x with
  | error e => rfl
  | ok n =>
    by_cases hrange : n.toInt < 0 ∨ f.maximum < n.toInt
    · simp only [if_pos hrange]
      rfl
    · simp only [if_neg hrange]
      rfl

theorem configReadUsergroup_eq (conf : AgentConfig) (frags : List Bytes) :
    configReadUsergroup conf frags = if FieldKind.isSet conf .usergroup = true then
        (.error .invalidStream, frags)
      else mapResult (Field.apply conf) (readBody .usergroup frags) := by
  rw [configReadUsergroup, readString_eq, readBody, thenRead]
  generalize readBuffer frags = x
  obtain ⟨x, mid⟩ := x
  cases x with
  | error e => rfl
  | ok user =>
    simp only [mapResult, Except.map, readString_eq]
    generalize readBuffer mid = y
    obtain ⟨y, mid'⟩ := y
    cases y with
    | error e => rfl
    | ok group => rfl

theorem configReadListenAddr_eq (conf : AgentConfig) (frags : List Bytes) :
    configReadListenAddr conf frags =
      mapResult (Field.apply conf) (readBody .listenAddr frags) := by
  rw [configReadListenAddr, readString_eq, readBody, thenRead]
  generalize readBuffer frags = x
  obtain ⟨x, mid⟩ := x
  cases x with
  | error e => rfl
  | ok b =>
    simp only [mapResult, Except.map]
    cases haddr : inetPton (CString.ofBuffer b).bytes with
    | none => rfl
    | some addr =>
      simp only [reduceCtorEq, if_false, thenRead]
      generalize ipcReadUint64Block mid = y
      obtain ⟨y, mid'⟩ := y
      cases y with
      | error e => rfl
      | ok port =>
        simp only [Field.apply, haddr, Option.getD_some]

theorem configReadPublicKey_eq (conf : AgentConfig) (frags : List Bytes) :
    configReadPublicKey conf frags = mapResult (Field.apply conf) (readBody .publicKey frags) := by
  rw [configReadPublicKey, readString_eq, readBody]
  beta_reduce
  generalize readBuffer frags = x
  obtain ⟨x, mid⟩ := x
  cases x with
  | error e => rfl
  | ok b => rfl

/-- A field is read unless it is a scalar that is set. -/
theorem configReadField_eq (conf : AgentConfig) (frags : List Bytes) (k : FieldKind) :
    configReadField conf frags k.tag = if k.isSet conf = true then (.error .invalidStream, frags)
      else mapResult (Field.apply conf) (readBody k frags) := by
  cases k with
  | string f =>
    rw [← configReadString_eq]
    cases f <;> rfl
  | number f =>
    rw [← configReadNumber_eq]
    cases f <;> rfl
  | listenAddr => exact configReadListenAddr_eq conf frags
  | usergroup => exact configReadUsergroup_eq conf frags
  | publicKey => exact configReadPublicKey_eq conf frags

theorem configReadField_unknown {tag : BitVec 8} (h : ∀ k : FieldKind, k.tag ≠ tag) :
    configReadField conf frags tag = (.error .invalidStream, frags) := by
  have hstring : ∀ f : StringField, tag ≠ f.tag := fun f => (h (.string f)).symm
  have hnumber : ∀ f : NumberField, tag ≠ f.tag := fun f => (h (.number f)).symm
  have hlisten : tag ≠ streamTypeListenAddr := (h .listenAddr).symm
  have husergroup : tag ≠ streamTypeUsergroup := (h .usergroup).symm
  have hkey : tag ≠ streamTypePublicKey := (h .publicKey).symm
  simp only [configReadField, hstring, hnumber, hlisten, husergroup, hkey, if_false]

theorem decodes_buffer :
    Decodes readBuffer (sizedPieces .string) (fun b => b.length ≤ maxStringSize) := by
  have hread : Decodes readBuffer (fun b => sizedPieces .string (id b) ++ [])
      (fun b => (id b).length ≤ maxStringSize ∧ True) :=
    decodes_string.bind id fun b _ => (decodes_pure b).of_iff fun a => (and_iff_left trivial).symm
  exact hread.congr (fun b => and_iff_left trivial) fun b _ => List.append_nil _

def Field.text : Field → Bytes
  | .string _ b => b
  | .number _ _ => []
  | .listenAddr b _ => b
  | .usergroup user _ => user
  | .publicKey b => b

def Field.value : Field → BitVec 64
  | .number _ n => n
  | .listenAddr _ port => port
  | _ => 0

theorem decodes_number (f : NumberField) :
    Decodes (readBody (.number f)) Field.body (fun x => x.kind = .number f ∧ x.InRange) := by
  have hrange : ∀ n : BitVec 64, Decodes
      (fun frags => if n.toInt < 0 ∨
        f.maximum < n.toInt then (.error ConfigError.invalidStream, frags)
        else (.ok (Field.number f n), frags)) (fun _ => [])
      (fun x => x.value = n ∧ (x.kind = .number f ∧ x.InRange)) := by
    intro n
    refine (Decodes.refuse fun _ => decodes_pure (Field.number f n)).of_iff fun x => ?_
    constructor
    · rintro ⟨hin, rfl⟩
      rw [not_or, Int.not_lt, Int.not_lt] at hin
      exact ⟨rfl, rfl, hin⟩
    · rintro ⟨rfl, hkind, hin⟩
      cases x with
      | number g m =>
        obtain rfl : g = f := FieldKind.number.inj hkind
        refine ⟨?_, rfl⟩
        rw [not_or, Int.not_lt, Int.not_lt]
        exact hin
      | _ => cases hkind
  have hread := decodes_int64.bind (g := readFailure) Field.value
    fun n _ => hrange n
  refine hread.congr (fun x => and_iff_right trivial) ?_
  rintro x ⟨-, hkind, -⟩
  cases x with
  | number g m => exact List.append_nil _
  | _ => cases hkind

theorem decodes_listenAddr :
    Decodes (readBody .listenAddr) Field.body (fun x => x.kind = .listenAddr ∧ x.InRange) := by
  have hport : ∀ b : Bytes, ∀ port : BitVec 64, Decodes
      (fun frags => ((.ok (Field.listenAddr b port) : Except ConfigError Field), frags))
        (fun _ => [])
      (fun x => x.value = port ∧ (x.kind = .listenAddr ∧ x.text = b)) := by
    intro b port
    refine (decodes_pure _).of_iff fun x => ?_
    constructor
    · rintro rfl
      exact ⟨rfl, rfl, rfl⟩
    · rintro ⟨rfl, hkind, rfl⟩
      cases x with
      | listenAddr b port => rfl
      | _ => cases hkind
  have haddr : ∀ b : Bytes, b.length ≤ maxStringSize → Decodes
      (fun frags => if inetPton (CString.ofBuffer b).bytes = none then
          (.error ConfigError.inetPtonFailure, frags)
        else thenRead readFailure ipcReadUint64Block
          (fun port frags => (.ok (Field.listenAddr b port), frags)) frags)
      (fun x => integerPieces .uint64 8 x.value ++ [])
      (fun x => x.text = b ∧ (x.kind = .listenAddr ∧ x.InRange)) := by
    intro b hb
    have hread := decodes_uint64.bind (g := readFailure) Field.value
      fun port _ => hport b port
    refine (Decodes.refuse fun _ => hread).of_iff fun x => ?_
    constructor
    · rintro ⟨hok, -, hkind, rfl⟩
      cases x with
      | listenAddr b port => exact ⟨rfl, rfl, hb, Option.isSome_iff_ne_none.mpr hok⟩
      | _ => cases hkind
    · rintro ⟨rfl, hkind, hin⟩
      cases x with
      | listenAddr b port => exact ⟨Option.isSome_iff_ne_none.mp hin.2, trivial, rfl, rfl⟩
      | _ => cases hkind
  have hread := decodes_buffer.bind (g := id) Field.text haddr
  refine hread.congr (fun x => ?_) ?_
  · constructor
    · exact And.right
    · rintro ⟨hkind, hin⟩
      cases x with
      | listenAddr b port => exact ⟨hin.1, rfl, hin⟩
      | _ => cases hkind
  · rintro x ⟨-, hkind, -⟩
    cases x with
    | listenAddr b port => simp only [Field.text, Field.value, Field.body, List.append_nil]
    | _ => cases hkind

theorem decodes_usergroup :
    Decodes (readBody .usergroup) Field.body (fun x => x.kind = .usergroup ∧ x.InRange) := by
  have hgroup : ∀ user : Bytes, user.length ≤ maxStringSize → Decodes
      (fun frags => mapResult (Field.usergroup user) (readBuffer frags))
      (fun x => x.body.drop 3)
      (fun x => x.text = user ∧ (x.kind = .usergroup ∧ x.InRange)) := by
    intro user huser
    refine decodes_buffer.map (Field.usergroup user) (fun _ => rfl) fun x => ?_
    constructor
    · rintro ⟨rfl, hkind, hin⟩
      cases x with
      | usergroup user group => exact ⟨group, hin.2, rfl⟩
      | _ => cases hkind
    · rintro ⟨group, hgroup, rfl⟩
      exact ⟨rfl, rfl, huser, hgroup⟩
  have hread := decodes_buffer.bind (g := id) Field.text hgroup
  refine hread.congr (fun x => ?_) ?_
  · constructor
    · exact And.right
    · rintro ⟨hkind, hin⟩
      cases x with
      | usergroup user group => exact ⟨hin.1, hkind, hin⟩
      | _ => cases hkind
  · rintro x ⟨-, hkind, -⟩
    cases x with
    | usergroup user group => rfl
    | _ => cases hkind

/-- The reader of a body reads the fields of its kind that are in range. -/
theorem decodes_body (k : FieldKind) :
    Decodes (readBody k) Field.body (fun x => x.kind = k ∧ x.InRange) := by
  cases k with
  | string f =>
    refine decodes_buffer.map (Field.string f) (fun _ => rfl) fun x => ?_
    constructor
    · rintro ⟨hkind, hin⟩
      cases x with
      | string g b =>
        obtain rfl : g = f := FieldKind.string.inj hkind
        exact ⟨b, hin, rfl⟩
      | _ => cases hkind
    · rintro ⟨b, hb, rfl⟩
      exact ⟨rfl, hb⟩
  | number f => exact decodes_number f
  | listenAddr => exact decodes_listenAddr
  | usergroup => exact decodes_usergroup
  | publicKey =>
    refine decodes_buffer.map Field.publicKey (fun _ => rfl) fun x => ?_
    constructor
    · rintro ⟨hkind, hin⟩
      cases x with
      | publicKey b => exact ⟨b, hin, rfl⟩
      | _ => cases hkind
    · rintro ⟨b, hb, rfl⟩
      exact ⟨rfl, hb⟩

theorem configReadField_sound {tag : BitVec 8}
    (h : configReadField conf frags tag = (.ok conf', left)) :
    ∃ f : Field, f.kind.tag = tag ∧ f.InRange ∧ f.kind.isSet conf = false ∧ conf' = f.apply conf ∧
      Front f.body frags left := by
  by_cases hk : ∃ k : FieldKind, k.tag = tag
  · obtain ⟨k, rfl⟩ := hk
    rw [configReadField_eq] at h
    cases hset : k.isSet conf with
    | true =>
      rw [hset, if_pos rfl] at h
      cases h
    | false =>
      rw [hset, if_neg (by decide)] at h
      cases hbody : readBody k frags with
      | mk x mid =>
        rw [hbody] at h
        cases x with
        | error e => cases h
        | ok f =>
          obtain ⟨hconf, rfl⟩ := Prod.mk.inj h
          obtain ⟨⟨rfl, hin⟩, hfront⟩ := (decodes_body k).sound hbody
          exact ⟨f, rfl, hin, hset, (Except.ok.inj hconf).symm, hfront⟩
  · rw [configReadField_unknown fun k heq => hk ⟨k, heq⟩] at h
    cases h

theorem configReadField_complete {f : Field} (hin : f.InRange) (hfree : f.kind.isSet conf = false)
    (h : Arrives f.body frags rest) :
    ∃ left, configReadField conf frags f.kind.tag = (.ok (f.apply conf), left) ∧
      Front f.body frags left := by
  obtain ⟨left, hbody, hfront⟩ := (decodes_body f.kind).complete ⟨rfl, hin⟩ h
  rw [configReadField_eq, if_neg (by rw [hfree]; decide), hbody]
  exact ⟨left, rfl, hfront⟩

/-! ### Streams -/

def fieldsPieces (fs : List Field) : List Bytes :=
  fs.flatMap Field.pieces ++ integerPieces .uint8 1 streamTypeEom

def streamPieces (fs : List Field) : List Bytes :=
  integerPieces .uint8 1 streamTypeBom ++ fieldsPieces fs

def scalars (fs : List Field) : List FieldKind := (fs.map Field.kind).filter FieldKind.scalar

structure WellFormed (fs : List Field) : Prop where
  inRange : ∀ f ∈ fs, f.InRange
  once : (scalars fs).Nodup

theorem fieldsPieces_cons (f : Field) (fs : List Field) : fieldsPieces (f :: fs) =
    integerPieces .uint8 1 f.kind.tag ++ (f.body ++ fieldsPieces fs) := by
  simp only [fieldsPieces, List.flatMap_cons, Field.pieces, List.append_assoc]

theorem flatten_cons (f : Field) (fs : List Field) (x : Bytes) :
    (fieldsPieces (f :: fs)).flatten ++ x = (integerPieces .uint8 1 f.kind.tag).flatten ++
      (f.body.flatten ++ ((fieldsPieces fs).flatten ++ x)) := by
  simp only [fieldsPieces_cons, List.flatten_append, List.append_assoc]

/-- After a field its scalar is set, and no other one. -/
theorem isSet_apply (conf : AgentConfig) (f : Field) (k : FieldKind) :
    k.isSet (f.apply conf) = (k.isSet conf || (k.scalar && decide (f.kind = k))) := by
  cases f with
  | string g b =>
    cases k with
    | string f => cases f <;> cases g <;> simp [FieldKind.isSet, Field.apply, StringField.get,
        StringField.set, FieldKind.scalar, Field.kind]
    | number f => cases f <;> cases g <;> simp [FieldKind.isSet, Field.apply, NumberField.get,
        StringField.set, Field.kind]
    | _ => cases g <;> simp [FieldKind.isSet, Field.apply, StringField.set, Field.kind]
  | number g n =>
    cases k with
    | string f => cases f <;> cases g <;> simp [FieldKind.isSet, Field.apply, StringField.get,
        NumberField.set, Field.kind]
    | number f => cases f <;> cases g <;> simp [FieldKind.isSet, Field.apply, NumberField.get,
        NumberField.set, FieldKind.scalar, Field.kind]
    | _ => cases g <;> simp [FieldKind.isSet, Field.apply, NumberField.set, Field.kind]
  | listenAddr b port =>
    cases k with
    | string f => cases f <;> simp [FieldKind.isSet, Field.apply, StringField.get, Field.kind]
    | number f => cases f <;> simp [FieldKind.isSet, Field.apply, NumberField.get, Field.kind]
    | _ => simp [FieldKind.isSet, Field.apply, Field.kind, FieldKind.scalar]
  | usergroup user group =>
    cases k with
    | string f => cases f <;> simp [FieldKind.isSet, Field.apply, StringField.get, Field.kind]
    | number f => cases f <;> simp [FieldKind.isSet, Field.apply, NumberField.get, Field.kind]
    | _ => simp [FieldKind.isSet, Field.apply, Field.kind, FieldKind.scalar]
  | publicKey b =>
    cases k with
    | string f => cases f <;> simp [FieldKind.isSet, Field.apply, StringField.get, Field.kind]
    | number f => cases f <;> simp [FieldKind.isSet, Field.apply, NumberField.get, Field.kind]
    | _ => simp [FieldKind.isSet, Field.apply, Field.kind, FieldKind.scalar]

theorem isSet_of_not_scalar {k : FieldKind} (h : k.scalar = false) : k.isSet conf = false := by
  cases k with
  | listenAddr => rfl
  | publicKey => rfl
  | _ => cases h

theorem mem_scalars {fs : List Field} {k : FieldKind} :
    k ∈ scalars fs ↔ (∃ f ∈ fs, f.kind = k) ∧ k.scalar = true := by
  rw [scalars, List.mem_filter, List.mem_map]

theorem scalars_cons (f : Field) (fs : List Field) :
    scalars (f :: fs) = if f.kind.scalar = true then f.kind :: scalars fs else scalars fs := by
  rw [scalars, List.map_cons, List.filter_cons]
  rfl

def Free (conf : AgentConfig) (fs : List Field) : Prop := ∀ k ∈ scalars fs, k.isSet conf = false

/-- Fields that may come after each other, from the first one on. -/
theorem once_cons (conf : AgentConfig) (f : Field) (fs : List Field) :
    ((scalars (f :: fs)).Nodup ∧ Free conf (f :: fs)) ↔
      f.kind.isSet conf = false ∧ (scalars fs).Nodup ∧ Free (f.apply conf) fs := by
  have hstep : ∀ k ∈ scalars fs, (k.isSet (f.apply conf) = false ↔
      k.isSet conf = false ∧ f.kind ≠ k) := by
    intro k hk
    rw [isSet_apply, (mem_scalars.mp hk).2, Bool.true_and, Bool.or_eq_false_iff,
      decide_eq_false_iff_not]
  rw [scalars_cons]
  cases hscalar : f.kind.scalar with
  | true =>
    simp only [Free, scalars_cons, hscalar, if_true, List.nodup_cons, List.forall_mem_cons]
    constructor
    · rintro ⟨⟨hnot, honce⟩, hfirst, hrest⟩
      refine ⟨hfirst, honce, fun k hk => (hstep k hk).mpr ⟨hrest k hk, ?_⟩⟩
      rintro rfl
      exact hnot hk
    · rintro ⟨hfirst, honce, hrest⟩
      refine ⟨⟨fun hmem => ((hstep _ hmem).mp (hrest _ hmem)).2 rfl, honce⟩, hfirst, ?_⟩
      exact fun k hk => ((hstep k hk).mp (hrest k hk)).1
  | false =>
    simp only [Free, scalars_cons, hscalar, Bool.false_eq_true, if_false]
    constructor
    · rintro ⟨honce, hrest⟩
      refine ⟨isSet_of_not_scalar hscalar, honce, fun k hk => (hstep k hk).mpr ⟨hrest k hk, ?_⟩⟩
      rintro rfl
      rw [(mem_scalars.mp hk).2] at hscalar
      cases hscalar
    · rintro ⟨-, honce, hrest⟩
      exact ⟨honce, fun k hk => ((hstep k hk).mp (hrest k hk)).1⟩

/-- What is accepted are fields and an end mark. -/
theorem configReadFields_sound (h : configReadFields n conf frags = some (.ok conf', left)) :
    ∃ fs, WellFormed fs ∧ Free conf fs ∧ conf' = fs.foldl Field.apply conf ∧
      Front (fieldsPieces fs) frags left := by
  induction n generalizing conf frags with
  | zero => cases h
  | succ n ih =>
    rw [configReadFields] at h
    split at h
    · cases h
    · rename_i tag mid htag
      obtain ⟨-, hfront⟩ := decodes_uint8.sound htag
      split_ifs at h with heom
      · obtain ⟨hconf, rfl⟩ := Prod.mk.inj (Option.some.inj h)
        rw [heom] at hfront
        refine ⟨[], ⟨by simp, List.nodup_nil⟩, fun k hk => ?_, (Except.ok.inj hconf).symm, hfront⟩
        cases hk
      · split at h
        · cases h
        · rename_i conf₁ mid' hfield
          obtain ⟨f, rfl, hin, hset, rfl, hbody⟩ := configReadField_sound hfield
          obtain ⟨fs, hwell, hfree, rfl, hrest⟩ := ih h
          obtain ⟨honce, hfree'⟩ := (once_cons conf f fs).mpr ⟨hset, hwell.once, hfree⟩
          refine ⟨f :: fs, ⟨?_, honce⟩, hfree', rfl, ?_⟩
          · exact List.forall_mem_cons.mpr ⟨hin, hwell.inRange⟩
          · rw [fieldsPieces_cons]
            exact hfront.append (hbody.append hrest)

/-- Fields that arrive whole are accepted. -/
theorem configReadFields_complete {fs : List Field} (hwell : WellFormed fs) (hfree : Free conf fs)
    (h : Arrives (fieldsPieces fs) frags rest) (hn : fs.length < n) :
    ∃ left, configReadFields n conf frags = some (.ok (fs.foldl Field.apply conf), left) ∧
      Front (fieldsPieces fs) frags left := by
  induction fs generalizing n conf frags with
  | nil =>
    obtain ⟨n, rfl⟩ := Nat.exists_eq_add_of_lt hn
    obtain ⟨left, htag, hfront⟩ := decodes_uint8.complete trivial h
    rw [configReadFields, htag]
    exact ⟨left, by simp only [if_true, List.foldl_nil], hfront⟩
  | cons f fs ih =>
    obtain ⟨n, rfl⟩ := Nat.exists_eq_add_of_lt hn
    rw [fieldsPieces_cons] at h ⊢
    obtain ⟨hin, hins⟩ := List.forall_mem_cons.mp hwell.inRange
    obtain ⟨hset, honce, hfree'⟩ := (once_cons conf f fs).mp ⟨hwell.once, hfree⟩
    obtain ⟨mid, htag, hfront⟩ := decodes_uint8.complete trivial h.front
    have hbehind := hfront.arrives_append h
    obtain ⟨mid', hfield, hbody⟩ := configReadField_complete hin hset hbehind.front
    obtain ⟨left, hread, hrest⟩ :=
      ih ⟨hins, honce⟩ hfree' (hbody.arrives_append hbehind) (n := (f :: fs).length + n)
        (by rw [List.length_cons]; omega)
    refine ⟨left, ?_, hfront.append (hbody.append hrest)⟩
    rw [configReadFields, htag]
    simp only [if_neg f.kind.tag_ne_eom, hfield, hread, List.foldl_cons]

def Field.Short : Field → Prop
  | .string _ b => b.length < 2 ^ 32
  | .number _ _ => True
  | .listenAddr b _ => b.length < 2 ^ 32
  | .usergroup user group => user.length < 2 ^ 32 ∧ group.length < 2 ^ 32
  | .publicKey b => b.length < 2 ^ 32

theorem Field.InRange.short {f : Field} (h : f.InRange) : f.Short := by
  have hmax : maxStringSize < 2 ^ 32 := by decide
  cases f with
  | string g b => exact lt_of_le_of_lt h hmax
  | number g n => trivial
  | listenAddr b port => exact lt_of_le_of_lt h.1 hmax
  | usergroup user group => exact ⟨lt_of_le_of_lt h.1 hmax, lt_of_le_of_lt h.2 hmax⟩
  | publicKey b => exact lt_of_le_of_lt h hmax

theorem sizedPieces_unique {t : IpcType} {b b' x y : Bytes} (hb : b.length < 2 ^ 32)
    (hb' : b'.length < 2 ^ 32)
    (h : (sizedPieces t b).flatten ++ x = (sizedPieces t b').flatten ++ y) : b = b' ∧ x = y := by
  have hflat : ∀ b : Bytes, (sizedPieces t b).flatten =
      be 4 t.code ++ (be 4 (BitVec.ofNat 32 b.length) ++ b) := by
    intro b
    rw [sizedPieces, List.flatten_cons, List.flatten_cons, List.flatten_singleton]
  rw [hflat, hflat] at h
  simp only [List.append_assoc, List.append_cancel_left_eq] at h
  obtain ⟨hsize, hrest⟩ := List.append_inj h (by rw [length_be, length_be])
  have hbits := congrArg (bits 32) hsize
  rw [bits_be (by decide), bits_be (by decide)] at hbits
  have hlen : b.length = b'.length := by
    have hnat := congrArg BitVec.toNat hbits
    rwa [BitVec.toNat_ofNat, BitVec.toNat_ofNat, Nat.mod_eq_of_lt hb, Nat.mod_eq_of_lt hb'] at hnat
  exact List.append_inj hrest hlen

theorem body_unique {f g : Field} {x y : Bytes} (hkind : f.kind = g.kind) (hf : f.Short)
    (hg : g.Short)
    (h : f.body.flatten ++ x = g.body.flatten ++ y) : f = g ∧ x = y := by
  cases f with
  | string i b =>
    cases g with
    | string j b' =>
      obtain rfl : i = j := FieldKind.string.inj hkind
      obtain ⟨rfl, hxy⟩ := sizedPieces_unique hf hg h
      exact ⟨rfl, hxy⟩
    | _ => cases hkind
  | number i n =>
    cases g with
    | number j n' =>
      obtain rfl : i = j := FieldKind.number.inj hkind
      obtain ⟨rfl, hxy⟩ := decodes_int64.unique trivial trivial h
      exact ⟨rfl, hxy⟩
    | _ => cases hkind
  | listenAddr b port =>
    cases g with
    | listenAddr b' port' =>
      rw [Field.body, Field.body, List.flatten_append, List.flatten_append, List.append_assoc,
        List.append_assoc] at h
      obtain ⟨rfl, hport⟩ := sizedPieces_unique hf hg h
      obtain ⟨rfl, hxy⟩ := decodes_uint64.unique trivial trivial hport
      exact ⟨rfl, hxy⟩
    | _ => cases hkind
  | usergroup user group =>
    cases g with
    | usergroup user' group' =>
      rw [Field.body, Field.body, List.flatten_append, List.flatten_append, List.append_assoc,
        List.append_assoc] at h
      obtain ⟨rfl, hgroup⟩ := sizedPieces_unique hf.1 hg.1 h
      obtain ⟨rfl, hxy⟩ := sizedPieces_unique hf.2 hg.2 hgroup
      exact ⟨rfl, hxy⟩
    | _ => cases hkind
  | publicKey b =>
    cases g with
    | publicKey b' =>
      obtain ⟨rfl, hxy⟩ := sizedPieces_unique hf hg h
      exact ⟨rfl, hxy⟩
    | _ => cases hkind

/-- The fields that a stream begins with are determined. -/
theorem fieldsPieces_unique {fs gs : List Field} {x y : Bytes} (hfs : ∀ f ∈ fs, f.Short)
    (hgs : ∀ g ∈ gs, g.Short)
    (h : (fieldsPieces fs).flatten ++ x = (fieldsPieces gs).flatten ++ y) : fs = gs ∧ x = y := by
  have htag : ∀ (tag tag' : BitVec 8) (x y : Bytes),
      (integerPieces .uint8 1 tag).flatten ++ x = (integerPieces .uint8 1 tag').flatten ++ y →
        tag = tag' ∧ x = y := fun _ _ _ _ => decodes_uint8.unique trivial trivial
  induction fs generalizing gs with
  | nil =>
    cases gs with
    | nil => exact ⟨rfl, (htag _ _ x y h).2⟩
    | cons g gs =>
      rw [flatten_cons] at h
      exact absurd (htag _ _ _ _ h).1.symm g.kind.tag_ne_eom
  | cons f fs ih =>
    rw [flatten_cons] at h
    cases gs with
    | nil => exact absurd (htag _ _ _ _ h).1 f.kind.tag_ne_eom
    | cons g gs =>
      rw [flatten_cons] at h
      obtain ⟨hkind, hbody⟩ := htag _ _ _ _ h
      obtain ⟨hf, hfs'⟩ := List.forall_mem_cons.mp hfs
      obtain ⟨hg, hgs'⟩ := List.forall_mem_cons.mp hgs
      obtain ⟨rfl, hrest⟩ := body_unique (FieldKind.tag_injective hkind) hf hg hbody
      obtain ⟨rfl, hxy⟩ := ih hfs' hgs' hrest
      exact ⟨rfl, hxy⟩

/-! ### Termination -/

theorem Front.length_le {ps : List Bytes} (h : Front ps frags left) :
    left.flatten.length + ps.flatten.length = frags.flatten.length := by
  rw [h.flatten, List.length_append, Nat.add_comm]

/-- Every field takes something off the stream. -/
theorem configReadFields_terminates (conf : AgentConfig) (hn : frags.flatten.length < n) :
    ∃ r, configReadFields n conf frags = some r := by
  induction n generalizing conf frags with
  | zero => omega
  | succ n ih =>
    rw [configReadFields]
    cases htag : ipcReadUint8Block frags with
    | mk x mid =>
      cases x with
      | error e => exact ⟨_, rfl⟩
      | ok tag =>
        simp only
        by_cases heom : tag = streamTypeEom
        · exact ⟨_, if_pos heom⟩
        · rw [if_neg heom]
          cases hfield : configReadField conf mid tag with
          | mk y mid' =>
            cases y with
            | error e => exact ⟨_, rfl⟩
            | ok conf₁ =>
              have hfirst := Front.length_le (decodes_uint8.sound htag).2
              obtain ⟨f, -, -, -, -, hbody⟩ := configReadField_sound hfield
              have hsecond := Front.length_le hbody
              have hlen : (integerPieces .uint8 1 tag).flatten.length = 5 := by
                simp [integerPieces]
              exact ih conf₁ (by omega)

/-- More fuel does not change what has been read. -/
theorem configReadFields_mono {r : Except ConfigError AgentConfig × List Bytes} {m : ℕ}
    (h : configReadFields n conf frags = some r) (hm : n ≤ m) :
    configReadFields m conf frags = some r := by
  induction n generalizing m conf frags with
  | zero => cases h
  | succ n ih =>
    obtain ⟨m, rfl⟩ := Nat.exists_eq_add_of_le' (show 1 ≤ m by omega)
    rw [configReadFields] at h ⊢
    split at h
    · exact h
    · split_ifs at h ⊢ with heom
      · exact h
      · split at h
        · exact h
        · exact ih h (by omega)

theorem configReadBlock_terminates (frags : List Bytes) :
    ∃ r, ∀ n, frags.flatten.length < n → configReadBlock n frags = some r := by
  cases htag : ipcReadUint8Block frags with
  | mk x mid =>
    cases x with
    | error e =>
      refine ⟨(.error .ipcReadDataFailure, mid), fun n _ => ?_⟩
      rw [configReadBlock, htag]
    | ok tag =>
      by_cases hbom : tag = streamTypeBom
      · have hshort := Front.length_le (decodes_uint8.sound htag).2
        obtain ⟨r, hr⟩ := configReadFields_terminates (n := mid.flatten.length + 1) newConfig
          (Nat.lt_succ_self _)
        refine ⟨r, fun n hn => ?_⟩
        rw [configReadBlock, htag]
        exact (if_neg (not_not.mpr hbom)).trans (configReadFields_mono hr (by omega))
      · refine ⟨(.error .invalidStream, mid), fun n _ => ?_⟩
        rw [configReadBlock, htag]
        exact if_pos hbom

/-! ### Blocks -/

theorem configReadBlock_sound (h : configReadBlock n frags = some (.ok conf', left)) :
    ∃ fs, WellFormed fs ∧ conf' = fs.foldl Field.apply newConfig ∧
      Front (streamPieces fs) frags left := by
  rw [configReadBlock] at h
  split at h
  · cases h
  · rename_i tag mid htag
    obtain ⟨-, hfront⟩ := decodes_uint8.sound htag
    split_ifs at h with hbom
    · cases h
    · obtain ⟨fs, hwell, -, hconf, hrest⟩ := configReadFields_sound h
      rw [not_not.mp hbom] at hfront
      exact ⟨fs, hwell, hconf, hfront.append hrest⟩

theorem configReadBlock_complete {fs : List Field} (hwell : WellFormed fs)
    (h : Arrives (streamPieces fs) frags rest) (hn : fs.length < n) :
    ∃ left, configReadBlock n frags = some (.ok (fs.foldl Field.apply newConfig), left) ∧
      Front (streamPieces fs) frags left := by
  have hfree : Free newConfig fs := by
    have hall : ∀ k ∈ FieldKind.all, k.isSet newConfig = false := by decide
    exact fun k _ => hall k k.mem_all
  obtain ⟨mid, htag, hfront⟩ := decodes_uint8.complete trivial h.front
  obtain ⟨left, hread, hrest⟩ := configReadFields_complete hwell hfree (hfront.arrives_append h) hn
  refine ⟨left, ?_, hfront.append hrest⟩
  rw [configReadBlock, htag]
  exact (if_neg (not_not.mpr rfl)).trans hread

theorem length_lt_streamPieces (fs : List Field) :
    fs.length < (streamPieces fs).flatten.length := by
  have hfive : ∀ tag, (integerPieces .uint8 1 (tag : BitVec 8)).flatten.length = 5 := by
    simp [integerPieces]
  have hfields : fs.length < (fieldsPieces fs).flatten.length := by
    induction fs with
    | nil => exact Nat.lt_of_lt_of_eq (by decide : 0 < 5) (hfive _).symm
    | cons f fs ih =>
      have htag := hfive f.kind.tag
      rw [fieldsPieces_cons, List.flatten_append, List.flatten_append, List.length_append,
        List.length_append, List.length_cons]
      omega
  rw [streamPieces, List.flatten_append, List.length_append]
  omega

end ConfigFields
