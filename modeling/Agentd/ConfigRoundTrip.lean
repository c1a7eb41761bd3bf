import Agentd.ConfigFields
import Agentd.IpcCodecs

/-! # What becomes of a configuration on its way

The fields that are written for a configuration, and what a reader makes of fields. What the writer
leaves out is lost, and what does not fit into a field is not read. -/
namespace ConfigRoundTrip

open ByteString
open FragmentedStreams
open TypedIpc
open StreamFronts
open IpcCodecs
open ConfigBlock
open ConfigFields

variable {frags left : List Bytes} {rest : Bytes} {conf conf' : AgentConfig} {fs : List Field}

/-! ### Internet addresses -/

theorem mapM_decimal (bs : Bytes) : (bs.map decimal).mapM parseDecimal = some bs := by
  induction bs with
  | nil => rfl
  | cons b bs ih =>
    rw [List.map_cons, List.mapM_cons, (decimal_ascii b).2, ih]
    rfl

theorem inetPton_inetNtop (addr : BitVec 32) : inetPton (inetNtop addr) = some addr := by
  have hsplit : (inetNtop addr).splitOn dot = (be 4 addr).map decimal := by
    refine List.splitOn_intercalate dot ?_ ?_
    · intro l hl
      obtain ⟨b, -, rfl⟩ := List.mem_map.mp hl
      exact (decimal_ascii b).1.2
    · rw [Ne, List.map_eq_nil_iff]
      exact fun hnil => absurd (congrArg List.length hnil) (by simp)
  have hfour : ∃ a b c d, be 4 addr = [a, b, c, d] := by
    have hlen : (be 4 addr).length = 4 := length_be 4 addr
    match hbe : be 4 addr, hlen with
    | [a, b, c, d], _ => exact ⟨a, b, c, d, rfl⟩
  obtain ⟨a, b, c, d, hbe⟩ := hfour
  rw [inetPton, hsplit, mapM_decimal, hbe]
  simp only
  rw [← hbe, bits_be (by decide)]

theorem ofBuffer_bytes (s : CString) : CString.ofBuffer s.bytes = s := by
  have hall : s.bytes.takeWhile (· != 0) = s.bytes := by
    rw [List.takeWhile_eq_self_iff]
    intro x hx
    rw [bne_iff_ne]
    rintro rfl
    exact s.noNul hx
  cases s
  simp only [CString.ofBuffer, hall]

theorem ofBuffer_length_le (b : Bytes) : (CString.ofBuffer b).bytes.length ≤ b.length :=
  (List.takeWhile_sublist _).length_le

/-! ### Configurations of the parser -/

def NumbersInRange (conf : AgentConfig) : Prop :=
  ∀ f : NumberField, (f.get conf).isSet = true →
    0 ≤ (f.get conf).value.toInt ∧ (f.get conf).value.toInt ≤ f.maximum

theorem foldlM_invariant {ε α σ : Type} {step : σ → α → Except ε σ} {I : σ → Prop}
    (hstep : ∀ {s x s'}, I s → step s x = .ok s' → I s') {xs : List α} {s s' : σ} (hs : I s)
    (h : xs.foldlM step s = .ok s') : I s' := by
  induction xs generalizing s with
  | nil => exact Except.ok.inj h ▸ hs
  | cons x xs ih =>
    rw [List.foldlM_cons] at h
    cases hx : step s x with
    | error e =>
      rw [hx] at h
      cases h
    | ok s₁ =>
      rw [hx] at h
      exact ih (hstep hs hx) h

theorem map_ok {ε α β : Type} {x : Except ε α} {f : α → β} {b : β}
    (h : (do let a ← x; pure (f a)) = (.ok b : Except ε β)) : ∃ a, x = .ok a ∧ f a = b := by
  cases x with
  | error e => cases h
  | ok a => exact ⟨a, rfl, Except.ok.inj h⟩

def SettingInRange (maximum : ℤ) (s : Setting) : Prop :=
  s.isSet = true → 0 ≤ s.value.toInt ∧ s.value.toInt ≤ maximum

theorem addNumber_inRange {duplicate range : String} {maximum : ℤ} {old new : Setting}
    {n : BitVec 64} (h : addNumber duplicate range 0 maximum old n = .ok new) :
    SettingInRange maximum new := by
  rw [addNumber] at h
  split_ifs at h with hset hrange
  rw [← Except.ok.inj h]
  rw [not_or, Int.not_lt, Int.not_lt] at hrange
  exact fun _ => hrange

theorem foldSetting_inRange {duplicate : String} {maximum : ℤ} {old new s : Setting}
    (hnew : SettingInRange maximum new) (h : foldSetting duplicate old new = .ok s) :
    SettingInRange maximum s := by
  rw [foldSetting] at h
  split_ifs at h with hboth hset
  · rw [← Except.ok.inj h]
    exact fun _ => hnew hset
  · rw [← Except.ok.inj h]
    exact fun hflag => absurd hflag hset

theorem addDirective_inRange {cfg cfg' : AgentConfig} {d : Directive} (hcfg : NumbersInRange cfg)
    (h : addDirective cfg d = .ok cfg') : NumbersInRange cfg' := by
  have hkeep : ∀ c : AgentConfig, c.loglevel = cfg.loglevel →
      c.blockMaxMilliseconds = cfg.blockMaxMilliseconds →
      c.blockMaxTransactions = cfg.blockMaxTransactions → NumbersInRange c := by
    intro c hlevel hms htx f
    have hget : f.get c = f.get cfg := by cases f <;> assumption
    rw [hget]
    exact hcfg f
  cases d with
  | loglevel n =>
    obtain ⟨s, hs, rfl⟩ := map_ok h
    intro f
    cases f with
    | loglevel => exact addNumber_inRange hs
    | blockMaxMilliseconds => exact hcfg .blockMaxMilliseconds
    | blockMaxTransactions => exact hcfg .blockMaxTransactions
  | canonization items =>
    rw [addDirective] at h
    cases hitems : items.foldlM addCanonizationItem ⟨unset, unset⟩ with
    | error e =>
      rw [hitems] at h
      cases h
    | ok c =>
      have hin : SettingInRange blockMillisecondsMaximum c.blockMaxMilliseconds ∧
          SettingInRange blockTransactionsMaximum c.blockMaxTransactions := by
        refine foldlM_invariant (I := fun c : Canonization =>
          SettingInRange blockMillisecondsMaximum c.blockMaxMilliseconds ∧
            SettingInRange blockTransactionsMaximum c.blockMaxTransactions) ?_ ?_ hitems
        · intro c item c' hc hitem
          cases item with
          | maxMilliseconds n =>
            obtain ⟨s, hs, rfl⟩ := map_ok hitem
            exact ⟨addNumber_inRange hs, hc.2⟩
          | maxTransactions n =>
            obtain ⟨s, hs, rfl⟩ := map_ok hitem
            exact ⟨hc.1, addNumber_inRange hs⟩
        · exact ⟨fun hset => absurd hset (by decide), fun hset => absurd hset (by decide)⟩
      rw [hitems] at h
      have hfold : foldCanonization cfg c = .ok cfg' := h
      rw [foldCanonization] at hfold
      cases hms : foldSetting "Duplicate canonization max milliseconds settings."
          cfg.blockMaxMilliseconds c.blockMaxMilliseconds with
      | error e =>
        rw [hms] at hfold
        cases hfold
      | ok ms =>
        rw [hms] at hfold
        obtain ⟨tx, htx, rfl⟩ := map_ok hfold
        intro f
        cases f with
        | loglevel => exact hcfg .loglevel
        | blockMaxMilliseconds => exact foldSetting_inRange hin.1 hms
        | blockMaxTransactions => exact foldSetting_inRange hin.2 htx
  | listen addr port =>
    rw [← Except.ok.inj h]
    exact hkeep _ rfl rfl rfl
  | publicKeys paths =>
    rw [← Except.ok.inj h]
    exact hkeep _ rfl rfl rfl
  | view name artifacts =>
    rw [addDirective] at h
    cases hview : viewBlock name artifacts with
    | error e =>
      rw [hview] at h
      cases h
    | ok view =>
      rw [hview] at h
      obtain ⟨head, -, rfl⟩ := map_ok h
      exact hkeep _ rfl rfl rfl
  | _ =>
    obtain ⟨x, -, rfl⟩ := map_ok h
    exact hkeep _ rfl rfl rfl

theorem parse_inRange {ds : List Directive} (h : parse ds = .ok conf) : NumbersInRange conf := by
  refine foldlM_invariant addDirective_inRange (fun f hset => ?_) h
  cases f with
  | loglevel => exact absurd hset (by decide)
  | blockMaxMilliseconds => exact absurd hset (by decide)
  | blockMaxTransactions => exact absurd hset (by decide)

/-! ### The fields of a configuration -/

def segment (conf : AgentConfig) : FieldKind → List Field
  | .string f => (f.get conf).toList.map fun s => .string f s.bytes
  | .number f => if (f.get conf).isSet then [.number f (f.get conf).value] else []
  | .listenAddr => conf.listenHead.map fun l => .listenAddr (inetNtop l.addr) (l.port.setWidth 64)
  | .usergroup => conf.usergroup.toList.map fun u => .usergroup u.user.bytes u.group.bytes
  | .publicKey => conf.publicKeyHead.map fun path => .publicKey path.bytes

def fieldsOf (conf : AgentConfig) : List Field := FieldKind.all.flatMap (segment conf)

structure StringsFit (conf : AgentConfig) : Prop where
  string : ∀ (f : StringField) (s : CString), f.get conf = some s → s.bytes.length ≤ maxStringSize
  usergroup : ∀ u : UserGroup, conf.usergroup = some u →
    u.user.bytes.length ≤ maxStringSize ∧ u.group.bytes.length ≤ maxStringSize
  publicKey : ∀ path ∈ conf.publicKeyHead, path.bytes.length ≤ maxStringSize

theorem kind_of_mem_segment {k : FieldKind} {x : Field} (h : x ∈ segment conf k) : x.kind = k := by
  cases k with
  | string f =>
    obtain ⟨s, -, rfl⟩ := List.mem_map.mp h
    rfl
  | number f =>
    rw [segment] at h
    split_ifs at h
    · rw [List.mem_singleton.mp h]
      rfl
    · cases h
  | listenAddr =>
    obtain ⟨l, -, rfl⟩ := List.mem_map.mp h
    rfl
  | usergroup =>
    obtain ⟨u, -, rfl⟩ := List.mem_map.mp h
    rfl
  | publicKey =>
    obtain ⟨path, -, rfl⟩ := List.mem_map.mp h
    rfl

theorem length_inetNtop_le (addr : BitVec 32) : (inetNtop addr).length ≤ maxStringSize := by
  have hdecimal : ∀ b : UInt8, (decimal b).length ≤ 3 := by
    intro b
    rw [decimal]
    split_ifs <;> simp
  have hall : ∀ ls : List Bytes, (∀ l ∈ ls, l.length ≤ 3) →
      ([dot].intercalate ls).length ≤ 4 * ls.length := by
    intro ls hls
    induction ls with
    | nil => simp
    | cons l ls ih =>
      obtain ⟨hl, hrest⟩ := List.forall_mem_cons.mp hls
      by_cases hnil : ls = []
      · subst hnil
        simp
        omega
      · rw [List.intercalate_cons_of_ne_nil hnil]
        have hlen := ih hrest
        simp only [List.length_append, List.length_cons, List.length_nil]
        omega
  have hlen := hall ((be 4 addr).map decimal) (by
    intro l hl
    obtain ⟨b, -, rfl⟩ := List.mem_map.mp hl
    exact hdecimal b)
  rw [List.length_map, length_be] at hlen
  exact hlen.trans (by decide)

theorem segment_inRange (hnumbers : NumbersInRange conf) (hfit : StringsFit conf) {k : FieldKind}
    {x : Field} (h : x ∈ segment conf k) : x.InRange := by
  cases k with
  | string f =>
    obtain ⟨s, hs, rfl⟩ := List.mem_map.mp h
    exact hfit.string f s (Option.mem_toList.mp hs)
  | number f =>
    rw [segment] at h
    split_ifs at h with hset
    · rw [List.mem_singleton.mp h]
      exact hnumbers f hset
    · cases h
  | listenAddr =>
    obtain ⟨l, -, rfl⟩ := List.mem_map.mp h
    have hbuffer := ofBuffer_bytes (inetNtopString l.addr)
    refine ⟨length_inetNtop_le l.addr, ?_⟩
    rw [show CString.ofBuffer (inetNtop l.addr) = inetNtopString l.addr from hbuffer]
    exact Option.isSome_iff_exists.mpr ⟨_, inetPton_inetNtop l.addr⟩
  | usergroup =>
    obtain ⟨u, hu, rfl⟩ := List.mem_map.mp h
    exact hfit.usergroup u (Option.mem_toList.mp hu)
  | publicKey =>
    obtain ⟨path, hpath, rfl⟩ := List.mem_map.mp h
    exact hfit.publicKey path hpath

/-- At most one field for each scalar. -/
theorem scalars_segment (conf : AgentConfig) (k : FieldKind) :
    (scalars (segment conf k)).Sublist ([k].filter FieldKind.scalar) := by
  have hone : ∀ {α : Type} (o : Option α) (f : α → Field), (∀ a, (f a).kind = k) →
      (scalars (o.toList.map f)).Sublist ([k].filter FieldKind.scalar) := by
    intro α o f hkind
    cases o with
    | none => exact List.nil_sublist _
    | some a =>
      rw [Option.toList_some, List.map_singleton, scalars, List.map_singleton, hkind]
  have hmany : k.scalar = false → ∀ {α : Type} (l : List α) (f : α → Field), (∀ a, (f a).kind = k) →
      (scalars (l.map f)).Sublist ([k].filter FieldKind.scalar) := by
    intro hscalar α l f hkind
    have hnil : scalars (l.map f) = [] := by
      rw [scalars, List.filter_eq_nil_iff]
      intro k' hk'
      rw [List.map_map, List.mem_map] at hk'
      obtain ⟨a, -, rfl⟩ := hk'
      rw [Function.comp_apply, hkind, hscalar]
      decide
    rw [hnil]
    exact List.nil_sublist _
  cases k with
  | string f => exact hone _ _ fun _ => rfl
  | number f =>
    rw [segment]
    split_ifs
    · exact List.Sublist.refl _
    · exact List.nil_sublist _
  | listenAddr => exact hmany rfl _ _ fun _ => rfl
  | usergroup => exact hone _ _ fun _ => rfl
  | publicKey => exact hmany rfl _ _ fun _ => rfl

theorem scalars_flatMap (conf : AgentConfig) (ks : List FieldKind) :
    (scalars (ks.flatMap (segment conf))).Sublist (ks.filter FieldKind.scalar) := by
  induction ks with
  | nil => exact List.nil_sublist _
  | cons k ks ih =>
    have hsplit : scalars ((k :: ks).flatMap (segment conf)) =
        scalars (segment conf k) ++ scalars (ks.flatMap (segment conf)) := by
      rw [List.flatMap_cons, scalars, List.map_append, List.filter_append]
      rfl
    have hfilter : (k :: ks).filter FieldKind.scalar =
        [k].filter FieldKind.scalar ++ ks.filter FieldKind.scalar := by
      rw [← List.filter_append, List.singleton_append]
    rw [hsplit, hfilter]
    exact (scalars_segment conf k).append ih

theorem fieldsOf_wellFormed (hnumbers : NumbersInRange conf) (hfit : StringsFit conf) :
    WellFormed (fieldsOf conf) where
  inRange := by
    intro x hx
    obtain ⟨k, -, hk⟩ := List.mem_flatMap.mp hx
    exact segment_inRange hnumbers hfit hk
  once := (scalars_flatMap conf FieldKind.all).nodup (by decide)

/-! ### Written bytes -/

def written (conf : AgentConfig) : Bytes := (configWriteBlock conf (writeBlock none) []).2

def writtenPieces (conf : AgentConfig) : List Bytes := (configValues conf).flatMap fields

theorem configWriteBlock_eq (conf : AgentConfig) :
    configWriteBlock conf (writeBlock none) [] = (.ok (), (writtenPieces conf).flatten) := by
  rw [configWriteBlock, writeAll_eq writeBlock_eq, writtenPieces]
  simp only [List.nil_append, Prod.mk.injEq, true_and]
  induction configValues conf with
  | nil => rfl
  | cons v vs ih => rw [List.flatMap_cons, List.flatMap_cons, List.flatten_append, ih, bytes]

def valuesOf (conf : AgentConfig) : FieldKind → List Value
  | .string f => configWriteString conf f
  | .number f => configWriteNumber conf f
  | .listenAddr => configWriteListenAddr conf
  | .usergroup => configWriteUsergroup conf
  | .publicKey => configWritePublicKey conf

theorem configValues_eq (conf : AgentConfig) : configValues conf =
    .uint8 streamTypeBom :: (FieldKind.all.flatMap (valuesOf conf) ++ [.uint8 streamTypeEom]) := by
  simp only [configValues, FieldKind.all, List.flatMap_cons, List.flatMap_nil, valuesOf,
    List.append_assoc, List.append_nil]
  rfl

/-- What is written of a string: its size is written as 32 bits. -/
def cutString (s : CString) : CString where
  bytes := s.bytes.take (BitVec.ofNat 32 s.bytes.length).toNat
  noNul := fun h => s.noNul (List.mem_of_mem_take h)

def cutConfig (conf : AgentConfig) : AgentConfig :=
  { conf with
    logdir := conf.logdir.map cutString
    secret := conf.secret.map cutString
    rootblock := conf.rootblock.map cutString
    datastore := conf.datastore.map cutString
    chroot := conf.chroot.map cutString
    usergroup := conf.usergroup.map fun u => ⟨cutString u.user, cutString u.group⟩
    privateKey := conf.privateKey.map cutString
    endorserKey := conf.endorserKey.map cutString
    publicKeyHead := conf.publicKeyHead.map cutString }

theorem get_string_cutConfig (conf : AgentConfig) (f : StringField) :
    f.get (cutConfig conf) = (f.get conf).map cutString := by
  cases f <;> rfl

theorem get_number_cutConfig (conf : AgentConfig) (f : NumberField) :
    f.get (cutConfig conf) = f.get conf := by
  cases f <;> rfl

theorem length_cutString (s : CString) : (cutString s).bytes.length = s.bytes.length % 2 ^ 32 := by
  have hle : s.bytes.length % 2 ^ 32 ≤ s.bytes.length := Nat.mod_le _ _
  rw [cutString, List.length_take, BitVec.toNat_ofNat, Nat.min_eq_left hle]

theorem cutString_eq {s : CString} (h : s.bytes.length ≤ maxStringSize) : cutString s = s := by
  have hmax : maxStringSize < 2 ^ 32 := by decide
  have hlen : (BitVec.ofNat 32 s.bytes.length).toNat = s.bytes.length := by
    rw [BitVec.toNat_ofNat, Nat.mod_eq_of_lt (by omega)]
  have htake : s.bytes.take (BitVec.ofNat 32 s.bytes.length).toNat = s.bytes := by
    rw [hlen, List.take_length]
  cases s
  simp only [cutString, htake]

theorem cutConfig_eq (hfit : StringsFit conf) : cutConfig conf = conf := by
  have hstring : ∀ f : StringField, (f.get conf).map cutString = f.get conf := by
    intro f
    cases hs : f.get conf with
    | none => rfl
    | some s => exact congrArg some (cutString_eq (hfit.string f s hs))
  have husergroup : (conf.usergroup.map fun u =>
      (⟨cutString u.user, cutString u.group⟩ : UserGroup)) =
      conf.usergroup := by
    cases hu : conf.usergroup with
    | none => rfl
    | some u =>
      obtain ⟨huser, hgroup⟩ := hfit.usergroup u hu
      rw [Option.map_some, cutString_eq huser, cutString_eq hgroup]
  have hkeys : conf.publicKeyHead.map cutString = conf.publicKeyHead := by
    rw [List.map_congr_left fun path hpath => cutString_eq (hfit.publicKey path hpath),
      List.map_id']
  have hlogdir : conf.logdir.map cutString = conf.logdir := hstring .logdir
  have hsecret : conf.secret.map cutString = conf.secret := hstring .secret
  have hrootblock : conf.rootblock.map cutString = conf.rootblock := hstring .rootblock
  have hdatastore : conf.datastore.map cutString = conf.datastore := hstring .datastore
  have hchroot : conf.chroot.map cutString = conf.chroot := hstring .chroot
  have hprivate : conf.privateKey.map cutString = conf.privateKey := hstring .privateKey
  have hendorser : conf.endorserKey.map cutString = conf.endorserKey := hstring .endorserKey
  rw [cutConfig, hlogdir, hsecret, hrootblock, hdatastore, hchroot, hprivate, hendorser, husergroup,
    hkeys]

theorem fields_string (s : CString) :
    fields (.string s) = sizedPieces .string (cutString s).bytes := by
  have hsize : BitVec.ofNat 32 (cutString s).bytes.length = BitVec.ofNat 32 s.bytes.length := by
    rw [length_cutString]
    exact BitVec.eq_of_toNat_eq (by rw [BitVec.toNat_ofNat, BitVec.toNat_ofNat, Nat.mod_mod])
  rw [fields, sizedPieces, hsize]
  rfl

theorem segment_pieces (conf : AgentConfig) (k : FieldKind) :
    (valuesOf conf k).flatMap fields = (segment (cutConfig conf) k).flatMap Field.pieces := by
  cases k with
  | string f =>
    rw [valuesOf, configWriteString, segment, get_string_cutConfig]
    cases f.get conf with
    | none => rfl
    | some s =>
      simp only [List.flatMap_cons, List.flatMap_nil, List.append_nil, Option.map_some,
        Option.toList_some, List.map_singleton, fields_string s]
      rfl
  | number f =>
    rw [valuesOf, configWriteNumber, segment, get_number_cutConfig]
    split_ifs
    · rfl
    · rfl
  | listenAddr =>
    rw [valuesOf, configWriteListenAddr, segment, List.flatMap_assoc, List.flatMap_map]
    refine List.flatMap_congr fun l _ => ?_
    simp only [List.flatMap_cons, List.flatMap_nil, List.append_nil]
    rw [fields_string, cutString_eq (length_inetNtop_le l.addr)]
    rfl
  | usergroup =>
    rw [valuesOf, configWriteUsergroup, segment, cutConfig]
    cases conf.usergroup with
    | none => rfl
    | some u =>
      simp only [List.flatMap_cons, List.flatMap_nil, List.append_nil, Option.map_some,
        Option.toList_some, List.map_singleton, fields_string u.user, fields_string u.group]
      rfl
  | publicKey =>
    rw [valuesOf, configWritePublicKey, segment, cutConfig, List.map_map, List.flatMap_assoc,
      List.flatMap_map]
    refine List.flatMap_congr fun path _ => ?_
    simp only [List.flatMap_cons, List.flatMap_nil, List.append_nil, fields_string path]
    rfl

theorem writtenPieces_eq (conf : AgentConfig) :
    writtenPieces conf = streamPieces (fieldsOf (cutConfig conf)) := by
  rw [writtenPieces, configValues_eq, List.flatMap_cons, List.flatMap_append, List.flatMap_assoc,
    streamPieces, fieldsPieces, fieldsOf, List.flatMap_assoc,
    List.flatMap_congr fun k _ => segment_pieces conf k, List.flatMap_singleton]
  rfl

/-- A size of 32 bits is the size of what is written. -/
theorem short_of_mem {x : Field} (h : x ∈ fieldsOf (cutConfig conf)) : x.Short := by
  have hcut : ∀ s : CString, (cutString s).bytes.length < 2 ^ 32 := by
    intro s
    rw [length_cutString]
    exact Nat.mod_lt _ (by decide)
  obtain ⟨k, -, hk⟩ := List.mem_flatMap.mp h
  cases k with
  | string f =>
    rw [segment, get_string_cutConfig] at hk
    obtain ⟨s', hs', rfl⟩ := List.mem_map.mp hk
    obtain ⟨s, -, rfl⟩ := Option.map_eq_some_iff.mp (Option.mem_toList.mp hs')
    exact hcut s
  | number f =>
    cases x with
    | number g n => trivial
    | _ => cases kind_of_mem_segment hk
  | listenAddr =>
    obtain ⟨l, -, rfl⟩ := List.mem_map.mp hk
    exact lt_of_le_of_lt (length_inetNtop_le l.addr) (by decide)
  | usergroup =>
    obtain ⟨u', hu', rfl⟩ := List.mem_map.mp hk
    obtain ⟨u, -, rfl⟩ := Option.map_eq_some_iff.mp (Option.mem_toList.mp hu')
    exact ⟨hcut u.user, hcut u.group⟩
  | publicKey =>
    obtain ⟨path', hpath', rfl⟩ := List.mem_map.mp hk
    obtain ⟨path, -, rfl⟩ := List.mem_map.mp hpath'
    exact hcut path

/-! ### What fields make of a configuration -/

/-- What is seen of a configuration after some fields is from the last of them that has to do with
it. -/
theorem foldl_observe {γ : Type} {obs : AgentConfig → γ} {val : Field → Option γ}
    (hstep : ∀ conf x, obs (x.apply conf) = (val x).getD (obs conf)) (fs : List Field)
    (conf : AgentConfig) :
    obs (fs.foldl Field.apply conf) = ((fs.filterMap val).getLast?).getD (obs conf) := by
  induction fs generalizing conf with
  | nil => rfl
  | cons x fs ih =>
    rw [List.foldl_cons, ih, hstep, List.filterMap_cons]
    cases hx : val x with
    | none => rfl
    | some c =>
      simp only [Option.getD_some, List.getLast?_cons]

theorem foldl_collect {γ : Type} {obs : AgentConfig → List γ} {val : Field → Option γ}
    (hstep : ∀ conf x, obs (x.apply conf) = (val x).toList ++ obs conf) (fs : List Field)
    (conf : AgentConfig) :
    obs (fs.foldl Field.apply conf) = (fs.filterMap val).reverse ++ obs conf := by
  induction fs generalizing conf with
  | nil => rfl
  | cons x fs ih =>
    rw [List.foldl_cons, ih, hstep, List.filterMap_cons]
    cases val x with
    | none => rfl
    | some c => simp

def textOf (f : StringField) : Field → Option (Option CString)
  | .string g b => if g = f then some (some (CString.ofBuffer b)) else none
  | _ => none

def numberOf (f : NumberField) : Field → Option Setting
  | .number g n => if g = f then some ⟨true, n⟩ else none
  | _ => none

def usergroupOf : Field → Option (Option UserGroup)
  | .usergroup user group => some (some ⟨CString.ofBuffer user, CString.ofBuffer group⟩)
  | _ => none

def listenOf : Field → Option ListenAddress
  | .listenAddr b port => some ⟨(inetPton (CString.ofBuffer b).bytes).getD 0, port.setWidth 16⟩
  | _ => none

def publicKeyOf : Field → Option CString
  | .publicKey b => some (CString.ofBuffer b)
  | _ => none

theorem get_string_apply (f : StringField) (conf : AgentConfig) (x : Field) :
    f.get (x.apply conf) = (textOf f x).getD (f.get conf) := by
  cases x with
  | string g b => cases f <;> cases g <;> rfl
  | number g n => cases f <;> cases g <;> rfl
  | _ => cases f <;> rfl

theorem get_number_apply (f : NumberField) (conf : AgentConfig) (x : Field) :
    f.get (x.apply conf) = (numberOf f x).getD (f.get conf) := by
  cases x with
  | string g b => cases f <;> cases g <;> rfl
  | number g n => cases f <;> cases g <;> rfl
  | _ => cases f <;> rfl

theorem get_string_foldl (f : StringField) (fs : List Field) (conf : AgentConfig) :
    f.get (fs.foldl Field.apply conf) =
      ((fs.filterMap (textOf f)).getLast?).getD (f.get conf) :=
  @foldl_observe _ (fun c => f.get c) (textOf f) (get_string_apply f) fs conf

theorem get_number_foldl (f : NumberField) (fs : List Field) (conf : AgentConfig) :
    f.get (fs.foldl Field.apply conf) =
      ((fs.filterMap (numberOf f)).getLast?).getD (f.get conf) :=
  @foldl_observe _ (fun c => f.get c) (numberOf f) (get_number_apply f) fs conf

theorem usergroup_apply (conf : AgentConfig) (x : Field) :
    (x.apply conf).usergroup = (usergroupOf x).getD conf.usergroup := by
  cases x with
  | string g b => cases g <;> rfl
  | number g n => cases g <;> rfl
  | _ => rfl

theorem listenHead_apply (conf : AgentConfig) (x : Field) :
    (x.apply conf).listenHead = (listenOf x).toList ++ conf.listenHead := by
  cases x with
  | string g b => cases g <;> rfl
  | number g n => cases g <;> rfl
  | _ => rfl

theorem publicKeyHead_apply (conf : AgentConfig) (x : Field) :
    (x.apply conf).publicKeyHead = (publicKeyOf x).toList ++ conf.publicKeyHead := by
  cases x with
  | string g b => cases g <;> rfl
  | number g n => cases g <;> rfl
  | _ => rfl

/-- No field has to do with the size of the database or the views. -/
theorem apply_never (conf : AgentConfig) (x : Field) :
    (x.apply conf).databaseMaxSize = conf.databaseMaxSize ∧
      (x.apply conf).viewHead = conf.viewHead := by
  cases x with
  | string g b => cases g <;> exact ⟨rfl, rfl⟩
  | number g n => cases g <;> exact ⟨rfl, rfl⟩
  | _ => exact ⟨rfl, rfl⟩

theorem foldl_never (fs : List Field) (conf : AgentConfig) :
    (fs.foldl Field.apply conf).databaseMaxSize = conf.databaseMaxSize ∧
      (fs.foldl Field.apply conf).viewHead = conf.viewHead := by
  induction fs generalizing conf with
  | nil => exact ⟨rfl, rfl⟩
  | cons x fs ih =>
    obtain ⟨hsize, hviews⟩ := apply_never conf x
    rw [← hsize, ← hviews]
    exact ih (x.apply conf)

/-! ### Both ways -/

structure Same (conf conf' : AgentConfig) : Prop where
  string : ∀ f : StringField, f.get conf' = f.get conf
  number : ∀ f : NumberField, f.get conf' = f.get conf
  databaseMaxSize : conf'.databaseMaxSize = conf.databaseMaxSize
  usergroup : conf'.usergroup = conf.usergroup
  listenHead : conf'.listenHead.Perm conf.listenHead
  viewHead : conf'.viewHead.Perm conf.viewHead
  publicKeyHead : conf'.publicKeyHead.Perm conf.publicKeyHead

/-- Nothing of the configuration is left out or too long, and a number that is not set has no
value. -/
structure Carried (conf : AgentConfig) : Prop where
  databaseMaxSize : conf.databaseMaxSize = unset
  viewHead : conf.viewHead = []
  number : ∀ f : NumberField, (f.get conf).isSet = false → f.get conf = unset
  strings : StringsFit conf

/-- A list in which one key has all there is. -/
theorem flatMap_one {κ β : Type} {ks : List κ} {k : κ} {g : κ → List β} (hnodup : ks.Nodup)
    (hk : k ∈ ks) (h : ∀ k', k' ≠ k → g k' = []) : ks.flatMap g = g k := by
  induction ks with
  | nil => cases hk
  | cons j ks ih =>
    obtain ⟨hnot, hrest⟩ := List.nodup_cons.mp hnodup
    rw [List.flatMap_cons]
    by_cases hj : j = k
    · subst hj
      have hnil : ks.flatMap g = [] := by
        rw [List.flatMap_eq_nil_iff]
        intro k' hk'
        refine h k' ?_
        rintro rfl
        exact hnot hk'
      rw [hnil, List.append_nil]
    · rw [h j hj, List.nil_append]
      exact ih hrest ((List.mem_cons.mp hk).resolve_left (Ne.symm hj))

theorem filterMap_fieldsOf {γ : Type} {val : Field → Option γ} {k : FieldKind}
    (hval : ∀ x : Field, x.kind ≠ k → val x = none) :
    (fieldsOf conf).filterMap val = (segment conf k).filterMap val := by
  rw [fieldsOf, List.filterMap_flatMap]
  refine flatMap_one (by decide) k.mem_all fun k' hk' => ?_
  rw [List.filterMap_eq_nil_iff]
  intro x hx
  refine hval x ?_
  rw [kind_of_mem_segment hx]
  exact hk'

theorem filterMap_map_some {α β : Type} {f : β → Option α} {g : α → β} (h : ∀ a, f (g a) = some a)
    (l : List α) : (l.map g).filterMap f = l := by
  have hcomp : f ∘ g = some := funext h
  rw [List.filterMap_map, hcomp, List.filterMap_some]

/-- The numbers that are set get through. -/
theorem get_number_fieldsOf (conf : AgentConfig) (f : NumberField) :
    f.get ((fieldsOf conf).foldl Field.apply newConfig) =
      if (f.get conf).isSet then f.get conf else unset := by
  have hval : ∀ x : Field, x.kind ≠ .number f → numberOf f x = none := by
    intro x hx
    cases x with
    | number g n => exact if_neg fun hg => hx (congrArg FieldKind.number hg)
    | _ => rfl
  have hempty : f.get newConfig = unset := by cases f <;> rfl
  rw [get_number_foldl, filterMap_fieldsOf hval, hempty, segment]
  cases hset : (f.get conf).isSet with
  | false => rfl
  | true =>
    simp only [if_true, numberOf, List.filterMap_cons, List.filterMap_nil,
      List.getLast?_singleton, Option.getD_some]
    rw [← hset]

/-- The addresses get through, the other way round. -/
theorem listenHead_fieldsOf (conf : AgentConfig) :
    ((fieldsOf conf).foldl Field.apply newConfig).listenHead = conf.listenHead.reverse := by
  have hval : ∀ x : Field, x.kind ≠ .listenAddr → listenOf x = none := by
    intro x hx
    cases x with
    | listenAddr b port => exact absurd rfl hx
    | _ => rfl
  have hsame : ∀ l : ListenAddress,
      listenOf (.listenAddr (inetNtop l.addr) (l.port.setWidth 64)) = some l := by
    intro l
    have hbuffer : CString.ofBuffer (inetNtop l.addr) = inetNtopString l.addr :=
      ofBuffer_bytes (inetNtopString l.addr)
    rw [listenOf, hbuffer, show (inetNtopString l.addr).bytes = inetNtop l.addr from rfl,
      inetPton_inetNtop, Option.getD_some, BitVec.setWidth_setWidth_of_le _ (by decide),
      BitVec.setWidth_eq]
  rw [foldl_collect listenHead_apply, filterMap_fieldsOf hval, segment, filterMap_map_some hsame]
  exact List.append_nil _

/-- Nothing is lost of a configuration that is carried. -/
theorem same_of_carried (h : Carried conf) :
    Same conf ((fieldsOf conf).foldl Field.apply newConfig) where
  string := by
    intro f
    have hval : ∀ x : Field, x.kind ≠ .string f → textOf f x = none := by
      intro x hx
      cases x with
      | string g b => exact if_neg fun hg => hx (congrArg FieldKind.string hg)
      | _ => rfl
    have hempty : f.get newConfig = none := by cases f <;> rfl
    rw [get_string_foldl, filterMap_fieldsOf hval, hempty, segment]
    cases f.get conf with
    | none => rfl
    | some s =>
      simp only [Option.toList_some, List.map_singleton, textOf, List.filterMap_cons, if_true,
        List.filterMap_nil, List.getLast?_singleton, Option.getD_some, ofBuffer_bytes]
  number := by
    intro f
    rw [get_number_fieldsOf]
    cases hset : (f.get conf).isSet with
    | false => exact (h.number f hset).symm
    | true => rfl
  databaseMaxSize := by
    rw [(foldl_never _ _).1, h.databaseMaxSize]
    rfl
  usergroup := by
    have hval : ∀ x : Field, x.kind ≠ .usergroup → usergroupOf x = none := by
      intro x hx
      cases x with
      | usergroup user group => exact absurd rfl hx
      | _ => rfl
    rw [foldl_observe usergroup_apply, filterMap_fieldsOf hval, segment]
    cases conf.usergroup with
    | none => rfl
    | some u =>
      simp only [Option.toList_some, List.map_singleton, usergroupOf, List.filterMap_cons,
        List.filterMap_nil, List.getLast?_singleton, Option.getD_some, ofBuffer_bytes]
  listenHead := by
    rw [listenHead_fieldsOf]
    exact List.reverse_perm _
  viewHead := by
    rw [(foldl_never _ _).2, h.viewHead]
    exact List.Perm.refl _
  publicKeyHead := by
    have hval : ∀ x : Field, x.kind ≠ .publicKey → publicKeyOf x = none := by
      intro x hx
      cases x with
      | publicKey b => exact absurd rfl hx
      | _ => rfl
    have hsame : ∀ path : CString, publicKeyOf (.publicKey path.bytes) = some path :=
      fun path => congrArg some (ofBuffer_bytes path)
    rw [foldl_collect publicKeyHead_apply, filterMap_fieldsOf hval, segment,
      filterMap_map_some hsame]
    exact (List.append_nil _).symm ▸ List.reverse_perm _

theorem mem_of_getD {γ : Type} {l : List (Option γ)} {c : γ} (h : l.getLast?.getD none = some c) :
    some c ∈ l := by
  cases hlast : l.getLast? with
  | none =>
    rw [hlast] at h
    cases h
  | some o =>
    rw [hlast, Option.getD_some] at h
    subst h
    exact List.mem_of_getLast? hlast

/-- A configuration that was read is carried. -/
theorem carried_of_read (hin : ∀ f ∈ fs, f.InRange) : Carried (fs.foldl Field.apply newConfig) where
  databaseMaxSize := (foldl_never fs newConfig).1
  viewHead := (foldl_never fs newConfig).2
  number := by
    intro f hset
    have hempty : f.get newConfig = unset := by cases f <;> rfl
    rw [get_number_foldl, hempty] at hset ⊢
    cases hlast : (fs.filterMap (numberOf f)).getLast? with
    | none => rfl
    | some s =>
      obtain ⟨x, -, hs⟩ := List.mem_filterMap.mp (List.mem_of_getLast? hlast)
      rw [hlast, Option.getD_some] at hset
      cases x with
      | number g n =>
        rw [numberOf] at hs
        split_ifs at hs
        rw [← Option.some.inj hs] at hset
        cases hset
      | _ => cases hs
  strings :=
    { string := by
        intro f s hs
        have hempty : f.get newConfig = none := by cases f <;> rfl
        rw [get_string_foldl, hempty] at hs
        obtain ⟨x, hx, htext⟩ := List.mem_filterMap.mp (mem_of_getD hs)
        cases x with
        | string g b =>
          rw [textOf] at htext
          split_ifs at htext
          rw [← Option.some.inj (Option.some.inj htext)]
          exact (ofBuffer_length_le b).trans (hin _ hx)
        | _ => cases htext
      usergroup := by
        intro u hu
        rw [foldl_observe usergroup_apply] at hu
        obtain ⟨x, hx, htext⟩ := List.mem_filterMap.mp (mem_of_getD hu)
        cases x with
        | usergroup user group =>
          rw [← Option.some.inj (Option.some.inj htext)]
          obtain ⟨huser, hgroup⟩ := hin _ hx
          exact ⟨(ofBuffer_length_le user).trans huser, (ofBuffer_length_le group).trans hgroup⟩
        | _ => cases htext
      publicKey := by
        intro path hpath
        rw [foldl_collect publicKeyHead_apply, List.mem_append] at hpath
        rcases hpath with hmem | hnil
        · obtain ⟨x, hx, htext⟩ := List.mem_filterMap.mp (List.mem_reverse.mp hmem)
          cases x with
          | publicKey b =>
            rw [← Option.some.inj htext]
            exact (ofBuffer_length_le b).trans (hin _ hx)
          | _ => cases htext
        · cases hnil }

theorem Same.carried (h : Same conf conf') (hc : Carried conf') : Carried conf where
  databaseMaxSize := by rw [← h.databaseMaxSize, hc.databaseMaxSize]
  viewHead := by
    have hperm := h.viewHead
    rw [hc.viewHead] at hperm
    exact List.perm_nil.mp hperm.symm
  number := by
    intro f hset
    rw [← h.number f] at hset ⊢
    exact hc.number f hset
  strings :=
    { string := fun f s hs => hc.strings.string f s (by rw [h.string f, hs])
      usergroup := fun u hu => hc.strings.usergroup u (by rw [h.usergroup, hu])
      publicKey := fun path hpath => hc.strings.publicKey path (h.publicKeyHead.mem_iff.mpr hpath) }

def RoundTrips (conf : AgentConfig) (frags : List Bytes) (rest : Bytes) : Prop :=
  ∃ conf' left, (∀ n, frags.flatten.length < n → configReadBlock n frags = some (.ok conf', left)) ∧
    Same conf conf' ∧ left.flatten = rest

/-- A stream is read to an end, and what is accepted are a begin mark, fields with each scalar at
most once and in its range, and an end mark. -/
def AcceptsOnlyBlocks (frags : List Bytes) : Prop :=
  ∃ r, (∀ n, frags.flatten.length < n → configReadBlock n frags = some r) ∧
    ∀ conf' left, r = (.ok conf', left) → ∃ fs, WellFormed fs ∧
      frags.flatten = (streamPieces fs).flatten ++ left.flatten ∧
        conf' = fs.foldl Field.apply newConfig

theorem acceptsOnlyBlocks (frags : List Bytes) : AcceptsOnlyBlocks frags := by
  obtain ⟨r, hr⟩ := configReadBlock_terminates frags
  refine ⟨r, hr, fun conf' left hok => ?_⟩
  have hread := hr _ (Nat.lt_succ_self _)
  rw [hok] at hread
  obtain ⟨fs, hwell, hconf, hfront⟩ := configReadBlock_sound hread
  exact ⟨fs, hwell, hfront.flatten, hconf⟩

theorem roundTrips_of_carried (hnumbers : NumbersInRange conf) (hc : Carried conf)
    (hs : frags.flatten = written conf ++ rest)
    (hwhole : FieldsWhole frags 0 ((writtenPieces conf).map List.length)) :
    RoundTrips conf frags rest := by
  have hwritten : written conf = (writtenPieces conf).flatten :=
    congrArg Prod.snd (configWriteBlock_eq conf)
  rw [hwritten, writtenPieces_eq, cutConfig_eq hc.strings] at hs
  rw [writtenPieces_eq, cutConfig_eq hc.strings] at hwhole
  have hlong : (fieldsOf conf).length < frags.flatten.length := by
    have hlt := length_lt_streamPieces (fieldsOf conf)
    rw [hs, List.length_append]
    omega
  have hread : ∀ n, frags.flatten.length < n → ∃ left, configReadBlock n frags =
      some (.ok ((fieldsOf conf).foldl Field.apply newConfig), left) ∧ left.flatten = rest := by
    intro n hn
    obtain ⟨left, hread, hfront⟩ := configReadBlock_complete
      (fieldsOf_wellFormed hnumbers hc.strings) ⟨hs, hwhole⟩ (n := n) (by omega)
    exact ⟨left, hread, hfront.left_eq hs⟩
  obtain ⟨r, hr⟩ := configReadBlock_terminates frags
  obtain ⟨left, hleft, hrest⟩ := hread _ (Nat.lt_succ_self _)
  rw [hr _ (Nat.lt_succ_self _)] at hleft
  refine ⟨_, left, fun n hn => ?_, same_of_carried hc, hrest⟩
  rw [hr n hn, hleft]

/-- What was written is read as the fields of the configuration. -/
theorem fields_of_written (hs : frags.flatten = written conf ++ rest) (hfs : ∀ f ∈ fs, f.InRange)
    (hfront : Front (streamPieces fs) frags left) : fieldsOf (cutConfig conf) = fs := by
  have hwritten : written conf = (writtenPieces conf).flatten :=
    congrArg Prod.snd (configWriteBlock_eq conf)
  rw [hwritten, writtenPieces_eq] at hs
  have hsplit := hs.symm.trans hfront.flatten
  rw [streamPieces, streamPieces, List.flatten_append, List.flatten_append, List.append_assoc,
    List.append_assoc, List.append_cancel_left_eq] at hsplit
  exact (fieldsPieces_unique (fun _ => short_of_mem) (fun f hf => (hfs f hf).short) hsplit).1

theorem carried_of_roundTrips (hs : frags.flatten = written conf ++ rest)
    (h : RoundTrips conf frags rest) :
    Carried conf ∧ FieldsWhole frags 0 ((writtenPieces conf).map List.length) := by
  obtain ⟨conf', left, hread, hsame, -⟩ := h
  obtain ⟨fs, hwell, rfl, hfront⟩ := configReadBlock_sound (hread _ (Nat.lt_succ_self _))
  have hc := hsame.carried (carried_of_read hwell.inRange)
  refine ⟨hc, ?_⟩
  rw [writtenPieces_eq, fields_of_written hs hwell.inRange hfront]
  exact hfront.whole

/-- A configuration of the parser survives exactly when nothing of it is left out or too long and
what is written arrives in pieces that are read at once; every stream is read to an end. -/
theorem configuration_survives_when_carried {ds : List Directive} (h : parse ds = .ok conf)
    (frags : List Bytes) (rest : Bytes) :
    (configWriteBlock conf (writeBlock none) []).1 = .ok () ∧
      (frags.flatten = written conf ++ rest → (RoundTrips conf frags rest ↔
        Carried conf ∧ FieldsWhole frags 0 ((writtenPieces conf).map List.length))) ∧
      AcceptsOnlyBlocks frags := by
  refine ⟨congrArg Prod.fst (configWriteBlock_eq conf), fun hs => ?_, acceptsOnlyBlocks frags⟩
  have hnumbers := parse_inRange h
  constructor
  · exact carried_of_roundTrips hs
  · rintro ⟨hc, hwhole⟩
    exact roundTrips_of_carried hnumbers hc hs hwhole

def smallName : CString := ⟨[107, 101, 121], by decide⟩

def smallConfig : AgentConfig :=
  { newConfig with
    loglevel := ⟨true, 3⟩
    listenHead := [⟨0x7F000001, 4931⟩]
    publicKeyHead := [smallName] }

theorem small_configuration_survives : RoundTrips smallConfig [written smallConfig ++ [1]] [1] := by
  have hparse : parse [.loglevel 3, .listen 0x7F000001 4931, .publicKeys [smallName]] =
      .ok smallConfig := rfl
  refine ((configuration_survives_when_carried hparse [written smallConfig ++ [1]] [1]).2.1
    List.flatten_singleton).mpr ⟨⟨rfl, rfl, ?_, ?_, ?_, ?_⟩, ?_⟩
  · intro f hset
    cases f with
    | loglevel => exact absurd hset (by decide)
    | blockMaxMilliseconds => rfl
    | blockMaxTransactions => rfl
  · intro f s hs
    cases f <;> cases hs
  · intro u hu
    cases hu
  · intro path hpath
    rw [List.mem_singleton.mp hpath]
    decide
  · exact (arrives_singleton (writtenPieces smallConfig) [1]).whole

/-- The size of the database and the views do not get to the other process. -/
theorem database_size_and_views_are_lost :
    ∃ conf, parse [.datasize 1000000, .view smallName []] = .ok conf ∧
      conf.databaseMaxSize = ⟨true, 1000000⟩ ∧ conf.viewHead = [⟨smallName, []⟩] ∧
      (configReadBlock 20 [written conf]).map Prod.fst = some (.ok newConfig) ∧
      ¬ RoundTrips conf [written conf] [] := by
  refine ⟨{ newConfig with
    databaseMaxSize := ⟨true, 1000000⟩
    viewHead := [⟨smallName, []⟩] }, rfl, rfl, rfl, by decide +kernel, ?_⟩
  rintro ⟨conf', left, hread, hsame, -⟩
  obtain ⟨fs, hwell, rfl, -⟩ := configReadBlock_sound (hread _ (Nat.lt_succ_self _))
  have hc := hsame.carried (carried_of_read hwell.inRange)
  exact absurd hc.databaseMaxSize (by decide)

end ConfigRoundTrip
