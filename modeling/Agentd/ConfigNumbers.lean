import Agentd.ConfigFolding

/-! # The numbers of a configuration file

The lexer converts a number to a machine word, the parser tests its range, and another process reads
it from the stream. A port is cut to 16 bits by the parser and by the reader, which do not test
it. -/
namespace ConfigNumbers

open ByteString
open FragmentedStreams
open TypedIpc
open StreamFronts
open ConfigBlock
open ConfigFields
open ConfigRoundTrip
open ConfigFolding

variable {cfg cfg' conf conf' : AgentConfig} {frags left : List Bytes} {n : ℕ}

/-! ### Numbers in a file -/

/-- `-?([0-9])+`, the most significant digit first. -/
structure NumberText where
  negative : Bool
  digits : List (Fin 10)
  nonempty : digits ≠ []

namespace NumberText

def magnitude (t : NumberText) : ℕ := t.digits.foldl (fun m d => 10 * m + d) 0

def value (t : NumberText) : ℤ := if t.negative then -t.magnitude else t.magnitude

end NumberText

def longMax : ℤ := 2 ^ 63 - 1

def longMin : ℤ := -2 ^ 63

/-- `strtol` in base ten, which gives the greatest or the smallest `long` for what is beyond. -/
def atol (t : NumberText) : BitVec 64 := BitVec.ofInt 64 (max longMin (min t.value longMax))

theorem toInt_atol (t : NumberText) : (atol t).toInt = max longMin (min t.value longMax) := by
  rw [atol, BitVec.toInt_ofInt_eq_self (by decide)]
  · exact le_max_left _ _
  · have hmax : max longMin (min t.value longMax) ≤ longMax :=
      max_le (by decide) (min_le_right _ _)
    exact Int.lt_of_le_sub_one hmax

/-- The lexer keeps the numbers that fit into a `long`. -/
theorem atol_exact_iff (t : NumberText) :
    (atol t).toInt = t.value ↔ longMin ≤ t.value ∧ t.value ≤ longMax := by
  rw [toInt_atol]
  have hle : longMin ≤ longMax := by decide
  omega

inductive ItemText where
  | maxMilliseconds (t : NumberText)
  | maxTransactions (t : NumberText)

def numberless : Directive → Bool
  | .loglevel _ => false
  | .datasize _ => false
  | .listen _ _ => false
  | .canonization _ => false
  | _ => true

inductive DirectiveText where
  | loglevel (t : NumberText)
  | datasize (t : NumberText)
  | listen (addr : BitVec 32) (port : NumberText)
  | canonization (items : List ItemText)
  | plain (d : Directive) (h : numberless d = true)

def lexItem : ItemText → CanonizationItem
  | .maxMilliseconds t => .maxMilliseconds (atol t)
  | .maxTransactions t => .maxTransactions (atol t)

def lex : DirectiveText → Directive
  | .loglevel t => .loglevel (atol t)
  | .datasize t => .datasize (atol t)
  | .listen addr port => .listen addr (atol port)
  | .canonization items => .canonization (items.map lexItem)
  | .plain d _ => d

/-! ### The numbers that are set once -/

inductive NumberName where
  | field (f : NumberField)
  | datasize
  deriving DecidableEq

namespace NumberName

def get (conf : AgentConfig) : NumberName → Setting
  | field f => f.get conf
  | datasize => conf.databaseMaxSize

def minimum : NumberName → ℤ
  | field _ => 0
  | datasize => 1

def maximum : NumberName → ℤ
  | field f => f.maximum
  | datasize => longMax

end NumberName

def itemText : ItemText → NumberName × NumberText
  | .maxMilliseconds t => (.field .blockMaxMilliseconds, t)
  | .maxTransactions t => (.field .blockMaxTransactions, t)

def directiveTexts : DirectiveText → List (NumberName × NumberText)
  | .loglevel t => [(.field .loglevel, t)]
  | .datasize t => [(.datasize, t)]
  | .canonization items => items.map itemText
  | .listen _ _ => []
  | .plain _ _ => []

def texts (fs : List DirectiveText) : List (NumberName × NumberText) := fs.flatMap directiveTexts

def directiveListen : DirectiveText → Option (BitVec 32 × NumberText)
  | .listen addr port => some (addr, port)
  | _ => none

def listens (fs : List DirectiveText) : List (BitVec 32 × NumberText) :=
  fs.filterMap directiveListen

def toScalar : NumberName × NumberText → Scalar
  | (.field f, t) => .number f (atol t)
  | (.datasize, t) => .datasize (atol t)

theorem toScalar_inRange {x : NumberName × NumberText} (h : (toScalar x).InRange) :
    x.1.minimum ≤ (atol x.2).toInt ∧ (atol x.2).toInt ≤ x.1.maximum := by
  obtain ⟨k, t⟩ := x
  cases k with
  | field f => exact h
  | datasize => exact ⟨Int.add_one_le_of_lt h, Int.le_sub_one_of_lt BitVec.toInt_lt⟩

theorem itemScalar_lexItem (item : ItemText) :
    itemScalar (lexItem item) = toScalar (itemText item) := by
  cases item with
  | maxMilliseconds t => rfl
  | maxTransactions t => rfl

theorem map_itemScalar (items : List ItemText) :
    (items.map lexItem).map itemScalar = (items.map itemText).map toScalar := by
  rw [List.map_map, List.map_map]
  exact List.map_congr_left fun item _ => itemScalar_lexItem item

/-! ### One directive -/

theorem get_put (x : NumberName × NumberText) (k : NumberName) :
    k.get ((toScalar x).put cfg) = if x.1 = k then ⟨true, atol x.2⟩ else k.get cfg := by
  obtain ⟨j, t⟩ := x
  cases j with
  | field g =>
    cases k with
    | field f => cases f <;> cases g <;> rfl
    | datasize => cases g <;> rfl
  | datasize =>
    cases k with
    | field f => cases f <;> rfl
    | datasize => rfl

def From (cfg cfg' : AgentConfig) (xs : List (NumberName × NumberText)) (k : NumberName) : Prop :=
  (∃ t, (k, t) ∈ xs ∧ k.get cfg' = ⟨true, atol t⟩) ∨ k.get cfg' = k.get cfg

theorem from_foldl (cfg : AgentConfig) (xs : List (NumberName × NumberText)) (k : NumberName) :
    From cfg ((xs.map toScalar).foldl Scalar.put cfg) xs k := by
  induction xs generalizing cfg with
  | nil => exact Or.inr rfl
  | cons x xs ih =>
    rw [List.map_cons, List.foldl_cons]
    rcases ih ((toScalar x).put cfg) with ⟨t, ht, hget⟩ | hget
    · exact Or.inl ⟨t, List.mem_cons_of_mem x ht, hget⟩
    · rw [get_put] at hget
      by_cases hk : x.1 = k
      · rw [if_pos hk] at hget
        exact Or.inl ⟨x.2, by rw [← hk]; exact List.mem_cons_self, hget⟩
      · rw [if_neg hk] at hget
        exact Or.inr hget

/-- What a canonization block sets is a number of the block. -/
theorem canonization_from {items : List ItemText} {k : NumberName}
    (h : addDirective cfg (lex (.canonization items)) = .ok cfg')
    (hset : (k.get cfg').isSet = true) :
    From cfg cfg' (items.map itemText) k := by
  obtain ⟨-, ms, tx, hms, htx, rfl⟩ := canonization_ok h
  have hitem : ∀ s : Setting, s.isSet = true →
      s = k.get (((items.map lexItem).map itemScalar).foldl Scalar.put newConfig) →
      k.get newConfig = unset → ∃ t, (k, t) ∈ items.map itemText ∧ s = ⟨true, atol t⟩ := by
    intro s hs hnew hempty
    rw [map_itemScalar] at hnew
    rcases from_foldl newConfig (items.map itemText) k with ⟨t, ht, hget⟩ | hget
    · exact ⟨t, ht, hnew.trans hget⟩
    · rw [hnew, hget, hempty] at hs
      cases hs
  cases k with
  | datasize => exact Or.inr rfl
  | field f =>
    cases f with
    | loglevel => exact Or.inr rfl
    | blockMaxMilliseconds => exact Or.inl (hitem ms hset (hms.value hset) rfl)
    | blockMaxTransactions => exact Or.inl (hitem tx hset (htx.value hset) rfl)

theorem plain_keeps {d : Directive} (hd : numberless d = true) (h : addDirective cfg d = .ok cfg') :
    (∀ k : NumberName, k.get cfg' = k.get cfg) ∧ cfg'.listenHead = cfg.listenHead := by
  have hsame : ∀ c : AgentConfig, c.loglevel = cfg.loglevel →
      c.databaseMaxSize = cfg.databaseMaxSize → c.blockMaxMilliseconds = cfg.blockMaxMilliseconds →
      c.blockMaxTransactions = cfg.blockMaxTransactions → ∀ k :
        NumberName, k.get c = k.get cfg := by
    intro c hlevel hsize hms htx k
    cases k with
    | datasize => exact hsize
    | field f => cases f <;> assumption
  cases d with
  | loglevel n => cases hd
  | datasize n => cases hd
  | listen addr port => cases hd
  | canonization items => cases hd
  | publicKeys paths =>
    obtain rfl := Except.ok.inj h
    exact ⟨hsame _ rfl rfl rfl rfl, rfl⟩
  | view name artifacts =>
    rw [addDirective, bind_ok_iff] at h
    obtain ⟨view, -, hview⟩ := h
    obtain ⟨head, -, rfl⟩ := map_ok hview
    exact ⟨hsame _ rfl rfl rfl rfl, rfl⟩
  | _ =>
    obtain ⟨x, -, rfl⟩ := map_ok h
    exact ⟨hsame _ rfl rfl rfl rfl, rfl⟩

def bound (l : BitVec 32 × NumberText) : ListenAddress := ⟨l.1, (atol l.2).setWidth 16⟩

structure Lexed (cfg cfg' : AgentConfig) (d : DirectiveText) : Prop where
  inRange : ∀ x ∈ directiveTexts d, (toScalar x).InRange
  stored : ∀ k : NumberName, (k.get cfg').isSet = true → From cfg cfg' (directiveTexts d) k
  listenHead : cfg'.listenHead = ((directiveListen d).map bound).toList ++ cfg.listenHead

theorem scalar_lexed {d : DirectiveText} {x : NumberName × NumberText}
    (hcanon : canonizationItems (lex d) = none) (hscalars : directiveScalars (lex d) = [toScalar x])
    (htexts : directiveTexts d = [x]) (hlisten : directiveListen d = none)
    (h : addDirective cfg (lex d) = .ok cfg') : Lexed cfg cfg' d := by
  obtain ⟨-, hin, rfl⟩ := (addDirective_scalar hcanon hscalars).mp h
  refine ⟨fun y hy => ?_, fun k _ => ?_, ?_⟩
  · rw [htexts] at hy
    rw [List.mem_singleton.mp hy]
    exact hin
  · rw [htexts]
    exact from_foldl cfg [x] k
  · rw [hlisten]
    obtain ⟨j, t⟩ := x
    cases j with
    | field f => cases f <;> rfl
    | datasize => rfl

theorem addDirective_lexed {d : DirectiveText} (h : addDirective cfg (lex d) = .ok cfg') :
    Lexed cfg cfg' d := by
  cases d with
  | loglevel t => exact scalar_lexed (x := (.field .loglevel, t)) rfl rfl rfl rfl h
  | datasize t => exact scalar_lexed (x := (.datasize, t)) rfl rfl rfl rfl h
  | listen addr port =>
    obtain rfl := Except.ok.inj h
    refine ⟨fun x hx => ?_, fun k _ => Or.inr ?_, rfl⟩
    · cases hx
    · cases k with
      | field f => cases f <;> rfl
      | datasize => rfl
  | canonization items =>
    have hstored := fun k hset => canonization_from (k := k) h hset
    obtain ⟨hfits, ms, tx, -, -, rfl⟩ := canonization_ok h
    refine ⟨fun x hx => ?_, hstored, rfl⟩
    rw [map_itemScalar, fits_iff] at hfits
    exact (hfits.2 _ (List.mem_map_of_mem hx)).2
  | plain d hd =>
    obtain ⟨hget, hlisten⟩ := plain_keeps hd h
    refine ⟨fun x hx => ?_, fun k _ => Or.inr (hget k), hlisten⟩
    cases hx

/-! ### A whole file -/

structure LexedFile (cfg conf : AgentConfig) (fs : List DirectiveText) : Prop where
  inRange : ∀ x ∈ texts fs, (toScalar x).InRange
  stored : ∀ k : NumberName, (k.get conf).isSet = true → From cfg conf (texts fs) k
  listenHead : conf.listenHead = ((listens fs).map bound).reverse ++ cfg.listenHead

theorem listens_cons (d : DirectiveText) (fs : List DirectiveText) :
    listens (d :: fs) = (directiveListen d).toList ++ listens fs := by
  rw [listens, List.filterMap_cons]
  cases directiveListen d <;> rfl

theorem foldlM_lexed {fs : List DirectiveText}
    (h : (fs.map lex).foldlM addDirective cfg = .ok conf) :
    LexedFile cfg conf fs := by
  induction fs generalizing cfg with
  | nil =>
    obtain rfl := Except.ok.inj h
    refine ⟨fun x hx => ?_, fun k _ => Or.inr rfl, rfl⟩
    cases hx
  | cons d fs ih =>
    rw [List.map_cons, List.foldlM_cons, bind_ok_iff] at h
    obtain ⟨c, hc, hrest⟩ := h
    have hd := addDirective_lexed hc
    have hfs := ih hrest
    have htexts : texts (d :: fs) = directiveTexts d ++ texts fs := List.flatMap_cons
    refine ⟨fun x hx => ?_, fun k hset => ?_, ?_⟩
    · rw [htexts, List.mem_append] at hx
      rcases hx with hfirst | hlater
      · exact hd.inRange x hfirst
      · exact hfs.inRange x hlater
    · rw [htexts]
      rcases hfs.stored k hset with ⟨t, ht, hget⟩ | hsame
      · exact Or.inl ⟨t, List.mem_append_right _ ht, hget⟩
      · rw [hsame] at hset
        rcases hd.stored k hset with ⟨t, ht, hget⟩ | hsame'
        · exact Or.inl ⟨t, List.mem_append_left _ ht, hsame.trans hget⟩
        · exact Or.inr (hsame.trans hsame')
    · rw [hfs.listenHead, hd.listenHead, listens_cons, List.map_append, List.reverse_append,
        List.append_assoc]
      cases directiveListen d <;> rfl

/-! ### Ports -/

def IsPort (z : ℤ) : Prop := 0 ≤ z ∧ z ≤ 65535

instance : DecidablePred IsPort := fun z => inferInstanceAs (Decidable (0 ≤ z ∧ z ≤ 65535))

/-- The parser keeps exactly the ports. -/
theorem port_exact_iff (t : NumberText) :
    (((atol t).setWidth 16).toNat : ℤ) = t.value ↔ IsPort t.value := by
  constructor
  · intro h
    have hlt : ((atol t).setWidth 16).toNat < 2 ^ 16 := BitVec.isLt _
    rw [IsPort, ← h]
    omega
  · rintro ⟨hlow, hhigh⟩
    have hlong : longMin ≤ t.value ∧ t.value ≤ longMax := by
      rw [longMin, longMax]
      omega
    have hexact := (atol_exact_iff t).mpr hlong
    rw [BitVec.toInt_eq_toNat_cond] at hexact
    rw [BitVec.toNat_setWidth]
    have hlt : (atol t).toNat < 2 ^ 64 := BitVec.isLt _
    split_ifs at hexact <;> omega

/-- The reader keeps exactly the ports. -/
theorem read_port_exact_iff (port : BitVec 64) :
    (port.setWidth 16).toNat = port.toNat ↔ IsPort port.toNat := by
  rw [IsPort, BitVec.toNat_setWidth]
  omega

/-! ### What is sent -/

def sentNumber : Value → Option ℤ
  | .int64 v => some v.toInt
  | .uint64 v => some v.toNat
  | _ => none

def sentNumbers (conf : AgentConfig) : List ℤ := (configValues conf).filterMap sentNumber

def settingNumber (s : Setting) : List ℤ := if s.isSet then [s.value.toInt] else []

def storedNumbers (conf : AgentConfig) : List ℤ :=
  settingNumber conf.loglevel ++ settingNumber conf.blockMaxMilliseconds ++
    settingNumber conf.blockMaxTransactions ++ conf.listenHead.map fun l => (l.port.toNat : ℤ)

theorem sentNumbers_eq (conf : AgentConfig) : sentNumbers conf = storedNumbers conf := by
  have hstring : ∀ f : StringField, (configWriteString conf f).filterMap sentNumber = [] := by
    intro f
    rw [configWriteString]
    cases f.get conf <;> rfl
  have hnumber : ∀ f : NumberField,
      (configWriteNumber conf f).filterMap sentNumber = settingNumber (f.get conf) := by
    intro f
    rw [configWriteNumber, settingNumber]
    split_ifs <;> rfl
  have hlisten : (configWriteListenAddr conf).filterMap sentNumber =
      conf.listenHead.map fun l => (l.port.toNat : ℤ) := by
    rw [configWriteListenAddr]
    induction conf.listenHead with
    | nil => rfl
    | cons l ls ih =>
      have hport : (l.port.setWidth 64).toNat = l.port.toNat := by
        rw [BitVec.toNat_setWidth, Nat.mod_eq_of_lt (by omega)]
      rw [List.flatMap_cons, List.filterMap_append, ih, List.map_cons, ← hport]
      rfl
  have husergroup : (configWriteUsergroup conf).filterMap sentNumber = [] := by
    rw [configWriteUsergroup]
    cases conf.usergroup <;> rfl
  have hkeys : (configWritePublicKey conf).filterMap sentNumber = [] := by
    rw [configWritePublicKey, List.filterMap_flatMap, List.flatMap_eq_nil_iff]
    exact fun _ _ => rfl
  rw [sentNumbers, storedNumbers, configValues, List.filterMap_cons]
  simp only [sentNumber, List.filterMap_append, configWriteLogdir, configWriteLoglevel,
    configWriteBlockMaxMilliseconds, configWriteBlockMaxTransactions, configWriteSecret,
    configWriteRootblock, configWriteDatastore, configWriteChroot, configWritePrivateKey,
    configWriteEndorserKey, hstring, hnumber, hlisten, husergroup, hkeys, List.nil_append,
    List.append_nil, List.filterMap_cons, List.filterMap_nil, NumberField.get]

/-! ### Numbers that keep their value -/

structure SameNumbers (conf conf' : AgentConfig) : Prop where
  number : ∀ f : NumberField, f.get conf' = if (f.get conf).isSet then f.get conf else unset
  listenHead : conf'.listenHead = conf.listenHead.reverse

/-- The numbers of a file have the value that is written, in the lexer, in the configuration, on the
stream and in the process that reads it. -/
structure NumbersKept (fs : List DirectiveText) (conf : AgentConfig) : Prop where
  lexed : ∀ x ∈ texts fs, (atol x.2).toInt = x.2.value
  admitted : ∀ x ∈ texts fs, x.1.minimum ≤ x.2.value ∧ x.2.value ≤ x.1.maximum
  stored : ∀ k : NumberName, (k.get conf).isSet = true →
    ∃ t, (k, t) ∈ texts fs ∧ (k.get conf).value.toInt = t.value
  accepted : ∀ l ∈ listens fs, ∀ c : AgentConfig,
    (∃ c', addDirective c (lex (.listen l.1 l.2)) = .ok c') ↔ IsPort l.2.value
  listenHead : conf.listenHead.map (fun l => (l.addr, (l.port.toNat : ℤ))) =
    ((listens fs).map fun l => (l.1, l.2.value)).reverse
  sent : sentNumbers conf = storedNumbers conf
  received : ∀ (frags left : List Bytes) (rest : Bytes) (n : ℕ) (conf' : AgentConfig),
    frags.flatten = written conf ++ rest → configReadBlock n frags = some (.ok conf', left) →
      SameNumbers conf conf'

structure NumbersFit (fs : List DirectiveText) : Prop where
  ports : ∀ l ∈ listens fs, IsPort l.2.value
  datasize : ∀ t, (NumberName.datasize, t) ∈ texts fs → t.value ≤ longMax

/-- Only the size of the database may be too large for the lexer and in its range. -/
theorem value_le_longMax {fs : List DirectiveText} (hfit : NumbersFit fs)
    {x : NumberName × NumberText} (hx : x ∈ texts fs) (hin : (toScalar x).InRange) :
    longMin ≤ x.2.value ∧ x.2.value ≤ longMax := by
  obtain ⟨hlow, hhigh⟩ := toScalar_inRange hin
  obtain ⟨k, t⟩ := x
  rw [toInt_atol] at hlow hhigh
  have hmin : longMin < 0 := by decide
  cases k with
  | field f =>
    have hmax : f.maximum < longMax := by cases f <;> decide
    simp only [NumberName.minimum, NumberName.maximum] at hlow hhigh ⊢
    omega
  | datasize =>
    have hsize := hfit.datasize t hx
    simp only [NumberName.minimum] at hlow ⊢
    omega

theorem listenHead_iff {fs : List DirectiveText}
    (h : conf.listenHead = ((listens fs).map bound).reverse) :
    conf.listenHead.map (fun l => (l.addr, (l.port.toNat : ℤ))) =
        ((listens fs).map fun l => (l.1, l.2.value)).reverse ↔
      ∀ l ∈ listens fs, IsPort l.2.value := by
  rw [h, List.map_reverse, List.reverse_inj, List.map_map, List.map_inj_left]
  constructor
  · intro hall l hl
    exact (port_exact_iff l.2).mp (Prod.mk.inj (hall l hl)).2
  · intro hall l hl
    exact Prod.ext rfl ((port_exact_iff l.2).mpr (hall l hl))

theorem sameNumbers_of_read {rest : Bytes} (hs : frags.flatten = written conf ++ rest)
    (hread : configReadBlock n frags = some (.ok conf', left)) : SameNumbers conf conf' := by
  obtain ⟨gs, hwell, rfl, hfront⟩ := configReadBlock_sound hread
  rw [← fields_of_written hs hwell.inRange hfront]
  refine ⟨fun f => ?_, listenHead_fieldsOf (cutConfig conf)⟩
  rw [get_number_fieldsOf, get_number_cutConfig]

theorem numbersKept_iff {fs : List DirectiveText} (h : parse (fs.map lex) = .ok conf) :
    NumbersKept fs conf ↔ NumbersFit fs := by
  have hlexed := foldlM_lexed h
  have hhead : conf.listenHead = ((listens fs).map bound).reverse := by
    rw [hlexed.listenHead]
    exact List.append_nil _
  constructor
  · intro hkept
    refine ⟨(listenHead_iff hhead).mp hkept.listenHead, fun t ht => ?_⟩
    exact (hkept.admitted (.datasize, t) ht).2
  · intro hfit
    have hexact : ∀ x ∈ texts fs, (atol x.2).toInt = x.2.value := fun x hx =>
      (atol_exact_iff x.2).mpr (value_le_longMax hfit hx (hlexed.inRange x hx))
    refine ⟨hexact, fun x hx => ?_, fun k hset => ?_, fun l hl c => ?_,
      (listenHead_iff hhead).mpr hfit.ports, sentNumbers_eq conf, fun frags left rest n conf' => ?_⟩
    · rw [← hexact x hx]
      exact toScalar_inRange (hlexed.inRange x hx)
    · rcases hlexed.stored k hset with ⟨t, ht, hget⟩ | hsame
      · exact ⟨t, ht, by rw [hget]; exact hexact (k, t) ht⟩
      · have hempty : (k.get newConfig).isSet = false := by
          cases k with
          | field f => cases f <;> rfl
          | datasize => rfl
        rw [hsame, hempty] at hset
        cases hset
    · exact ⟨fun _ => hfit.ports l hl, fun _ => ⟨_, rfl⟩⟩
    · exact sameNumbers_of_read

/-! ### Numbers on a stream -/

def fieldPort : Field → Option (BitVec 64)
  | .listenAddr _ port => some port
  | _ => none

def sentPorts (gs : List Field) : List (BitVec 64) := gs.filterMap fieldPort

structure FieldsKept (gs : List Field) (conf : AgentConfig) : Prop where
  sent : ∀ f : NumberField, (f.get conf).isSet = true → .number f (f.get conf).value ∈ gs
  number : ∀ (f : NumberField) (n : BitVec 64), .number f n ∈ gs →
    f.get conf = ⟨true, n⟩ ∧ 0 ≤ n.toInt ∧ n.toInt ≤ f.maximum
  ports : conf.listenHead.map (fun l => l.port.toNat) = ((sentPorts gs).map BitVec.toNat).reverse

theorem map_listenOf (gs : List Field) :
    (gs.filterMap listenOf).map ListenAddress.port = (sentPorts gs).map (BitVec.setWidth 16) := by
  rw [sentPorts, List.map_filterMap, List.map_filterMap]
  refine List.filterMap_congr fun g _ => ?_
  cases g <;> rfl

/-- A number comes once. -/
theorem filterMap_numberOf {gs : List Field} (honce : (scalars gs).Nodup) {f : NumberField}
    {n : BitVec 64} (h : .number f n ∈ gs) : gs.filterMap (numberOf f) = [⟨true, n⟩] := by
  have hother : ∀ l : List Field, FieldKind.number f ∉ scalars l →
      l.filterMap (numberOf f) = [] := by
    intro l hnot
    rw [List.filterMap_eq_nil_iff]
    intro x hx
    cases x with
    | number g m =>
      refine if_neg fun hg => hnot (mem_scalars.mpr ⟨⟨_, hx, ?_⟩, rfl⟩)
      exact congrArg FieldKind.number hg
    | _ => rfl
  obtain ⟨before, after, rfl⟩ := List.append_of_mem h
  have hsplit : scalars (before ++ .number f n :: after) =
      scalars before ++ .number f :: scalars after := by
    rw [scalars, List.map_append, List.filter_append]
    rfl
  rw [hsplit, List.nodup_append, List.nodup_cons] at honce
  obtain ⟨-, ⟨hafter, -⟩, hdisjoint⟩ := honce
  have hbefore : FieldKind.number f ∉ scalars before := fun hmem =>
    hdisjoint _ hmem _ List.mem_cons_self rfl
  rw [List.filterMap_append, List.filterMap_cons, hother before hbefore, hother after hafter,
    numberOf, if_pos rfl]
  rfl

theorem fieldsKept_iff {gs : List Field} (hwell : WellFormed gs) :
    FieldsKept gs (gs.foldl Field.apply newConfig) ↔
      ∀ port ∈ sentPorts gs, IsPort port.toNat := by
  have hhead : (gs.foldl Field.apply newConfig).listenHead.map (fun l => l.port.toNat) =
      ((sentPorts gs).map fun port => (port.setWidth 16).toNat).reverse := by
    have hlisten : (gs.foldl Field.apply newConfig).listenHead =
        (gs.filterMap listenOf).reverse := by
      rw [foldl_collect listenHead_apply]
      exact List.append_nil _
    have hports := congrArg (List.map BitVec.toNat) (map_listenOf gs)
    rw [List.map_map, List.map_map] at hports
    rw [hlisten, List.map_reverse]
    exact congrArg List.reverse hports
  have hempty : ∀ f : NumberField, f.get newConfig = unset := by
    intro f
    cases f <;> rfl
  constructor
  · rintro ⟨-, -, hports⟩ port hport
    rw [hhead, List.reverse_inj, List.map_inj_left] at hports
    exact (read_port_exact_iff port).mp (hports port hport)
  · intro hall
    refine ⟨fun f hset => ?_, fun f n hn => ⟨?_, hwell.inRange _ hn⟩, ?_⟩
    · rw [get_number_foldl, hempty] at hset ⊢
      cases hlast : (gs.filterMap (numberOf f)).getLast? with
      | none =>
        rw [hlast] at hset
        cases hset
      | some s =>
        obtain ⟨x, hx, hs⟩ := List.mem_filterMap.mp (List.mem_of_getLast? hlast)
        cases x with
        | number g m =>
          rw [numberOf] at hs
          split_ifs at hs with hg
          rw [← hg, Option.getD_some, ← Option.some.inj hs]
          exact hx
        | _ => cases hs
    · rw [get_number_foldl, filterMap_numberOf hwell.once hn]
      rfl
    · rw [hhead, List.reverse_inj, List.map_inj_left]
      exact fun port hport => (read_port_exact_iff port).mpr (hall port hport)

/-- Numbers keep their value on both sides exactly when every port is one and the size of the
database is a `long`. -/
theorem numbers_kept_iff {fs : List DirectiveText} (h : parse (fs.map lex) = .ok conf)
    (hread : configReadBlock n frags = some (.ok conf', left)) :
    (NumbersKept fs conf ↔ NumbersFit fs) ∧
      ∃ gs, frags.flatten = (streamPieces gs).flatten ++ left.flatten ∧
        (FieldsKept gs conf' ↔ ∀ port ∈ sentPorts gs, IsPort port.toNat) := by
  obtain ⟨gs, hwell, rfl, hfront⟩ := configReadBlock_sound hread
  exact ⟨numbersKept_iff h, gs, hfront.flatten, fieldsKept_iff hwell⟩

def smallFile : List DirectiveText :=
  [.loglevel ⟨false, [3], by decide⟩, .datasize ⟨false, [1, 0, 0, 0, 0, 0, 0], by decide⟩,
    .listen 0x7F000001 ⟨false, [0, 4, 9, 3, 1], by decide⟩,
    .canonization [.maxMilliseconds ⟨false, [5, 0, 0], by decide⟩], .plain (.secret smallName) rfl]

def smallFileConfig : AgentConfig :=
  { newConfig with
    loglevel := ⟨true, 3⟩
    databaseMaxSize := ⟨true, 1000000⟩
    blockMaxMilliseconds := ⟨true, 500⟩
    listenHead := [⟨0x7F000001, 4931⟩]
    secret := some smallName }

theorem small_numbers_are_kept :
    NumbersKept smallFile smallFileConfig ∧ ∃ conf' left gs,
      configReadBlock 20 [written smallFileConfig] = some (.ok conf', left) ∧
        [written smallFileConfig].flatten = (streamPieces gs).flatten ++ left.flatten ∧
          (FieldsKept gs conf' ↔ ∀ port ∈ sentPorts gs, IsPort port.toNat) := by
  have hparse : parse (smallFile.map lex) = .ok smallFileConfig := rfl
  have hread : configReadBlock 20 [written smallFileConfig] =
      some (.ok { smallFileConfig with databaseMaxSize := unset }, []) := by
    decide +kernel
  have hports : ∀ l ∈ listens smallFile, IsPort l.2.value := by decide
  have hlong : ∀ x ∈ texts smallFile, x.2.value ≤ longMax := by decide
  obtain ⟨hiff, gs, hstream, hkept⟩ := numbers_kept_iff hparse hread
  have hfit : NumbersFit smallFile := ⟨hports, fun t ht => hlong _ ht⟩
  exact ⟨hiff.mpr hfit, _, _, gs, hread, hstream, hkept⟩

def wrappedFile : List DirectiveText :=
  [.listen 0x7F000001 ⟨false, [6, 5, 6, 1, 6], by decide⟩,
    .datasize ⟨false, List.replicate 20 9, by decide⟩]

def wrappedConfig : AgentConfig :=
  { newConfig with
    databaseMaxSize := ⟨true, 9223372036854775807⟩
    listenHead := [⟨0x7F000001, 80⟩] }

/-- A port is wrapped by the parser and by the reader, and a size is cut by the lexer. -/
theorem wrapped_port_is_accepted :
    parse (wrappedFile.map lex) = .ok wrappedConfig ∧
      (configReadBlock 20 [(streamPieces [.listenAddr (inetNtop 0x7F000001) 65616]).flatten]).map
        Prod.fst = some (.ok { newConfig with listenHead := [⟨0x7F000001, 80⟩] }) ∧
      ¬ ∀ (fs : List DirectiveText) (conf : AgentConfig), parse (fs.map lex) = .ok conf →
        NumbersKept fs conf := by
  have hparse : parse (wrappedFile.map lex) = .ok wrappedConfig := rfl
  refine ⟨hparse, by decide +kernel, fun hall => ?_⟩
  have hports := (hall wrappedFile wrappedConfig hparse).listenHead
  exact absurd hports (by decide)

end ConfigNumbers
