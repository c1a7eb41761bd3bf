import Mathlib.Data.List.Forall2
import Mathlib.Data.List.Nodup
import Agentd.ConfigRoundTrip

/-! # What the parser makes of a configuration file

A file is a sequence of settings and blocks, which are folded into a configuration one by one. The
flags of a canonization block replace those of the configuration, so that a block takes back what an
earlier one has set. -/
namespace ConfigFolding

open DataserviceRecords (Uuid)
open TypedIpc
open ConfigBlock
open ConfigRoundTrip

variable {cfg cfg' conf conf' : AgentConfig} {ds ds' : List Directive} {d d' : Directive}

/-! ### Scalar settings -/

inductive Scalar where
  | string (f : StringField) (s : CString)
  | number (f : NumberField) (n : BitVec 64)
  | datasize (n : BitVec 64)
  | usergroup (u : UserGroup)
  deriving DecidableEq

inductive ScalarName where
  | string (f : StringField)
  | number (f : NumberField)
  | datasize
  | usergroup
  deriving DecidableEq

namespace ScalarName

def isSet (cfg : AgentConfig) : ScalarName → Bool
  | string f => (f.get cfg).isSome
  | number f => (f.get cfg).isSet
  | datasize => cfg.databaseMaxSize.isSet
  | usergroup => cfg.usergroup.isSome

end ScalarName

namespace Scalar

def name : Scalar → ScalarName
  | string f _ => .string f
  | number f _ => .number f
  | datasize _ => .datasize
  | usergroup _ => .usergroup

def InRange : Scalar → Prop
  | number f n => 0 ≤ n.toInt ∧ n.toInt ≤ f.maximum
  | datasize n => 0 < n.toInt
  | _ => True

def put (cfg : AgentConfig) : Scalar → AgentConfig
  | string f s => f.set cfg s
  | number f n => f.set cfg n
  | datasize n => { cfg with databaseMaxSize := ⟨true, n⟩ }
  | usergroup u => { cfg with usergroup := some u }

def Stored (cfg : AgentConfig) : Scalar → Prop
  | string f s => f.get cfg = some s
  | number f n => f.get cfg = ⟨true, n⟩
  | datasize n => cfg.databaseMaxSize = ⟨true, n⟩
  | usergroup u => cfg.usergroup = some u

def current (cfg : AgentConfig) : ScalarName → Option Scalar
  | .string f => (f.get cfg).map (.string f)
  | .number f => if (f.get cfg).isSet then some (.number f (f.get cfg).value) else none
  | .datasize => if cfg.databaseMaxSize.isSet then some
    (.datasize cfg.databaseMaxSize.value) else none
  | .usergroup => cfg.usergroup.map .usergroup

variable {x y : Scalar}

theorem setting_iff {α : Type} {s : Setting} {n : BitVec 64} {g : BitVec 64 → α}
    (hg : Function.Injective g) :
    s = ⟨true, n⟩ ↔ (if s.isSet then some (g s.value) else none) = some (g n) := by
  constructor
  · rintro rfl
    rfl
  · intro h
    split at h
    · rename_i hset
      have hvalue := hg (Option.some.inj h)
      rw [← hset, ← hvalue]
    · cases h

theorem stored_iff : x.Stored cfg ↔ current cfg x.name = some x := by
  cases x with
  | string f s =>
    have hinj : Function.Injective (Scalar.string f) := fun _ _ h => (Scalar.string.inj h).2
    exact (Option.map_injective hinj).eq_iff.symm
  | number f n => exact setting_iff fun _ _ h => (Scalar.number.inj h).2
  | datasize n => exact setting_iff fun _ _ h => Scalar.datasize.inj h
  | usergroup u =>
    have hinj : Function.Injective Scalar.usergroup := fun _ _ h => Scalar.usergroup.inj h
    exact (Option.map_injective hinj).eq_iff.symm

theorem isSet_eq (cfg : AgentConfig) (k : ScalarName) : k.isSet cfg = (current cfg k).isSome := by
  cases k with
  | string f => exact Option.isSome_map.symm
  | number f =>
    rw [ScalarName.isSet, current]
    cases (f.get cfg).isSet <;> rfl
  | datasize =>
    rw [ScalarName.isSet, current]
    cases cfg.databaseMaxSize.isSet <;> rfl
  | usergroup => exact Option.isSome_map.symm

theorem current_put_self (cfg : AgentConfig) (x : Scalar) :
    current (x.put cfg) x.name = some x := by
  cases x with
  | string f s => cases f <;> rfl
  | number f n => cases f <;> rfl
  | datasize n => rfl
  | usergroup u => rfl

/-- The other settings stay as they are. -/
theorem current_put_of_ne {k : ScalarName} (hne : k ≠ x.name) :
    current (x.put cfg) k = current cfg k := by
  cases x with
  | string g t =>
    cases k with
    | string f =>
      have hfg : f ≠ g := fun heq => hne (congrArg ScalarName.string heq)
      cases f <;> cases g <;> first | rfl | exact absurd rfl hfg
    | number f => cases f <;> cases g <;> rfl
    | _ => cases g <;> rfl
  | number g m =>
    cases k with
    | string f => cases f <;> cases g <;> rfl
    | number f =>
      have hfg : f ≠ g := fun heq => hne (congrArg ScalarName.number heq)
      cases f <;> cases g <;> first | rfl | exact absurd rfl hfg
    | _ => cases g <;> rfl
  | datasize m =>
    cases k with
    | string f => cases f <;> rfl
    | number f => cases f <;> rfl
    | datasize => exact absurd rfl hne
    | usergroup => rfl
  | usergroup v =>
    cases k with
    | string f => cases f <;> rfl
    | number f => cases f <;> rfl
    | datasize => rfl
    | usergroup => exact absurd rfl hne

theorem isSet_put (cfg : AgentConfig) (x : Scalar) (k : ScalarName) :
    k.isSet (x.put cfg) = true ↔ k = x.name ∨ k.isSet cfg = true := by
  rw [isSet_eq, isSet_eq]
  by_cases hk : k = x.name
  · rw [hk, current_put_self]
    exact ⟨fun _ => Or.inl rfl, fun _ => rfl⟩
  · rw [current_put_of_ne hk]
    exact (or_iff_right hk).symm

theorem Stored.put_of_ne (h : x.Stored cfg) (hne : x.name ≠ y.name) : x.Stored (y.put cfg) := by
  rw [stored_iff] at h ⊢
  rw [current_put_of_ne hne, h]

/-- Different settings may change places. -/
theorem put_comm (cfg : AgentConfig) (hne : x.name ≠ y.name) :
    y.put (x.put cfg) = x.put (y.put cfg) := by
  cases x with
  | string f s =>
    cases y with
    | string g t =>
      have hfg : f ≠ g := fun heq => hne (congrArg ScalarName.string heq)
      cases f <;> cases g <;> first | rfl | exact absurd rfl hfg
    | number g n => cases f <;> cases g <;> rfl
    | _ => cases f <;> rfl
  | number f n =>
    cases y with
    | string g t => cases f <;> cases g <;> rfl
    | number g m =>
      have hfg : f ≠ g := fun heq => hne (congrArg ScalarName.number heq)
      cases f <;> cases g <;> first | rfl | exact absurd rfl hfg
    | _ => cases f <;> rfl
  | datasize n =>
    cases y with
    | string g t => cases g <;> rfl
    | number g m => cases g <;> rfl
    | datasize m => exact absurd rfl hne
    | usergroup u => rfl
  | usergroup u =>
    cases y with
    | string g t => cases g <;> rfl
    | number g m => cases g <;> rfl
    | datasize m => rfl
    | usergroup v => exact absurd rfl hne

end Scalar

/-! ### Sequences of settings -/

/-- Settings that are taken one after the other: each is in its range and not set before. -/
def Fits (cfg : AgentConfig) : List Scalar → Prop
  | [] => True
  | x :: xs => x.name.isSet cfg = false ∧ x.InRange ∧ Fits (x.put cfg) xs

theorem fits_iff (cfg : AgentConfig) (xs : List Scalar) :
    Fits cfg xs ↔ (xs.map Scalar.name).Nodup ∧
      ∀ x ∈ xs, x.name.isSet cfg = false ∧ x.InRange := by
  induction xs generalizing cfg with
  | nil => simp [Fits]
  | cons x xs ih =>
    rw [Fits, ih, List.map_cons, List.nodup_cons, List.forall_mem_cons]
    have hstep : ∀ y : Scalar, y.name.isSet (x.put cfg) = false ↔
        y.name ≠ x.name ∧ y.name.isSet cfg = false := by
      intro y
      rw [← Bool.not_eq_true, ← Bool.not_eq_true, Scalar.isSet_put, not_or]
    constructor
    · rintro ⟨hfree, hin, hnodup, hall⟩
      refine ⟨⟨?_, hnodup⟩, ⟨hfree, hin⟩, ?_⟩
      · intro hmem
        obtain ⟨y, hy, hname⟩ := List.mem_map.mp hmem
        exact ((hstep y).mp (hall y hy).1).1 hname
      · intro y hy
        exact ⟨((hstep y).mp (hall y hy).1).2, (hall y hy).2⟩
    · rintro ⟨⟨hnot, hnodup⟩, ⟨hfree, hin⟩, hall⟩
      refine ⟨hfree, hin, hnodup, fun y hy => ⟨(hstep y).mpr ⟨?_, (hall y hy).1⟩, (hall y hy).2⟩⟩
      intro hname
      exact hnot (hname ▸ List.mem_map_of_mem hy)

theorem Fits.perm {xs ys : List Scalar} (h : Fits cfg xs) (hperm : xs.Perm ys) : Fits cfg ys := by
  rw [fits_iff] at h ⊢
  exact ⟨((hperm.map Scalar.name).nodup_iff).mp h.1, fun x hx => h.2 x (hperm.mem_iff.mpr hx)⟩

theorem foldl_put_perm {xs ys : List Scalar} (hperm : xs.Perm ys)
    (hnodup : (xs.map Scalar.name).Nodup) (cfg : AgentConfig) :
    xs.foldl Scalar.put cfg = ys.foldl Scalar.put cfg := by
  refine hperm.foldl_eq' (fun x hx y hy c => ?_) cfg
  by_cases hxy : x = y
  · rw [hxy]
  · exact Scalar.put_comm c fun hname => hxy (List.inj_on_of_nodup_map hnodup hx hy hname)

/-- Settings with different names are all stored. -/
theorem stored_foldl {xs : List Scalar} (hnodup : (xs.map Scalar.name).Nodup) (cfg : AgentConfig) :
    ∀ x ∈ xs, x.Stored (xs.foldl Scalar.put cfg) := by
  have hkeep : ∀ (ys : List Scalar) (c : AgentConfig) (x : Scalar), x.Stored c →
      x.name ∉ ys.map Scalar.name → x.Stored (ys.foldl Scalar.put c) := by
    intro ys
    induction ys with
    | nil => exact fun c x h _ => h
    | cons y ys ih =>
      intro c x h hnot
      rw [List.map_cons, List.mem_cons, not_or] at hnot
      exact ih _ x (h.put_of_ne hnot.1) hnot.2
  induction xs generalizing cfg with
  | nil =>
    intro x hx
    cases hx
  | cons y xs ih =>
    intro x hx
    rw [List.map_cons, List.nodup_cons] at hnodup
    rcases List.mem_cons.mp hx with rfl | hrest
    · exact hkeep xs _ x (Scalar.stored_iff.mpr (Scalar.current_put_self cfg x)) hnodup.1
    · exact ih hnodup.2 _ x hrest

/-! ### Files -/

def itemScalar : CanonizationItem → Scalar
  | .maxMilliseconds n => .number .blockMaxMilliseconds n
  | .maxTransactions n => .number .blockMaxTransactions n

def directiveScalars : Directive → List Scalar
  | .logdir s => [.string .logdir s]
  | .loglevel n => [.number .loglevel n]
  | .datasize n => [.datasize n]
  | .secret s => [.string .secret s]
  | .rootblock s => [.string .rootblock s]
  | .datastore s => [.string .datastore s]
  | .chroot s => [.string .chroot s]
  | .usergroup user group => [.usergroup ⟨user, group⟩]
  | .canonization items => items.map itemScalar
  | .privateKey path => [.string .privateKey path]
  | .endorserKey path => [.string .endorserKey path]
  | .listen _ _ => []
  | .view _ _ => []
  | .publicKeys _ => []

def settings (ds : List Directive) : List Scalar := ds.flatMap directiveScalars

def isEntry : Directive → Bool
  | .listen _ _ => true
  | .view _ _ => true
  | .publicKeys _ => true
  | _ => false

def entries (ds : List Directive) : List Directive := ds.filter isEntry

def canonizationItems : Directive → Option (List CanonizationItem)
  | .canonization items => some items
  | _ => none

def canonizations (ds : List Directive) : List (List CanonizationItem) :=
  ds.filterMap canonizationItems

/-- Only the last canonization block of a file sets anything. -/
def CanonizedLast (ds : List Directive) : Prop := ∀ items ∈ (canonizations ds).dropLast, items = []

theorem settings_cons (d : Directive) (ds : List Directive) :
    settings (d :: ds) = directiveScalars d ++ settings ds := List.flatMap_cons

/-! ### One directive -/

theorem addOnce_iff {α : Type} {message : String} {old : Option α} {a : α}
    {f : Option α → AgentConfig} :
    (do let x ← addOnce message old a; pure (f x)) = (.ok cfg' : Except String AgentConfig) ↔
      old.isSome = false ∧ True ∧ cfg' = f (some a) := by
  rw [addOnce]
  cases hold : old.isSome with
  | true =>
    constructor
    · intro h
      cases h
    · rintro ⟨hfree, -⟩
      cases hfree
  | false =>
    constructor
    · intro h
      exact ⟨rfl, trivial, (Except.ok.inj h).symm⟩
    · rintro ⟨-, -, rfl⟩
      rfl

theorem addNumber_ok_iff {duplicate range : String} {low high : ℤ} {old s : Setting}
    {n : BitVec 64} :
    addNumber duplicate range low high old n = .ok s ↔
      old.isSet = false ∧ (low ≤ n.toInt ∧ n.toInt ≤ high) ∧ s = ⟨true, n⟩ := by
  rw [addNumber]
  constructor
  · intro h
    split_ifs at h with hset hrange
    rw [not_or, Int.not_lt, Int.not_lt] at hrange
    exact ⟨Bool.eq_false_iff.mpr hset, hrange, (Except.ok.inj h).symm⟩
  · rintro ⟨hfree, hrange, rfl⟩
    rw [if_neg (by rw [hfree]; exact Bool.false_ne_true), if_neg]
    rw [not_or, Int.not_lt, Int.not_lt]
    exact hrange

theorem addNumber_iff {α : Type} {duplicate range : String} {low high : ℤ} {old : Setting}
    {n : BitVec 64} {f : Setting → α} {a : α} :
    (do let s ← addNumber duplicate range low high old n; pure (f s)) = (.ok a : Except String α) ↔
      old.isSet = false ∧ (low ≤ n.toInt ∧ n.toInt ≤ high) ∧ a = f ⟨true, n⟩ := by
  constructor
  · intro h
    obtain ⟨s, hs, rfl⟩ := map_ok h
    obtain ⟨hfree, hrange, rfl⟩ := addNumber_ok_iff.mp hs
    exact ⟨hfree, hrange, rfl⟩
  · rintro ⟨hfree, hrange, rfl⟩
    rw [addNumber_ok_iff.mpr ⟨hfree, hrange, rfl⟩]
    rfl

theorem addDirective_scalar {x : Scalar} (hcanon : canonizationItems d = none)
    (hd : directiveScalars d = [x]) :
    addDirective cfg d = .ok cfg' ↔ x.name.isSet cfg = false ∧ x.InRange ∧ cfg' = x.put cfg := by
  cases d with
  | canonization items => cases hcanon
  | listen addr port => cases hd
  | view name artifacts => cases hd
  | publicKeys paths => cases hd
  | loglevel n =>
    obtain rfl := List.head_eq_of_cons_eq hd
    exact addNumber_iff
  | datasize n =>
    obtain rfl := List.head_eq_of_cons_eq hd
    have hmax : n.toInt ≤ 2 ^ 63 - 1 := Int.le_sub_one_of_lt BitVec.toInt_lt
    rw [addDirective, addNumber_iff]
    constructor
    · rintro ⟨hfree, ⟨hlow, -⟩, rfl⟩
      exact ⟨hfree, Int.lt_of_add_one_le hlow, rfl⟩
    · rintro ⟨hfree, hlow, rfl⟩
      exact ⟨hfree, ⟨Int.add_one_le_of_lt hlow, hmax⟩, rfl⟩
  | _ =>
    obtain rfl := List.head_eq_of_cons_eq hd
    exact addOnce_iff

theorem bind_ok_iff {ε α β : Type} {x : Except ε α} {f : α → Except ε β} {b : β} :
    (x >>= f) = .ok b ↔ ∃ a, x = .ok a ∧ f a = .ok b := by
  cases x with
  | error e =>
    constructor
    · intro h
      cases h
    · rintro ⟨a, ha, -⟩
      cases ha
  | ok a =>
    constructor
    · intro h
      exact ⟨a, rfl, h⟩
    · rintro ⟨a', ha, h⟩
      obtain rfl := Except.ok.inj ha
      exact h

theorem fits_append (cfg : AgentConfig) (xs ys : List Scalar) :
    Fits cfg (xs ++ ys) ↔ Fits cfg xs ∧ Fits (xs.foldl Scalar.put cfg) ys := by
  induction xs generalizing cfg with
  | nil => exact (iff_of_eq (true_and _)).symm
  | cons x xs ih => rw [List.cons_append, Fits, Fits, ih, List.foldl_cons, and_assoc, and_assoc]

/-! ### Canonization blocks -/

/-- A number that is not set has no value. -/
def Clean (s : Setting) : Prop := s.isSet = false → s = unset

structure NotCanonized (cfg : AgentConfig) : Prop where
  milliseconds : cfg.blockMaxMilliseconds = unset
  transactions : cfg.blockMaxTransactions = unset

theorem addCanonizationItem_iff {c : AgentConfig} {item : CanonizationItem} {b : Canonization} :
    addCanonizationItem ⟨c.blockMaxMilliseconds, c.blockMaxTransactions⟩ item = .ok b ↔
      (itemScalar item).name.isSet c = false ∧ (itemScalar item).InRange ∧
        b = ⟨((itemScalar item).put c).blockMaxMilliseconds,
          ((itemScalar item).put c).blockMaxTransactions⟩ := by
  cases item with
  | maxMilliseconds n => exact addNumber_iff
  | maxTransactions n => exact addNumber_iff

theorem addCanonizationItems_iff {c : AgentConfig} {items : List CanonizationItem}
    {b : Canonization} :
    items.foldlM addCanonizationItem ⟨c.blockMaxMilliseconds, c.blockMaxTransactions⟩ = .ok b ↔
      Fits c (items.map itemScalar) ∧
        b = ⟨((items.map itemScalar).foldl Scalar.put c).blockMaxMilliseconds,
          ((items.map itemScalar).foldl Scalar.put c).blockMaxTransactions⟩ := by
  induction items generalizing c with
  | nil =>
    constructor
    · intro h
      exact ⟨trivial, (Except.ok.inj h).symm⟩
    · rintro ⟨-, rfl⟩
      rfl
  | cons item items ih =>
    rw [List.foldlM_cons, bind_ok_iff, List.map_cons, Fits, List.foldl_cons]
    constructor
    · rintro ⟨a, ha, hrest⟩
      obtain ⟨hfree, hin, rfl⟩ := addCanonizationItem_iff.mp ha
      obtain ⟨hfits, hb⟩ := ih.mp hrest
      exact ⟨⟨hfree, hin, hfits⟩, hb⟩
    · rintro ⟨⟨hfree, hin, hfits⟩, hb⟩
      exact ⟨_, addCanonizationItem_iff.mpr ⟨hfree, hin, rfl⟩, ih.mpr ⟨hfits, hb⟩⟩

/-- Only the two numbers change. -/
theorem foldl_items_eq (items : List CanonizationItem) (c : AgentConfig) :
    (items.map itemScalar).foldl Scalar.put c =
      let folded := (items.map itemScalar).foldl Scalar.put c
      { c with
        blockMaxMilliseconds := folded.blockMaxMilliseconds
        blockMaxTransactions := folded.blockMaxTransactions } := by
  induction items generalizing c with
  | nil => rfl
  | cons item items ih =>
    rw [List.map_cons, List.foldl_cons, ih]
    cases item <;> rfl

theorem clean_foldl_items {c : AgentConfig} (items : List CanonizationItem)
    (hms : Clean c.blockMaxMilliseconds) (htx : Clean c.blockMaxTransactions) :
    Clean ((items.map itemScalar).foldl Scalar.put c).blockMaxMilliseconds ∧
      Clean ((items.map itemScalar).foldl Scalar.put c).blockMaxTransactions := by
  induction items generalizing c with
  | nil => exact ⟨hms, htx⟩
  | cons item items ih =>
    rw [List.map_cons, List.foldl_cons]
    cases item with
    | maxMilliseconds n => exact ih (fun h => by cases h) htx
    | maxTransactions n => exact ih hms fun h => by cases h

theorem foldSetting_unset {duplicate : String} {new : Setting} (h : Clean new) :
    foldSetting duplicate unset new = .ok new := by
  rw [foldSetting]
  cases hset : new.isSet with
  | false =>
    rw [h hset]
    rfl
  | true =>
    have heq : (⟨true, new.value⟩ : Setting) = new := by rw [← hset]
    exact congrArg Except.ok heq

structure Folded (new s : Setting) : Prop where
  isSet : s.isSet = new.isSet
  value : s.isSet = true → s = new

theorem foldSetting_folded {duplicate : String} {old new s : Setting}
    (h : foldSetting duplicate old new = .ok s) : Folded new s := by
  rw [foldSetting] at h
  split at h
  · cases h
  · rw [← Except.ok.inj h]
    refine ⟨rfl, fun hset => ?_⟩
    rw [hset, if_pos rfl, ← hset]

/-- What an accepted block does to whatever configuration: it replaces the two numbers. -/
theorem canonization_ok {items : List CanonizationItem}
    (h : addDirective cfg (.canonization items) = .ok cfg') :
    Fits newConfig (items.map itemScalar) ∧ ∃ ms tx,
      Folded ((items.map itemScalar).foldl Scalar.put newConfig).blockMaxMilliseconds ms ∧
        Folded ((items.map itemScalar).foldl Scalar.put newConfig).blockMaxTransactions tx ∧
          cfg' = { cfg with blockMaxMilliseconds := ms, blockMaxTransactions := tx } := by
  rw [addDirective, bind_ok_iff] at h
  obtain ⟨b, hb, hfold⟩ := h
  obtain ⟨hfits, rfl⟩ := addCanonizationItems_iff (c := newConfig).mp hb
  rw [foldCanonization, bind_ok_iff] at hfold
  obtain ⟨ms, hms, hfold⟩ := hfold
  obtain ⟨tx, htx, rfl⟩ := map_ok hfold
  exact ⟨hfits, ms, tx, foldSetting_folded hms, foldSetting_folded htx, rfl⟩

/-- A block on a configuration without its numbers. -/
theorem addDirective_canonization (hcfg : NotCanonized cfg) {items : List CanonizationItem} :
    addDirective cfg (.canonization items) = .ok cfg' ↔
      Fits cfg (items.map itemScalar) ∧ cfg' = (items.map itemScalar).foldl Scalar.put cfg := by
  have hitems : ∀ b : Canonization, items.foldlM addCanonizationItem ⟨unset, unset⟩ = .ok b ↔
      Fits cfg (items.map itemScalar) ∧
        b = ⟨((items.map itemScalar).foldl Scalar.put cfg).blockMaxMilliseconds,
          ((items.map itemScalar).foldl Scalar.put cfg).blockMaxTransactions⟩ := by
    intro b
    rw [← addCanonizationItems_iff, hcfg.milliseconds, hcfg.transactions]
  have hclean := clean_foldl_items (c := cfg) items (fun _ => hcfg.milliseconds)
    fun _ => hcfg.transactions
  rw [addDirective, bind_ok_iff]
  have hfold : foldCanonization cfg
      ⟨((items.map itemScalar).foldl Scalar.put cfg).blockMaxMilliseconds,
        ((items.map itemScalar).foldl Scalar.put cfg).blockMaxTransactions⟩ =
      .ok ((items.map itemScalar).foldl Scalar.put cfg) := by
    rw [foldCanonization, hcfg.milliseconds, hcfg.transactions, foldSetting_unset hclean.1,
      foldSetting_unset hclean.2]
    exact congrArg Except.ok (foldl_items_eq items cfg).symm
  constructor
  · rintro ⟨b, hb, hok⟩
    obtain ⟨hfits, rfl⟩ := (hitems b).mp hb
    rw [hfold] at hok
    exact ⟨hfits, (Except.ok.inj hok).symm⟩
  · rintro ⟨hfits, rfl⟩
    exact ⟨_, (hitems _).mpr ⟨hfits, rfl⟩, hfold⟩

/-! ### The whole file -/

theorem get_put_of_ne {x : Scalar} (f : NumberField) (hne : x.name ≠ .number f) :
    f.get (x.put cfg) = f.get cfg := by
  cases x with
  | string g s => cases f <;> cases g <;> rfl
  | number g n =>
    have hfg : g ≠ f := fun heq => hne (congrArg ScalarName.number heq)
    cases f <;> cases g <;> first | rfl | exact absurd rfl hfg
  | _ => cases f <;> rfl

theorem directive_cases (d : Directive) :
    (isEntry d = true ∧ directiveScalars d = [] ∧ canonizationItems d = none) ∨
      (∃ items, d = .canonization items) ∨
        (isEntry d = false ∧ canonizationItems d = none ∧
          ∃ x, directiveScalars d = [x] ∧ x.name ≠ .number .blockMaxMilliseconds ∧
            x.name ≠ .number .blockMaxTransactions) := by
  cases d with
  | canonization items => exact Or.inr (Or.inl ⟨items, rfl⟩)
  | listen addr port => exact Or.inl ⟨rfl, rfl, rfl⟩
  | view name artifacts => exact Or.inl ⟨rfl, rfl, rfl⟩
  | publicKeys paths => exact Or.inl ⟨rfl, rfl, rfl⟩
  | _ =>
    refine Or.inr (Or.inr ⟨rfl, rfl, _, rfl, ?_, ?_⟩)
    · intro h
      cases h
    · intro h
      cases h

/-- A directive that sets something, before any canonization block has. -/
theorem addDirective_settings (hentry : isEntry d = false)
    (hcfg : canonizationItems d ≠ none → NotCanonized cfg) :
    addDirective cfg d = .ok cfg' ↔
      Fits cfg (directiveScalars d) ∧ cfg' = (directiveScalars d).foldl Scalar.put cfg := by
  rcases directive_cases d with ⟨htrue, -⟩ | ⟨items, rfl⟩ | ⟨-, hcanon, x, hx, -⟩
  · rw [hentry] at htrue
    cases htrue
  · exact addDirective_canonization (hcfg (Option.some_ne_none items))
  · rw [addDirective_scalar hcanon hx, hx, Fits, Fits, and_true, List.foldl_cons, List.foldl_nil,
      and_assoc]

theorem put_listenHead (cfg : AgentConfig) (x : Scalar) (l : List ListenAddress) :
    x.put { cfg with listenHead := l ++ cfg.listenHead } =
      { x.put cfg with listenHead := l ++ (x.put cfg).listenHead } := by
  cases x with
  | string f s => cases f <;> rfl
  | number f n => cases f <;> rfl
  | _ => rfl

theorem put_publicKeyHead (cfg : AgentConfig) (x : Scalar) (l : List CString) :
    x.put { cfg with publicKeyHead := l ++ cfg.publicKeyHead } =
      { x.put cfg with publicKeyHead := l ++ (x.put cfg).publicKeyHead } := by
  cases x with
  | string f s => cases f <;> rfl
  | number f n => cases f <;> rfl
  | _ => rfl

theorem put_viewHead (cfg : AgentConfig) (x : Scalar) (l : List View) :
    (x.put cfg).viewHead = cfg.viewHead ∧
      x.put { cfg with viewHead := l } = { x.put cfg with viewHead := l } := by
  cases x with
  | string f s => cases f <;> exact ⟨rfl, rfl⟩
  | number f n => cases f <;> exact ⟨rfl, rfl⟩
  | _ => exact ⟨rfl, rfl⟩

/-- Entries have nothing to do with settings. -/
theorem addDirective_put (hentry : isEntry d = true) (x : Scalar) :
    addDirective (x.put cfg) d = (addDirective cfg d).map x.put := by
  cases d with
  | listen addr port =>
    exact congrArg Except.ok
      (put_listenHead cfg x [⟨addr, port.setWidth 16⟩]).symm
  | publicKeys paths => exact congrArg Except.ok (put_publicKeyHead cfg x paths.reverse).symm
  | view name artifacts =>
    rw [addDirective, addDirective]
    cases viewBlock name artifacts with
    | error e => rfl
    | ok view =>
      have hhead := (put_viewHead cfg x []).1
      simp only [hhead, bind, Except.bind]
      cases addDistinct "Duplicate materialized view names." View.name cfg.viewHead view with
      | error e => rfl
      | ok head => exact congrArg Except.ok (put_viewHead cfg x head).2.symm
  | _ => cases hentry

theorem foldlM_put {es : List Directive} (hes : ∀ e ∈ es, isEntry e = true) (x : Scalar) :
    es.foldlM addDirective (x.put cfg) = (es.foldlM addDirective cfg).map x.put := by
  induction es generalizing cfg with
  | nil => rfl
  | cons e es ih =>
    obtain ⟨he, hrest⟩ := List.forall_mem_cons.mp hes
    rw [List.foldlM_cons, List.foldlM_cons, addDirective_put he]
    cases addDirective cfg e with
    | error err => rfl
    | ok c => exact ih hrest

theorem foldlM_foldl_put {es : List Directive} (hes : ∀ e ∈ es, isEntry e = true)
    (xs : List Scalar) :
    es.foldlM addDirective (xs.foldl Scalar.put cfg) =
      (es.foldlM addDirective cfg).map fun c => xs.foldl Scalar.put c := by
  induction xs generalizing cfg with
  | nil =>
    rw [List.foldl_nil]
    cases es.foldlM addDirective cfg <;> rfl
  | cons x xs ih =>
    rw [List.foldl_cons, ih, foldlM_put hes]
    cases es.foldlM addDirective cfg <;> rfl

/-- What entries leave alone. -/
theorem entry_keeps (hentry : isEntry d = true) (h : addDirective cfg d = .ok cfg') :
    (∀ k : ScalarName, k.isSet cfg' = k.isSet cfg) ∧
      cfg'.blockMaxMilliseconds = cfg.blockMaxMilliseconds ∧
        cfg'.blockMaxTransactions = cfg.blockMaxTransactions := by
  have hkeep : ∀ (l : List ListenAddress) (v : List View) (p : List CString) (k : ScalarName),
      k.isSet { cfg with listenHead := l, viewHead := v, publicKeyHead := p } = k.isSet cfg := by
    intro l v p k
    cases k with
    | string f => cases f <;> rfl
    | number f => cases f <;> rfl
    | _ => rfl
  cases d with
  | listen addr port =>
    obtain rfl := Except.ok.inj h
    exact ⟨hkeep _ _ _, rfl, rfl⟩
  | publicKeys paths =>
    obtain rfl := Except.ok.inj h
    exact ⟨hkeep _ _ _, rfl, rfl⟩
  | view name artifacts =>
    rw [addDirective, bind_ok_iff] at h
    obtain ⟨view, -, hview⟩ := h
    obtain ⟨head, -, rfl⟩ := map_ok hview
    exact ⟨hkeep _ _ _, rfl, rfl⟩
  | _ => cases hentry

theorem fits_congr {xs : List Scalar} (h : ∀ k : ScalarName, k.isSet cfg' = k.isSet cfg) :
    Fits cfg' xs ↔ Fits cfg xs := by
  rw [fits_iff, fits_iff]
  simp only [h]

theorem entries_isEntry (ds : List Directive) : ∀ e ∈ entries ds, isEntry e = true :=
  fun _ he => (List.mem_filter.mp he).2

theorem canonizedLast_tail (h : CanonizedLast (d :: ds)) : CanonizedLast ds := by
  intro items hitems
  refine h items ?_
  rw [canonizations, List.filterMap_cons]
  cases canonizationItems d with
  | none => exact hitems
  | some first =>
    rw [List.dropLast_cons_of_ne_nil]
    · exact List.mem_cons_of_mem _ hitems
    · rintro hnil
      rw [canonizations, hnil] at hitems
      cases hitems

/-- A file in which only the last canonization block sets anything: its settings have to fit, its
entries have to be accepted on their own, and each has its own part of the result. -/
theorem foldlM_addDirective_iff (hlast : CanonizedLast ds)
    (hcfg : canonizations ds ≠ [] → NotCanonized cfg) :
    ds.foldlM addDirective cfg = .ok conf ↔ Fits cfg (settings ds) ∧
      ∃ mid, (entries ds).foldlM addDirective cfg = .ok mid ∧
        conf = (settings ds).foldl Scalar.put mid := by
  induction ds generalizing cfg with
  | nil =>
    constructor
    · intro h
      exact ⟨trivial, cfg, rfl, (Except.ok.inj h).symm⟩
    · rintro ⟨-, mid, hmid, rfl⟩
      exact hmid
  | cons d ds ih =>
    have hlast' := canonizedLast_tail hlast
    rw [List.foldlM_cons, bind_ok_iff, settings_cons]
    cases hentry : isEntry d with
    | true =>
      obtain ⟨hnone, hcanon⟩ : directiveScalars d = [] ∧ canonizationItems d = none := by
        rcases directive_cases d with ⟨-, hnone, hcanon⟩ | ⟨items, rfl⟩ | ⟨hfalse, -⟩
        · exact ⟨hnone, hcanon⟩
        · cases hentry
        · rw [hentry] at hfalse
          cases hfalse
      have hentries : entries (d :: ds) = d :: entries ds := List.filter_cons_of_pos hentry
      have hcanons : canonizations (d :: ds) = canonizations ds := by
        rw [canonizations, List.filterMap_cons, hcanon]
        rfl
      rw [hcanons] at hcfg
      rw [hnone, List.nil_append, hentries, List.foldlM_cons]
      have hstep : ∀ c : AgentConfig, addDirective cfg d = .ok c →
          (ds.foldlM addDirective c = .ok conf ↔ Fits cfg (settings ds) ∧
            ∃ mid, (entries ds).foldlM addDirective c = .ok mid ∧
              conf = (settings ds).foldl Scalar.put mid) := by
        intro c hc
        obtain ⟨hset, hms, htx⟩ := entry_keeps hentry hc
        rw [ih hlast' fun hne => ⟨hms.trans (hcfg hne).milliseconds,
          htx.trans (hcfg hne).transactions⟩, fits_congr hset]
      constructor
      · rintro ⟨c, hc, hrest⟩
        obtain ⟨hfits, mid, hmid, hconf⟩ := (hstep c hc).mp hrest
        exact ⟨hfits, mid, bind_ok_iff.mpr ⟨c, hc, hmid⟩, hconf⟩
      · rintro ⟨hfits, mid, hmid, hconf⟩
        obtain ⟨c, hc, hrest⟩ := bind_ok_iff.mp hmid
        exact ⟨c, hc, (hstep c hc).mpr ⟨hfits, mid, hrest, hconf⟩⟩
    | false =>
      have hentries : entries (d :: ds) = entries ds :=
        List.filter_cons_of_neg (by rw [hentry]; exact Bool.false_ne_true)
      have hthis : canonizationItems d ≠ none → NotCanonized cfg := by
        intro hd
        refine hcfg ?_
        rw [canonizations, List.filterMap_cons]
        cases hitems : canonizationItems d with
        | none => exact absurd hitems hd
        | some items => exact List.cons_ne_nil _ _
      -- a block with settings is the last one
      have hnext : canonizations ds ≠ [] →
          NotCanonized ((directiveScalars d).foldl Scalar.put cfg) := by
        intro hne
        rcases directive_cases d with ⟨htrue, -⟩ | ⟨items, rfl⟩ | ⟨-, hcanon, x, hx, hms, htx⟩
        · rw [hentry] at htrue
          cases htrue
        · have hempty : items = [] := by
            refine hlast items ?_
            have hcanons : canonizations (.canonization items :: ds) =
                items :: canonizations ds := rfl
            rw [hcanons, List.dropLast_cons_of_ne_nil hne]
            exact List.mem_cons_self
          rw [hempty]
          exact hthis (Option.some_ne_none items)
        · have hcanons : canonizations (d :: ds) = canonizations ds := by
            rw [canonizations, List.filterMap_cons, hcanon]
            rfl
          rw [hcanons] at hcfg
          rw [hx]
          exact ⟨(get_put_of_ne .blockMaxMilliseconds hms).trans (hcfg hne).milliseconds,
            (get_put_of_ne .blockMaxTransactions htx).trans (hcfg hne).transactions⟩
      rw [fits_append, hentries]
      simp only [List.foldl_append]
      have hmap : (entries ds).foldlM addDirective ((directiveScalars d).foldl Scalar.put cfg) =
          ((entries ds).foldlM addDirective cfg).map fun c =>
            (directiveScalars d).foldl Scalar.put c :=
        foldlM_foldl_put (entries_isEntry ds) (directiveScalars d)
      constructor
      · rintro ⟨c, hc, hrest⟩
        obtain ⟨hfits, rfl⟩ := (addDirective_settings hentry hthis).mp hc
        obtain ⟨hfits', mid, hmid, rfl⟩ := (ih hlast' hnext).mp hrest
        rw [hmap] at hmid
        obtain ⟨mid', hmid', rfl⟩ := map_ok hmid
        exact ⟨⟨hfits, hfits'⟩, mid', hmid', rfl⟩
      · rintro ⟨⟨hfits, hfits'⟩, mid, hmid, rfl⟩
        refine ⟨_, (addDirective_settings hentry hthis).mpr ⟨hfits, rfl⟩, (ih hlast' hnext).mpr
          ⟨hfits', _, ?_, rfl⟩⟩
        rw [hmap, hmid]
        rfl

theorem parse_ok_iff (hlast : CanonizedLast ds) :
    parse ds = .ok conf ↔ Fits newConfig (settings ds) ∧
      ∃ base, parse (entries ds) = .ok base ∧ conf = (settings ds).foldl Scalar.put base :=
  foldlM_addDirective_iff hlast fun _ => ⟨rfl, rfl⟩

end ConfigFolding
