import Agentd.ConfigFolding

/-! # Which settings of a file are kept

A file keeps its settings, whatever their order and their distribution over canonization blocks,
when only the last canonization block sets anything and no transaction of a view has two blocks of
flags. -/
namespace KeptSettings

open DataserviceRecords (Uuid)
open TypedIpc
open ConfigBlock
open ConfigRoundTrip
open ConfigFolding

variable {cfg cfg' conf conf' : AgentConfig} {ds ds' : List Directive} {d d' : Directive}

/-! ### Transactions of a view -/

def itemCrud : TransactionItem → Option (List Crud)
  | .artifactCrud crud => some crud
  | .field _ => none

def itemField : TransactionItem → Option FieldBlock
  | .artifactCrud _ => none
  | .field f => some f

def artifactCruds (t : TransactionBlock) : List (List Crud) := t.items.filterMap itemCrud

def fieldBlocks (t : TransactionBlock) : List FieldBlock := t.items.filterMap itemField

/-- The last flags win. -/
def lastFlags (flags : BitVec 32) (cruds : List (List Crud)) : BitVec 32 :=
  (cruds.map crudFlags).getLast?.getD flags

def addField (head : List FieldType) (f : FieldBlock) : Except String (List FieldType) :=
  addDistinct "Duplicate field types." FieldType.fieldCode head (viewField f)

/-- Flags and fields have nothing to do with each other. -/
theorem foldlM_items {step : TransactionType → TransactionItem → Except String TransactionType}
    (hcrud : ∀ t crud, step t (.artifactCrud crud) =
    .ok { t with artifactCrudFlags := crudFlags crud })
    (hfield : ∀ t f, step t (.field f) =
      (addField t.fieldHead f).map fun head => { t with fieldHead := head })
    (items : List TransactionItem) (flags : BitVec 32) (head : List FieldType) :
    items.foldlM step ⟨0, flags, head⟩ = ((items.filterMap itemField).foldlM addField head).map
      fun head => ⟨0, lastFlags flags (items.filterMap itemCrud), head⟩ := by
  induction items generalizing flags head with
  | nil => rfl
  | cons item items ih =>
    rw [List.foldlM_cons]
    cases item with
    | artifactCrud crud =>
      have hlast : lastFlags flags
          ((TransactionItem.artifactCrud crud :: items).filterMap itemCrud) =
          lastFlags (crudFlags crud) (items.filterMap itemCrud) := by
        have hcons : (TransactionItem.artifactCrud crud :: items).filterMap itemCrud =
            crud :: items.filterMap itemCrud := List.filterMap_cons_some rfl
        rw [lastFlags, lastFlags, hcons, List.map_cons, List.getLast?_cons, Option.getD_some]
      rw [hcrud, hlast]
      exact ih (crudFlags crud) head
    | field f =>
      have hfields : (TransactionItem.field f :: items).filterMap itemField =
          f :: items.filterMap itemField := List.filterMap_cons_some rfl
      rw [hfield, hfields, List.foldlM_cons]
      cases addField head f with
      | error e => rfl
      | ok head' => exact ih flags head'

theorem viewTransaction_eq (t : TransactionBlock) : viewTransaction t =
    ((fieldBlocks t).foldlM addField []).map fun head =>
      ⟨t.uuid, lastFlags 0 (artifactCruds t), head⟩ := by
  have hfield : ∀ (t : TransactionType) (f : FieldBlock),
      (do let head ← addDistinct "Duplicate field types." FieldType.fieldCode t.fieldHead
            (viewField f)
          pure { t with fieldHead := head } : Except String TransactionType) =
        (addField t.fieldHead f).map fun head => { t with fieldHead := head } := by
    intro t f
    rw [addField]
    cases addDistinct "Duplicate field types." FieldType.fieldCode t.fieldHead (viewField f) <;> rfl
  rw [viewTransaction, foldlM_items (fun _ _ => rfl) hfield, fieldBlocks, artifactCruds]
  cases (t.items.filterMap itemField).foldlM addField [] <;> rfl

/-! ### Files with the same settings -/

structure SameTransaction (t t' : TransactionBlock) : Prop where
  uuid : t'.uuid = t.uuid
  cruds : (artifactCruds t).Perm (artifactCruds t')
  fields : fieldBlocks t' = fieldBlocks t

structure SameArtifact (a a' : ArtifactBlock) : Prop where
  uuid : a'.uuid = a.uuid
  transactions : List.Forall₂ SameTransaction a.transactions a'.transactions

inductive SameEntry : Directive → Directive → Prop
  | listen (addr : BitVec 32) (port : BitVec 64) : SameEntry (.listen addr port) (.listen addr port)
  | publicKeys (paths : List CString) : SameEntry (.publicKeys paths) (.publicKeys paths)
  | view (name : CString) {artifacts artifacts' : List ArtifactBlock}
      (h : List.Forall₂ SameArtifact artifacts artifacts') :
      SameEntry (.view name artifacts) (.view name artifacts')

/-- One file is the other with its settings in another order and its canonization blocks split or
put together; what is added to a list keeps its order. -/
structure SameSettings (ds ds' : List Directive) : Prop where
  settings : (settings ds).Perm (ConfigFolding.settings ds')
  entries : List.Forall₂ SameEntry (entries ds) (ConfigFolding.entries ds')

def viewTransactions : Directive → List TransactionBlock
  | .view _ artifacts => artifacts.flatMap ArtifactBlock.transactions
  | _ => []

/-- Nothing that is set is set again or taken back: only the last canonization block sets anything,
and no transaction has two blocks of flags. -/
structure Steady (ds : List Directive) : Prop where
  canonized : CanonizedLast ds
  flags : ∀ d ∈ ds, ∀ t ∈ viewTransactions d, (artifactCruds t).length ≤ 1

/-- The view, the artifact type and the transaction type are there with these flags. -/
def HasFlags (conf : AgentConfig) (name : CString) (artifact transaction : Uuid)
    (flags : BitVec 32) :
    Prop :=
  ∃ view ∈ conf.viewHead, view.name = name ∧
    ∃ a ∈ view.artifactHead, a.artifactType = artifact ∧
      ∃ t ∈ a.transactionHead, t.transactionType = transaction ∧ t.artifactCrudFlags = flags

structure Kept (ds : List Directive) (conf : AgentConfig) : Prop where
  once : ((settings ds).map Scalar.name).Nodup
  stored : ∀ x ∈ settings ds, x.Stored conf
  flagsOnce : ∀ d ∈ ds, ∀ t ∈ viewTransactions d, (artifactCruds t).length ≤ 1
  flags : ∀ name artifacts, .view name artifacts ∈ ds → ∀ a ∈ artifacts, ∀ t ∈ a.transactions,
    ∀ crud ∈ artifactCruds t, HasFlags conf name a.uuid t.uuid (crudFlags crud)

/-! ### The same entries -/

theorem foldlM_congr {α σ ε : Type} {R : α → α → Prop} {step : σ → α → Except ε σ} {l l' : List α}
    (h : List.Forall₂ R l l') (hstep : ∀ a ∈ l, ∀ a', R a a' → ∀ s, step s a = step s a') (s : σ) :
    l.foldlM step s = l'.foldlM step s := by
  induction h generalizing s with
  | nil => rfl
  | @cons a a' l l' ha hl ih =>
    rw [List.foldlM_cons, List.foldlM_cons, hstep a List.mem_cons_self a' ha s]
    cases step s a' with
    | error e => rfl
    | ok s' => exact ih (fun b hb => hstep b (List.mem_cons_of_mem _ hb)) s'

theorem perm_eq_of_short {α : Type} {l l' : List α} (h : l.Perm l') (hshort : l.length ≤ 1) :
    l = l' := by
  cases l with
  | nil => exact (List.nil_perm.mp h).symm
  | cons a l =>
    cases l with
    | nil => exact (List.singleton_perm.mp h)
    | cons b l =>
      simp only [List.length_cons] at hshort
      omega

theorem viewTransaction_same {t t' : TransactionBlock} (h : SameTransaction t t')
    (hshort : (artifactCruds t).length ≤ 1) : viewTransaction t = viewTransaction t' := by
  rw [viewTransaction_eq, viewTransaction_eq, h.fields, h.uuid, perm_eq_of_short h.cruds hshort]

theorem viewArtifact_same {a a' : ArtifactBlock} (h : SameArtifact a a')
    (hshort : ∀ t ∈ a.transactions, (artifactCruds t).length ≤ 1) :
    viewArtifact a = viewArtifact a' := by
  rw [viewArtifact, viewArtifact, h.uuid, foldlM_congr h.transactions]
  intro t ht t' hsame head
  rw [viewTransaction_same hsame (hshort t ht)]

theorem addDirective_same (h : SameEntry d d')
    (hshort : ∀ t ∈ viewTransactions d, (artifactCruds t).length ≤ 1) (cfg : AgentConfig) :
    addDirective cfg d = addDirective cfg d' := by
  cases h with
  | listen addr port => rfl
  | publicKeys paths => rfl
  | view name hartifacts =>
    rw [addDirective, addDirective, viewBlock, viewBlock, foldlM_congr hartifacts]
    intro a ha a' hsame head
    rw [viewArtifact_same hsame fun t ht => hshort t (List.mem_flatMap.mpr ⟨a, ha, ht⟩)]

theorem parse_entries_same (h : SameSettings ds ds') (hsteady : Steady ds) :
    parse (entries ds) = parse (entries ds') := by
  refine foldlM_congr h.entries (fun d hd d' hsame cfg => ?_) newConfig
  exact addDirective_same hsame (hsteady.flags d (List.mem_filter.mp hd).1) cfg

/-! ### Views that are kept -/

/-- Each item of a block is built and stays in the list. -/
theorem mem_of_foldlM {α β κ : Type} [DecidableEq κ] {message : String} {key : β → κ}
    {build : α → Except String β} {xs : List α} {head head' : List β}
    (h : xs.foldlM (fun head x => do
      let y ← build x
      addDistinct message key head y) head = .ok head') :
    head ⊆ head' ∧ ∀ x ∈ xs, ∃ y ∈ head', build x = .ok y := by
  induction xs generalizing head with
  | nil =>
    obtain rfl := Except.ok.inj h
    refine ⟨fun _ hy => hy, fun x hx => ?_⟩
    cases hx
  | cons x xs ih =>
    rw [List.foldlM_cons, bind_ok_iff] at h
    obtain ⟨next, hnext, hrest⟩ := h
    obtain ⟨y, hy, hadd⟩ := bind_ok_iff.mp hnext
    rw [addDistinct] at hadd
    split_ifs at hadd
    obtain rfl := Except.ok.inj hadd
    obtain ⟨hsub, hall⟩ := ih hrest
    refine ⟨fun z hz => hsub (List.mem_cons_of_mem _ hz), fun z hz => ?_⟩
    rcases List.mem_cons.mp hz with rfl | htail
    · exact ⟨y, hsub List.mem_cons_self, hy⟩
    · exact hall z htail

theorem viewTransaction_ok {t : TransactionBlock} {y : TransactionType} {crud : List Crud}
    (h : viewTransaction t = .ok y) (hcrud : crud ∈ artifactCruds t)
    (hshort : (artifactCruds t).length ≤ 1) :
    y.transactionType = t.uuid ∧ y.artifactCrudFlags = crudFlags crud := by
  have hone : artifactCruds t = [crud] := by
    obtain ⟨l, r, hsplit⟩ := List.append_of_mem hcrud
    rw [hsplit, List.length_append, List.length_cons] at hshort
    have hl : l = [] := List.length_eq_zero_iff.mp (by omega)
    have hr : r = [] := List.length_eq_zero_iff.mp (by omega)
    rw [hsplit, hl, hr, List.nil_append]
  rw [viewTransaction_eq, hone] at h
  cases hfields : (fieldBlocks t).foldlM addField [] with
  | error e =>
    rw [hfields] at h
    cases h
  | ok head =>
    rw [hfields] at h
    obtain rfl := Except.ok.inj h
    exact ⟨rfl, rfl⟩

theorem addDirective_views (h : addDirective cfg d = .ok cfg') : cfg.viewHead ⊆ cfg'.viewHead := by
  cases d with
  | listen addr port =>
    obtain rfl := Except.ok.inj h
    exact fun _ hv => hv
  | publicKeys paths =>
    obtain rfl := Except.ok.inj h
    exact fun _ hv => hv
  | view name artifacts =>
    rw [addDirective, bind_ok_iff] at h
    obtain ⟨view, -, hadd⟩ := h
    obtain ⟨head, hhead, rfl⟩ := map_ok hadd
    rw [addDistinct] at hhead
    split_ifs at hhead
    obtain rfl := Except.ok.inj hhead
    exact fun _ hv => List.mem_cons_of_mem _ hv
  | canonization items =>
    obtain ⟨-, ms, tx, -, -, rfl⟩ := canonization_ok h
    exact fun _ hv => hv
  | _ =>
    obtain ⟨x, -, rfl⟩ := map_ok h
    exact fun _ hv => hv

/-- A view of an accepted file is built and stays in the configuration. -/
theorem view_mem {name : CString} {artifacts : List ArtifactBlock}
    (h : ds.foldlM addDirective cfg = .ok conf) (hd : .view name artifacts ∈ ds) :
    ∃ view ∈ conf.viewHead, viewBlock name artifacts = .ok view := by
  induction ds generalizing cfg with
  | nil => cases hd
  | cons d ds ih =>
    rw [List.foldlM_cons, bind_ok_iff] at h
    obtain ⟨c, hc, hrest⟩ := h
    rcases List.mem_cons.mp hd with rfl | htail
    · have hstays : c.viewHead ⊆ conf.viewHead :=
        foldlM_invariant (I := fun c' => c.viewHead ⊆ c'.viewHead)
          (fun hI hstep => List.Subset.trans hI (addDirective_views hstep))
            (List.Subset.refl _) hrest
      rw [addDirective, bind_ok_iff] at hc
      obtain ⟨view, hview, hadd⟩ := hc
      obtain ⟨head, hhead, rfl⟩ := map_ok hadd
      rw [addDistinct] at hhead
      split_ifs at hhead
      obtain rfl := Except.ok.inj hhead
      exact ⟨view, hstays List.mem_cons_self, hview⟩
    · exact ih hrest htail

theorem hasFlags_of_parse {name : CString} {artifacts : List ArtifactBlock}
    (h : parse ds = .ok conf)
    (hd : .view name artifacts ∈ ds) {a : ArtifactBlock} (ha : a ∈ artifacts) {t : TransactionBlock}
    (ht : t ∈ a.transactions) {crud : List Crud} (hcrud : crud ∈ artifactCruds t)
    (hshort : (artifactCruds t).length ≤ 1) :
    HasFlags conf name a.uuid t.uuid (crudFlags crud) := by
  obtain ⟨view, hmem, hview⟩ := view_mem h hd
  obtain ⟨head, hhead, rfl⟩ := map_ok hview
  obtain ⟨artifact, hartifact, hbuild⟩ := (mem_of_foldlM hhead).2 a ha
  obtain ⟨transactions, htransactions, rfl⟩ := map_ok hbuild
  obtain ⟨transaction, htransaction, hbuilt⟩ := (mem_of_foldlM htransactions).2 t ht
  obtain ⟨huuid, hflags⟩ := viewTransaction_ok hbuilt hcrud hshort
  exact ⟨_, hmem, rfl, _, hartifact, rfl, transaction, htransaction, huuid, hflags⟩

/-! ### What the last block takes back -/

theorem isSet_foldl {xs : List Scalar} {k : ScalarName} :
    k.isSet (xs.foldl Scalar.put cfg) = true ↔ k ∈ xs.map Scalar.name ∨ k.isSet cfg = true := by
  induction xs generalizing cfg with
  | nil =>
    constructor
    · exact Or.inr
    · rintro (hmem | hset)
      · cases hmem
      · exact hset
  | cons x xs ih =>
    rw [List.foldl_cons, ih, Scalar.isSet_put, List.map_cons, List.mem_cons]
    tauto

/-- After a block its flags are those of the configuration. -/
theorem block_flag {items : List CanonizationItem} {item : CanonizationItem}
    (h : addDirective cfg (.canonization items) = .ok cfg')
    (hset : (itemScalar item).name.isSet cfg' = true) :
    (itemScalar item).name ∈ (items.map itemScalar).map Scalar.name := by
  obtain ⟨-, ms, tx, hms, htx, rfl⟩ := canonization_ok h
  have hflag : (itemScalar item).name.isSet
      ((items.map itemScalar).foldl Scalar.put newConfig) = true := by
    cases item with
    | maxMilliseconds n => exact hms.isSet.symm.trans hset
    | maxTransactions n => exact htx.isSet.symm.trans hset
  rcases isSet_foldl.mp hflag with hmem | hnew
  · exact hmem
  · cases item <;> cases hnew

/-- Nothing else touches these flags. -/
theorem other_keeps_flag {item : CanonizationItem} (hcanon : canonizationItems d = none)
    (h : addDirective cfg d = .ok cfg') :
    (itemScalar item).name.isSet cfg' = (itemScalar item).name.isSet cfg := by
  rcases directive_cases d with ⟨hentry, -⟩ | ⟨items, rfl⟩ | ⟨-, -, x, hx, hms, htx⟩
  · exact (entry_keeps hentry h).1 _
  · cases hcanon
  · obtain ⟨-, -, rfl⟩ := (addDirective_scalar hcanon hx).mp h
    cases item with
    | maxMilliseconds n => exact congrArg Setting.isSet (get_put_of_ne .blockMaxMilliseconds hms)
    | maxTransactions n => exact congrArg Setting.isSet (get_put_of_ne .blockMaxTransactions htx)

theorem others_keep_flag {item : CanonizationItem} (hcanon : canonizations ds = [])
    (h : ds.foldlM addDirective cfg = .ok conf) :
    (itemScalar item).name.isSet conf = (itemScalar item).name.isSet cfg := by
  induction ds generalizing cfg with
  | nil => rw [Except.ok.inj h]
  | cons d ds ih =>
    rw [canonizations, List.filterMap_cons] at hcanon
    cases hd : canonizationItems d with
    | some items =>
      rw [hd] at hcanon
      cases hcanon
    | none =>
      rw [hd] at hcanon
      rw [List.foldlM_cons, bind_ok_iff] at h
      obtain ⟨c, hc, hrest⟩ := h
      rw [ih hcanon hrest, other_keeps_flag hd hc]

/-- A block that is not the last one stands before the last one. -/
theorem split_last {items : List CanonizationItem} (h : items ∈ (canonizations ds).dropLast) :
    ∃ before last after, ds = before ++ .canonization last :: after ∧ canonizations after = [] ∧
      items ∈ canonizations before := by
  induction ds using List.reverseRecOn with
  | nil => cases h
  | append_singleton ds d ih =>
    have happend : canonizations (ds ++ [d]) = canonizations ds ++ canonizations [d] :=
      List.filterMap_append
    cases hd : canonizationItems d with
    | some last =>
      have hdir : d = .canonization last := by
        cases d with
        | canonization items => exact congrArg Directive.canonization (Option.some.inj hd)
        | _ => cases hd
      have hone : canonizations [d] = [last] := by rw [hdir]; rfl
      rw [happend, hone, List.dropLast_concat] at h
      exact ⟨ds, last, [], by rw [hdir], rfl, h⟩
    | none =>
      have hnone : canonizations [d] = [] := by
        rw [canonizations, List.filterMap_cons, hd]
        rfl
      rw [happend, hnone, List.append_nil] at h
      obtain ⟨before, last, after, rfl, hafter, hmem⟩ := ih h
      refine ⟨before, last, after ++ [d], ?_, ?_, hmem⟩
      · rw [List.append_assoc, List.cons_append]
      · rw [canonizations, List.filterMap_append, ← canonizations, ← canonizations, hafter, hnone]
        rfl

theorem mem_settings {items : List CanonizationItem} (h : items ∈ canonizations ds) :
    ∀ item ∈ items, itemScalar item ∈ settings ds := by
  intro item hitem
  obtain ⟨d, hd, hsome⟩ := List.mem_filterMap.mp h
  refine List.mem_flatMap.mpr ⟨d, hd, ?_⟩
  cases d with
  | canonization items' =>
    obtain rfl := Option.some.inj hsome
    exact List.mem_map_of_mem hitem
  | _ => cases hsome

/-- What an earlier block sets is lost, or is there twice. -/
theorem canonizedLast_of_kept (h : parse ds = .ok conf) (hkept : Kept ds conf) :
    CanonizedLast ds := by
  intro items hitems
  obtain ⟨before, last, after, rfl, hafter, hmem⟩ := split_last hitems
  cases items with
  | nil => rfl
  | cons item items =>
    have hthere := mem_settings hmem item List.mem_cons_self
    have hsettings : settings (before ++ .canonization last :: after) =
        settings before ++ (last.map itemScalar ++ settings after) := by
      rw [settings, List.flatMap_append, List.flatMap_cons]
      rfl
    have hstored : (itemScalar item).Stored conf :=
      hkept.stored _ (by rw [hsettings]; exact List.mem_append_left _ hthere)
    have honce := hkept.once
    rw [parse, List.foldlM_append, bind_ok_iff] at h
    obtain ⟨c, -, hrest⟩ := h
    rw [List.foldlM_cons, bind_ok_iff] at hrest
    obtain ⟨c', hblock, hend⟩ := hrest
    have hflag : (itemScalar item).name.isSet conf = true := by
      rw [Scalar.isSet_eq, Scalar.stored_iff.mp hstored]
      rfl
    rw [others_keep_flag hafter hend] at hflag
    have hagain := block_flag hblock hflag
    rw [hsettings, List.map_append, List.map_append, List.nodup_append] at honce
    exact absurd rfl (honce.2.2 _ (List.mem_map_of_mem hthere) _ (List.mem_append_left _ hagain))

/-! ### The settings of a file -/

theorem kept_of_steady (h : parse ds = .ok conf) (hsteady : Steady ds) : Kept ds conf := by
  obtain ⟨hfits, base, -, rfl⟩ := (parse_ok_iff hsteady.canonized).mp h
  have honce := ((fits_iff newConfig (settings ds)).mp hfits).1
  refine ⟨honce, stored_foldl honce base, hsteady.flags, ?_⟩
  intro name artifacts hd a ha t ht crud hcrud
  have hshort := hsteady.flags _ hd t (List.mem_flatMap.mpr ⟨a, ha, ht⟩)
  exact hasFlags_of_parse h hd ha ht hcrud hshort

theorem steady_of_kept (h : parse ds = .ok conf) (hkept : Kept ds conf) : Steady ds :=
  ⟨canonizedLast_of_kept h hkept, hkept.flagsOnce⟩

theorem parse_same (h : parse ds = .ok conf) (hsame : SameSettings ds ds') (hsteady : Steady ds)
    (hsteady' : Steady ds') : parse ds' = .ok conf := by
  obtain ⟨hfits, base, hbase, rfl⟩ := (parse_ok_iff hsteady.canonized).mp h
  have honce := ((fits_iff newConfig (settings ds)).mp hfits).1
  refine (parse_ok_iff hsteady'.canonized).mpr ⟨hfits.perm hsame.settings, base, ?_, ?_⟩
  · rw [← parse_entries_same hsame hsteady, hbase]
  · exact foldl_put_perm hsame.settings honce base

/-- An accepted file keeps its settings and gives the same configuration as one with the same
settings exactly when both are steady. -/
theorem settings_kept_iff (h : parse ds = .ok conf) (hsame : SameSettings ds ds') :
    Kept ds conf ∧ parse ds' = .ok conf ∧ Kept ds' conf ↔ Steady ds ∧ Steady ds' := by
  constructor
  · rintro ⟨hkept, h', hkept'⟩
    exact ⟨steady_of_kept h hkept, steady_of_kept h' hkept'⟩
  · rintro ⟨hsteady, hsteady'⟩
    have h' := parse_same h hsame hsteady hsteady'
    exact ⟨kept_of_steady h hsteady, h', kept_of_steady h' hsteady'⟩

def listenLocal : Directive := .listen 0x7F000001 4931

def oneBlock : List Directive :=
  [.loglevel 3, listenLocal, .canonization [.maxMilliseconds 5000, .maxTransactions 100]]

/-- The same settings in another order, and a block that sets nothing. -/
def emptyBlockFirst : List Directive :=
  [.canonization [], .canonization [.maxTransactions 100, .maxMilliseconds 5000], listenLocal,
    .loglevel 3]

def twoBlocks : List Directive :=
  [.canonization [.maxMilliseconds 5000], .loglevel 3, listenLocal,
    .canonization [.maxTransactions 100]]

def blockConfig : AgentConfig :=
  { newConfig with
    loglevel := ⟨true, 3⟩
    blockMaxMilliseconds := ⟨true, 5000⟩
    blockMaxTransactions := ⟨true, 100⟩
    listenHead := [⟨0x7F000001, 4931⟩] }

theorem oneBlock_same {ds : List Directive} (hsettings : (settings oneBlock).Perm (settings ds))
    (hentries : entries ds = [listenLocal]) : SameSettings oneBlock ds := by
  refine ⟨hsettings, ?_⟩
  rw [hentries]
  exact List.Forall₂.cons (SameEntry.listen _ _) List.Forall₂.nil

theorem reordered_block_is_kept :
    parse emptyBlockFirst = .ok blockConfig ∧ Kept oneBlock blockConfig ∧
      Kept emptyBlockFirst blockConfig := by
  have hsame : SameSettings oneBlock emptyBlockFirst := oneBlock_same (by decide) rfl
  have hflags : ∀ ds : List Directive, ds.flatMap viewTransactions = [] →
      ∀ d ∈ ds, ∀ t ∈ viewTransactions d, (artifactCruds t).length ≤ 1 := by
    intro ds hnone d hd t ht
    have hmem : t ∈ ds.flatMap viewTransactions := List.mem_flatMap.mpr ⟨d, hd, ht⟩
    rw [hnone] at hmem
    cases hmem
  have hone : Steady oneBlock := by
    refine ⟨fun items hitems => ?_, hflags _ rfl⟩
    cases hitems
  have hfirst : Steady emptyBlockFirst := by
    refine ⟨fun items hitems => ?_, hflags _ rfl⟩
    exact List.mem_singleton.mp hitems
  have hparse : parse oneBlock = .ok blockConfig := rfl
  obtain ⟨hkept, hparse', hkept'⟩ := (settings_kept_iff hparse hsame).mpr ⟨hone, hfirst⟩
  exact ⟨hparse', hkept, hkept'⟩

/-- In a block of its own the first number is taken back, and may be set once more. -/
theorem later_block_takes_back :
    parse twoBlocks = .ok { blockConfig with blockMaxMilliseconds := ⟨false, 5000⟩ } ∧
      parse (twoBlocks ++ [.canonization [.maxMilliseconds 6000]]) =
        .ok { blockConfig with
          blockMaxMilliseconds := ⟨true, 6000⟩
          blockMaxTransactions := ⟨false, 100⟩ } ∧
      ¬ ∀ (ds ds' : List Directive) (conf : AgentConfig), parse ds = .ok conf →
        SameSettings ds ds' →
        Kept ds conf ∧ parse ds' = .ok conf ∧ Kept ds' conf := by
  refine ⟨rfl, rfl, fun hall => ?_⟩
  have hsame : SameSettings oneBlock twoBlocks := oneBlock_same (by decide) rfl
  obtain ⟨-, hparse, -⟩ := hall oneBlock twoBlocks blockConfig rfl hsame
  exact absurd (congrArg (fun c => c.blockMaxMilliseconds.isSet) (Except.ok.inj hparse))
    Bool.false_ne_true

end KeptSettings
