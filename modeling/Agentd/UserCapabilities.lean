import Agentd.ControlRequests

/-! # Capabilities of a client

When a data service context is opened for a client, the triples of its entity become bits. Each verb
has a bit of its own, the one that is tested for the method by which the requests under that verb
are served. -/
namespace UserCapabilities

open DataserviceRecords
open DataserviceStore
open DataserviceDispatch
open ClientProtocol
open ControlRequests

/-! ### Verbs -/

def capabilityBlockIdLatestRead : Uuid := 0xc5b0eb046b2448beb7d9bf9083a4be5d

def capabilityTransactionSubmit : Uuid := 0xef560d24eea648479009464b127f249b

def capabilityBlockRead : Uuid := 0xf382e365122443b4924a1de4d9f4cf25

def capabilityBlockIdByHeightRead : Uuid := 0x915a5ef48f964ef595880a75b1cae68d

def capabilityTransactionRead : Uuid := 0x7df210d6f00b47c4a6086f3f1df7511a

def capabilityArtifactRead : Uuid := 0xfc0e22ea1e774ea4a2ae08be5ff73ccc

/-- The checks of `protocolservice_dataservice_map_user_capabilities`, in their order. -/
def userCapabilities : List (Uuid × ApiCap) :=
  [(capabilityBlockIdLatestRead, .appBlockIdLatestRead),
    (capabilityTransactionSubmit, .appPqTransactionSubmit),
    (capabilityBlockRead, .appBlockRead),
    (capabilityBlockIdByHeightRead, .appBlockIdByHeightRead),
    (capabilityTransactionRead, .appTransactionRead),
    (capabilityArtifactRead, .appArtifactRead)]

def verbOf : ProtocolRequest → Option Uuid
  | .latestBlockIdGet => some capabilityBlockIdLatestRead
  | .transactionSubmit => some capabilityTransactionSubmit
  | .blockByIdGet => some capabilityBlockRead
  | .blockIdGetNext => some capabilityBlockRead
  | .blockIdGetPrev => some capabilityBlockRead
  | .blockIdByHeightGet => some capabilityBlockIdByHeightRead
  | .transactionByIdGet => some capabilityTransactionRead
  | .transactionIdGetNext => some capabilityTransactionRead
  | .transactionIdGetPrev => some capabilityTransactionRead
  | .transactionIdGetBlockId => some capabilityTransactionRead
  | .artifactFirstTxnByIdGet => some capabilityArtifactRead
  | .artifactLastTxnByIdGet => some capabilityArtifactRead
  | _ => none

/-! ### Bits -/

theorem bitcapIsset_eq (caps : Bitcap) (cap : ApiCap) :
    bitcapIsset caps cap = caps.getLsbD cap.ctorIdx := by
  have hmask : bitcapMask cap = BitVec.twoPow 32 cap.ctorIdx := rfl
  have hne : BitVec.twoPow 32 cap.ctorIdx ≠ 0#32 := by cases cap <;> decide
  rw [bitcapIsset, hmask, BitVec.and_twoPow]
  cases caps.getLsbD cap.ctorIdx with
  | true =>
    rw [if_pos rfl]
    exact bne_iff_ne.mpr hne
  | false => rfl

theorem ctorIdx_inj {a b : ApiCap} (h : a.ctorIdx = b.ctorIdx) : a = b := by
  have hall : ∀ c : ApiCap, [ApiCap.llRootContextCreate, .llRootContextReduceCaps,
      .llChildContextCreate, .llChildContextClose, .llDatabaseBackup, .llDatabaseRestore,
      .llDatabaseUpgrade, .appGlobalSettingRead, .appGlobalSettingWrite, .appBlockIdLatestRead,
      .appBlockIdNextRead, .appBlockIdPrevRead, .appBlockIdWithTransactionRead, .appBlockRead,
      .appTransactionRead, .appPqTransactionSubmit, .appPqTransactionPromote,
      .appPqTransactionFirstRead, .appPqTransactionRead, .appPqTransactionDrop, .appArtifactRead,
      .appBlockWrite, .appBlockIdByHeightRead][c.ctorIdx]? = some c := by
    intro c
    cases c <;> rfl
  exact Option.some.inj ((hall a).symm.trans (by rw [h]; exact hall b))

theorem bitcapIsset_setTrue (caps : Bitcap) (cap cap' : ApiCap) :
    bitcapIsset (bitcapSetTrue caps cap) cap' = (bitcapIsset caps cap' || decide (cap = cap')) := by
  have hmask : bitcapMask cap = BitVec.twoPow 32 cap.ctorIdx := rfl
  have hlt : cap.ctorIdx < 32 := by cases cap <;> decide
  rw [bitcapIsset_eq, bitcapIsset_eq, bitcapSetTrue, BitVec.getLsbD_or, hmask,
    BitVec.getLsbD_twoPow]
  by_cases h : cap = cap'
  · simp [h, h ▸ hlt]
  · have hne : cap.ctorIdx ≠ cap'.ctorIdx := fun heq => h (ctorIdx_inj heq)
    simp [h, hne]

theorem bitcapIsset_intersect (a b : Bitcap) (cap : ApiCap) :
    bitcapIsset (bitcapIntersect a b) cap = (bitcapIsset a cap && bitcapIsset b cap) := by
  rw [bitcapIsset_eq, bitcapIsset_eq, bitcapIsset_eq, bitcapIntersect, BitVec.getLsbD_and]

/-! ### Mapping -/

/-- Capabilities are compared as a whole. -/
local instance capability_lawful : LawfulBEq (Uuid × Uuid × Uuid) := inferInstance

/-- `protocolservice_authorized_entity_capability_check`, by the tree of the entity. -/
def authorizedEntityCapabilityCheck (entity : Entity) (subject verb object : Uuid) : Bool :=
  decide ((subject, verb, object) ∈ entity.capabilities)

/-- The bit to close the context is always set. -/
def mapUserCapabilities (allocFails : Bool) (k : ControlContext) (entityUuid : Uuid) :
    Except Status Bitcap :=
  match k.authorizedEntityDict entityUuid with
  | none => .error errorUnauthorized
  | some entity =>
    if allocFails then .error outOfMemory.val
    else
      .ok (userCapabilities.foldl (fun caps p =>
        if authorizedEntityCapabilityCheck entity entityUuid p.1 k.agentdUuid then
          bitcapSetTrue caps p.2
        else caps) (bitcapSetTrue 0 .llChildContextClose))

/-- The entity has been given the triple of itself, the verb and this agent. -/
def Granted (k : ControlContext) (entityUuid verb : Uuid) : Prop :=
  ∃ entity, k.authorizedEntityDict entityUuid = some entity ∧
    (entityUuid, verb, k.agentdUuid) ∈ entity.capabilities

theorem isset_foldl (check : Uuid → Bool) (table : List (Uuid × ApiCap)) (caps : Bitcap)
    (cap : ApiCap) :
    bitcapIsset (table.foldl (fun caps p =>
      if check p.1 then bitcapSetTrue caps p.2 else caps) caps)
      cap = (bitcapIsset caps cap || table.any fun p => check p.1 && decide (p.2 = cap)) := by
  induction table generalizing caps with
  | nil => simp
  | cons p table ih =>
    rw [List.foldl_cons, ih, List.any_cons]
    cases hcheck : check p.1 with
    | true =>
      rw [if_pos rfl, bitcapIsset_setTrue, Bool.true_and, Bool.or_assoc]
    | false =>
      rw [if_neg (by decide), Bool.false_and, Bool.false_or]

/-- A bit that is set comes from a verb that was granted. -/
theorem mapUserCapabilities_isset {allocFails : Bool} {k : ControlContext} {entityUuid : Uuid}
    {caps : Bitcap} (h : mapUserCapabilities allocFails k entityUuid = .ok caps) {cap : ApiCap}
    (hcap : bitcapIsset caps cap = true) :
    cap = .llChildContextClose ∨ ∃ verb, (verb, cap) ∈ userCapabilities ∧
      Granted k entityUuid verb := by
  rw [mapUserCapabilities] at h
  cases hentity : k.authorizedEntityDict entityUuid with
  | none =>
    rw [hentity] at h
    cases h
  | some entity =>
    rw [hentity] at h
    simp only at h
    split at h
    · cases h
    · obtain rfl := Except.ok.inj h
      rw [isset_foldl (fun verb => authorizedEntityCapabilityCheck entity entityUuid verb
        k.agentdUuid), bitcapIsset_setTrue, Bool.or_eq_true, Bool.or_eq_true] at hcap
      rcases hcap with (hzero | hclose) | hverb
      · rw [bitcapIsset_eq] at hzero
        simp at hzero
      · exact Or.inl (of_decide_eq_true hclose).symm
      · obtain ⟨⟨verb, cap'⟩, hmem, hboth⟩ := List.any_eq_true.mp hverb
        simp only [Bool.and_eq_true, decide_eq_true_eq] at hboth
        obtain ⟨hcheck, rfl⟩ := hboth
        exact Or.inr ⟨verb, hmem, entity, hentity, of_decide_eq_true hcheck⟩

/-! ### Verbs, bits and methods -/

/-- The verb, the bit it is mapped to and the bit that is tested for the method of the request are
the same thing three times, and no other verb has that bit. -/
theorem verb_bit_method {r : ProtocolRequest} {verb : Uuid} (h : verbOf r = some verb) :
    ∃ m cap, methodOf r = some m ∧ (verb, cap) ∈ userCapabilities ∧ cap.ctorIdx = m.ctorIdx ∧
      cap ≠ .llChildContextClose ∧ ∀ verb', (verb', cap) ∈ userCapabilities → verb' = verb := by
  have hbit : ∀ (verb : Uuid) (m : Method) (cap : ApiCap), methodOf r = some m →
      (verb, cap) ∈ userCapabilities → cap.ctorIdx = m.ctorIdx → cap ≠ .llChildContextClose →
      (∀ p ∈ userCapabilities, p.2 = cap → p.1 = verb) →
      ∃ m cap, methodOf r = some m ∧ (verb, cap) ∈ userCapabilities ∧ cap.ctorIdx = m.ctorIdx ∧
        cap ≠ .llChildContextClose ∧ ∀ verb', (verb', cap) ∈ userCapabilities → verb' = verb :=
    fun verb m cap hm hmem hidx hclose hunique =>
      ⟨m, cap, hm, hmem, hidx, hclose, fun verb' hverb' => hunique (verb', cap) hverb' rfl⟩
  cases r with
  | latestBlockIdGet =>
    cases h
    exact hbit _ .appBlockIdLatestRead .appBlockIdLatestRead rfl (by decide) rfl (by decide)
      (by decide)
  | transactionSubmit =>
    cases h
    exact hbit _ .appPqTransactionSubmit .appPqTransactionSubmit rfl (by decide) rfl (by decide)
      (by decide)
  | blockByIdGet =>
    cases h
    exact hbit _ .appBlockRead .appBlockRead rfl (by decide) rfl (by decide) (by decide)
  | blockIdGetNext =>
    cases h
    exact hbit _ .appBlockRead .appBlockRead rfl (by decide) rfl (by decide) (by decide)
  | blockIdGetPrev =>
    cases h
    exact hbit _ .appBlockRead .appBlockRead rfl (by decide) rfl (by decide) (by decide)
  | blockIdByHeightGet =>
    cases h
    exact hbit _ .appBlockIdByHeightRead .appBlockIdByHeightRead rfl (by decide) rfl (by decide)
      (by decide)
  | transactionByIdGet =>
    cases h
    exact hbit _ .appTransactionRead .appTransactionRead rfl (by decide) rfl (by decide) (by decide)
  | transactionIdGetNext =>
    cases h
    exact hbit _ .appTransactionRead .appTransactionRead rfl (by decide) rfl (by decide) (by decide)
  | transactionIdGetPrev =>
    cases h
    exact hbit _ .appTransactionRead .appTransactionRead rfl (by decide) rfl (by decide) (by decide)
  | transactionIdGetBlockId =>
    cases h
    exact hbit _ .appTransactionRead .appTransactionRead rfl (by decide) rfl (by decide) (by decide)
  | artifactFirstTxnByIdGet =>
    cases h
    exact hbit _ .appArtifactRead .appArtifactRead rfl (by decide) rfl (by decide) (by decide)
  | artifactLastTxnByIdGet =>
    cases h
    exact hbit _ .appArtifactRead .appArtifactRead rfl (by decide) rfl (by decide) (by decide)
  | _ => cases h

end UserCapabilities
