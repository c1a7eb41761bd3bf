import Agentd.BlockchainInvariant
import Agentd.RequestCodec
import Agentd.RootContextDatabase
import Agentd.TransitionRuns

/-! # Three data services over one database

The supervisor starts a data service for the protocol service, one for the canonization service and
one for the attestation service. They open the same data directory; what tells them apart is the set
of capabilities the supervisor leaves each before it hands over the socket. The packets of the
owners interleave. -/
namespace ServicePrivileges

open ByteString
open FaultyTransactions
open DataserviceRecords
open DataserviceStore
open DataserviceQueue
open DataserviceBlocks
open DataserviceRequests hiding Run
open DataserviceEffects
open DataserviceDispatch
open ChildContexts
open CapabilityConfinement
open DataserviceClient
open RequestCodec
open TransitionRuns
open BlockchainInvariant

/-! ### What the supervisor allows -/

inductive Owner where
  | authProtocol
  | canonization
  | attestation
  deriving DecidableEq, Repr

/-- The bits set by the three `supervisor_create_data_service_for_..._service`. -/
def privileges : Owner → List ApiCap
  | .authProtocol =>
    [.llChildContextCreate, .llChildContextClose, .appBlockIdLatestRead, .appBlockIdNextRead,
      .appBlockIdPrevRead, .appBlockIdWithTransactionRead, .appBlockRead, .appTransactionRead,
      .appPqTransactionSubmit, .appArtifactRead, .appBlockIdByHeightRead]
  | .canonization =>
    [.llChildContextCreate, .llChildContextClose, .appBlockIdLatestRead, .appBlockIdNextRead,
      .appBlockIdPrevRead, .appBlockIdWithTransactionRead, .appBlockRead, .appTransactionRead,
      .appPqTransactionSubmit, .appPqTransactionFirstRead, .appPqTransactionRead,
      .appPqTransactionDrop, .appArtifactRead, .appBlockWrite, .appBlockIdByHeightRead]
  | .attestation =>
    [.llChildContextCreate, .llChildContextClose, .appBlockRead, .appTransactionRead,
      .appPqTransactionPromote, .appPqTransactionFirstRead, .appPqTransactionRead,
      .appPqTransactionDrop, .appArtifactRead]

def reducedcaps (o : Owner) : Bitcap := (privileges o).foldl bitcapSetTrue 0

structure DataConf where
  databaseMaxSize : BitVec 64
  datastore : Bytes

def DataConf.dir (conf : DataConf) : Bytes := conf.datastore.takeWhile (· != 0)

def succeeded (m : Method) (served : Served) : Option Service :=
  match served with
  | some (s, some resp, .ok ()) =>
    if decodeResponse m 0 (fun _ => ()) resp = some (.ok ()) then some s else none
  | _ => none

/-- The new process gets its root context and then loses all but its privileges. Where a request
fails, the process is terminated. `init` and `reduce` say what fails while they are served. -/
def supervisorStartDataService (E : Env) (o : Owner) (conf : DataConf) (disk : Bytes → Store)
    (init reduce : Delivery) : Option Service :=
  (succeeded .llRootContextCreate (decodeAndDispatch E ⟨instanceCreate, disk⟩
    { init with packet := encodeRequestRootContextInit conf.databaseMaxSize conf.datastore })).bind
  fun s => succeeded .llRootContextReduceCaps (decodeAndDispatch E s
    { reduce with packet := encodeRequestRootContextReduceCaps (reducedcaps o) })

/-! ### The services together -/

structure DataServices where
  process : Owner → Option Instance
  disk : Bytes → Store

inductive Event where
  | start (o : Owner) (init reduce : Delivery)
  | serve (o : Owner) (d : Delivery)
  | stop (o : Owner)

def noServices (disk : Bytes → Store) : DataServices := ⟨fun _ => none, disk⟩

/-- A packet of 1 GiB or more ends its data service, as does one whose dispatch fails. One that
leads to undefined behaviour has no next state. -/
def step (E : Env) (conf : DataConf) (s : DataServices) : Event → Option DataServices
  | .start o init reduce =>
    if (s.process o).isSome then none
    else match supervisorStartDataService E o conf s.disk init reduce with
      | some v => some ⟨Function.update s.process o (some v.inst), v.disk⟩
      | none => some s
  | .serve o d => (s.process o).bind fun inst =>
    if maxPayload ≤ d.packet.length then
      some { s with process := Function.update s.process o none }
    else (decodeAndDispatch E ⟨inst, s.disk⟩ d).map fun r =>
      ⟨Function.update s.process o (if r.2.2 = .ok () then some r.1.inst else none), r.1.disk⟩
  | .stop o => some { s with process := Function.update s.process o none }

/-! ### Capability sets -/

theorem isset_eq_getLsbD (caps : Bitcap) (cap : ApiCap) :
    bitcapIsset caps cap = caps.getLsbD cap.ctorIdx := by
  rw [bitcapIsset, bitcapMask, ← BitVec.twoPow_eq, BitVec.and_twoPow]
  have hlt : cap.ctorIdx < 32 := by cases cap <;> decide
  cases caps.getLsbD cap.ctorIdx with
  | false => rfl
  | true =>
    have hne : BitVec.twoPow 32 cap.ctorIdx ≠ 0 := by
      intro h0
      have hbit := congrArg (fun x => BitVec.getLsbD x cap.ctorIdx) h0
      simp [hlt] at hbit
    simpa using hne

theorem ctorIdx_injective {a b : ApiCap} (h : a.ctorIdx = b.ctorIdx) : a = b := by
  revert h
  cases a <;> cases b <;> decide

theorem isset_setTrue (caps : Bitcap) (a cap : ApiCap) :
    bitcapIsset (bitcapSetTrue caps a) cap = true ↔ bitcapIsset caps cap = true ∨ cap = a := by
  have hlt : cap.ctorIdx < 32 := by cases cap <;> decide
  rw [isset_eq_getLsbD, isset_eq_getLsbD, bitcapSetTrue, bitcapMask, ← BitVec.twoPow_eq,
    BitVec.getLsbD_or, BitVec.getLsbD_twoPow, Bool.or_eq_true, Bool.and_eq_true, decide_eq_true_eq,
    decide_eq_true_eq]
  constructor
  · rintro (h | ⟨-, h⟩)
    · exact Or.inl h
    · exact Or.inr (ctorIdx_injective h.symm)
  · rintro (h | rfl)
    · exact Or.inl h
    · exact Or.inr ⟨hlt, rfl⟩

theorem isset_foldl_setTrue (l : List ApiCap) (caps : Bitcap) (cap : ApiCap) :
    bitcapIsset (l.foldl bitcapSetTrue caps) cap = true ↔
      bitcapIsset caps cap = true ∨ cap ∈ l := by
  induction l generalizing caps with
  | nil => simp
  | cons a l ih =>
    rw [List.foldl_cons, ih, isset_setTrue, List.mem_cons, or_assoc]

/-- The word the supervisor sends holds the privileges of the owner and no other bit. -/
theorem isset_reducedcaps (o : Owner) (cap : ApiCap) :
    bitcapIsset (reducedcaps o) cap = true ↔ cap ∈ privileges o := by
  rw [reducedcaps, isset_foldl_setTrue]
  simp [bitcapIsset]

/-! ### A started service -/

/-- What a data service has as long as it runs: its privileges, child contexts within them, and the
database of the configuration. -/
structure Privileged (conf : DataConf) (o : Owner) (inst : Instance) : Prop where
  slots : ∃ free, Slots inst free
  apicaps : inst.apicaps = reducedcaps o
  children : ∀ i, (inst.children i).dispose = true →
    Within (inst.children i).childcaps (reducedcaps o)
  details : inst.details = .opened conf.dir

section Served

variable {E : Env} {conf : DataConf} {o : Owner} {s s' : Service} {d : Delivery}
  {resp : Option Response} {st : Except AgentdError Unit} {disk : Bytes → Store}

theorem succeeded_eq_some {m : Method} {served : Served} (h : succeeded m served = some s) :
    ∃ resp, served = some (s, some resp, .ok ()) ∧ resp.status = .ok () := by
  unfold succeeded at h
  split at h
  · rename_i v resp
    by_cases hr : decodeResponse m 0 (fun _ => ()) resp = some (.ok ())
    · rw [if_pos hr] at h
      cases h
      refine ⟨resp, rfl, ?_⟩
      unfold decodeResponse at hr
      split at hr
      · cases hr
      · split at hr
        · cases hr
        · assumption
    · rw [if_neg hr] at h
      cases h
  · cases h

theorem names_rootContextInit (failing : Delivery) (size : BitVec 64) (datadir : Bytes) :
    Names { failing with packet := encodeRequestRootContextInit size datadir }
      Method.llRootContextCreate.code (be 8 size ++ datadir.takeWhile (· != 0)) := by
  refine ⟨?_, bits_method _ _, ?_⟩
  · simp [encodeRequestRootContextInit]
  · rw [encodeRequestRootContextInit, List.drop_left' (length_be 4 _)]

theorem names_reduceCaps (failing : Delivery) (caps : Bitcap) :
    Names { failing with packet := encodeRequestRootContextReduceCaps caps }
      Method.llRootContextReduceCaps.code (be 4 caps).reverse := by
  refine ⟨?_, bits_method _ _, ?_⟩
  · simp [encodeRequestRootContextReduceCaps]
  · rw [encodeRequestRootContextReduceCaps, List.drop_left' (length_be 4 _)]

theorem decodeRequestRootContextInit_dir {fails : Bool} {size : BitVec 64} {datadir dir : Bytes}
    (h : decodeRequestRootContextInit fails (be 8 size ++ datadir.takeWhile (· != 0)) = .ok dir) :
    dir = datadir.takeWhile (· != 0) := by
  rw [decodeRequestRootContextInit_eq] at h
  cases hp : decodeRootContextInitPayload fails
    (be 8 size ++ datadir.takeWhile (· != 0)) with
  | error e =>
    rw [hp] at h
    cases h
  | ok p =>
    rw [hp] at h
    have hpacket := eq_rootContextInit hp
    obtain ⟨-, hdir⟩ := List.append_inj hpacket (by rw [length_be, length_be])
    obtain rfl := Except.ok.inj h
    dsimp only
    rw [← hdir, List.takeWhile_idem]

theorem databaseOpen_ok {fails : Option OpenStep} {datadir : Bytes}
    (h : (databaseOpen fails datadir).2 = .ok ()) :
    (databaseOpen fails datadir).1 = .opened datadir := by
  cases fails with
  | none => rfl
  | some failing => cases failing <;> cases h

/-- The first answer: the root context is created over the open database. -/
theorem root_initialized {v : Service} {size : BitVec 64} {datadir : Bytes}
    (hcap : bitcapIsset v.inst.apicaps .llRootContextCreate = true)
    (hn : Names d Method.llRootContextCreate.code (be 8 size ++ datadir.takeWhile (· != 0)))
    (h : succeeded .llRootContextCreate (decodeAndDispatch E v d) = some s) :
    s = { v with inst := { v.inst with
      apicaps := bitcapSetFalse (BitVec.allOnes 32) .llRootContextCreate
      details := .opened (datadir.takeWhile (· != 0)) } } := by
  obtain ⟨resp, hserved, hok⟩ := succeeded_eq_some h
  obtain ⟨hlen, hmethod, hreq⟩ := hn
  rw [decodeAndDispatch, if_neg (not_lt.mpr hlen), hmethod, hreq] at hserved
  replace hserved : dispatchRootContextCreate v d _ = some (s, some resp, .ok ()) := hserved
  unfold dispatchRootContextCreate at hserved
  split at hserved
  · cases hserved
  · rename_i dir hdec
    obtain rfl := decodeRequestRootContextInit_dir hdec
    have hcap' : ¬ bitcapIsset v.inst.apicaps .llRootContextCreate = false := by simp [hcap]
    simp only [rootContextInit, if_neg hcap'] at hserved
    obtain ⟨hs, hresp⟩ := writeStatus_cases hserved
    have hstatus := (hresp resp rfl).2.1.symm.trans hok
    rw [hs, databaseOpen_ok hstatus]

/-- The second answer: the capabilities are cut to what was sent. -/
theorem root_reduced {v : Service} {caps : Bitcap}
    (hn : Names d Method.llRootContextReduceCaps.code (be 4 caps).reverse)
    (h : succeeded .llRootContextReduceCaps (decodeAndDispatch E v d) = some s) :
    s = { v with inst := { v.inst with apicaps := bitcapIntersect v.inst.apicaps caps } } := by
  obtain ⟨resp, hserved, hok⟩ := succeeded_eq_some h
  obtain ⟨hlen, hmethod, hreq⟩ := hn
  rw [decodeAndDispatch, if_neg (not_lt.mpr hlen), hmethod, hreq] at hserved
  have hhandler : handlerOf Method.llRootContextReduceCaps.code = some .rootContextReduceCaps := rfl
  simp only [hhandler, Handler.serve, dispatchRootContextReduceCaps, decodeCaps_encoded] at hserved
  by_cases hcap : bitcapIsset v.inst.apicaps .llRootContextReduceCaps = false
  · simp only [rootContextReduceCapabilities, if_pos hcap] at hserved
    obtain ⟨-, hresp⟩ := writeStatus_cases hserved
    exact absurd ((hresp resp rfl).2.1.symm.trans hok) (by simp)
  · simp only [rootContextReduceCapabilities, if_neg hcap] at hserved
    exact (writeStatus_cases hserved).1

/-- A data service that the supervisor has started has exactly its privileges. -/
theorem started_privileged {init reduce : Delivery}
    (h : supervisorStartDataService E o conf disk init reduce = some s) :
    Privileged conf o s.inst ∧ s.disk = disk := by
  obtain ⟨v, hinit, hreduce⟩ := Option.bind_eq_some_iff.mp h
  have hcreate : bitcapIsset instanceCreate.apicaps .llRootContextCreate = true := by
    rw [apicaps_instanceCreate]
    decide
  have hv := root_initialized (v := ⟨instanceCreate, disk⟩) hcreate
    (names_rootContextInit init _ _) hinit
  have hs := root_reduced (names_reduceCaps reduce _) hreduce
  have hcaps : bitcapIntersect (bitcapSetFalse (BitVec.allOnes 32) .llRootContextCreate)
      (reducedcaps o) = reducedcaps o := by
    cases o <;> decide
  have hslots := slots_instanceCreate
  have hclosed := not_open_instanceCreate
  generalize instanceCreate = new at hv hslots hclosed
  subst hs hv
  refine ⟨⟨⟨_, hslots.congr rfl rfl⟩, hcaps, fun i hopen => ?_, rfl⟩, rfl⟩
  exact absurd (hopen.symm.trans (hclosed i)) (by decide)

/-- No owner can create the root context again or cut its capabilities. -/
theorem not_root_privilege (o : Owner) :
    bitcapIsset (reducedcaps o) .llRootContextCreate = false ∧
      bitcapIsset (reducedcaps o) .llRootContextReduceCaps = false := by
  cases o <;> decide

/-- Whatever packet is served, the privileges stay as they are. -/
theorem served_privileged (hp : Privileged conf o s.inst)
    (h : decodeAndDispatch E s d = some (s', resp, st)) : Privileged conf o s'.inst := by
  obtain ⟨free, hfree⟩ := hp.slots
  obtain ⟨hcreate, hreduce⟩ := not_root_privilege o
  rw [← hp.apicaps] at hcreate hreduce
  have hslots := served_slots hfree h
  rcases served_cases hfree h with ⟨rfl, -⟩ | ⟨hr, -⟩ | ⟨hr, -⟩ | ⟨caps, i, hc, -⟩ | ⟨⟨i, hc⟩, -⟩ |
    ⟨i, -, hinst⟩
  · exact hp
  · exact absurd (hr.authorized.symm.trans hcreate) (by decide)
  · exact absurd (hr.authorized.symm.trans hreduce) (by decide)
  · have hwithin := hc.within.1.trans (within_intersect_left _ _)
    rw [hp.apicaps] at hwithin
    rw [hc.instance_eq] at hslots hwithin ⊢
    refine ⟨hslots, hp.apicaps, ?_, hp.details⟩
    intro j hopen
    by_cases hj : j = i
    · subst hj
      exact hwithin
    · simp only [Function.update_of_ne hj] at hopen ⊢
      exact hp.children j hopen
  · rw [hc.instance_eq] at hslots ⊢
    refine ⟨hslots, hp.apicaps, ?_, hp.details⟩
    intro j hopen
    by_cases hj : j = i
    · subst hj
      simp [childDetailsDelete, clearedChild] at hopen
    · simp only [childDetailsDelete, Function.update_of_ne hj] at hopen ⊢
      exact hp.children j hopen
  · rw [hinst]
    exact hp

/-- The packet asks for the operation `r` in the child context `i`, which is open, and both this
child context and the root context hold the capability for it. -/
structure Entitled (inst : Instance) (d : Delivery) (i : Fin maxChildContexts) (r : Request) :
    Prop where
  request : ∃ p ∈ childOperations, ∃ req q, Names d p.1.code req ∧ p.2 req = .ok q ∧
    q.childIndex = BitVec.ofNat 32 i ∧ q.request = r
  isOpen : (inst.children i).dispose = true
  child : bitcapIsset (inst.children i).childcaps r.capability = true
  root : bitcapIsset inst.apicaps r.capability = true

/-- A child context of a privileged service has no bit that the root context lacks. -/
theorem Privileged.entitled {inst : Instance} (hp : Privileged conf o inst)
    {i : Fin maxChildContexts}
    (ha : Authorized ⟨inst, disk⟩ d i) : ∃ r, Entitled inst d i r ∧
      bits 32 (d.packet.take 4) = BitVec.ofNat 32 r.capability.ctorIdx := by
  obtain ⟨p, hmem, req, q, hn, hq, hindex, hmethod, hbit⟩ := ha.request
  refine ⟨q.request, ⟨⟨p, hmem, req, q, hn, hq, hindex, rfl⟩, ha.isOpen, hbit, ?_⟩, ?_⟩
  · rw [hp.apicaps]
    exact RootContextDatabase.Within.isset_of (hp.children i ha.isOpen) hbit
  · rw [hn.2.1, hmethod]
    rfl

/-- The owner has the privilege for what its service is entitled to. -/
theorem Entitled.privilege {inst : Instance} {i : Fin maxChildContexts} {r : Request}
    (h : Entitled inst d i r) (hp : Privileged conf o inst) : r.capability ∈ privileges o := by
  rw [← isset_reducedcaps, ← hp.apicaps]
  exact h.root

/-- A packet that changes a database holds an operation that the service is entitled to, and the
operation ends well. -/
structure Performed (E : Env) (s : Service) (d : Delivery) (dir : Bytes) (c : Invocation)
    (s' : Service) : Prop where
  entitled : ∃ i, Entitled s.inst d i c.request ∧ c.caps = (s.inst.children i).childcaps
  succeeds : ∃ a, (perform E (s.disk dir) c).1 = .ok a
  disk : s'.disk = Function.update s.disk dir (perform E (s.disk dir) c).2

theorem dispatchChildRequest_disk {p : Method × (Bytes → Except AgentdError DecodedRequest)}
    {req dir : Bytes} (hp : p ∈ childOperations) (hn : Names d p.1.code req)
    (hprivileged : Privileged conf o s.inst) (hdir : s.inst.details = .opened dir)
    (h : dispatchChildRequest p.1 p.2 E s d req = some (s', resp, st)) :
    s'.disk = s.disk ∨ ∃ c, Performed E s d dir c s' := by
  unfold dispatchChildRequest at h
  split at h
  · exact Or.inl (by rw [(writeStatus_cases h).1])
  · rename_i r hr
    split at h
    · exact Or.inl (by rw [(writeStatus_cases h).1])
    · rename_i i hi
      obtain ⟨hindex, hopen⟩ := childContextLookup_ok hi
      split at h
      · cases h
      · rename_i e v hfail
        rw [performChild_fail hfail] at h
        exact Or.inl (by rw [(writeStatus_cases h).1])
      · rename_i a v hok
        obtain ⟨hcap, -⟩ := performChild_ok hok
        obtain ⟨store, hperform, rfl⟩ := performChild_opened hdir hok
        have hroot : bitcapIsset s.inst.apicaps r.request.capability = true := by
          rw [hprivileged.apicaps]
          exact RootContextDatabase.Within.isset_of (hprivileged.children i hopen) hcap
        refine Or.inr ⟨⟨r.request, (s.inst.children i).childcaps, d.faults, d.commitFails⟩,
          ⟨i, ⟨⟨p, hp, req, r, hn, hr, hindex, rfl⟩, hopen, hcap, hroot⟩, rfl⟩,
          ⟨a, by rw [hperform]⟩, ?_⟩
        rw [hperform]
        split at h
        · rw [(writeStatus_cases h).1]
        · rw [(writeStatus_cases h).1]

/-- Everything a packet does to the directories. -/
theorem served_disk {dir : Bytes} (hp : Privileged conf o s.inst)
    (hdir : s.inst.details = .opened dir)
    (h : decodeAndDispatch E s d = some (s', resp, st)) :
    s'.disk = s.disk ∨ ∃ c, Performed E s d dir c s' := by
  obtain ⟨free, hfree⟩ := hp.slots
  rcases served_cases hfree h with ⟨rfl, -⟩ | ⟨hr, -⟩ | ⟨hr, -⟩ | ⟨caps, i, hc, -⟩ | ⟨⟨i, hc⟩, -⟩ |
    ⟨i, ha, -⟩
  · exact Or.inl rfl
  · exact Or.inl hr.disk
  · exact Or.inl hr.disk
  · exact Or.inl hc.disk
  · exact Or.inl hc.disk
  · obtain ⟨p, hmem, req, r, ⟨hlen, hmethod, hreq⟩, hr, -⟩ := ha.request
    have hn : Names d p.1.code req := ⟨hlen, hmethod, hreq⟩
    rw [decodeAndDispatch, if_neg (not_lt.mpr hlen), hmethod, hreq] at h
    simp only [handlerOf_operation hmem, Handler.serve] at h
    exact dispatchChildRequest_disk hmem hn hp hdir h

end Served

/-! ### What the owners can do to the databases -/

/-- The changes the owner of a data service can make. Only canonization writes the chain and what
hangs on it; the protocol service adds to the queue, attestation drops and attests, and nobody
writes the settings. -/
def MayChange (E : Env) (v w : Store) : Owner → Prop
  | .authProtocol => w.globalDb = v.globalDb ∧ SameChain v w ∧
    (w.pqDb = v.pqDb ∨
      ∃ txnId artifactId txnBytes, Submitted E txnId artifactId txnBytes v.pqDb w.pqDb)
  | .canonization => w.globalDb = v.globalDb ∧
    ((SameChain v w ∧ (w.pqDb = v.pqDb ∨
      (∃ txnId artifactId txnBytes, Submitted E txnId artifactId txnBytes v.pqDb w.pqDb) ∨
      ∃ txnId, Dropped txnId v.pqDb w.pqDb)) ∨
    ∃ blockId blockData fs firstId blk cs, E.fields blockData = some fs ∧
      BlockInserted E fs blockId blockData v firstId blk ∧
      Canonized E (expectedBlockHeight (v.blockDb ffUuid)) blockId cs (withBlock blockId blk v) w)
  | .attestation => w.globalDb = v.globalDb ∧ SameChain v w ∧
    (w.pqDb = v.pqDb ∨ (∃ txnId, Dropped txnId v.pqDb w.pqDb) ∨
      ∃ txnId, Promoted txnId v.pqDb w.pqDb)

section Effects

variable {E : Env} {f : FaultPattern} {v w : Store} {a : Reply} {r : Request} {o : Owner}

theorem canonized_global {height : BitVec 64} {blockId : Uuid} {cs : List (Bytes × ChildFields)}
    (h : Canonized E height blockId cs v w) : w.globalDb = v.globalDb := by
  induction h with
  | nil v => rfl
  | cons first rest ih => exact ih.trans first.global

/-- Only one request writes the settings. -/
theorem effect_global (hr : r.capability ≠ .appGlobalSettingWrite) (h : r.Effect E f v a w) :
    w.globalDb = v.globalDb := by
  cases r with
  | globalSettingsSet key buffer => exact absurd rfl hr
  | transactionSubmit txnId artifactId txnBytes =>
    obtain ⟨pq', rfl, -⟩ := transactionSubmitBody_ends h.2
    rfl
  | transactionDrop txnId =>
    obtain ⟨pq', rfl, -⟩ := transactionDropBody_ends h.2.2
    rfl
  | transactionPromote txnId =>
    obtain ⟨pq', rfl, -⟩ := transactionPromoteBody_ends h.2.2
    rfl
  | blockMake blockId blockData =>
    obtain ⟨-, fs, -, hends⟩ := h
    obtain ⟨_, _, _, blk, cs, -, -, -, hcs, -⟩ := blockMakeBody_ends hends
    have hkept : w.globalDb = (withBlock blockId blk v).globalDb := canonized_global hcs
    exact hkept
  | _ => rw [h.1]

/-- Who may submit, drop, promote and write blocks. -/
theorem mem_privileges (o : Owner) :
    (.appPqTransactionSubmit ∈ privileges o → o ≠ .attestation) ∧
      (.appPqTransactionDrop ∈ privileges o → o ≠ .authProtocol) ∧
      (.appPqTransactionPromote ∈ privileges o → o = .attestation) ∧
      (.appBlockWrite ∈ privileges o → o = .canonization) ∧
      .appGlobalSettingWrite ∉ privileges o := by
  cases o <;> decide

theorem effect_mayChange (hcap : r.capability ∈ privileges o) (h : r.Effect E f v a w) :
    MayChange E v w o := by
  obtain ⟨hsubmit, hdrop, hpromote, hwrite, hset⟩ := mem_privileges o
  have hglobal : w.globalDb = v.globalDb :=
    effect_global (fun heq => hset (heq ▸ hcap)) h
  rcases effect_queue_cases h with ⟨blockId, blockData, fs, rfl, hfs, hends⟩ | ⟨hsame, hqueue⟩
  · obtain rfl := hwrite hcap
    obtain ⟨_, _, firstId, blk, cs, -, -, hins, hcs, -⟩ := blockMakeBody_ends hends
    exact ⟨hglobal, Or.inr ⟨blockId, blockData, fs, firstId, blk, cs, hfs, hins, hcs⟩⟩
  · cases hqueue with
    | submit hs =>
      cases o with
      | authProtocol => exact ⟨hglobal, hsame, Or.inr ⟨_, _, _, hs⟩⟩
      | canonization => exact ⟨hglobal, Or.inl ⟨hsame, Or.inr (Or.inl ⟨_, _, _, hs⟩)⟩⟩
      | attestation => exact absurd rfl (hsubmit hcap)
    | drop hz hf hs =>
      cases o with
      | authProtocol => exact absurd rfl (hdrop hcap)
      | canonization => exact ⟨hglobal, Or.inl ⟨hsame, Or.inr (Or.inr ⟨_, hs⟩)⟩⟩
      | attestation => exact ⟨hglobal, hsame, Or.inr (Or.inl ⟨_, hs⟩)⟩
    | promote hz hf hs =>
      obtain rfl := hpromote hcap
      exact ⟨hglobal, hsame, Or.inr (Or.inr ⟨_, hs⟩)⟩
    | other hr hpq =>
      cases o with
      | authProtocol => exact ⟨hglobal, hsame, Or.inl hpq⟩
      | canonization => exact ⟨hglobal, Or.inl ⟨hsame, Or.inl hpq⟩⟩
      | attestation => exact ⟨hglobal, hsame, Or.inl hpq⟩

theorem length_drop_lt {args : Bytes} (n : ℕ) (h : args.length < maxPayload) :
    (args.drop n).length < maxPayload := by
  rw [List.length_drop]
  omega

/-- A decoder reads what the databases take from a packet of less than 1 GiB. -/
theorem childOperations_decoded {p : Method × (Bytes → Except AgentdError DecodedRequest)}
    (hp : p ∈ childOperations) : ∃ sizeOk request readCert,
      p.2 = decodeRequest sizeOk request readCert ∧
      ∀ args, sizeOk args.length = true → args.length < maxPayload → (request args).Decoded := by
  simp only [childOperations, List.mem_cons, List.not_mem_nil, or_false] at hp
  rcases hp with rfl | rfl | rfl | rfl | rfl | rfl | rfl | rfl | rfl | rfl | rfl | rfl | rfl
  case inr.inl =>
    simp only [decodeRequestGlobalSettingSet]
    refine ⟨_, _, _, rfl, ?_⟩
    intro args _ hlen
    exact length_drop_lt 8 hlen
  case inr.inr.inl =>
    simp only [decodeRequestTransactionSubmit]
    refine ⟨_, _, _, rfl, ?_⟩
    intro args hsize hlen
    exact ⟨by simpa using hsize, length_drop_lt 32 hlen⟩
  case inr.inr.inr.inr.inr.inr.inr.inr.inl =>
    simp only [decodeRequestBlockMake]
    refine ⟨_, _, _, rfl, ?_⟩
    intro args _ hlen
    exact length_drop_lt 16 hlen
  all_goals
    simp only [decodeRequestGlobalSettingGet, decodeRequestTransactionGetFirst,
      decodeRequestTransactionGet, decodeRequestTransactionDrop, decodeRequestTransactionPromote,
      decodeRequestArtifactRead, decodeRequestBlockRead, decodeRequestBlockIdByHeightRead,
      decodeRequestBlockIdLatestRead, decodeRequestCanonizedTransactionGet]
    refine ⟨_, _, _, rfl, ?_⟩
    intro _ _ _
    trivial

theorem decoded_of_short {p : Method × (Bytes → Except AgentdError DecodedRequest)} {req : Bytes}
    {q : DecodedRequest} (hp : p ∈ childOperations) (hlen : req.length < maxPayload)
    (hq : p.2 req = .ok q) : q.request.Decoded := by
  obtain ⟨sizeOk, request, readCert, hdec, hsmall⟩ := childOperations_decoded hp
  rw [hdec] at hq
  obtain ⟨args, hinit, hsize, hreq, -⟩ := decodeRequest_ok hq
  have hargs : args.length ≤ req.length := by
    rw [requestInit_ok hinit, List.length_append]
    exact Nat.le_add_left _ _
  rw [hreq]
  exact hsmall args hsize (hargs.trans_lt hlen)

end Effects

/-! ### Runs -/

def AllPrivileged (conf : DataConf) (s : DataServices) : Prop :=
  ∀ o inst, s.process o = some inst → Privileged conf o inst

/-- Operation `c` was performed for the owner `o` over the configured directory, as its service was
entitled to by the packet. -/
structure PerformedFor (E : Env) (conf : DataConf) (o : Owner) (d : Delivery) (c : Invocation)
    (s s' : DataServices) : Prop where
  entitled : ∃ inst i, s.process o = some inst ∧ Entitled inst d i c.request
  decoded : c.request.Decoded
  capability : c.request.capability ∈ privileges o
  succeeds : ∃ a, (perform E (s.disk conf.dir) c).1 = .ok a
  disk : s'.disk = Function.update s.disk conf.dir (perform E (s.disk conf.dir) c).2

section Runs

variable {E : Env} {conf : DataConf} {s s' s₁ s₂ : DataServices} {e : Event} {disk : Bytes → Store}
  {log l₁ l₂ : List (Taken DataServices Event)}

theorem allPrivileged_stop (hs : AllPrivileged conf s) (o : Owner) (disk : Bytes → Store) :
    AllPrivileged conf ⟨Function.update s.process o none, disk⟩ := by
  intro o' inst hinst
  by_cases ho : o' = o
  · subst ho
    simp at hinst
  · simp only [Function.update_of_ne ho] at hinst
    exact hs o' inst hinst

theorem allPrivileged_set (hs : AllPrivileged conf s) {o : Owner} {inst : Instance}
    (hp : Privileged conf o inst) (disk : Bytes → Store) :
    AllPrivileged conf ⟨Function.update s.process o (some inst), disk⟩ := by
  intro o' inst' hinst
  by_cases ho : o' = o
  · subst ho
    simp only [Function.update_self] at hinst
    cases hinst
    exact hp
  · simp only [Function.update_of_ne ho] at hinst
    exact hs o' inst' hinst

/-- Everything an event can do. -/
theorem step_cases (hs : AllPrivileged conf s) (h : step E conf s e = some s') :
    AllPrivileged conf s' ∧
      (s'.disk = s.disk ∨ ∃ o d c, e = .serve o d ∧ PerformedFor E conf o d c s s') := by
  cases e with
  | start o init reduce =>
    simp only [step] at h
    split at h
    · cases h
    · split at h
      · rename_i v hv
        obtain ⟨hp, hdisk⟩ := started_privileged hv
        cases h
        exact ⟨allPrivileged_set hs hp _, Or.inl hdisk⟩
      · cases h
        exact ⟨hs, Or.inl rfl⟩
  | stop o =>
    cases h
    exact ⟨allPrivileged_stop hs o _, Or.inl rfl⟩
  | serve o d =>
    obtain ⟨inst, hinst, h⟩ := Option.bind_eq_some_iff.mp h
    have hp := hs o inst hinst
    by_cases hlen : maxPayload ≤ d.packet.length
    · rw [if_pos hlen] at h
      cases h
      exact ⟨allPrivileged_stop hs o _, Or.inl rfl⟩
    · rw [if_neg hlen] at h
      obtain ⟨⟨v, resp, status⟩, hserved, hs'⟩ := Option.map_eq_some_iff.mp h
      subst hs'
      have hv : Privileged conf o v.inst := served_privileged (s := ⟨inst, s.disk⟩) hp hserved
      refine ⟨?_, ?_⟩
      · by_cases hstatus : status = .ok ()
        · simp only [if_pos hstatus]
          exact allPrivileged_set hs hv _
        · simp only [if_neg hstatus]
          exact allPrivileged_stop hs o _
      · rcases served_disk (s := ⟨inst, s.disk⟩) hp hp.details hserved with hdisk | ⟨c, hc⟩
        · exact Or.inl hdisk
        · obtain ⟨i, hentitled, -⟩ := hc.entitled
          obtain ⟨p, hmem, req, r, ⟨-, -, hreq⟩, hr, -, hc'⟩ := hentitled.request
          have hshort : req.length < maxPayload := by
            rw [← hreq, List.length_drop]
            omega
          refine Or.inr ⟨o, d, c, rfl, ⟨inst, i, hinst, hentitled⟩, ?_, hentitled.privilege hp,
            hc.succeeds, hc.disk⟩
          rw [← hc']
          exact decoded_of_short hmem hshort hr

theorem allPrivileged_run (h : Run (step E conf) (noServices disk) log s) : AllPrivileged conf s :=
  h.invariant (fun _ _ hnone => nomatch hnone) fun hs hstep => (step_cases hs hstep).1

theorem performedFor_mayChange {o : Owner} {d : Delivery} {c : Invocation}
    (h : PerformedFor E conf o d c s s') {dir : Bytes} (hne : s'.disk dir ≠ s.disk dir) :
    dir = conf.dir ∧ s'.disk dir = (perform E (s.disk dir) c).2 ∧
      MayChange E (s.disk dir) (s'.disk dir) o := by
  rw [h.disk] at hne ⊢
  have hdir : dir = conf.dir := by
    by_contra hdir
    rw [Function.update_of_ne hdir] at hne
    exact hne rfl
  subst hdir
  rw [Function.update_self] at hne ⊢
  obtain ⟨a, ha⟩ := h.succeeds
  obtain ⟨w, -, heff, hw⟩ := perform_ok ha
  cases hc : c.commitFails with
  | true =>
    rw [hw, if_pos hc] at hne
    exact absurd rfl hne
  | false =>
    refine ⟨rfl, rfl, ?_⟩
    rw [hw, hc]
    exact effect_mayChange h.capability heff

/-- A packet that a privileged service answers with stored data asks for an operation that the
service is entitled to. -/
theorem answered_with_privilege {o : Owner} {inst : Instance} (hp : Privileged conf o inst)
    {d : Delivery} {v : Service} {r : Response} {st : Except AgentdError Unit}
    (h : decodeAndDispatch E ⟨inst, disk⟩ d = some (v, some r, st)) (hdata : r.payload ≠ none)
    (hm : r.method ≠ Method.llChildContextCreate.code) :
    ∃ i q, Entitled inst d i q ∧ q.capability ∈ privileges o ∧
      bits 32 (d.packet.take 4) = BitVec.ofNat 32 q.capability.ctorIdx := by
  obtain ⟨free, hfree⟩ := hp.slots
  obtain ⟨i, ha⟩ := served_data (s := ⟨inst, disk⟩) hfree h (Or.inr ⟨r, rfl, hdata, hm⟩)
  obtain ⟨q, hq, hmethod⟩ := hp.entitled ha
  exact ⟨i, q, hq, hq.privilege hp, hmethod⟩

/-- In every run, whatever packets the three owners send and in whatever order: a data service holds
exactly its privileges and its child contexts hold no others. It answers with stored data only a
packet for an operation that its root context and the open child context named there both allow. A
database changes only while such a packet is served, in the configured directory, by the operation
asked for, which is a change the owner may make. -/
theorem services_keep_to_their_privileges (h : Run (step E conf) (noServices disk) log s) :
    (∀ o inst, s.process o = some inst → inst.apicaps = reducedcaps o ∧
      (∀ i, (inst.children i).dispose = true →
        Within (inst.children i).childcaps (reducedcaps o)) ∧
      ∀ d v r st, decodeAndDispatch E ⟨inst, s.disk⟩ d = some (v, some r, st) →
        r.payload ≠ none → r.method ≠ Method.llChildContextCreate.code →
        ∃ i q, Entitled inst d i q ∧ q.capability ∈ privileges o ∧
          bits 32 (d.packet.take 4) = BitVec.ofNat 32 q.capability.ctorIdx) ∧
    ∀ t ∈ log, ∀ dir, t.after.disk dir ≠ t.before.disk dir → dir = conf.dir ∧
      ∃ o d inst i c, t.event = .serve o d ∧ t.before.process o = some inst ∧
        Entitled inst d i c.request ∧ c.request.capability ∈ privileges o ∧
        t.after.disk dir = (perform E (t.before.disk dir) c).2 ∧
        MayChange E (t.before.disk dir) (t.after.disk dir) o := by
  constructor
  · intro o inst hinst
    have hp := allPrivileged_run h o inst hinst
    exact ⟨hp.apicaps, hp.children, fun d v r st => answered_with_privilege hp⟩
  · intro t ht dir hne
    obtain ⟨hbefore, hstep⟩ := h.before (P := AllPrivileged conf) (fun _ _ hnone => nomatch hnone)
      (fun hs hstep => (step_cases hs hstep).1) ht
    rcases (step_cases hbefore hstep).2 with hdisk | ⟨o, d, c, he, hc⟩
    · rw [hdisk] at hne
      exact absurd rfl hne
    · obtain ⟨hdir, hperformed, hchange⟩ := performedFor_mayChange hc hne
      obtain ⟨inst, i, hinst, hentitled⟩ := hc.entitled
      exact ⟨hdir, o, d, inst, i, c, he, hinst, hentitled, hc.capability, hperformed, hchange⟩

/-! ### The chain -/

def servedFor (o : Owner) (t : Taken DataServices Event) : Bool :=
  match t.event with
  | .serve o' _ => o' = o
  | _ => false

/-- An operation adds a block to the chain only for canonization, and then one. -/
theorem performedFor_chain {o : Owner} {d : Delivery} {c : Invocation} {dir : Bytes}
    {bs : List Block} (h : PerformedFor E conf o d c s s')
    (hc : Chain E (s.disk dir).blockDb (s.disk dir).heightDb bs) :
    ∃ more, Chain E (s'.disk dir).blockDb (s'.disk dir).heightDb (bs ++ more) ∧
      more.length ≤ if o = .canonization then 1 else 0 := by
  have hkept : ∃ more, Chain E (s.disk dir).blockDb (s.disk dir).heightDb (bs ++ more) ∧
      more.length ≤ if o = .canonization then 1 else 0 :=
    ⟨[], by simpa using hc, Nat.zero_le _⟩
  rw [h.disk]
  by_cases hdir : dir = conf.dir
  · subst hdir
    rw [Function.update_self]
    obtain ⟨a, ha⟩ := h.succeeds
    obtain ⟨w, -, heff, hw⟩ := perform_ok ha
    rw [hw]
    cases hcommit : c.commitFails with
    | true => exact hkept
    | false =>
      refine ⟨_, effect_chain hc ⟨hcommit, h.decoded⟩ heff, ?_⟩
      rcases effect_cases heff with ⟨blockId, blockData, -, hreq, -, -⟩ | ⟨hreq, -⟩
      · have ho : o = .canonization := by
          have hcap := h.capability
          rw [hreq] at hcap
          exact (mem_privileges o).2.2.2.1 hcap
        rw [blocksMade_blockMake hreq, if_pos ho]
        exact le_rfl
      · rw [blocksMade_eq_nil hreq]
        exact Nat.zero_le _
  · rw [Function.update_of_ne hdir]
    exact hkept

/-- From any state on, the chain grows by at most one block for each packet that canonization sends,
and by nothing else. -/
theorem chain_grows (hrun : Run (step E conf) s₁ l₂ s₂) (hs : AllPrivileged conf s₁) {dir : Bytes}
    {bs : List Block} (hc : Chain E (s₁.disk dir).blockDb (s₁.disk dir).heightDb bs) :
    AllPrivileged conf s₂ ∧ ∃ more,
      Chain E (s₂.disk dir).blockDb (s₂.disk dir).heightDb (bs ++ more) ∧
      more.length ≤ (l₂.filter (servedFor .canonization)).length := by
  refine hrun.history (P := fun log s => AllPrivileged conf s ∧ ∃ more,
    Chain E (s.disk dir).blockDb (s.disk dir).heightDb (bs ++ more) ∧
      more.length ≤ (log.filter (servedFor .canonization)).length) ⟨hs, [], by simpa using hc,
        le_rfl⟩ ?_
  rintro log s e s' ⟨hs, more, hmore, hlen⟩ hstep
  obtain ⟨hs', hdisk | ⟨o, d, c, rfl, hperformed⟩⟩ := step_cases hs hstep
  · refine ⟨hs', more, by rw [hdisk]; exact hmore, hlen.trans ?_⟩
    rw [List.filter_append, List.length_append]
    exact Nat.le_add_right _ _
  · obtain ⟨new, hnew, hone⟩ := performedFor_chain hperformed hmore
    refine ⟨hs', more ++ new, by rw [← List.append_assoc]; exact hnew, ?_⟩
    rw [List.filter_append, List.length_append, List.length_append]
    refine Nat.add_le_add hlen (hone.trans ?_)
    by_cases ho : o = .canonization
    · simp [servedFor, ho]
    · simp [ho]

/-- What the services leave in the directory is what a sequence of calls leaves, each made for an
owner who holds the privilege for it. -/
theorem stored_by_calls (h : Run (step E conf) (noServices fun _ => emptyStore) log s) :
    ∃ calls : List (Owner × Invocation × Outcome),
      DataserviceRequests.Run E (fun _ i =>
      i.request.Decoded) (calls.map Prod.snd) (s.disk conf.dir) ∧
      ∀ c ∈ calls, c.2.1.request.capability ∈ privileges c.1 := by
  refine (h.invariant (P := fun s => AllPrivileged conf s ∧
    ∃ calls : List (Owner × Invocation × Outcome),
      DataserviceRequests.Run E (fun _ i => i.request.Decoded) (calls.map Prod.snd)
        (s.disk conf.dir) ∧ ∀ c ∈ calls, c.2.1.request.capability ∈ privileges c.1)
    ⟨fun _ _ hnone => (nomatch hnone), [], .nil, by simp⟩ ?_).2
  rintro s e s' ⟨hs, calls, hrun, hcalls⟩ hstep
  obtain ⟨hs', hdisk | ⟨o, d, c, -, hc⟩⟩ := step_cases hs hstep
  · exact ⟨hs', calls, by rw [hdisk]; exact hrun, hcalls⟩
  · refine ⟨hs', calls ++ [(o, c, (perform E (s.disk conf.dir) c).1)], ?_, ?_⟩
    · rw [List.map_append, hc.disk, Function.update_self]
      exact .snoc hrun hc.decoded
    · intro c' hc'
      rcases List.mem_append.mp hc' with hold | hnew
      · exact hcalls c' hold
      · rw [List.mem_singleton.mp hnew]
        exact hc.capability

/-- Three services that write the one database leave it as one sequence of calls does, made within
the privileges; so it holds a chain at any time. Between any two times the chain is only extended,
by at most one block for each packet that canonization sends meanwhile. -/
theorem only_canonization_extends_chain
    (h₁ : Run (step E conf) (noServices fun _ => emptyStore) l₁ s₁)
    (h₂ : Run (step E conf) s₁ l₂ s₂) :
    (∃ calls : List (Owner × Invocation × Outcome),
      DataserviceRequests.Run E (fun _ i => i.request.Decoded) (calls.map Prod.snd)
        (s₂.disk conf.dir) ∧ ∀ c ∈ calls, c.2.1.request.capability ∈ privileges c.1) ∧
    ∃ bs more, Chain E (s₁.disk conf.dir).blockDb (s₁.disk conf.dir).heightDb bs ∧
      Chain E (s₂.disk conf.dir).blockDb (s₂.disk conf.dir).heightDb (bs ++ more) ∧
      more.length ≤ (l₂.filter (servedFor .canonization)).length := by
  refine ⟨stored_by_calls (h₁.trans h₂), ?_⟩
  obtain ⟨calls, hcalls, -⟩ := stored_by_calls h₁
  obtain ⟨bs, hbs⟩ := run_exists_chain hcalls
  obtain ⟨-, more, hmore, hlen⟩ := chain_grows h₂ (allPrivileged_run h₁) hbs
  exact ⟨bs, more, hbs, hmore, hlen⟩

end Runs

/-! The protocol service and canonization over one directory. A client's transaction is
submitted. -/

def sampleConf : DataConf := ⟨0, [47]⟩

def startEvents : List Event :=
  [.start .authProtocol (workingDelivery []) (workingDelivery []),
    .start .canonization (workingDelivery []) (workingDelivery [])]

def submitEvents : List Event :=
  [.serve .authProtocol (workingDelivery (encodeRequestChildContextCreate (BitVec.allOnes 32))),
    .serve .authProtocol (workingDelivery (encodeRequestTransactionSubmit 1023 5 7 [1]))]

def sampleStep : DataServices → Event → Option DataServices := step (codecEnv false) sampleConf

theorem exists_sample_run : ∃ l₁ s₁ l₂ s₂,
    Run sampleStep (noServices fun _ => emptyStore) l₁ s₁ ∧ Run sampleStep s₁ l₂ s₂ ∧
      l₂.map Taken.event = submitEvents ∧ ((s₁.disk [47]).pqDb 5).isSome = false ∧
      ((s₂.disk [47]).pqDb 5).isSome = true := by
  have hrun : ((execute sampleStep (noServices fun _ => emptyStore) startEvents).bind fun r =>
      (execute sampleStep r.2 submitEvents).map fun r' =>
        (((r.2.disk [47]).pqDb 5).isSome, ((r'.2.disk [47]).pqDb 5).isSome)) =
      some (false, true) := by
    decide +kernel
  obtain ⟨⟨l₁, s₁⟩, h₁, hrest⟩ := Option.bind_eq_some_iff.mp hrun
  obtain ⟨⟨l₂, s₂⟩, h₂, heq⟩ := Option.map_eq_some_iff.mp hrest
  obtain ⟨hbefore, hafter⟩ := Prod.mk.inj heq
  exact ⟨l₁, s₁, l₂, s₂, (run_execute h₁).1, (run_execute h₂).1, (run_execute h₂).2, hbefore,
    hafter⟩

theorem submit_keeps_to_privileges : ∃ log s,
    Run sampleStep (noServices fun _ => emptyStore) log s ∧
    ((s.disk [47]).pqDb 5).isSome = true ∧
    ∀ t ∈ log, ∀ dir, t.after.disk dir ≠ t.before.disk dir → dir = sampleConf.dir ∧
      ∃ o d inst i c, t.event = .serve o d ∧ t.before.process o = some inst ∧
        Entitled inst d i c.request ∧ c.request.capability ∈ privileges o ∧
        t.after.disk dir = (perform (codecEnv false) (t.before.disk dir) c).2 ∧
        MayChange (codecEnv false) (t.before.disk dir) (t.after.disk dir) o := by
  obtain ⟨l₁, s₁, l₂, s₂, h₁, h₂, -, -, hafter⟩ := exists_sample_run
  exact ⟨l₁ ++ l₂, s₂, h₁.trans h₂, hafter,
    (services_keep_to_their_privileges (h₁.trans h₂)).2⟩

theorem submit_keeps_chain : ∃ l₁ s₁ l₂ s₂,
    Run sampleStep (noServices fun _ => emptyStore) l₁ s₁ ∧ Run sampleStep s₁ l₂ s₂ ∧
    ((s₂.disk [47]).pqDb 5).isSome = true ∧ ∃ bs,
      Chain (codecEnv false) (s₁.disk [47]).blockDb (s₁.disk [47]).heightDb bs ∧
      Chain (codecEnv false) (s₂.disk [47]).blockDb (s₂.disk [47]).heightDb bs := by
  obtain ⟨l₁, s₁, l₂, s₂, h₁, h₂, hevents, -, hafter⟩ := exists_sample_run
  obtain ⟨-, bs, more, hbs, hmore, hlen⟩ := only_canonization_extends_chain h₁ h₂
  have hnone : (l₂.filter (servedFor .canonization)).length = 0 := by
    rw [List.length_eq_zero_iff, List.filter_eq_nil_iff]
    intro t ht
    have he : t.event ∈ submitEvents := hevents ▸ List.mem_map_of_mem ht
    simp only [submitEvents, List.mem_cons, List.not_mem_nil, or_false] at he
    rcases he with he | he
    · simp [servedFor, he]
    · simp [servedFor, he]
  rw [hnone, Nat.le_zero, List.length_eq_zero_iff] at hlen
  rw [hlen, List.append_nil] at hmore
  exact ⟨l₁, s₁, l₂, s₂, h₁, h₂, hafter, bs, hbs, hmore⟩

end ServicePrivileges
