import Agentd.CapabilityConfinement

/-! # The root context and its database

The root capabilities are granted before the database is opened and stay when that fails, while the
details are released. Contexts are backed by an open database exactly as long as the one root
context that is created opens its database. -/
namespace RootContextDatabase

open ByteString
open DataserviceRecords
open DataserviceStore
open DataserviceRequests
open DataserviceDispatch
open ChildContexts
open CapabilityConfinement

/-- Child contexts exist or can be made only over an open database, and a child context that a
request finds points to it. -/
structure Backed (inst : Instance) : Prop where
  usable : bitcapIsset inst.apicaps .llChildContextCreate = true ∨
    (∃ i, (inst.children i).dispose = true) → ∃ datadir, inst.details = .opened datadir
  operations : ∀ offset i, childContextLookup inst offset = .ok i →
    (inst.children i).root = true ∧ ∃ datadir, inst.details = .opened datadir

def OpensRoot (s : Service) (d : Delivery) : Prop :=
  bitcapIsset s.inst.apicaps .llRootContextCreate = true → ∀ req datadir,
    Names d Method.llRootContextCreate.code req →
    decodeRequestRootContextInit d.datadirAllocFails req = .ok datadir → d.openFails = none

section Served

variable {E : Env} {s s' : Service} {d : Delivery} {resp : Option Response}
  {st : Except AgentdError Unit}

/-- What creating the root context leaves behind, whether the database opens or not. -/
theorem served_root {req datadir : Bytes}
    (hcap : bitcapIsset s.inst.apicaps .llRootContextCreate = true)
    (hn : Names d Method.llRootContextCreate.code req)
    (hdec : decodeRequestRootContextInit d.datadirAllocFails req = .ok datadir)
    (h : decodeAndDispatch E s d = some (s', resp, st)) :
    s'.inst = { s.inst with
      apicaps := bitcapSetFalse (BitVec.allOnes 32) .llRootContextCreate
      details := (databaseOpen d.openFails datadir).1 } := by
  obtain ⟨hlen, hmethod, hreq⟩ := hn
  have hcap' : ¬ bitcapIsset s.inst.apicaps .llRootContextCreate = false := by simp [hcap]
  rw [decodeAndDispatch, if_neg (not_lt.mpr hlen), hmethod, hreq] at h
  replace h : dispatchRootContextCreate s d req = some (s', resp, st) := h
  simp only [dispatchRootContextCreate, hdec, rootContextInit, if_neg hcap'] at h
  rw [(writeStatus_cases h).1]

theorem databaseOpen_opened {fails : Option OpenStep} {datadir dir : Bytes}
    (h : (databaseOpen fails datadir).1 = .opened dir) : fails = none := by
  cases fails with
  | none => rfl
  | some step => cases step <;> cases h

theorem Within.isset_of {a b : Bitcap} {cap : ApiCap} (h : Within a b)
    (ha : bitcapIsset a cap = true) : bitcapIsset b cap = true := by
  by_contra hb
  rw [Bool.not_eq_true] at hb
  exact absurd (ha.symm.trans (h.isset hb)) (by decide)

/-- The invariant behind `Backed`, for every open child context. -/
structure Rooted (inst : Instance) : Prop where
  root : ∀ i, (inst.children i).dispose = true → (inst.children i).root = true
  usable : bitcapIsset inst.apicaps .llChildContextCreate = true ∨
    (∃ i, (inst.children i).dispose = true) → ∃ datadir, inst.details = .opened datadir

theorem Rooted.backed {inst : Instance} (h : Rooted inst) : Backed inst := by
  refine ⟨h.usable, fun offset i hi => ?_⟩
  obtain ⟨-, hopen⟩ := childContextLookup_ok hi
  exact ⟨h.root i hopen, h.usable (Or.inr ⟨i, hopen⟩)⟩

theorem rooted_new {inst : Instance} (hnew : inst = instanceCreate) : Rooted inst := by
  have hclosed : ∀ i, (inst.children i).dispose ≠ true := by
    intro i
    rw [hnew, not_open_instanceCreate i]
    decide
  refine ⟨fun i hopen => absurd hopen (hclosed i), ?_⟩
  rintro (hcap | ⟨i, hopen⟩)
  · rw [hnew, apicaps_instanceCreate] at hcap
    exact absurd hcap (by decide)
  · exact absurd hopen (hclosed i)

/-- One packet keeps the contexts backed when it opens the database it creates the root context
over. -/
theorem served_rooted {free : List (Fin maxChildContexts)} (hfree : Slots s.inst free)
    (hs : Rooted s.inst) (hopens : OpensRoot s d)
    (h : decodeAndDispatch E s d = some (s', resp, st)) : Rooted s'.inst := by
  rcases served_cases hfree h with ⟨rfl, -⟩ | ⟨hr, -⟩ | ⟨hr, -⟩ | ⟨caps, i, hc, -⟩ | ⟨⟨i, hc⟩, -⟩ |
    ⟨i, -, hinst⟩
  · exact hs
  · obtain ⟨req, datadir, hn, hdec⟩ := hr.request
    have hinst := served_root hr.authorized hn hdec h
    rw [hopens hr.authorized req datadir hn hdec] at hinst
    rw [hinst]
    exact ⟨hs.root, fun _ => ⟨datadir, rfl⟩⟩
  · obtain ⟨req, caps, -, -, hinst⟩ := hr.caps
    rw [hinst]
    refine ⟨hs.root, fun hu => hs.usable (hu.imp_left fun hcap => ?_)⟩
    exact Within.isset_of (within_intersect_left _ _) hcap
  · rw [hc.instance_eq]
    refine ⟨fun j hopen => ?_, fun _ => hs.usable (Or.inl hc.authorized)⟩
    by_cases hj : j = i
    · subst hj
      simp only [Function.update_self]
    · simp only [Function.update_of_ne hj] at hopen ⊢
      exact hs.root j hopen
  · rw [hc.instance_eq]
    have hother : ∀ j, (childDetailsDelete { s.inst with
        children := Function.update s.inst.children i
          { s.inst.children i with root := false, childcaps := 0 } } i).children j |>.dispose →
        j ≠ i ∧ (s.inst.children j).dispose = true := by
      intro j hopen
      by_cases hj : j = i
      · subst hj
        simp [childDetailsDelete, clearedChild] at hopen
      · exact ⟨hj, by simpa [childDetailsDelete, Function.update_of_ne hj] using hopen⟩
    refine ⟨fun j hopen => ?_, fun hu => hs.usable (hu.imp_right ?_)⟩
    · obtain ⟨hj, hopen'⟩ := hother j hopen
      simpa [childDetailsDelete, Function.update_of_ne hj] using hs.root j hopen'
    · rintro ⟨j, hopen⟩
      exact ⟨j, (hother j hopen).2⟩
  · rw [hinst]
    exact hs

/-- A root context whose database did not open is not backed. -/
theorem not_backed_of_failed_open {req datadir : Bytes}
    (hcap : bitcapIsset s.inst.apicaps .llRootContextCreate = true)
    (hn : Names d Method.llRootContextCreate.code req)
    (hdec : decodeRequestRootContextInit d.datadirAllocFails req = .ok datadir)
    (h : decodeAndDispatch E s d = some (s', resp, st)) (hb : Backed s'.inst) :
    d.openFails = none := by
  have hinst := served_root hcap hn hdec h
  rw [hinst] at hb
  have hcreate : bitcapIsset (bitcapSetFalse (BitVec.allOnes 32) .llRootContextCreate)
      .llChildContextCreate = true := by decide
  obtain ⟨dir, hdir⟩ := hb.usable (Or.inl hcreate)
  exact databaseOpen_opened hdir

end Served

section Runs

variable {E : Env} {disk : Bytes → Store} {log : List Step} {s : Service}

theorem serving_rooted (h : Serving E disk log s)
    (hall : ∀ t ∈ log, OpensRoot t.before t.delivery) : Rooted s.inst := by
  induction h with
  | nil => exact rooted_new (by dsimp only)
  | @snoc log s s' d resp st earlier served ih =>
    obtain ⟨free, hfree⟩ := earlier.confined.slots
    have hbefore := ih fun t ht => hall t (List.mem_append_left _ ht)
    exact served_rooted hfree hbefore (hall ⟨s, d, s', resp, st⟩ (by simp)) served

/-- In every run, the contexts are backed by an open database after each packet if and only if the
packet that creates the root context opens its database. -/
theorem contexts_backed_iff_root_opens (h : Serving E disk log s) :
    (∀ t ∈ log, Backed t.after.inst) ↔ ∀ t ∈ log, OpensRoot t.before t.delivery := by
  constructor
  · intro hbacked t ht hcap req datadir hn hdec
    obtain ⟨l₁, l₂, hlog⟩ := List.append_of_mem ht
    obtain ⟨-, hserved⟩ := h.split hlog
    exact not_backed_of_failed_open hcap hn hdec hserved (hbacked t ht)
  · intro hopens t ht
    obtain ⟨l₁, l₂, hlog⟩ := List.append_of_mem ht
    obtain ⟨hrun, hserved⟩ := h.split hlog
    apply (serving_rooted (hrun.snoc hserved) ?_).backed
    intro u hu
    apply hopens u
    rw [hlog]
    rcases List.mem_append.mp hu with hu | hu
    · exact List.mem_append_left _ hu
    · rw [List.mem_singleton.mp hu]
      simp

/-- A root context is created and then a child context; the database may fail to open. -/
def openAndJoin (fails : Option OpenStep) : List Delivery :=
  [{ workingDelivery openingPacket with openFails := fails }, workingDelivery joiningPacket]

theorem serving_openAndJoin (E : Env) (disk : Bytes → Store) (fails : Option OpenStep) :
    ∃ log s i, Serving E disk log s ∧ log.map Step.delivery = openAndJoin fails ∧
      s.inst.details = (databaseOpen fails [47]).1 ∧ (s.inst.children i).dispose = true ∧
      ∃ t ∈ log, t.after = s := by
  obtain ⟨i, hnew⟩ := instanceCreate_eq
  have hnil : Serving E disk [] ⟨instanceCreate, disk⟩ := .nil
  rw [hnew] at hnil
  have hrun := (hnil.snoc (served_opening fails instanceCreate.children (some i))).snoc
    (served_joining _ instanceCreate.children i)
  refine ⟨_, _, i, hrun, rfl, rfl, ?_, _, List.mem_append_right _ (List.mem_singleton.mpr rfl), rfl⟩
  simp only [Function.update_self]

theorem opened_root_backs_child : ∃ log s i, Serving (codecEnv false) (fun _ => emptyStore) log s ∧
    log.map Step.delivery = openAndJoin none ∧ (s.inst.children i).dispose = true ∧
    Backed s.inst := by
  obtain ⟨log, s, i, hrun, hlog, -, hopen, t, ht, rfl⟩ :=
    serving_openAndJoin (codecEnv false) (fun _ => emptyStore) none
  refine ⟨log, t.after, i, hrun, hlog, hopen, ?_⟩
  apply (contexts_backed_iff_root_opens hrun).mpr _ t ht
  intro u hu _ _ _ _ _
  have hmem : u.delivery ∈ openAndJoin none := hlog ▸ List.mem_map_of_mem hu
  rcases List.mem_cons.mp hmem with h | h
  · rw [h]
  · rw [List.mem_singleton.mp h]
    rfl

/-- The database does not open, and a child context is made over the released details. -/
theorem child_over_released_details : ¬ ∀ (E : Env) (disk : Bytes → Store) (log : List Step)
    (s : Service), Serving E disk log s → ∀ t ∈ log, Backed t.after.inst := by
  intro hall
  obtain ⟨log, s, i, hrun, -, hdetails, hopen, t, ht, rfl⟩ :=
    serving_openAndJoin (codecEnv false) (fun _ => emptyStore) (some .envOpen)
  obtain ⟨dir, hdir⟩ := (hall _ _ log _ hrun t ht).usable (Or.inr ⟨i, hopen⟩)
  exact absurd (hdetails.symm.trans hdir) (by simp [databaseOpen])

end Runs

end RootContextDatabase
