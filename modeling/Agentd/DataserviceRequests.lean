import Agentd.DataserviceBlocks

/-! # Calls on the data service

A call names a request, the capabilities of the child context and the failures of the outside
calls it meets. It starts without an open transaction. `perform` gives its status and the
committed store after it; `perform_cases` says everything a call can do. -/
namespace DataserviceRequests

open ByteString
open CertificateFields
open FaultyTransactions
open DataserviceRecords
open DataserviceStore
open DataserviceQueue
open DataserviceBlocks

inductive Request where
  | globalSettingsGet (key : BitVec 64) (size : ℕ)
  | globalSettingsSet (key : BitVec 64) (buffer : Bytes)
  | transactionSubmit (txnId artifactId : Uuid) (txnBytes : Bytes)
  | transactionDrop (txnId : Uuid)
  | transactionPromote (txnId : Uuid)
  | transactionGet (txnId : Uuid)
  | transactionGetFirst
  | canonizedTransactionGet (txnId : Uuid)
  | blockMake (blockId : Uuid) (blockData : Bytes)
  | blockGet (blockId : Uuid)
  | latestBlockIdGet
  | blockIdByHeightGet (height : BitVec 64)
  | artifactGet (artifactId : Uuid)
  deriving DecidableEq

inductive Reply where
  | done
  | value (b : Bytes)
  | transaction (node : DataTransactionNode) (cert : Bytes)
  | block (node : DataBlockNode) (cert : Bytes)
  | blockId (id : Uuid)
  | artifact (record : DataArtifactRecord)
  deriving DecidableEq

def Request.run (E : Env) (caps : Bitcap) : Request → Op Reply
  | .globalSettingsGet key size => do
    let b ← DataserviceBlocks.globalSettingsGet caps key size
    pure (.value b)
  | .globalSettingsSet key buffer => do
    DataserviceBlocks.globalSettingsSet caps key buffer
    pure .done
  | .transactionSubmit txnId artifactId txnBytes => do
    DataserviceQueue.transactionSubmit E caps txnId artifactId txnBytes
    pure .done
  | .transactionDrop txnId => do
    DataserviceQueue.transactionDrop caps txnId
    pure .done
  | .transactionPromote txnId => do
    DataserviceQueue.transactionPromote caps txnId
    pure .done
  | .transactionGet txnId => do
    let (node, cert) ← DataserviceQueue.transactionGet caps txnId
    pure (.transaction node cert)
  | .transactionGetFirst => do
    let (node, cert) ← DataserviceQueue.transactionGetFirst caps
    pure (.transaction node cert)
  | .canonizedTransactionGet txnId => do
    let (node, cert) ← DataserviceQueue.canonizedTransactionGet caps txnId
    pure (.transaction node cert)
  | .blockMake blockId blockData => do
    DataserviceBlocks.blockMake E caps blockId blockData
    pure .done
  | .blockGet blockId => do
    let (node, cert) ← DataserviceBlocks.blockGet E caps blockId
    pure (.block node cert)
  | .latestBlockIdGet => do
    let id ← DataserviceBlocks.latestBlockIdGet E caps
    pure (.blockId id)
  | .blockIdByHeightGet height => do
    let id ← DataserviceBlocks.blockIdByHeightGet caps height
    pure (.blockId id)
  | .artifactGet artifactId => do
    let record ← DataserviceBlocks.artifactGet caps artifactId
    pure (.artifact record)

def Request.capability : Request → ApiCap
  | .globalSettingsGet .. => .appGlobalSettingRead
  | .globalSettingsSet .. => .appGlobalSettingWrite
  | .transactionSubmit .. => .appPqTransactionSubmit
  | .transactionDrop .. => .appPqTransactionDrop
  | .transactionPromote .. => .appPqTransactionPromote
  | .transactionGet .. => .appPqTransactionRead
  | .transactionGetFirst => .appPqTransactionFirstRead
  | .canonizedTransactionGet .. => .appTransactionRead
  | .blockMake .. => .appBlockWrite
  | .blockGet .. => .appBlockRead
  | .latestBlockIdGet => .appBlockIdLatestRead
  | .blockIdByHeightGet .. => .appBlockIdByHeightRead
  | .artifactGet .. => .appArtifactRead

/-- What a request that ends well with reply `a` found in its copy `v` of the store and made of
it. Reads leave the store alone. -/
def Request.Effect (E : Env) (f : FaultPattern) (v : Store) (a : Reply) (w : Store) :
    Request → Prop
  | .globalSettingsSet key buffer => a = .done ∧ Ends (putOrFail globalDb key buffer false) f v () w
  | .transactionSubmit txnId artifactId txnBytes =>
    a = .done ∧ Ends (transactionSubmitBody E txnId artifactId txnBytes) f v () w
  | .transactionDrop txnId =>
    a = .done ∧ (txnId ≠ zeroUuid ∧ txnId ≠ ffUuid) ∧ Ends (transactionDropBody txnId) f v () w
  | .transactionPromote txnId =>
    a = .done ∧ (txnId ≠ zeroUuid ∧ txnId ≠ ffUuid) ∧ Ends (transactionPromoteBody txnId) f v () w
  | .blockMake blockId blockData =>
    a = .done ∧ ∃ fs, E.fields blockData = some fs ∧
      Ends (blockMakeBody E fs blockId blockData) f v () w
  | .transactionGet txnId => w = v ∧ ∃ node cert u, a = .transaction node cert ∧
      Ends (nodeGetBody pqDb false txnId) f v (node, cert) u
  | .transactionGetFirst => w = v ∧ ∃ key node cert u u', a = .transaction node cert ∧
      Ends firstKey f v key u ∧ Ends (nodeGetBody pqDb false key) f v (node, cert) u'
  | .canonizedTransactionGet txnId => w = v ∧ ∃ node cert u, a = .transaction node cert ∧
      Ends (nodeGetBody txnDb false txnId) f v (node, cert) u
  | .blockGet blockId => w = v ∧ ∃ node cert u, a = .block node cert ∧
      Ends (blockGetBody E false blockId) f v (node, cert) u
  | .latestBlockIdGet => w = v ∧ ∃ id u, a = .blockId id ∧ Ends (latestBlockIdGetBody E) f v id u
  | .blockIdByHeightGet height => w = v ∧ ∃ id u, a = .blockId id ∧
      Ends (blockIdByHeightGetBody height) f v id u
  | .artifactGet artifactId => w = v ∧ ∃ record u, a = .artifact record ∧
      Ends (artifactGetBody artifactId) f v record u
  | .globalSettingsGet key size =>
    w = v ∧ ∃ b, a = .value b ∧ v.globalDb key = some b ∧ b.length ≤ size

/-! ### How each request ends -/

section Settles

variable (E : Env) (caps : Bitcap) (f : FaultPattern) (v : Store)

theorem rejectSentinels_passive (txnId : Uuid) :
    Passive (rejectSentinels txnId : Op Unit) fun _ => ¬ (txnId = zeroUuid ∨ txnId = ffUuid) :=
  Passive.reject _ _

theorem transactionSubmit_settles (txnId artifactId : Uuid) (txnBytes : Bytes) :
    Settles (transactionSubmit E caps txnId artifactId txnBytes) f v []
      (¬ Safe (transactionSubmitBody E txnId artifactId txnBytes) f v)
      (fun a w => bitcapIsset caps .appPqTransactionSubmit = true ∧
        Ends (transactionSubmitBody E txnId artifactId txnBytes) f v a w) :=
  authorize_bind_settles inOwnTxn_settles

theorem transactionDrop_settles (txnId : Uuid) :
    Settles (transactionDrop caps txnId) f v [] (¬ Safe (transactionDropBody txnId) f v)
      (fun a w => bitcapIsset caps .appPqTransactionDrop = true ∧
        (txnId ≠ zeroUuid ∧ txnId ≠ ffUuid) ∧ Ends (transactionDropBody txnId) f v a w) :=
  authorize_bind_settles ((rejectSentinels_passive txnId).bind_settles fun _ hid =>
    inTxnOrParent_settles.mono id fun _ _ h => ⟨not_or.mp hid, h⟩)

theorem transactionPromote_settles (txnId : Uuid) :
    Settles (transactionPromote caps txnId) f v [] (¬ Safe (transactionPromoteBody txnId) f v)
      (fun a w => bitcapIsset caps .appPqTransactionPromote = true ∧
        (txnId ≠ zeroUuid ∧ txnId ≠ ffUuid) ∧ Ends (transactionPromoteBody txnId) f v a w) :=
  authorize_bind_settles ((rejectSentinels_passive txnId).bind_settles fun _ hid =>
    inTxnOrParent_settles.mono id fun _ _ h => ⟨not_or.mp hid, h⟩)

theorem parserInit_stop {cert : Bytes} {s t : OpState} {e : AgentdError}
    (h : (parserInit E cert : Op (List (CertField × Bytes))).run f s = .stop (.fail e) t) :
    E.fields cert = none ∨ ∃ n, f .parserInit n = true := by
  by_contra hn
  obtain ⟨hfields, hworks⟩ := not_or.mp hn
  obtain ⟨fs, hfs⟩ := Option.ne_none_iff_exists'.mp hfields
  have hok : f .parserInit (Metered.meter s).tick = false := by
    by_contra hf
    exact hworks ⟨_, by simpa using hf⟩
  simp [parserInit, Prog.require, Prog.attempt, Prog.note, Prog.run_bind, hok, hfs] at h

instance : Nonempty Store := ⟨emptyStore⟩

theorem blockMakeParserInit_risky (blockData : Bytes) :
    Risky (blockMakeParserInit E blockData)
      (fun f => E.fields blockData = none ∨ ∃ n, f .parserInit n = true)
      (fun fs => E.fields blockData = some fs) :=
  Risky.of_onFail (parserInit_passive E blockData)
    (Ruins.of_quiet (Quiet.note _) (Ruins.of_quiet (Quiet.note _) Ruins.undefined))
    fun f _ _ _ h => parserInit_stop E f h

/-- What may make a block's request undefined: its parser cannot be initialised, or a stored record
is shorter than its header. -/
def BlockHazard (blockId : Uuid) (blockData : Bytes) : Prop :=
  (E.fields blockData = none ∨ ∃ n, f .parserInit n = true) ∨
    ∃ fs, E.fields blockData = some fs ∧ ¬ Safe (blockMakeBody E fs blockId blockData) f v

theorem blockMake_settles (blockId : Uuid) (blockData : Bytes) :
    Settles (blockMake E caps blockId blockData) f v [] (BlockHazard E f v blockId blockData)
      (fun a w => bitcapIsset caps .appBlockWrite = true ∧
        ∃ fs, E.fields blockData = some fs ∧
          Ends (blockMakeBody E fs blockId blockData) f v a w) := by
  apply authorize_bind_settles
  apply (Passive.require _ _).bind_settles
  intro _ _
  apply (Quiet.note _).passive.bind_settles
  intro _ _
  apply Settles.finally' _ (Quiet.note _)
  apply (Passive.require _ _).bind_settles
  intro _ _
  apply (Quiet.note _).passive.bind_settles
  intro _ _
  have hdispose : Quiet (Prog.note (.disposed .parserOptions) >>= fun _ =>
      Prog.note (.disposed .parser) : Op Unit) := (Quiet.note _).seq (Quiet.note _)
  apply (blockMakeParserInit_risky E blockData).bind_settles Or.inl
  intro fs hfs
  apply (mdbTxnBegin_opens.onFail (Quiet.note _)).bind_settles
  apply Settles.finally' _ hdispose
  exact abortOrCommit_settles.mono (fun hu => Or.inr ⟨fs, hfs, hu⟩) fun _ _ h => ⟨fs, hfs, h⟩

/-- The call ends well only after a working commit: a failed one is noticed, and the transaction
it ended is then aborted once more. -/
theorem globalSettingsSet_cases (key : BitVec 64) (buffer : Bytes) (m : Meter Event) (b : Bool) :
    (b = true ∧ ∃ us m', (globalSettingsSet caps key buffer).run f ⟨v, [], m, b⟩ =
      .stop .undefined ⟨v, us, m', b⟩) ∨
    (∃ e m', (globalSettingsSet caps key buffer).run f ⟨v, [], m, b⟩ =
      .stop (.fail e) ⟨v, [], m', b⟩) ∨
    ∃ w m', b = false ∧ bitcapIsset caps .appGlobalSettingWrite = true ∧
      Ends (putOrFail globalDb key buffer false) f v () w ∧
      (globalSettingsSet caps key buffer).run f ⟨v, [], m, b⟩ = .ok () ⟨w, [], m', b⟩ := by
  unfold globalSettingsSet
  obtain ⟨r, m₁, hcap, h₁⟩ := authorize_passive caps .appGlobalSettingWrite f m
  cases r with
  | error e => exact Or.inr (Or.inl ⟨e, m₁, Prog.run_bind_stop _ (h₁ v [] b)⟩)
  | ok _ =>
    rw [Prog.run_bind_ok _ (h₁ v [] b)]
    rcases mdbTxnBegin_opens f m₁ with ⟨m₂, h₂⟩ | ⟨e, m₂, h₂⟩
    · rw [Prog.run_bind_ok _ (h₂ v b)]
      cases hp : (putOrFail globalDb key buffer false).run f ⟨v, m₂⟩ with
      | ok a t =>
        obtain ⟨m₃, h₃⟩ := mdbTxnCommit_ends f v t.meter
        cases b with
        | true =>
          refine Or.inl ⟨rfl, [], m₃, ?_⟩
          simp [Prog.onFail, Prog.run_bind, Prog.inTxn, hp, h₃, Prog.fail, mdbTxnAbort,
            Prog.txnAbort]
        | false =>
          refine Or.inr (Or.inr ⟨t.view, m₃, rfl, by simpa using hcap _ rfl, ⟨m₂, t.meter, hp⟩, ?_⟩)
          simp [Prog.onFail, Prog.run_bind, Prog.inTxn, hp, h₃]
      | stop e t =>
        cases e with
        | undefined => exact (putOrFail_safe m₂ t hp).elim
        | fail e =>
          obtain ⟨m₃, h₃⟩ := mdbTxnAbort_ends f v t.meter
          refine Or.inr (Or.inl ⟨e, m₃, ?_⟩)
          simp [Prog.onFail, Prog.run_bind, Prog.inTxn, hp, h₃]
    · exact Or.inr (Or.inl ⟨e, m₂, Prog.run_bind_stop _ (h₂ v b)⟩)

theorem nodeGet_settles (db : Dbi Uuid) (txnId : Uuid) :
    Settles (nodeGet db txnId) f v [] (¬ Safe (nodeGetBody db false txnId) f v)
      (fun a w => w = v ∧ ∃ u, Ends (nodeGetBody db false txnId) f v a u) :=
  Settles.of_hasParent inReadTxn_settles

theorem copyOut_safe (nested : Bool) : Safe (copyOut nested) f v := by
  cases nested with
  | true => exact Safe.pure ()
  | false => exact malloc_safe

theorem nodeGetBody_safe (db : Dbi Uuid) (nested : Bool) (txnId : Uuid) :
    Safe (nodeGetBody db nested txnId) f v := by
  apply getOrFail_safe.bind
  intro b w _
  apply (Safe.reject _ _).bind
  intro _ w _
  apply (Safe.reject _ _).bind
  intro _ w _
  apply (copyOut_safe f w nested).bind
  intro _ w _
  exact Safe.pure _

theorem getNodeOrFail_safe (db : Dbi Uuid) (id : Uuid) (e : AgentdError) :
    Safe (getNodeOrFail db id e) f v := by
  apply getOrFail_safe.bind
  intro b w _
  apply (Safe.reject _ _).bind
  intro _ w _
  exact Safe.pure _

theorem transactionDropBody_safe (txnId : Uuid) : Safe (transactionDropBody txnId) f v := by
  apply (getNodeOrFail_safe f v _ _ _).bind
  intro b w _
  apply mdbDel_safe.bind
  intro r w _
  cases r with
  | notFound => exact Safe.fail _
  | error => exact Safe.fail _
  | ok =>
    apply (getNodeOrFail_safe f w _ _ _).bind
    intro p w _
    apply malloc_safe.bind
    intro _ w _
    apply putOrFail_safe.bind
    intro _ w _
    apply (getNodeOrFail_safe f w _ _ _).bind
    intro n w _
    apply malloc_safe.bind
    intro _ w _
    exact putOrFail_safe

theorem transactionPromoteBody_safe (txnId : Uuid) : Safe (transactionPromoteBody txnId) f v := by
  apply (getNodeOrFail_safe f v _ _ _).bind
  intro b w _
  apply malloc_safe.bind
  intro _ w _
  exact putOrFail_safe

theorem blockGetNode_safe (nested skipCert : Bool) (r : MdbGet) :
    Safe (blockGetNode nested skipCert r) f v := by
  cases r with
  | notFound => exact Safe.fail _
  | error => exact Safe.fail _
  | found b =>
    apply (Safe.reject _ _).bind
    intro _ w _
    apply (Safe.reject _ _).bind
    intro _ w _
    apply (copyOut_safe f w nested).bind
    intro _ w _
    exact Safe.pure _

theorem blockGetBody_safe (nested : Bool) (blockId : Uuid) :
    Safe (blockGetBody E nested blockId) f v := by
  apply mdbGet_safe.bind
  intro r w _
  by_cases h : r = .notFound ∧ blockId = E.rootBlock
  · rw [if_pos h]
    apply mdbGet_safe.bind
    intro r w _
    exact blockGetNode_safe f w nested true r
  · rw [if_neg h]
    exact blockGetNode_safe f w nested false r

theorem latestBlockIdGetBody_safe : Safe (latestBlockIdGetBody E) f v := by
  apply mdbGet_safe.bind
  intro r w _
  cases r with
  | notFound => exact Safe.pure _
  | error => exact Safe.fail _
  | found b =>
    apply (Safe.reject _ _).bind
    intro _ w _
    exact Safe.pure _

theorem blockIdByHeightGetBody_safe (height : BitVec 64) :
    Safe (blockIdByHeightGetBody height) f v := by
  apply getOrFail_safe.bind
  intro b w _
  apply (Safe.reject _ _).bind
  intro _ w _
  exact Safe.pure _

theorem artifactGetBody_safe (artifactId : Uuid) : Safe (artifactGetBody artifactId) f v := by
  apply getOrFail_safe.bind
  intro b w _
  apply (Safe.reject _ _).bind
  intro _ w _
  exact Safe.pure _

theorem globalSettingsGetBody_safe (key : BitVec 64) (size : ℕ) :
    Safe (globalSettingsGetBody key size) f v := by
  apply getOrFail_safe.bind
  intro b w _
  apply (Safe.reject _ _).bind
  intro _ w _
  exact Safe.pure _

theorem firstKey_safe : Safe firstKey f v := by
  apply getOrFail_safe.bind
  intro b w _
  apply (Safe.reject _ _).bind
  intro _ w _
  apply (Safe.reject _ _).bind
  intro _ w _
  exact Safe.pure _

theorem transactionGetFirst_settles :
    Settles (transactionGetFirst caps) f v [] False
      (fun a w => bitcapIsset caps .appPqTransactionFirstRead = true ∧ w = v ∧
        ∃ key u u', Ends firstKey f v key u ∧ Ends (nodeGetBody pqDb false key) f v a u') := by
  apply authorize_bind_settles
  apply mdbTxnBegin_opens.bind_settles
  have hfirst : Settles ((Prog.inTxn firstKey).finally' mdbTxnAbort) f v [v] False
      (fun key w => w = v ∧ ∃ u, Ends firstKey f v key u) :=
    (Settles.always_abort (mdbTxnAbort_ends f v)).mono (fun hu => hu (firstKey_safe f v))
      fun _ _ h => h
  apply hfirst.bind_of_same
  rintro key ⟨u, hkey⟩
  apply (nodeGet_settles f v pqDb key).mono (fun hu => hu (nodeGetBody_safe f v pqDb false key))
  rintro a w ⟨hw, u', hnode⟩
  exact ⟨hw, key, u, u', hkey, hnode⟩

end Settles

def Request.checksCommit : Request → Bool
  | .globalSettingsSet .. => true
  | _ => false

/-- The two operations that copy as many bytes as a stored header says, and the one that disposes a
parser it could not initialise. -/
def Request.Hazard (E : Env) (f : FaultPattern) (v : Store) : Request → Prop
  | .transactionSubmit txnId artifactId txnBytes =>
    ¬ Safe (transactionSubmitBody E txnId artifactId txnBytes) f v
  | .blockMake blockId blockData => BlockHazard E f v blockId blockData
  | _ => False

/-- No request that drops the status of its commit writes before it, and none keeps a transaction
open. -/
theorem Request.settles (E : Env) (caps : Bitcap) (f : FaultPattern) (v : Store) {r : Request}
    (hr : r.checksCommit = false) :
    Settles (r.run E caps) f v [] (r.Hazard E f v)
      (fun a w => bitcapIsset caps r.capability = true ∧ r.Effect E f v a w) := by
  cases r with
  | globalSettingsSet key buffer => cases hr
  | transactionSubmit txnId artifactId txnBytes =>
    apply (transactionSubmit_settles E caps f v txnId artifactId txnBytes).pure_bind_mono _ id
    rintro a w ⟨hcap, h⟩
    exact ⟨hcap, rfl, h⟩
  | transactionDrop txnId =>
    apply (transactionDrop_settles caps f v txnId).pure_bind_mono _
      fun hu => hu (transactionDropBody_safe f v txnId)
    rintro a w ⟨hcap, h⟩
    exact ⟨hcap, rfl, h⟩
  | transactionPromote txnId =>
    apply (transactionPromote_settles caps f v txnId).pure_bind_mono _
      fun hu => hu (transactionPromoteBody_safe f v txnId)
    rintro a w ⟨hcap, h⟩
    exact ⟨hcap, rfl, h⟩
  | blockMake blockId blockData =>
    apply (blockMake_settles E caps f v blockId blockData).pure_bind_mono _ id
    rintro a w ⟨hcap, h⟩
    exact ⟨hcap, rfl, h⟩
  | transactionGet txnId =>
    apply (authorize_bind_settles (nodeGet_settles f v pqDb txnId)).pure_bind_mono _
      fun hu => hu (nodeGetBody_safe f v pqDb false txnId)
    rintro ⟨node, cert⟩ w ⟨hcap, hw, u, h⟩
    exact ⟨hcap, hw, node, cert, u, rfl, h⟩
  | transactionGetFirst =>
    apply (transactionGetFirst_settles caps f v).pure_bind_mono _ id
    rintro ⟨node, cert⟩ w ⟨hcap, hw, key, u, u', hkey, h⟩
    exact ⟨hcap, hw, key, node, cert, u, u', rfl, hkey, h⟩
  | canonizedTransactionGet txnId =>
    apply (authorize_bind_settles (nodeGet_settles f v txnDb txnId)).pure_bind_mono _
      fun hu => hu (nodeGetBody_safe f v txnDb false txnId)
    rintro ⟨node, cert⟩ w ⟨hcap, hw, u, h⟩
    exact ⟨hcap, hw, node, cert, u, rfl, h⟩
  | blockGet blockId =>
    apply (authorize_bind_settles (Settles.of_hasParent inReadTxn_settles)).pure_bind_mono _
      fun hu => hu (blockGetBody_safe E f v false blockId)
    rintro ⟨node, cert⟩ w ⟨hcap, hw, u, h⟩
    exact ⟨hcap, hw, node, cert, u, rfl, h⟩
  | latestBlockIdGet =>
    apply (authorize_bind_settles inReadTxn_settles).pure_bind_mono _
      fun hu => hu (latestBlockIdGetBody_safe E f v)
    rintro id w ⟨hcap, hw, u, h⟩
    exact ⟨hcap, hw, id, u, rfl, h⟩
  | blockIdByHeightGet height =>
    apply (authorize_bind_settles inReadTxn_settles).pure_bind_mono _
      fun hu => hu (blockIdByHeightGetBody_safe f v height)
    rintro id w ⟨hcap, hw, u, h⟩
    exact ⟨hcap, hw, id, u, rfl, h⟩
  | artifactGet artifactId =>
    apply (authorize_bind_settles inReadTxn_settles).pure_bind_mono _
      fun hu => hu (artifactGetBody_safe f v artifactId)
    rintro record w ⟨hcap, hw, u, h⟩
    exact ⟨hcap, hw, record, u, rfl, h⟩
  | globalSettingsGet key size =>
    apply (authorize_bind_settles (mdbTxnBegin_opens.bind_settles
      (Settles.always_abort (mdbTxnAbort_ends f v)))).pure_bind_mono _
      fun hu => hu (globalSettingsGetBody_safe f v key size)
    rintro b w ⟨hcap, hw, u, h⟩
    obtain ⟨b', u', hget, h⟩ := h.of_bind
    obtain ⟨_, u'', hsize, h⟩ := h.of_bind
    have hb := h.of_pure.1
    subst hb
    exact ⟨hcap, hw, b, rfl, (getOrFail_ends hget).2, not_lt.mp hsize.of_reject.1⟩

theorem Request.atomic (E : Env) (caps : Bitcap) (f : FaultPattern) (v : Store) (r : Request) :
    Atomic (r.run E caps) f v
      (fun b => r.Hazard E f v ∨ (r.checksCommit = true ∧ b = true))
      (fun a w => bitcapIsset caps r.capability = true ∧ r.Effect E f v a w) := by
  cases hr : r.checksCommit with
  | false => exact (Request.settles E caps f v hr).atomic fun _ hu => Or.inl hu
  | true =>
    cases r with
    | globalSettingsSet key buffer =>
      intro m b
      rcases globalSettingsSet_cases caps f v key buffer m b with
        ⟨hb, us, m', h⟩ | ⟨e, m', h⟩ | ⟨w, m', rfl, hcap, hends, h⟩
      · exact Or.inl ⟨Or.inr ⟨rfl, hb⟩, us, m', Prog.run_bind_stop _ h⟩
      · exact Or.inr (Or.inl ⟨e, m', Prog.run_bind_stop _ h⟩)
      · exact Or.inr (Or.inr ⟨.done, w, m', ⟨hcap, rfl, hends⟩, Prog.run_bind_ok _ h⟩)
    | _ => cases hr

/-! ### Calls -/

structure Invocation where
  request : Request
  caps : Bitcap
  faults : FaultPattern
  commitFails : Bool

def Invocation.withWorkingCommit (i : Invocation) : Invocation := { i with commitFails := false }

def Invocation.undisturbed (i : Invocation) : Invocation :=
  { i with faults := noFaults, commitFails := false }

/-- The status of a call, and the committed store after it. -/
def perform (E : Env) (d : Store) (i : Invocation) : Except (Stop AgentdError) Reply × Store :=
  match (i.request.run E i.caps).run i.faults ⟨d, [], ⟨0, []⟩, i.commitFails⟩ with
  | .ok a t => (.ok a, t.disk)
  | .stop e t => (.error e, t.disk)

theorem perform_cases (E : Env) (d : Store) (i : Invocation) :
    ((i.request.Hazard E i.faults d ∨ (i.request.checksCommit = true ∧ i.commitFails = true)) ∧
      perform E d i = (.error .undefined, d)) ∨
      (∃ e, perform E d i = (.error (.fail e), d)) ∨
      ∃ a w, bitcapIsset i.caps i.request.capability = true ∧
        i.request.Effect E i.faults d a w ∧
        perform E d i = (.ok a, if i.commitFails then d else w) := by
  unfold perform
  rcases i.request.atomic E i.caps i.faults d ⟨0, []⟩ i.commitFails with
    ⟨hu, us, m', h⟩ | ⟨e, m', h⟩ | ⟨a, w, m', ⟨hcap, heff⟩, h⟩
  · rw [h]
    exact Or.inl ⟨hu, rfl⟩
  · rw [h]
    exact Or.inr (Or.inl ⟨e, rfl⟩)
  · rw [h]
    exact Or.inr (Or.inr ⟨a, w, hcap, heff, rfl⟩)

/-- A call that does not end well changes nothing. -/
theorem perform_error {E : Env} {d : Store} {i : Invocation} (h : ∀ a, (perform E d i).1 ≠ .ok a) :
    (perform E d i).2 = d := by
  rcases perform_cases E d i with ⟨-, he⟩ | ⟨e, he⟩ | ⟨a, w, -, -, ha⟩
  · rw [he]
  · rw [he]
  · rw [ha] at h
    exact (h a rfl).elim

/-- What holds before a call and after its effect holds after the call, whatever fails. -/
theorem perform_preserves {E : Env} {d : Store} {i : Invocation} {P : Store → Prop} (hd : P d)
    (heff : ∀ a w, i.commitFails = false → i.request.Effect E i.faults d a w → P w) :
    P (perform E d i).2 := by
  rcases perform_cases E d i with ⟨-, he⟩ | ⟨e, he⟩ | ⟨a, w, -, h, ha⟩
  · rw [he]
    exact hd
  · rw [he]
    exact hd
  · rw [ha]
    cases hc : i.commitFails with
    | true => exact hd
    | false => exact heff a w hc h

theorem perform_of_delivers {E : Env} {d w : Store} {i : Invocation} {a : Reply}
    (h : Delivers (i.request.run E i.caps) i.faults d [] a w) :
    perform E d i = (.ok a, if i.commitFails then d else w) := by
  obtain ⟨m', h⟩ := h ⟨0, []⟩
  unfold perform
  rw [h]

theorem perform_ok {E : Env} {d : Store} {i : Invocation} {a : Reply}
    (h : (perform E d i).1 = .ok a) :
    ∃ w, bitcapIsset i.caps i.request.capability = true ∧ i.request.Effect E i.faults d a w ∧
      (perform E d i).2 = if i.commitFails then d else w := by
  rcases perform_cases E d i with ⟨-, he⟩ | ⟨e, he⟩ | ⟨a', w, hcap, heff, ha⟩
  · rw [he] at h
    cases h
  · rw [he] at h
    cases h
  · rw [ha] at h
    cases h
    exact ⟨w, hcap, heff, by rw [ha]⟩

/-! ### Runs -/

abbrev Outcome := Except (Stop AgentdError) Reply

inductive Run (E : Env) (allowed : Store → Invocation → Prop) :
    List (Invocation × Outcome) → Store → Prop
  | nil : Run E allowed [] emptyStore
  | snoc {log : List (Invocation × Outcome)} {d : Store} {i : Invocation}
      (before : Run E allowed log d) (call : allowed d i) :
      Run E allowed (log ++ [(i, (perform E d i).1)]) (perform E d i).2

theorem Run.mono {E : Env} {allowed allowed' : Store → Invocation → Prop}
    (hsub : ∀ d i, allowed d i → allowed' d i) {log : List (Invocation × Outcome)} {d : Store}
    (h : Run E allowed log d) : Run E allowed' log d := by
  induction h with
  | nil => exact .nil
  | snoc before call ih => exact .snoc ih (hsub _ _ call)

/-- No open fault but memory: LMDB works and commits, and the parser reports every field. -/
structure Invocation.Works (i : Invocation) : Prop where
  lmdb : LmdbWorks i.faults
  commit : i.commitFails = false
  find : FindWorks i.faults

/-- The caller holds the capability and no allocation fails. -/
structure Invocation.Permitted (i : Invocation) : Prop where
  capability : bitcapIsset i.caps i.request.capability = true
  alloc : AllocWorks i.faults

def workingCall (r : Request) : Invocation := ⟨r, BitVec.allOnes 32, noFaults, false⟩

theorem workingCall_works (r : Request) : (workingCall r).Works :=
  ⟨⟨fun _ => rfl, fun _ => rfl, fun _ => rfl, fun _ => rfl⟩, rfl, fun _ => rfl⟩

theorem workingCall_permitted (r : Request) : (workingCall r).Permitted :=
  ⟨bitcapIsset_allOnes _, ⟨fun _ => rfl, fun _ => rfl, fun _ => rfl, fun _ => rfl⟩⟩

def runFrom (E : Env) (s : List (Invocation × Outcome) × Store) :
    List Invocation → List (Invocation × Outcome) × Store
  | [] => s
  | i :: is => runFrom E (s.1 ++ [(i, (perform E s.2 i).1)], (perform E s.2 i).2) is

def runCalls (E : Env) (is : List Invocation) : List (Invocation × Outcome) × Store :=
  runFrom E ([], emptyStore) is

def AllowedFrom (E : Env) (allowed : Store → Invocation → Prop) : Store → List Invocation → Prop
  | _, [] => True
  | d, i :: is => allowed d i ∧ AllowedFrom E allowed (perform E d i).2 is

theorem run_runFrom {E : Env} {allowed : Store → Invocation → Prop} {is : List Invocation}
    {log : List (Invocation × Outcome)} {d : Store} (hrun : Run E allowed log d)
    (h : AllowedFrom E allowed d is) :
    Run E allowed (runFrom E (log, d) is).1 (runFrom E (log, d) is).2 := by
  induction is generalizing log d with
  | nil => exact hrun
  | cons i is ih => exact ih (.snoc hrun h.1) h.2

theorem run_runCalls {E : Env} {allowed : Store → Invocation → Prop} {is : List Invocation}
    (h : AllowedFrom E allowed emptyStore is) :
    Run E allowed (runCalls E is).1 (runCalls E is).2 :=
  run_runFrom .nil h

theorem allowedFrom_of_forall {E : Env} {allowed : Invocation → Prop} {is : List Invocation}
    (h : ∀ i ∈ is, allowed i) (d : Store) : AllowedFrom E (fun _ i => allowed i) d is := by
  induction is generalizing d with
  | nil => trivial
  | cons i is ih => exact ⟨h i (by simp), ih (fun j hj => h j (by simp [hj])) _⟩

/-- A packet is shorter than 1 GiB. -/
def maxPayload : ℕ := 1024 ^ 3

/-- What the request decoder lets through: short packets, and no submit without a certificate. -/
def Request.Decoded : Request → Prop
  | .globalSettingsSet _ buffer => buffer.length < maxPayload
  | .transactionSubmit _ _ txnBytes => txnBytes ≠ [] ∧ txnBytes.length < maxPayload
  | .blockMake _ blockData => blockData.length < maxPayload
  | _ => True

end DataserviceRequests
