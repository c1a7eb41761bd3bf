import Agentd.BlockAcceptance

/-! # All or nothing, and the status of the commit

Whatever fails before the commit, a call that reports an error has left all six databases alone.
The commit itself is another matter: only `dataservice_global_settings_set` looks at its status. -/
namespace DataserviceAtomicity

open ByteString
open CertificateFields
open FaultyTransactions
open DataserviceRecords
open DataserviceStore
open DataserviceQueue
open DataserviceBlocks
open DataserviceRequests
open DataserviceEffects
open BlockAcceptance

/-! ### Failed calls -/

theorem failed_request_keeps_store (E : Env) (caps : Bitcap) (f : FaultPattern) (r : Request)
    (d : Store) (m : Meter Event) (b : Bool) {e : AgentdError} {t : OpState}
    (h : (r.run E caps).run f ⟨d, [], m, b⟩ = .stop (.fail e) t) : t.disk = d ∧ t.txns = [] := by
  rcases r.atomic E caps f d m b with ⟨_, us, m', hr⟩ | ⟨e', m', hr⟩ | ⟨a, w, m', _, hr⟩
  · rw [hr] at h
    cases h
  · rw [hr] at h
    cases h
    exact ⟨rfl, rfl⟩
  · rw [hr] at h
    cases h

def queueOfOne : Store :=
  (perform (codecEnv false) emptyStore
    ⟨.transactionSubmit 5 7 [1], BitVec.allOnes 32, noFaults, false⟩).2

def ninthPutFails : FaultPattern := fun c n => decide (c = .put ∧ n = 8)

/-- A drop that has deleted the record and patched its predecessor when the write of its successor
fails. -/
theorem failed_drop_keeps_queue :
    ∃ t, ((Request.transactionDrop 5).run (codecEnv false) (BitVec.allOnes 32)).run ninthPutFails
      ⟨queueOfOne, [], ⟨0, []⟩, false⟩ = .stop (.fail .mdbPutFailure) t ∧
      t.disk = queueOfOne ∧ t.txns = [] :=
  ⟨_, rfl, failed_request_keeps_store (codecEnv false) (BitVec.allOnes 32) ninthPutFails
    (.transactionDrop 5) queueOfOne ⟨0, []⟩ false rfl⟩

/-! ### No failure behind a success

Each failed call ends its operation, except a failed search for the next wrapped transaction, which
ends the loop of a block early. Where the searches work, an operation that ends well ends as it does
where nothing fails. -/

section Candid

variable {E : Env} {f : FaultPattern} {v : Store}

theorem noFaults_lmdb : LmdbWorks noFaults :=
  ⟨fun _ => rfl, fun _ => rfl, fun _ => rfl, fun _ => rfl⟩

theorem noFaults_alloc : AllocWorks noFaults :=
  ⟨fun _ => rfl, fun _ => rfl, fun _ => rfl, fun _ => rfl⟩

theorem noFaults_find : FindWorks noFaults := fun _ => rfl

theorem malloc_candid : Candid malloc f noFaults v := Candid.require (fun _ => rfl) _

theorem checked_candid {α : Type} {c : Prop} [Decidable c] (e : AgentdError) (x : α) :
    Candid (Prog.reject c e >>= fun _ => pure x : TxOp α) f noFaults v := by
  apply (Candid.reject c e).bind
  intro _ w _
  exact Candid.pure x

theorem putOrFail_candid {K : Type} (db : Dbi K) (k : K) (b : Bytes) (no : Bool) :
    Candid (putOrFail db k b no) f noFaults v := by
  intro a w h
  obtain ⟨rfl, hfree⟩ := putOrFail_ends h
  exact putOrFail_yields noFaults_lmdb hfree

theorem getOrFail_candid {K : Type} (db : Dbi K) (k : K) (missing error : AgentdError) :
    Candid (getOrFail db k missing error) f noFaults v := by
  intro b w h
  obtain ⟨rfl, hb⟩ := getOrFail_ends h
  exact getOrFail_yields noFaults_lmdb hb

/-- A read whose failure ends the operation. -/
theorem mdbGet_bind_candid {K α : Type} {db : Dbi K} {k : K} {g : MdbGet → TxOp α}
    (herr : ∀ a w, ¬ Ends (g .error) f v a w) (hg : ∀ r, Candid (g r) f noFaults v) :
    Candid (mdbGet db k >>= g) f noFaults v := by
  intro a w h
  obtain ⟨r, u, hr, ha⟩ := h.of_bind
  obtain ⟨rfl, ⟨b, rfl, hb⟩ | ⟨rfl, hb⟩ | rfl⟩ := mdbGet_ends hr
  · have hget := mdbGet_yields noFaults_lmdb db k u
    rw [hb] at hget
    exact hget.bind (hg _ a w ha)
  · have hget := mdbGet_yields noFaults_lmdb db k u
    rw [hb] at hget
    exact hget.bind (hg _ a w ha)
  · exact (herr a w ha).elim

/-- A read that may find nothing. -/
theorem lookup_candid {K α : Type} {db : Dbi K} {k : K} {g : MdbGet → TxOp α} {e : AgentdError}
    (herr : g .error = Prog.fail e) (hnone : Candid (g .notFound) f noFaults v)
    (hfound : ∀ b, Candid (g (.found b)) f noFaults v) :
    Candid (mdbGet db k >>= g) f noFaults v := by
  apply mdbGet_bind_candid
  · intro a w h
    rw [herr] at h
    exact h.not_fail
  · intro r
    cases r with
    | notFound => exact hnone
    | error =>
      rw [herr]
      exact Candid.fail e
    | found b => exact hfound b

theorem parserInit_candid (cert : Bytes) : Candid (parserInit E cert) f noFaults v := by
  intro fs w h
  obtain ⟨rfl, hfs⟩ := parserInit_ends h
  exact parserInit_yields noFaults_alloc hfs

theorem findSized_candid (fs : List (CertField × Bytes)) (t : CertField) (size : ℕ)
    (missing : AgentdError) : Candid (findSized fs t size missing) f noFaults v := by
  intro b w h
  obtain ⟨rfl, hb⟩ := findSized_ends h
  exact findSized_yields noFaults_find hb

/-! The process queue. -/

theorem getNodeOrFail_candid (db : Dbi Uuid) (id : Uuid) (e : AgentdError) :
    Candid (getNodeOrFail db id e) f noFaults v := by
  apply (getOrFail_candid db id e e).bind
  intro b w _
  exact checked_candid _ b

theorem updatePrevNext_candid (db : Dbi Uuid) (header : ℕ) (certSize : Bytes → BitVec 64)
    (id prev : Uuid) : Candid (updatePrevNext db header certSize id prev) f noFaults v := by
  apply (getOrFail_candid db prev _ _).bind
  intro b w _
  apply (Candid.inBounds _).bind
  intro _ w _
  apply malloc_candid.bind
  intro _ w _
  apply Candid.bind
  · apply (Candid.inBounds _).bind
    intro _ w _
    exact Candid.pure _
  · intro node w _
    exact putOrFail_candid db prev _ _

theorem transactionSubmitQueryEnd_candid : Candid transactionSubmitQueryEnd f noFaults v := by
  exact lookup_candid rfl (Candid.pure none) fun b => checked_candid _ (some b)

theorem transactionSubmitBody_candid (txnId artifactId : Uuid) (txnBytes : Bytes) :
    Candid (transactionSubmitBody E txnId artifactId txnBytes) f noFaults v := by
  apply transactionSubmitQueryEnd_candid.bind
  intro endNode w _
  apply malloc_candid.bind
  intro _ w _
  apply (putOrFail_candid _ _ _ _).bind
  intro _ w _
  cases endNode with
  | none =>
    apply (putOrFail_candid _ _ _ _).bind
    intro _ w _
    exact putOrFail_candid _ _ _ _
  | some b =>
    apply (updatePrevNext_candid _ _ _ _ _).bind
    intro _ w _
    exact putOrFail_candid _ _ _ _

theorem transactionDropFixupPrevNext_candid (node : DataTransactionNode) :
    Candid (transactionDropFixupPrevNext node) f noFaults v := by
  apply (getNodeOrFail_candid _ _ _).bind
  intro prev w _
  apply malloc_candid.bind
  intro _ w _
  apply (putOrFail_candid _ _ _ _).bind
  intro _ w _
  apply (getNodeOrFail_candid _ _ _).bind
  intro next w _
  apply malloc_candid.bind
  intro _ w _
  exact putOrFail_candid _ _ _ _

theorem transactionDropBody_candid (txnId : Uuid) :
    Candid (transactionDropBody txnId) f noFaults v := by
  apply (getNodeOrFail_candid _ _ _).bind
  intro b w _ a u h
  obtain ⟨r, x, hdel, ha⟩ := h.of_bind
  cases r with
  | notFound => exact ha.not_fail.elim
  | error => exact ha.not_fail.elim
  | ok =>
    obtain ⟨rfl, hsome⟩ := (mdbDel_ends hdel).1 rfl
    exact (mdbDel_yields noFaults_lmdb hsome).bind (transactionDropFixupPrevNext_candid _ a u ha)

theorem transactionPromoteBody_candid (txnId : Uuid) :
    Candid (transactionPromoteBody txnId) f noFaults v := by
  apply (getNodeOrFail_candid _ _ _).bind
  intro b w _
  apply malloc_candid.bind
  intro _ w _
  exact putOrFail_candid _ _ _ _

/-! Blocks. -/

theorem queryEndNode_candid : Candid queryEndNode f noFaults v := by
  exact lookup_candid rfl (Candid.pure none) fun b => checked_candid _ (some b)

theorem constraintMatchingBlockHeight_candid (fs : List (CertField × Bytes))
    (endNode : Option Bytes) : Candid (constraintMatchingBlockHeight fs endNode) f noFaults v := by
  apply (findSized_candid _ _ _ _).bind
  intro raw w _
  exact checked_candid _ _

theorem constraintMatchingPrevUuid_candid (fs : List (CertField × Bytes))
    (endNode : Option Bytes) : Candid (constraintMatchingPrevUuid E fs endNode) f noFaults v := by
  apply (findSized_candid _ _ _ _).bind
  intro raw w _
  exact checked_candid _ _

theorem constraintSaneBlockUuid_candid (fs : List (CertField × Bytes)) (blockId : Uuid) :
    Candid (constraintSaneBlockUuid E fs blockId) f noFaults v := by
  apply (findSized_candid _ _ _ _).bind
  intro raw w _
  apply (Candid.reject _ _).bind
  intro _ w _
  apply (Candid.reject _ _).bind
  intro _ w _
  apply (Candid.reject _ _).bind
  intro _ w _
  exact Candid.reject _ _

theorem makeBlockGetFirstTransactionId_candid (txnCert : Bytes) :
    Candid (makeBlockGetFirstTransactionId E txnCert) f noFaults v := by
  apply (parserInit_candid txnCert).bind
  intro fs w _
  apply Candid.bind
  · exact (findSized_candid _ _ _ _).finally' fun _ => Candid.note _
  · intro raw w _
    exact Candid.pure _

theorem blockMakeLink_candid (blockId : Uuid) (height : BitVec 64) (endNode : Option Bytes) :
    Candid (blockMakeLink blockId height endNode) f noFaults v := by
  cases endNode with
  | none =>
    apply (putOrFail_candid _ _ _ _).bind
    intro _ w _
    exact putOrFail_candid _ _ _ _
  | some e =>
    apply (updatePrevNext_candid _ _ _ _ _).bind
    intro _ w _
    exact putOrFail_candid _ _ _ _

theorem blockMakeChildFields_candid (fs : List (CertField × Bytes)) :
    Candid (blockMakeChildFields fs) f noFaults v := by
  apply (findSized_candid _ _ _ _).bind
  intro id w _
  apply (findSized_candid _ _ _ _).bind
  intro prev w _
  apply (findSized_candid _ _ _ _).bind
  intro artifact w _
  apply (findSized_candid _ _ _ _).bind
  intro state w _
  exact Candid.pure _

theorem blockMakeLinkPrevTxn_candid (c : ChildFields) :
    Candid (blockMakeLinkPrevTxn c) f noFaults v := by
  unfold blockMakeLinkPrevTxn
  by_cases hz : c.prevTransactionId = zeroUuid
  · rw [if_pos hz]
    exact Candid.pure ()
  · rw [if_neg hz]
    apply (getNodeOrFail_candid _ _ _).bind
    intro b w _
    apply malloc_candid.bind
    intro _ w _
    exact putOrFail_candid _ _ _ _

theorem blockMakeUpdateArtifact_candid (artifactId transactionId : Uuid) (height : BitVec 64)
    (state : BitVec 32) :
    Candid (blockMakeUpdateArtifact artifactId transactionId height state) f noFaults v := by
  refine lookup_candid rfl (putOrFail_candid _ _ _ _) fun b => ?_
  apply (Candid.reject _ _).bind
  intro _ w _
  exact putOrFail_candid _ _ _ _

theorem blockMakeProcessChild_candid (height : BitVec 64) (blockId : Uuid) (txnCert : Bytes) :
    Candid (blockMakeProcessChild E height blockId txnCert) f noFaults v := by
  apply (parserInit_candid txnCert).bind
  intro fs w _
  refine Candid.finally' ?_ fun _ => Candid.note _
  apply (blockMakeChildFields_candid fs).bind
  intro c w _
  apply malloc_candid.bind
  intro _ w _
  apply (putOrFail_candid _ _ _ _).bind
  intro _ w _
  apply Candid.bind
  · apply (Candid.reject _ _).bind
    intro _ w _
    exact transactionDropBody_candid _
  intro _ w _
  apply (blockMakeLinkPrevTxn_candid c).bind
  intro _ w _
  exact blockMakeUpdateArtifact_candid _ _ _ _

/-- Every wrapped transaction is found, so each is worked on. -/
theorem blockMakeProcessChildren_candid (hfind : FindWorks f) (height : BitVec 64) (blockId : Uuid)
    (cert : Bytes) (rest : List Bytes) :
    Candid (blockMakeProcessChildren E height blockId cert rest) f noFaults v := by
  induction rest generalizing cert v with
  | nil => exact blockMakeProcessChild_candid height blockId cert
  | cons next rest ih =>
    apply (blockMakeProcessChild_candid height blockId cert).bind
    intro _ w _
    apply (Candid.attempt hfind noFaults_find).bind
    intro r w _
    cases r with
    | true => exact ih next
    | false => exact Candid.pure ()

theorem blockMakeBody_candid (hfind : FindWorks f) (fs : List (CertField × Bytes)) (blockId : Uuid)
    (blockData : Bytes) : Candid (blockMakeBody E fs blockId blockData) f noFaults v := by
  apply queryEndNode_candid.bind
  intro endNode w _
  apply (constraintMatchingBlockHeight_candid fs endNode).bind
  intro height w _
  apply (constraintMatchingPrevUuid_candid fs endNode).bind
  intro prev w _
  apply (constraintSaneBlockUuid_candid fs blockId).bind
  intro _ w _
  apply (Candid.require noFaults_find _).bind
  intro _ w _
  cases fieldValues fs .wrappedTransactionTuple with
  | nil => exact Candid.fail _
  | cons first rest =>
    apply (makeBlockGetFirstTransactionId_candid first).bind
    intro firstId w _
    apply Candid.bind
    · apply malloc_candid.bind
      intro _ w _
      apply (putOrFail_candid _ _ _ _).bind
      intro _ w _
      exact putOrFail_candid _ _ _ _
    intro _ w _
    apply (blockMakeLink_candid blockId height endNode).bind
    intro _ w _
    exact blockMakeProcessChildren_candid hfind height blockId first rest

/-! Reads. -/

theorem nodeGetBody_candid (db : Dbi Uuid) (txnId : Uuid) :
    Candid (nodeGetBody db false txnId) f noFaults v := by
  apply (getOrFail_candid _ _ _ _).bind
  intro b w _
  apply (Candid.reject _ _).bind
  intro _ w _
  apply (Candid.reject _ _).bind
  intro _ w _
  apply malloc_candid.bind
  intro _ w _
  exact Candid.pure _

theorem firstKey_candid : Candid firstKey f noFaults v := by
  apply (getOrFail_candid _ _ _ _).bind
  intro b w _
  apply (Candid.reject _ _).bind
  intro _ w _
  exact checked_candid _ _

theorem blockGetNode_candid (skipCert : Bool) (r : MdbGet) :
    Candid (blockGetNode false skipCert r) f noFaults v := by
  cases r with
  | notFound => exact Candid.fail _
  | error => exact Candid.fail _
  | found b =>
    apply (Candid.reject _ _).bind
    intro _ w _
    apply (Candid.reject _ _).bind
    intro _ w _
    apply malloc_candid.bind
    intro _ w _
    exact Candid.pure _

theorem blockGetBody_candid (blockId : Uuid) :
    Candid (blockGetBody E false blockId) f noFaults v := by
  refine mdbGet_bind_candid ?_ fun r => ?_
  · intro a w h
    simp only [reduceCtorEq, false_and, if_false] at h
    exact h.not_fail
  · by_cases hroot : r = .notFound ∧ blockId = E.rootBlock
    · rw [if_pos hroot]
      exact mdbGet_bind_candid (fun _ _ h => h.not_fail) fun r => blockGetNode_candid true r
    · rw [if_neg hroot]
      exact blockGetNode_candid false r

theorem latestBlockIdGetBody_candid : Candid (latestBlockIdGetBody E) f noFaults v := by
  exact lookup_candid rfl (Candid.pure _) fun b => checked_candid _ _

theorem blockIdByHeightGetBody_candid (height : BitVec 64) :
    Candid (blockIdByHeightGetBody height) f noFaults v := by
  apply (getOrFail_candid _ _ _ _).bind
  intro b w _
  exact checked_candid _ _

theorem artifactGetBody_candid (artifactId : Uuid) :
    Candid (artifactGetBody artifactId) f noFaults v := by
  apply (getOrFail_candid _ _ _ _).bind
  intro b w _
  exact checked_candid _ _

end Candid

/-! ### Successful calls -/

section Undisturbed

variable {E : Env} {caps : Bitcap} {f : FaultPattern} {v w : Store}

/-- What a call that ended well did, it does where nothing fails. -/
theorem delivers_of_effect {r : Request} {a : Reply} (hfind : FindWorks f)
    (hr : r.checksCommit = false) (hcap : bitcapIsset caps r.capability = true)
    (h : r.Effect E f v a w) : Delivers (r.run E caps) noFaults v [] a w := by
  cases r with
  | globalSettingsSet key buffer => cases hr
  | transactionSubmit txnId artifactId txnBytes =>
    obtain ⟨rfl, h⟩ := h
    have hy := transactionSubmitBody_candid txnId artifactId txnBytes () w h
    exact (authorize_delivers hcap (inOwnTxn_delivers noFaults_lmdb hy)).bind_pure _
  | transactionDrop txnId =>
    obtain ⟨rfl, hid, h⟩ := h
    have hy := transactionDropBody_candid txnId () w h
    exact (authorize_delivers hcap (Delivers.of_reject (not_or.mpr hid)
      (inTxnOrParent_delivers noFaults_lmdb hy))).bind_pure _
  | transactionPromote txnId =>
    obtain ⟨rfl, hid, h⟩ := h
    have hy := transactionPromoteBody_candid txnId () w h
    exact (authorize_delivers hcap (Delivers.of_reject (not_or.mpr hid)
      (inTxnOrParent_delivers noFaults_lmdb hy))).bind_pure _
  | blockMake blockId blockData =>
    obtain ⟨rfl, fs, hfs, h⟩ := h
    have hy := blockMakeBody_candid hfind fs blockId blockData () w h
    exact (blockMake_delivers hcap noFaults_lmdb noFaults_alloc hfs hy).bind_pure _
  | transactionGet txnId =>
    obtain ⟨rfl, node, cert, u, rfl, h⟩ := h
    have hy := nodeGetBody_candid pqDb txnId (node, cert) u h
    exact (authorize_delivers hcap (nodeGet_delivers noFaults_lmdb hy)).bind_pure _
  | transactionGetFirst =>
    obtain ⟨rfl, key, node, cert, u, u', rfl, hkey, h⟩ := h
    have hy := nodeGetBody_candid pqDb key (node, cert) u' h
    have hfirst : Delivers ((Prog.inTxn firstKey).finally' mdbTxnAbort) noFaults w [w] key w :=
      Delivers.always_abort (firstKey_candid key u hkey) (mdbTxnAbort_ends noFaults w)
    have hread := mdbTxnBegin_delivers noFaults_lmdb
      (hfirst.bind_of_same (nodeGet_delivers noFaults_lmdb hy))
    exact (authorize_delivers hcap hread).bind_pure _
  | canonizedTransactionGet txnId =>
    obtain ⟨rfl, node, cert, u, rfl, h⟩ := h
    have hy := nodeGetBody_candid txnDb txnId (node, cert) u h
    exact (authorize_delivers hcap (nodeGet_delivers noFaults_lmdb hy)).bind_pure _
  | blockGet blockId =>
    obtain ⟨rfl, node, cert, u, rfl, h⟩ := h
    have hy := blockGetBody_candid blockId (node, cert) u h
    have hread : Delivers (Prog.hasParent >>= fun nested =>
        inReadTxn (blockGetBody E nested blockId))
        noFaults w [] (node, cert) w := Delivers.of_hasParent (inReadTxn_delivers noFaults_lmdb hy)
    exact (authorize_delivers hcap hread).bind_pure _
  | latestBlockIdGet =>
    obtain ⟨rfl, id, u, rfl, h⟩ := h
    have hy := latestBlockIdGetBody_candid id u h
    exact (authorize_delivers hcap (inReadTxn_delivers noFaults_lmdb hy)).bind_pure _
  | blockIdByHeightGet height =>
    obtain ⟨rfl, id, u, rfl, h⟩ := h
    have hy := blockIdByHeightGetBody_candid height id u h
    exact (authorize_delivers hcap (inReadTxn_delivers noFaults_lmdb hy)).bind_pure _
  | artifactGet artifactId =>
    obtain ⟨rfl, record, u, rfl, h⟩ := h
    have hy := artifactGetBody_candid artifactId record u h
    exact (authorize_delivers hcap (inReadTxn_delivers noFaults_lmdb hy)).bind_pure _
  | globalSettingsGet key size =>
    obtain ⟨rfl, b, rfl, hb, hsize⟩ := h
    have hy : Yields (globalSettingsGetBody key size) noFaults w b w :=
      (getOrFail_yields noFaults_lmdb hb).bind
        ((Yields.reject (not_lt.mpr hsize) _ _ w).bind (Yields.pure b _ w))
    exact (authorize_delivers hcap (readTxn_delivers noFaults_lmdb hy)).bind_pure _

theorem globalSettingsSet_delivers (hcap : bitcapIsset caps .appGlobalSettingWrite = true)
    (key : BitVec 64) (buffer : Bytes) (m : Meter Event) :
    ∃ m', (globalSettingsSet caps key buffer).run noFaults ⟨v, [], m, false⟩ =
      .ok () ⟨globalDb.write v key (some buffer), [], m', false⟩ := by
  have hput : Yields (putOrFail globalDb key buffer false) noFaults v ()
      (globalDb.write v key (some buffer)) :=
    putOrFail_yields noFaults_lmdb fun h => by cases h
  obtain ⟨m₁, h₁⟩ := hput ⟨m.tick + 1, m.trace ++ [.begun]⟩
  refine ⟨⟨m₁.tick, m₁.trace ++ [.committed]⟩, ?_⟩
  simp [globalSettingsSet, authorize, Prog.reject, hcap, Prog.run_bind, mdbTxnBegin, Prog.require,
    Prog.attempt, Prog.txnBegin, Prog.note, Metered.meter, Metered.withMeter, noFaults, Prog.onFail,
    Prog.inTxn, mdbTxnCommit, Prog.txnCommit] at h₁ ⊢
  simp [h₁]

end Undisturbed

/-- A reported success is kept: the store holds all that the same call commits, with the same reply,
where nothing fails. -/
def Durable (E : Env) (d : Store) (i : Invocation) : Prop :=
  ∀ a, (perform E d i).1 = .ok a → perform E d i.undisturbed = (.ok a, (perform E d i).2)

def Changes (E : Env) (d : Store) (i : Invocation) : Prop :=
  (perform E d i.withWorkingCommit).2 ≠ d

section Durable

variable {E : Env} {d : Store} {i : Invocation}

theorem perform_undisturbed {a : Reply} (hfind : FindWorks i.faults)
    (hok : (perform E d i.withWorkingCommit).1 = .ok a) :
    perform E d i.undisturbed = (.ok a, (perform E d i.withWorkingCommit).2) := by
  obtain ⟨w, hcap, heffect, hstore⟩ := perform_ok hok
  obtain ⟨r, caps, f, b⟩ := i
  rw [hstore]
  cases hr : r.checksCommit with
  | false =>
    exact perform_of_delivers (i := ⟨r, caps, noFaults, false⟩)
      (delivers_of_effect hfind hr hcap heffect)
  | true =>
    cases r with
    | globalSettingsSet key buffer =>
      obtain ⟨rfl, hends⟩ := heffect
      obtain ⟨rfl, -⟩ := putOrFail_ends hends
      obtain ⟨m', hrun⟩ := globalSettingsSet_delivers (v := d) hcap key buffer ⟨0, []⟩
      have hset : (Request.run E caps (.globalSettingsSet key buffer)).run noFaults
          ⟨d, [], ⟨0, []⟩, false⟩ = .ok .done ⟨globalDb.write d key (some buffer), [], m', false⟩ :=
        Prog.run_bind_ok _ hrun
      change perform E d ⟨.globalSettingsSet key buffer, caps, noFaults, false⟩ = _
      unfold perform
      rw [hset]
      rfl
    | _ => cases hr

theorem withWorkingCommit_eq (h : i.commitFails = false) : i.withWorkingCommit = i := by
  cases i
  simp only [Invocation.withWorkingCommit] at h ⊢
  rw [h]

theorem durable_of_commit_works (hfind : FindWorks i.faults) (h : i.commitFails = false) :
    Durable E d i := by
  intro a ha
  have hi := withWorkingCommit_eq h
  have hsame := perform_undisturbed (E := E) (d := d) (i := i) hfind (by rw [hi]; exact ha)
  rwa [hi] at hsame

/-- The operation that checks its commit never reports success after a failed one. -/
theorem durable_of_checksCommit (hfind : FindWorks i.faults)
    (h : i.request.checksCommit = true) : Durable E d i := by
  by_cases hb : i.commitFails = false
  · exact durable_of_commit_works hfind hb
  · intro a ha
    exfalso
    have hb : i.commitFails = true := by simpa using hb
    obtain ⟨r, caps, f, b⟩ := i
    cases hb
    cases r with
    | globalSettingsSet key buffer =>
      unfold perform at ha
      rcases globalSettingsSet_cases caps f d key buffer ⟨0, []⟩ true with
        ⟨_, us, m', hr⟩ | ⟨e, m', hr⟩ | ⟨w, m', hb, _⟩
      · simp only [Request.run, Prog.run_bind_stop _ hr] at ha
        cases ha
      · simp only [Request.run, Prog.run_bind_stop _ hr] at ha
        cases ha
      · cases hb
    | _ => cases h

/-- Without the check the status does not depend on the commit. -/
theorem perform_of_dropped_commit (h : i.request.checksCommit = false)
    (hb : i.commitFails = true) :
    perform E d i = ((perform E d i.withWorkingCommit).1, d) := by
  obtain ⟨r, caps, f, b⟩ := i
  have hs := Request.settles E caps f d h
  cases hb
  unfold perform Invocation.withWorkingCommit
  rcases hs ⟨0, []⟩ with ⟨_, us, m', hr⟩ | ⟨e, m', hr⟩ | ⟨a, w, m', _, hr⟩
  · simp only [hr]
  · simp only [hr]
  · simp only [hr, if_true]

theorem durable_iff_of_changes (hfind : FindWorks i.faults) (hc : Changes E d i) :
    Durable E d i ↔ i.commitFails = false ∨ i.request.checksCommit = true := by
  constructor
  · intro hd
    by_contra hn
    rw [not_or] at hn
    have hb : i.commitFails = true := by simpa using hn.1
    have hr : i.request.checksCommit = false := by simpa using hn.2
    have hp : perform E d i = ((perform E d i.withWorkingCommit).1, d) :=
      perform_of_dropped_commit hr hb
    rcases perform_cases E d i.withWorkingCommit with ⟨_, he⟩ | ⟨e, he⟩ | ⟨a, w, _, _, ha⟩
    · exact hc (by rw [he])
    · exact hc (by rw [he])
    · have hfull := perform_undisturbed (E := E) (d := d) (a := a) hfind (by rw [ha])
      have hkept := hd a (by rw [hp, ha])
      rw [hfull, hp] at hkept
      exact hc (congrArg Prod.snd hkept)
  · rintro (hb | hr)
    · exact durable_of_commit_works hfind hb
    · exact durable_of_checksCommit hfind hr

theorem durable_of_not_changes (hfind : FindWorks i.faults) (hc : ¬ Changes E d i) :
    Durable E d i := by
  by_cases hr : i.request.checksCommit = true
  · exact durable_of_checksCommit hfind hr
  · by_cases hb : i.commitFails = false
    · exact durable_of_commit_works hfind hb
    · intro a ha
      have hb : i.commitFails = true := by simpa using hb
      have hr : i.request.checksCommit = false := by simpa using hr
      have hp : perform E d i = ((perform E d i.withWorkingCommit).1, d) :=
        perform_of_dropped_commit hr hb
      have hd : (perform E d i.withWorkingCommit).2 = d := not_not.mp hc
      rw [hp] at ha ⊢
      have hfull := perform_undisturbed hfind ha
      rwa [hd] at hfull

end Durable

/-- Whatever else fails, a success is durable exactly when the commit works or the operation checks
it, or the call has nothing to lose. The failures are those of LMDB and of all other calls but the
search for a field that the certificate has. -/
theorem durable_iff_commit_works_or_checked (E : Env) (d : Store) (i : Invocation)
    (hfind : FindWorks i.faults) :
    Durable E d i ↔
      i.commitFails = false ∨ i.request.checksCommit = true ∨ ¬ Changes E d i := by
  by_cases hc : Changes E d i
  · rw [durable_iff_of_changes hfind hc]
    simp [hc]
  · exact iff_of_true (durable_of_not_changes hfind hc) (Or.inr (Or.inr hc))

def lostSubmit : Invocation :=
  ⟨.transactionSubmit 5 7 [1], BitVec.allOnes 32, noFaults, true⟩

theorem submit_changes_empty_store : Changes (codecEnv false) emptyStore lostSubmit := by
  intro h
  have hd := congrArg (fun d => (d.pqDb 5).isSome) h
  have hkept : ((perform (codecEnv false) emptyStore lostSubmit.withWorkingCommit).2.pqDb
      5).isSome = true := by decide +kernel
  rw [hkept] at hd
  cases hd

theorem committed_submit_is_durable :
    Durable (codecEnv false) emptyStore lostSubmit.withWorkingCommit :=
  (durable_iff_commit_works_or_checked (codecEnv false) emptyStore lostSubmit.withWorkingCommit
    noFaults_find).mpr (Or.inl rfl)

theorem lost_submit_reports_success :
    (perform (codecEnv false) emptyStore lostSubmit).1 = .ok .done ∧
      ¬ Durable (codecEnv false) emptyStore lostSubmit := by
  refine ⟨rfl, fun h => ?_⟩
  rw [durable_iff_of_changes noFaults_find submit_changes_empty_store] at h
  rcases h with h | h
  · cases h
  · cases h

end DataserviceAtomicity
