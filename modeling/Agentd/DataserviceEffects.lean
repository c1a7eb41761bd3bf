import Agentd.DataserviceRequests

/-! # What the operations write

For each operation body, what a run that ends well has found in the store and what it has written.
Nothing is assumed about the store, so these also speak of a damaged one. -/
namespace DataserviceEffects

open ByteString
open CertificateFields
open FaultyTransactions
open DataserviceRecords
open DataserviceStore
open DataserviceQueue
open DataserviceBlocks
open DataserviceRequests

/-! ### The process queue -/

section Queue

variable {f : FaultPattern} {v w : Store} {E : Env}

theorem updatePrevNext_ends {db : Dbi Uuid} {header : ℕ} {certSize : Bytes → BitVec 64}
    {id prev : Uuid} (h : Ends (updatePrevNext db header certSize id prev) f v () w) :
    ∃ b, db.read v prev = some b ∧ header ≤ storedSize header (certSize b) ∧
      storedSize header (certSize b) ≤ b.length ∧
      w = db.write v prev (some (setNext (b.take (storedSize header (certSize b))) id)) := by
  obtain ⟨b, u₁, hget, h₁⟩ := h.of_bind
  obtain ⟨rfl, hb⟩ := getOrFail_ends hget
  obtain ⟨_, u₂, hbounds, h₂⟩ := h₁.of_bind
  obtain ⟨-, rfl⟩ := hbounds.of_inBounds
  obtain ⟨_, u₃, hmalloc, h₃⟩ := h₂.of_bind
  have hu₃ := malloc_ends hmalloc
  obtain ⟨node, u₄, hcopy, hput⟩ := h₃.of_bind
  obtain ⟨_, u₅, hin, hpure⟩ := hcopy.of_bind
  obtain ⟨hsize, hu₅⟩ := hin.of_inBounds
  obtain ⟨hnode, hu₄⟩ := hpure.of_pure
  subst hu₃ hu₅ hu₄ hnode
  exact ⟨b, hb, hsize.1, hsize.2, (putOrFail_ends hput).1⟩

def startNode (next : Uuid) : DataTransactionNode :=
  ⟨zeroUuid, zeroUuid, next, zeroUuid, zeroUuid, 0, 0⟩

def endNode (prev : Uuid) : DataTransactionNode :=
  ⟨ffUuid, prev, ffUuid, zeroUuid, zeroUuid, 0, 0⟩

def createdQueue (pq : Uuid → Option Bytes) (txnId : Uuid) (node : Bytes) :
    Uuid → Option Bytes :=
  Function.update (Function.update (Function.update pq txnId (some node)) zeroUuid
    (some (startNode txnId).encode)) ffUuid (some (endNode txnId).encode)

def submittedRecord (E : Env) (txnId artifactId : Uuid) (txnBytes : Bytes)
    (endNode : Option Bytes) : Bytes :=
  (transactionSubmitNewnode E txnId artifactId txnBytes endNode).encode ++ txnBytes

/-- A submit: the key was free; the new record is entered and linked behind the last one. -/
def Submitted (E : Env) (txnId artifactId : Uuid) (txnBytes : Bytes)
    (pq pq' : Uuid → Option Bytes) : Prop :=
  let record := submittedRecord E txnId artifactId txnBytes
  pq txnId = none ∧
  ((pq ffUuid = none ∧ pq' = createdQueue pq txnId (record none)) ∨
    ∃ e b, pq ffUuid = some e ∧ sizeofTransactionNode ≤ e.length ∧
      let pq₁ := Function.update pq txnId (some (record (some e)))
      let prev := (DataTransactionNode.decode e).prev
      let size := storedSize sizeofTransactionNode (DataTransactionNode.decode b).netTxnCertSize
      let end_ := setPrev (e.take sizeofTransactionNode) txnId
      pq₁ prev = some b ∧ sizeofTransactionNode ≤ size ∧ size ≤ b.length ∧
      pq' = Function.update (Function.update pq₁ prev (some (setNext (b.take size) txnId)))
        (DataTransactionNode.decode end_).key (some end_))

/-- A drop: the record goes and the records it named are linked past it. -/
def Dropped (txnId : Uuid) (pq pq' : Uuid → Option Bytes) : Prop :=
  ∃ x p n, pq txnId = some x ∧ sizeofTransactionNode ≤ x.length ∧
    let node := DataTransactionNode.decode x
    let pq₁ := Function.update pq txnId none
    let pq₂ := Function.update pq₁ node.prev (some (setNext p node.next))
    pq₁ node.prev = some p ∧ sizeofTransactionNode ≤ p.length ∧
    pq₂ node.next = some n ∧ sizeofTransactionNode ≤ n.length ∧
    pq' = Function.update pq₂ node.next (some (setPrev n node.prev))

def Promoted (txnId : Uuid) (pq pq' : Uuid → Option Bytes) : Prop :=
  ∃ x, pq txnId = some x ∧ sizeofTransactionNode ≤ x.length ∧
    pq' = Function.update pq txnId (some (setTxnState x TransactionNodeState.attested.code))

theorem transactionSubmitQueryEnd_ends {e : Option Bytes}
    (h : Ends transactionSubmitQueryEnd f v e w) :
    w = v ∧ e = v.pqDb ffUuid ∧ ∀ b, e = some b → sizeofTransactionNode ≤ b.length := by
  obtain ⟨r, u₁, hget, h₁⟩ := h.of_bind
  obtain ⟨hu₁, hr⟩ := mdbGet_ends hget
  subst hu₁
  rcases hr with ⟨b, rfl, hb⟩ | ⟨rfl, hb⟩ | rfl
  · obtain ⟨_, u₂, hrej, hpure⟩ := h₁.of_bind
    obtain ⟨hl, hu₂⟩ := hrej.of_reject
    obtain ⟨he, hw⟩ := hpure.of_pure
    subst hw hu₂ he
    refine ⟨rfl, hb.symm, ?_⟩
    rintro _ ⟨⟩
    exact not_lt.mp hl
  · obtain ⟨he, hw⟩ := h₁.of_pure
    subst hw he
    refine ⟨rfl, hb.symm, ?_⟩
    rintro _ ⟨⟩
  · exact h₁.not_fail.elim

theorem transactionSubmitBody_ends {txnId artifactId : Uuid} {txnBytes : Bytes}
    (h : Ends (transactionSubmitBody E txnId artifactId txnBytes) f v () w) :
    ∃ pq', w = { v with pqDb := pq' } ∧ Submitted E txnId artifactId txnBytes v.pqDb pq' := by
  obtain ⟨endNode, u₁, hq, h₁⟩ := h.of_bind
  obtain ⟨hu₁, hend, hlen⟩ := transactionSubmitQueryEnd_ends hq
  obtain ⟨_, u₂, hmalloc, h₂⟩ := h₁.of_bind
  have hu₂ := malloc_ends hmalloc
  obtain ⟨_, u₃, hput, h₃⟩ := h₂.of_bind
  obtain ⟨hu₃, hfresh⟩ := putOrFail_ends hput
  subst hu₃ hu₂ hu₁
  cases endNode with
  | some e =>
    obtain ⟨_, u₄, hprev, hupd⟩ := h₃.of_bind
    obtain ⟨b, hb, hs₁, hs₂, hu₄⟩ := updatePrevNext_ends hprev
    obtain ⟨hw, -⟩ := putOrFail_ends hupd
    subst hu₄ hw
    exact ⟨_, rfl, hfresh rfl, Or.inr ⟨e, b, hend.symm, hlen e rfl, hb, hs₁, hs₂, rfl⟩⟩
  | none =>
    obtain ⟨_, u₄, hstart, hfin⟩ := h₃.of_bind
    obtain ⟨hu₄, -⟩ := putOrFail_ends hstart
    obtain ⟨hw, -⟩ := putOrFail_ends hfin
    subst hu₄ hw
    exact ⟨_, rfl, hfresh rfl, Or.inl ⟨hend.symm, rfl⟩⟩

theorem getNodeOrFail_ends {db : Dbi Uuid} {id : Uuid} {e : AgentdError} {b : Bytes}
    (h : Ends (getNodeOrFail db id e) f v b w) :
    w = v ∧ db.read v id = some b ∧ sizeofTransactionNode ≤ b.length := by
  obtain ⟨b', u₁, hget, h₁⟩ := h.of_bind
  obtain ⟨_, u₂, hrej, hpure⟩ := h₁.of_bind
  obtain ⟨hu₁, hb⟩ := getOrFail_ends hget
  obtain ⟨hlen, hu₂⟩ := hrej.of_reject
  obtain ⟨hb', hw⟩ := hpure.of_pure
  subst hw hu₂ hu₁ hb'
  exact ⟨rfl, hb, not_lt.mp hlen⟩

theorem transactionDropBody_ends {txnId : Uuid} (h : Ends (transactionDropBody txnId) f v () w) :
    ∃ pq', w = { v with pqDb := pq' } ∧ Dropped txnId v.pqDb pq' := by
  obtain ⟨x, u₁, hget, h₁⟩ := h.of_bind
  obtain ⟨hu₁, hx, hxl⟩ := getNodeOrFail_ends hget
  obtain ⟨r, u₂, hdel, h₂⟩ := h₁.of_bind
  cases r with
  | notFound => exact h₂.not_fail.elim
  | error => exact h₂.not_fail.elim
  | ok =>
    obtain ⟨hu₂, -⟩ := (mdbDel_ends hdel).1 rfl
    obtain ⟨p, u₃, hp, h₃⟩ := h₂.of_bind
    obtain ⟨hu₃, hpb, hpl⟩ := getNodeOrFail_ends hp
    obtain ⟨_, u₄, hm₁, h₄⟩ := h₃.of_bind
    have hu₄ := malloc_ends hm₁
    obtain ⟨_, u₅, hput₁, h₅⟩ := h₄.of_bind
    obtain ⟨hu₅, -⟩ := putOrFail_ends hput₁
    obtain ⟨n, u₆, hn, h₆⟩ := h₅.of_bind
    obtain ⟨hu₆, hnb, hnl⟩ := getNodeOrFail_ends hn
    obtain ⟨_, u₇, hm₂, hput₂⟩ := h₆.of_bind
    have hu₇ := malloc_ends hm₂
    obtain ⟨hw, -⟩ := putOrFail_ends hput₂
    subst hw hu₇ hu₆ hu₅ hu₄ hu₃ hu₂ hu₁
    exact ⟨_, rfl, x, p, n, hx, hxl, hpb, hpl, hnb, hnl, rfl⟩

theorem rejectSentinels_ends {txnId : Uuid}
    (h : Ends (rejectSentinels txnId : TxOp Unit) f v () w) :
    w = v ∧ txnId ≠ zeroUuid ∧ txnId ≠ ffUuid :=
  ⟨h.of_reject.2, not_or.mp h.of_reject.1⟩

theorem transactionPromoteBody_ends {txnId : Uuid}
    (h : Ends (transactionPromoteBody txnId) f v () w) :
    ∃ pq', w = { v with pqDb := pq' } ∧ Promoted txnId v.pqDb pq' := by
  obtain ⟨x, u₁, hget, h₁⟩ := h.of_bind
  obtain ⟨hu₁, hx, hxl⟩ := getNodeOrFail_ends hget
  obtain ⟨_, u₂, hm, hput⟩ := h₁.of_bind
  have hu₂ := malloc_ends hm
  obtain ⟨hw, -⟩ := putOrFail_ends hput
  subst hw hu₂ hu₁
  exact ⟨_, rfl, x, hx, hxl, rfl⟩

theorem nodeGetBody_ends {db : Dbi Uuid} {nested : Bool} {txnId : Uuid}
    {r : DataTransactionNode × Bytes} (h : Ends (nodeGetBody db nested txnId) f v r w) :
    ∃ b, db.read v txnId = some b ∧ sizeofTransactionNode < b.length ∧
      b.length - sizeofTransactionNode = (DataTransactionNode.decode b).netTxnCertSize.toNat ∧
      r = (DataTransactionNode.decode b, b.drop sizeofTransactionNode) := by
  obtain ⟨b, u₁, hget, h₁⟩ := h.of_bind
  obtain ⟨_, u₂, hrej₁, h₂⟩ := h₁.of_bind
  obtain ⟨_, u₃, hrej₂, h₃⟩ := h₂.of_bind
  obtain ⟨_, u₄, -, hpure⟩ := h₃.of_bind
  exact ⟨b, (getOrFail_ends hget).2, not_le.mp hrej₁.of_reject.1, not_not.mp hrej₂.of_reject.1,
    hpure.of_pure.1⟩

theorem firstKey_ends {key : Uuid} (h : Ends firstKey f v key w) :
    ∃ b, v.pqDb zeroUuid = some b ∧ key = (DataTransactionNode.decode b).next ∧
      key ≠ ffUuid := by
  obtain ⟨b, u₁, hget, h₁⟩ := h.of_bind
  obtain ⟨_, u₂, -, h₂⟩ := h₁.of_bind
  obtain ⟨_, u₃, hrej, hpure⟩ := h₂.of_bind
  have hkey := hpure.of_pure.1
  refine ⟨b, (getOrFail_ends hget).2, hkey, ?_⟩
  rw [hkey]
  exact hrej.of_reject.1

end Queue

section QueueYields

variable {f : FaultPattern} {v : Store} {E : Env}

theorem copyRecord_yields {header size : ℕ} {b : Bytes} (h₁ : header ≤ size)
    (h₂ : size ≤ b.length) : Yields (copyRecord header size b) f v (b.take size) v :=
  (Yields.inBounds (And.intro h₁ h₂) f v).bind (Yields.pure (b.take size) f v)

theorem updatePrevNext_yields {db : Dbi Uuid} {header : ℕ} (certSize : Bytes → BitVec 64)
    {id prev : Uuid} {b : Bytes} (hf : LmdbWorks f) (ha : AllocWorks f)
    (hb : db.read v prev = some b) (h₁ : header ≤ storedSize header (certSize b))
    (h₂ : storedSize header (certSize b) ≤ b.length) :
    Yields (updatePrevNext db header certSize id prev) f v ()
      (db.write v prev (some (setNext (b.take (storedSize header (certSize b))) id))) := by
  refine (getOrFail_yields hf hb).bind ?_
  refine (Yields.inBounds (h₁.trans h₂) f v).bind ?_
  refine (malloc_yields ha).bind ?_
  refine (copyRecord_yields h₁ h₂).bind ?_
  exact putOrFail_yields hf (by simp)

theorem transactionSubmitUpdatePrev_yields {txnId prev : Uuid} {b : Bytes} (hf : LmdbWorks f)
    (ha : AllocWorks f) (hb : pqDb.read v prev = some b)
    (h₁ : sizeofTransactionNode ≤
      storedSize sizeofTransactionNode (DataTransactionNode.decode b).netTxnCertSize)
    (h₂ : storedSize sizeofTransactionNode (DataTransactionNode.decode b).netTxnCertSize ≤
      b.length) :
    Yields (transactionSubmitUpdatePrev txnId prev) f v () (pqDb.write v prev (some (setNext
      (b.take (storedSize sizeofTransactionNode
        (DataTransactionNode.decode b).netTxnCertSize)) txnId))) :=
  updatePrevNext_yields (fun b => (DataTransactionNode.decode b).netTxnCertSize) hf ha hb h₁ h₂

theorem transactionSubmitBody_yields {txnId artifactId : Uuid} {txnBytes : Bytes}
    {pq' : Uuid → Option Bytes} (hf : LmdbWorks f) (ha : AllocWorks f)
    (hs : Submitted E txnId artifactId txnBytes v.pqDb pq') :
    Yields (transactionSubmitBody E txnId artifactId txnBytes) f v () { v with pqDb := pq' } := by
  obtain ⟨hfree, ⟨hend, rfl⟩ | ⟨e, b, hend, hlen, hb, hs₁, hs₂, rfl⟩⟩ := hs
  · have hq : Yields transactionSubmitQueryEnd f v none v := by
      have hg := mdbGet_yields hf pqDb ffUuid v
      simp only [show pqDb.read v ffUuid = none from hend] at hg
      exact hg.bind (Yields.pure none f v)
    refine hq.bind ((malloc_yields ha).bind ?_)
    refine (putOrFail_yields hf fun _ => hfree).bind ?_
    exact (putOrFail_yields hf (by simp)).bind (putOrFail_yields hf (by simp))
  · have hq : Yields transactionSubmitQueryEnd f v (some e) v := by
      have hg := mdbGet_yields hf pqDb ffUuid v
      simp only [show pqDb.read v ffUuid = some e from hend] at hg
      exact hg.bind ((Yields.reject (not_lt.mpr hlen) _ f v).bind (Yields.pure (some e) f v))
    refine hq.bind ((malloc_yields ha).bind ?_)
    refine (putOrFail_yields hf fun _ => hfree).bind ?_
    refine Yields.bind (transactionSubmitUpdatePrev_yields hf ha ?_ hs₁ hs₂)
      (putOrFail_yields hf (by simp))
    exact hb

theorem getNodeOrFail_yields {db : Dbi Uuid} {id : Uuid} {e : AgentdError} {b : Bytes}
    (hf : LmdbWorks f) (hb : db.read v id = some b) (hl : sizeofTransactionNode ≤ b.length) :
    Yields (getNodeOrFail db id e) f v b v :=
  (getOrFail_yields hf hb).bind
    ((Yields.reject (not_lt.mpr hl) _ f v).bind (Yields.pure b f v))

theorem transactionDropBody_yields {txnId : Uuid} {pq' : Uuid → Option Bytes} (hf : LmdbWorks f)
    (ha : AllocWorks f) (hs : Dropped txnId v.pqDb pq') :
    Yields (transactionDropBody txnId) f v () { v with pqDb := pq' } := by
  obtain ⟨x, p, n, hx, hxl, hp, hpl, hn, hnl, rfl⟩ := hs
  have hx' : pqDb.read v txnId = some x := hx
  refine (getNodeOrFail_yields hf hx' hxl).bind ?_
  refine (mdbDel_yields hf (by rw [hx']; rfl)).bind ?_
  refine (getNodeOrFail_yields hf hp hpl).bind ?_
  refine (malloc_yields ha).bind ((putOrFail_yields hf (by simp)).bind ?_)
  refine (getNodeOrFail_yields hf hn hnl).bind ?_
  exact (malloc_yields ha).bind (putOrFail_yields hf (by simp))

theorem transactionPromoteBody_yields {txnId : Uuid} {pq' : Uuid → Option Bytes}
    (hf : LmdbWorks f) (ha : AllocWorks f) (hs : Promoted txnId v.pqDb pq') :
    Yields (transactionPromoteBody txnId) f v () { v with pqDb := pq' } := by
  obtain ⟨x, hx, hxl, rfl⟩ := hs
  refine (getNodeOrFail_yields hf hx hxl).bind ?_
  exact (malloc_yields ha).bind (putOrFail_yields hf (by simp))

theorem nodeGetBody_yields (db : Dbi Uuid) {txnId : Uuid} {b : Bytes} (hf : LmdbWorks f)
    (ha : AllocWorks f) (hb : db.read v txnId = some b) (hl : sizeofTransactionNode < b.length)
    (hs : b.length - sizeofTransactionNode = (DataTransactionNode.decode b).netTxnCertSize.toNat) :
    Yields (nodeGetBody db false txnId) f v
      (DataTransactionNode.decode b, b.drop sizeofTransactionNode) v := by
  refine (getOrFail_yields hf hb).bind ?_
  refine (Yields.reject (not_le.mpr hl) _ f v).bind ?_
  refine (Yields.reject (not_not.mpr hs) _ f v).bind ?_
  exact (malloc_yields ha).bind (Yields.pure _ f v)

theorem nodeGet_delivers {db : Dbi Uuid} {txnId : Uuid} {r : DataTransactionNode × Bytes}
    {w : Store}
    (hf : LmdbWorks f) (h : Yields (nodeGetBody db false txnId) f v r w) :
    Delivers (nodeGet db txnId) f v [] r v :=
  Delivers.of_hasParent (inReadTxn_delivers hf h)

theorem firstKey_yields {b : Bytes} (hf : LmdbWorks f) (hb : v.pqDb zeroUuid = some b)
    (hl : sizeofTransactionNode ≤ b.length) (hne : (DataTransactionNode.decode b).next ≠ ffUuid) :
    Yields firstKey f v (DataTransactionNode.decode b).next v := by
  refine (getOrFail_yields hf hb).bind ?_
  refine (Yields.reject (not_lt.mpr hl) _ f v).bind ?_
  exact (Yields.reject hne _ f v).bind (Yields.pure _ f v)

/-- A record whose header describes it can be copied. -/
theorem updatePrevNext_safe {db : Dbi Uuid} {header : ℕ} {certSize : Bytes → BitVec 64}
    {id prev : Uuid} (h : ∀ b, db.read v prev = some b →
      header ≤ storedSize header (certSize b) ∧ storedSize header (certSize b) ≤ b.length) :
    Safe (updatePrevNext db header certSize id prev) f v := by
  apply getOrFail_safe.bind
  intro b w hget
  obtain ⟨rfl, hb⟩ := getOrFail_ends hget
  obtain ⟨h₁, h₂⟩ := h b hb
  apply (Safe.inBounds (h₁.trans h₂)).bind
  intro _ w _
  apply malloc_safe.bind
  intro _ w _
  apply Safe.bind
  · apply (Safe.inBounds (And.intro h₁ h₂)).bind
    intro _ w _
    exact Safe.pure _
  · intro node w _
    exact putOrFail_safe

end QueueYields

/-! ### Wrapped transactions -/

/-- The four fields of a wrapped transaction, when all are there and of the right size. -/
def childFields (fs : List (CertField × Bytes)) : Option ChildFields := do
  let id ← sizedField fs .certificateId 16
  let prev ← sizedField fs .previousCertificateId 16
  let artifact ← sizedField fs .artifactId 16
  let state ← sizedField fs .newArtifactState 4
  pure ⟨bits 128 id, bits 128 prev, bits 128 artifact, bits 32 state⟩

def certChild (E : Env) (cert : Bytes) : Option ChildFields := (E.fields cert).bind childFields

/-- The transaction database before a child's predecessor is linked to it. -/
def entered (blockId : Uuid) (cert : Bytes) (c : ChildFields) (txn : Uuid → Option Bytes) :
    Uuid → Option Bytes :=
  Function.update txn c.transactionId (some ((canonizedNode blockId cert c).encode ++ cert))

/-- A child enters `txn.db` under a free key, and the transaction it names as previous, if any,
is pointed at it. -/
def TxnEntered (blockId : Uuid) (cert : Bytes) (c : ChildFields) (txn txn' : Uuid → Option Bytes) :
    Prop :=
  txn c.transactionId = none ∧
  ((c.prevTransactionId = zeroUuid ∧ txn' = entered blockId cert c txn) ∨
    (c.prevTransactionId ≠ zeroUuid ∧ ∃ b, entered blockId cert c txn c.prevTransactionId = some b ∧
      sizeofTransactionNode ≤ b.length ∧
      txn' = Function.update (entered blockId cert c txn) c.prevTransactionId
        (some (setNext b c.transactionId))))

/-- The record of the child's artifact is created, or its latest fields are overwritten. -/
def ArtifactUpdated (height : BitVec 64) (c : ChildFields) (art art' : Uuid → Option Bytes) :
    Prop :=
  (art c.artifactId = none ∧ art' = Function.update art c.artifactId (some
    (⟨c.artifactId, c.transactionId, c.transactionId, height, height, c.state⟩ :
      DataArtifactRecord).encode)) ∨
  ∃ b, art c.artifactId = some b ∧ b.length = sizeofArtifactRecord ∧
    let record := setArtifactLatest b c.transactionId height c.state
    art' = Function.update art (DataArtifactRecord.decode record).key (some record)

structure ChildEffect (E : Env) (height : BitVec 64) (blockId : Uuid) (cert : Bytes)
    (c : ChildFields) (v w : Store) : Prop where
  fields : certChild E cert = some c
  not_sentinel : c.transactionId ≠ zeroUuid ∧ c.transactionId ≠ ffUuid
  txn : TxnEntered blockId cert c v.txnDb w.txnDb
  pq : Dropped c.transactionId v.pqDb w.pqDb
  artifact : ArtifactUpdated height c v.artifactDb w.artifactDb
  block : w.blockDb = v.blockDb
  height : w.heightDb = v.heightDb
  global : w.globalDb = v.globalDb

inductive Canonized (E : Env) (height : BitVec 64) (blockId : Uuid) :
    List (Bytes × ChildFields) → Store → Store → Prop
  | nil (v : Store) : Canonized E height blockId [] v v
  | cons {v u w : Store} {cert : Bytes} {c : ChildFields} {cs : List (Bytes × ChildFields)}
      (first : ChildEffect E height blockId cert c v u) (rest : Canonized E height blockId cs u w) :
      Canonized E height blockId ((cert, c) :: cs) v w

/-- The wrapped transactions of a block certificate with their fields, in certificate order. -/
def wrappedChildren (E : Env) (blockData : Bytes) : List (Bytes × ChildFields) :=
  match E.fields blockData with
  | none => []
  | some fs => (fieldValues fs .wrappedTransactionTuple).filterMap fun cert =>
      (certChild E cert).map fun c => (cert, c)

def childIds (cs : List (Bytes × ChildFields)) : List Uuid :=
  cs.map fun p => p.2.transactionId

def wrappedIds (E : Env) (blockData : Bytes) : List Uuid := childIds (wrappedChildren E blockData)

theorem Canonized.certChild_eq {E : Env} {height : BitVec 64} {blockId : Uuid}
    {cs : List (Bytes × ChildFields)} {v w : Store} (h : Canonized E height blockId cs v w) :
    ∀ p ∈ cs, certChild E p.1 = some p.2 := by
  induction h with
  | nil v => simp
  | cons first rest ih =>
    intro p hp
    rcases List.mem_cons.mp hp with rfl | hp
    · exact first.fields
    · exact ih p hp

theorem Canonized.eq_wrappedChildren {E : Env} {height : BitVec 64} {blockId : Uuid}
    {cs : List (Bytes × ChildFields)} {v w : Store} (h : Canonized E height blockId cs v w)
    {blockData : Bytes} {fs : List (CertField × Bytes)} (hfs : E.fields blockData = some fs)
    (hcs : cs.map Prod.fst = fieldValues fs .wrappedTransactionTuple) :
    cs = wrappedChildren E blockData := by
  have hall := h.certChild_eq
  rw [wrappedChildren, hfs]
  simp only
  rw [← hcs, List.filterMap_map]
  symm
  have hid : List.filterMap some cs = cs := List.filterMap_some
  rw [← hid]
  nth_rewrite 1 [hid]
  apply List.filterMap_congr
  intro p hp
  simp [hall p hp]

section Children

variable {f : FaultPattern} {v w : Store} {E : Env} {height : BitVec 64} {blockId : Uuid}

theorem blockMakeChildFields_ends {fs : List (CertField × Bytes)} {c : ChildFields}
    (h : Ends (blockMakeChildFields fs) f v c w) : w = v ∧ childFields fs = some c := by
  obtain ⟨id, u₁, hid, h₁⟩ := h.of_bind
  obtain ⟨prev, u₂, hprev, h₂⟩ := h₁.of_bind
  obtain ⟨artifact, u₃, hart, h₃⟩ := h₂.of_bind
  obtain ⟨state, u₄, hst, h₄⟩ := h₃.of_bind
  obtain ⟨hu₁, hid'⟩ := findSized_ends hid
  obtain ⟨hu₂, hprev'⟩ := findSized_ends hprev
  obtain ⟨hu₃, hart'⟩ := findSized_ends hart
  obtain ⟨hu₄, hst'⟩ := findSized_ends hst
  obtain ⟨hc, hw⟩ := h₄.of_pure
  subst hw hu₄ hu₃ hu₂ hu₁ hc
  exact ⟨rfl, by simp [childFields, hid', hprev', hart', hst']⟩

theorem blockMakeLinkPrevTxn_ends {c : ChildFields} (h : Ends (blockMakeLinkPrevTxn c) f v () w) :
    (c.prevTransactionId = zeroUuid ∧ w = v) ∨
    (c.prevTransactionId ≠ zeroUuid ∧ ∃ b, v.txnDb c.prevTransactionId = some b ∧
      sizeofTransactionNode ≤ b.length ∧
      w = { v with
        txnDb := Function.update v.txnDb c.prevTransactionId
          (some (setNext b c.transactionId)) }) := by
  unfold blockMakeLinkPrevTxn at h
  by_cases hp : c.prevTransactionId = zeroUuid
  · rw [if_pos hp] at h
    exact Or.inl ⟨hp, h.of_pure.2⟩
  · rw [if_neg hp] at h
    obtain ⟨b, u₁, hget, h₁⟩ := h.of_bind
    obtain ⟨_, u₂, hm, hput⟩ := h₁.of_bind
    obtain ⟨hu₁, hb, hl⟩ := getNodeOrFail_ends hget
    have hu₂ := malloc_ends hm
    obtain ⟨hw, -⟩ := putOrFail_ends hput
    subst hw hu₂ hu₁
    exact Or.inr ⟨hp, b, hb, hl, rfl⟩

theorem blockMakeUpdateArtifact_ends {c : ChildFields}
    (h : Ends (blockMakeUpdateArtifact c.artifactId c.transactionId height c.state) f v () w) :
    ∃ art', w = { v with artifactDb := art' } ∧ ArtifactUpdated height c v.artifactDb art' := by
  obtain ⟨r, u₁, hget, h₁⟩ := h.of_bind
  obtain ⟨hu₁, hr⟩ := mdbGet_ends hget
  subst hu₁
  rcases hr with ⟨b, rfl, hb⟩ | ⟨rfl, hb⟩ | rfl
  · obtain ⟨_, u₂, hrej, hput⟩ := h₁.of_bind
    obtain ⟨hl, hu₂⟩ := hrej.of_reject
    obtain ⟨hw, -⟩ := putOrFail_ends hput
    subst hw hu₂
    exact ⟨_, rfl, Or.inr ⟨b, hb, not_not.mp hl, rfl⟩⟩
  · obtain ⟨hw, -⟩ := putOrFail_ends h₁
    subst hw
    exact ⟨_, rfl, Or.inl ⟨hb, rfl⟩⟩
  · exact h₁.not_fail.elim

theorem blockMakeProcessChild_ends {cert : Bytes}
    (h : Ends (blockMakeProcessChild E height blockId cert) f v () w) :
    ∃ c, ChildEffect E height blockId cert c v w := by
  obtain ⟨fs, u₁, hinit, h₁⟩ := h.of_bind
  obtain ⟨hu₁, hfs⟩ := parserInit_ends hinit
  obtain ⟨u₂, h₂, hnote⟩ := h₁.of_finally'
  have hw := hnote.of_note
  obtain ⟨c, u₃, hc, h₃⟩ := h₂.of_bind
  obtain ⟨hu₃, hfields⟩ := blockMakeChildFields_ends hc
  obtain ⟨_, u₄, hm, h₄⟩ := h₃.of_bind
  have hu₄ := malloc_ends hm
  obtain ⟨_, u₅, hput, h₅⟩ := h₄.of_bind
  obtain ⟨hu₅, hfresh⟩ := putOrFail_ends hput
  obtain ⟨_, u₆, hdrop, h₆⟩ := h₅.of_bind
  obtain ⟨_, u₇, hs, hdrop'⟩ := hdrop.of_bind
  obtain ⟨hu₇, hsent⟩ := rejectSentinels_ends hs
  obtain ⟨pq', hu₆, hpq⟩ := transactionDropBody_ends hdrop'
  obtain ⟨_, u₈, hlink, hart⟩ := h₆.of_bind
  obtain ⟨art', hu₂, hartifact⟩ := blockMakeUpdateArtifact_ends hart
  have hchild : certChild E cert = some c := by simp [certChild, hfs, hfields]
  refine ⟨c, ?_⟩
  rcases blockMakeLinkPrevTxn_ends hlink with ⟨hp, hu₈⟩ | ⟨hp, b, hb, hl, hu₈⟩
  · subst hw hu₂ hu₈ hu₆ hu₇ hu₅ hu₄ hu₃ hu₁
    exact ⟨hchild, hsent, ⟨hfresh rfl, Or.inl ⟨hp, rfl⟩⟩, hpq, hartifact, rfl, rfl, rfl⟩
  · subst hw hu₂ hu₈ hu₆ hu₇ hu₅ hu₄ hu₃ hu₁
    exact ⟨hchild, hsent, ⟨hfresh rfl, Or.inr ⟨hp, b, hb, hl, rfl⟩⟩, hpq, hartifact, rfl, rfl, rfl⟩

/-- The loop canonizes the wrapped transactions in order, all of them unless the parser misses
one. -/
theorem blockMakeProcessChildren_ends {cert : Bytes} {rest : List Bytes}
    (h : Ends (blockMakeProcessChildren E height blockId cert rest) f v () w) :
    ∃ cs, Canonized E height blockId cs v w ∧ cs.map Prod.fst <+: cert :: rest ∧
      (FindWorks f → cs.map Prod.fst = cert :: rest) := by
  induction rest generalizing v cert with
  | nil =>
    obtain ⟨c, hc⟩ := blockMakeProcessChild_ends h
    exact ⟨[(cert, c)], .cons hc (.nil w), by simp, fun _ => rfl⟩
  | cons next rest ih =>
    obtain ⟨_, u, hfirst, h₁⟩ := h.of_bind
    obtain ⟨c, hc⟩ := blockMakeProcessChild_ends hfirst
    obtain ⟨r, u', hfind, h₂⟩ := h₁.of_bind
    have hu' := hfind.of_attempt
    subst hu'
    cases r with
    | true =>
      obtain ⟨cs, hcs, hpre, hall⟩ := ih h₂
      refine ⟨(cert, c) :: cs, .cons hc hcs, ?_, fun hf => ?_⟩
      · simpa using hpre
      · simp [hall hf]
    | false =>
      have hw := h₂.of_pure.2
      subst hw
      refine ⟨[(cert, c)], .cons hc (.nil w), by simp, fun hf => ?_⟩
      obtain ⟨m, m', hrun⟩ := hfind
      simp [Prog.attempt, Metered.meter, hf m.tick] at hrun

end Children

/-! ### Blocks -/

def firstTransactionId (E : Env) (cert : Bytes) : Option Uuid :=
  ((E.fields cert).bind fun fs => sizedField fs .certificateId 16).map (bits 128)

structure BlockChecked (E : Env) (fs : List (CertField × Bytes)) (blockId : Uuid)
    (endNode : Option Bytes) : Prop where
  end_length : ∀ e, endNode = some e → sizeofBlockNode ≤ e.length
  height : (sizedField fs .blockHeight 8).map (bits 64) = some (expectedBlockHeight endNode)
  prev : (sizedField fs .previousBlockUuid 16).map (bits 128) = some (expectedPrevBlockId E endNode)
  uuid : (sizedField fs .blockUuid 16).map (bits 128) = some blockId
  not_reserved : blockId ≠ E.rootBlock ∧ blockId ≠ zeroUuid ∧ blockId ≠ ffUuid

/-- The block's record is entered under a free key and linked behind the last block. -/
def BlockLinked (blockId : Uuid) (height : BitVec 64) (record : Bytes) (endNode : Option Bytes)
    (blk blk' : Uuid → Option Bytes) : Prop :=
  blk blockId = none ∧
  let blk₁ := Function.update blk blockId (some record)
  match endNode with
  | none => blk' = Function.update (Function.update blk₁ zeroUuid
      (some (⟨zeroUuid, zeroUuid, blockId, zeroUuid, 0, 0⟩ : DataBlockNode).encode)) ffUuid
      (some (⟨ffUuid, blockId, ffUuid, zeroUuid, height, 0⟩ : DataBlockNode).encode)
  | some e => ∃ b,
      let prev := (DataBlockNode.decode e).prev
      let size := storedSize sizeofBlockNode (DataBlockNode.decode b).netBlockCertSize
      let end_ := setBlockHeight (setPrev (e.take sizeofBlockNode) blockId) height
      blk₁ prev = some b ∧ sizeofBlockNode ≤ size ∧ size ≤ b.length ∧
      blk' = Function.update (Function.update blk₁ prev (some (setNext (b.take size) blockId)))
        (DataBlockNode.decode end_).key (some end_)

/-- The block itself, before its transactions: `blk` is the block database with it. -/
structure BlockInserted (E : Env) (fs : List (CertField × Bytes)) (blockId : Uuid)
    (blockData : Bytes) (v : Store) (firstId : Uuid) (blk : Uuid → Option Bytes) : Prop where
  checked : BlockChecked E fs blockId (v.blockDb ffUuid)
  height_free : v.heightDb (expectedBlockHeight (v.blockDb ffUuid)) = none
  linked : BlockLinked blockId (expectedBlockHeight (v.blockDb ffUuid))
    ((⟨blockId, expectedPrevBlockId E (v.blockDb ffUuid), ffUuid, firstId,
      expectedBlockHeight (v.blockDb ffUuid), BitVec.ofNat 64 blockData.length⟩ :
      DataBlockNode).encode ++ blockData) (v.blockDb ffUuid) v.blockDb blk

/-- The store between the insertion of the block and its first wrapped transaction. -/
def withBlock (blockId : Uuid) (blk : Uuid → Option Bytes) (v : Store) : Store :=
  { v with
    blockDb := blk
    heightDb := Function.update v.heightDb (expectedBlockHeight (v.blockDb ffUuid))
      (some (be 16 blockId)) }

section Blocks

variable {f : FaultPattern} {v w : Store} {E : Env} {fs : List (CertField × Bytes)}
  {blockId : Uuid} {endNode : Option Bytes}

theorem queryEndNode_ends (h : Ends queryEndNode f v endNode w) :
    w = v ∧ endNode = v.blockDb ffUuid ∧ ∀ e, endNode = some e → sizeofBlockNode ≤ e.length := by
  obtain ⟨r, u₁, hget, h₁⟩ := h.of_bind
  obtain ⟨hu₁, hr⟩ := mdbGet_ends hget
  subst hu₁
  rcases hr with ⟨b, rfl, hb⟩ | ⟨rfl, hb⟩ | rfl
  · obtain ⟨_, u₂, hrej, hpure⟩ := h₁.of_bind
    obtain ⟨hl, hu₂⟩ := hrej.of_reject
    obtain ⟨he, hw⟩ := hpure.of_pure
    subst hw hu₂ he
    refine ⟨rfl, hb.symm, ?_⟩
    rintro _ ⟨⟩
    exact not_lt.mp hl
  · obtain ⟨he, hw⟩ := h₁.of_pure
    subst hw he
    refine ⟨rfl, hb.symm, ?_⟩
    rintro _ ⟨⟩
  · exact h₁.not_fail.elim

theorem constraintMatchingBlockHeight_ends {height : BitVec 64}
    (h : Ends (constraintMatchingBlockHeight fs endNode) f v height w) :
    w = v ∧ height = expectedBlockHeight endNode ∧
      (sizedField fs .blockHeight 8).map (bits 64) = some (expectedBlockHeight endNode) := by
  obtain ⟨raw, u₁, hraw, h₁⟩ := h.of_bind
  obtain ⟨_, u₂, hrej, hpure⟩ := h₁.of_bind
  obtain ⟨hu₁, hfield⟩ := findSized_ends hraw
  obtain ⟨heq, hu₂⟩ := hrej.of_reject
  obtain ⟨hh, hw⟩ := hpure.of_pure
  subst hw hu₂ hu₁
  exact ⟨rfl, hh, by simp [hfield, not_not.mp heq]⟩

theorem constraintMatchingPrevUuid_ends {prev : Uuid}
    (h : Ends (constraintMatchingPrevUuid E fs endNode) f v prev w) :
    w = v ∧ prev = expectedPrevBlockId E endNode ∧
      (sizedField fs .previousBlockUuid 16).map (bits 128) =
        some (expectedPrevBlockId E endNode) := by
  obtain ⟨raw, u₁, hraw, h₁⟩ := h.of_bind
  obtain ⟨_, u₂, hrej, hpure⟩ := h₁.of_bind
  obtain ⟨hu₁, hfield⟩ := findSized_ends hraw
  obtain ⟨heq, hu₂⟩ := hrej.of_reject
  obtain ⟨hh, hw⟩ := hpure.of_pure
  subst hw hu₂ hu₁
  exact ⟨rfl, hh.trans (not_not.mp heq), by simp [hfield, not_not.mp heq]⟩

theorem constraintSaneBlockUuid_ends
    (h : Ends (constraintSaneBlockUuid E fs blockId) f v () w) :
    w = v ∧ (sizedField fs .blockUuid 16).map (bits 128) = some blockId ∧
      blockId ≠ E.rootBlock ∧ blockId ≠ zeroUuid ∧ blockId ≠ ffUuid := by
  obtain ⟨raw, u₁, hraw, h₁⟩ := h.of_bind
  obtain ⟨_, u₂, hrej₁, h₂⟩ := h₁.of_bind
  obtain ⟨_, u₃, hrej₂, h₃⟩ := h₂.of_bind
  obtain ⟨_, u₄, hrej₃, hrej₄⟩ := h₃.of_bind
  obtain ⟨hu₁, hfield⟩ := findSized_ends hraw
  obtain ⟨heq, hu₂⟩ := hrej₁.of_reject
  obtain ⟨hroot, hu₃⟩ := hrej₂.of_reject
  obtain ⟨hzero, hu₄⟩ := hrej₃.of_reject
  obtain ⟨hff, hw⟩ := hrej₄.of_reject
  subst hw hu₄ hu₃ hu₂ hu₁
  exact ⟨rfl, by simp [hfield, not_not.mp heq], hroot, hzero, hff⟩

theorem makeBlockGetFirstTransactionId_ends {cert : Bytes} {id : Uuid}
    (h : Ends (makeBlockGetFirstTransactionId E cert) f v id w) :
    w = v ∧ firstTransactionId E cert = some id := by
  obtain ⟨fs, u₁, hinit, h₁⟩ := h.of_bind
  obtain ⟨raw, u₂, hfin, hpure⟩ := h₁.of_bind
  obtain ⟨hu₁, hfs⟩ := parserInit_ends hinit
  obtain ⟨u₃, hraw, hnote⟩ := hfin.of_finally'
  obtain ⟨hu₃, hfield⟩ := findSized_ends hraw
  have hu₂ := hnote.of_note
  obtain ⟨hid, hw⟩ := hpure.of_pure
  subst hw hu₂ hu₃ hu₁ hid
  exact ⟨rfl, by simp [firstTransactionId, hfs, hfield]⟩

theorem blockMakeLink_ends {height : BitVec 64} {blk : Uuid → Option Bytes} {record : Bytes}
    (hfree : blk blockId = none) (hv : v.blockDb = Function.update blk blockId (some record))
    (h : Ends (blockMakeLink blockId height endNode) f v () w) :
    ∃ blk', w = { v with blockDb := blk' } ∧
      BlockLinked blockId height record endNode blk blk' := by
  cases endNode with
  | none =>
    obtain ⟨_, u₁, hstart, hend⟩ := h.of_bind
    obtain ⟨hu₁, -⟩ := putOrFail_ends hstart
    obtain ⟨hw, -⟩ := putOrFail_ends hend
    subst hw hu₁
    refine ⟨_, rfl, hfree, ?_⟩
    simp only [blockDb, hv]
  | some e =>
    obtain ⟨_, u₁, hprev, hend⟩ := h.of_bind
    obtain ⟨b, hb, hs₁, hs₂, hu₁⟩ := updatePrevNext_ends hprev
    obtain ⟨hw, -⟩ := putOrFail_ends hend
    subst hw hu₁
    have hb' : v.blockDb (DataBlockNode.decode e).prev = some b := hb
    rw [hv] at hb'
    refine ⟨_, rfl, hfree, b, hb', hs₁, hs₂, ?_⟩
    simp only [blockDb, hv]

theorem blockMakeBody_ends {blockData : Bytes}
    (h : Ends (blockMakeBody E fs blockId blockData) f v () w) :
    ∃ first rest firstId blk cs, fieldValues fs .wrappedTransactionTuple = first :: rest ∧
      firstTransactionId E first = some firstId ∧
      BlockInserted E fs blockId blockData v firstId blk ∧
      Canonized E (expectedBlockHeight (v.blockDb ffUuid)) blockId cs (withBlock blockId blk v) w ∧
      cs.map Prod.fst <+: first :: rest ∧ (FindWorks f → cs.map Prod.fst = first :: rest) := by
  obtain ⟨endNode, u₁, hend, h₁⟩ := h.of_bind
  obtain ⟨height, u₂, hheight, h₂⟩ := h₁.of_bind
  obtain ⟨prev, u₃, hprev, h₃⟩ := h₂.of_bind
  obtain ⟨_, u₄, hsane, h₄⟩ := h₃.of_bind
  obtain ⟨_, u₅, hfind, h₅⟩ := h₄.of_bind
  obtain ⟨hu₁, hend', hlen⟩ := queryEndNode_ends hend
  obtain ⟨hu₂, hheight', hheightField⟩ := constraintMatchingBlockHeight_ends hheight
  obtain ⟨hu₃, hprev', hprevField⟩ := constraintMatchingPrevUuid_ends hprev
  obtain ⟨hu₄, huuid, hres⟩ := constraintSaneBlockUuid_ends hsane
  have hu₅ := hfind.of_require
  subst hu₅ hu₄ hu₃ hu₂ hu₁
  have hchecked : BlockChecked E fs blockId endNode := ⟨hlen, hheightField, hprevField, huuid, hres⟩
  cases hw : fieldValues fs .wrappedTransactionTuple with
  | nil =>
    rw [hw] at h₅
    exact h₅.not_fail.elim
  | cons first rest =>
    rw [hw] at h₅
    obtain ⟨firstId, u₆, hfirst, h₆⟩ := h₅.of_bind
    obtain ⟨_, u₇, hins, h₇⟩ := h₆.of_bind
    obtain ⟨_, u₈, hlink, hchildren⟩ := h₇.of_bind
    obtain ⟨hu₆, hfirst'⟩ := makeBlockGetFirstTransactionId_ends hfirst
    obtain ⟨_, u₉, hm, hins₁⟩ := hins.of_bind
    obtain ⟨_, u₁₀, hput₁, hput₂⟩ := hins₁.of_bind
    have hu₉ := malloc_ends hm
    obtain ⟨hu₁₀, hfree⟩ := putOrFail_ends hput₁
    obtain ⟨hu₇, hhfree⟩ := putOrFail_ends hput₂
    subst hu₆ hu₉ hheight' hprev' hend'
    obtain ⟨blk, hu₈, hblk⟩ := blockMakeLink_ends (v := u₇) (hfree rfl)
      (by rw [hu₇, hu₁₀]; rfl) hlink
    obtain ⟨cs, hcs, hpre, hall⟩ := blockMakeProcessChildren_ends hchildren
    refine ⟨first, rest, firstId, blk, cs, rfl, hfirst', ⟨hchecked, ?_, hblk⟩, ?_, hpre, hall⟩
    · have := hhfree rfl
      rw [hu₁₀] at this
      exact this
    · rw [hu₈, hu₇, hu₁₀] at hcs
      exact hcs

end Blocks

structure SameChain (v w : Store) : Prop where
  block : w.blockDb = v.blockDb
  height : w.heightDb = v.heightDb
  txn : w.txnDb = v.txnDb
  artifact : w.artifactDb = v.artifactDb

def changesQueue : Request → Bool
  | .transactionSubmit _ _ _ => true
  | .transactionDrop _ => true
  | .transactionPromote _ => true
  | .blockMake _ _ => true
  | _ => false

/-- What a request other than `block_make` does to `pq.db`. -/
inductive QueueEffect (E : Env) (pq pq' : Uuid → Option Bytes) : Request → Prop
  | submit {txnId artifactId : Uuid} {txnBytes : Bytes}
      (h : Submitted E txnId artifactId txnBytes pq pq') :
      QueueEffect E pq pq' (.transactionSubmit txnId artifactId txnBytes)
  | drop {txnId : Uuid} (hz : txnId ≠ zeroUuid) (hf : txnId ≠ ffUuid) (h : Dropped txnId pq pq') :
      QueueEffect E pq pq' (.transactionDrop txnId)
  | promote {txnId : Uuid} (hz : txnId ≠ zeroUuid) (hf : txnId ≠ ffUuid)
      (h : Promoted txnId pq pq') : QueueEffect E pq pq' (.transactionPromote txnId)
  | other {r : Request} (hr : changesQueue r = false) (h : pq' = pq) : QueueEffect E pq pq' r

/-- Everything an effect can do. -/
theorem effect_queue_cases {E : Env} {f : FaultPattern} {v w : Store} {a : Reply} {r : Request}
    (h : r.Effect E f v a w) :
    (∃ blockId blockData fs, r = .blockMake blockId blockData ∧ E.fields blockData = some fs ∧
      Ends (blockMakeBody E fs blockId blockData) f v () w) ∨
    (SameChain v w ∧ QueueEffect E v.pqDb w.pqDb r) := by
  cases r with
  | blockMake blockId blockData =>
    obtain ⟨-, fs, hfs, hends⟩ := h
    exact Or.inl ⟨blockId, blockData, fs, rfl, hfs, hends⟩
  | transactionSubmit txnId artifactId txnBytes =>
    obtain ⟨-, hends⟩ := h
    obtain ⟨pq', rfl, hs⟩ := transactionSubmitBody_ends hends
    exact Or.inr ⟨⟨rfl, rfl, rfl, rfl⟩, .submit hs⟩
  | transactionDrop txnId =>
    obtain ⟨-, ⟨hz, hf⟩, hends⟩ := h
    obtain ⟨pq', rfl, hs⟩ := transactionDropBody_ends hends
    exact Or.inr ⟨⟨rfl, rfl, rfl, rfl⟩, .drop hz hf hs⟩
  | transactionPromote txnId =>
    obtain ⟨-, ⟨hz, hf⟩, hends⟩ := h
    obtain ⟨pq', rfl, hs⟩ := transactionPromoteBody_ends hends
    exact Or.inr ⟨⟨rfl, rfl, rfl, rfl⟩, .promote hz hf hs⟩
  | globalSettingsSet key buffer =>
    obtain ⟨-, hends⟩ := h
    obtain ⟨rfl, -⟩ := putOrFail_ends hends
    exact Or.inr ⟨⟨rfl, rfl, rfl, rfl⟩, .other rfl rfl⟩
  | globalSettingsGet key size =>
    obtain ⟨rfl, -⟩ := h
    exact Or.inr ⟨⟨rfl, rfl, rfl, rfl⟩, .other rfl rfl⟩
  | _ =>
    obtain ⟨rfl, -⟩ := h
    exact Or.inr ⟨⟨rfl, rfl, rfl, rfl⟩, .other rfl rfl⟩

theorem effect_cases {E : Env} {f : FaultPattern} {v w : Store} {a : Reply} {r : Request}
    (h : r.Effect E f v a w) :
    (∃ blockId blockData fs, r = .blockMake blockId blockData ∧ E.fields blockData = some fs ∧
      Ends (blockMakeBody E fs blockId blockData) f v () w) ∨
    ((∀ blockId blockData, r ≠ .blockMake blockId blockData) ∧ SameChain v w) := by
  rcases effect_queue_cases h with hmake | ⟨hsame, hqueue⟩
  · exact Or.inl hmake
  · refine Or.inr ⟨?_, hsame⟩
    rintro blockId blockData rfl
    cases hqueue with
    | other hr => cases hr

/-! ### Reads of blocks and artifacts -/

section ReadEnds

variable {f : FaultPattern} {v w : Store} {E : Env} {r : DataBlockNode × Bytes}

theorem blockGetNode_ends {nested skipCert : Bool} {g : MdbGet}
    (h : Ends (blockGetNode nested skipCert g) f v r w) :
    ∃ b, g = .found b ∧ r = (DataBlockNode.decode b, b.drop sizeofBlockNode) ∧
      r.2.length = r.1.netBlockCertSize.toNat := by
  cases g with
  | notFound => exact h.not_fail.elim
  | error => exact h.not_fail.elim
  | found b =>
    obtain ⟨_, u₁, -, h₁⟩ := h.of_bind
    obtain ⟨_, u₂, hsize, h₂⟩ := h₁.of_bind
    obtain ⟨_, u₃, -, h₃⟩ := h₂.of_bind
    obtain rfl := h₃.of_pure.1
    exact ⟨b, rfl, rfl, (List.length_drop ..).trans (not_not.mp hsize.of_reject.1)⟩

theorem blockGetBody_ends {nested : Bool} {blockId : Uuid}
    (h : Ends (blockGetBody E nested blockId) f v r w) :
    ∃ b, (v.blockDb blockId = some b ∨ (blockId = E.rootBlock ∧ v.blockDb zeroUuid = some b)) ∧
      r = (DataBlockNode.decode b, b.drop sizeofBlockNode) ∧
      r.2.length = r.1.netBlockCertSize.toNat := by
  obtain ⟨g, u₁, hget, h₁⟩ := h.of_bind
  obtain ⟨hu₁, hg⟩ := mdbGet_ends hget
  subst hu₁
  by_cases hroot : g = .notFound ∧ blockId = E.rootBlock
  · rw [if_pos hroot] at h₁
    obtain ⟨g₂, u₂, hget₂, h₂⟩ := h₁.of_bind
    obtain ⟨b, rfl, hr⟩ := blockGetNode_ends h₂
    rcases (mdbGet_ends hget₂).2 with ⟨b', heq, hb⟩ | ⟨heq, -⟩ | heq
    · cases heq
      exact ⟨b, Or.inr ⟨hroot.2, hb⟩, hr⟩
    · cases heq
    · cases heq
  · rw [if_neg hroot] at h₁
    obtain ⟨b, rfl, hr⟩ := blockGetNode_ends h₁
    rcases hg with ⟨b', heq, hb⟩ | ⟨heq, -⟩ | heq
    · cases heq
      exact ⟨b, Or.inl hb, hr⟩
    · cases heq
    · cases heq

theorem latestBlockIdGetBody_ends {id : Uuid} (h : Ends (latestBlockIdGetBody E) f v id w) :
    id = expectedPrevBlockId E (v.blockDb ffUuid) := by
  obtain ⟨g, u₁, hget, h₁⟩ := h.of_bind
  rcases (mdbGet_ends hget).2 with ⟨b, rfl, hb⟩ | ⟨rfl, hb⟩ | rfl
  · obtain ⟨_, u₂, -, h₂⟩ := h₁.of_bind
    rw [h₂.of_pure.1, show v.blockDb ffUuid = some b from hb]
    rfl
  · rw [h₁.of_pure.1, show v.blockDb ffUuid = none from hb]
    rfl
  · exact h₁.not_fail.elim

end ReadEnds

section ReadYields

variable {f : FaultPattern} {v : Store} {E : Env} {b : Bytes}

theorem blockGetNode_yields {skipCert : Bool} (ha : AllocWorks f)
    (hl : sizeofBlockNode < b.length ∨ (skipCert = true ∧ sizeofBlockNode ≤ b.length))
    (hs : b.length - sizeofBlockNode = (DataBlockNode.decode b).netBlockCertSize.toNat) :
    Yields (blockGetNode false skipCert (.found b)) f v
      (DataBlockNode.decode b, b.drop sizeofBlockNode) v := by
  have hlen : ¬ ((skipCert = false ∧ b.length ≤ sizeofBlockNode) ∨
      (skipCert = true ∧ b.length < sizeofBlockNode)) := by
    rcases hl with hl | ⟨hskip, hl⟩
    · omega
    · simp [hskip, hl]
  refine (Yields.reject hlen _ f v).bind ?_
  refine (Yields.reject (not_not.mpr hs) _ f v).bind ?_
  exact (malloc_yields ha).bind (Yields.pure _ f v)

theorem blockGetBody_yields {blockId : Uuid} (hf : LmdbWorks f) (ha : AllocWorks f)
    (hb : v.blockDb blockId = some b) (hl : sizeofBlockNode < b.length)
    (hs : b.length - sizeofBlockNode = (DataBlockNode.decode b).netBlockCertSize.toNat) :
    Yields (blockGetBody E false blockId) f v
      (DataBlockNode.decode b, b.drop sizeofBlockNode) v := by
  have hg := mdbGet_yields hf blockDb blockId v
  simp only [show blockDb.read v blockId = some b from hb] at hg
  refine hg.bind ?_
  rw [if_neg (by simp)]
  exact blockGetNode_yields ha (Or.inl hl) hs

/-- The root block uuid is not a key, so the start record is read in its place. -/
theorem blockGetBody_root_yields (hf : LmdbWorks f) (ha : AllocWorks f)
    (hroot : v.blockDb E.rootBlock = none) (hb : v.blockDb zeroUuid = some b)
    (hl : sizeofBlockNode ≤ b.length)
    (hs : b.length - sizeofBlockNode = (DataBlockNode.decode b).netBlockCertSize.toNat) :
    Yields (blockGetBody E false E.rootBlock) f v
      (DataBlockNode.decode b, b.drop sizeofBlockNode) v := by
  have hg := mdbGet_yields hf blockDb E.rootBlock v
  simp only [show blockDb.read v E.rootBlock = none from hroot] at hg
  refine hg.bind ?_
  rw [if_pos ⟨rfl, rfl⟩]
  have hz := mdbGet_yields hf blockDb zeroUuid v
  simp only [show blockDb.read v zeroUuid = some b from hb] at hz
  exact hz.bind (blockGetNode_yields ha (Or.inr ⟨rfl, hl⟩) hs)

theorem latestBlockIdGetBody_yields (hf : LmdbWorks f)
    (hl : ∀ e, v.blockDb ffUuid = some e → e.length = sizeofBlockNode) :
    Yields (latestBlockIdGetBody E) f v (expectedPrevBlockId E (v.blockDb ffUuid)) v := by
  have hg := mdbGet_yields hf blockDb ffUuid v
  cases he : v.blockDb ffUuid with
  | none =>
    simp only [show blockDb.read v ffUuid = none from he] at hg
    exact hg.bind (Yields.pure _ f v)
  | some e =>
    simp only [show blockDb.read v ffUuid = some e from he] at hg
    refine hg.bind ?_
    exact (Yields.reject (not_not.mpr (hl e he)) _ f v).bind (Yields.pure _ f v)

theorem blockIdByHeightGetBody_yields {height : BitVec 64} (hf : LmdbWorks f)
    (hb : v.heightDb height = some b) (hl : b.length = 16) :
    Yields (blockIdByHeightGetBody height) f v (bits 128 b) v := by
  refine (getOrFail_yields hf hb).bind ?_
  exact (Yields.reject (not_not.mpr hl) _ f v).bind (Yields.pure _ f v)

theorem artifactGetBody_yields {artifactId : Uuid} (hf : LmdbWorks f)
    (hb : v.artifactDb artifactId = some b) (hl : b.length = sizeofArtifactRecord) :
    Yields (artifactGetBody artifactId) f v (DataArtifactRecord.decode b) v := by
  refine (getOrFail_yields hf hb).bind ?_
  exact (Yields.reject (not_not.mpr hl) _ f v).bind (Yields.pure _ f v)

end ReadYields

end DataserviceEffects
