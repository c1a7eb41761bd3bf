import Agentd.DataserviceEffects
import Agentd.InvalidatedValues

/-! # What the write operations read through stale views

`mdb_get` hands out a pointer into the map, and the next `mdb_put` or `mdb_del` of the transaction
may move what it points to. The four operations that read and write are written here with the
pointers they keep: every use of a read value looks through its view at that moment. -/
namespace StaleViews

open ByteString
open CertificateFields
open FaultyTransactions
open DataserviceRecords
open DataserviceStore
open DataserviceQueue
open DataserviceBlocks
open DataserviceEffects
open DataserviceRequests
open InvalidatedValues
open ViewProg (plain writing seen look lookMaybe)

abbrev ViewOp (α : Type) := ViewProg Call AgentdError TxState Bytes α

/-- What becomes of invalidated memory: the bytes change, their number does not. -/
structure MemoryDrift where
  contents : Drift Bytes
  length_contents : ∀ r w b, (contents r w b).length = b.length

def surviving : MemoryDrift := ⟨stay Bytes, fun _ _ _ => rfl⟩

/-! ### Reads -/

def viewOrFail (db : Dbi Uuid) (k : Uuid) (missing error : AgentdError) : ViewOp (View Bytes) := do
  let b ← plain (getOrFail db k missing error)
  seen b

/-- The size is a copy in the `MDB_val`, only the bytes are behind the pointer. -/
def viewNodeOrFail (db : Dbi Uuid) (id : Uuid) (e : AgentdError) : ViewOp (View Bytes) := do
  let b ← plain (getNodeOrFail db id e)
  seen b

def viewMaybe (x : TxOp (Option Bytes)) : ViewOp (Option (View Bytes)) := do
  match ← plain x with
  | none => pure none
  | some b => do
    let v ← seen b
    pure (some v)

/-! ### Submit -/

/-- The key `prev` is a pointer that is followed for the read and again for the write. -/
def updatePrevNextThrough (db : Dbi Uuid) (header : ℕ) (certSize : Bytes → BitVec 64) (id : Uuid)
    (prev : ViewOp Uuid) : ViewOp Unit := do
  let readKey ← prev
  let prevNode ← viewOrFail db readKey .mdbGetFailure .mdbGetFailure
  let b ← look prevNode
  plain (Prog.inBounds (header ≤ b.length))
  plain malloc
  let copied ← look prevNode
  let node ← plain (copyRecord header (storedSize header (certSize b)) copied)
  let writeKey ← prev
  writing (putOrFail db writeKey (setNext node id) false)

/-- `end_node->prev` of either kind of record. -/
def followPrev (decodePrev : Bytes → Uuid) (endNode : View Bytes) : ViewOp Uuid := do
  let b ← look endNode
  pure (decodePrev b)

def submitUpdatePrev (txnId : Uuid) (endNode : View Bytes) : ViewOp Unit :=
  updatePrevNextThrough pqDb sizeofTransactionNode
    (fun b => (DataTransactionNode.decode b).netTxnCertSize) txnId
    (followPrev (fun b => (DataTransactionNode.decode b).prev) endNode)

def submitUpdateEnd (txnId : Uuid) (currEnd : View Bytes) : ViewOp Unit := do
  let b ← look currEnd
  writing (transactionSubmitUpdateEnd txnId b)

def submitLink (txnId : Uuid) : Option (View Bytes) → ViewOp Unit
  | none => writing (transactionSubmitCreateQueue txnId)
  | some endNode => do
    submitUpdatePrev txnId endNode
    submitUpdateEnd txnId endNode

def submitBody (E : Env) (txnId artifactId : Uuid) (txnBytes : Bytes) : ViewOp Unit := do
  let endNode ← viewMaybe transactionSubmitQueryEnd
  plain malloc
  let endBytes ← lookMaybe endNode
  let newnode := transactionSubmitNewnode E txnId artifactId txnBytes endBytes
  writing (putOrFail pqDb newnode.key (newnode.encode ++ txnBytes) true)
  submitLink txnId endNode

/-! ### Drop and promote -/

/-- `node` is a copy that was made before the entry was deleted. -/
def dropFixupPrevNext (node : DataTransactionNode) : ViewOp Unit := do
  let prev ← viewNodeOrFail pqDb node.prev .mdbGetFailure
  plain malloc
  let prevBuffer ← look prev
  writing (putOrFail pqDb node.prev (setNext prevBuffer node.next) false)
  let next ← viewNodeOrFail pqDb node.next .mdbGetFailure
  plain malloc
  let nextBuffer ← look next
  writing (putOrFail pqDb node.next (setPrev nextBuffer node.prev) false)

def dropBody (txnId : Uuid) : ViewOp Unit := do
  let entry ← viewNodeOrFail pqDb txnId .notFound
  let b ← look entry
  match ← writing (mdbDel pqDb txnId) with
  | .notFound => plain (Prog.fail .notFound)
  | .error => plain (Prog.fail .mdbDelFailure)
  | .ok => dropFixupPrevNext (DataTransactionNode.decode b)

def dropNested (txnId : Uuid) : ViewOp Unit := do
  plain (rejectSentinels txnId)
  dropBody txnId

def promoteBody (txnId : Uuid) : ViewOp Unit := do
  let entry ← viewNodeOrFail pqDb txnId .notFound
  plain malloc
  let newBuffer ← look entry
  writing (putOrFail pqDb txnId (setTxnState newBuffer TransactionNodeState.attested.code) false)

/-! ### Block make -/

def makeUpdatePrev (blockId : Uuid) (endNode : View Bytes) : ViewOp Unit :=
  updatePrevNextThrough blockDb sizeofBlockNode
    (fun b => (DataBlockNode.decode b).netBlockCertSize) blockId
    (followPrev (fun b => (DataBlockNode.decode b).prev) endNode)

def makeUpdateEnd (blockId : Uuid) (height : BitVec 64) (currEnd : View Bytes) : ViewOp Unit := do
  let b ← look currEnd
  writing (blockMakeUpdateEnd blockId height b)

def makeLink (blockId : Uuid) (height : BitVec 64) : Option (View Bytes) → ViewOp Unit
  | none => writing (blockMakeCreateQueue blockId height)
  | some endNode => do
    makeUpdatePrev blockId endNode
    makeUpdateEnd blockId height endNode

def makeUpdatePrevTxn (txnId nextTxnId : Uuid) : ViewOp Unit := do
  let prev ← viewNodeOrFail txnDb txnId .mdbGetFailure
  plain malloc
  let node ← look prev
  writing (putOrFail txnDb txnId (setNext node nextTxnId) false)

def makeLinkPrevTxn (c : ChildFields) : ViewOp Unit :=
  if c.prevTransactionId = zeroUuid then pure ()
  else makeUpdatePrevTxn c.prevTransactionId c.transactionId

/-- The record is copied to the stack before it is changed. -/
def makeUpdateArtifact (artifactId transactionId : Uuid) (height : BitVec 64) (state : BitVec 32) :
    ViewOp Unit := do
  match ← plain (mdbGet artifactDb artifactId) with
  | .notFound =>
    let record : DataArtifactRecord :=
      ⟨artifactId, transactionId, transactionId, height, height, state⟩
    writing (putOrFail artifactDb record.key record.encode true)
  | .found b => do
    let stored ← seen b
    plain (Prog.reject (b.length ≠ sizeofArtifactRecord) .invalidArtifactNodeSize)
    let copied ← look stored
    let record := setArtifactLatest copied transactionId height state
    writing (putOrFail artifactDb (DataArtifactRecord.decode record).key record false)
  | .error => plain (Prog.fail .mdbGetFailure)

def makeCanonizeChild (height : BitVec 64) (blockId : Uuid) (txnCert : Bytes) (c : ChildFields) :
    ViewOp Unit := do
  plain malloc
  let node := canonizedNode blockId txnCert c
  writing (putOrFail txnDb c.transactionId (node.encode ++ txnCert) true)
  dropNested c.transactionId
  makeLinkPrevTxn c
  makeUpdateArtifact c.artifactId c.transactionId height c.state

def makeProcessChild (E : Env) (height : BitVec 64) (blockId : Uuid) (txnCert : Bytes) :
    ViewOp Unit := do
  let fs ← plain (parserInit E txnCert)
  ViewProg.finally' (do
    let c ← plain (blockMakeChildFields fs)
    makeCanonizeChild height blockId txnCert c) (Prog.note (.disposed .parser))

def makeProcessChildren (E : Env) (height : BitVec 64) (blockId : Uuid) :
    Bytes → List Bytes → ViewOp Unit
  | cert, [] => makeProcessChild E height blockId cert
  | cert, next :: rest => do
    makeProcessChild E height blockId cert
    if ← plain (Prog.attempt .find) then makeProcessChildren E height blockId next rest
    else pure ()

/-- The height and the previous block id are copies, or point into the certificate. -/
def makeBody (E : Env) (fs : List (CertField × Bytes)) (blockId : Uuid) (blockData : Bytes) :
    ViewOp Unit := do
  let endNode ← viewMaybe queryEndNode
  let heightEnd ← lookMaybe endNode
  let height ← plain (constraintMatchingBlockHeight fs heightEnd)
  let prevEnd ← lookMaybe endNode
  let blockPrevUuid ← plain (constraintMatchingPrevUuid E fs prevEnd)
  plain (constraintSaneBlockUuid E fs blockId)
  plain (Prog.require .find .noChildTransactions)
  match fieldValues fs .wrappedTransactionTuple with
  | [] => plain (Prog.fail .noChildTransactions)
  | first :: rest => do
    let firstChildTxnId ← plain (makeBlockGetFirstTransactionId E first)
    writing (makeBlockInsertBlock blockId blockPrevUuid firstChildTxnId height blockData)
    makeLink blockId height endNode
    makeProcessChildren E height blockId first rest

/-- `dataservice_block_make` around the work in its transaction. -/
def blockMakeAround (E : Env) (childcaps : Bitcap) (blockData : Bytes)
    (body : List (CertField × Bytes) → TxOp Unit) : Op Unit := do
  authorize childcaps .appBlockWrite
  Prog.require .suiteInit .vccryptSuiteOptionsInitFailure
  Prog.note (.acquired .cryptoSuite)
  Prog.finally' (do
    Prog.require .parserOptionsInit .vccertParserOptionsInitFailure
    Prog.note (.acquired .parserOptions)
    let fs ← blockMakeParserInit E blockData
    mdbTxnBegin.onFail (Prog.note (.disposed .parser))
    (abortOrCommit (body fs)).finally' (do
      Prog.note (.disposed .parserOptions)
      Prog.note (.disposed .parser))) (Prog.note (.disposed .cryptoSuite))

/-! ### Requests -/

inductive WriteRequest where
  | submit (txnId artifactId : Uuid) (txnBytes : Bytes)
  | drop (txnId : Uuid)
  | promote (txnId : Uuid)
  | blockMake (blockId : Uuid) (blockData : Bytes)
  deriving DecidableEq

def WriteRequest.run (E : Env) (caps : Bitcap) (d : MemoryDrift) : WriteRequest → Op Unit
  | .submit txnId artifactId txnBytes => do
    authorize caps .appPqTransactionSubmit
    inOwnTxn ((submitBody E txnId artifactId txnBytes).exec d.contents)
  | .drop txnId => do
    authorize caps .appPqTransactionDrop
    rejectSentinels txnId
    inTxnOrParent ((dropBody txnId).exec d.contents)
  | .promote txnId => do
    authorize caps .appPqTransactionPromote
    rejectSentinels txnId
    inTxnOrParent ((promoteBody txnId).exec d.contents)
  | .blockMake blockId blockData =>
    blockMakeAround E caps blockData fun fs => (makeBody E fs blockId blockData).exec d.contents

def WriteRequest.valueRun (E : Env) (caps : Bitcap) : WriteRequest → Op Unit
  | .submit txnId artifactId txnBytes => transactionSubmit E caps txnId artifactId txnBytes
  | .drop txnId => transactionDrop caps txnId
  | .promote txnId => transactionPromote caps txnId
  | .blockMake blockId blockData => DataserviceBlocks.blockMake E caps blockId blockData

def WriteRequest.request : WriteRequest → Request
  | .submit txnId artifactId txnBytes => .transactionSubmit txnId artifactId txnBytes
  | .drop txnId => .transactionDrop txnId
  | .promote txnId => .transactionPromote txnId
  | .blockMake blockId blockData => .blockMake blockId blockData

/-! ### Where nothing stale is read

The operations that copy before they write agree with the ones over values under every drift. -/

section Mirrored

variable {d : Drift Bytes} {f : FaultPattern} {w : ℕ} {s : TxState}

abbrev Alike {α : Type} : α → ℕ → α → TxState → Prop := fun a _ b _ => a = b

theorem putOrFail_mirrors {K : Type} (db : Dbi K) (k : K) (v : Bytes) (no : Bool) :
    Mirrors d f w s (writing (putOrFail db k v no)) (putOrFail db k v no) Alike :=
  (Mirrors.writing _).mono fun _ _ _ _ h => h.1

theorem dropFixupPrevNext_mirrors (node : DataTransactionNode) :
    Mirrors d f w s (dropFixupPrevNext node) (transactionDropFixupPrevNext node) Alike := by
  refine Mirrors.view_bind fun prev t _ => ?_
  refine Mirrors.plain_bind fun _ t _ => ?_
  refine Mirrors.look_bind ?_
  rw [View.now_fresh]
  refine Mirrors.writing_bind fun _ t _ => ?_
  refine Mirrors.view_bind fun next t _ => ?_
  refine Mirrors.plain_bind fun _ t _ => ?_
  refine Mirrors.look_bind ?_
  rw [View.now_fresh]
  exact putOrFail_mirrors _ _ _ _

theorem dropBody_mirrors (txnId : Uuid) :
    Mirrors d f w s (dropBody txnId) (transactionDropBody txnId) Alike := by
  refine Mirrors.view_bind fun b t _ => ?_
  refine Mirrors.look_bind ?_
  rw [View.now_fresh]
  refine Mirrors.writing_bind fun r t _ => ?_
  cases r with
  | notFound => exact Mirrors.fail
  | error => exact Mirrors.fail
  | ok => exact dropFixupPrevNext_mirrors _

theorem dropNested_mirrors (txnId : Uuid) :
    Mirrors d f w s (dropNested txnId) (transactionDropNested txnId) Alike :=
  Mirrors.plain_bind fun _ _ _ => dropBody_mirrors txnId

theorem promoteBody_mirrors (txnId : Uuid) :
    Mirrors d f w s (promoteBody txnId) (transactionPromoteBody txnId) Alike := by
  refine Mirrors.view_bind fun b t _ => ?_
  refine Mirrors.plain_bind fun _ t _ => ?_
  refine Mirrors.look_bind ?_
  rw [View.now_fresh]
  exact putOrFail_mirrors _ _ _ _

theorem makeLinkPrevTxn_mirrors (c : ChildFields) :
    Mirrors d f w s (makeLinkPrevTxn c) (blockMakeLinkPrevTxn c) Alike := by
  unfold makeLinkPrevTxn blockMakeLinkPrevTxn
  by_cases hc : c.prevTransactionId = zeroUuid
  · rw [if_pos hc, if_pos hc]
    exact Mirrors.pure rfl
  · rw [if_neg hc, if_neg hc]
    refine Mirrors.view_bind fun b t _ => ?_
    refine Mirrors.plain_bind fun _ t _ => ?_
    refine Mirrors.look_bind ?_
    rw [View.now_fresh]
    exact putOrFail_mirrors _ _ _ _

theorem makeUpdateArtifact_mirrors (artifactId transactionId : Uuid) (height : BitVec 64)
    (state : BitVec 32) : Mirrors d f w s (makeUpdateArtifact artifactId transactionId height state)
      (blockMakeUpdateArtifact artifactId transactionId height state) Alike := by
  refine Mirrors.plain_bind fun r t _ => ?_
  cases r with
  | notFound => exact putOrFail_mirrors _ _ _ _
  | error => exact Mirrors.fail
  | found b =>
    refine Mirrors.seen_bind ?_
    refine Mirrors.plain_bind fun _ t _ => ?_
    refine Mirrors.look_bind ?_
    rw [View.now_fresh]
    exact putOrFail_mirrors _ _ _ _

theorem makeCanonizeChild_mirrors (height : BitVec 64) (blockId : Uuid) (txnCert : Bytes)
    (c : ChildFields) : Mirrors d f w s (makeCanonizeChild height blockId txnCert c)
      (blockMakeCanonizeChild height blockId txnCert c) Alike := by
  refine Mirrors.plain_bind fun _ t _ => ?_
  refine Mirrors.writing_bind fun _ t _ => ?_
  refine (dropNested_mirrors c.transactionId).bind ?_
  rintro _ w' _ t -
  refine (makeLinkPrevTxn_mirrors c).bind ?_
  rintro _ w' _ t -
  exact makeUpdateArtifact_mirrors _ _ _ _

theorem makeProcessChild_mirrors (E : Env) (height : BitVec 64) (blockId : Uuid) (cert : Bytes) :
    Mirrors d f w s (makeProcessChild E height blockId cert)
      (blockMakeProcessChild E height blockId cert) Alike := by
  refine Mirrors.plain_bind fun fs t _ => ?_
  refine Mirrors.finally' ?_ fun _ _ _ _ _ h => h
  exact Mirrors.plain_bind fun c t _ => makeCanonizeChild_mirrors height blockId cert c

theorem makeProcessChildren_mirrors (E : Env) (height : BitVec 64) (blockId : Uuid) (cert : Bytes)
    (rest : List Bytes) : Mirrors d f w s (makeProcessChildren E height blockId cert rest)
      (blockMakeProcessChildren E height blockId cert rest) Alike := by
  induction rest generalizing cert w s with
  | nil => exact makeProcessChild_mirrors E height blockId cert
  | cons next rest ih =>
    refine (makeProcessChild_mirrors E height blockId cert).bind ?_
    rintro _ w' _ t -
    refine Mirrors.plain_bind fun found t _ => ?_
    cases found with
    | true => exact ih next
    | false => exact Mirrors.pure rfl

end Mirrored

/-! ### Where the end record is used after a write -/

/-- A submit that gets to link its entry behind the last one. -/
def SubmitRelinks (txnId : Uuid) (v : Store) : Prop :=
  (∃ e, v.pqDb ffUuid = some e ∧ sizeofTransactionNode ≤ e.length) ∧ v.pqDb txnId = none

structure MakeRelinks (E : Env) (fs : List (CertField × Bytes)) (blockId : Uuid) (v : Store) :
    Prop where
  initialized : (v.blockDb ffUuid).isSome
  checked : BlockChecked E fs blockId (v.blockDb ffUuid)
  wrapped : ∃ first rest, fieldValues fs .wrappedTransactionTuple = first :: rest ∧
    (firstTransactionId E first).isSome
  block_free : v.blockDb blockId = none
  height_free : v.heightDb (expectedBlockHeight (v.blockDb ffUuid)) = none

/-- The request comes to relink the list whose end record it read before its first write. -/
def WriteRequest.Relinks (E : Env) (caps : Bitcap) (v : Store) : WriteRequest → Prop
  | .submit txnId _ _ => bitcapIsset caps .appPqTransactionSubmit = true ∧ SubmitRelinks txnId v
  | .drop _ => False
  | .promote _ => False
  | .blockMake blockId blockData => bitcapIsset caps .appBlockWrite = true ∧
      ∃ fs, E.fields blockData = some fs ∧ MakeRelinks E fs blockId v

section Relinking

variable {d : Drift Bytes} {f : FaultPattern} {w : ℕ} {s : TxState}

theorem viewMaybe_bind {α β : Type} {x : TxOp (Option Bytes)} {g : Option (View Bytes) → ViewOp α}
    {k : Option Bytes → TxOp β} {T : α → ℕ → β → TxState → Prop}
    (hg : ∀ r t, x.run f s = .ok r t →
      Mirrors d f w t (g (r.map fun b => ⟨b, w⟩)) (k r) T) :
    Mirrors d f w s (viewMaybe x >>= g) (x >>= k) T := by
  have hread : Mirrors d f w s (viewMaybe x) x
      fun v w' r t => v = r.map (fun b => ⟨b, w⟩) ∧ w' = w ∧ x.run f s = .ok r t := by
    cases hx : x.run f s with
    | stop e t =>
      refine Or.inl ⟨e, t, ?_, hx⟩
      exact Prog.run_bind_stop _ (Prog.run_bind_stop _ hx)
    | ok r t =>
      refine Or.inr ⟨r.map fun b => ⟨b, w⟩, w, r, t, ?_, hx, rfl, rfl, rfl⟩
      have hp : ((plain x : ViewOp (Option Bytes)).run d w).run f s = .ok (r, w) t :=
        Prog.run_bind_ok _ hx
      unfold viewMaybe
      rw [ViewProg.run_bind, Prog.run_bind_ok _ hp]
      cases r with
      | none => rfl
      | some b => rfl
  refine hread.bind ?_
  rintro v w' r t ⟨rfl, rfl, hx⟩
  exact hg r t hx

theorem followPrev_bind {α β : Type} {decodePrev : Bytes → Uuid} {v : View Bytes}
    {g : Uuid → ViewOp α} {y : TxOp β} {T : α → ℕ → β → TxState → Prop}
    (hg : Mirrors d f w s (g (decodePrev (v.now d w))) y T) :
    Mirrors d f w s (followPrev decodePrev v >>= g) y T := hg

/-- Without a drift the pointer leads to the same key before and after a write. -/
theorem updatePrevNextThrough_mirrors (db : Dbi Uuid) (header : ℕ) (certSize : Bytes → BitVec 64)
    (id : Uuid) (decodePrev : Bytes → Uuid) (endNode : View Bytes) :
    Mirrors (stay Bytes) f w s
      (updatePrevNextThrough db header certSize id (followPrev decodePrev endNode))
      (updatePrevNext db header certSize id (decodePrev endNode.value)) Alike := by
  refine followPrev_bind ?_
  rw [View.now_stay]
  refine Mirrors.view_bind fun b t _ => ?_
  refine Mirrors.look_bind ?_
  rw [View.now_fresh]
  refine Mirrors.plain_bind fun _ t _ => ?_
  refine Mirrors.plain_bind fun _ t _ => ?_
  refine Mirrors.look_bind ?_
  rw [View.now_fresh]
  refine Mirrors.plain_bind fun node t _ => ?_
  refine followPrev_bind ?_
  rw [View.now_stay]
  exact putOrFail_mirrors _ _ _ _

theorem submitBody_mirrors (E : Env) {txnId : Uuid} (artifactId : Uuid) (txnBytes : Bytes)
    (h : d = stay Bytes ∨ ¬ SubmitRelinks txnId s.view) :
    Mirrors d f w s (submitBody E txnId artifactId txnBytes)
      (transactionSubmitBody E txnId artifactId txnBytes) Alike := by
  refine viewMaybe_bind fun endNode t hq => ?_
  have hend := transactionSubmitQueryEnd_ends (v := s.view) ⟨s.meter, t.meter, hq⟩
  refine Mirrors.plain_bind fun _ t' hm => ?_
  have hview := malloc_ends (v := t.view) ⟨t.meter, t'.meter, hm⟩
  refine Mirrors.lookMaybe_bind ?_
  cases endNode with
  | none =>
    refine Mirrors.writing_bind fun _ t'' _ => ?_
    exact (Mirrors.writing _).mono fun _ _ _ _ h => h.1
  | some e =>
    simp only [Option.map_some, View.now_fresh]
    refine Mirrors.writing_bind fun _ t'' hput => ?_
    have hfree := (putOrFail_ends (v := t'.view) ⟨t'.meter, t''.meter, hput⟩).2 rfl
    rw [hview, hend.1] at hfree
    have hrelinks : SubmitRelinks txnId s.view :=
      ⟨⟨e, hend.2.1.symm, hend.2.2 e rfl⟩, hfree⟩
    obtain rfl : d = stay Bytes := h.resolve_right fun hn => hn hrelinks
    refine (updatePrevNextThrough_mirrors _ _ _ _ _ _).bind ?_
    rintro _ w' _ t -
    refine Mirrors.look_bind ?_
    rw [View.now_stay]
    exact (Mirrors.writing _).mono fun _ _ _ _ h => h.1

/-- The end record is looked at again before the first write. -/
theorem now_viewed (r : Option Bytes) :
    (r.map fun b => (⟨b, w⟩ : View Bytes)).map (fun v => v.now d w) = r := by
  cases r with
  | none => rfl
  | some b => simp

theorem makeLink_mirrors (blockId : Uuid) (height : BitVec 64) {endNode : Option Bytes} {r : ℕ}
    (h : d = stay Bytes ∨ endNode = none) :
    Mirrors d f w s (makeLink blockId height (endNode.map fun b => ⟨b, r⟩))
      (blockMakeLink blockId height endNode) Alike := by
  cases endNode with
  | none => exact (Mirrors.writing _).mono fun _ _ _ _ h => h.1
  | some e =>
    obtain rfl : d = stay Bytes := h.resolve_right (by simp)
    refine (updatePrevNextThrough_mirrors _ _ _ _ _ _).bind ?_
    rintro _ w' _ t -
    refine Mirrors.look_bind ?_
    rw [View.now_stay]
    exact (Mirrors.writing _).mono fun _ _ _ _ h => h.1

theorem makeBlockInsertBlock_ends {v u : Store} {blockId prev firstId : Uuid} {height : BitVec 64}
    {blockData : Bytes}
    (h : Ends (makeBlockInsertBlock blockId prev firstId height blockData) f v () u) :
    v.blockDb blockId = none ∧ v.heightDb height = none := by
  obtain ⟨_, u₁, hm, h₁⟩ := h.of_bind
  obtain ⟨_, u₂, hput₁, hput₂⟩ := h₁.of_bind
  have hu₁ := malloc_ends hm
  obtain ⟨hu₂, hfree⟩ := putOrFail_ends hput₁
  obtain ⟨-, hhfree⟩ := putOrFail_ends hput₂
  subst hu₂ hu₁
  exact ⟨hfree rfl, hhfree rfl⟩

theorem makeBody_mirrors (E : Env) (fs : List (CertField × Bytes)) {blockId : Uuid}
    (blockData : Bytes) (h : d = stay Bytes ∨ ¬ MakeRelinks E fs blockId s.view) :
    Mirrors d f w s (makeBody E fs blockId blockData) (blockMakeBody E fs blockId blockData)
      Alike := by
  refine viewMaybe_bind fun endNode t₁ hq => ?_
  obtain ⟨hv₁, hend, hlen⟩ := queryEndNode_ends (v := s.view) ⟨s.meter, t₁.meter, hq⟩
  refine Mirrors.lookMaybe_bind ?_
  rw [now_viewed]
  refine Mirrors.plain_bind fun height t₂ hh => ?_
  obtain ⟨hv₂, hheight, hheightField⟩ :=
    constraintMatchingBlockHeight_ends (v := t₁.view) ⟨t₁.meter, t₂.meter, hh⟩
  refine Mirrors.lookMaybe_bind ?_
  rw [now_viewed]
  refine Mirrors.plain_bind fun prev t₃ hp => ?_
  obtain ⟨hv₃, -, hprevField⟩ :=
    constraintMatchingPrevUuid_ends (v := t₂.view) ⟨t₂.meter, t₃.meter, hp⟩
  refine Mirrors.plain_bind fun _ t₄ hs => ?_
  obtain ⟨hv₄, huuid, hres⟩ := constraintSaneBlockUuid_ends (v := t₃.view) ⟨t₃.meter, t₄.meter, hs⟩
  refine Mirrors.plain_bind fun _ t₅ hfind => ?_
  have hv₅ : t₅.view = t₄.view := Ends.of_require ⟨t₄.meter, t₅.meter, hfind⟩
  have hchecked : BlockChecked E fs blockId endNode := ⟨hlen, hheightField, hprevField, huuid, hres⟩
  cases hw : fieldValues fs .wrappedTransactionTuple with
  | nil => exact Mirrors.fail
  | cons first rest =>
    refine Mirrors.plain_bind fun firstId t₆ hfirst => ?_
    obtain ⟨hv₆, hfirst'⟩ :=
      makeBlockGetFirstTransactionId_ends (v := t₅.view) ⟨t₅.meter, t₆.meter, hfirst⟩
    refine Mirrors.writing_bind fun _ t₇ hins => ?_
    obtain ⟨hfree, hhfree⟩ :=
      makeBlockInsertBlock_ends (v := t₆.view) ⟨t₆.meter, t₇.meter, hins⟩
    rw [hv₆, hv₅, hv₄, hv₃, hv₂, hv₁] at hfree hhfree
    have hlink : d = stay Bytes ∨ endNode = none := by
      rcases h with hd | hn
      · exact Or.inl hd
      · refine Or.inr (Option.not_isSome_iff_eq_none.mp fun hsome => hn ?_)
        rw [hheight, hend] at hhfree
        rw [hend] at hchecked hsome
        exact ⟨hsome, hchecked, ⟨first, rest, hw, by rw [hfirst']; rfl⟩, hfree, hhfree⟩
    refine (makeLink_mirrors blockId height hlink).bind ?_
    rintro _ w' _ t -
    exact makeProcessChildren_mirrors E height blockId first rest

end Relinking

end StaleViews
