import Agentd.DataserviceQueue

/-! # Making and reading blocks

`dataservice_block_make` checks the block certificate against the end record of `block.db`,
inserts the block, and then canonizes each wrapped transaction in certificate order: it enters
`txn.db`, leaves the process queue, is linked to its predecessor and updates its artifact. -/
namespace DataserviceBlocks

open ByteString
open CertificateFields
open FaultyTransactions
open DataserviceRecords
open DataserviceStore
open DataserviceQueue

/-! ### The block chain -/

def queryEndNode : TxOp (Option Bytes) := do
  match ← mdbGet blockDb ffUuid with
  | .notFound => pure none
  | .found b => do
    Prog.reject (b.length < sizeofBlockNode) .invalidStoredBlockNode
    pure (some b)
  | .error => Prog.fail .mdbGetFailure

/-- One more than the height of the end record, in 64 bits. -/
def expectedBlockHeight : Option Bytes → BitVec 64
  | some e => 1 + (DataBlockNode.decode e).netBlockHeight
  | none => 1

def expectedPrevBlockId (E : Env) : Option Bytes → Uuid
  | some e => (DataBlockNode.decode e).prev
  | none => E.rootBlock

def constraintMatchingBlockHeight (fs : List (CertField × Bytes)) (endNode : Option Bytes) :
    TxOp (BitVec 64) := do
  let raw ← findSized fs .blockHeight 8 .missingBlockHeight
  Prog.reject (bits 64 raw ≠ expectedBlockHeight endNode) .invalidBlockHeight
  pure (expectedBlockHeight endNode)

def constraintMatchingPrevUuid (E : Env) (fs : List (CertField × Bytes))
    (endNode : Option Bytes) : TxOp Uuid := do
  let raw ← findSized fs .previousBlockUuid 16 .missingPreviousBlockUuid
  Prog.reject (bits 128 raw ≠ expectedPrevBlockId E endNode) .invalidPreviousBlockUuid
  pure (bits 128 raw)

def constraintSaneBlockUuid (E : Env) (fs : List (CertField × Bytes)) (blockId : Uuid) :
    TxOp Unit := do
  let raw ← findSized fs .blockUuid 16 .missingBlockUuid
  Prog.reject (blockId ≠ bits 128 raw) .invalidBlockUuid
  Prog.reject (blockId = E.rootBlock) .invalidBlockUuid
  Prog.reject (blockId = zeroUuid) .invalidBlockUuid
  Prog.reject (blockId = ffUuid) .invalidBlockUuid

def makeBlockGetFirstTransactionId (E : Env) (txnCert : Bytes) : TxOp Uuid := do
  let fs ← parserInit E txnCert
  let raw ← (findSized fs .certificateId 16 .missingChildTransactionUuid).finally'
    (Prog.note (.disposed .parser))
  pure (bits 128 raw)

def makeBlockInsertBlock (blockId blockPrevId firstChildTxnId : Uuid) (blockHeight : BitVec 64)
    (blockData : Bytes) : TxOp Unit := do
  malloc
  let blocknode : DataBlockNode := ⟨blockId, blockPrevId, ffUuid, firstChildTxnId, blockHeight,
    BitVec.ofNat 64 blockData.length⟩
  putOrFail blockDb blocknode.key (blocknode.encode ++ blockData) true
  putOrFail heightDb blocknode.netBlockHeight (be 16 blocknode.key) true

def blockMakeCreateQueue (blockId : Uuid) (height : BitVec 64) : TxOp Unit := do
  let start : DataBlockNode := ⟨zeroUuid, zeroUuid, blockId, zeroUuid, 0, 0⟩
  let end_ : DataBlockNode := ⟨ffUuid, blockId, ffUuid, zeroUuid, height, 0⟩
  putOrFail blockDb start.key start.encode false
  putOrFail blockDb end_.key end_.encode false

def blockMakeUpdatePrev (blockId prev : Uuid) : TxOp Unit :=
  updatePrevNext blockDb sizeofBlockNode (fun b => (DataBlockNode.decode b).netBlockCertSize)
    blockId prev

def blockMakeUpdateEnd (blockId : Uuid) (height : BitVec 64) (currEnd : Bytes) : TxOp Unit := do
  let end_ := setBlockHeight (setPrev (currEnd.take sizeofBlockNode) blockId) height
  putOrFail blockDb (DataBlockNode.decode end_).key end_ false

/-! ### Wrapped transactions -/

def blockMakeUpdatePrevTxn (txnId nextTxnId : Uuid) : TxOp Unit := do
  let b ← getNodeOrFail txnDb txnId .mdbGetFailure
  malloc
  putOrFail txnDb txnId (setNext b nextTxnId) false

def blockMakeUpdateArtifact (artifactId transactionId : Uuid) (height : BitVec 64)
    (state : BitVec 32) : TxOp Unit := do
  match ← mdbGet artifactDb artifactId with
  | .notFound =>
    let record : DataArtifactRecord :=
      ⟨artifactId, transactionId, transactionId, height, height, state⟩
    putOrFail artifactDb record.key record.encode true
  | .found b =>
    Prog.reject (b.length ≠ sizeofArtifactRecord) .invalidArtifactNodeSize
    let record := setArtifactLatest b transactionId height state
    putOrFail artifactDb (DataArtifactRecord.decode record).key record false
  | .error => Prog.fail .mdbGetFailure

structure ChildFields where
  transactionId : Uuid
  prevTransactionId : Uuid
  artifactId : Uuid
  state : BitVec 32
  deriving DecidableEq, Repr

def blockMakeChildFields (fs : List (CertField × Bytes)) : TxOp ChildFields := do
  let id ← findSized fs .certificateId 16 .missingChildTransactionUuid
  let prev ← findSized fs .previousCertificateId 16 .missingChildPreviousTransactionUuid
  let artifact ← findSized fs .artifactId 16 .missingChildArtifactUuid
  let state ← findSized fs .newArtifactState 4 .missingChildState
  pure ⟨bits 128 id, bits 128 prev, bits 128 artifact, bits 32 state⟩

def canonizedNode (blockId : Uuid) (txnCert : Bytes) (c : ChildFields) : DataTransactionNode where
  key := c.transactionId
  prev := c.prevTransactionId
  next := ffUuid
  artifactId := c.artifactId
  blockId := blockId
  netTxnCertSize := BitVec.ofNat 64 txnCert.length
  netTxnState := TransactionNodeState.canonized.code

/-- A transaction without a previous one has no record to link to. -/
def blockMakeLinkPrevTxn (c : ChildFields) : TxOp Unit :=
  if c.prevTransactionId = zeroUuid then pure ()
  else blockMakeUpdatePrevTxn c.prevTransactionId c.transactionId

def blockMakeCanonizeChild (height : BitVec 64) (blockId : Uuid) (txnCert : Bytes)
    (c : ChildFields) : TxOp Unit := do
  malloc
  putOrFail txnDb c.transactionId ((canonizedNode blockId txnCert c).encode ++ txnCert) true
  transactionDropNested c.transactionId
  blockMakeLinkPrevTxn c
  blockMakeUpdateArtifact c.artifactId c.transactionId height c.state

def blockMakeProcessChild (E : Env) (height : BitVec 64) (blockId : Uuid) (txnCert : Bytes) :
    TxOp Unit := do
  let fs ← parserInit E txnCert
  Prog.finally' (do
    let c ← blockMakeChildFields fs
    blockMakeCanonizeChild height blockId txnCert c) (Prog.note (.disposed .parser))

/-- The loop over the wrapped transactions; it ends where the parser finds no further one. -/
def blockMakeProcessChildren (E : Env) (height : BitVec 64) (blockId : Uuid) :
    Bytes → List Bytes → TxOp Unit
  | cert, [] => blockMakeProcessChild E height blockId cert
  | cert, next :: rest => do
    blockMakeProcessChild E height blockId cert
    if ← Prog.attempt .find then blockMakeProcessChildren E height blockId next rest
    else pure ()

/-! ### Block make -/

def blockMakeLink (blockId : Uuid) (height : BitVec 64) : Option Bytes → TxOp Unit
  | none => blockMakeCreateQueue blockId height
  | some e => do
    blockMakeUpdatePrev blockId (DataBlockNode.decode e).prev
    blockMakeUpdateEnd blockId height e

def blockMakeBody (E : Env) (fs : List (CertField × Bytes)) (blockId : Uuid)
    (blockData : Bytes) : TxOp Unit := do
  let endNode ← queryEndNode
  let height ← constraintMatchingBlockHeight fs endNode
  let blockPrevUuid ← constraintMatchingPrevUuid E fs endNode
  constraintSaneBlockUuid E fs blockId
  Prog.require .find .noChildTransactions
  match fieldValues fs .wrappedTransactionTuple with
  | [] => Prog.fail .noChildTransactions
  | first :: rest => do
    let firstChildTxnId ← makeBlockGetFirstTransactionId E first
    makeBlockInsertBlock blockId blockPrevUuid firstChildTxnId height blockData
    blockMakeLink blockId height endNode
    blockMakeProcessChildren E height blockId first rest

/-- The cleanup labels are as the source orders them: the parser options are disposed, and then the
parser on the stack, which calls through memory that was never written. -/
def blockMakeParserInit (E : Env) (blockData : Bytes) : Op (List (CertField × Bytes)) :=
  (parserInit E blockData).onFail (do
    Prog.note (.disposed .parserOptions)
    Prog.note (.disposed .parser)
    Prog.undefined)

def blockMake (E : Env) (childcaps : Bitcap) (blockId : Uuid) (blockData : Bytes) : Op Unit := do
  authorize childcaps .appBlockWrite
  Prog.require .suiteInit .vccryptSuiteOptionsInitFailure
  Prog.note (.acquired .cryptoSuite)
  Prog.finally' (do
    Prog.require .parserOptionsInit .vccertParserOptionsInitFailure
    Prog.note (.acquired .parserOptions)
    let fs ← blockMakeParserInit E blockData
    mdbTxnBegin.onFail (Prog.note (.disposed .parser))
    (abortOrCommit (blockMakeBody E fs blockId blockData)).finally' (do
      Prog.note (.disposed .parserOptions)
      Prog.note (.disposed .parser))) (Prog.note (.disposed .cryptoSuite))

/-! ### Reads -/

def blockGetNode (nested skipCert : Bool) : MdbGet → TxOp (DataBlockNode × Bytes)
  | .notFound => Prog.fail .notFound
  | .error => Prog.fail .mdbGetFailure
  | .found b => do
    Prog.reject ((skipCert = false ∧ b.length ≤ sizeofBlockNode) ∨
      (skipCert = true ∧ b.length < sizeofBlockNode)) .invalidStoredBlockNode
    let node := DataBlockNode.decode b
    Prog.reject (b.length - sizeofBlockNode ≠ node.netBlockCertSize.toNat) .invalidStoredBlockNode
    copyOut nested
    pure (node, b.drop sizeofBlockNode)

/-- The root block uuid stands for the start record, which has no certificate. -/
def blockGetBody (E : Env) (nested : Bool) (blockId : Uuid) : TxOp (DataBlockNode × Bytes) := do
  let r ← mdbGet blockDb blockId
  if r = .notFound ∧ blockId = E.rootBlock then
    let r ← mdbGet blockDb zeroUuid
    blockGetNode nested true r
  else
    blockGetNode nested false r

def blockGet (E : Env) (childcaps : Bitcap) (blockId : Uuid) : Op (DataBlockNode × Bytes) := do
  authorize childcaps .appBlockRead
  let nested ← Prog.hasParent
  inReadTxn (blockGetBody E nested blockId)

def latestBlockIdGetBody (E : Env) : TxOp Uuid := do
  match ← mdbGet blockDb ffUuid with
  | .notFound => pure E.rootBlock
  | .error => Prog.fail .mdbGetFailure
  | .found b => do
    Prog.reject (b.length ≠ sizeofBlockNode) .invalidIndexEntry
    pure (DataBlockNode.decode b).prev

def latestBlockIdGet (E : Env) (childcaps : Bitcap) : Op Uuid := do
  authorize childcaps .appBlockIdLatestRead
  inReadTxn (latestBlockIdGetBody E)

def blockIdByHeightGetBody (height : BitVec 64) : TxOp Uuid := do
  let b ← getOrFail heightDb height .notFound .mdbGetFailure
  Prog.reject (b.length ≠ 16) .invalidIndexEntry
  pure (bits 128 b)

def blockIdByHeightGet (childcaps : Bitcap) (height : BitVec 64) : Op Uuid := do
  authorize childcaps .appBlockIdByHeightRead
  inReadTxn (blockIdByHeightGetBody height)

def artifactGetBody (artifactId : Uuid) : TxOp DataArtifactRecord := do
  let b ← getOrFail artifactDb artifactId .notFound .mdbGetFailure
  Prog.reject (b.length ≠ sizeofArtifactRecord) .invalidArtifactNodeSize
  pure (DataArtifactRecord.decode b)

def artifactGet (childcaps : Bitcap) (artifactId : Uuid) : Op DataArtifactRecord := do
  authorize childcaps .appArtifactRead
  inReadTxn (artifactGetBody artifactId)

/-! ### Global settings -/

/-- `size` is the room in the caller's buffer. -/
def globalSettingsGetBody (key : BitVec 64) (size : ℕ) : TxOp Bytes := do
  let b ← getOrFail globalDb key .notFound .mdbGetFailure
  Prog.reject (size < b.length) .wouldTruncate
  pure b

/-- The transaction never has a parent. -/
def globalSettingsGet (childcaps : Bitcap) (key : BitVec 64) (size : ℕ) : Op Bytes := do
  authorize childcaps .appGlobalSettingRead
  mdbTxnBegin
  (Prog.inTxn (globalSettingsGetBody key size)).finally' mdbTxnAbort

/-- The one operation that checks its commit; after a failed one it aborts the transaction that
the commit already ended. -/
def globalSettingsSet (childcaps : Bitcap) (key : BitVec 64) (buffer : Bytes) : Op Unit := do
  authorize childcaps .appGlobalSettingWrite
  mdbTxnBegin
  Prog.onFail (do
    Prog.inTxn (putOrFail globalDb key buffer false)
    if ← mdbTxnCommit then pure () else Prog.fail .mdbTxnCommitFailure) mdbTxnAbort

end DataserviceBlocks
