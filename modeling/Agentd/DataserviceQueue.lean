import Agentd.DataserviceStore

/-! # Operations on the process queue

`pq.db` holds a doubly linked list of submitted transactions between a start record with the
all-zero key and an end record with the all-0xFF key; both are created by the first submit. -/
namespace DataserviceQueue

open ByteString
open FaultyTransactions
open DataserviceRecords
open DataserviceStore

/-- `sizeof(header) + ntohll(cert_size)`, computed in a `size_t`. -/
def storedSize (header : ℕ) (certSize : BitVec 64) : ℕ := (header + certSize.toNat) % 2 ^ 64

/-- Copying `size` bytes of a stored record into a buffer of that size and then writing header
fields of it: more bytes than are stored, or fewer than the header, are out of bounds. -/
def copyRecord (header size : ℕ) (b : Bytes) : TxOp Bytes := do
  Prog.inBounds (header ≤ size ∧ size ≤ b.length)
  pure (b.take size)

/-- Re-reads the record `prev` and points its `next` to `id`. The copied size comes from the
header, not from the stored value. -/
def updatePrevNext (db : Dbi Uuid) (header : ℕ) (certSize : Bytes → BitVec 64) (id prev : Uuid) :
    TxOp Unit := do
  let b ← getOrFail db prev .mdbGetFailure .mdbGetFailure
  Prog.inBounds (header ≤ b.length)
  malloc
  let node ← copyRecord header (storedSize header (certSize b)) b
  putOrFail db prev (setNext node id) false

/-! ### Submit -/

def transactionSubmitCreateQueue (txnId : Uuid) : TxOp Unit := do
  let start : DataTransactionNode := ⟨zeroUuid, zeroUuid, txnId, zeroUuid, zeroUuid, 0, 0⟩
  let end_ : DataTransactionNode := ⟨ffUuid, txnId, ffUuid, zeroUuid, zeroUuid, 0, 0⟩
  putOrFail pqDb start.key start.encode false
  putOrFail pqDb end_.key end_.encode false

def transactionSubmitUpdatePrev (txnId prev : Uuid) : TxOp Unit :=
  updatePrevNext pqDb sizeofTransactionNode
    (fun b => (DataTransactionNode.decode b).netTxnCertSize) txnId prev

def transactionSubmitUpdateEnd (txnId : Uuid) (currEnd : Bytes) : TxOp Unit := do
  let end_ := setPrev (currEnd.take sizeofTransactionNode) txnId
  putOrFail pqDb (DataTransactionNode.decode end_).key end_ false

def submittedState (E : Env) : BitVec 32 :=
  if E.attestation then TransactionNodeState.submitted.code
  else TransactionNodeState.attested.code

def transactionSubmitQueryEnd : TxOp (Option Bytes) := do
  match ← mdbGet pqDb ffUuid with
  | .notFound => pure none
  | .found b => do
    Prog.reject (b.length < sizeofTransactionNode) .invalidStoredTransactionNode
    pure (some b)
  | .error => Prog.fail .mdbGetFailure

def transactionSubmitNewnode (E : Env) (txnId artifactId : Uuid) (txnBytes : Bytes)
    (endNode : Option Bytes) : DataTransactionNode where
  key := txnId
  prev := match endNode with
    | some b => (DataTransactionNode.decode b).prev
    | none => zeroUuid
  next := ffUuid
  artifactId := artifactId
  blockId := zeroUuid
  netTxnCertSize := BitVec.ofNat 64 txnBytes.length
  netTxnState := submittedState E

def transactionSubmitBody (E : Env) (txnId artifactId : Uuid) (txnBytes : Bytes) :
    TxOp Unit := do
  let endNode ← transactionSubmitQueryEnd
  malloc
  let newnode := transactionSubmitNewnode E txnId artifactId txnBytes endNode
  putOrFail pqDb newnode.key (newnode.encode ++ txnBytes) true
  match endNode with
  | none => transactionSubmitCreateQueue txnId
  | some b => do
    transactionSubmitUpdatePrev txnId (DataTransactionNode.decode b).prev
    transactionSubmitUpdateEnd txnId b

def transactionSubmit (E : Env) (childcaps : Bitcap) (txnId artifactId : Uuid)
    (txnBytes : Bytes) : Op Unit := do
  authorize childcaps .appPqTransactionSubmit
  inOwnTxn (transactionSubmitBody E txnId artifactId txnBytes)

/-! ### Drop and promote -/

def getNodeOrFail (db : Dbi Uuid) (id : Uuid) (e : AgentdError) : TxOp Bytes := do
  let b ← getOrFail db id e e
  Prog.reject (b.length < sizeofTransactionNode) e
  pure b

def transactionDropFixupPrevNext (node : DataTransactionNode) : TxOp Unit := do
  let prev ← getNodeOrFail pqDb node.prev .mdbGetFailure
  malloc
  putOrFail pqDb node.prev (setNext prev node.next) false
  let next ← getNodeOrFail pqDb node.next .mdbGetFailure
  malloc
  putOrFail pqDb node.next (setPrev next node.prev) false

/-- The sentinel ids are never found. -/
def rejectSentinels {S : Type} (txnId : Uuid) : Prog Call AgentdError S Unit :=
  Prog.reject (txnId = zeroUuid ∨ txnId = ffUuid) .notFound

/-- A failed read leaves `lval` zeroed, so it takes the same branch as a missing record. -/
def transactionDropBody (txnId : Uuid) : TxOp Unit := do
  let b ← getNodeOrFail pqDb txnId .notFound
  let node := DataTransactionNode.decode b
  match ← mdbDel pqDb txnId with
  | .notFound => Prog.fail .notFound
  | .error => Prog.fail .mdbDelFailure
  | .ok => transactionDropFixupPrevNext node

/-- `dataservice_transaction_drop_internal` under the open transaction of its caller. -/
def transactionDropNested (txnId : Uuid) : TxOp Unit := do
  rejectSentinels txnId
  transactionDropBody txnId

def transactionDropInternal (txnId : Uuid) : Op Unit := do
  rejectSentinels txnId
  inTxnOrParent (transactionDropBody txnId)

def transactionDrop (childcaps : Bitcap) (txnId : Uuid) : Op Unit := do
  authorize childcaps .appPqTransactionDrop
  transactionDropInternal txnId

def transactionPromoteBody (txnId : Uuid) : TxOp Unit := do
  let b ← getNodeOrFail pqDb txnId .notFound
  malloc
  putOrFail pqDb txnId (setTxnState b TransactionNodeState.attested.code) false

def transactionPromoteInternal (txnId : Uuid) : Op Unit := do
  rejectSentinels txnId
  inTxnOrParent (transactionPromoteBody txnId)

def transactionPromote (childcaps : Bitcap) (txnId : Uuid) : Op Unit := do
  authorize childcaps .appPqTransactionPromote
  transactionPromoteInternal txnId

/-! ### Reads -/

/-- The certificate is copied only when the caller holds no transaction. -/
def copyOut (nested : Bool) : TxOp Unit := if nested then pure () else malloc

def nodeGetBody (db : Dbi Uuid) (nested : Bool) (txnId : Uuid) :
    TxOp (DataTransactionNode × Bytes) := do
  let b ← getOrFail db txnId .notFound .mdbGetFailure
  Prog.reject (b.length ≤ sizeofTransactionNode) .invalidStoredTransactionNode
  let node := DataTransactionNode.decode b
  Prog.reject (b.length - sizeofTransactionNode ≠ node.netTxnCertSize.toNat)
    .invalidStoredTransactionNode
  copyOut nested
  pure (node, b.drop sizeofTransactionNode)

def nodeGet (db : Dbi Uuid) (txnId : Uuid) : Op (DataTransactionNode × Bytes) := do
  let nested ← Prog.hasParent
  inReadTxn (nodeGetBody db nested txnId)

def transactionGet (childcaps : Bitcap) (txnId : Uuid) : Op (DataTransactionNode × Bytes) := do
  authorize childcaps .appPqTransactionRead
  nodeGet pqDb txnId

def canonizedTransactionGet (childcaps : Bitcap) (txnId : Uuid) :
    Op (DataTransactionNode × Bytes) := do
  authorize childcaps .appTransactionRead
  nodeGet txnDb txnId

def firstKey : TxOp Uuid := do
  let b ← getOrFail pqDb zeroUuid .notFound .mdbGetFailure
  Prog.reject (b.length < sizeofTransactionNode) .invalidStoredTransactionNode
  let first := DataTransactionNode.decode b
  Prog.reject (first.next = ffUuid) .notFound
  pure first.next

/-- The start record is read in a transaction of its own, which ends before the entry is read. -/
def transactionGetFirst (childcaps : Bitcap) : Op (DataTransactionNode × Bytes) := do
  authorize childcaps .appPqTransactionFirstRead
  mdbTxnBegin
  let key ← (Prog.inTxn firstKey).finally' mdbTxnAbort
  nodeGet pqDb key

end DataserviceQueue
