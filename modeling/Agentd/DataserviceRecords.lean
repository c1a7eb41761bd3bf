import Agentd.ByteString
import Agentd.FaultyTransactions

/-! # Records, databases and status codes of the data service

The three stored structures keep the field order and the sizes of their C declarations: numbers
are in network order, `data_transaction_node_t` and `data_artifact_record_t` end in four bytes of
padding. A database is a map from keys to raw bytes; the certificate, if any, follows the header.
-/
namespace DataserviceRecords

open ByteString
open FaultyTransactions

abbrev Uuid := BitVec 128

/-- The key of the start sentinel, and the "no previous transaction" reference. -/
def zeroUuid : Uuid := 0

/-- The key of the end sentinel, and the "no next record" reference. -/
def ffUuid : Uuid := BitVec.allOnes 128

theorem zeroUuid_ne_ffUuid : zeroUuid ≠ ffUuid := by decide

inductive AgentdError where
  | outOfMemory
  | notFound
  | notAuthorized
  | ipcWriteDataFailure
  | requestPacketInvalidSize
  | requestPacketBad
  | invalidParameter
  | childContextBadIndex
  | childContextInvalid
  | childContextMaxReached
  | childContextCreateFailure
  | childDetailsDeleteFailure
  | outOfChildInstances
  | mdbEnvCreateFailure
  | mdbEnvSetMapsizeFailure
  | mdbEnvSetMaxdbsFailure
  | mdbEnvOpenFailure
  | mdbDbiOpenFailure
  | mdbTxnBeginFailure
  | mdbTxnCommitFailure
  | mdbGetFailure
  | mdbPutFailure
  | mdbDelFailure
  | invalidStoredTransactionNode
  | invalidStoredBlockNode
  | invalidArtifactNodeSize
  | invalidIndexEntry
  | wouldTruncate
  | vccryptSuiteOptionsInitFailure
  | vccertParserOptionsInitFailure
  | vccertParserInitFailure
  | missingBlockHeight
  | invalidBlockHeight
  | missingPreviousBlockUuid
  | invalidPreviousBlockUuid
  | missingBlockUuid
  | invalidBlockUuid
  | noChildTransactions
  | missingChildTransactionUuid
  | missingChildPreviousTransactionUuid
  | missingChildArtifactUuid
  | missingChildState
  deriving DecidableEq, Repr

inductive TransactionNodeState where
  | unknown
  | submitted
  | attested
  | canonized
  | invalid
  deriving DecidableEq, Repr

def TransactionNodeState.code : TransactionNodeState → BitVec 32
  | .unknown => 0
  | .submitted => 1
  | .attested => 2
  | .canonized => 3
  | .invalid => 0xFFFFFFFF

/-! ### Stored structures -/

structure DataTransactionNode where
  key : Uuid
  prev : Uuid
  next : Uuid
  artifactId : Uuid
  blockId : Uuid
  netTxnCertSize : BitVec 64
  netTxnState : BitVec 32
  deriving DecidableEq, Repr

structure DataArtifactRecord where
  key : Uuid
  txnFirst : Uuid
  txnLatest : Uuid
  netHeightFirst : BitVec 64
  netHeightLatest : BitVec 64
  netStateLatest : BitVec 32
  deriving DecidableEq, Repr

structure DataBlockNode where
  key : Uuid
  prev : Uuid
  next : Uuid
  firstTransactionId : Uuid
  netBlockHeight : BitVec 64
  netBlockCertSize : BitVec 64
  deriving DecidableEq, Repr

def sizeofTransactionNode : ℕ := 96

def sizeofArtifactRecord : ℕ := 72

def sizeofBlockNode : ℕ := 80

def padding : Bytes := [0, 0, 0, 0]

def DataTransactionNode.encode (n : DataTransactionNode) : Bytes :=
  be 16 n.key ++ (be 16 n.prev ++ (be 16 n.next ++ (be 16 n.artifactId ++ (be 16 n.blockId ++
    (be 8 n.netTxnCertSize ++ (be 4 n.netTxnState ++ padding))))))

def DataArtifactRecord.encode (r : DataArtifactRecord) : Bytes :=
  be 16 r.key ++ (be 16 r.txnFirst ++ (be 16 r.txnLatest ++ (be 8 r.netHeightFirst ++
    (be 8 r.netHeightLatest ++ (be 4 r.netStateLatest ++ padding)))))

def DataBlockNode.encode (n : DataBlockNode) : Bytes :=
  be 16 n.key ++ (be 16 n.prev ++ (be 16 n.next ++ (be 16 n.firstTransactionId ++
    (be 8 n.netBlockHeight ++ be 8 n.netBlockCertSize))))

def DataTransactionNode.decode (b : Bytes) : DataTransactionNode where
  key := bits 128 (slice b 0 16)
  prev := bits 128 (slice b 16 16)
  next := bits 128 (slice b 32 16)
  artifactId := bits 128 (slice b 48 16)
  blockId := bits 128 (slice b 64 16)
  netTxnCertSize := bits 64 (slice b 80 8)
  netTxnState := bits 32 (slice b 88 4)

def DataArtifactRecord.decode (b : Bytes) : DataArtifactRecord where
  key := bits 128 (slice b 0 16)
  txnFirst := bits 128 (slice b 16 16)
  txnLatest := bits 128 (slice b 32 16)
  netHeightFirst := bits 64 (slice b 48 8)
  netHeightLatest := bits 64 (slice b 56 8)
  netStateLatest := bits 32 (slice b 64 4)

def DataBlockNode.decode (b : Bytes) : DataBlockNode where
  key := bits 128 (slice b 0 16)
  prev := bits 128 (slice b 16 16)
  next := bits 128 (slice b 32 16)
  firstTransactionId := bits 128 (slice b 48 16)
  netBlockHeight := bits 64 (slice b 64 8)
  netBlockCertSize := bits 64 (slice b 72 8)

/-- `memcpy(node->prev, id, 16)`; the transaction and the block header agree on the offset. -/
def setPrev (b : Bytes) (id : Uuid) : Bytes := overwrite b 16 (be 16 id)

/-- `memcpy(node->next, id, 16)`; the transaction and the block header agree on the offset. -/
def setNext (b : Bytes) (id : Uuid) : Bytes := overwrite b 32 (be 16 id)

def setTxnState (b : Bytes) (state : BitVec 32) : Bytes := overwrite b 88 (be 4 state)

def setBlockHeight (b : Bytes) (height : BitVec 64) : Bytes := overwrite b 64 (be 8 height)

/-- The fields `dataservice_block_make_update_artifact` copies over an existing record. -/
def setArtifactLatest (b : Bytes) (txnId : Uuid) (height : BitVec 64) (state : BitVec 32) :
    Bytes :=
  overwrite (overwrite (overwrite b 32 (be 16 txnId)) 56 (be 8 height)) 64 (be 4 state)

@[simp] theorem DataTransactionNode.length_encode (n : DataTransactionNode) :
    n.encode.length = sizeofTransactionNode := by
  simp [encode, padding, sizeofTransactionNode]

@[simp] theorem DataArtifactRecord.length_encode (r : DataArtifactRecord) :
    r.encode.length = sizeofArtifactRecord := by
  simp [encode, padding, sizeofArtifactRecord]

@[simp] theorem DataBlockNode.length_encode (n : DataBlockNode) :
    n.encode.length = sizeofBlockNode := by
  simp [encode, sizeofBlockNode]

@[simp] theorem DataTransactionNode.decode_encode (n : DataTransactionNode) (c : Bytes) :
    decode (n.encode ++ c) = n := by
  cases n
  simp [decode, encode, List.append_assoc, slice_append_skip, slice_append_self, bits_be]

@[simp] theorem DataBlockNode.decode_encode (n : DataBlockNode) (c : Bytes) :
    decode (n.encode ++ c) = n := by
  cases n
  simp [decode, encode, List.append_assoc, slice_append_skip, slice_append_self, bits_be]

@[simp] theorem DataArtifactRecord.decode_encode (r : DataArtifactRecord) (c : Bytes) :
    decode (r.encode ++ c) = r := by
  cases r
  simp [decode, encode, List.append_assoc, slice_append_skip, slice_append_self, bits_be]

@[simp] theorem DataTransactionNode.decode_encode_header (n : DataTransactionNode) :
    decode n.encode = n := by
  simpa using n.decode_encode []

@[simp] theorem DataBlockNode.decode_encode_header (n : DataBlockNode) :
    decode n.encode = n := by
  simpa using n.decode_encode []

@[simp] theorem DataArtifactRecord.decode_encode_header (r : DataArtifactRecord) :
    decode r.encode = r := by
  simpa using r.decode_encode []

theorem DataTransactionNode.setNext_encode (n : DataTransactionNode) (c : Bytes) (id : Uuid) :
    setNext (n.encode ++ c) id = { n with next := id }.encode ++ c := by
  simp [setNext, encode, List.append_assoc, overwrite_append_skip, overwrite_append_self]

theorem DataTransactionNode.setPrev_encode (n : DataTransactionNode) (c : Bytes) (id : Uuid) :
    setPrev (n.encode ++ c) id = { n with prev := id }.encode ++ c := by
  simp [setPrev, encode, List.append_assoc, overwrite_append_skip, overwrite_append_self]

theorem DataTransactionNode.setTxnState_encode (n : DataTransactionNode) (c : Bytes)
    (state : BitVec 32) :
    setTxnState (n.encode ++ c) state = { n with netTxnState := state }.encode ++ c := by
  simp [setTxnState, encode, List.append_assoc, overwrite_append_skip, overwrite_append_self]

theorem DataBlockNode.setNext_encode (n : DataBlockNode) (c : Bytes) (id : Uuid) :
    setNext (n.encode ++ c) id = { n with next := id }.encode ++ c := by
  simp [setNext, encode, List.append_assoc, overwrite_append_skip, overwrite_append_self]

theorem DataBlockNode.setPrev_encode (n : DataBlockNode) (c : Bytes) (id : Uuid) :
    setPrev (n.encode ++ c) id = { n with prev := id }.encode ++ c := by
  simp [setPrev, encode, List.append_assoc, overwrite_append_skip, overwrite_append_self]

theorem DataBlockNode.setBlockHeight_encode (n : DataBlockNode) (c : Bytes) (h : BitVec 64) :
    setBlockHeight (n.encode ++ c) h = { n with netBlockHeight := h }.encode ++ c := by
  simp [setBlockHeight, encode, List.append_assoc, overwrite_append_skip, overwrite_append_self]

theorem DataArtifactRecord.setArtifactLatest_encode (r : DataArtifactRecord) (txnId : Uuid)
    (height : BitVec 64) (state : BitVec 32) :
    setArtifactLatest r.encode txnId height state =
      { r with txnLatest := txnId, netHeightLatest := height, netStateLatest := state }.encode := by
  simp [setArtifactLatest, encode, overwrite_append_skip, overwrite_append_self]

/-! ### Patching a field of a stored record -/

section Patch

variable {b : Bytes} (h : sizeofTransactionNode ≤ b.length)

include h

theorem length_setNext (id : Uuid) : (setNext b id).length = b.length := by
  have hb : 96 ≤ b.length := h
  exact length_overwrite _ _ _ (by simp; omega)

theorem length_setPrev (id : Uuid) : (setPrev b id).length = b.length := by
  have hb : 96 ≤ b.length := h
  exact length_overwrite _ _ _ (by simp; omega)

/-- A patch leaves the fields beside it alone. -/
theorem slice_patch {v : Bytes} {off o n : ℕ} (hin : off + v.length ≤ 96)
    (hd : o + n ≤ off ∨ off + v.length ≤ o) : slice (overwrite b off v) o n = slice b o n := by
  have hb : 96 ≤ b.length := h
  exact slice_overwrite_of_disjoint (by omega) hd

theorem slice_patched {v : Bytes} {off n : ℕ} (hin : off + v.length ≤ 96) (hn : v.length = n) :
    slice (overwrite b off v) off n = v := by
  have hb : 96 ≤ b.length := h
  exact slice_overwrite_self (by omega) hn

theorem DataTransactionNode.decode_setNext (id : Uuid) :
    decode (setNext b id) = { decode b with next := id } := by
  have hsame : ∀ o n, o + n ≤ 32 ∨ 48 ≤ o → slice (setNext b id) o n = slice b o n :=
    fun o n hd => slice_patch h (by simp) (by simpa using hd)
  have hnext : slice (setNext b id) 32 16 = be 16 id := slice_patched h (by simp) (length_be _ _)
  simp [decode, hsame, hnext, bits_be]

theorem DataTransactionNode.decode_setPrev (id : Uuid) :
    decode (setPrev b id) = { decode b with prev := id } := by
  have hsame : ∀ o n, o + n ≤ 16 ∨ 32 ≤ o → slice (setPrev b id) o n = slice b o n :=
    fun o n hd => slice_patch h (by simp) (by simpa using hd)
  have hprev : slice (setPrev b id) 16 16 = be 16 id := slice_patched h (by simp) (length_be _ _)
  simp [decode, hsame, hprev, bits_be]

theorem DataTransactionNode.decode_setTxnState (state : BitVec 32) :
    decode (setTxnState b state) = { decode b with netTxnState := state } := by
  have hsame : ∀ o n, o + n ≤ 88 ∨ 92 ≤ o → slice (setTxnState b state) o n = slice b o n :=
    fun o n hd => slice_patch h (by simp) (by simpa using hd)
  have hstate : slice (setTxnState b state) 88 4 = be 4 state :=
    slice_patched h (by simp) (length_be _ _)
  simp [decode, hsame, hstate, bits_be]

theorem setNext_setNext (id id' : Uuid) : setNext (setNext b id) id' = setNext b id' := by
  have hb : 96 ≤ b.length := h
  apply overwrite_overwrite
  · rw [length_be]
    omega
  · rw [length_be, length_be]

theorem setNext_injective {id id' : Uuid} (heq : setNext b id = setNext b id') : id = id' := by
  have hnext := congrArg (fun c => (DataTransactionNode.decode c).next) heq
  simp only [DataTransactionNode.decode_setNext h] at hnext
  exact hnext

end Patch

/-- The fields of a record are in its header. -/
theorem DataTransactionNode.decode_take {n : ℕ} (h : sizeofTransactionNode ≤ n) (b : Bytes) :
    decode (b.take n) = decode b := by
  have hn : 96 ≤ n := h
  have hsame : ∀ o m, o + m ≤ 96 → slice (b.take n) o m = slice b o m := by
    intro o m hom
    rw [slice, slice, List.drop_take, List.take_take, Nat.min_eq_left (by omega)]
  simp [decode, hsame]

end DataserviceRecords
