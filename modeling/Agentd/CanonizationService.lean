import Agentd.DataserviceClient

/-! # The canonization service

One callback for each socket and one for the timer. A round asks the random service for a block id,
opens a child context, reads the latest block and then the process queue from its head, sends a
block made of the attested transactions it has collected, announces it to the notification service
and closes the child context. -/
namespace CanonizationService

open ByteString
open CertificateFields
open DataserviceRecords
open DataserviceStore
open DataserviceRequests
open DataserviceDispatch
open DataserviceClient

/-! ### Instance -/

inductive State where
  | idle
  | waitrespGetRandomBytes
  | waitrespChildContextCreate
  | waitrespLatestBlockIdGet
  | waitrespBlockGet
  | waitrespPqTxnFirstGet
  | waitrespPqTxnGet
  | waitrespBlockMake
  | waitrespNotifyBlockUpdate
  | waitrespChildContextClose
  deriving DecidableEq, Repr

structure PrivateKey where
  id : Uuid
  signPrivkey : Bytes
  deriving DecidableEq

structure Transaction where
  node : DataTransactionNode
  cert : Bytes
  deriving DecidableEq

/-- The transaction list only exists while it is being built. -/
structure Instance where
  configured : Bool
  running : Bool
  forceExit : Bool
  firstTime : Bool
  blockMaxMilliseconds : BitVec 64
  blockMaxTransactions : BitVec 64
  privateKey : Option PrivateKey
  dataChildContext : BitVec 32
  state : State
  blockId : Uuid
  previousBlockId : Uuid
  previousBlockSignature : Bytes
  blockHeight : BitVec 64
  transactionList : Option (List Transaction)
  deriving DecidableEq

def signatureSize : ℕ := 64

def instanceCreate : Instance where
  configured := false
  running := false
  forceExit := false
  firstTime := false
  blockMaxMilliseconds := 0
  blockMaxTransactions := 0
  privateKey := none
  dataChildContext := 0
  state := .idle
  blockId := zeroUuid
  previousBlockId := zeroUuid
  previousBlockSignature := List.replicate signatureSize 0
  blockHeight := 0
  transactionList := none

/-! ### What a callback meets outside -/

inductive Message where
  | timer
  | randomRequest
  | randomResponse (packet : Bytes)
  | dataRequest (packet : Bytes)
  | dataResponse (resp : Response)
  | blockUpdate (blockId : Uuid)
  | notifyResponse (packet : Bytes)
  deriving DecidableEq

inductive OutsideCall where
  | listAlloc
  | listInit
  | listInsert
  | txnAlloc
  | keyAlloc
  | randomWrite
  | dataWrite
  | notifyEncode
  | notifyWrite
  | controlWrite
  | timerAdd
  | parserOptionsInit
  | parserInit
  | parserFind
  | builder
  | clock
  deriving DecidableEq, Repr

structure Outside where
  fails : OutsideCall → Bool
  now : BitVec 64

def allWorks (now : BitVec 64) : Outside := ⟨fun _ => false, now⟩

/-- The certificate builder of the library: for a buffer of some size, fields and the key that
signs them, the bytes it emits. -/
structure CertBuilder where
  certificateTypeTxnBlock : Uuid
  build : ℕ → List (CertField × Bytes) → PrivateKey → Option Bytes

/-- The builder of the concrete certificate codec, with a signature of zeros. -/
def codecBuilder : CertBuilder where
  certificateTypeTxnBlock := 2
  build _ fs key := some (encodeFields
    (fs ++ [(.signerId, be 16 key.id), (.signature, List.replicate signatureSize 0)]))

abbrev Effect := Instance × List Message

def exitEventLoop (inst : Instance) : Instance := { inst with forceExit := true }

/-! ### Requests -/

/-- A request that is sent after the instance was prepared for its response. -/
def sendreq (o : Outside) (inst : Instance) (packet : Bytes) : Effect :=
  if o.fails .dataWrite then (exitEventLoop inst, []) else (inst, [.dataRequest packet])

def canonizationCaps : Bitcap :=
  [ApiCap.appPqTransactionFirstRead, .appPqTransactionRead, .appBlockIdLatestRead, .appBlockRead,
    .appBlockWrite, .llChildContextClose].foldl bitcapSetTrue 0

def sendreqChildContextCreate (o : Outside) (inst : Instance) : Effect :=
  sendreq o { inst with state := .waitrespChildContextCreate }
    (encodeRequestChildContextCreate canonizationCaps)

def sendreqBlockIdLatestGet (o : Outside) (inst : Instance) : Effect :=
  sendreq o { inst with state := .waitrespLatestBlockIdGet }
    (encodeRequestLatestBlockIdGet inst.dataChildContext)

def sendreqBlockGet (o : Outside) (inst : Instance) : Effect :=
  sendreq o { inst with state := .waitrespBlockGet }
    (encodeRequestBlockGet inst.dataChildContext inst.previousBlockId true)

def sendreqTransactionGetFirst (o : Outside) (inst : Instance) : Effect :=
  sendreq o { inst with state := .waitrespPqTxnFirstGet }
    (encodeRequestTransactionGetFirst inst.dataChildContext)

/-- The state changes only when the request was sent. -/
def childContextClose (o : Outside) (inst : Instance) : Effect :=
  if o.fails .dataWrite then (exitEventLoop inst, [])
  else ({ inst with state := .waitrespChildContextClose },
    [.dataRequest (encodeRequestChildContextClose inst.dataChildContext)])

def notifyBlockUpdate (o : Outside) (inst : Instance) : Effect :=
  if o.fails .notifyEncode || o.fails .notifyWrite then (exitEventLoop inst, [])
  else ({ inst with state := .waitrespNotifyBlockUpdate }, [.blockUpdate inst.blockId])

def completeUpdate (o : Outside) (inst : Instance) : Effect :=
  if inst.firstTime then
    notifyBlockUpdate o { inst with firstTime := false, blockId := inst.previousBlockId }
  else childContextClose o inst

/-! ### Making a block -/

def fieldSize (n : ℕ) : ℕ := 2 + 2 + n

/-- The size of the certificate as it is computed before the builder is created. -/
def blockCertificateSize (txns : List Transaction) : ℕ :=
  txns.foldl (fun size t => size + fieldSize t.cert.length)
    (fieldSize 4 + fieldSize 8 + fieldSize 2 + fieldSize 16 + fieldSize 16 + fieldSize 16 +
      fieldSize signatureSize + fieldSize 8 + fieldSize 16 + fieldSize signatureSize)

def blockCertificateFields (B : CertBuilder) (now : BitVec 64) (inst : Instance)
    (txns : List Transaction) : List (CertField × Bytes) :=
  [(.certificateVersion, be 4 0x00010000#32), (.certificateValidFrom, be 8 now),
    (.certificateCryptoSuite, be 2 0x0001#16),
    (.certificateType, be 16 B.certificateTypeTxnBlock), (.blockUuid, be 16 inst.blockId),
    (.previousBlockUuid, be 16 inst.previousBlockId),
    (.previousBlockHash, inst.previousBlockSignature), (.blockHeight, be 8 inst.blockHeight)] ++
    txns.map fun t => (.wrappedTransactionTuple, t.cert)

/-- `none` is a null pointer that is used: a missing list or a missing key. -/
def blockMake (B : CertBuilder) (o : Outside) (inst : Instance) : Option Effect :=
  match inst.transactionList with
  | none => none
  | some [] => some (completeUpdate o inst)
  | some txns =>
    if o.fails .builder || o.fails .clock then some (exitEventLoop inst, [])
    else match inst.privateKey with
      | none => none
      | some key =>
        match B.build (blockCertificateSize txns)
          (blockCertificateFields B o.now inst txns) key with
        | none => some (exitEventLoop inst, [])
        | some cert =>
          if o.fails .dataWrite then some (exitEventLoop inst, [])
          else some ({ inst with state := .waitrespBlockMake },
            [.dataRequest (encodeRequestBlockMake inst.dataChildContext inst.blockId cert)])

/-! ### Starting and ending a round -/

def timerCb (o : Outside) (inst : Instance) : Effect :=
  if inst.forceExit then (inst, [])
  else if o.fails .listAlloc || o.fails .listInit || o.fails .randomWrite then
    (exitEventLoop { inst with transactionList := none }, [])
  else ({ inst with transactionList := some [], state := .waitrespGetRandomBytes },
    [.randomRequest])

/-- Without a sleep the next round begins at once. -/
def reset (o : Outside) (inst : Instance) (shouldSleep : Bool) : Effect :=
  let inst := { inst with state := .idle, blockId := zeroUuid, transactionList := none }
  if shouldSleep then
    if o.fails .timerAdd then (exitEventLoop inst, []) else (inst, [.timer])
  else timerCb o inst

/-! ### Responses of the data service -/

def responseChildContextCreate (o : Outside) (inst : Instance) (resp : Response) : Effect :=
  match decodeResponseChildContextCreate resp with
  | some (.ok child) => sendreqBlockIdLatestGet o { inst with dataChildContext := child }
  | _ => (exitEventLoop inst, [])

/-- The status of the response is not looked at. -/
def responseChildContextClose (o : Outside) (inst : Instance) : Option Effect :=
  inst.transactionList.map fun txns =>
    reset o inst (BitVec.ofNat 64 txns.length ≠ inst.blockMaxTransactions)

def responseLatestBlockIdRead (E : Env) (o : Outside) (inst : Instance) (resp : Response) :
    Effect :=
  match decodeResponseLatestBlockIdGet resp with
  | some (.ok id) =>
    let inst := { inst with previousBlockId := id }
    if id = E.rootBlock then sendreqTransactionGetFirst o { inst with blockHeight := 1 }
    else sendreqBlockGet o inst
  | _ => (exitEventLoop inst, [])

/-- A signature of another size is skipped and reported as success. -/
def parseBlock (E : Env) (o : Outside) (inst : Instance) (cert : Bytes) : Option Instance :=
  if o.fails .parserOptionsInit || o.fails .parserInit then none
  else match E.fields cert with
    | none => none
    | some fs =>
      if o.fails .parserFind then none
      else match (fieldValues fs .signature).head? with
        | none => none
        | some signature =>
          if signature.length ≠ signatureSize then some inst
          else some { inst with previousBlockSignature := signature }

def responseBlockRead (E : Env) (o : Outside) (inst : Instance) (resp : Response) : Effect :=
  match decodeResponseBlockGet resp with
  | some (.ok (node, cert)) =>
    let inst := { inst with blockHeight := node.netBlockHeight + 1 }
    match parseBlock E o inst cert with
    | none => (exitEventLoop inst, [])
    | some inst => sendreqTransactionGetFirst o inst
  | _ => (exitEventLoop inst, [])

/-- An attested transaction goes to the end of the list, which is then full, at the end of the
queue, or continued with the next entry. -/
def collectTransaction (B : CertBuilder) (o : Outside) (inst : Instance) (txn : Transaction) :
    Option Effect :=
  if o.fails .txnAlloc then some (exitEventLoop inst, [])
  else match inst.transactionList with
    | none => none
    | some txns =>
      if o.fails .listInsert then some (exitEventLoop inst, [])
      else
        let inst := { inst with transactionList := some (txns ++ [txn]) }
        if BitVec.ofNat 64 (txns ++ [txn]).length = inst.blockMaxTransactions then
          blockMake B o inst
        else if txn.node.next = ffUuid then blockMake B o inst
        else some (sendreq o inst
          (encodeRequestTransactionGet inst.dataChildContext txn.node.next))

def responseTransactionFirstRead (B : CertBuilder) (o : Outside) (inst : Instance)
    (resp : Response) : Option Effect :=
  match decodeResponseTransactionGetFirst resp with
  | some (.ok (node, cert)) =>
    if node.netTxnState ≠ TransactionNodeState.attested.code then some (completeUpdate o inst)
    else collectTransaction B o inst ⟨node, cert⟩
  | some (.error .notFound) => some (completeUpdate o inst)
  | _ => some (exitEventLoop inst, [])

def responseTransactionRead (B : CertBuilder) (o : Outside) (inst : Instance)
    (resp : Response) : Option Effect :=
  match decodeResponseTransactionGet resp with
  | some (.ok (node, cert)) =>
    if node.netTxnState ≠ TransactionNodeState.attested.code then blockMake B o inst
    else collectTransaction B o inst ⟨node, cert⟩
  | some (.error .notFound) => blockMake B o inst
  | _ => some (exitEventLoop inst, [])

/-- The response is not looked at. -/
def responseBlockWrite (o : Outside) (inst : Instance) : Effect := notifyBlockUpdate o inst

/-! ### Read callbacks -/

/-- The response is dispatched on its method, not on the state of the instance. -/
def dataRead (E : Env) (B : CertBuilder) (o : Outside) (inst : Instance) (resp : Response) :
    Option Effect :=
  if inst.forceExit then some (inst, [])
  else if resp.method = Method.llChildContextCreate.code then
    some (responseChildContextCreate o inst resp)
  else if resp.method = Method.llChildContextClose.code then responseChildContextClose o inst
  else if resp.method = Method.appPqTransactionFirstRead.code then
    responseTransactionFirstRead B o inst resp
  else if resp.method = Method.appPqTransactionRead.code then responseTransactionRead B o inst resp
  else if resp.method = Method.appBlockIdLatestRead.code then
    some (responseLatestBlockIdRead E o inst resp)
  else if resp.method = Method.appBlockRead.code then some (responseBlockRead E o inst resp)
  else if resp.method = Method.appBlockWrite.code then some (responseBlockWrite o inst)
  else some (exitEventLoop inst, [])

section Handlers

variable (E : Env) (B : CertBuilder) {o : Outside} {inst : Instance} {resp : Response}

theorem dataRead_exiting (h : inst.forceExit = true) :
    dataRead E B o inst resp = some (inst, []) := if_pos h

variable (hrun : inst.forceExit = false)

include hrun

theorem dataRead_of_create (hm : resp.method = Method.llChildContextCreate.code) :
    dataRead E B o inst resp = some (responseChildContextCreate o inst resp) := by
  rw [dataRead, if_neg (by simp [hrun]), if_pos hm]

theorem dataRead_of_close (hm : resp.method = Method.llChildContextClose.code) :
    dataRead E B o inst resp = responseChildContextClose o inst := by
  rw [dataRead, if_neg (by simp [hrun]), hm, if_neg (by decide), if_pos rfl]

theorem dataRead_of_first (hm : resp.method = Method.appPqTransactionFirstRead.code) :
    dataRead E B o inst resp = responseTransactionFirstRead B o inst resp := by
  rw [dataRead, if_neg (by simp [hrun]), hm, if_neg (by decide), if_neg (by decide), if_pos rfl]

theorem dataRead_of_next (hm : resp.method = Method.appPqTransactionRead.code) :
    dataRead E B o inst resp = responseTransactionRead B o inst resp := by
  rw [dataRead, if_neg (by simp [hrun]), hm, if_neg (by decide), if_neg (by decide),
    if_neg (by decide), if_pos rfl]

theorem dataRead_of_latest (hm : resp.method = Method.appBlockIdLatestRead.code) :
    dataRead E B o inst resp = some (responseLatestBlockIdRead E o inst resp) := by
  rw [dataRead, if_neg (by simp [hrun]), hm, if_neg (by decide), if_neg (by decide),
    if_neg (by decide), if_neg (by decide), if_pos rfl]

theorem dataRead_of_block (hm : resp.method = Method.appBlockRead.code) :
    dataRead E B o inst resp = some (responseBlockRead E o inst resp) := by
  rw [dataRead, if_neg (by simp [hrun]), hm, if_neg (by decide), if_neg (by decide),
    if_neg (by decide), if_neg (by decide), if_neg (by decide), if_pos rfl]

theorem dataRead_of_blockWrite (hm : resp.method = Method.appBlockWrite.code) :
    dataRead E B o inst resp = some (responseBlockWrite o inst) := by
  rw [dataRead, if_neg (by simp [hrun]), hm, if_neg (by decide), if_neg (by decide),
    if_neg (by decide), if_neg (by decide), if_neg (by decide), if_neg (by decide), if_pos rfl]

end Handlers

def methodGetRandomBytes : BitVec 32 := 1

def randomRead (o : Outside) (inst : Instance) (packet : Bytes) : Effect :=
  if inst.forceExit then (inst, [])
  else if inst.state ≠ .waitrespGetRandomBytes then (exitEventLoop inst, [])
  else if packet.length < 12 then (exitEventLoop inst, [])
  else if bits 32 (slice packet 0 4) ≠ methodGetRandomBytes ∨ bits 32 (slice packet 8 4) ≠ 0 ∨
      (packet.drop 12).length ≠ 16 then (exitEventLoop inst, [])
  else sendreqChildContextCreate o { inst with blockId := bits 128 (packet.drop 12) }

def capBlockUpdate : BitVec 32 := 1

def notifyRead (o : Outside) (inst : Instance) (packet : Bytes) : Effect :=
  if inst.forceExit then (inst, [])
  else if inst.state ≠ .waitrespNotifyBlockUpdate then (exitEventLoop inst, [])
  else if packet.length < 16 then (exitEventLoop inst, [])
  else if bits 32 (slice packet 0 4) ≠ capBlockUpdate ∨ bits 32 (slice packet 12 4) ≠ 0 then
    (exitEventLoop inst, [])
  else childContextClose o inst

/-! ### Control commands -/

inductive ControlCommand where
  | configure (maxMilliseconds maxTransactions : BitVec 64)
  | privateKeySet (key : PrivateKey)
  | start
  | bad
  deriving DecidableEq

/-- A command that is not answered with success ends the service, except for a second configure
and a start that is refused. -/
def controlRead (o : Outside) (inst : Instance) : ControlCommand → Effect
  | .configure maxMilliseconds maxTransactions =>
    if inst.forceExit || inst.configured then (inst, [])
    else ({ inst with
      configured := true
      blockMaxMilliseconds := maxMilliseconds
      blockMaxTransactions := maxTransactions }, [])
  | .privateKeySet key =>
    if inst.forceExit then (inst, [])
    else if inst.privateKey.isSome || o.fails .keyAlloc then (exitEventLoop inst, [])
    else ({ inst with privateKey := some key }, [])
  | .start =>
    let answered (e : Effect) : Effect :=
      if o.fails .controlWrite then (exitEventLoop e.1, e.2) else e
    if inst.forceExit then (inst, [])
    else if !inst.configured || inst.privateKey.isNone || inst.running then answered (inst, [])
    else
      let inst := { inst with running := true, firstTime := true }
      if o.fails .timerAdd then (exitEventLoop inst, []) else answered (inst, [.timer])
  | .bad => if inst.forceExit then (inst, []) else (exitEventLoop inst, [])

end CanonizationService
