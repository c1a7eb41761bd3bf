import Agentd.DataserviceRequests
import Mathlib.Data.List.FinRange

/-! # Request packets

The data service reads request packets from one socket: four bytes of method, for most methods four
bytes of child index, and the arguments. Its state is one root context and 1024 child contexts kept
in an array with a free list through it. -/
namespace DataserviceDispatch

open ByteString
open FaultyTransactions
open DataserviceRecords
open DataserviceStore
open DataserviceRequests

/-! ### Contexts -/

def maxChildContexts : ℕ := 1024

/-- An entry of the child array: `dispose` is the flag of an open one, `root` whether its context
points to the root context. -/
structure ChildDetails where
  dispose : Bool
  next : Option (Fin maxChildContexts)
  root : Bool
  childcaps : Bitcap
  deriving DecidableEq

def clearedChild : ChildDetails := ⟨false, none, false, 0⟩

/-- Where `details` of the root context points: nowhere, to freed memory, or to the environment
opened in a directory. -/
inductive Details where
  | null
  | released
  | opened (datadir : Bytes)
  deriving DecidableEq

structure Instance where
  apicaps : Bitcap
  details : Details
  children : Fin maxChildContexts → ChildDetails
  childHead : Option (Fin maxChildContexts)

def threadFreeList (slots : List (Fin maxChildContexts)) (inst : Instance) : Instance :=
  slots.foldl (fun inst i =>
    { inst with
      children := Function.update inst.children i { inst.children i with next := inst.childHead }
      childHead := some i }) inst

def instanceCreate : Instance :=
  threadFreeList (List.finRange maxChildContexts)
    ⟨bitcapSetTrue 0 .llRootContextCreate, .null, fun _ => clearedChild, none⟩

structure Service where
  inst : Instance
  disk : Bytes → Store

/-! ### Outside failures while one packet is served -/

inductive OpenStep where
  | allocate
  | envCreate
  | setMapsize
  | setMaxdbs
  | envOpen
  | txnBegin
  | dbiOpen
  | txnCommit
  deriving DecidableEq, Repr

inductive WriteFailure where
  | malloc
  | socket
  deriving DecidableEq, Repr

structure Delivery where
  packet : Bytes
  faults : FaultPattern
  commitFails : Bool
  datadirAllocFails : Bool
  openFails : Option OpenStep
  payloadAllocFails : Bool
  writeFails : Option WriteFailure

def workingDelivery (packet : Bytes) : Delivery :=
  ⟨packet, noFaults, false, false, none, false, none⟩

/-! ### Methods -/

inductive Method where
  | llRootContextCreate
  | llRootContextReduceCaps
  | llChildContextCreate
  | llChildContextClose
  | llDatabaseBackup
  | llDatabaseRestore
  | llDatabaseUpgrade
  | appGlobalSettingRead
  | appGlobalSettingWrite
  | appBlockIdLatestRead
  | appBlockIdNextRead
  | appBlockIdPrevRead
  | appBlockIdWithTransactionRead
  | appBlockRead
  | appTransactionRead
  | appPqTransactionSubmit
  | appPqTransactionPromote
  | appPqTransactionFirstRead
  | appPqTransactionRead
  | appPqTransactionDrop
  | appArtifactRead
  | appBlockWrite
  | appBlockIdByHeightRead
  deriving DecidableEq, Repr

def Method.code (m : Method) : BitVec 32 := BitVec.ofNat 32 m.ctorIdx

structure Response where
  method : BitVec 32
  offset : BitVec 32
  status : Except AgentdError Unit
  payload : Option Bytes
  deriving DecidableEq

/-- What one packet leads to; `none` stands for undefined behaviour. -/
abbrev Served := Option (Service × Option Response × Except AgentdError Unit)

def writeStatus (d : Delivery) (s : Service) (method : BitVec 32) (offset : BitVec 32)
    (status : Except AgentdError Unit) (payload : Option Bytes) : Served :=
  match d.writeFails with
  | none => some (s, some ⟨method, offset, status, payload⟩, .ok ())
  | some .malloc => some (s, none, .error .outOfMemory)
  | some .socket => some (s, none, .error .ipcWriteDataFailure)

/-! ### The root context -/

def databaseOpen (fails : Option OpenStep) (datadir : Bytes) : Details × Except AgentdError Unit :=
  match fails with
  | none => (.opened datadir, .ok ())
  | some .allocate => (.null, .error .outOfMemory)
  | some .envCreate => (.released, .error .mdbEnvCreateFailure)
  | some .setMapsize => (.released, .error .mdbEnvSetMapsizeFailure)
  | some .setMaxdbs => (.released, .error .mdbEnvSetMaxdbsFailure)
  | some .envOpen => (.released, .error .mdbEnvOpenFailure)
  | some .txnBegin => (.released, .error .mdbTxnBeginFailure)
  | some .dbiOpen => (.released, .error .mdbDbiOpenFailure)
  | some .txnCommit => (.released, .error .mdbTxnCommitFailure)

/-- The capabilities are granted before the database is opened and stay when that fails. -/
def rootContextInit (fails : Option OpenStep) (datadir : Bytes) (inst : Instance) :
    Instance × Except AgentdError Unit :=
  if bitcapIsset inst.apicaps .llRootContextCreate = false then (inst, .error .notAuthorized)
  else
    let (details, status) := databaseOpen fails datadir
    ({ inst with
        apicaps := bitcapSetFalse (BitVec.allOnes 32) .llRootContextCreate
        details := details }, status)

def rootContextReduceCapabilities (caps : Bitcap) (inst : Instance) :
    Instance × Except AgentdError Unit :=
  if bitcapIsset inst.apicaps .llRootContextReduceCaps = false then (inst, .error .notAuthorized)
  else ({ inst with apicaps := bitcapIntersect inst.apicaps caps }, .ok ())

/-! ### Child contexts -/

def childDetailsCreate (inst : Instance) : Option (Instance × Fin maxChildContexts) :=
  inst.childHead.map fun i =>
    ({ inst with
        childHead := (inst.children i).next
        children := Function.update inst.children i { clearedChild with dispose := true } }, i)

def childDetailsDelete (inst : Instance) (i : Fin maxChildContexts) : Instance :=
  { inst with
    children := Function.update inst.children i { clearedChild with next := inst.childHead }
    childHead := some i }

/-- A child context cannot create itself again. -/
def childContextCreate (apicaps caps : Bitcap) (child : ChildDetails) :
    Except AgentdError ChildDetails :=
  if bitcapIsset apicaps .llChildContextCreate = false then .error .notAuthorized
  else if bitcapIsset child.childcaps .llChildContextCreate = false then .error .notAuthorized
  else .ok { child with
    root := true
    childcaps := bitcapSetFalse (bitcapIntersect apicaps caps) .llChildContextCreate }

def childContextClose (child : ChildDetails) : Except AgentdError ChildDetails :=
  if bitcapIsset child.childcaps .llChildContextClose = false then .error .notAuthorized
  else .ok { child with root := false, childcaps := 0 }

def childContextLookup (inst : Instance) (offset : BitVec 32) :
    Except AgentdError (Fin maxChildContexts) :=
  if h : offset.toNat < maxChildContexts then
    if (inst.children ⟨offset.toNat, h⟩).dispose = false then .error .childContextInvalid
    else .ok ⟨offset.toNat, h⟩
  else .error .childContextBadIndex

/-! ### Decoding -/

structure DecodedRequest where
  childIndex : BitVec 32
  request : Request
  readCert : Bool
  deriving DecidableEq

def requestInit (req : Bytes) : Except AgentdError (BitVec 32 × Bytes) :=
  if req.length < 4 then .error .requestPacketInvalidSize
  else .ok (bits 32 (req.take 4), req.drop 4)

def decodeRequest (sizeOk : ℕ → Bool) (request : Bytes → Request) (readCert : Bytes → Bool)
    (req : Bytes) : Except AgentdError DecodedRequest := do
  let (childIndex, args) ← requestInit req
  if sizeOk args.length then pure ⟨childIndex, request args, readCert args⟩
  else .error .requestPacketInvalidSize

def noCert (_ : Bytes) : Bool := false

def certFlag (args : Bytes) : Bool := args.getD 16 0 != 0

def uuidAt (args : Bytes) (off : ℕ) : Uuid := bits 128 (slice args off 16)

def globalSettingBuffer : ℕ := 16384

def decodeRequestGlobalSettingGet : Bytes → Except AgentdError DecodedRequest :=
  decodeRequest (· == 8) (fun a => .globalSettingsGet (bits 64 a) globalSettingBuffer) noCert

def decodeRequestGlobalSettingSet : Bytes → Except AgentdError DecodedRequest :=
  decodeRequest (8 < ·) (fun a => .globalSettingsSet (bits 64 (a.take 8)) (a.drop 8)) noCert

def decodeRequestTransactionSubmit : Bytes → Except AgentdError DecodedRequest :=
  decodeRequest (32 < ·)
    (fun a => .transactionSubmit (uuidAt a 0) (uuidAt a 16) (a.drop 32)) noCert

def decodeRequestTransactionGetFirst : Bytes → Except AgentdError DecodedRequest :=
  decodeRequest (fun _ => true) (fun _ => .transactionGetFirst) noCert

def decodeRequestTransactionGet : Bytes → Except AgentdError DecodedRequest :=
  decodeRequest (· == 16) (fun a => .transactionGet (uuidAt a 0)) noCert

def decodeRequestTransactionDrop : Bytes → Except AgentdError DecodedRequest :=
  decodeRequest (· == 16) (fun a => .transactionDrop (uuidAt a 0)) noCert

def decodeRequestTransactionPromote : Bytes → Except AgentdError DecodedRequest :=
  decodeRequest (· == 16) (fun a => .transactionPromote (uuidAt a 0)) noCert

def decodeRequestArtifactRead : Bytes → Except AgentdError DecodedRequest :=
  decodeRequest (· == 16) (fun a => .artifactGet (uuidAt a 0)) noCert

def decodeRequestBlockMake : Bytes → Except AgentdError DecodedRequest :=
  decodeRequest (16 ≤ ·) (fun a => .blockMake (uuidAt a 0) (a.drop 16)) noCert

def decodeRequestBlockRead : Bytes → Except AgentdError DecodedRequest :=
  decodeRequest (· == 17) (fun a => .blockGet (uuidAt a 0)) certFlag

def decodeRequestBlockIdByHeightRead : Bytes → Except AgentdError DecodedRequest :=
  decodeRequest (· == 8) (fun a => .blockIdByHeightGet (bits 64 a)) noCert

def decodeRequestBlockIdLatestRead : Bytes → Except AgentdError DecodedRequest :=
  decodeRequest (fun _ => true) (fun _ => .latestBlockIdGet) noCert

def decodeRequestCanonizedTransactionGet : Bytes → Except AgentdError DecodedRequest :=
  decodeRequest (· == 17) (fun a => .canonizedTransactionGet (uuidAt a 0)) certFlag

/-- The capability bytes are copied as they are into a word of the host, little end first. -/
def decodeCaps (req : Bytes) : Except AgentdError Bitcap :=
  if req.length ≠ 4 then .error .requestPacketInvalidSize else .ok (bits 32 req.reverse)

def decodeRequestRootContextInit (allocFails : Bool) (req : Bytes) : Except AgentdError Bytes :=
  if req.length ≤ 8 then .error .requestPacketInvalidSize
  else if allocFails then .error .outOfMemory
  else .ok ((req.drop 8).takeWhile (· != 0))

/-! ### Encoding -/

def encodeResponseTransactionGet (n : DataTransactionNode) (cert : Bytes) : Bytes :=
  be 16 n.key ++ be 16 n.prev ++ be 16 n.next ++ be 16 n.artifactId ++ be 4 n.netTxnState ++ cert

def encodeResponseCanonizedTransactionGet (n : DataTransactionNode) (writeCert : Bool)
    (cert : Bytes) : Bytes :=
  be 16 n.key ++ be 16 n.prev ++ be 16 n.next ++ be 16 n.artifactId ++ be 16 n.blockId ++
    be 4 n.netTxnState ++ if writeCert then cert else []

def encodeResponseBlockRead (n : DataBlockNode) (writeCert : Bool) (cert : Bytes) : Bytes :=
  be 16 n.key ++ be 16 n.prev ++ be 16 n.next ++ be 16 n.firstTransactionId ++
    be 8 n.netBlockHeight ++ if writeCert then cert else []

def encodeResponseArtifactRead (r : DataArtifactRecord) : Bytes :=
  be 16 r.key ++ be 16 r.txnFirst ++ be 16 r.txnLatest ++ be 8 r.netHeightFirst ++
    be 8 r.netHeightLatest ++ be 4 r.netStateLatest

/-- The payload of a reply that has one. The value of a global setting is written from the buffer
it was read into, every other payload is allocated. -/
def encodeReply (allocFails : Bool) (r : DecodedRequest) (a : Reply) :
    Except AgentdError (Option Bytes) :=
  let allocated (payload : Bytes) : Except AgentdError (Option Bytes) :=
    if allocFails then .error .outOfMemory else .ok (some payload)
  match a with
  | .done => .ok none
  | .value b => .ok (some b)
  | .blockId id => allocated (be 16 id)
  | .artifact record => allocated (encodeResponseArtifactRead record)
  | .block node cert => allocated (encodeResponseBlockRead node r.readCert cert)
  | .transaction node cert => allocated (match r.request with
    | .canonizedTransactionGet _ => encodeResponseCanonizedTransactionGet node r.readCert cert
    | _ => encodeResponseTransactionGet node cert)

/-! ### Dispatching -/

/-- An operation whose root context has no open environment. Beginning a transaction is the first
use of it. -/
def performUnopened (E : Env) (i : Invocation) : Outcome :=
  match (i.request.run E i.caps).run i.faults ⟨emptyStore, [], ⟨0, []⟩, i.commitFails⟩ with
  | .ok _ _ => .error .undefined
  | .stop .undefined _ => .error .undefined
  | .stop (.fail e) t =>
    if e = .mdbTxnBeginFailure ∨ .begun ∈ t.meter.trace then .error .undefined
    else .error (.fail e)

def performChild (E : Env) (s : Service) (i : Fin maxChildContexts) (d : Delivery)
    (request : Request) : Outcome × Service :=
  let call : Invocation := ⟨request, (s.inst.children i).childcaps, d.faults, d.commitFails⟩
  match (s.inst.children i).root, s.inst.details with
  | true, .opened datadir =>
    let (outcome, store) := perform E (s.disk datadir) call
    (outcome, { s with disk := Function.update s.disk datadir store })
  | _, _ => (performUnopened E call, s)

def dispatchChildRequest (method : Method)
    (decode : Bytes → Except AgentdError DecodedRequest) (E : Env) (s : Service) (d : Delivery)
    (req : Bytes) : Served :=
  match decode req with
  | .error e => writeStatus d s method.code 0 (.error e) none
  | .ok r =>
    match childContextLookup s.inst r.childIndex with
    | .error e => writeStatus d s method.code r.childIndex (.error e) none
    | .ok i =>
      match performChild E s i d r.request with
      | (.error .undefined, _) => none
      | (.error (.fail e), s') => writeStatus d s' method.code r.childIndex (.error e) none
      | (.ok a, s') =>
        match encodeReply d.payloadAllocFails r a with
        | .error e => writeStatus d s' method.code r.childIndex (.error e) none
        | .ok payload => writeStatus d s' method.code r.childIndex (.ok ()) payload

/-- A packet that does not decode is not answered. -/
def dispatchRootContextCreate (s : Service) (d : Delivery) (req : Bytes) : Served :=
  match decodeRequestRootContextInit d.datadirAllocFails req with
  | .error e => some (s, none, .error e)
  | .ok datadir =>
    let (inst, status) := rootContextInit d.openFails datadir s.inst
    writeStatus d { s with inst := inst } Method.llRootContextCreate.code 0 status none

def dispatchRootContextReduceCaps (s : Service) (d : Delivery) (req : Bytes) : Served :=
  match decodeCaps req with
  | .error e => writeStatus d s Method.llRootContextReduceCaps.code 0 (.error e) none
  | .ok caps =>
    let (inst, status) := rootContextReduceCapabilities caps s.inst
    writeStatus d { s with inst := inst } Method.llRootContextReduceCaps.code 0 status none

def dispatchChildContextCreate (s : Service) (d : Delivery) (req : Bytes) : Served :=
  let respond (inst : Instance) := writeStatus d { s with inst := inst }
    Method.llChildContextCreate.code 0
  match decodeCaps req with
  | .error e => respond s.inst (.error e) none
  | .ok caps =>
    match childDetailsCreate s.inst with
    | none => respond s.inst (.error .childContextMaxReached) none
    | some (inst, i) =>
      let child := { inst.children i with
        childcaps := bitcapSetTrue (inst.children i).childcaps .llChildContextCreate }
      match childContextCreate inst.apicaps caps child with
      | .error _ =>
        respond (childDetailsDelete
          { inst with children := Function.update inst.children i child } i)
          (.error .childContextCreateFailure) none
      | .ok child =>
        let inst := { inst with children := Function.update inst.children i child }
        if d.payloadAllocFails then
          respond (childDetailsDelete inst i) (.error .outOfMemory) none
        else respond inst (.ok ()) (some (be 4 (BitVec.ofNat 32 i)))

def dispatchChildContextClose (s : Service) (d : Delivery) (req : Bytes) : Served :=
  let method := Method.llChildContextClose.code
  match requestInit req with
  | .error e => writeStatus d s method 0 (.error e) none
  | .ok (childIndex, _) =>
    match childContextLookup s.inst childIndex with
    | .error e => writeStatus d s method childIndex (.error e) none
    | .ok i =>
      match childContextClose (s.inst.children i) with
      | .error _ => writeStatus d s method childIndex (.error .childDetailsDeleteFailure) none
      | .ok child =>
        let inst := { s.inst with children := Function.update s.inst.children i child }
        writeStatus d { s with inst := childDetailsDelete inst i } method childIndex (.ok ()) none

inductive Handler where
  | rootContextCreate
  | rootContextReduceCaps
  | childContextCreate
  | childContextClose
  | childRequest (method : Method) (decode : Bytes → Except AgentdError DecodedRequest)

def childOperations : List (Method × (Bytes → Except AgentdError DecodedRequest)) :=
  [(.appGlobalSettingRead, decodeRequestGlobalSettingGet),
    (.appGlobalSettingWrite, decodeRequestGlobalSettingSet),
    (.appPqTransactionSubmit, decodeRequestTransactionSubmit),
    (.appPqTransactionFirstRead, decodeRequestTransactionGetFirst),
    (.appPqTransactionRead, decodeRequestTransactionGet),
    (.appPqTransactionDrop, decodeRequestTransactionDrop),
    (.appPqTransactionPromote, decodeRequestTransactionPromote),
    (.appArtifactRead, decodeRequestArtifactRead),
    (.appBlockWrite, decodeRequestBlockMake),
    (.appBlockRead, decodeRequestBlockRead),
    (.appBlockIdByHeightRead, decodeRequestBlockIdByHeightRead),
    (.appBlockIdLatestRead, decodeRequestBlockIdLatestRead),
    (.appTransactionRead, decodeRequestCanonizedTransactionGet)]

def handlerOf (code : BitVec 32) : Option Handler :=
  if code = Method.llRootContextCreate.code then some .rootContextCreate
  else if code = Method.llRootContextReduceCaps.code then some .rootContextReduceCaps
  else if code = Method.llChildContextCreate.code then some .childContextCreate
  else if code = Method.llChildContextClose.code then some .childContextClose
  else (childOperations.find? fun p => code = p.1.code).map fun p => .childRequest p.1 p.2

def Handler.serve (E : Env) (s : Service) (d : Delivery) (req : Bytes) : Handler → Served
  | .rootContextCreate => dispatchRootContextCreate s d req
  | .rootContextReduceCaps => dispatchRootContextReduceCaps s d req
  | .childContextCreate => dispatchChildContextCreate s d req
  | .childContextClose => dispatchChildContextClose s d req
  | .childRequest method decode => dispatchChildRequest method decode E s d req

/-- A packet without a method is not answered; an unknown method is, and is an error in any case. -/
def decodeAndDispatch (E : Env) (s : Service) (d : Delivery) : Served :=
  if d.packet.length < 4 then some (s, none, .error .requestPacketInvalidSize)
  else
    let method := bits 32 (d.packet.take 4)
    match handlerOf method with
    | some h => h.serve E s d (d.packet.drop 4)
    | none =>
      (writeStatus d s method 0 (.error .requestPacketBad) none).map fun r =>
        (r.1, r.2.1, .error .requestPacketBad)

end DataserviceDispatch
