import Agentd.AuthorizedRequests

/-! # Answers about blocks and transactions

From the request packet of a client to the packet it is answered with: the protocol fiber decodes
the request and passes it on, the data service reads a record, and the write fiber takes the id or
the record out of its response. -/
namespace ClientAnswers

open ByteString
open FaultyTransactions
open DataserviceRecords
open DataserviceStore
open DataserviceRequests
open DataserviceDispatch
open DataserviceClient
open RequestCodec
open ResponseCodec
open DataEndpoint hiding Outcome
open ClientProtocol

/-! ### Status codes -/

def dataserviceError (reason : Status) : Status := 0x8000000 ||| (0x03 <<< 16) ||| reason

/-- `AGENTD_ERROR_GENERAL_OUT_OF_MEMORY` and the errors of the data service. -/
def statusOfError : AgentdError → Status
  | .outOfMemory => 0x8000000 ||| 0x01
  | .notFound => dataserviceError 0x01
  | .notAuthorized => dataserviceError 0x03
  | .ipcWriteDataFailure => dataserviceError 0x08
  | .noChildTransactions => dataserviceError 0x0C
  | .requestPacketInvalidSize => dataserviceError 0x10
  | .childContextBadIndex => dataserviceError 0x11
  | .childContextInvalid => dataserviceError 0x12
  | .childContextMaxReached => dataserviceError 0x13
  | .requestPacketBad => dataserviceError 0x14
  | .childDetailsDeleteFailure => dataserviceError 0x1E
  | .childContextCreateFailure => dataserviceError 0x24
  | .mdbEnvCreateFailure => dataserviceError 0x25
  | .mdbEnvSetMapsizeFailure => dataserviceError 0x26
  | .mdbEnvSetMaxdbsFailure => dataserviceError 0x27
  | .mdbEnvOpenFailure => dataserviceError 0x28
  | .mdbTxnBeginFailure => dataserviceError 0x29
  | .mdbDbiOpenFailure => dataserviceError 0x2A
  | .mdbTxnCommitFailure => dataserviceError 0x2B
  | .invalidStoredTransactionNode => dataserviceError 0x2C
  | .mdbGetFailure => dataserviceError 0x2D
  | .mdbPutFailure => dataserviceError 0x2E
  | .mdbDelFailure => dataserviceError 0x2F
  | .invalidArtifactNodeSize => dataserviceError 0x30
  | .invalidStoredBlockNode => dataserviceError 0x31
  | .invalidIndexEntry => dataserviceError 0x32
  | .vccryptSuiteOptionsInitFailure => dataserviceError 0x33
  | .vccertParserOptionsInitFailure => dataserviceError 0x34
  | .vccertParserInitFailure => dataserviceError 0x35
  | .missingBlockHeight => dataserviceError 0x36
  | .invalidBlockHeight => dataserviceError 0x37
  | .missingPreviousBlockUuid => dataserviceError 0x38
  | .invalidPreviousBlockUuid => dataserviceError 0x39
  | .missingBlockUuid => dataserviceError 0x3A
  | .invalidBlockUuid => dataserviceError 0x3B
  | .missingChildTransactionUuid => dataserviceError 0x3C
  | .missingChildPreviousTransactionUuid => dataserviceError 0x3D
  | .missingChildArtifactUuid => dataserviceError 0x3E
  | .missingChildState => dataserviceError 0x3F
  | .outOfChildInstances => dataserviceError 0x40
  | .wouldTruncate => dataserviceError 0x41
  | .invalidParameter => dataserviceError 0x45

theorem statusOfError_ne_zero (e : AgentdError) : statusOfError e ≠ 0 := by
  cases e <;> decide

def statusOf : Except AgentdError Unit → Status
  | .ok () => 0
  | .error e => statusOfError e

/-! ### From packet to packet -/

def encodeResponse (a : Response) : Bytes :=
  responsePacket a.method a.offset (statusOf a.status) a.payload

/-- A request of a client whose child context is `child`, served under the outside failures `d`: the
data service after it, and the packet the client gets. -/
def exchange (L : Library) (E : Env) (s : Service) (child : BitVec 32) (d : Delivery) (p : Bytes) :
    Option (Service × Bytes) :=
  match (ProtocolRequest.ofCode (wordAt p 0)).bind (dataserviceRequest L p) with
  | some (.ok (requestId, q)) =>
    match decodeAndDispatch E s { d with packet := overwrite q.encode 4 (be 4 child) } with
    | some (s', some a, _) =>
      (packetFor L ⟨.dataservice, requestId, wordAt p 4, encodeResponse a⟩).map fun b => (s', b)
    | _ => none
  | _ => none

def Asks (L : Library) (r : ProtocolRequest) (id : Uuid) (p : Bytes) : Prop :=
  ProtocolRequest.ofCode (wordAt p 0) = some r ∧ ∃ d, L.decodeReqId r p = .ok d ∧ d.fields = id

/-- What a client can be told: a body, or the status of an error. -/
abbrev Told := Except Status ResponseBody

def encodeTold (L : Library) (r : ProtocolRequest) (offset : BitVec 32) : Told → Bytes
  | .ok body => L.encodeResp r offset 0 body
  | .error status => L.encodeErrorResp r.code offset status

structure Undisturbed (d : Delivery) : Prop where
  lmdb : LmdbWorks d.faults
  alloc : AllocWorks d.faults
  payload : d.payloadAllocFails = false
  write : d.writeFails = none

structure Holds (s : Service) (child : BitVec 32) (dir : Bytes) (cap : ApiCap) : Prop where
  opened : s.inst.details = .opened dir
  context : ∃ i, childContextLookup s.inst child = .ok i ∧ (s.inst.children i).root = true ∧
    bitcapIsset (s.inst.children i).childcaps cap = true

/-- Every packet that asks `r` about `id` is answered so, and changes nothing. -/
def Tells (L : Library) (E : Env) (s : Service) (child : BitVec 32) (r : ProtocolRequest)
    (id : Uuid)
    (t : Told) : Prop :=
  ∀ d p, Undisturbed d → Asks L r id p →
    exchange L E s child d p = some (s, encodeTold L r (wordAt p 4) t)

/-- Every packet that asks `r` about `id` is answered with the status of an error. -/
def Refuses (L : Library) (E : Env) (s : Service) (child : BitVec 32) (r : ProtocolRequest)
    (id : Uuid) : Prop :=
  ∀ d p, Undisturbed d → Asks L r id p → ∃ status, status ≠ 0 ∧
    exchange L E s child d p = some (s, encodeTold L r (wordAt p 4) (.error status))

/-! ### The data service -/

section Served

variable {E : Env} {s : Service} {d : Delivery} {dir : Bytes} {m : Method} {r : DecodedRequest}

/-- What an operation of any undisturbed caller with the capability ends in, the store as it was. -/
def Performs (E : Env) (store : Store) (request : Request) (outcome : Outcome) : Prop :=
  ∀ i : Invocation, i.request = request → LmdbWorks i.faults → i.Permitted →
    perform E store i = (outcome, store)

def Fails (E : Env) (store : Store) (request : Request) : Prop :=
  ∀ i : Invocation, i.request = request → ∃ e, perform E store i = (.error (.fail e), store)

/-- The operation is performed for the child context, and its outcome is written. -/
theorem dispatch_of_perform (he : Encodes d.packet m r)
    (hs : Holds s r.childIndex dir r.request.capability) (hd : Undisturbed d) :
    ∃ i : Invocation, i.request = r.request ∧ LmdbWorks i.faults ∧ i.Permitted ∧
      ∀ outcome, perform E (s.disk dir) i = (outcome, s.disk dir) →
        decodeAndDispatch E s d = match outcome with
          | .error .undefined => none
          | .error (.fail e) => writeStatus d s m.code r.childIndex (.error e) none
          | .ok a => match encodeReply d.payloadAllocFails r a with
            | .error e => writeStatus d s m.code r.childIndex (.error e) none
            | .ok payload => writeStatus d s m.code r.childIndex (.ok ()) payload := by
  obtain ⟨decode, req, hdecode, hdispatch⟩ := decodeAndDispatch_operation (E := E) (s := s) he
  obtain ⟨i, hlook, hroot, hcap⟩ := hs.context
  refine ⟨⟨r.request, (s.inst.children i).childcaps, d.faults, d.commitFails⟩, rfl, hd.lmdb,
    ⟨hcap, hd.alloc⟩, ?_⟩
  intro outcome hperform
  have hchild : performChild E s i d r.request = (outcome, s) := by
    unfold performChild
    simp only [hroot, hs.opened, hperform, Function.update_eq_self]
  rw [hdispatch, dispatchChildRequest, hdecode]
  simp only [hlook, hchild]
  cases outcome with
  | ok a => rfl
  | error stop =>
    cases stop with
    | undefined => rfl
    | fail e => rfl

theorem served_ok {a : Reply} {data : Option Bytes} (he : Encodes d.packet m r)
    (hs : Holds s r.childIndex dir r.request.capability) (hd : Undisturbed d)
    (hperform : Performs E (s.disk dir) r.request (.ok a))
    (hdata : encodeReply false r a = .ok data) :
    decodeAndDispatch E s d = some (s, some ⟨m.code, r.childIndex, .ok (), data⟩, .ok ()) := by
  obtain ⟨i, hi, hlmdb, hpermitted, hdispatch⟩ := dispatch_of_perform (E := E) he hs hd
  rw [hdispatch _ (hperform i hi hlmdb hpermitted), hd.payload]
  simp only [hdata, writeStatus, hd.write]

theorem served_fail (he : Encodes d.packet m r)
    (hs : Holds s r.childIndex dir r.request.capability) (hd : Undisturbed d)
    (hfails : Fails E (s.disk dir) r.request) :
    ∃ e, decodeAndDispatch E s d =
      some (s, some ⟨m.code, r.childIndex, .error e, none⟩, .ok ()) := by
  obtain ⟨i, hi, -, -, hdispatch⟩ := dispatch_of_perform (E := E) he hs hd
  obtain ⟨e, hperform⟩ := hfails i hi
  refine ⟨e, ?_⟩
  rw [hdispatch _ hperform]
  simp only [writeStatus, hd.write]

end Served

/-! ### The protocol service -/

section Answers

variable {L : Library} {E : Env} {s : Service} {child : BitVec 32} {d : Delivery} {dir p : Bytes}
  {id : Uuid} {r : ProtocolRequest} {m : Method} {request : Uuid → Request}

def LooksUp (L : Library) (r : ProtocolRequest) (m : Method) (request : Uuid → Request)
    (flag : Bool) : Prop :=
  ∀ p id, Asks L r id p → ∃ q,
    (ProtocolRequest.ofCode (wordAt p 0)).bind (dataserviceRequest L p) = some (.ok (r.code, q)) ∧
    ∀ child : BitVec 32, Encodes (overwrite q.encode 4 (be 4 child)) m ⟨child, request id, flag⟩

theorem looksUp_of {flag : Bool} {q : Uuid → ClientRequest} (hL : L.Documented)
    (hr : ∀ p, dataserviceRequest L p r = some (dndDataservice (L.decodeReqId r p) q))
    (hq : ∀ id child, Encodes (overwrite (q id).encode 4 (be 4 child)) m ⟨child, request id,
    flag⟩) :
    LooksUp L r m request flag := by
  intro p id ⟨hcode, d, hd, hid⟩
  obtain ⟨hrequest, -⟩ := hL.decodeReqId r p d hd
  refine ⟨q id, ?_, hq id⟩
  have hcoded : d.requestId = r.code := hrequest.trans (ProtocolRequest.code_of_ofCode hcode).symm
  rw [hcode, Option.bind_some, hr, hd, dndDataservice, ← hid, ← hcoded]
  rfl

theorem encodes_block (flag : Bool) (id : Uuid) (child : BitVec 32) :
    Encodes (overwrite (ClientRequest.blockGet 0 id flag).encode 4 (be 4 child)) .appBlockRead
      ⟨child, .blockGet id, flag⟩ := by
  have hpacket : overwrite (ClientRequest.blockGet 0 id flag).encode 4 (be 4 child) =
      encodeRequestBlockGet child id flag := AuthorizedRequests.overwrite_requestPacket ..
  rw [hpacket]
  exact encodes_blockGet child id flag

theorem encodes_transaction (flag : Bool) (id : Uuid) (child : BitVec 32) :
    Encodes (overwrite (ClientRequest.canonizedTransactionGet 0 id flag).encode 4 (be 4 child))
      .appTransactionRead ⟨child, .canonizedTransactionGet id, flag⟩ := by
  have hpacket : overwrite (ClientRequest.canonizedTransactionGet 0 id flag).encode 4 (be 4 child) =
      encodeRequestCanonizedTransactionGet child id flag :=
    AuthorizedRequests.overwrite_requestPacket ..
  rw [hpacket]
  exact encodes_canonizedTransactionGet child id flag

theorem exchange_of_served {q : ClientRequest} {requestId : BitVec 32} {a : Response}
    {b : Bytes} (hq : (ProtocolRequest.ofCode (wordAt p 0)).bind (dataserviceRequest L p) =
      some (.ok (requestId, q)))
    (hserved : decodeAndDispatch E s { d with packet := overwrite q.encode 4 (be 4 child) } =
      some (s, some a, .ok ()))
    (hb : packetFor L ⟨.dataservice, requestId, wordAt p 4, encodeResponse a⟩ = some b) :
    exchange L E s child d p = some (s, b) := by
  rw [exchange, hq]
  simp only [hserved, hb, Option.map_some]

variable {cap : ApiCap} {flag : Bool} {t : Told}

theorem tells_of_ok {a : Reply} {data : Option Bytes} (hlooks : LooksUp L r m request flag)
    (hs : Holds s child dir (request id).capability)
    (hperform : Performs E (s.disk dir) (request id) (.ok a))
    (hdata : encodeReply false ⟨child, request id, flag⟩ a = .ok data)
    (hpacket : ∀ offset, packetFor L ⟨.dataservice, r.code, offset,
      responsePacket m.code child 0 data⟩ = some (encodeTold L r offset t)) :
    Tells L E s child r id t := by
  intro d p hd hasks
  obtain ⟨q, hq, hencodes⟩ := hlooks p id hasks
  have hd' : Undisturbed { d with packet := overwrite q.encode 4 (be 4 child) } :=
    ⟨hd.lmdb, hd.alloc, hd.payload, hd.write⟩
  exact exchange_of_served hq (served_ok (r := ⟨child, request id, flag⟩) (hencodes child) hs hd'
    hperform hdata) (hpacket _)

theorem refuses_of_fails (hlooks : LooksUp L r m request flag)
    (hs : Holds s child dir (request id).capability) (hfails : Fails E (s.disk dir) (request id))
    (hpacket : ∀ offset status, status ≠ 0 → packetFor L ⟨.dataservice, r.code, offset,
      responsePacket m.code child status none⟩ = some (L.encodeErrorResp r.code offset status)) :
    Refuses L E s child r id := by
  intro d p hd hasks
  obtain ⟨q, hq, hencodes⟩ := hlooks p id hasks
  have hd' : Undisturbed { d with packet := overwrite q.encode 4 (be 4 child) } :=
    ⟨hd.lmdb, hd.alloc, hd.payload, hd.write⟩
  obtain ⟨e, hserved⟩ := served_fail (r := ⟨child, request id, flag⟩) (hencodes child) hs hd' hfails
  exact ⟨statusOfError e, statusOfError_ne_zero e,
    exchange_of_served hq hserved (hpacket _ _ (statusOfError_ne_zero e))⟩

/-! ### Records -/

def neighbour (absent id : Uuid) : Told :=
  if id = absent then .error errorDataserviceNotFound else .ok (.id id)

def toldOfBlock (node : DataBlockNode) (data : Bytes) : ProtocolRequest → Told
  | .blockIdGetNext => neighbour ffUuid node.next
  | .blockIdGetPrev => neighbour zeroUuid node.prev
  | _ => .ok (.block node data)

def toldOfTransaction (node : DataTransactionNode) (data : Bytes) : ProtocolRequest → Told
  | .transactionIdGetNext => neighbour ffUuid node.next
  | .transactionIdGetPrev => neighbour zeroUuid node.prev
  | .transactionIdGetBlockId => .ok (.id node.blockId)
  | _ => .ok (.transaction node data)

theorem encodeNeighbour_eq (w : WriteMessage) (hr : w.originalRequestId = r.code)
    (absent id : Uuid) :
    encodeNeighbour L w r absent id = encodeTold L r w.offset (neighbour absent id) := by
  rw [encodeNeighbour, neighbour, hr]
  by_cases h : id = absent
  · rw [if_pos h, if_pos h]
    rfl
  · rw [if_neg h, if_neg h]
    rfl

theorem encodeProtocolBlock_eq (hr : methodOf r = some .appBlockRead) (w : WriteMessage)
    (hw : w.originalRequestId = r.code) (node : DataBlockNode) (data : Bytes) :
    encodeProtocolBlock L w (.block node data) =
      encodeTold L r w.offset (toldOfBlock node data r) := by
  cases r <;> cases hr
  · rw [encodeProtocolBlock, hw, if_neg (by decide), if_neg (by decide)]
    rfl
  · rw [encodeProtocolBlock, if_pos hw, encodeNeighbour_eq w hw]
    rfl
  · rw [encodeProtocolBlock, if_neg (by rw [hw]; decide), if_pos hw, encodeNeighbour_eq w hw]
    rfl

theorem encodeProtocolTransaction_eq (hr : methodOf r = some .appTransactionRead) (w : WriteMessage)
    (hw : w.originalRequestId = r.code) (node : DataTransactionNode) (data : Bytes) :
    encodeProtocolTransaction L w (.canonized node data) =
      encodeTold L r w.offset (toldOfTransaction node data r) := by
  cases r <;> cases hr
  · rw [encodeProtocolTransaction, hw, if_neg (by decide), if_neg (by decide), if_neg (by decide)]
    rfl
  · rw [encodeProtocolTransaction, if_pos hw, encodeNeighbour_eq w hw]
    rfl
  · rw [encodeProtocolTransaction, if_neg (by rw [hw]; decide), if_pos hw, encodeNeighbour_eq w hw]
    rfl
  · rw [encodeProtocolTransaction, hw, if_neg (by decide), if_neg (by decide), if_pos rfl]
    rfl

/-- The packet of the write fiber for a response of a method that reads a record. -/
theorem packetFor_record {decode : Decoder} {encode : WriteMessage → Record → Bytes}
    (hr : methodOf r = some m)
    (hbranch : ∀ w, pweBranch L w m = pweDndDataserviceRecord L decode (encode w) w)
    (offset child status : BitVec 32) (data : Option Bytes) :
    packetFor L ⟨.dataservice, r.code, offset, responsePacket m.code child status data⟩ =
      pweDndDataserviceRecord L decode
        (encode ⟨.dataservice, r.code, offset, responsePacket m.code child status data⟩)
        ⟨.dataservice, r.code, offset, responsePacket m.code child status data⟩ := by
  rw [packetFor, pweDndDataserviceMessage_eq hr (AuthorizedRequests.wordAt_responsePacket ..),
    hbranch]

theorem packetFor_failed {decode : Decoder} (encode : WriteMessage → Record → Bytes)
    (hr : methodOf r = some m) (hm : decoderOf m = some decode)
    (hbranch : ∀ w, pweBranch L w m = pweDndDataserviceRecord L decode (encode w) w)
    (offset child : BitVec 32) {status : Status} (hstatus : status ≠ 0) :
    packetFor L ⟨.dataservice, r.code, offset, responsePacket m.code child status none⟩ =
      some (L.encodeErrorResp r.code offset status) := by
  obtain ⟨record, hdecode, -⟩ := decode_failure hm child hstatus
  rw [packetFor_record hr hbranch, pweDndDataserviceRecord, hdecode]
  exact if_pos hstatus

theorem packetFor_found {decode : Decoder} (encode : WriteMessage → Record → Bytes)
    {data : Option Bytes} {record : Record} (hr : methodOf r = some m)
    (hm : decoderOf m = some decode)
    (hbranch : ∀ w, pweBranch L w m = pweDndDataserviceRecord L decode (encode w) w)
    (hsuccess : Encoded m data (some record)) (hfits : Fits (some record))
    (hencode : ∀ w : WriteMessage, w.originalRequestId = r.code →
      encode w record = encodeTold L r w.offset t) (offset child : BitVec 32) :
    packetFor L ⟨.dataservice, r.code, offset, responsePacket m.code child 0 data⟩ =
      some (encodeTold L r offset t) := by
  obtain ⟨decode', hm', hdecode⟩ : ∃ decode', decoderOf m = some decode' ∧
      decode' (responsePacket m.code child 0 data) = .ok (⟨m.code, child, 0⟩, some record) :=
    decode_success hsuccess hfits
  cases hm.symm.trans hm'
  rw [packetFor_record hr hbranch, pweDndDataserviceRecord, hdecode]
  simp only [ne_eq, not_true_eq_false, if_false, Option.map_some, hencode]

/-! ### Blocks and transactions -/

theorem looksUp_block (hL : L.Documented) (hr : methodOf r = some .appBlockRead) :
    ∃ flag, LooksUp L r .appBlockRead .blockGet flag := by
  cases r <;> cases hr
  · exact ⟨true, looksUp_of hL (fun _ => rfl) (encodes_block true)⟩
  · exact ⟨false, looksUp_of hL (fun _ => rfl) (encodes_block false)⟩
  · exact ⟨false, looksUp_of hL (fun _ => rfl) (encodes_block false)⟩

theorem looksUp_transaction (hL : L.Documented) (hr : methodOf r = some .appTransactionRead) :
    ∃ flag, LooksUp L r .appTransactionRead .canonizedTransactionGet flag := by
  cases r <;> cases hr
  · exact ⟨true, looksUp_of hL (fun _ => rfl) (encodes_transaction true)⟩
  · exact ⟨false, looksUp_of hL (fun _ => rfl) (encodes_transaction false)⟩
  · exact ⟨false, looksUp_of hL (fun _ => rfl) (encodes_transaction false)⟩
  · exact ⟨false, looksUp_of hL (fun _ => rfl) (encodes_transaction false)⟩

/-- The record of a block is read; without its certificate it has the size 0. -/
theorem tells_block {node : DataBlockNode} {cert : Bytes} (hL : L.Documented)
    (hr : methodOf r = some .appBlockRead) (hs : Holds s child dir .appBlockRead)
    (hperform : Performs E (s.disk dir) (.blockGet id) (.ok (.block node cert)))
    (hfits : cert.length < 2 ^ 32) :
    ∃ size data, Tells L E s child r id
      (toldOfBlock { node with netBlockCertSize := size } data r) := by
  obtain ⟨flag, hlooks⟩ := looksUp_block hL hr
  have hlength : (if flag then cert else []).length < 2 ^ 32 := by
    cases flag with
    | false => simp
    | true => exact hfits
  have hsuccess := Encoded.operation (r := ⟨child, .blockGet id, flag⟩) (a := .block node cert)
    trivial rfl
  refine ⟨BitVec.ofNat 64 (if flag then cert else []).length, if flag then cert else [],
    tells_of_ok hlooks hs hperform rfl fun offset => ?_⟩
  apply packetFor_found (encodeProtocolBlock L) hr rfl (fun _ => rfl) hsuccess hlength
  intro w hw
  exact encodeProtocolBlock_eq hr w hw _ _

theorem tells_transaction {node : DataTransactionNode} {cert : Bytes} (hL : L.Documented)
    (hr : methodOf r = some .appTransactionRead) (hs : Holds s child dir .appTransactionRead)
    (hperform : Performs E (s.disk dir) (.canonizedTransactionGet id)
    (.ok (.transaction node cert)))
    (hfits : cert.length < 2 ^ 32) :
    ∃ size data, Tells L E s child r id
      (toldOfTransaction { node with netTxnCertSize := size } data r) := by
  obtain ⟨flag, hlooks⟩ := looksUp_transaction hL hr
  have hlength : (if flag then cert else []).length < 2 ^ 32 := by
    cases flag with
    | false => simp
    | true => exact hfits
  have hsuccess := Encoded.operation (r := ⟨child, .canonizedTransactionGet id, flag⟩)
    (a := .transaction node cert) trivial rfl
  refine ⟨BitVec.ofNat 64 (if flag then cert else []).length, if flag then cert else [],
    tells_of_ok hlooks hs hperform rfl fun offset => ?_⟩
  apply packetFor_found (encodeProtocolTransaction L) hr rfl (fun _ => rfl) hsuccess
    hlength
  intro w hw
  exact encodeProtocolTransaction_eq hr w hw _ _

theorem refuses_block (hL : L.Documented) (hr : methodOf r = some .appBlockRead)
    (hs : Holds s child dir .appBlockRead) (hfails : Fails E (s.disk dir) (.blockGet id)) :
    Refuses L E s child r id := by
  obtain ⟨flag, hlooks⟩ := looksUp_block hL hr
  exact refuses_of_fails hlooks hs hfails fun offset status hstatus =>
    packetFor_failed (encodeProtocolBlock L) hr rfl (fun _ => rfl) offset child hstatus

theorem refuses_transaction (hL : L.Documented) (hr : methodOf r = some .appTransactionRead)
    (hs : Holds s child dir .appTransactionRead)
    (hfails : Fails E (s.disk dir) (.canonizedTransactionGet id)) : Refuses L E s child r id := by
  obtain ⟨flag, hlooks⟩ := looksUp_transaction hL hr
  exact refuses_of_fails hlooks hs hfails fun offset status hstatus =>
    packetFor_failed (encodeProtocolTransaction L) hr rfl (fun _ => rfl) offset child
      hstatus

end Answers

end ClientAnswers
