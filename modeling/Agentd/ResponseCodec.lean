import Agentd.RequestCodec
import Agentd.StoredRecords

/-! # The response codec

The packets the handlers write, against the decoders of the client. Sizes inside the decoders that
return a certificate are numbers of 32 bits, as sizes of packets are; certificates are parts of
stored records and have such sizes, so the decoded response is the one that was written. -/
namespace ResponseCodec

open ByteString
open DataserviceRecords
open FaultyTransactions
open DataserviceStore
open DataserviceQueue
open DataserviceBlocks
open DataserviceRequests
open DataserviceEffects
open StoredRecords
open DataserviceDispatch
open RequestCodec

/-! ### Packets -/

/-- The packet of `dataservice_decode_and_dispatch_write_status`. -/
def responsePacket (method offset status : BitVec 32) (data : Option Bytes) : Bytes :=
  be 4 method ++ (be 4 offset ++ (be 4 status ++ data.getD []))

structure ResponseHeader where
  methodCode : BitVec 32
  offset : BitVec 32
  status : BitVec 32
  deriving DecidableEq

inductive Record where
  | child (index : BitVec 32)
  | value (data : Bytes)
  | blockId (id : Uuid)
  | artifact (record : DataArtifactRecord)
  | block (node : DataBlockNode) (data : Bytes)
  | queued (node : DataTransactionNode) (data : Bytes)
  | canonized (node : DataTransactionNode) (data : Bytes)
  deriving DecidableEq

def Record.payload : Record → Bytes
  | child index => be 4 index
  | value data => data
  | blockId id => be 16 id
  | artifact record => encodeResponseArtifactRead record
  | block node data => encodeResponseBlockRead node true data
  | queued node data => encodeResponseTransactionGet node data
  | canonized node data => encodeResponseCanonizedTransactionGet node true data

/-! ### Decoders -/

inductive ResponseError where
  | packetInvalidSize
  | unexpectedMethodCode
  | unexpectedDataPacketSize
  deriving DecidableEq, Repr

abbrev Decoder := Bytes → Except ResponseError (ResponseHeader × Option Record)

def decodeHeader (resp : Bytes) : ResponseHeader :=
  ⟨bits 32 (slice resp 0 4), bits 32 (slice resp 4 4), bits 32 (slice resp 8 4)⟩

def decodeStatus (m : Method) : Decoder := fun resp =>
  if resp.length ≠ 12 then .error .packetInvalidSize
  else if (decodeHeader resp).methodCode ≠ m.code then .error .unexpectedMethodCode
  else .ok (decodeHeader resp, none)

/-- Responses that carry a record when they report success, of a size that is checked then. -/
def decodeRecord (m : Method) (sizeOk : ℕ → Bool) (sizeError : ResponseError)
    (record : Bytes → Record) : Decoder := fun resp =>
  if resp.length < 12 then .error .packetInvalidSize
  else if (decodeHeader resp).methodCode ≠ m.code then .error .unexpectedMethodCode
  else if (decodeHeader resp).status ≠ 0 then .ok (decodeHeader resp, none)
  else if sizeOk resp.length then .ok (decodeHeader resp, some (record resp))
  else .error sizeError

/-- What is left of a packet behind its fixed part, as a number of 32 bits. -/
def datSize (resp : Bytes) (fixed : ℕ) : BitVec 32 :=
  BitVec.ofNat 32 resp.length - BitVec.ofNat 32 fixed

def dataAt (resp : Bytes) (fixed : ℕ) : Bytes :=
  (resp.drop fixed).take (datSize resp fixed).toNat

def decodeResponseRootContextInit : Decoder := decodeStatus .llRootContextCreate

def decodeResponseRootContextReduceCaps : Decoder := decodeStatus .llRootContextReduceCaps

def decodeResponseChildContextCreate : Decoder :=
  decodeRecord .llChildContextCreate (16 ≤ ·) .unexpectedDataPacketSize fun resp =>
    .child (bits 32 (slice resp 12 4))

def decodeResponseChildContextClose : Decoder := decodeStatus .llChildContextClose

/-- The value is what is behind the header, whatever the status. -/
def decodeResponseGlobalSettingsGet : Decoder := fun resp =>
  if resp.length < 12 then .error .packetInvalidSize
  else if (decodeHeader resp).methodCode ≠ Method.appGlobalSettingRead.code then
    .error .unexpectedMethodCode
  else .ok (decodeHeader resp, some (.value (resp.drop 12)))

def decodeResponseGlobalSettingsSet : Decoder := decodeStatus .appGlobalSettingWrite

def decodeResponseTransactionSubmit : Decoder := decodeStatus .appPqTransactionSubmit

def decodeResponseTransactionDrop : Decoder := decodeStatus .appPqTransactionDrop

def decodeResponseTransactionPromote : Decoder := decodeStatus .appPqTransactionPromote

def decodeResponseBlockMake : Decoder := decodeStatus .appBlockWrite

/-- The block id of the node is cleared and not part of the packet. -/
def queuedOfResponse (resp : Bytes) : Record :=
  .queued ⟨uuidAt resp 12, uuidAt resp 28, uuidAt resp 44, uuidAt resp 60, zeroUuid,
    (datSize resp 80).setWidth 64, bits 32 (slice resp 76 4)⟩ (dataAt resp 80)

def decodeResponseTransactionGetFirst : Decoder :=
  decodeRecord .appPqTransactionFirstRead (80 ≤ ·) .packetInvalidSize queuedOfResponse

def decodeResponseTransactionGet : Decoder :=
  decodeRecord .appPqTransactionRead (80 ≤ ·) .packetInvalidSize queuedOfResponse

def canonizedOfResponse (resp : Bytes) : Record :=
  .canonized ⟨uuidAt resp 12, uuidAt resp 28, uuidAt resp 44, uuidAt resp 60, uuidAt resp 76,
    (datSize resp 96).setWidth 64, bits 32 (slice resp 92 4)⟩ (dataAt resp 96)

def decodeResponseCanonizedTransactionGet : Decoder :=
  decodeRecord .appTransactionRead (96 ≤ ·) .packetInvalidSize canonizedOfResponse

def blockOfResponse (resp : Bytes) : Record :=
  .block ⟨uuidAt resp 12, uuidAt resp 28, uuidAt resp 44, uuidAt resp 60,
    bits 64 (slice resp 76 8), (datSize resp 84).setWidth 64⟩ (dataAt resp 84)

def decodeResponseBlockGet : Decoder :=
  decodeRecord .appBlockRead (84 ≤ ·) .packetInvalidSize blockOfResponse

def decodeResponseLatestBlockIdGet : Decoder :=
  decodeRecord .appBlockIdLatestRead (28 ≤ ·) .packetInvalidSize fun resp =>
    .blockId (uuidAt resp 12)

def decodeResponseBlockIdByHeightGet : Decoder :=
  decodeRecord .appBlockIdByHeightRead (28 ≤ ·) .packetInvalidSize fun resp =>
    .blockId (uuidAt resp 12)

def artifactOfResponse (resp : Bytes) : Record :=
  .artifact ⟨uuidAt resp 12, uuidAt resp 28, uuidAt resp 44, bits 64 (slice resp 60 8),
    bits 64 (slice resp 68 8), bits 32 (slice resp 76 4)⟩

def decodeResponseArtifactGet : Decoder :=
  decodeRecord .appArtifactRead (fun size => BitVec.ofNat 32 size - 12 == 68) .packetInvalidSize
    artifactOfResponse

def decoderOf : Method → Option Decoder
  | .llRootContextCreate => some decodeResponseRootContextInit
  | .llRootContextReduceCaps => some decodeResponseRootContextReduceCaps
  | .llChildContextCreate => some decodeResponseChildContextCreate
  | .llChildContextClose => some decodeResponseChildContextClose
  | .appGlobalSettingRead => some decodeResponseGlobalSettingsGet
  | .appGlobalSettingWrite => some decodeResponseGlobalSettingsSet
  | .appPqTransactionSubmit => some decodeResponseTransactionSubmit
  | .appPqTransactionFirstRead => some decodeResponseTransactionGetFirst
  | .appPqTransactionRead => some decodeResponseTransactionGet
  | .appPqTransactionDrop => some decodeResponseTransactionDrop
  | .appPqTransactionPromote => some decodeResponseTransactionPromote
  | .appArtifactRead => some decodeResponseArtifactGet
  | .appBlockWrite => some decodeResponseBlockMake
  | .appBlockRead => some decodeResponseBlockGet
  | .appBlockIdByHeightRead => some decodeResponseBlockIdByHeightGet
  | .appBlockIdLatestRead => some decodeResponseLatestBlockIdGet
  | .appTransactionRead => some decodeResponseCanonizedTransactionGet
  | _ => none

/-! ### What the handlers send -/

def Answers : Request → Reply → Prop
  | .globalSettingsGet .., .value _ => True
  | .globalSettingsSet .., .done => True
  | .transactionSubmit .., .done => True
  | .transactionDrop .., .done => True
  | .transactionPromote .., .done => True
  | .transactionGet .., .transaction .. => True
  | .transactionGetFirst, .transaction .. => True
  | .canonizedTransactionGet .., .transaction .. => True
  | .blockMake .., .done => True
  | .blockGet .., .block .. => True
  | .latestBlockIdGet, .blockId _ => True
  | .blockIdByHeightGet .., .blockId _ => True
  | .artifactGet .., .artifact _ => True
  | _, _ => False

/-- The record of a reply. A certificate that was not asked for is left out. A queued transaction
has no block id. -/
def sent (r : DecodedRequest) : Reply → Option Record
  | .done => none
  | .value data => some (.value data)
  | .blockId id => some (.blockId id)
  | .artifact record => some (.artifact record)
  | .block node cert =>
    let data := if r.readCert then cert else []
    some (.block { node with netBlockCertSize := BitVec.ofNat 64 data.length } data)
  | .transaction node cert =>
    match r.request with
    | .canonizedTransactionGet _ =>
      let data := if r.readCert then cert else []
      some (.canonized { node with netTxnCertSize := BitVec.ofNat 64 data.length } data)
    | _ =>
      some (.queued { node with
        blockId := zeroUuid, netTxnCertSize := BitVec.ofNat 64 cert.length } cert)

/-- What is given to `write_status` for a reply of the kind the method has, and the record this is
for. -/
inductive Encoded : Method → Option Bytes → Option Record → Prop
  | rootContextCreate : Encoded .llRootContextCreate none none
  | rootContextReduceCaps : Encoded .llRootContextReduceCaps none none
  | childContextCreate (child : BitVec 32) :
      Encoded .llChildContextCreate (some (be 4 child)) (some (.child child))
  | childContextClose : Encoded .llChildContextClose none none
  | operation {r : DecodedRequest} {a : Reply} {data : Option Bytes} (ha : Answers r.request a)
      (hdata : encodeReply false r a = .ok data) :
      Encoded (ClientRequest.ofDecoded r).method data (sent r a)

/-- The certificate has a size of 32 bits. -/
def Fits : Option Record → Prop
  | some (.block _ data) => data.length < 2 ^ 32
  | some (.queued _ data) => data.length < 2 ^ 32
  | some (.canonized _ data) => data.length < 2 ^ 32
  | _ => True

/-- A reply of the data service is of the kind its request has. -/
theorem answers_of_effect {E : Env} {f : FaultPattern} {v w : Store} {a : Reply} {r : Request}
    (h : r.Effect E f v a w) : Answers r a := by
  cases r with
  | globalSettingsGet key size =>
    obtain ⟨-, b, rfl, -⟩ := h
    trivial
  | globalSettingsSet key buffer =>
    obtain ⟨rfl, -⟩ := h
    trivial
  | transactionSubmit txnId artifactId txnBytes =>
    obtain ⟨rfl, -⟩ := h
    trivial
  | transactionDrop txnId =>
    obtain ⟨rfl, -⟩ := h
    trivial
  | transactionPromote txnId =>
    obtain ⟨rfl, -⟩ := h
    trivial
  | transactionGet txnId =>
    obtain ⟨-, node, cert, u, rfl, -⟩ := h
    trivial
  | transactionGetFirst =>
    obtain ⟨-, key, node, cert, u, u', rfl, -⟩ := h
    trivial
  | canonizedTransactionGet txnId =>
    obtain ⟨-, node, cert, u, rfl, -⟩ := h
    trivial
  | blockMake blockId blockData =>
    obtain ⟨rfl, -⟩ := h
    trivial
  | blockGet blockId =>
    obtain ⟨-, node, cert, u, rfl, -⟩ := h
    trivial
  | latestBlockIdGet =>
    obtain ⟨-, id, u, rfl, -⟩ := h
    trivial
  | blockIdByHeightGet height =>
    obtain ⟨-, id, u, rfl, -⟩ := h
    trivial
  | artifactGet artifactId =>
    obtain ⟨-, record, u, rfl, -⟩ := h
    trivial

/-! ### What is written is decoded -/

section RoundTrip

variable {m : Method} {offset status : BitVec 32} {data : Option Bytes}

theorem decodeHeader_responsePacket (method : BitVec 32) :
    decodeHeader (responsePacket method offset status data) = ⟨method, offset, status⟩ := by
  simp [decodeHeader, responsePacket, slice_append_skip, slice_append_self, bits_be]

theorem length_responsePacket (method : BitVec 32) :
    (responsePacket method offset status data).length = 12 + (data.getD []).length := by
  simp only [responsePacket, List.length_append, length_be]
  omega

theorem drop_responsePacket (method : BitVec 32) :
    (responsePacket method offset status data).drop 12 = data.getD [] := by
  rw [responsePacket, ← List.append_assoc, ← List.append_assoc, List.drop_left' (by simp)]

theorem decodeStatus_responsePacket (m : Method) (offset status : BitVec 32) :
    decodeStatus m (responsePacket m.code offset status none) =
      .ok (⟨m.code, offset, status⟩, none) := by
  have hlen : ¬ (responsePacket m.code offset status none).length ≠ 12 := by
    simp [length_responsePacket]
  rw [decodeStatus, if_neg hlen, decodeHeader_responsePacket, if_neg (by simp)]

theorem decodeRecord_success {sizeOk : ℕ → Bool} {e : ResponseError} {record : Bytes → Record}
    {r : Record} (hrecord : record (responsePacket m.code offset 0 data) = r)
    (hsize : sizeOk (12 + (data.getD []).length) = true) :
    decodeRecord m sizeOk e record (responsePacket m.code offset 0 data) =
      .ok (⟨m.code, offset, 0⟩, some r) := by
  have hlen : ¬ (responsePacket m.code offset 0 data).length < 12 := by
    rw [length_responsePacket]
    omega
  rw [decodeRecord, if_neg hlen, decodeHeader_responsePacket, if_neg (by simp),
    if_neg (by simp), length_responsePacket, if_pos hsize, hrecord]

theorem decodeRecord_failure {sizeOk : ℕ → Bool} {e : ResponseError} {record : Bytes → Record}
    (hstatus : status ≠ 0) :
    decodeRecord m sizeOk e record (responsePacket m.code offset status none) =
      .ok (⟨m.code, offset, status⟩, none) := by
  have hlen : ¬ (responsePacket m.code offset status none).length < 12 := by
    rw [length_responsePacket]
    omega
  rw [decodeRecord, if_neg hlen, decodeHeader_responsePacket, if_neg (by simp),
    if_pos hstatus]

theorem decodeResponseGlobalSettingsGet_responsePacket (offset status : BitVec 32)
    (data : Option Bytes) :
    decodeResponseGlobalSettingsGet
        (responsePacket Method.appGlobalSettingRead.code offset status data) =
      .ok (⟨Method.appGlobalSettingRead.code, offset, status⟩, some (.value (data.getD []))) := by
  have hlen : ¬ (responsePacket Method.appGlobalSettingRead.code offset status data).length <
      12 := by
    rw [length_responsePacket]
    omega
  rw [decodeResponseGlobalSettingsGet, if_neg hlen, decodeHeader_responsePacket,
    if_neg (by simp), drop_responsePacket]

/-- The size kept in 32 bits is the rest of the packet up to multiples of their range. -/
theorem toNat_datSize {resp : Bytes} {fixed : ℕ} (h : fixed ≤ resp.length)
    (hfixed : fixed < 2 ^ 32) : (datSize resp fixed).toNat = (resp.length - fixed) % 2 ^ 32 := by
  rw [datSize, BitVec.toNat_sub, BitVec.toNat_ofNat, BitVec.toNat_ofNat,
    Nat.mod_eq_of_lt hfixed]
  omega

theorem toNat_datSize_of_lt {resp : Bytes} {fixed n : ℕ} (hlen : resp.length = fixed + n)
    (hfixed : fixed < 2 ^ 32) (hn : n < 2 ^ 32) : (datSize resp fixed).toNat = n := by
  rw [toNat_datSize (by omega) hfixed, hlen, Nat.add_sub_cancel_left, Nat.mod_eq_of_lt hn]

theorem setWidth_datSize {resp : Bytes} {fixed n : ℕ} (hlen : resp.length = fixed + n)
    (hfixed : fixed < 2 ^ 32) (hn : n < 2 ^ 32) :
    (datSize resp fixed).setWidth 64 = BitVec.ofNat 64 n := by
  have hsize := toNat_datSize_of_lt hlen hfixed hn
  apply BitVec.eq_of_toNat_eq
  rw [BitVec.toNat_setWidth, BitVec.toNat_ofNat, hsize]

theorem dataAt_append {pre data : Bytes} {fixed : ℕ} (hpre : pre.length = fixed)
    (hfixed : fixed < 2 ^ 32) (hdata : data.length < 2 ^ 32) :
    dataAt (pre ++ data) fixed = data := by
  have hlen : (pre ++ data).length = fixed + data.length := by rw [List.length_append, hpre]
  rw [dataAt, toNat_datSize_of_lt hlen hfixed hdata, List.drop_left' hpre, List.take_length]

theorem queuedOfResponse_packet (n : DataTransactionNode) (cert : Bytes)
    (hfits : cert.length < 2 ^ 32) :
    queuedOfResponse (responsePacket m.code offset 0 (some (encodeResponseTransactionGet n cert))) =
      .queued { n with
        blockId := zeroUuid, netTxnCertSize := BitVec.ofNat 64 cert.length } cert := by
  have hlen : (responsePacket m.code offset 0
      (some (encodeResponseTransactionGet n cert))).length = 80 + cert.length := by
    simp only [length_responsePacket, Option.getD_some, encodeResponseTransactionGet,
      List.length_append, length_be]
    omega
  have hdata : dataAt (responsePacket m.code offset 0
      (some (encodeResponseTransactionGet n cert))) 80 = cert := by
    simp only [responsePacket, Option.getD_some, encodeResponseTransactionGet, ← List.append_assoc]
    exact dataAt_append (by simp) (by decide) hfits
  rw [queuedOfResponse, hdata, setWidth_datSize hlen (by decide) hfits]
  simp [responsePacket, encodeResponseTransactionGet, uuidAt, slice_append_skip, slice_append_self,
    bits_be]

theorem slice_be {n w : ℕ} (v : BitVec w) : slice (be n v) 0 n = be n v := by
  rw [slice, List.drop_zero, List.take_of_length_le (by simp)]

theorem canonizedOfResponse_packet (n : DataTransactionNode) (readCert : Bool) (cert data : Bytes)
    (hdata : (if readCert then cert else []) = data) (hfits : data.length < 2 ^ 32) :
    canonizedOfResponse (responsePacket m.code offset 0
        (some (encodeResponseCanonizedTransactionGet n readCert cert))) =
      .canonized { n with netTxnCertSize := BitVec.ofNat 64 data.length } data := by
  have hlen : (responsePacket m.code offset 0
      (some (encodeResponseCanonizedTransactionGet n readCert cert))).length =
        96 + data.length := by
    simp only [length_responsePacket, Option.getD_some, encodeResponseCanonizedTransactionGet,
      List.length_append, length_be, hdata]
    omega
  have hat : dataAt (responsePacket m.code offset 0
      (some (encodeResponseCanonizedTransactionGet n readCert cert))) 96 = data := by
    simp only [responsePacket, Option.getD_some, encodeResponseCanonizedTransactionGet,
      ← List.append_assoc, hdata]
    exact dataAt_append (by simp) (by decide) hfits
  rw [canonizedOfResponse, hat, setWidth_datSize hlen (by decide) hfits]
  simp [responsePacket, encodeResponseCanonizedTransactionGet, uuidAt, slice_append_skip,
    slice_append_self, bits_be]

theorem blockOfResponse_packet (n : DataBlockNode) (readCert : Bool) (cert data : Bytes)
    (hdata : (if readCert then cert else []) = data) (hfits : data.length < 2 ^ 32) :
    blockOfResponse (responsePacket m.code offset 0
        (some (encodeResponseBlockRead n readCert cert))) =
      .block { n with netBlockCertSize := BitVec.ofNat 64 data.length } data := by
  have hlen : (responsePacket m.code offset 0
      (some (encodeResponseBlockRead n readCert cert))).length = 84 + data.length := by
    simp only [length_responsePacket, Option.getD_some, encodeResponseBlockRead,
      List.length_append, length_be, hdata]
    omega
  have hat : dataAt (responsePacket m.code offset 0
      (some (encodeResponseBlockRead n readCert cert))) 84 = data := by
    simp only [responsePacket, Option.getD_some, encodeResponseBlockRead, ← List.append_assoc,
      hdata]
    exact dataAt_append (by simp) (by decide) hfits
  rw [blockOfResponse, hat, setWidth_datSize hlen (by decide) hfits]
  simp [responsePacket, encodeResponseBlockRead, uuidAt, slice_append_skip, slice_append_self,
    bits_be]

theorem artifactOfResponse_packet (r : DataArtifactRecord) :
    artifactOfResponse (responsePacket m.code offset 0 (some (encodeResponseArtifactRead r))) =
      .artifact r := by
  have hstate : slice (be 4 r.netStateLatest) 0 4 = be 4 r.netStateLatest := slice_be _
  simp [artifactOfResponse, responsePacket, encodeResponseArtifactRead, uuidAt, slice_append_skip,
    slice_append_self, bits_be, hstate]

theorem uuidAt_packet (id : Uuid) :
    uuidAt (responsePacket m.code offset 0 (some (be 16 id))) 12 = id := by
  have hid : slice (be 16 id) 0 16 = be 16 id := slice_be _
  simp [responsePacket, uuidAt, slice_append_skip, hid, bits_be]

theorem childOfResponse_packet (child : BitVec 32) :
    bits 32 (slice (responsePacket m.code offset 0 (some (be 4 child))) 12 4) = child := by
  have hchild : slice (be 4 child) 0 4 = be 4 child := slice_be _
  simp [responsePacket, slice_append_skip, hchild, bits_be]

/-- The packet of a method, when its handler succeeds. -/
theorem decode_success {record : Option Record} (h : Encoded m data record) (hfits : Fits record) :
    ∃ decode, decoderOf m = some decode ∧
      decode (responsePacket m.code offset 0 data) = .ok (⟨m.code, offset, 0⟩, record) := by
  cases h with
  | rootContextCreate => exact ⟨_, rfl, decodeStatus_responsePacket _ _ _⟩
  | rootContextReduceCaps => exact ⟨_, rfl, decodeStatus_responsePacket _ _ _⟩
  | childContextClose => exact ⟨_, rfl, decodeStatus_responsePacket _ _ _⟩
  | childContextCreate child =>
    exact ⟨_, rfl, decodeRecord_success (congrArg Record.child (childOfResponse_packet child))
      (by simp)⟩
  | @operation r a _ ha hdata =>
    obtain ⟨child, request, readCert⟩ := r
    cases request with
    | globalSettingsGet key size =>
      cases a with
      | value b =>
        cases hdata
        exact ⟨_, rfl, decodeResponseGlobalSettingsGet_responsePacket _ _ _⟩
      | _ => cases ha
    | globalSettingsSet key buffer =>
      cases a with
      | done =>
        cases hdata
        exact ⟨_, rfl, decodeStatus_responsePacket _ _ _⟩
      | _ => cases ha
    | transactionSubmit txnId artifactId txnBytes =>
      cases a with
      | done =>
        cases hdata
        exact ⟨_, rfl, decodeStatus_responsePacket _ _ _⟩
      | _ => cases ha
    | transactionDrop txnId =>
      cases a with
      | done =>
        cases hdata
        exact ⟨_, rfl, decodeStatus_responsePacket _ _ _⟩
      | _ => cases ha
    | transactionPromote txnId =>
      cases a with
      | done =>
        cases hdata
        exact ⟨_, rfl, decodeStatus_responsePacket _ _ _⟩
      | _ => cases ha
    | blockMake blockId blockData =>
      cases a with
      | done =>
        cases hdata
        exact ⟨_, rfl, decodeStatus_responsePacket _ _ _⟩
      | _ => cases ha
    | transactionGet txnId =>
      cases a with
      | transaction node cert =>
        cases hdata
        exact ⟨_, rfl, decodeRecord_success (queuedOfResponse_packet node cert hfits)
          (by simp [encodeResponseTransactionGet]; omega)⟩
      | _ => cases ha
    | transactionGetFirst =>
      cases a with
      | transaction node cert =>
        cases hdata
        exact ⟨_, rfl, decodeRecord_success (queuedOfResponse_packet node cert hfits)
          (by simp [encodeResponseTransactionGet]; omega)⟩
      | _ => cases ha
    | canonizedTransactionGet txnId =>
      cases a with
      | transaction node cert =>
        cases hdata
        exact ⟨_, rfl, decodeRecord_success
          (canonizedOfResponse_packet node readCert cert _ rfl hfits)
          (by simp [encodeResponseCanonizedTransactionGet]; omega)⟩
      | _ => cases ha
    | blockGet blockId =>
      cases a with
      | block node cert =>
        cases hdata
        exact ⟨_, rfl, decodeRecord_success
          (blockOfResponse_packet node readCert cert _ rfl hfits)
          (by simp [encodeResponseBlockRead]; omega)⟩
      | _ => cases ha
    | latestBlockIdGet =>
      cases a with
      | blockId id =>
        cases hdata
        exact ⟨_, rfl, decodeRecord_success (congrArg Record.blockId (uuidAt_packet id)) (by simp)⟩
      | _ => cases ha
    | blockIdByHeightGet height =>
      cases a with
      | blockId id =>
        cases hdata
        exact ⟨_, rfl, decodeRecord_success (congrArg Record.blockId (uuidAt_packet id)) (by simp)⟩
      | _ => cases ha
    | artifactGet artifactId =>
      cases a with
      | artifact record =>
        cases hdata
        exact ⟨_, rfl, decodeRecord_success (artifactOfResponse_packet record)
          (by simp [encodeResponseArtifactRead])⟩
      | _ => cases ha

end RoundTrip

/-! ### What is decoded lies in the packet -/

section Inside

variable {m : Method} {resp : Bytes} {hdr : ResponseHeader} {record : Option Record}

/-- The header of the method and the record make up the packet, up to a rest. -/
def Inside (m : Method) (hdr : ResponseHeader) (record : Option Record) (resp : Bytes) : Prop :=
  hdr.methodCode = m.code ∧
    ∃ payload, resp = be 4 hdr.methodCode ++ (be 4 hdr.offset ++ (be 4 hdr.status ++ payload)) ∧
      ∀ r, record = some r → ∃ rest, payload = r.payload ++ rest

theorem append_decodeHeader (resp : Bytes) (h : 12 ≤ resp.length) :
    resp = be 4 (decodeHeader resp).methodCode ++ (be 4 (decodeHeader resp).offset ++
      (be 4 (decodeHeader resp).status ++ resp.drop 12)) := by
  have hfield : ∀ off, off + 4 ≤ resp.length →
      be 4 (bits 32 (slice resp off 4)) = slice resp off 4 := fun off hoff =>
    be_bits_slice rfl hoff
  rw [decodeHeader, hfield 0 (by omega), hfield 4 (by omega), hfield 8 (by omega),
    ← List.append_assoc, ← List.append_assoc, slice_append_slice resp 0 4 4,
    slice_append_slice resp 0 8 4, slice, List.drop_zero, List.take_append_drop]

theorem drop_eq_slice_append (b : Bytes) (off n : ℕ) :
    b.drop off = slice b off n ++ b.drop (off + n) := by
  rw [slice, ← List.drop_drop, List.take_append_drop]

theorem be_uuidAt {off : ℕ} (h : off + 16 ≤ resp.length) :
    be 16 (uuidAt resp off) = slice resp off 16 :=
  be_bits_slice rfl h

theorem payload_queuedOfResponse (h : 80 ≤ resp.length) :
    (queuedOfResponse resp).payload = slice resp 12 (68 + (datSize resp 80).toNat) := by
  have hstate : be 4 (bits 32 (slice resp 76 4)) = slice resp 76 4 := be_bits_slice rfl (by omega)
  simp only [queuedOfResponse, Record.payload, encodeResponseTransactionGet]
  rw [be_uuidAt (by omega), be_uuidAt (by omega), be_uuidAt (by omega), be_uuidAt (by omega),
    hstate, dataAt, ← slice, slice_append_slice resp 12 16 16, slice_append_slice resp 12 32 16,
    slice_append_slice resp 12 48 16, slice_append_slice resp 12 64 4,
    slice_append_slice resp 12 68]

theorem payload_canonizedOfResponse (h : 96 ≤ resp.length) :
    (canonizedOfResponse resp).payload = slice resp 12 (84 + (datSize resp 96).toNat) := by
  have hstate : be 4 (bits 32 (slice resp 92 4)) = slice resp 92 4 := be_bits_slice rfl (by omega)
  simp only [canonizedOfResponse, Record.payload, encodeResponseCanonizedTransactionGet, if_true]
  rw [be_uuidAt (by omega), be_uuidAt (by omega), be_uuidAt (by omega), be_uuidAt (by omega),
    be_uuidAt (by omega), hstate, dataAt, ← slice, slice_append_slice resp 12 16 16,
    slice_append_slice resp 12 32 16, slice_append_slice resp 12 48 16,
    slice_append_slice resp 12 64 16, slice_append_slice resp 12 80 4,
    slice_append_slice resp 12 84]

theorem payload_blockOfResponse (h : 84 ≤ resp.length) :
    (blockOfResponse resp).payload = slice resp 12 (72 + (datSize resp 84).toNat) := by
  have hheight : be 8 (bits 64 (slice resp 76 8)) = slice resp 76 8 := be_bits_slice rfl (by omega)
  simp only [blockOfResponse, Record.payload, encodeResponseBlockRead, if_true]
  rw [be_uuidAt (by omega), be_uuidAt (by omega), be_uuidAt (by omega), be_uuidAt (by omega),
    hheight, dataAt, ← slice, slice_append_slice resp 12 16 16, slice_append_slice resp 12 32 16,
    slice_append_slice resp 12 48 16, slice_append_slice resp 12 64 8,
    slice_append_slice resp 12 72]

theorem payload_artifactOfResponse (h : 80 ≤ resp.length) :
    (artifactOfResponse resp).payload = slice resp 12 68 := by
  have hfirst : be 8 (bits 64 (slice resp 60 8)) = slice resp 60 8 := be_bits_slice rfl (by omega)
  have hlatest : be 8 (bits 64 (slice resp 68 8)) = slice resp 68 8 := be_bits_slice rfl (by omega)
  have hstate : be 4 (bits 32 (slice resp 76 4)) = slice resp 76 4 := be_bits_slice rfl (by omega)
  simp only [artifactOfResponse, Record.payload, encodeResponseArtifactRead]
  rw [be_uuidAt (by omega), be_uuidAt (by omega), be_uuidAt (by omega), hfirst, hlatest, hstate,
    slice_append_slice resp 12 16 16, slice_append_slice resp 12 32 16,
    slice_append_slice resp 12 48 8, slice_append_slice resp 12 56 8,
    slice_append_slice resp 12 64 4]

def ReadsRecord (m : Method) (decode : Decoder) : Prop :=
  ∃ sizeOk e f, decode = decodeRecord m sizeOk e f ∧ ∀ resp : Bytes, 12 ≤ resp.length →
    sizeOk resp.length = true → ∃ n, (f resp).payload = slice resp 12 n

theorem decoderOf_cases {decode : Decoder} (hm : decoderOf m = some decode) :
    decode = decodeStatus m ∨
    (m = .appGlobalSettingRead ∧ decode = decodeResponseGlobalSettingsGet) ∨
    ReadsRecord m decode := by
  cases m with
  | llDatabaseBackup => cases hm
  | llDatabaseRestore => cases hm
  | llDatabaseUpgrade => cases hm
  | appBlockIdNextRead => cases hm
  | appBlockIdPrevRead => cases hm
  | appBlockIdWithTransactionRead => cases hm
  | appGlobalSettingRead => exact Or.inr (Or.inl ⟨rfl, (Option.some.inj hm).symm⟩)
  | llChildContextCreate =>
    refine Or.inr (Or.inr ⟨_, _, _, (Option.some.inj hm).symm, fun resp _ hsize => ⟨4, ?_⟩⟩)
    have hlen := of_decide_eq_true hsize
    exact be_bits_slice rfl (by omega)
  | appBlockIdLatestRead =>
    exact Or.inr (Or.inr ⟨_, _, _, (Option.some.inj hm).symm, fun resp _ hsize =>
      ⟨16, be_uuidAt (of_decide_eq_true hsize)⟩⟩)
  | appBlockIdByHeightRead =>
    exact Or.inr (Or.inr ⟨_, _, _, (Option.some.inj hm).symm, fun resp _ hsize =>
      ⟨16, be_uuidAt (of_decide_eq_true hsize)⟩⟩)
  | appBlockRead =>
    exact Or.inr (Or.inr ⟨_, _, _, (Option.some.inj hm).symm, fun resp _ hsize =>
      ⟨_, payload_blockOfResponse (of_decide_eq_true hsize)⟩⟩)
  | appTransactionRead =>
    exact Or.inr (Or.inr ⟨_, _, _, (Option.some.inj hm).symm, fun resp _ hsize =>
      ⟨_, payload_canonizedOfResponse (of_decide_eq_true hsize)⟩⟩)
  | appPqTransactionFirstRead =>
    exact Or.inr (Or.inr ⟨_, _, _, (Option.some.inj hm).symm, fun resp _ hsize =>
      ⟨_, payload_queuedOfResponse (of_decide_eq_true hsize)⟩⟩)
  | appPqTransactionRead =>
    exact Or.inr (Or.inr ⟨_, _, _, (Option.some.inj hm).symm, fun resp _ hsize =>
      ⟨_, payload_queuedOfResponse (of_decide_eq_true hsize)⟩⟩)
  | appArtifactRead =>
    refine Or.inr (Or.inr ⟨_, _, _, (Option.some.inj hm).symm, fun resp hlen hsize => ⟨68, ?_⟩⟩)
    have hsize : datSize resp 12 = 68 := beq_iff_eq.mp hsize
    have hnat := toNat_datSize hlen (by decide)
    rw [hsize] at hnat
    have hle := Nat.mod_le (resp.length - 12) (2 ^ 32)
    rw [← hnat] at hle
    exact payload_artifactOfResponse (by simp at hle; omega)
  | _ => exact Or.inl (Option.some.inj hm).symm

theorem inside_status (h : decodeStatus m resp = .ok (hdr, record)) :
    Inside m hdr record resp := by
  rw [decodeStatus] at h
  split at h
  · cases h
  · rename_i hlen
    split at h
    · cases h
    · rename_i hmethod
      cases h
      refine ⟨not_not.mp hmethod, _, append_decodeHeader _ (by omega), ?_⟩
      rintro _ ⟨⟩

theorem inside_record {sizeOk : ℕ → Bool} {e : ResponseError} {f : Bytes → Record}
    (hf : 12 ≤ resp.length → sizeOk resp.length = true → ∃ n, (f resp).payload = slice resp 12 n)
    (h : decodeRecord m sizeOk e f resp = .ok (hdr, record)) : Inside m hdr record resp := by
  rw [decodeRecord] at h
  split at h
  · cases h
  · rename_i hlen
    split at h
    · cases h
    · rename_i hmethod
      have hsplit := append_decodeHeader resp (by omega)
      split at h
      · cases h
        refine ⟨not_not.mp hmethod, _, hsplit, ?_⟩
        rintro _ ⟨⟩
      · split at h
        · rename_i hsize
          cases h
          refine ⟨not_not.mp hmethod, _, hsplit, ?_⟩
          rintro _ ⟨⟩
          obtain ⟨n, hn⟩ := hf (by omega) hsize
          exact ⟨resp.drop (12 + n), by rw [hn, ← drop_eq_slice_append]⟩
        · cases h

theorem inside_value (h : decodeResponseGlobalSettingsGet resp = .ok (hdr, record)) :
    Inside .appGlobalSettingRead hdr record resp := by
  rw [decodeResponseGlobalSettingsGet] at h
  split at h
  · cases h
  · rename_i hlen
    split at h
    · cases h
    · rename_i hmethod
      cases h
      refine ⟨not_not.mp hmethod, _, append_decodeHeader _ (by omega), ?_⟩
      rintro _ ⟨⟩
      exact ⟨[], (List.append_nil _).symm⟩

/-- What a decoder returns was in the packet. -/
theorem inside_decoded {decode : Decoder} (hm : decoderOf m = some decode)
    (h : decode resp = .ok (hdr, record)) : Inside m hdr record resp := by
  rcases decoderOf_cases hm with rfl | ⟨rfl, rfl⟩ | ⟨sizeOk, e, f, rfl, hf⟩
  · exact inside_status h
  · exact inside_value h
  · exact inside_record (hf resp) h

end Inside

/-- Nothing besides the header, or a value without bytes. -/
def NoRecord : Option Record → Prop
  | none => True
  | some (.value data) => data = []
  | some _ => False

/-- The packet of a method, when its handler fails. -/
theorem decode_failure {m : Method} {decode : Decoder} (hm : decoderOf m = some decode)
    (offset : BitVec 32) {status : BitVec 32} (hstatus : status ≠ 0) :
    ∃ record, decode (responsePacket m.code offset status none) =
      .ok (⟨m.code, offset, status⟩, record) ∧ NoRecord record := by
  rcases decoderOf_cases hm with rfl | ⟨rfl, rfl⟩ | ⟨sizeOk, e, f, rfl, -⟩
  · exact ⟨none, decodeStatus_responsePacket _ _ _, trivial⟩
  · exact ⟨_, decodeResponseGlobalSettingsGet_responsePacket _ _ none, rfl⟩
  · exact ⟨none, decodeRecord_failure hstatus, trivial⟩

/-! ### What the handlers can return -/

/-- What the client is to get of a reply: all of it, but for a certificate that was not asked for
and for the block id of a queued transaction, which is zero. -/
def returned (r : DecodedRequest) : Reply → Option Record
  | .done => none
  | .value data => some (.value data)
  | .blockId id => some (.blockId id)
  | .artifact record => some (.artifact record)
  | .block node cert =>
    some (if r.readCert then .block node cert else .block { node with netBlockCertSize := 0 } [])
  | .transaction node cert =>
    match r.request with
    | .canonizedTransactionGet _ => some (if r.readCert then .canonized node cert
        else .canonized { node with netTxnCertSize := 0 } [])
    | _ => some (.queued { node with blockId := zeroUuid } cert)

/-- What the handler of a method gives to `write_status` when it succeeds, and the record this is
for. An operation is performed on a database that LMDB can hold. -/
inductive Success (E : Env) : Method → Option Bytes → Option Record → Prop
  | rootContextCreate : Success E .llRootContextCreate none none
  | rootContextReduceCaps : Success E .llRootContextReduceCaps none none
  | childContextCreate (child : BitVec 32) :
      Success E .llChildContextCreate (some (be 4 child)) (some (.child child))
  | childContextClose : Success E .llChildContextClose none none
  | operation {d : Store} {i : Invocation} {a : Reply} {r : DecodedRequest} {data : Option Bytes}
      (hd : StoreStorable d) (hi : i.request = r.request) (ha : (perform E d i).1 = .ok a)
      (hdata : encodeReply false r a = .ok data) :
      Success E (ClientRequest.ofDecoded r).method data (returned r a)

section Returned

variable {E : Env} {f : FaultPattern} {v w : Store}

/-- A certificate in a reply has a size of 32 bits, the one that its node names. -/
def Certified : Reply → Prop
  | .block node cert => cert.length < 2 ^ 32 ∧ BitVec.ofNat 64 cert.length = node.netBlockCertSize
  | .transaction node cert =>
    cert.length < 2 ^ 32 ∧ BitVec.ofNat 64 cert.length = node.netTxnCertSize
  | _ => True

theorem certified_of_nodeGet {db : Dbi Uuid} {txnId : Uuid} {node : DataTransactionNode}
    {cert : Bytes} (hdb : Storable (db.read v))
    (h : Ends (nodeGetBody db false txnId) f v (node, cert) w) :
    Certified (.transaction node cert) := by
  obtain ⟨b, hb, -, hsize, hpair⟩ := nodeGetBody_ends h
  obtain ⟨rfl, rfl⟩ := Prod.mk.inj hpair
  refine ⟨Storable.behind (hdb _ _ hb), ?_⟩
  rw [List.length_drop, hsize, BitVec.ofNat_toNat, BitVec.setWidth_eq]

theorem certified_of_blockGet {blockId : Uuid} {node : DataBlockNode} {cert : Bytes}
    (hdb : Storable v.blockDb) (h : Ends (blockGetBody E false blockId) f v (node, cert) w) :
    Certified (.block node cert) := by
  obtain ⟨b, hb, hpair, hsize⟩ := blockGetBody_ends h
  obtain ⟨rfl, rfl⟩ := Prod.mk.inj hpair
  constructor
  · rcases hb with hb | ⟨-, hb⟩
    · exact Storable.behind (hdb _ _ hb)
    · exact Storable.behind (hdb _ _ hb)
  · rw [hsize, BitVec.ofNat_toNat, BitVec.setWidth_eq]

/-- What an operation returns is a part of a stored record, of the size that it has checked. -/
theorem certified_of_effect {a : Reply} {r : Request} (hv : StoreStorable v)
    (h : r.Effect E f v a w) : Certified a := by
  cases r with
  | globalSettingsGet key size =>
    obtain ⟨-, b, rfl, -⟩ := h
    trivial
  | globalSettingsSet key buffer =>
    obtain ⟨rfl, -⟩ := h
    trivial
  | transactionSubmit txnId artifactId txnBytes =>
    obtain ⟨rfl, -⟩ := h
    trivial
  | transactionDrop txnId =>
    obtain ⟨rfl, -⟩ := h
    trivial
  | transactionPromote txnId =>
    obtain ⟨rfl, -⟩ := h
    trivial
  | transactionGet txnId =>
    obtain ⟨-, node, cert, u, rfl, hends⟩ := h
    exact certified_of_nodeGet hv.queue hends
  | transactionGetFirst =>
    obtain ⟨-, key, node, cert, u, u', rfl, -, hends⟩ := h
    exact certified_of_nodeGet hv.queue hends
  | canonizedTransactionGet txnId =>
    obtain ⟨-, node, cert, u, rfl, hends⟩ := h
    exact certified_of_nodeGet hv.txns hends
  | blockMake blockId blockData =>
    obtain ⟨rfl, -⟩ := h
    trivial
  | blockGet blockId =>
    obtain ⟨-, node, cert, u, rfl, hends⟩ := h
    exact certified_of_blockGet hv.blocks hends
  | latestBlockIdGet =>
    obtain ⟨-, id, u, rfl, -⟩ := h
    trivial
  | blockIdByHeightGet height =>
    obtain ⟨-, id, u, rfl, -⟩ := h
    trivial
  | artifactGet artifactId =>
    obtain ⟨-, record, u, rfl, -⟩ := h
    trivial

theorem length_of_optional {readCert : Bool} {cert : Bytes} (h : cert.length < 2 ^ 32) :
    (if readCert then cert else []).length < 2 ^ 32 := by
  cases readCert with
  | false => simp
  | true => exact h

theorem Certified.fits {a : Reply} (h : Certified a) (r : DecodedRequest) : Fits (sent r a) := by
  obtain ⟨child, request, readCert⟩ := r
  cases a with
  | block node cert => exact length_of_optional h.1
  | transaction node cert =>
    cases request with
    | canonizedTransactionGet txnId => exact length_of_optional h.1
    | _ => exact h.1
  | _ => trivial

theorem Certified.returned_eq_sent {a : Reply} (h : Certified a) (r : DecodedRequest) :
    returned r a = sent r a := by
  obtain ⟨child, request, readCert⟩ := r
  cases a with
  | block node cert =>
    cases readCert with
    | false => rfl
    | true => simp only [returned, sent, if_true, h.2]
  | transaction node cert =>
    cases request with
    | canonizedTransactionGet txnId =>
      cases readCert with
      | false => rfl
      | true => simp only [returned, sent, if_true, h.2]
    | _ => simp only [returned, sent, h.2]
  | _ => rfl

theorem encoded_of_success {m : Method} {data : Option Bytes} {record : Option Record}
    (h : Success E m data record) : Encoded m data record ∧ Fits record := by
  cases h with
  | rootContextCreate => exact ⟨.rootContextCreate, trivial⟩
  | rootContextReduceCaps => exact ⟨.rootContextReduceCaps, trivial⟩
  | childContextCreate child => exact ⟨.childContextCreate child, trivial⟩
  | childContextClose => exact ⟨.childContextClose, trivial⟩
  | operation hd hi ha hdata =>
    obtain ⟨w, -, heffect, -⟩ := perform_ok ha
    rw [hi] at heffect
    have hcertified := certified_of_effect hd heffect
    rw [hcertified.returned_eq_sent]
    exact ⟨.operation (answers_of_effect heffect) hdata, hcertified.fits _⟩

end Returned

/-- For every method of the client: the packet of a handler that succeeds is decoded to its method,
child index and record; the packet of one that fails to its status and no record; and what is
decoded from any packet at all lies in it. The databases the handlers work on are among those that
LMDB can hold, whatever packets they have been through. -/
theorem decoded_responses_are_the_written (E : Env) :
    (∀ log d, Run E (fun _ i => i.request.Decoded) log d → StoreStorable d) ∧
    (∀ m offset data record, Success E m data record → ∃ decode, decoderOf m = some decode ∧
      decode (responsePacket m.code offset 0 data) = .ok (⟨m.code, offset, 0⟩, record)) ∧
    (∀ m decode offset status, decoderOf m = some decode → status ≠ 0 → ∃ record,
      decode (responsePacket m.code offset status none) =
        .ok (⟨m.code, offset, status⟩, record) ∧ NoRecord record) ∧
    ∀ m decode resp hdr record, decoderOf m = some decode → decode resp = .ok (hdr, record) →
      Inside m hdr record resp := by
  refine ⟨fun _ _ hrun => run_storable hrun, fun m offset data record h => ?_, ?_, ?_⟩
  · obtain ⟨hencoded, hfits⟩ := encoded_of_success h
    exact decode_success hencoded hfits
  · exact fun _ _ offset _ hm hstatus => decode_failure hm offset hstatus
  · exact fun _ _ _ _ _ hm h => inside_decoded hm h

def storeOfBlock : Store :=
  blockDb.write emptyStore 6 (some ((⟨6, 2, 3, 4, 5, 3⟩ : DataBlockNode).encode ++ [7, 8, 9]))

theorem storeOfBlock_storable : StoreStorable storeOfBlock :=
  ⟨storeStorable_empty.queue, storeStorable_empty.txns, storeStorable_empty.blocks.put (by decide)⟩

/-- The block read with its certificate, a refused read, and the first response taken apart. -/
theorem block_response_is_decoded :
    (∃ decode, decoderOf .appBlockRead = some decode ∧
      decode (responsePacket Method.appBlockRead.code 5 0
          (some (encodeResponseBlockRead ⟨6, 2, 3, 4, 5, 3⟩ true [7, 8, 9]))) =
        .ok (⟨Method.appBlockRead.code, 5, 0⟩, some (.block ⟨6, 2, 3, 4, 5, 3⟩ [7, 8, 9]))) ∧
    (∃ record, decodeResponseBlockGet (responsePacket Method.appBlockRead.code 5 6 none) =
      .ok (⟨Method.appBlockRead.code, 5, 6⟩, record) ∧ NoRecord record) ∧
    Inside .appBlockRead ⟨Method.appBlockRead.code, 5, 0⟩
      (some (.block ⟨6, 2, 3, 4, 5, 3⟩ [7, 8, 9]))
      (responsePacket Method.appBlockRead.code 5 0
        (some (encodeResponseBlockRead ⟨6, 2, 3, 4, 5, 3⟩ true [7, 8, 9]))) := by
  have hsuccess : Success (codecEnv false) .appBlockRead
      (some (encodeResponseBlockRead ⟨6, 2, 3, 4, 5, 3⟩ true [7, 8, 9]))
      (some (.block ⟨6, 2, 3, 4, 5, 3⟩ [7, 8, 9])) :=
    Success.operation (i := ⟨.blockGet 6, BitVec.allOnes 32, noFaults, false⟩)
      (r := ⟨5, .blockGet 6, true⟩) (a := .block ⟨6, 2, 3, 4, 5, 3⟩ [7, 8, 9])
      storeOfBlock_storable rfl rfl rfl
  obtain ⟨-, hwritten, hfailed, hinside⟩ := decoded_responses_are_the_written (codecEnv false)
  have hdecoded := hwritten _ 5 _ _ hsuccess
  refine ⟨hdecoded, hfailed _ _ 5 6 rfl (by decide), ?_⟩
  obtain ⟨decode, hm, hd⟩ := hdecoded
  exact hinside _ _ _ _ _ hm hd

end ResponseCodec
