import Agentd.DataserviceClient
import Mathlib.Data.List.TakeWhile

/-! # The request codec

The packets the seventeen client calls encode, against the header decoder of the dispatcher followed
by the decoder of the method. Apart from the values some decoder refuses, what is decoded is what
was encoded; and an accepted packet is made of the fields it decodes to. -/
namespace RequestCodec

open ByteString
open DataserviceRecords
open DataserviceStore
open DataserviceRequests
open DataserviceDispatch
open CapabilityConfinement
open DataserviceClient

/-! ### The encoders of the other calls -/

/-- The directory is a C string: it ends before the first zero byte. -/
def encodeRequestRootContextInit (maxDatabaseSize : BitVec 64) (datadir : Bytes) : Bytes :=
  be 4 Method.llRootContextCreate.code ++
    (be 8 maxDatabaseSize ++ datadir.takeWhile (· != 0))

def encodeRequestRootContextReduceCaps (caps : Bitcap) : Bytes :=
  be 4 Method.llRootContextReduceCaps.code ++ (be 4 caps).reverse

def encodeRequestGlobalSettingsGet (child : BitVec 32) (key : BitVec 64) : Bytes :=
  requestPacket .appGlobalSettingRead child (be 8 key)

def encodeRequestGlobalSettingsSet (child : BitVec 32) (key : BitVec 64) (val : Bytes) : Bytes :=
  requestPacket .appGlobalSettingWrite child (be 8 key ++ val)

def encodeRequestTransactionSubmit (child : BitVec 32) (txnId artifactId : Uuid) (val : Bytes) :
    Bytes :=
  requestPacket .appPqTransactionSubmit child (be 16 txnId ++ (be 16 artifactId ++ val))

def encodeRequestTransactionDrop (child : BitVec 32) (txnId : Uuid) : Bytes :=
  requestPacket .appPqTransactionDrop child (be 16 txnId)

def encodeRequestTransactionPromote (child : BitVec 32) (txnId : Uuid) : Bytes :=
  requestPacket .appPqTransactionPromote child (be 16 txnId)

def encodeRequestArtifactGet (child : BitVec 32) (artifactId : Uuid) : Bytes :=
  requestPacket .appArtifactRead child (be 16 artifactId)

def encodeRequestBlockIdByHeightGet (child : BitVec 32) (height : BitVec 64) : Bytes :=
  requestPacket .appBlockIdByHeightRead child (be 8 height)

def encodeRequestCanonizedTransactionGet (child : BitVec 32) (txnId : Uuid) (readCert : Bool) :
    Bytes :=
  requestPacket .appTransactionRead child (be 16 txnId ++ [if readCert then 1 else 0])

/-! ### Requests -/

inductive ClientRequest where
  | rootContextInit (maxDatabaseSize : BitVec 64) (datadir : Bytes)
  | rootContextReduceCaps (caps : Bitcap)
  | childContextCreate (caps : Bitcap)
  | childContextClose (child : BitVec 32)
  | globalSettingsGet (child : BitVec 32) (key : BitVec 64)
  | globalSettingsSet (child : BitVec 32) (key : BitVec 64) (val : Bytes)
  | transactionSubmit (child : BitVec 32) (txnId artifactId : Uuid) (val : Bytes)
  | transactionGetFirst (child : BitVec 32)
  | transactionGet (child : BitVec 32) (txnId : Uuid)
  | transactionDrop (child : BitVec 32) (txnId : Uuid)
  | transactionPromote (child : BitVec 32) (txnId : Uuid)
  | artifactGet (child : BitVec 32) (artifactId : Uuid)
  | blockMake (child : BitVec 32) (blockId : Uuid) (blockCert : Bytes)
  | blockGet (child : BitVec 32) (blockId : Uuid) (readCert : Bool)
  | blockIdByHeightGet (child : BitVec 32) (height : BitVec 64)
  | latestBlockIdGet (child : BitVec 32)
  | canonizedTransactionGet (child : BitVec 32) (txnId : Uuid) (readCert : Bool)
  deriving DecidableEq

namespace ClientRequest

def method : ClientRequest → Method
  | rootContextInit .. => .llRootContextCreate
  | rootContextReduceCaps .. => .llRootContextReduceCaps
  | childContextCreate .. => .llChildContextCreate
  | childContextClose .. => .llChildContextClose
  | globalSettingsGet .. => .appGlobalSettingRead
  | globalSettingsSet .. => .appGlobalSettingWrite
  | transactionSubmit .. => .appPqTransactionSubmit
  | transactionGetFirst .. => .appPqTransactionFirstRead
  | transactionGet .. => .appPqTransactionRead
  | transactionDrop .. => .appPqTransactionDrop
  | transactionPromote .. => .appPqTransactionPromote
  | artifactGet .. => .appArtifactRead
  | blockMake .. => .appBlockWrite
  | blockGet .. => .appBlockRead
  | blockIdByHeightGet .. => .appBlockIdByHeightRead
  | latestBlockIdGet .. => .appBlockIdLatestRead
  | canonizedTransactionGet .. => .appTransactionRead

def encode : ClientRequest → Bytes
  | rootContextInit size datadir => encodeRequestRootContextInit size datadir
  | rootContextReduceCaps caps => encodeRequestRootContextReduceCaps caps
  | childContextCreate caps => encodeRequestChildContextCreate caps
  | childContextClose child => encodeRequestChildContextClose child
  | globalSettingsGet child key => encodeRequestGlobalSettingsGet child key
  | globalSettingsSet child key val => encodeRequestGlobalSettingsSet child key val
  | transactionSubmit child id artifact val => encodeRequestTransactionSubmit child id artifact val
  | transactionGetFirst child => encodeRequestTransactionGetFirst child
  | transactionGet child id => encodeRequestTransactionGet child id
  | transactionDrop child id => encodeRequestTransactionDrop child id
  | transactionPromote child id => encodeRequestTransactionPromote child id
  | artifactGet child id => encodeRequestArtifactGet child id
  | blockMake child id cert => encodeRequestBlockMake child id cert
  | blockGet child id readCert => encodeRequestBlockGet child id readCert
  | blockIdByHeightGet child height => encodeRequestBlockIdByHeightGet child height
  | latestBlockIdGet child => encodeRequestLatestBlockIdGet child
  | canonizedTransactionGet child id readCert =>
    encodeRequestCanonizedTransactionGet child id readCert

def ofDecoded (r : DecodedRequest) : ClientRequest :=
  match r.request with
  | .globalSettingsGet key _ => globalSettingsGet r.childIndex key
  | .globalSettingsSet key val => globalSettingsSet r.childIndex key val
  | .transactionSubmit id artifact val => transactionSubmit r.childIndex id artifact val
  | .transactionDrop id => transactionDrop r.childIndex id
  | .transactionPromote id => transactionPromote r.childIndex id
  | .transactionGet id => transactionGet r.childIndex id
  | .transactionGetFirst => transactionGetFirst r.childIndex
  | .canonizedTransactionGet id => canonizedTransactionGet r.childIndex id r.readCert
  | .blockMake id cert => blockMake r.childIndex id cert
  | .blockGet id => blockGet r.childIndex id r.readCert
  | .latestBlockIdGet => latestBlockIdGet r.childIndex
  | .blockIdByHeightGet height => blockIdByHeightGet r.childIndex height
  | .artifactGet id => artifactGet r.childIndex id

end ClientRequest

/-! ### Decoding a packet -/

/-- All fields of a root context request; the directory is what is behind the size, zero bytes
included. -/
def decodeRootContextInitPayload (allocFails : Bool) (req : Bytes) :
    Except AgentdError (BitVec 64 × Bytes) :=
  if req.length ≤ 8 then .error .requestPacketInvalidSize
  else if allocFails then .error .outOfMemory
  else .ok (bits 64 (req.take 8), req.drop 8)

/-- The dispatcher uses the directory of the payload, as a C string. -/
theorem decodeRequestRootContextInit_eq (allocFails : Bool) (req : Bytes) :
    decodeRequestRootContextInit allocFails req =
      (decodeRootContextInitPayload allocFails req).map fun p => p.2.takeWhile (· != 0) := by
  unfold decodeRequestRootContextInit decodeRootContextInitPayload
  split
  · rfl
  · split
    · rfl
    · rfl

def decodePayload (allocFails : Bool) (req : Bytes) : Handler → Except AgentdError ClientRequest
  | .rootContextCreate =>
    (decodeRootContextInitPayload allocFails req).map fun p => .rootContextInit p.1 p.2
  | .rootContextReduceCaps => (decodeCaps req).map .rootContextReduceCaps
  | .childContextCreate => (decodeCaps req).map .childContextCreate
  | .childContextClose => (requestInit req).map fun p => .childContextClose p.1
  | .childRequest _ decode => (decode req).map .ofDecoded

def decodePacket (allocFails : Bool) (packet : Bytes) :
    Except AgentdError (BitVec 32 × ClientRequest) :=
  if packet.length < 4 then .error .requestPacketInvalidSize
  else
    let method := bits 32 (packet.take 4)
    match handlerOf method with
    | some h => (decodePayload allocFails (packet.drop 4) h).map fun r => (method, r)
    | none => .error .requestPacketBad

/-! ### What is encoded is decoded -/

/-- The field values of the client calls that their decoders take. The certificate of a transaction
and the data directory may not be empty. -/
def Encodable : ClientRequest → Prop
  | .rootContextInit _ datadir => datadir ≠ [] ∧ 0 ∉ datadir
  | .globalSettingsSet _ _ val => val ≠ []
  | .transactionSubmit _ _ _ val => val ≠ []
  | _ => True

section RoundTrip

variable {child : BitVec 32} {m : Method}

/-- Requests that carry one id and nothing else. -/
theorem encodes_id {mk : Uuid → Request}
    (hp : (m, decodeRequest (· == 16) (fun a => mk (uuidAt a 0)) noCert) ∈ childOperations)
    (child : BitVec 32) (id : Uuid) :
    Encodes (requestPacket m child (be 16 id)) m ⟨child, mk id, false⟩ := by
  refine ⟨_, be 16 id, hp, rfl, ?_⟩
  have hid := uuidAt_append id []
  rw [List.append_nil] at hid
  rw [decodeRequest_append _ _ (by simp), hid]
  rfl

theorem encodes_transactionDrop (child : BitVec 32) (id : Uuid) :
    Encodes (encodeRequestTransactionDrop child id) .appPqTransactionDrop
      ⟨child, .transactionDrop id, false⟩ :=
  encodes_id (by simp [childOperations, decodeRequestTransactionDrop]) child id

theorem encodes_transactionPromote (child : BitVec 32) (id : Uuid) :
    Encodes (encodeRequestTransactionPromote child id) .appPqTransactionPromote
      ⟨child, .transactionPromote id, false⟩ :=
  encodes_id (by simp [childOperations, decodeRequestTransactionPromote]) child id

theorem encodes_artifactGet (child : BitVec 32) (id : Uuid) :
    Encodes (encodeRequestArtifactGet child id) .appArtifactRead
      ⟨child, .artifactGet id, false⟩ :=
  encodes_id (by simp [childOperations, decodeRequestArtifactRead]) child id

theorem encodes_globalSettingsGet (child : BitVec 32) (key : BitVec 64) :
    Encodes (encodeRequestGlobalSettingsGet child key) .appGlobalSettingRead
      ⟨child, .globalSettingsGet key globalSettingBuffer, false⟩ := by
  refine ⟨decodeRequestGlobalSettingGet, be 8 key, by simp [childOperations], rfl, ?_⟩
  rw [decodeRequestGlobalSettingGet, decodeRequest_append _ _ (by simp),
    bits_be (n := 8) (w := 64) rfl]
  rfl

theorem encodes_blockIdByHeightGet (child : BitVec 32) (height : BitVec 64) :
    Encodes (encodeRequestBlockIdByHeightGet child height) .appBlockIdByHeightRead
      ⟨child, .blockIdByHeightGet height, false⟩ := by
  refine ⟨decodeRequestBlockIdByHeightRead, be 8 height, by simp [childOperations], rfl, ?_⟩
  rw [decodeRequestBlockIdByHeightRead, decodeRequest_append _ _ (by simp),
    bits_be (n := 8) (w := 64) rfl]
  rfl

theorem encodes_globalSettingsSet (child : BitVec 32) (key : BitVec 64) {val : Bytes}
    (hval : val ≠ []) :
    Encodes (encodeRequestGlobalSettingsSet child key val) .appGlobalSettingWrite
      ⟨child, .globalSettingsSet key val, false⟩ := by
  have hpos := List.length_pos_iff.mpr hval
  refine ⟨decodeRequestGlobalSettingSet, _, by simp [childOperations], rfl, ?_⟩
  rw [decodeRequestGlobalSettingSet, decodeRequest_append _ _ (by simpa using hpos),
    List.take_left' (length_be 8 _), List.drop_left' (length_be 8 _),
    bits_be (n := 8) (w := 64) rfl]
  rfl

theorem encodes_transactionSubmit (child : BitVec 32) (txnId artifactId : Uuid) {val : Bytes}
    (hval : val ≠ []) :
    Encodes (encodeRequestTransactionSubmit child txnId artifactId val) .appPqTransactionSubmit
      ⟨child, .transactionSubmit txnId artifactId val, false⟩ := by
  have hpos := List.length_pos_iff.mpr hval
  refine ⟨decodeRequestTransactionSubmit, _, by simp [childOperations], rfl, ?_⟩
  have hsize : (be 16 txnId ++ (be 16 artifactId ++ val)).length = 32 + val.length := by
    simp only [List.length_append, length_be]
    omega
  have hartifact : uuidAt (be 16 txnId ++ (be 16 artifactId ++ val)) 16 = artifactId := by
    rw [uuidAt, slice_append_skip _ _ _ (by simp), length_be]
    exact uuidAt_append artifactId val
  have hdrop : (be 16 txnId ++ (be 16 artifactId ++ val)).drop 32 = val := by
    rw [← List.append_assoc, List.drop_left' (by simp)]
  rw [decodeRequestTransactionSubmit, decodeRequest_append _ _ (by rw [hsize]; simpa using hpos),
    uuidAt_append, hartifact, hdrop]
  rfl

/-- The flag of a request that asks for the certificate or not. -/
theorem certFlag_append (id : Uuid) (flag : UInt8) :
    certFlag (be 16 id ++ [flag]) = (flag != 0) := by
  rw [certFlag, List.getD_eq_getElem?_getD, List.getElem?_append_right (by simp), length_be]
  rfl

theorem encodes_canonizedTransactionGet (child : BitVec 32) (id : Uuid) (readCert : Bool) :
    Encodes (encodeRequestCanonizedTransactionGet child id readCert) .appTransactionRead
      ⟨child, .canonizedTransactionGet id, readCert⟩ := by
  refine ⟨decodeRequestCanonizedTransactionGet, _, by simp [childOperations], rfl, ?_⟩
  rw [decodeRequestCanonizedTransactionGet, decodeRequest_append _ _ (by simp), uuidAt_append,
    certFlag_append]
  cases readCert with
  | false => rfl
  | true => rfl

/-- The handler of a known method decodes what is behind the method. -/
theorem decodePacket_append {handler : Handler} (hm : handlerOf m.code = some handler)
    (allocFails : Bool) (req : Bytes) :
    decodePacket allocFails (be 4 m.code ++ req) =
      (decodePayload allocFails req handler).map fun r => (m.code, r) := by
  have hlen : ¬ (be 4 m.code ++ req).length < 4 := by simp
  rw [decodePacket, if_neg hlen, List.drop_left' (length_be 4 _)]
  simp only [bits_method, hm]

theorem decodePacket_operation {packet : Bytes} {r : DecodedRequest} (he : Encodes packet m r)
    (allocFails : Bool) : decodePacket allocFails packet = .ok (m.code, .ofDecoded r) := by
  obtain ⟨decode, args, hp, rfl, hr⟩ := he
  have hm : handlerOf m.code = some (.childRequest m decode) := handlerOf_operation hp
  rw [requestPacket, decodePacket_append hm, decodePayload, hr]
  rfl

theorem decodeCaps_encoded (caps : Bitcap) : decodeCaps (be 4 caps).reverse = .ok caps := by
  have hlen : ¬ (be 4 caps).reverse.length ≠ 4 := by simp
  rw [decodeCaps, if_neg hlen, List.reverse_reverse, bits_be (n := 4) (w := 32) rfl]

theorem decodeRootContextInitPayload_encoded (size : BitVec 64) {datadir : Bytes}
    (hdir : datadir ≠ []) :
    decodeRootContextInitPayload false (be 8 size ++ datadir) = .ok (size, datadir) := by
  have hpos := List.length_pos_iff.mpr hdir
  have hlen : ¬ (be 8 size ++ datadir).length ≤ 8 := by
    rw [List.length_append, length_be]
    omega
  rw [decodeRootContextInitPayload, if_neg hlen, List.take_left' (length_be 8 _),
    List.drop_left' (length_be 8 _), bits_be (n := 8) (w := 64) rfl]
  rfl

theorem takeWhile_cString {s : Bytes} (h : 0 ∉ s) : s.takeWhile (· != 0) = s := by
  rw [List.takeWhile_eq_self_iff]
  intro b hb
  have hne : b ≠ 0 := fun h0 => h (h0 ▸ hb)
  exact bne_iff_ne.mpr hne

theorem decodePacket_encode {r : ClientRequest} (h : Encodable r) :
    decodePacket false r.encode = .ok (r.method.code, r) := by
  cases r with
  | rootContextInit size datadir =>
    obtain ⟨hdir, hzero⟩ := h
    rw [ClientRequest.encode, encodeRequestRootContextInit, takeWhile_cString hzero,
      decodePacket_append rfl, decodePayload, decodeRootContextInitPayload_encoded size hdir]
    rfl
  | rootContextReduceCaps caps =>
    rw [ClientRequest.encode, encodeRequestRootContextReduceCaps, decodePacket_append rfl,
      decodePayload, decodeCaps_encoded]
    rfl
  | childContextCreate caps =>
    rw [ClientRequest.encode, encodeRequestChildContextCreate, decodePacket_append rfl,
      decodePayload, decodeCaps_encoded]
    rfl
  | childContextClose child =>
    rw [ClientRequest.encode, encodeRequestChildContextClose, requestPacket,
      decodePacket_append rfl, decodePayload, requestInit_append]
    rfl
  | globalSettingsGet child key =>
    exact decodePacket_operation (encodes_globalSettingsGet child key) false
  | globalSettingsSet child key val =>
    exact decodePacket_operation (encodes_globalSettingsSet child key h) false
  | transactionSubmit child id artifact val =>
    exact decodePacket_operation (encodes_transactionSubmit child id artifact h) false
  | transactionGetFirst child =>
    exact decodePacket_operation (encodes_transactionGetFirst child) false
  | transactionGet child id => exact decodePacket_operation (encodes_transactionGet child id) false
  | transactionDrop child id =>
    exact decodePacket_operation (encodes_transactionDrop child id) false
  | transactionPromote child id =>
    exact decodePacket_operation (encodes_transactionPromote child id) false
  | artifactGet child id => exact decodePacket_operation (encodes_artifactGet child id) false
  | blockMake child id cert => exact decodePacket_operation (encodes_blockMake child id cert) false
  | blockGet child id readCert =>
    exact decodePacket_operation (encodes_blockGet child id readCert) false
  | blockIdByHeightGet child height =>
    exact decodePacket_operation (encodes_blockIdByHeightGet child height) false
  | latestBlockIdGet child => exact decodePacket_operation (encodes_latestBlockIdGet child) false
  | canonizedTransactionGet child id readCert =>
    exact decodePacket_operation (encodes_canonizedTransactionGet child id readCert) false

end RoundTrip

/-! ### What is decoded lies in the packet -/

namespace ClientRequest

/-- The bytes behind the method that hold the fields, in their order. A flag is one byte. -/
def fields (flag : UInt8) : ClientRequest → Bytes
  | rootContextInit size datadir => be 8 size ++ datadir
  | rootContextReduceCaps caps => (be 4 caps).reverse
  | childContextCreate caps => (be 4 caps).reverse
  | childContextClose child => be 4 child
  | globalSettingsGet child key => be 4 child ++ be 8 key
  | globalSettingsSet child key val => be 4 child ++ (be 8 key ++ val)
  | transactionSubmit child id artifact val =>
    be 4 child ++ (be 16 id ++ (be 16 artifact ++ val))
  | transactionGetFirst child => be 4 child
  | transactionGet child id => be 4 child ++ be 16 id
  | transactionDrop child id => be 4 child ++ be 16 id
  | transactionPromote child id => be 4 child ++ be 16 id
  | artifactGet child id => be 4 child ++ be 16 id
  | blockMake child id cert => be 4 child ++ (be 16 id ++ cert)
  | blockGet child id _ => be 4 child ++ (be 16 id ++ [flag])
  | blockIdByHeightGet child height => be 4 child ++ be 8 height
  | latestBlockIdGet child => be 4 child
  | canonizedTransactionGet child id _ => be 4 child ++ (be 16 id ++ [flag])

/-- Whether the certificate was asked for, in the two requests that say so. -/
def readCert : ClientRequest → Option Bool
  | blockGet _ _ readCert => some readCert
  | canonizedTransactionGet _ _ readCert => some readCert
  | _ => none

/-- Requests of a child index alone; their decoders do not look at what is behind it. -/
def ignoresRest : ClientRequest → Bool
  | childContextClose _ => true
  | transactionGetFirst _ => true
  | latestBlockIdGet _ => true
  | _ => false

end ClientRequest

/-- The request is made of the bytes `req`, all of them where the decoder looks at all. -/
def MadeOf (r : ClientRequest) (req : Bytes) : Prop :=
  ∃ flag ignored, req = r.fields flag ++ ignored ∧
    (∀ readCert, r.readCert = some readCert → readCert = (flag != 0)) ∧
    (r.ignoresRest = false → ignored = [])

section Inside

variable {req args : Bytes} {r : ClientRequest}

theorem madeOf_fields (flag : UInt8) (hfields : req = r.fields flag) (hcert : r.readCert = none) :
    MadeOf r req := by
  refine ⟨flag, [], ?_, ?_, fun _ => rfl⟩
  · rw [hfields, List.append_nil]
  · rw [hcert]
    rintro _ ⟨⟩

theorem requestInit_ok {child : BitVec 32} (h : requestInit req = .ok (child, args)) :
    req = be 4 child ++ args := by
  unfold requestInit at h
  split at h
  · cases h
  · cases h
    rename_i hlen
    rw [be_bits (n := 4) (w := 32) rfl (by rw [List.length_take]; omega), List.take_append_drop]

theorem uuid_append_rest (args : Bytes) (h : 16 ≤ args.length) :
    args = be 16 (uuidAt args 0) ++ args.drop 16 := by
  have hlen : (args.take 16).length = 16 := by
    rw [List.length_take]
    omega
  have hid : be 16 (uuidAt args 0) = args.take 16 := be_bits (n := 16) (w := 128) rfl hlen
  rw [hid, List.take_append_drop]

theorem eq_uuid (h : args.length = 16) : args = be 16 (uuidAt args 0) := by
  have hsplit := uuid_append_rest args (by omega)
  rwa [List.drop_eq_nil_of_le (by omega), List.append_nil] at hsplit

/-- An id with one byte behind it, read as the certificate flag. -/
theorem eq_uuid_flag (args : Bytes) (h : args.length = 17) :
    ∃ flag, args = be 16 (uuidAt args 0) ++ [flag] ∧ certFlag args = (flag != 0) := by
  have hsplit := uuid_append_rest args (by omega)
  obtain ⟨flag, hflag⟩ := List.length_eq_one_iff.mp (show (args.drop 16).length = 1 by
    rw [List.length_drop]
    omega)
  rw [hflag] at hsplit
  refine ⟨flag, hsplit, ?_⟩
  conv_lhs => rw [hsplit]
  exact certFlag_append _ flag

theorem madeOf_decoded {sizeOk : ℕ → Bool} {request : Bytes → Request} {readCert : Bytes → Bool}
    {d : DecodedRequest} (hd : decodeRequest sizeOk request readCert req = .ok d)
    (hmade : ∀ child args, sizeOk args.length = true →
      MadeOf (.ofDecoded ⟨child, request args, readCert args⟩) (be 4 child ++ args)) :
    MadeOf (.ofDecoded d) req := by
  obtain ⟨args, hinit, hsize, hrequest, hcert⟩ := decodeRequest_ok hd
  have hmade := hmade d.childIndex args hsize
  rw [← requestInit_ok hinit, ← hrequest, ← hcert] at hmade
  exact hmade

/-- Requests of a child index, with anything behind it. -/
theorem madeOf_childIndex {r : Request} {d : DecodedRequest}
    (hd : decodeRequest (fun _ => true) (fun _ => r) noCert req = .ok d)
    (hr : ∀ child, (ClientRequest.ofDecoded ⟨child, r, false⟩).fields 0 = be 4 child ∧
      (ClientRequest.ofDecoded ⟨child, r, false⟩).readCert = none ∧
      (ClientRequest.ofDecoded ⟨child, r, false⟩).ignoresRest = true) :
    MadeOf (.ofDecoded d) req := by
  refine madeOf_decoded hd fun child args _ => ?_
  obtain ⟨hfields, hcert, hrest⟩ := hr child
  refine ⟨0, args, ?_, ?_, ?_⟩
  · exact congrArg (· ++ args) hfields.symm
  · intro readCert h
    cases hcert.symm.trans h
  · intro h
    cases hrest.symm.trans h

/-- Requests of one id. -/
theorem madeOf_id {f : Uuid → Request} {d : DecodedRequest}
    (hd : decodeRequest (· == 16) (fun a => f (uuidAt a 0)) noCert req = .ok d)
    (hf : ∀ child id, (ClientRequest.ofDecoded ⟨child, f id, false⟩).fields 0 =
      be 4 child ++ be 16 id ∧ (ClientRequest.ofDecoded ⟨child, f id, false⟩).readCert = none) :
    MadeOf (.ofDecoded d) req := by
  refine madeOf_decoded hd fun child args hsize => ?_
  obtain ⟨hfields, hcert⟩ := hf child (uuidAt args 0)
  refine madeOf_fields 0 ?_ hcert
  have hargs : args = be 16 (uuidAt args 0) := eq_uuid (by simpa using hsize)
  conv_lhs => rw [hargs]
  exact hfields.symm

/-- Requests of one number of eight bytes. -/
theorem madeOf_number {f : BitVec 64 → Request} {d : DecodedRequest}
    (hd : decodeRequest (· == 8) (fun a => f (bits 64 a)) noCert req = .ok d)
    (hf : ∀ child n, (ClientRequest.ofDecoded ⟨child, f n, false⟩).fields 0 =
      be 4 child ++ be 8 n ∧ (ClientRequest.ofDecoded ⟨child, f n, false⟩).readCert = none) :
    MadeOf (.ofDecoded d) req := by
  refine madeOf_decoded hd fun child args hsize => ?_
  obtain ⟨hfields, hcert⟩ := hf child (bits 64 args)
  refine madeOf_fields 0 ?_ hcert
  have hargs : be 8 (bits 64 args) = args := be_bits (n := 8) rfl (by simpa using hsize)
  rw [hargs] at hfields
  exact hfields.symm

/-- Requests of an id and a certificate flag. -/
theorem madeOf_flagged {f : Uuid → Request} {d : DecodedRequest}
    (hd : decodeRequest (· == 17) (fun a => f (uuidAt a 0)) certFlag req = .ok d)
    (hf : ∀ child id flag b, (ClientRequest.ofDecoded ⟨child, f id, b⟩).fields flag =
      be 4 child ++ (be 16 id ++ [flag]) ∧
      (ClientRequest.ofDecoded ⟨child, f id, b⟩).readCert = some b) :
    MadeOf (.ofDecoded d) req := by
  refine madeOf_decoded hd fun child args hsize => ?_
  obtain ⟨flag, hargs, hflag⟩ := eq_uuid_flag args (by simpa using hsize)
  obtain ⟨hfields, hcert⟩ := hf child (uuidAt args 0) flag (certFlag args)
  refine ⟨flag, [], ?_, ?_, fun _ => rfl⟩
  · rw [hfields, ← hargs, List.append_nil]
  · intro readCert h
    rw [hcert] at h
    rw [← Option.some.inj h, hflag]

theorem madeOf_globalSettingSet {d : DecodedRequest}
    (hd : decodeRequestGlobalSettingSet req = .ok d) : MadeOf (.ofDecoded d) req := by
  refine madeOf_decoded hd fun child args hsize => madeOf_fields 0 ?_ rfl
  have hlen : (args.take 8).length = 8 := by
    have := of_decide_eq_true hsize
    rw [List.length_take]
    omega
  have hkey : be 8 (bits 64 (args.take 8)) = args.take 8 := be_bits (n := 8) rfl hlen
  simp only [ClientRequest.ofDecoded, ClientRequest.fields]
  rw [hkey, List.take_append_drop]

theorem madeOf_transactionSubmit {d : DecodedRequest}
    (hd : decodeRequestTransactionSubmit req = .ok d) : MadeOf (.ofDecoded d) req := by
  refine madeOf_decoded hd fun child args hsize => madeOf_fields 0 ?_ rfl
  have hlen := of_decide_eq_true hsize
  have hid := uuid_append_rest args (by omega)
  have hartifact := uuid_append_rest (args.drop 16) (by rw [List.length_drop]; omega)
  rw [List.drop_drop] at hartifact
  simp only [ClientRequest.ofDecoded, ClientRequest.fields]
  conv_lhs => rw [hid, hartifact]
  rfl

theorem madeOf_blockMake {d : DecodedRequest} (hd : decodeRequestBlockMake req = .ok d) :
    MadeOf (.ofDecoded d) req := by
  refine madeOf_decoded hd fun child args hsize => madeOf_fields 0 ?_ rfl
  have hid := uuid_append_rest args (of_decide_eq_true hsize)
  simp only [ClientRequest.ofDecoded, ClientRequest.fields]
  conv_lhs => rw [hid]

/-- The fields of the operations cover their arguments. -/
theorem madeOf_operation {p : Method × (Bytes → Except AgentdError DecodedRequest)}
    (hp : p ∈ childOperations) {d : DecodedRequest} (hd : p.2 req = .ok d) :
    MadeOf (.ofDecoded d) req := by
  simp only [childOperations, List.mem_cons, List.not_mem_nil, or_false] at hp
  rcases hp with rfl | rfl | rfl | rfl | rfl | rfl | rfl | rfl | rfl | rfl | rfl | rfl | rfl
  · exact madeOf_number (f := fun key => .globalSettingsGet key globalSettingBuffer) hd
      fun _ _ => ⟨rfl, rfl⟩
  · exact madeOf_globalSettingSet hd
  · exact madeOf_transactionSubmit hd
  · exact madeOf_childIndex (r := .transactionGetFirst) hd fun _ => ⟨rfl, rfl, rfl⟩
  · exact madeOf_id hd fun _ _ => ⟨rfl, rfl⟩
  · exact madeOf_id hd fun _ _ => ⟨rfl, rfl⟩
  · exact madeOf_id hd fun _ _ => ⟨rfl, rfl⟩
  · exact madeOf_id hd fun _ _ => ⟨rfl, rfl⟩
  · exact madeOf_blockMake hd
  · exact madeOf_flagged hd fun _ _ _ _ => ⟨rfl, rfl⟩
  · exact madeOf_number hd fun _ _ => ⟨rfl, rfl⟩
  · exact madeOf_childIndex (r := .latestBlockIdGet) hd fun _ => ⟨rfl, rfl, rfl⟩
  · exact madeOf_flagged hd fun _ _ _ _ => ⟨rfl, rfl⟩

/-- The method of an operation has the number of the capability bit it checks. -/
theorem method_ofDecoded (d : DecodedRequest) :
    (ClientRequest.ofDecoded d).method.ctorIdx = d.request.capability.ctorIdx := by
  obtain ⟨child, request, readCert⟩ := d
  cases request <;> rfl

theorem eq_reverse_caps {caps : Bitcap} (h : decodeCaps req = .ok caps) :
    req = (be 4 caps).reverse := by
  unfold decodeCaps at h
  split at h
  · cases h
  · rename_i hlen
    cases h
    have hbits : be 4 (bits 32 req.reverse) = req.reverse :=
      be_bits (n := 4) rfl (by rw [List.length_reverse]; omega)
    rw [hbits, List.reverse_reverse]

theorem eq_rootContextInit {allocFails : Bool} {p : BitVec 64 × Bytes}
    (h : decodeRootContextInitPayload allocFails req = .ok p) : req = be 8 p.1 ++ p.2 := by
  unfold decodeRootContextInitPayload at h
  split at h
  · cases h
  · rename_i hlen
    split at h
    · cases h
    · cases h
      have hbits : be 8 (bits 64 (req.take 8)) = req.take 8 :=
        be_bits (n := 8) rfl (by rw [List.length_take]; omega)
      rw [hbits, List.take_append_drop]

theorem map_ok {ε α β : Type} {f : α → β} {e : Except ε α} {b : β} (h : e.map f = .ok b) :
    ∃ a, e = .ok a ∧ b = f a := by
  cases e with
  | error e => cases h
  | ok a => exact ⟨a, rfl, (Except.ok.inj h).symm⟩

theorem decodePayload_ok {allocFails : Bool} {code : BitVec 32} {handler : Handler}
    (hcode : handlerOf code = some handler) (h : decodePayload allocFails req handler = .ok r) :
    code = r.method.code ∧ MadeOf r req := by
  rcases handlerOf_cases hcode with ⟨rfl, rfl⟩ | ⟨rfl, rfl⟩ | ⟨rfl, rfl⟩ | ⟨rfl, rfl⟩ |
    ⟨p, hp, rfl, rfl⟩
  · obtain ⟨p, hp, rfl⟩ := map_ok h
    exact ⟨rfl, madeOf_fields 0 (eq_rootContextInit hp) rfl⟩
  · obtain ⟨caps, hcaps, rfl⟩ := map_ok h
    exact ⟨rfl, madeOf_fields 0 (eq_reverse_caps hcaps) rfl⟩
  · obtain ⟨caps, hcaps, rfl⟩ := map_ok h
    exact ⟨rfl, madeOf_fields 0 (eq_reverse_caps hcaps) rfl⟩
  · obtain ⟨⟨child, rest⟩, hinit, rfl⟩ := map_ok h
    refine ⟨rfl, 0, rest, requestInit_ok hinit, ?_, ?_⟩
    · rintro _ ⟨⟩
    · rintro ⟨⟩
  · obtain ⟨d, hd, rfl⟩ := map_ok h
    have hmethod := (childOperations_capability hp hd).symm.trans (method_ofDecoded d).symm
    exact ⟨congrArg (BitVec.ofNat 32) hmethod, madeOf_operation hp hd⟩

theorem decodePacket_ok {allocFails : Bool} {packet : Bytes} {code : BitVec 32}
    (h : decodePacket allocFails packet = .ok (code, r)) :
    code = r.method.code ∧ ∃ req, packet = be 4 code ++ req ∧ MadeOf r req := by
  unfold decodePacket at h
  split at h
  · cases h
  · rename_i hlen
    simp only at h
    split at h
    · rename_i handler hhandler
      obtain ⟨r', hr, heq⟩ := map_ok h
      obtain ⟨rfl, rfl⟩ := Prod.mk.inj heq
      obtain ⟨hcode, hmade⟩ := decodePayload_ok hhandler hr
      have hbits : be 4 (bits 32 (packet.take 4)) = packet.take 4 :=
        be_bits (n := 4) rfl (by rw [List.length_take]; omega)
      refine ⟨hcode, packet.drop 4, ?_, hmade⟩
      rw [hbits, List.take_append_drop]
    · cases h

end Inside

/-- What a client call encodes is decoded to the same method and fields, whenever the decoder takes
the value; and whatever packet is accepted consists of its method, the fields it is decoded to and,
in requests of a child index alone, bytes nobody looks at. -/
theorem decoded_requests_are_the_encoded :
    (∀ r, Encodable r → decodePacket false r.encode = .ok (r.method.code, r)) ∧
    ∀ allocFails packet code r, decodePacket allocFails packet = .ok (code, r) →
      code = r.method.code ∧ ∃ req, packet = be 4 code ++ req ∧ MadeOf r req :=
  ⟨fun _ h => decodePacket_encode h, fun _ _ _ _ h => decodePacket_ok h⟩

/-- A transaction submitted with a certificate of one byte, decoded and taken apart. -/
theorem submitted_byte_is_decoded :
    decodePacket false (ClientRequest.transactionSubmit 3 7 9 [42]).encode =
        .ok (Method.appPqTransactionSubmit.code, .transactionSubmit 3 7 9 [42]) ∧
      ∃ req, (ClientRequest.transactionSubmit 3 7 9 [42]).encode =
        be 4 Method.appPqTransactionSubmit.code ++ req ∧
        MadeOf (.transactionSubmit 3 7 9 [42]) req := by
  have hdecoded := decoded_requests_are_the_encoded.1 (.transactionSubmit 3 7 9 [42])
    (List.cons_ne_nil 42 [])
  exact ⟨hdecoded, (decoded_requests_are_the_encoded.2 _ _ _ _ hdecoded).2⟩

/-- The client encodes an empty transaction certificate, and the decoder refuses it. -/
theorem empty_certificate_is_refused :
    decodePacket false (ClientRequest.transactionSubmit 3 7 9 []).encode =
      .error .requestPacketInvalidSize := by
  decide +kernel

end RequestCodec
