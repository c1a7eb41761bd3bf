import Agentd.CapabilityConfinement

/-! # The client side of the data service

The request packets a client writes and what it reads from the responses. An operation request that
reaches the data service as it was encoded is performed on the open database, or refused. -/
namespace DataserviceClient

open ByteString
open FaultyTransactions
open DataserviceRecords
open DataserviceStore
open DataserviceRequests
open DataserviceDispatch
open CapabilityConfinement

/-! ### Requests -/

def requestPacket (m : Method) (child : BitVec 32) (args : Bytes) : Bytes :=
  be 4 m.code ++ (be 4 child ++ args)

def encodeRequestChildContextCreate (caps : Bitcap) : Bytes :=
  be 4 Method.llChildContextCreate.code ++ (be 4 caps).reverse

def encodeRequestChildContextClose (child : BitVec 32) : Bytes :=
  requestPacket .llChildContextClose child []

def encodeRequestLatestBlockIdGet (child : BitVec 32) : Bytes :=
  requestPacket .appBlockIdLatestRead child []

def encodeRequestBlockGet (child : BitVec 32) (blockId : Uuid) (readCert : Bool) : Bytes :=
  requestPacket .appBlockRead child (be 16 blockId ++ [if readCert then 1 else 0])

def encodeRequestTransactionGetFirst (child : BitVec 32) : Bytes :=
  requestPacket .appPqTransactionFirstRead child []

def encodeRequestTransactionGet (child : BitVec 32) (txnId : Uuid) : Bytes :=
  requestPacket .appPqTransactionRead child (be 16 txnId)

def encodeRequestBlockMake (child : BitVec 32) (blockId : Uuid) (blockCert : Bytes) : Bytes :=
  requestPacket .appBlockWrite child (be 16 blockId ++ blockCert)

/-- Clients have no larger one submitted. -/
def maxTransactionCertificateSize : ℕ := 32767

/-! ### Responses -/

/-- The data of a response: nothing when the packet is not as it should be, the status when that
is an error. -/
def decodeResponse {α : Type} (m : Method) (size : ℕ) (data : Bytes → α) (r : Response) :
    Option (Except AgentdError α) :=
  if r.method ≠ m.code then none
  else match r.status with
    | .error e => some (.error e)
    | .ok () =>
      let payload := r.payload.getD []
      if payload.length < size then none else some (.ok (data payload))

def decodeResponseChildContextCreate : Response → Option (Except AgentdError (BitVec 32)) :=
  decodeResponse .llChildContextCreate 4 fun p => bits 32 (slice p 0 4)

def decodeResponseLatestBlockIdGet : Response → Option (Except AgentdError Uuid) :=
  decodeResponse .appBlockIdLatestRead 16 fun p => uuidAt p 0

def decodeResponseBlockGet : Response → Option (Except AgentdError (DataBlockNode × Bytes)) :=
  decodeResponse .appBlockRead 72 fun p =>
    (⟨uuidAt p 0, uuidAt p 16, uuidAt p 32, uuidAt p 48, bits 64 (slice p 64 8),
      BitVec.ofNat 64 (p.drop 72).length⟩, p.drop 72)

/-- The block id of the node is not part of the packet and stays zero. -/
def transactionOfPayload (p : Bytes) : DataTransactionNode × Bytes :=
  (⟨uuidAt p 0, uuidAt p 16, uuidAt p 32, uuidAt p 48, zeroUuid,
    BitVec.ofNat 64 (p.drop 68).length, bits 32 (slice p 64 4)⟩, p.drop 68)

def decodeResponseTransactionGetFirst :
    Response → Option (Except AgentdError (DataTransactionNode × Bytes)) :=
  decodeResponse .appPqTransactionFirstRead 68 transactionOfPayload

def decodeResponseTransactionGet :
    Response → Option (Except AgentdError (DataTransactionNode × Bytes)) :=
  decodeResponse .appPqTransactionRead 68 transactionOfPayload

/-! ### Round trips -/

section Codec

variable {E : Env} {s s' : Service} {d : Delivery} {resp : Option Response}
  {st : Except AgentdError Unit} {child : BitVec 32} {args : Bytes}

theorem bits_method (m : Method) (rest : Bytes) :
    bits 32 ((be 4 m.code ++ rest).take 4) = m.code := by
  rw [List.take_left' (length_be 4 _), bits_be (n := 4) (w := 32) rfl]

theorem handlerOf_operation {p : Method × (Bytes → Except AgentdError DecodedRequest)}
    (hp : p ∈ childOperations) : handlerOf p.1.code = some (.childRequest p.1 p.2) := by
  simp only [childOperations, List.mem_cons, List.not_mem_nil, or_false] at hp
  rcases hp with rfl | rfl | rfl | rfl | rfl | rfl | rfl | rfl | rfl | rfl | rfl | rfl | rfl <;>
  rfl

theorem requestInit_append (child : BitVec 32) (args : Bytes) :
    requestInit (be 4 child ++ args) = .ok (child, args) := by
  have hlen : ¬ (be 4 child ++ args).length < 4 := by simp
  rw [requestInit, if_neg hlen, List.take_left' (length_be 4 _), List.drop_left' (length_be 4 _),
    bits_be (n := 4) (w := 32) rfl]

theorem decodeRequest_append {sizeOk : ℕ → Bool} (request : Bytes → Request)
    (readCert : Bytes → Bool) (h : sizeOk args.length = true) :
    decodeRequest sizeOk request readCert (be 4 child ++ args) =
      .ok ⟨child, request args, readCert args⟩ := by
  rw [decodeRequest, requestInit_append]
  simp only [bind, Except.bind, if_pos h]
  rfl

def Encodes (packet : Bytes) (m : Method) (r : DecodedRequest) : Prop :=
  ∃ decode args, (m, decode) ∈ childOperations ∧ packet = requestPacket m r.childIndex args ∧
    decode (be 4 r.childIndex ++ args) = .ok r

theorem encodes_latestBlockIdGet (child : BitVec 32) :
    Encodes (encodeRequestLatestBlockIdGet child) .appBlockIdLatestRead
      ⟨child, .latestBlockIdGet, false⟩ :=
  ⟨decodeRequestBlockIdLatestRead, [], by simp [childOperations], rfl, decodeRequest_append _ _ rfl⟩

theorem encodes_transactionGetFirst (child : BitVec 32) :
    Encodes (encodeRequestTransactionGetFirst child) .appPqTransactionFirstRead
      ⟨child, .transactionGetFirst, false⟩ :=
  ⟨decodeRequestTransactionGetFirst, [], by simp [childOperations], rfl,
    decodeRequest_append _ _ rfl⟩

theorem uuidAt_append (id : Uuid) (rest : Bytes) : uuidAt (be 16 id ++ rest) 0 = id := by
  rw [uuidAt, slice_append_self _ _ (length_be 16 _), bits_be (n := 16) (w := 128) rfl]

theorem encodes_transactionGet (child : BitVec 32) (txnId : Uuid) :
    Encodes (encodeRequestTransactionGet child txnId) .appPqTransactionRead
      ⟨child, .transactionGet txnId, false⟩ := by
  refine ⟨decodeRequestTransactionGet, be 16 txnId, by simp [childOperations], rfl, ?_⟩
  rw [decodeRequestTransactionGet, decodeRequest_append _ _ (by simp)]
  have hid := uuidAt_append txnId []
  rw [List.append_nil] at hid
  rw [hid]
  rfl

theorem encodes_blockGet (child : BitVec 32) (blockId : Uuid) (readCert : Bool) :
    Encodes (encodeRequestBlockGet child blockId readCert) .appBlockRead
      ⟨child, .blockGet blockId, readCert⟩ := by
  refine ⟨decodeRequestBlockRead, _, by simp [childOperations], rfl, ?_⟩
  have hflag : certFlag (be 16 blockId ++ [if readCert then 1 else 0]) = readCert := by
    rw [certFlag, List.getD_eq_getElem?_getD, List.getElem?_append_right (by simp), length_be]
    cases readCert <;> rfl
  rw [decodeRequestBlockRead, decodeRequest_append _ _ (by simp), uuidAt_append, hflag]

theorem encodes_blockMake (child : BitVec 32) (blockId : Uuid) (cert : Bytes) :
    Encodes (encodeRequestBlockMake child blockId cert) .appBlockWrite
      ⟨child, .blockMake blockId cert, false⟩ := by
  refine ⟨decodeRequestBlockMake, _, by simp [childOperations], rfl, ?_⟩
  rw [decodeRequestBlockMake, decodeRequest_append _ _ (by simp), uuidAt_append,
    List.drop_left' (length_be 16 _)]
  rfl

/-- An operation packet reaches the handler of its method. -/
theorem decodeAndDispatch_operation {m : Method} {r : DecodedRequest} (he : Encodes d.packet m r) :
    ∃ decode req, decode req = .ok r ∧
      decodeAndDispatch E s d = dispatchChildRequest m decode E s d req := by
  obtain ⟨decode, args, hp, hd, hr⟩ := he
  refine ⟨decode, _, hr, ?_⟩
  have hlen : ¬ d.packet.length < 4 := by simp [hd, requestPacket]
  have hdrop : d.packet.drop 4 = be 4 r.childIndex ++ args := by
    rw [hd, requestPacket, List.drop_left' (length_be 4 _)]
  rw [decodeAndDispatch, if_neg hlen, hdrop, hd, requestPacket]
  simp only [bits_method, handlerOf_operation hp]
  rfl

theorem performChild_opened {i : Fin maxChildContexts} {r : Request} {a : Reply} {dir : Bytes}
    (hdir : s.inst.details = .opened dir) (h : performChild E s i d r = (.ok a, s')) :
    ∃ store, perform E (s.disk dir) ⟨r, (s.inst.children i).childcaps, d.faults, d.commitFails⟩ =
      (.ok a, store) ∧ s' = { s with disk := Function.update s.disk dir store } := by
  unfold performChild at h
  simp only [hdir] at h
  split at h
  · rename_i datadir _ heq
    cases heq
    obtain ⟨hout, rfl⟩ := Prod.mk.inj h
    exact ⟨_, Prod.ext hout rfl, rfl⟩
  · exact (performUnopened_error E _ a (Prod.mk.inj h).1).elim

/-- The response a reply is sent as; an allocation of the payload may fail. -/
def Responds (d : Delivery) (m : Method) (r : DecodedRequest) (a : Reply) (resp : Response) :
    Prop :=
  resp.method = m.code ∧
    match encodeReply d.payloadAllocFails r a with
    | .error e => resp.status = .error e ∧ resp.payload = none
    | .ok payload => resp.status = .ok () ∧ resp.payload = payload

/-- An operation on the open database is refused or performed. -/
theorem served_operation {m : Method} {r : DecodedRequest} (he : Encodes d.packet m r)
    {dir : Bytes} (hdir : s.inst.details = .opened dir)
    (h : decodeAndDispatch E s d = some (s', resp, st)) :
    (s' = s ∧ ∀ q, resp = some q → q.method = m.code ∧ (∃ e, q.status = .error e)) ∨
    ∃ caps a store, perform E (s.disk dir) ⟨r.request, caps, d.faults, d.commitFails⟩ =
        (.ok a, store) ∧ s' = { s with disk := Function.update s.disk dir store } ∧
      ∀ q, resp = some q → Responds d m r a q := by
  obtain ⟨decode, req, hr, hdispatch⟩ := decodeAndDispatch_operation (E := E) (s := s) he
  rw [hdispatch, dispatchChildRequest, hr] at h
  simp only at h
  have hrefused : ∀ {off : BitVec 32} {e : AgentdError},
      writeStatus d s m.code off (.error e) none = some (s', resp, st) →
      s' = s ∧ ∀ q, resp = some q → q.method = m.code ∧ (∃ e, q.status = .error e) := by
    intro off e hw
    obtain ⟨hs, hq⟩ := writeStatus_cases hw
    exact ⟨hs, fun q hresp => ⟨(hq q hresp).1, e, (hq q hresp).2.1⟩⟩
  split at h
  · exact Or.inl (hrefused h)
  · rename_i i hi
    split at h
    · cases h
    · rename_i e s₁ hfail
      rw [performChild_fail hfail] at h
      exact Or.inl (hrefused h)
    · rename_i a s₁ hok
      obtain ⟨store, hperform, rfl⟩ := performChild_opened hdir hok
      refine Or.inr ⟨_, a, store, hperform, ?_⟩
      cases hpay : encodeReply d.payloadAllocFails r a with
      | error e =>
        rw [hpay] at h
        obtain ⟨hs, hq⟩ := writeStatus_cases h
        refine ⟨hs, fun q hresp => ⟨(hq q hresp).1, ?_⟩⟩
        rw [hpay]
        exact (hq q hresp).2
      | ok payload =>
        rw [hpay] at h
        obtain ⟨hs, hq⟩ := writeStatus_cases h
        refine ⟨hs, fun q hresp => ⟨(hq q hresp).1, ?_⟩⟩
        rw [hpay]
        exact (hq q hresp).2

def KeepsStore (s s' : Service) (m : Method) (resp : Option Response) : Prop :=
  s'.disk = s.disk ∧ s'.inst.details = s.inst.details ∧ ∀ q, resp = some q → q.method = m.code

theorem keepsStore_of_writeStatus {inst : Instance} {m : Method} {off : BitVec 32}
    {status : Except AgentdError Unit} {payload : Option Bytes}
    (h : writeStatus d { s with inst := inst } m.code off status payload = some (s', resp, st))
    (hinst : inst.details = s.inst.details) : KeepsStore s s' m resp := by
  obtain ⟨rfl, hq⟩ := writeStatus_cases h
  exact ⟨rfl, hinst, fun q hresp => (hq q hresp).1⟩

theorem served_childContextCreate {rest : Bytes}
    (hd : d.packet = be 4 Method.llChildContextCreate.code ++ rest)
    (h : decodeAndDispatch E s d = some (s', resp, st)) :
    KeepsStore s s' .llChildContextCreate resp := by
  have hlen : ¬ d.packet.length < 4 := by simp [hd]
  rw [decodeAndDispatch, if_neg hlen, hd] at h
  simp only [bits_method] at h
  replace h : dispatchChildContextCreate s d _ = some (s', resp, st) := h
  unfold dispatchChildContextCreate at h
  simp only at h
  split at h
  · exact keepsStore_of_writeStatus h rfl
  · split at h
    · exact keepsStore_of_writeStatus h rfl
    · rename_i inst i hcreate
      obtain ⟨j, -, heq⟩ := Option.map_eq_some_iff.mp hcreate
      obtain ⟨rfl, rfl⟩ := Prod.mk.inj heq
      split at h
      · exact keepsStore_of_writeStatus h rfl
      · split at h
        · exact keepsStore_of_writeStatus h rfl
        · exact keepsStore_of_writeStatus h rfl

theorem served_childContextClose {rest : Bytes}
    (hd : d.packet = be 4 Method.llChildContextClose.code ++ rest)
    (h : decodeAndDispatch E s d = some (s', resp, st)) :
    KeepsStore s s' .llChildContextClose resp := by
  have hlen : ¬ d.packet.length < 4 := by simp [hd]
  rw [decodeAndDispatch, if_neg hlen, hd] at h
  simp only [bits_method] at h
  replace h : dispatchChildContextClose s d _ = some (s', resp, st) := h
  unfold dispatchChildContextClose at h
  simp only at h
  split at h
  · exact keepsStore_of_writeStatus h rfl
  · split at h
    · exact keepsStore_of_writeStatus h rfl
    · split at h
      · exact keepsStore_of_writeStatus h rfl
      · exact keepsStore_of_writeStatus h rfl

end Codec

end DataserviceClient
