import Agentd.ProtocolFiber

/-! # What a handshake does

A handshake that goes past its first response has read one request, found its entity and computed a
secret from their keys and nonces; nothing was encrypted until then. -/
namespace HandshakeSteps

open ByteString
open DataserviceRecords
open ClientProtocol
open ProtocolFiber

variable {E : Env} {k t : Context} {o : HandshakeOutcome} {retval : Retval}

/-! ### Steps in the clear -/

def isPlain : Event → Bool
  | .readBoxed _ => true
  | .writeBoxed _ => true
  | .random _ => true
  | .readAuthed .. => false
  | .writeAuthed .. => false
  | .contextOpen => false
  | .contextClose => false
  | .dispatch _ => false

def Plain (k t : Context) : Prop := ∃ l, t.log = k.log ++ l ∧ ∀ e ∈ l, isPlain e = true

theorem Plain.refl (h : t.log = k.log) : Plain k t := ⟨[], by rw [h, List.append_nil], by simp⟩

theorem Plain.trans {u : Context} (h₁ : Plain k t) (h₂ : Plain t u) : Plain k u := by
  obtain ⟨l₁, hl₁, hplain₁⟩ := h₁
  obtain ⟨l₂, hl₂, hplain₂⟩ := h₂
  refine ⟨l₁ ++ l₂, ?_, ?_⟩
  · rw [hl₂, hl₁, List.append_assoc]
  · intro e he
    rcases List.mem_append.mp he with he | he
    · exact hplain₁ e he
    · exact hplain₂ e he

theorem plain_record {e : Event} (he : isPlain e = true) : Plain k (record k e) :=
  ⟨[e], rfl, by simpa using he⟩

def FailsOr (k : Context) (succeeds : Context → Prop) (r : Context × Retval) : Prop :=
  (∃ e, r.2 = some e ∧ Plain k r.1) ∨ (r.2 = none ∧ succeeds r.1)

theorem failsOr_refuse (k : Context) (succeeds : Context → Prop) (requestId : BitVec 32)
    (reported returned : Failure) (write : Retval) :
    FailsOr k succeeds (refuse k requestId reported returned write) := by
  refine Or.inl ?_
  cases write with
  | none => exact ⟨returned, rfl, plain_record rfl⟩
  | some e => exact ⟨e, rfl, plain_record rfl⟩

theorem FailsOr.of_plain {k' : Context} {succeeds : Context → Prop} {r : Context × Retval}
    (hplain : Plain k k') (h : FailsOr k' succeeds r) : FailsOr k succeeds r := by
  rcases h with ⟨e, he, hr⟩ | hr
  · exact Or.inl ⟨e, he, hplain.trans hr⟩
  · exact Or.inr hr

theorem FailsOr.mono {p q : Context → Prop} {r : Context × Retval} (h : FailsOr k p r)
    (himp : ∀ t, p t → q t) : FailsOr k q r := by
  rcases h with hfails | ⟨hnone, hsucceeds⟩
  · exact Or.inl hfails
  · exact Or.inr ⟨hnone, himp _ hsucceeds⟩

/-- One step after another. -/
theorem FailsOr.after {p q : Context → Prop} {r : Context × Retval}
    {step : Context → Context × Retval} (h : FailsOr k p r)
    (hplain : ∀ t, p t → Plain k t) (hstep : ∀ t, p t → FailsOr t q (step t)) :
    FailsOr k q (after r step) := by
  obtain ⟨t, retval⟩ := r
  rcases h with ⟨e, he, ht⟩ | ⟨he, ht⟩
  · obtain rfl : retval = some e := he
    exact Or.inl ⟨e, rfl, ht⟩
  · obtain rfl : retval = none := he
    exact (hstep t ht).of_plain (hplain t ht)

/-! ### The steps up to the first response -/

structure Requested (E : Env) (request : Bytes) (t : Context) : Prop where
  log : t.log = [.readBoxed request]
  entityUuid : t.entityUuid = requestUuid request
  clientKeyNonce : t.clientKeyNonce = requestKeyNonce E request

/-- The cleanup after the request was read. -/
theorem FailsOr.merge {succeeds : Context → Prop} {r : Context × Retval} {release : Retval}
    (h : FailsOr k succeeds r) (hk : k.log = [])
    (hlog : ∀ t, succeeds t → ∃ request, t.log = [.readBoxed request]) :
    FailsOr k succeeds (r.1, mergeRelease release r.2) := by
  cases release with
  | none => exact h
  | some e =>
    refine Or.inl ⟨e, rfl, ?_⟩
    rcases h with ⟨_, _, hplain⟩ | ⟨_, hsucceeds⟩
    · exact hplain
    · obtain ⟨request, hrequest⟩ := hlog _ hsucceeds
      exact ⟨[.readBoxed request], by rw [hrequest, hk]; rfl, by simp [isPlain]⟩

theorem protocolReadHandshakeReq_cases (hk : k.log = []) :
    FailsOr k (fun t => ∃ request, Requested E request t) (protocolReadHandshakeReq E o k) := by
  rw [protocolReadHandshakeReq]
  cases o.request with
  | error e => exact Or.inl ⟨requestPacketBad, rfl, Plain.refl rfl⟩
  | ok request =>
    have hdecode : FailsOr k (fun t => ∃ request, Requested E request t)
        (decodeHandshakeReq E (record k (.readBoxed request)) o request) := by
      refine FailsOr.of_plain (plain_record (e := .readBoxed request) rfl) ?_
      rw [decodeHandshakeReq]
      split
      · exact failsOr_refuse ..
      split
      · exact failsOr_refuse ..
      split
      · exact failsOr_refuse ..
      split
      · exact failsOr_refuse ..
      split
      · exact failsOr_refuse ..
      · refine Or.inr ⟨rfl, request, ?_, rfl, rfl⟩
        simp [record, hk]
    exact hdecode.merge hk (fun t ⟨request, ht⟩ => ⟨request, ht.log⟩)

structure Agreed (E : Env) (request bytes : Bytes) (entity : Entity) (t : Context) : Prop where
  known : E.authorizedEntity (requestUuid request) = some entity
  secret : E.shortTermSecret E.agentdEncPrivkey entity.encryptionPubkey (randomKeyNonce E bytes)
    (requestKeyNonce E request) = .ok t.sharedSecret
  clientIv : t.clientIv = initialClientIv
  serverIv : t.serverIv = initialServerIv

theorem lookup_cases {request : Bytes} (hk : Requested E request k) :
    FailsOr k (fun t => ∃ entity, Requested E request t ∧ t.entity = some entity ∧
      E.authorizedEntity (requestUuid request) = some entity) (authorizedEntityLookup E o k) := by
  rw [authorizedEntityLookup, hk.entityUuid]
  cases hentity : E.authorizedEntity (requestUuid request) with
  | none => exact failsOr_refuse ..
  | some entity =>
    exact Or.inr ⟨rfl, entity, ⟨hk.log, rfl, hk.clientKeyNonce⟩, rfl, rfl⟩

theorem random_cases {request : Bytes} {entity : Entity} (hk : Requested E request k)
    (hentity : k.entity = some entity) :
    FailsOr k (fun t => ∃ bytes, t.log = [.readBoxed request, .random bytes] ∧
      t.clientKeyNonce = requestKeyNonce E request ∧ t.entity = some entity ∧
      t.serverKeyNonce = randomKeyNonce E bytes) (readRandomBytes E o k) := by
  rw [readRandomBytes]
  cases o.random with
  | error e => exact failsOr_refuse ..
  | ok bytes =>
    refine Or.inr ⟨rfl, bytes, ?_, hk.clientKeyNonce, hentity, rfl⟩
    simp [record, hk.log]

theorem secret_cases {request bytes : Bytes} {entity : Entity}
    (hlog : k.log = [.readBoxed request, .random bytes])
    (hclient : k.clientKeyNonce = requestKeyNonce E request) (hentity : k.entity = some entity)
    (hserver : k.serverKeyNonce = randomKeyNonce E bytes)
    (hknown : E.authorizedEntity (requestUuid request) = some entity) :
    FailsOr k (fun t => t.log = [.readBoxed request, .random bytes] ∧
      Agreed E request bytes entity t) (computeSharedSecret E o k) := by
  rw [computeSharedSecret]
  cases o.agreementInit with
  | some e => exact failsOr_refuse ..
  | none =>
    simp only [encryptionPubkey, hentity, hclient, hserver, Option.map_some, Option.getD_some]
    cases hsecret : E.shortTermSecret E.agentdEncPrivkey entity.encryptionPubkey
        (randomKeyNonce E bytes) (requestKeyNonce E request) with
    | error e => exact failsOr_refuse ..
    | ok secret => exact Or.inr ⟨rfl, hlog, hknown, hsecret, rfl, rfl⟩

structure Responded (E : Env) (request bytes payload : Bytes) (entity : Entity) (t : Context) :
    Prop where
  log : t.log = [.readBoxed request, .random bytes, .writeBoxed payload]
  agreed : Agreed E request bytes entity t

theorem response_cases {request bytes : Bytes} {entity : Entity}
    (hlog : k.log = [.readBoxed request, .random bytes])
    (hagreed : Agreed E request bytes entity k) :
    FailsOr k (fun t => ∃ payload, Responded E request bytes payload entity t)
      (protocolWriteHandshakeReqResp E o k) := by
  rw [protocolWriteHandshakeReqResp]
  cases o.preparation with
  | some e => exact failsOr_refuse ..
  | none =>
    cases hwrite : o.responseWrite with
    | some e =>
      simp only [psockWriteBoxedData]
      exact FailsOr.of_plain (plain_record rfl) (failsOr_refuse ..)
    | none =>
      refine Or.inr ⟨rfl, handshakeResponse E k, ?_, hagreed.known, hagreed.secret,
        hagreed.clientIv, hagreed.serverIv⟩
      simp [psockWriteBoxedData, record, hlog]

theorem Requested.plain {request : Bytes} (hk : k.log = []) (ht : Requested E request t) :
    Plain k t := ⟨[.readBoxed request], by rw [ht.log, hk]; rfl, by simp [isPlain]⟩

theorem plain_of_log {l : List Event} (hk : k.log = []) (ht : t.log = l)
    (hl : ∀ e ∈ l, isPlain e = true) : Plain k t := ⟨l, by rw [ht, hk]; rfl, hl⟩

/-- The handshake up to its first response. -/
theorem responded_cases (hk : k.log = []) :
    FailsOr k (fun t => ∃ request bytes payload entity, Responded E request bytes payload entity t)
      (after (after (after (after (protocolReadHandshakeReq E o k) (authorizedEntityLookup E o))
        (readRandomBytes E o)) (computeSharedSecret E o)) (protocolWriteHandshakeReqResp E o)) := by
  refine FailsOr.after (p := fun t => ∃ request bytes entity,
    t.log = [.readBoxed request, .random bytes] ∧ Agreed E request bytes entity t) ?_ ?_ ?_
  · refine FailsOr.after (p := fun t => ∃ request bytes entity,
      E.authorizedEntity (requestUuid request) = some entity ∧
      t.log = [.readBoxed request, .random bytes] ∧
      t.clientKeyNonce = requestKeyNonce E request ∧ t.entity = some entity ∧
      t.serverKeyNonce = randomKeyNonce E bytes) ?_ ?_ ?_
    · refine FailsOr.after (p := fun t => ∃ request entity, Requested E request t ∧
        t.entity = some entity ∧ E.authorizedEntity (requestUuid request) = some entity) ?_ ?_ ?_
      · refine FailsOr.after (protocolReadHandshakeReq_cases hk) ?_ ?_
        · rintro t ⟨request, ht⟩
          exact ht.plain hk
        · rintro t ⟨request, ht⟩
          exact (lookup_cases ht).mono fun u ⟨entity, hu⟩ => ⟨request, entity, hu⟩
      · rintro t ⟨request, entity, ht, _⟩
        exact ht.plain hk
      · rintro t ⟨request, entity, ht, hentity, hknown⟩
        exact (random_cases ht hentity).mono fun u ⟨bytes, hu⟩ =>
          ⟨request, bytes, entity, hknown, hu⟩
    · rintro t ⟨request, bytes, entity, _, ht, _⟩
      exact plain_of_log hk ht (by simp [isPlain])
    · rintro t ⟨request, bytes, entity, hknown, ht, hclient, hentity, hserver⟩
      exact (secret_cases ht hclient hentity hserver hknown).mono fun u hu =>
        ⟨request, bytes, entity, hu⟩
  · rintro t ⟨request, bytes, entity, ht, _⟩
    exact plain_of_log hk ht (by simp [isPlain])
  · rintro t ⟨request, bytes, entity, ht, hagreed⟩
    exact (response_cases ht hagreed).mono fun u ⟨payload, hu⟩ =>
      ⟨request, bytes, payload, entity, hu⟩

/-- A handshake fails in the clear, or it goes on to the acknowledgement. -/
theorem handshake_cases (hk : k.log = []) :
    (∃ e, (protocolHandleHandshake E o k).2 = some e ∧ Plain k (protocolHandleHandshake E o k).1) ∨
    ∃ t request bytes payload entity, Responded E request bytes payload entity t ∧
      protocolHandleHandshake E o k =
        after (protocolReadHandshakeAckReq E o t) (protocolWriteHandshakeAckResp o) := by
  rw [protocolHandleHandshake]
  split
  · exact Or.inl ⟨missingPrivateKey, rfl, Plain.refl rfl⟩
  · generalize hr : after (after (after (after (protocolReadHandshakeReq E o k)
      (authorizedEntityLookup E o)) (readRandomBytes E o)) (computeSharedSecret E o))
      (protocolWriteHandshakeReqResp E o) = r
    have hcases := responded_cases (E := E) (o := o) hk
    rw [hr] at hcases
    obtain ⟨t, retval⟩ := r
    rcases hcases with ⟨e, he, hplain⟩ | ⟨he, request, bytes, payload, entity, ht⟩
    · obtain rfl : retval = some e := he
      exact Or.inl ⟨e, rfl, hplain⟩
    · obtain rfl : retval = none := he
      exact Or.inr ⟨t, request, bytes, payload, entity, ht, rfl⟩

/-! ### The acknowledgement -/

/-- The acknowledgement was read, or it was not and an error response was sent; then the status is
that of the cleanup if something was left. -/
theorem ack_cases (t : Context) :
    (∃ payload, E.authentic t.clientIv t.sharedSecret o.ack.packet = some payload ∧
      protocolReadHandshakeAckReq E o t = (advanceClientIv (record t (.readAuthed t.clientIv
        t.sharedSecret o.ack.packet (some payload))), none)) ∨
    (∃ retval, (retval = none → o.ack.left ≠ none ∧ o.ackReclaim = none) ∧
      protocolReadHandshakeAckReq E o t =
        ((writeErrorResponseEncrypted (record t (.readAuthed t.clientIv t.sharedSecret o.ack.packet
          none)) 0 malformedRequest o.ackErrorWrite).1, retval)) := by
  have hfail : ∀ retval : Retval, (if o.ack.left.isSome then o.ackReclaim
      else mergeRelease retval (some malformedRequest)) = none →
      o.ack.left ≠ none ∧ o.ackReclaim = none := by
    intro retval hnone
    cases hleft : o.ack.left with
    | none =>
      rw [hleft] at hnone
      cases retval with
      | none => cases hnone
      | some e => cases hnone
    | some left =>
      rw [hleft] at hnone
      exact ⟨Option.some_ne_none left, hnone⟩
  rw [protocolReadHandshakeAckReq, psockReadAuthedData]
  cases hfault : o.ack.fault with
  | some e => exact Or.inr ⟨_, hfail _, rfl⟩
  | none =>
    cases hauthentic : E.authentic t.clientIv t.sharedSecret o.ack.packet with
    | none => exact Or.inr ⟨_, hfail _, rfl⟩
    | some payload => exact Or.inl ⟨payload, rfl, rfl⟩

/-- The answer to the acknowledgement was written, or it was not and an error response was sent. -/
theorem ackResp_cases (t : Context) :
    (o.ackRespWrite.retval = none ∧ protocolWriteHandshakeAckResp o t =
      (advanceServerIv (psockWriteAuthedData t (responsePayload handshakeAcknowledge 0 0)
        o.ackRespWrite).1, none)) ∨
    (∃ e e', o.ackRespWrite.retval = some e ∧ protocolWriteHandshakeAckResp o t =
      ((writeErrorResponseEncrypted (psockWriteAuthedData t
        (responsePayload handshakeAcknowledge 0 0) o.ackRespWrite).1 handshakeAcknowledge e
        o.ackRespErrorWrite).1, some e')) := by
  rw [protocolWriteHandshakeAckResp, psockWriteAuthedData]
  cases hwrite : o.ackRespWrite.retval with
  | none => exact Or.inl ⟨rfl, rfl⟩
  | some e =>
    refine Or.inr ⟨e, (o.ackRespErrorWrite.retval).getD e, rfl, ?_⟩
    simp only [writeErrorResponseEncrypted, psockWriteAuthedData, mergeRelease]
    cases o.ackRespErrorWrite.retval with
    | none => rfl
    | some e' => rfl

/-! ### Packets -/

/-- The packet was not read, it was read but is too short, or it was dispatched. -/
theorem turn_cases (o : TurnOutcome) (k : Context) :
    (∃ e, protocolReadDecodeAndDispatchPacket E o k =
      (record k (.readAuthed k.clientIv k.sharedSecret o.read.packet none), some e)) ∨
    (∃ payload e, E.authentic k.clientIv k.sharedSecret o.read.packet = some payload ∧
      protocolReadDecodeAndDispatchPacket E o k = (advanceClientIv (record k (.readAuthed k.clientIv
        k.sharedSecret o.read.packet (some payload))), some e)) ∨
    (∃ payload retval, E.authentic k.clientIv k.sharedSecret o.read.packet = some payload ∧
      protocolReadDecodeAndDispatchPacket E o k = ({ record (advanceClientIv (record k (.readAuthed
        k.clientIv k.sharedSecret o.read.packet (some payload)))) (.dispatch payload) with
          reqShutdown := k.reqShutdown || o.closes }, retval)) := by
  have hfails : ∀ (e : Failure) (left : Option Bytes), ∃ e',
      (if left.isSome then mergeRelease o.reclaim (mergeRelease o.errorSend (some e))
        else mergeRelease o.errorSend (some e)) = some e' := by
    intro e left
    obtain ⟨e₁, he₁⟩ := mergeRelease_some o.errorSend e
    rw [he₁]
    split
    · exact mergeRelease_some o.reclaim e₁
    · exact ⟨e₁, rfl⟩
  rw [protocolReadDecodeAndDispatchPacket, psockReadAuthedData]
  cases hfault : o.read.fault with
  | some e =>
    obtain ⟨e', he'⟩ := hfails e o.read.left
    exact Or.inl ⟨e', Prod.ext rfl he'⟩
  | none =>
    cases hauthentic : E.authentic k.clientIv k.sharedSecret o.read.packet with
    | none =>
      obtain ⟨e', he'⟩ := hfails E.notAuthentic o.read.left
      exact Or.inl ⟨e', Prod.ext rfl he'⟩
    | some payload =>
      simp only [Option.getD_some]
      split
      · obtain ⟨e₁, he₁⟩ := mergeRelease_some o.errorSend malformedRequest
        obtain ⟨e₂, he₂⟩ := mergeRelease_some o.reclaim e₁
        exact Or.inr (Or.inl ⟨payload, e₂, rfl, Prod.ext rfl (by simp only [he₁, he₂])⟩)
      · exact Or.inr (Or.inr ⟨payload, _, rfl, rfl⟩)

/-! ### A client -/

def clientEntity : Entity where
  uuid := 5
  capabilities := []
  encryptionPubkey := [9]
  signingPubkey := []

/-- The secret is the key and the nonces, and a packet starts with the secret and its vector. -/
def plainEnv : Env where
  privateKeySet := true
  agentdUuid := 6
  agentdEncPubkey := [10]
  agentdEncPrivkey := [11]
  cryptoSuite := 1
  nonceSize := 1
  authorizedEntity u := if u = clientEntity.uuid then some clientEntity else none
  shortTermSecret _ pubkey serverNonce clientNonce := .ok (pubkey ++ serverNonce ++ clientNonce)
  shortMac secret _ := secret
  authentic iv secret packet :=
    if slice packet 0 3 = secret ∧ slice packet 3 8 = be 8 iv then some (packet.drop 11) else none
  sealedPacket iv secret payload := secret ++ be 8 iv ++ payload
  notAuthentic := malformedRequest

def clientRequest : Bytes :=
  be 4 handshakeInitiate ++ be 4 (0 : Status) ++ be 4 (1 : BitVec 32) ++ be 4 (1 : BitVec 32) ++
    be 16 (5 : Uuid) ++ [3] ++ [4]

def clientRead (iv : BitVec 64) (payload : Bytes) : AuthedRead :=
  ⟨[9, 2, 3] ++ be 8 iv ++ payload, none, none⟩

def written : AuthedWrite := ⟨true, none, fun _ => rfl⟩

def encryptedOnly : AuthedWrite := ⟨true, some malformedRequest, fun _ => rfl⟩

def clientHandshake : HandshakeOutcome where
  request := .ok clientRequest
  requestReclaim := none
  random := .ok [1, 2]
  agreementInit := none
  preparation := none
  responseWrite := none
  errorWrite := none
  ack := clientRead 1 []
  ackErrorWrite := written
  ackReclaim := none
  ackRespWrite := written
  ackRespErrorWrite := written

def clientTurn (iv : BitVec 64) (payload : Bytes) : TurnOutcome :=
  ⟨clientRead iv payload, none, false, none, none⟩

end HandshakeSteps
