import Agentd.AuthedReads
import Agentd.ClientSession

/-! # The secret of a handshake

The server reads from the request of the client what the client has put into it, and the client
takes from the answer of the server the secret that the server has computed, or it gives up. -/
namespace HandshakeAgreement

open ByteString
open DataserviceRecords
open AuthedPackets
open AuthedReads (length_slice)
open TypedIpc (readField)
open ClientProtocol
open ProtocolFiber
open HandshakeSteps
open ClientSession

/-- What the client's suite and keys have to do with those of the server. The sizes are those of the
one suite there is; the same code signs the response on both sides; the keys of the entity agree
with those of the server; and the server opens what the client seals and seals what it writes in the
same way. -/
structure Suited (C : ClientSuite) (E : Env) (id : ClientIdentity) : Prop where
  suite : C.suiteVeloV1 = E.cryptoSuite
  nonceSize : C.nonceSize = 32 ∧ E.nonceSize = 32
  publicKeySize : C.publicKeySize = 32 ∧ E.agentdEncPubkey.length = 32
  mac : C.mac = E.shortMac
  macSize : ∀ secret data, (E.shortMac secret data).length = C.macSize
  agreement : ∀ entity serverNonce clientNonce secret,
    E.authorizedEntity id.entityId = some entity →
    E.shortTermSecret E.agentdEncPrivkey entity.encryptionPubkey serverNonce clientNonce =
      .ok secret →
    C.agreement id.privkey E.agentdEncPubkey serverNonce clientNonce = .ok secret
  authentic : ∀ iv secret (p : AuthedPayload),
    E.authentic iv secret (authedPacket C.crypto secret iv p.bytes) = some p.bytes
  sealedPacket : ∀ iv secret (p : AuthedPayload),
    E.sealedPacket iv secret p.bytes = authedPacket C.crypto secret iv p.bytes
  codeFits : C.crypto.macSize ≤ maxAuthedSize

variable {C : ClientSuite} {E : Env} {id : ClientIdentity} {k t : Context}

/-! ### Fields -/

/-- A field of some bytes that are made of fields. -/
theorem slice_field {fields : List Bytes} {b v : Bytes} {off n : ℕ} (i : ℕ)
    (hb : b = fields.flatten)
    (hv : fields[i]? = some v) (hoff : (fields.take i).flatten.length = off) (hn : v.length = n) :
    slice b off n = v := by
  obtain ⟨hi, rfl⟩ := List.getElem?_eq_some_iff.mp hv
  have hsplit : b = (fields.take i).flatten ++ (fields[i] ++ (fields.drop (i + 1)).flatten) := by
    rw [hb, ← List.flatten_cons, ← List.drop_eq_getElem_cons hi, ← List.flatten_append,
      List.take_append_drop]
  rw [hsplit, slice_append_skip _ _ _ (by omega), hoff, Nat.sub_self, slice_append_self _ _ hn]

theorem wordAt_field {fields : List Bytes} {b : Bytes} {v : BitVec 32} {off : ℕ} (i : ℕ)
    (hb : b = fields.flatten) (hv : fields[i]? = some (be 4 v))
    (hoff : (fields.take i).flatten.length = off) : wordAt b off = v := by
  rw [wordAt, slice_field i hb hv hoff (length_be 4 v), bits_be (n := 4) (w := 32) rfl]

/-! ### The request -/

def requested (entityId : Uuid) (keyNonce challengeNonce request : Bytes) (k : Context) : Context :=
  { record k (.readBoxed request) with
    entityUuid := entityId, clientKeyNonce := keyNonce, clientChallengeNonce := challengeNonce }

/-- The server reads from the request what the client has put into it. -/
theorem read_request (h : Suited C E id) {keyNonce challengeNonce random ack : Bytes}
    (hkey : keyNonce.length = C.nonceSize) (hchallenge : challengeNonce.length = C.nonceSize) :
    protocolReadHandshakeReq E
        (workingHandshake (sendreqHandshakeRequest C id.entityId keyNonce challengeNonce) random
          ack) k =
      (requested id.entityId keyNonce challengeNonce
        (sendreqHandshakeRequest C id.entityId keyNonce challengeNonce) k, none) := by
  rw [h.nonceSize.1] at hkey hchallenge
  generalize hreq : sendreqHandshakeRequest C id.entityId keyNonce challengeNonce = request
  have hbytes : request = [be 4 handshakeInitiate, be 4 (0 : BitVec 32), be 4 (1 : BitVec 32),
      be 4 E.cryptoSuite, be 16 id.entityId, keyNonce, challengeNonce].flatten := by
    rw [← hreq, sendreqHandshakeRequest, h.suite]
    simp only [List.flatten_cons, List.flatten_nil, List.append_assoc, List.append_nil]
  have hlen : ¬ request.length ≠ 32 + E.nonceSize + E.nonceSize := by
    rw [hbytes, h.nonceSize.2]
    simp [hkey, hchallenge]
  have hinitiate : wordAt request 0 = handshakeInitiate := wordAt_field 0 hbytes rfl rfl
  have hoffset : wordAt request 4 = 0 := wordAt_field 1 hbytes rfl (by simp)
  have hversion : wordAt request 8 = 1 := wordAt_field 2 hbytes rfl (by simp)
  have hsuite : wordAt request 12 = E.cryptoSuite := wordAt_field 3 hbytes rfl (by simp)
  have hentity : requestUuid request = id.entityId := by
    rw [requestUuid, slice_field 4 hbytes rfl (by simp) (length_be 16 _),
      bits_be (n := 16) (w := 128) rfl]
  have hkeyNonce : requestKeyNonce E request = keyNonce :=
    slice_field 5 hbytes rfl (by simp) (hkey.trans h.nonceSize.2.symm)
  have hchallengeNonce : requestChallengeNonce E request = challengeNonce :=
    slice_field 6 hbytes rfl (by simp [hkey, h.nonceSize.2]) (hchallenge.trans h.nonceSize.2.symm)
  simp only [protocolReadHandshakeReq, workingHandshake, decodeHandshakeReq, if_neg hlen, hinitiate,
    hoffset, hversion, hsuite, hentity, hkeyNonce, hchallengeNonce, ne_eq, not_true_eq_false,
    if_false, mergeRelease, Option.none_or, requested]

/-! ### The response -/

def secretFor (E : Env) (entityId : Uuid) (keyNonce random : Bytes) : Option Bytes :=
  (E.authorizedEntity entityId).bind fun entity =>
    (E.shortTermSecret E.agentdEncPrivkey entity.encryptionPubkey (randomKeyNonce E random)
      keyNonce).toOption

def refusal : Bytes := responsePayload handshakeInitiate unauthorized.val 0

structure Answered (E : Env) (keyNonce challengeNonce random secret : Bytes) (k : Context) :
    Prop where
  log : ∃ request, k.log = [.readBoxed request, .random random, .writeBoxed (handshakeResponse E k)]
  keyNonce : k.clientKeyNonce = keyNonce
  challengeNonce : k.clientChallengeNonce = challengeNonce
  serverKeyNonce : k.serverKeyNonce = randomKeyNonce E random
  serverChallengeNonce : k.serverChallengeNonce = randomChallengeNonce E random
  secret : k.sharedSecret = secret
  clientIv : k.clientIv = initialClientIv
  serverIv : k.serverIv = initialServerIv
  closed : k.dataserviceContextOpened = false

structure Refused (k : Context) : Prop where
  log : ∃ l, k.log = l ++ [.writeBoxed refusal] ∧
    ∀ e ∈ l, (∃ request, e = .readBoxed request) ∨ ∃ random, e = .random random
  closed : k.dataserviceContextOpened = false

def randomized (E : Env) (random : Bytes) (k : Context) : Context :=
  { record k (.random random) with
    serverChallengeNonce := randomChallengeNonce E random, serverKeyNonce :=
      randomKeyNonce E random }

def agreed (secret : Bytes) (k : Context) : Context :=
  { k with sharedSecret := secret, clientIv := initialClientIv, serverIv := initialServerIv }

theorem computeSharedSecret_error {request random ack : Bytes} {entity : Entity} {e : Failure}
    (hentity : k.entity = some entity)
    (h : E.shortTermSecret E.agentdEncPrivkey entity.encryptionPubkey k.serverKeyNonce
      k.clientKeyNonce = .error e) :
    computeSharedSecret E (workingHandshake request random ack) k =
      (record k (.writeBoxed refusal), some unauthorized) := by
  have hpubkey : encryptionPubkey k = entity.encryptionPubkey := by
    rw [encryptionPubkey, hentity]
    rfl
  simp only [computeSharedSecret, workingHandshake, hpubkey, h]
  rfl

theorem computeSharedSecret_ok {request random ack secret : Bytes} {entity : Entity}
    (hentity : k.entity = some entity)
    (h : E.shortTermSecret E.agentdEncPrivkey entity.encryptionPubkey k.serverKeyNonce
      k.clientKeyNonce = .ok secret) :
    computeSharedSecret E (workingHandshake request random ack) k = (agreed secret k, none) := by
  have hpubkey : encryptionPubkey k = entity.encryptionPubkey := by
    rw [encryptionPubkey, hentity]
    rfl
  simp only [computeSharedSecret, workingHandshake, hpubkey, h, agreed]

/-- The server computes a secret and answers, or it refuses. -/
theorem respond_cases (h : Suited C E id) (random : Bytes) {keyNonce challengeNonce : Bytes}
    (hkey : keyNonce.length = C.nonceSize) (hchallenge : challengeNonce.length = C.nonceSize) :
    (∃ k, respondHandshake E (workingHandshake
        (sendreqHandshakeRequest C id.entityId keyNonce challengeNonce) random []) newContext =
          (k, some unauthorized) ∧ secretFor E id.entityId keyNonce random = none ∧ Refused k) ∨
    ∃ k secret, respondHandshake E (workingHandshake
        (sendreqHandshakeRequest C id.entityId keyNonce challengeNonce) random []) newContext =
          (k, none) ∧ secretFor E id.entityId keyNonce random = some secret ∧
        Answered E keyNonce challengeNonce random secret k := by
  rw [respondHandshake, read_request h hkey hchallenge]
  generalize sendreqHandshakeRequest C id.entityId keyNonce challengeNonce = request
  generalize hrequested : requested id.entityId keyNonce challengeNonce request newContext = k₁
  have huuid : k₁.entityUuid = id.entityId := by rw [← hrequested]; rfl
  cases hentity : E.authorizedEntity id.entityId with
  | none =>
    refine Or.inl ⟨record k₁ (.writeBoxed refusal), ?_, by rw [secretFor, hentity]; rfl,
      ⟨⟨[.readBoxed request], by rw [← hrequested]; rfl, ?_⟩, by rw [← hrequested]; rfl⟩⟩
    · simp only [after, authorizedEntityLookup, huuid, hentity]
      rfl
    · intro e he
      exact Or.inl ⟨request, List.mem_singleton.mp he⟩
  | some entity =>
    generalize hrandomized : randomized E random { k₁ with entity := some entity } = k₂
    have hlookup : authorizedEntityLookup E (workingHandshake request random []) k₁ =
        ({ k₁ with entity := some entity }, none) := by
      simp only [authorizedEntityLookup, huuid, hentity]
    have hrandom : readRandomBytes E (workingHandshake request random [])
        { k₁ with entity := some entity } = (k₂, none) := by rw [← hrandomized]; rfl
    have hentity₂ : k₂.entity = some entity := by rw [← hrandomized]; rfl
    have hlog₂ : k₂.log = [.readBoxed request, .random random] := by
      rw [← hrandomized, ← hrequested]
      rfl
    have hnonces : k₂.serverKeyNonce = randomKeyNonce E random ∧ k₂.clientKeyNonce = keyNonce := by
      rw [← hrandomized, ← hrequested]
      exact ⟨rfl, rfl⟩
    have hclosed : k₂.dataserviceContextOpened = false := by
      rw [← hrandomized, ← hrequested]
      rfl
    have hchallenges : k₂.serverChallengeNonce = randomChallengeNonce E random ∧
        k₂.clientChallengeNonce = challengeNonce := by
      rw [← hrandomized, ← hrequested]
      exact ⟨rfl, rfl⟩
    simp only [after, hlookup, hrandom]
    cases hsecret : E.shortTermSecret E.agentdEncPrivkey entity.encryptionPubkey
        (randomKeyNonce E random) keyNonce with
    | error e =>
      have hnone : secretFor E id.entityId keyNonce random = none := by
        rw [secretFor, hentity, Option.bind_some, hsecret]
        rfl
      rw [← hnonces.1, ← hnonces.2] at hsecret
      refine Or.inl ⟨record k₂ (.writeBoxed refusal), ?_, hnone,
        ⟨⟨[.readBoxed request, .random random], by rw [record, hlog₂], ?_⟩, hclosed⟩⟩
      · rw [computeSharedSecret_error hentity₂ hsecret]
      · intro e he
        rcases List.mem_cons.mp he with he | he
        · exact Or.inl ⟨request, he⟩
        · exact Or.inr ⟨random, List.mem_singleton.mp he⟩
    | ok secret =>
      have hsome : secretFor E id.entityId keyNonce random = some secret := by
        rw [secretFor, hentity, Option.bind_some, hsecret]
        rfl
      rw [← hnonces.1, ← hnonces.2] at hsecret
      refine Or.inr ⟨record (agreed secret k₂)
        (.writeBoxed (handshakeResponse E (agreed secret k₂))),
        secret, ?_, hsome, ⟨⟨request, ?_⟩, hnonces.2, hchallenges.2, hnonces.1, hchallenges.1,
        rfl, rfl,
          rfl, hclosed⟩⟩
      · rw [computeSharedSecret_ok hentity₂ hsecret]
        rfl
      · simp only [record, agreed, hlog₂]
        rfl

/-- The client ends when it is refused. -/
theorem verify_refusal (privkey keyNonce challengeNonce : Bytes) :
    recvrespHandshakeRequest C privkey keyNonce challengeNonce refusal = .error unauthorized := by
  have hlen : ¬ refusal.length < 12 := by decide
  have hstatus : wordAt refusal 4 = unauthorized.val := by decide
  have hne : wordAt refusal 4 ≠ 0 := hstatus ▸ unauthorized.property
  rw [recvrespHandshakeRequest, if_neg hlen, dif_pos hne]
  exact congrArg Except.error (Subtype.ext hstatus)

/-- What the code of the response is over, without the challenge of the client. -/
def responseFields (E : Env) (k : Context) : List Bytes :=
  [be 4 handshakeInitiate, be 4 (0 : Status), be 4 (0 : BitVec 32), be 4 (1 : BitVec 32),
    be 4 E.cryptoSuite, be 16 E.agentdUuid, E.agentdEncPubkey, k.serverKeyNonce,
    k.serverChallengeNonce]

theorem handshakeResponse_eq (E : Env) (k : Context) : handshakeResponse E k =
    (responseFields E k).flatten ++
      E.shortMac k.sharedSecret ((responseFields E k).flatten ++ k.clientChallengeNonce) := by
  simp only [handshakeResponse, responseFields, List.flatten_cons, List.flatten_nil,
    List.append_assoc, List.append_nil]

/-- The client takes its secret from the response when the keys of both agree, and it is that of the
server. -/
theorem verify_response (h : Suited C E id)
    (hkeyNonce : k.serverKeyNonce.length = 32)
    (hchallengeNonce : k.serverChallengeNonce.length = 32)
    (hagreement : C.agreement id.privkey E.agentdEncPubkey k.serverKeyNonce k.clientKeyNonce =
      .ok k.sharedSecret) :
    recvrespHandshakeRequest C id.privkey k.clientKeyNonce k.clientChallengeNonce
        (handshakeResponse E k) =
      .ok ⟨E.agentdUuid, E.agentdEncPubkey, k.serverChallengeNonce, k.sharedSecret⟩ := by
  obtain ⟨hpubkey, hserverPubkey⟩ := h.publicKeySize
  have hdata : (responseFields E k).flatten.length = 132 := by
    simp [responseFields, hserverPubkey, hkeyNonce, hchallengeNonce]
  rw [handshakeResponse_eq]
  generalize hmac : E.shortMac k.sharedSecret ((responseFields E k).flatten ++
    k.clientChallengeNonce) = mac
  have hmacSize : mac.length = C.macSize := by rw [← hmac]; exact h.macSize _ _
  have hsize : responseSize C = 132 + C.macSize := by rw [responseSize, hpubkey, h.nonceSize.1]
  have hdigested : responseSize C - C.macSize = 132 := by omega
  have hlen : ¬ ((responseFields E k).flatten ++ mac).length ≠ responseSize C := by
    rw [List.length_append, hdata, hmacSize, hsize]
    exact not_not.mpr rfl
  have htake : ((responseFields E k).flatten ++ mac).take 132 = (responseFields E k).flatten :=
    List.take_left' hdata
  have hcode : slice ((responseFields E k).flatten ++ mac) 132 C.macSize = mac := by
    rw [slice_append_skip _ _ _ (by omega), hdata, Nat.sub_self, slice, List.drop_zero,
      List.take_of_length_le (by omega)]
  have hbytes : (responseFields E k).flatten ++ mac = (responseFields E k ++ [mac]).flatten := by
    rw [List.flatten_append, List.flatten_singleton]
  generalize (responseFields E k).flatten ++ mac = val at hbytes hlen htake hcode
  have hstatus : wordAt val 4 = 0 := wordAt_field 1 hbytes rfl (by simp [responseFields])
  have hversion : wordAt val 12 = 1 := wordAt_field 3 hbytes rfl (by simp [responseFields])
  have hsuite : wordAt val 16 = C.suiteVeloV1 := by
    rw [h.suite]
    exact wordAt_field 4 hbytes rfl (by simp [responseFields])
  have hserverId : slice val 20 16 = be 16 E.agentdUuid :=
    slice_field 5 hbytes rfl (by simp [responseFields]) (length_be 16 _)
  have hkey : slice val 36 C.publicKeySize = E.agentdEncPubkey :=
    slice_field 6 hbytes rfl (by simp [responseFields]) (hserverPubkey.trans hpubkey.symm)
  have hserverKeyNonce : slice val 68 C.nonceSize = k.serverKeyNonce :=
    slice_field 7 hbytes rfl (by simp [responseFields, hserverPubkey])
      (hkeyNonce.trans h.nonceSize.1.symm)
  have hserverChallenge : slice val 100 C.nonceSize = k.serverChallengeNonce :=
    slice_field 8 hbytes rfl (by simp [responseFields, hserverPubkey, hkeyNonce])
      (hchallengeNonce.trans h.nonceSize.1.symm)
  have hlong : ¬ val.length < 12 := by omega
  simp only [recvrespHandshakeRequest, if_neg hlong, hstatus, hlen, hversion, hsuite,
    hserverId, hkey, hserverKeyNonce, hserverChallenge, hagreement, hdigested, htake, hcode, h.mac,
    hmac, ne_eq, not_true_eq_false, if_false, dif_neg, not_false_eq_true,
    bits_be (n := 16) (w := 128) rfl]

theorem secretFor_some {entityId : Uuid} {keyNonce random secret : Bytes}
    (h : secretFor E entityId keyNonce random = some secret) :
    ∃ entity, E.authorizedEntity entityId = some entity ∧
      E.shortTermSecret E.agentdEncPrivkey entity.encryptionPubkey (randomKeyNonce E random)
        keyNonce = .ok secret := by
  obtain ⟨entity, hentity, hsecret⟩ := Option.bind_eq_some_iff.mp h
  refine ⟨entity, hentity, ?_⟩
  cases hterm : E.shortTermSecret E.agentdEncPrivkey entity.encryptionPubkey
      (randomKeyNonce E random) keyNonce with
  | error e =>
    rw [hterm] at hsecret
    cases hsecret
  | ok secret' =>
    rw [hterm] at hsecret
    exact congrArg Except.ok (Option.some.inj hsecret)

/-- What the client makes of the answer. -/
theorem verify_answer (h : Suited C E id) {keyNonce challengeNonce random secret : Bytes}
    (hsize : random.length = E.nonceSize + E.nonceSize)
    (hknown : secretFor E id.entityId keyNonce random = some secret)
    (hk : Answered E keyNonce challengeNonce random secret k) :
    recvrespHandshakeRequest C id.privkey keyNonce challengeNonce (handshakeResponse E k) =
      .ok ⟨E.agentdUuid, E.agentdEncPubkey, k.serverChallengeNonce, secret⟩ := by
  obtain ⟨entity, hentity, hsecret⟩ := secretFor_some hknown
  have hkeyNonce : k.serverKeyNonce.length = 32 := by
    rw [hk.serverKeyNonce, randomKeyNonce, length_slice (by omega), h.nonceSize.2]
  have hchallenge : k.serverChallengeNonce.length = 32 := by
    rw [hk.serverChallengeNonce, randomChallengeNonce, length_slice (by omega), h.nonceSize.2]
  have hagreement := h.agreement entity _ _ secret hentity hsecret
  rw [← hk.serverKeyNonce, ← hk.keyNonce, ← hk.secret] at hagreement
  rw [← hk.keyNonce, ← hk.challengeNonce, ← hk.secret]
  exact verify_response h hkeyNonce hchallenge hagreement

/-! ### Packets -/

/-- A sealed packet is opened to its payload, or it is not read at all because of the pieces in
which it comes. -/
theorem read_sealed (S : CryptoSuite Bytes) (secret : Bytes) (iv : BitVec 64) (p : AuthedPayload)
    {frags : List Bytes} (h : frags.flatten = authedPacket S secret iv p.bytes) :
    (ipcReadAuthedDataBlock S none secret iv frags).1 = .ok p.bytes ∨
      ∃ e, (ipcReadAuthedDataBlock S none secret iv frags).1 = .error e := by
  have hinit : attempt none .headerInit *> attempt none .dheaderInit = .ok () := rfl
  simp only [ipcReadAuthedDataBlock, hinit]
  cases hheader : readField S.headerSize frags with
  | mk r left =>
    cases r with
    | error e => exact Or.inr ⟨_, rfl⟩
    | ok header =>
      obtain ⟨hlen, hfront⟩ := readField_ok hheader
      rw [h, authedPacket_eq] at hfront
      obtain ⟨rfl, hbody⟩ := List.append_inj hfront (by rw [length_sealedHeader, hlen])
      simp only [attempt_none, openHeader_sealed]
      cases hpayload : readField p.bytes.length left with
      | mk r left' =>
        cases r with
        | error e => exact Or.inr ⟨_, rfl⟩
        | ok payload =>
          obtain ⟨hlen', hfront'⟩ := readField_ok hpayload
          rw [← hbody] at hfront'
          have hall : S.crypt secret iv 8 p.bytes = payload := by
            have htake := congrArg (List.take p.bytes.length) hfront'
            rwa [List.take_of_length_le (by rw [CryptoSuite.length_crypt]),
              List.take_left' hlen'] at htake
          rw [← hall]
          exact Or.inl (openPayload_sealed p.bytes)

theorem readPacket_cases {secret packet : Bytes} {iv : BitVec 64} {frags : List Bytes}
    {r : Except AuthedError Bytes} (p : AuthedPayload)
    (hpacket : packet = authedPacket C.crypto secret iv p.bytes)
    (h : readPacket C secret iv packet frags = some r) : r = .ok p.bytes ∨ ∃ e, r = .error e := by
  rw [readPacket] at h
  split at h
  · rename_i hflatten
    rw [← Option.some.inj h]
    exact read_sealed C.crypto secret iv p (hflatten.trans hpacket)
  · cases h

theorem read_whole {secret packet : Bytes} {iv : BitVec 64} (p : AuthedPayload)
    (hpacket : packet = authedPacket C.crypto secret iv p.bytes) :
    readPacket C secret iv packet [packet] = some (.ok p.bytes) := by
  have hflatten : [packet].flatten = authedPacket C.crypto secret iv p.bytes ++ [] := by
    rw [List.flatten_singleton, List.append_nil, hpacket]
  have hwhole : FragmentedStreams.FieldsWhole [packet] 0 [C.crypto.headerSize, p.bytes.length] := by
    refine (FragmentedStreams.unbroken_singleton packet).fieldsWhole ?_
    rw [List.flatten_singleton, hpacket, length_authedPacket]
    simp
  obtain ⟨left, hread, -⟩ := ipcReadAuthedDataBlock_packet p hflatten hwhole
  rw [readPacket, if_pos (List.flatten_singleton ..), hread]

end HandshakeAgreement
