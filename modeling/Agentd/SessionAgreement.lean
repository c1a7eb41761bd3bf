import Agentd.LinkedSession

/-! # Client and server agree

A client and the protocol fiber compute the same secret or the client gives up, and from then on
each reads exactly what the other has sent, in order: both count their vectors alike. -/
namespace SessionAgreement

open ByteString
open DataserviceRecords
open AuthedPackets
open ClientProtocol
open ProtocolFiber
open HandshakeSteps
open TransitionRuns
open ClientSession
open HandshakeAgreement
open LinkedSession

variable {C : ClientSuite} {E : Env} {id : ClientIdentity} {k : Context} {s : Session}

/-! ### A handshake that is not disturbed -/

def answeredSession (k : Context) (keyNonce challengeNonce payload : Bytes) (stage : Stage) :
    Session :=
  ⟨⟨k, stage, false, false, false⟩, true, ⟨.requested keyNonce challengeNonce, [], []⟩, [],
    [.boxed payload]⟩

variable {keyNonce challengeNonce random secret : Bytes}

/-- The two steps up to the answer. -/
theorem respond_run (hset : E.privateKeySet = true) (hkey : keyNonce.length = C.nonceSize)
    (hchallenge : challengeNonce.length = C.nonceSize)
    (hrandom : random.length = E.nonceSize + E.nonceSize) {retval : Retval} {payload : Bytes}
    (hrespond : respondHandshake E (workingHandshake
      (sendreqHandshakeRequest C id.entityId keyNonce challengeNonce) random []) newContext =
        (k, retval))
    (hwire : k.log.filterMap (wireOf E) = [.boxed payload]) :
    ∃ log, Run (step C E id) opened log
        (answeredSession k keyNonce challengeNonce payload (stageAfter .handshake retval)) ∧
      log.map Taken.event = [.clientRequest keyNonce challengeNonce, .serverRespond random] := by
  generalize hreq : sendreqHandshakeRequest C id.entityId keyNonce challengeNonce = request at *
  have hrequest : step C E id opened (.clientRequest keyNonce challengeNonce) =
      some ⟨start, false, ⟨.requested keyNonce challengeNonce, [], []⟩, [.boxed request], []⟩ := by
    simp only [step, opened, if_pos (And.intro hkey hchallenge), hreq]
    rfl
  have hserver : step C E id
      ⟨start, false, ⟨.requested keyNonce challengeNonce, [], []⟩, [.boxed request], []⟩
      (.serverRespond random) =
        some (answeredSession k keyNonce challengeNonce payload
          (stageAfter .handshake retval)) := by
    have hready : start.stage = .handshake ∧ false = false ∧ E.privateKeySet = true ∧
        random.length = E.nonceSize + E.nonceSize := ⟨rfl, rfl, hset, hrandom⟩
    have hcontext : start.context = newContext := rfl
    rw [step, if_pos hready]
    simp only [hcontext, hrespond, served]
    simp only [newContext, List.length_nil, List.drop_zero, hwire, List.nil_append]
    rfl
  exact ⟨_, .cons hrequest (.cons hserver .nil), rfl⟩

/-- Without a secret the server refuses and is gone, and the client ends. -/
theorem refused_run (h : Suited C E id) (hset : E.privateKeySet = true)
    (hkey : keyNonce.length = C.nonceSize) (hchallenge : challengeNonce.length = C.nonceSize)
    (hrandom : random.length = E.nonceSize + E.nonceSize)
    (hnone : secretFor E id.entityId keyNonce random = none) :
    ∃ log s, Run (step C E id) opened log s ∧ log.map Taken.event =
        [.clientRequest keyNonce challengeNonce, .serverRespond random, .clientVerify] ∧
      s.client.stage = .ended ∧ s.server.stage = .gone := by
  rcases respond_cases h random hkey hchallenge with
    ⟨k, heq, -, hrefused⟩ | ⟨k, secret, heq, hknown, -⟩
  · obtain ⟨log, hrun, hevents⟩ :=
      respond_run hset hkey hchallenge hrandom heq (channels_of_refused (E := E) hrefused).2.2
    have hverify : step C E id (answeredSession k keyNonce challengeNonce refusal .gone)
        .clientVerify = some { answeredSession k keyNonce challengeNonce refusal .gone with
          client := ⟨.ended, [], []⟩, toClient := [] } := by
      simp only [step, answeredSession, verify_refusal]
      rfl
    refine ⟨_, _, hrun.snoc hverify, ?_, rfl, rfl⟩
    rw [List.map_append, hevents]
    rfl
  · exact absurd (hnone.symm.trans hknown) (by simp)

structure Established (secret : Bytes) (s : Session) : Prop where
  client : s.client.stage = .session secret (initialClientIv + 1) (initialServerIv + 1)
  server : s.server.stage = .opening
  secret : s.server.context.sharedSecret = secret
  clientIv : s.server.context.clientIv = initialClientIv + 1
  serverIv : s.server.context.serverIv = initialServerIv + 1
  quiet : s.toServer = [] ∧ s.toClient = []

def acknowledgement : Bytes := responsePayload handshakeAcknowledge 0 0

theorem finishedStage_acknowledgement (secret : Bytes) (iv : BitVec 64) :
    finishedStage secret iv acknowledgement = .session secret iv (initialServerIv + 1) := by
  have hread : recvrespHandshakeAck acknowledgement = .ok (0, 0) := by
    have hbytes : acknowledgement =
        [be 4 handshakeAcknowledge, be 4 (0 : BitVec 32), be 4 (0 : BitVec 32)].flatten := by decide
    have hrequest : wordAt acknowledgement 0 = handshakeAcknowledge := wordAt_field 0 hbytes rfl rfl
    have hstatus : wordAt acknowledgement 4 = 0 := wordAt_field 1 hbytes rfl (by simp)
    have hoffset : wordAt acknowledgement 8 = 0 := wordAt_field 2 hbytes rfl (by simp)
    have hlen : ¬ acknowledgement.length ≠ 12 := by decide
    rw [recvrespHandshakeAck, if_neg hlen, if_neg (not_not.mpr hrequest), hstatus, hoffset]
  rw [finishedStage, hread]
  rfl

theorem acknowledge_run (h : Suited C E id) (challenge : Bytes) (hsecret : k.sharedSecret = secret)
    (hclientIv : k.clientIv = initialClientIv) (hserverIv : k.serverIv = initialServerIv) :
    ∃ packet log s, Run (step C E id)
        ⟨⟨k, .handshake, false, false, false⟩, true, ⟨.verified secret challenge, [], []⟩, [],
          []⟩ log s ∧
      log.map Taken.event = [.clientAcknowledge, .serverAcknowledge, .clientFinish [packet]] ∧
      Established secret s := by
  obtain ⟨ack, hack⟩ : ∃ ack :
      AuthedPayload, ack.bytes = sendreqHandshakeAck C secret challenge := by
    have hfits : (sendreqHandshakeAck C secret challenge).length ≤ maxAuthedSize := by
      rw [sendreqHandshakeAck, C.crypto.length_macShort]
      exact h.codeFits
    exact ⟨⟨_, hfits⟩, rfl⟩
  have hauthentic : E.authentic k.clientIv k.sharedSecret
      (authedPacket C.crypto secret initialClientIv ack.bytes) = some ack.bytes := by
    rw [hclientIv, hsecret]
    exact h.authentic _ _ ack
  obtain ⟨t, hacknowledge, heffect⟩ := acknowledge_effect hauthentic
  obtain ⟨l, hlog, -, -, hwires⟩ := heffect.log
  have hdrop : t.log.drop k.log.length = l := by rw [hlog, List.drop_left]
  have hfits : acknowledgement.length ≤ maxAuthedSize := by decide
  have hwire : l.filterMap (wireOf E) =
      [.authed (authedPacket C.crypto secret initialServerIv acknowledgement)] := by
    rw [hwires, hsecret, hserverIv]
    exact congrArg (fun packet =>
      [Wire.authed packet]) (h.sealedPacket _ _ ⟨acknowledgement, hfits⟩)
  have hread := read_whole (C := C) ⟨acknowledgement, hfits⟩
    (rfl : authedPacket C.crypto secret initialServerIv acknowledgement = _)
  refine ⟨authedPacket C.crypto secret initialServerIv acknowledgement, _, _,
    .cons (s := ⟨⟨k, .handshake, false, false, false⟩, true,
      ⟨.acknowledged secret (initialClientIv + 1), [ack.bytes], []⟩,
      [.authed (authedPacket C.crypto secret initialClientIv ack.bytes)], []⟩) ?_
    (.cons (s := ⟨⟨t, .opening, false, false, false⟩, true,
      ⟨.acknowledged secret (initialClientIv + 1), [ack.bytes], []⟩, [],
      [.authed (authedPacket C.crypto secret initialServerIv acknowledgement)]⟩) ?_
    (.cons (s := ⟨⟨t, .opening, false, false, false⟩, true,
      ⟨.session secret (initialClientIv + 1) (initialServerIv + 1), [ack.bytes], [acknowledgement]⟩,
      [], []⟩) ?_ .nil)), rfl, ?_⟩
  · simp only [step, hack]
    rfl
  · simp only [step, hacknowledge, served, hdrop, hwire]
    rfl
  · simp only [step, hread, Option.map_some, afterRead, finishedStage_acknowledgement]
    rfl
  · refine ⟨rfl, rfl, heffect.secret.trans hsecret, ?_, ?_, rfl, rfl⟩
    · rw [heffect.clientIv, hclientIv]
      rfl
    · rw [heffect.serverIv, hserverIv]
      rfl

/-- The answer leads the client to the secret of the server. -/
theorem verified_run (h : Suited C E id) (hset : E.privateKeySet = true)
    (hkey : keyNonce.length = C.nonceSize) (hchallenge : challengeNonce.length = C.nonceSize)
    (hrandom : random.length = E.nonceSize + E.nonceSize)
    (hknown : secretFor E id.entityId keyNonce random = some secret) :
    ∃ k log, Answered E keyNonce challengeNonce random secret k ∧
      Run (step C E id) opened log ⟨⟨k, .handshake, false, false, false⟩, true,
        ⟨.verified secret k.serverChallengeNonce, [], []⟩, [], []⟩ ∧
      log.map Taken.event =
        [.clientRequest keyNonce challengeNonce, .serverRespond random, .clientVerify] := by
  rcases respond_cases h random hkey hchallenge with
    ⟨k, -, hnone, -⟩ | ⟨k, secret', heq, hsecret, hanswered⟩
  · exact absurd (hnone.symm.trans hknown) (by simp)
  · obtain rfl : secret' = secret := Option.some.inj (hsecret.symm.trans hknown)
    obtain ⟨request, hlog⟩ := hanswered.log
    have hwire : k.log.filterMap (wireOf E) = [.boxed (handshakeResponse E k)] := by
      rw [hlog]
      rfl
    obtain ⟨log, hrun, hevents⟩ := respond_run hset hkey hchallenge hrandom heq hwire
    have hverify : step C E id
        (answeredSession k keyNonce challengeNonce
          (handshakeResponse E k) .handshake) .clientVerify =
          some ⟨⟨k, .handshake, false, false, false⟩, true,
            ⟨.verified secret' k.serverChallengeNonce, [], []⟩, [], []⟩ := by
      simp only [step, answeredSession, verify_answer h hrandom hknown hanswered]
      rfl
    refine ⟨k, _, hanswered, hrun.snoc hverify, ?_⟩
    rw [List.map_append, hevents]
    rfl

theorem established_run (h : Suited C E id) (hset : E.privateKeySet = true)
    (hkey : keyNonce.length = C.nonceSize) (hchallenge : challengeNonce.length = C.nonceSize)
    (hrandom : random.length = E.nonceSize + E.nonceSize)
    (hknown : secretFor E id.entityId keyNonce random = some secret) :
    ∃ packet log s, Run (step C E id) opened log s ∧
      log.map Taken.event = [.clientRequest keyNonce challengeNonce, .serverRespond random,
        .clientVerify, .clientAcknowledge, .serverAcknowledge, .clientFinish [packet]] ∧
      Established secret s := by
  obtain ⟨k, log, hanswered, hrun, hevents⟩ :=
    verified_run h hset hkey hchallenge hrandom hknown
  obtain ⟨packet, log', s, hrun', hevents', hestablished⟩ :=
    acknowledge_run h k.serverChallengeNonce hanswered.secret hanswered.clientIv
      hanswered.serverIv
  refine ⟨packet, log ++ log', s, hrun.trans hrun', ?_, hestablished⟩
  rw [List.map_append, hevents, hevents']
  rfl

/-! ### A concrete suite -/

def checksum (b : Bytes) : UInt8 := UInt8.ofNat (b.foldl (fun n x => n + x.toNat) 0)

/-- A code is the sum of what it is over, a keystream counts from its vector on. -/
def plainSuite : CryptoSuite Bytes where
  keystream key iv i := UInt8.ofNat ((checksum key).toNat + iv.toNat + i)
  macShort key b := [checksum (key ++ b)]
  macSize := 1
  length_macShort _ _ := rfl

def plainClient : ClientSuite where
  suiteVeloV1 := 1
  publicKeySize := 32
  nonceSize := 32
  macSize := 1
  agreement _ _ serverNonce clientNonce := .ok (serverNonce ++ clientNonce)
  mac secret data := [checksum (secret ++ data)]
  crypto := plainSuite

def plainServer : Env where
  privateKeySet := true
  agentdUuid := 6
  agentdEncPubkey := List.replicate 32 10
  agentdEncPrivkey := List.replicate 32 11
  cryptoSuite := 1
  nonceSize := 32
  authorizedEntity u := if u = clientEntity.uuid then some clientEntity else none
  shortTermSecret _ _ serverNonce clientNonce := .ok (serverNonce ++ clientNonce)
  shortMac secret data := [checksum (secret ++ data)]
  authentic iv secret packet :=
    (ipcReadAuthedDataBlock plainSuite none secret iv [packet]).1.toOption
  sealedPacket iv secret payload := authedPacket plainSuite secret iv payload
  notAuthentic := malformedRequest

def plainIdentity : ClientIdentity := ⟨clientEntity.uuid, [9]⟩

theorem plain_suited : Suited plainClient plainServer plainIdentity where
  suite := rfl
  nonceSize := ⟨rfl, rfl⟩
  publicKeySize := ⟨rfl, rfl⟩
  mac := rfl
  macSize _ _ := rfl
  agreement _ _ _ _ _ h := h
  authentic iv secret p := by
    have hread : readPacket plainClient secret iv
        (authedPacket plainClient.crypto secret iv p.bytes) _ = some (.ok p.bytes) :=
          read_whole p rfl
    rw [readPacket, if_pos (List.flatten_singleton ..)] at hread
    exact congrArg Except.toOption (Option.some.inj hread)
  sealedPacket _ _ _ := rfl
  codeFits := by decide

/-! ### Agreement -/

/-- Whatever has happened: a client that has verified its server has the secret of the server;
neither side has received anything but a first part of what the other has sent; whoever reads next
reads the next payload of the other; and once a channel is empty everything was received and both
are at the same number. -/
structure Agreement (C : ClientSuite) (E : Env) (id : ClientIdentity) (s : Session) : Prop where
  secret : ∀ secret, clientSecret s.client.stage = some secret →
    s.server.context.sharedSecret = secret ∧
      ∃ keyNonce random, secretFor E id.entityId keyNonce random = some secret
  received : serverReceived s.server.context.log <+: s.client.sent ∧
    s.client.received <+: serverSent s.server.context.log
  serverReads : ∀ packet rest, s.toServer = .authed packet :: rest → ∃ payload,
    s.client.sent[(serverReceived s.server.context.log).length]? = some payload ∧
      E.authentic s.server.context.clientIv s.server.context.sharedSecret packet = some payload
  clientReads : ∀ packet rest secret iv, s.toClient = .authed packet :: rest →
    clientSecret s.client.stage = some secret → receiveIv s.client.stage = some iv → ∃ payload,
      (serverSent s.server.context.log)[s.client.received.length]? = some payload ∧
        readPacket C secret iv packet [packet] = some (.ok payload) ∧
        ∀ frags r, readPacket C secret iv packet frags = some r → r = .ok payload ∨ ∃ e,
          r = .error e
  serverCaughtUp : ∀ iv, sendIv s.client.stage = some iv → s.toServer = [] →
    serverReceived s.server.context.log = s.client.sent ∧ s.server.context.clientIv = iv
  clientCaughtUp : ∀ iv, receiveIv s.client.stage = some iv → s.toClient = [] →
    s.client.received = serverSent s.server.context.log ∧ iv = s.server.context.serverIv

theorem clientSecret_of_sendIv {stage : ClientStage} {iv : BitVec 64} (h : sendIv stage = some iv) :
    ∃ secret, clientSecret stage = some secret := by
  cases stage with
  | verified secret _ => exact ⟨secret, rfl⟩
  | acknowledged secret _ => exact ⟨secret, rfl⟩
  | session secret _ _ => exact ⟨secret, rfl⟩
  | idle => cases h
  | requested _ _ => cases h
  | ended => cases h

theorem sendIv_of_receiveIv {stage : ClientStage} {iv : BitVec 64} (h : receiveIv stage = some iv) :
    ∃ iv', sendIv stage = some iv' := by
  cases stage with
  | verified _ _ => exact ⟨_, rfl⟩
  | acknowledged _ iv' => exact ⟨iv', rfl⟩
  | session _ iv' _ => exact ⟨iv', rfl⟩
  | idle => cases h
  | requested _ _ => cases h
  | ended => cases h

theorem agreement_of_invariant (hs : Invariant C E id s) (h : Suited C E id) :
    Agreement C E id s := by
  have hlinked : ∀ iv, sendIv s.client.stage = some iv → Linked C E id s := by
    intro iv hiv
    obtain ⟨secret, hsecret⟩ := clientSecret_of_sendIv hiv
    exact (hs.of_secret hsecret).1
  refine ⟨?_, ?_, ?_, ?_, ?_, ?_⟩
  · intro secret hsecret
    obtain ⟨hlinked, rfl⟩ := hs.of_secret hsecret
    exact ⟨rfl, hlinked.known⟩
  · rcases hs.silent_or_linked with hsilent | hlinked
    · rw [hsilent.read, hsilent.received]
      exact ⟨List.nil_prefix, List.nil_prefix⟩
    · obtain ⟨j, hup, -⟩ := hlinked.up
      refine ⟨hup.in_order, ?_⟩
      rcases hlinked.down with ⟨iv, -, hdown⟩ | ⟨-, hreceived⟩
      · exact hdown.in_order
      · exact hreceived
  · intro packet rest hfront
    have hlinked := hs.of_packet hfront
    obtain ⟨j, hup, -⟩ := hlinked.up
    obtain ⟨payload, hnext, hauthentic, -⟩ := hlinked.front h hup hfront
    exact ⟨payload, hnext, hauthentic⟩
  · intro packet rest secret iv hfront hsecret hiv
    obtain ⟨hlinked, rfl⟩ := hs.of_secret hsecret
    rcases hlinked.down with ⟨iv', hiv', hdown⟩ | ⟨hended, -⟩
    · obtain rfl : iv = iv' := Option.some.inj (hiv.symm.trans hiv')
      obtain ⟨p, hnext, hpacket, -⟩ := hlinked.clientFront hdown hfront
      exact ⟨p.bytes, hnext, read_whole p hpacket, fun frags r => readPacket_cases p hpacket⟩
    · rw [hended] at hiv
      cases hiv
  · intro iv hiv hempty
    obtain ⟨j, hup, hj⟩ := (hlinked iv hiv).up
    rw [LinkedSession.up, hempty] at hup
    obtain ⟨hall, hnumber⟩ := hup.all
    exact ⟨hall, hnumber.trans (hj iv hiv).symm⟩
  · intro iv hiv hempty
    obtain ⟨iv', hsend⟩ := sendIv_of_receiveIv hiv
    rcases (hlinked iv' hsend).down with ⟨iv'', hiv'', hdown⟩ | ⟨hended, -⟩
    · obtain rfl : iv = iv'' := Option.some.inj (hiv.symm.trans hiv'')
      rw [LinkedSession.down, hempty] at hdown
      exact hdown.all
    · rw [hended] at hiv
      cases hiv

theorem client_and_server_agree {log : List (Taken Session SessionEvent)} (h : Suited C E id)
    (hrun : Run (step C E id) opened log s) : Agreement C E id s :=
  agreement_of_invariant (hrun.invariant opened_invariant (step_invariant h)) h

theorem established_session_agrees :
    ∃ log s, Run (step plainClient plainServer plainIdentity) opened log s ∧
      s.client.stage ≠ .ended ∧ Agreement plainClient plainServer plainIdentity s := by
  obtain ⟨packet, log, s, hrun, -, hestablished⟩ := established_run plain_suited rfl
    (List.length_replicate : (List.replicate 32 (1 : UInt8)).length = 32)
    (List.length_replicate : (List.replicate 32 (2 : UInt8)).length = 32)
    (List.length_replicate : (List.replicate 64 (3 : UInt8)).length = 64) rfl
  refine ⟨log, s, hrun, ?_, client_and_server_agree plain_suited hrun⟩
  rw [hestablished.client]
  exact ClientStage.noConfusion

/-! ### Handshakes are decided -/

/-- An undisturbed handshake leads both sides into the session with one secret exactly when the
server finds one for the client, and else both give up. -/
theorem handshake_is_decided (h : Suited C E id) (hset : E.privateKeySet = true)
    (hkey : keyNonce.length = C.nonceSize) (hchallenge : challengeNonce.length = C.nonceSize)
    (hrandom : random.length = E.nonceSize + E.nonceSize) :
    (∀ secret, secretFor E id.entityId keyNonce random = some secret →
      ∃ packet log s, Run (step C E id) opened log s ∧
        log.map Taken.event = [.clientRequest keyNonce challengeNonce, .serverRespond random,
          .clientVerify, .clientAcknowledge, .serverAcknowledge, .clientFinish [packet]] ∧
        Established secret s) ∧
    (secretFor E id.entityId keyNonce random = none →
      ∃ log s, Run (step C E id) opened log s ∧ log.map Taken.event =
          [.clientRequest keyNonce challengeNonce, .serverRespond random, .clientVerify] ∧
        s.client.stage = .ended ∧ s.server.stage = .gone) :=
  ⟨fun _ hknown => established_run h hset hkey hchallenge hrandom hknown,
    fun hnone => refused_run h hset hkey hchallenge hrandom hnone⟩

theorem plain_handshake_is_decided :
    (∃ packet log s, Run (step plainClient plainServer plainIdentity) opened log s ∧
      log.map Taken.event = [.clientRequest (List.replicate 32 1) (List.replicate 32 2),
        .serverRespond (List.replicate 64 3), .clientVerify, .clientAcknowledge, .serverAcknowledge,
        .clientFinish [packet]] ∧
      Established (List.replicate 32 3 ++ List.replicate 32 1) s) :=
  (handshake_is_decided plain_suited rfl rfl rfl rfl).1 _ rfl

end SessionAgreement
