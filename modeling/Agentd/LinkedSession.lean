import Agentd.HandshakeAgreement

/-! # Linked sessions

Nothing is encrypted before both sides have a secret. From then on both have the same one, and the
packets of either channel are numbered from where its reader is to where its writer is. -/
namespace LinkedSession

open ByteString
open DataserviceRecords
open AuthedPackets
open ClientProtocol
open ProtocolFiber
open HandshakeSteps
open OrderedChannels
open ClientSession
open HandshakeAgreement

variable {C : ClientSuite} {E : Env} {id : ClientIdentity} {k t : Context}

/-! ### What the server does with its channels -/

def sealedWire (C : ClientSuite) (secret : Bytes) (iv : BitVec 64) (payload : Bytes) : Wire :=
  .authed (authedPacket C.crypto secret iv payload)

def advanced (iv : BitVec 64) : Option Bytes → BitVec 64
  | none => iv
  | some _ => iv + 1

structure Effect (E : Env) (k t : Context) (got put : Option Bytes) : Prop where
  secret : t.sharedSecret = k.sharedSecret
  clientIv : t.clientIv = advanced k.clientIv got
  serverIv : t.serverIv = advanced k.serverIv put
  log : ∃ l, t.log = k.log ++ l ∧ serverReceived l = got.toList ∧ serverSent l = put.toList ∧
    l.filterMap (wireOf E) =
      (put.map fun p => .authed (E.sealedPacket k.serverIv k.sharedSecret p)).toList

/-- The acknowledgement of the client is read, and it is answered. -/
theorem acknowledge_effect {packet payload : Bytes}
    (h : E.authentic k.clientIv k.sharedSecret packet = some payload) :
    ∃ t, acknowledgeHandshake E (workingHandshake [] [] packet) k = (t, none) ∧
      Effect E k t (some payload) (some (responsePayload handshakeAcknowledge 0 0)) := by
  have hread : protocolReadHandshakeAckReq E (workingHandshake [] [] packet) k =
      (advanceClientIv (record k (.readAuthed k.clientIv k.sharedSecret packet (some payload))),
        none) := by
    simp only [protocolReadHandshakeAckReq, psockReadAuthedData, workingHandshake, h]
  rw [acknowledgeHandshake, hread]
  refine ⟨_, rfl, rfl, rfl, rfl, ⟨[.readAuthed k.clientIv k.sharedSecret packet (some payload),
    .writeAuthed k.serverIv k.sharedSecret (responsePayload handshakeAcknowledge 0 0) true],
    ?_, rfl, rfl, rfl⟩⟩
  exact List.append_assoc _ _ _

/-- A packet is read, and it is dispatched unless it is too short. -/
theorem turn_effect (o : TurnOutcome) {packet payload : Bytes}
    (h : E.authentic k.clientIv k.sharedSecret packet = some payload) :
    Effect E k (protocolReadDecodeAndDispatchPacket E { o with read := ⟨packet, none, none⟩ } k).1
      (some payload) none := by
  simp only [protocolReadDecodeAndDispatchPacket, psockReadAuthedData, h, Option.getD_some]
  split
  · exact ⟨rfl, rfl, rfl, ⟨[.readAuthed k.clientIv k.sharedSecret packet (some payload)], rfl,
      rfl, rfl, rfl⟩⟩
  · refine ⟨rfl, rfl, rfl, ⟨[.readAuthed k.clientIv k.sharedSecret packet (some payload),
      .dispatch payload], ?_, rfl, rfl, rfl⟩⟩
    exact List.append_assoc _ _ _

theorem write_effect (payload : Bytes) :
    Effect E k (advanceServerIv (psockWriteAuthedData k payload written).1) none (some payload) :=
  ⟨rfl, rfl, rfl, ⟨[.writeAuthed k.serverIv k.sharedSecret payload true], rfl, rfl, rfl, rfl⟩⟩

theorem Effect.none_of_log {l : List Event} (hsecret : t.sharedSecret = k.sharedSecret)
    (hclientIv : t.clientIv = k.clientIv) (hserverIv : t.serverIv = k.serverIv)
    (hlog : t.log = k.log ++ l) (hl : ∀ e ∈ l, e = .contextOpen ∨ e = .contextClose) :
    Effect E k t none none := by
  have hnone : ∀ {γ : Type} (f : Event → Option γ), f .contextOpen = none → f .contextClose = none →
      l.filterMap f = [] := by
    intro γ f hopen hclose
    refine List.filterMap_eq_nil_iff.mpr fun e he => ?_
    rcases hl e he with rfl | rfl
    · exact hopen
    · exact hclose
  exact ⟨hsecret, hclientIv, hserverIv,
    ⟨l, hlog, hnone _ rfl rfl, hnone _ rfl rfl, hnone _ rfl rfl⟩⟩

/-- What the server does besides reads nothing and writes nothing. -/
theorem other_effect (s : Connection) {a : Action} (h : isOther a = true) :
    Effect E s.context (next E s a).context none none := by
  cases a with
  | handshake o => cases h
  | turn o => cases h
  | write payload w => cases h
  | openContext o =>
    cases o with
    | notSent e => exact .none_of_log rfl rfl rfl (List.append_nil _).symm (by simp)
    | notReceived opened e =>
      cases opened with
      | true => exact .none_of_log rfl rfl rfl rfl (by simp)
      | false => exact .none_of_log rfl rfl rfl (List.append_nil _).symm (by simp)
    | received opened release =>
      cases opened with
      | true => exact .none_of_log rfl rfl rfl rfl (by simp)
      | false => exact .none_of_log rfl rfl rfl (List.append_nil _).symm (by simp)
  | release o =>
    cases hopened : s.context.dataserviceContextOpened with
    | false =>
      simp only [next, hopened]
      exact .none_of_log rfl rfl rfl (List.append_nil _).symm (by simp)
    | true =>
      simp only [next, hopened]
      cases o with
      | notSent e => exact .none_of_log rfl rfl rfl (List.append_nil _).symm (by simp)
      | notReceived e => exact .none_of_log rfl rfl rfl rfl (by simp)
      | received release => exact .none_of_log rfl rfl rfl rfl (by simp)
  | addWriter retval => exact .none_of_log rfl rfl rfl (List.append_nil _).symm (by simp)
  | shutdownWriter retval => exact .none_of_log rfl rfl rfl (List.append_nil _).symm (by simp)
  | writerFails => exact .none_of_log rfl rfl rfl (List.append_nil _).symm (by simp)
  | writerStops => exact .none_of_log rfl rfl rfl (List.append_nil _).symm (by simp)

/-! ### Sessions -/

def clientSecret : ClientStage → Option Bytes
  | .verified secret _ => some secret
  | .acknowledged secret _ => some secret
  | .session secret _ _ => some secret
  | _ => none

def sendIv : ClientStage → Option (BitVec 64)
  | .verified _ _ => some initialClientIv
  | .acknowledged _ iv => some iv
  | .session _ iv _ => some iv
  | _ => none

def receiveIv : ClientStage → Option (BitVec 64)
  | .verified _ _ => some initialServerIv
  | .acknowledged _ _ => some initialServerIv
  | .session _ _ iv => some iv
  | _ => none

def up (C : ClientSuite) (s : Session) : BitVec 64 → Prop :=
  Delivers (· + 1) (sealedWire C s.server.context.sharedSecret) s.client.sent
    (serverReceived s.server.context.log) s.server.context.clientIv s.toServer

def down (C : ClientSuite) (s : Session) (iv : BitVec 64) : Prop :=
  Delivers (· + 1) (sealedWire C s.server.context.sharedSecret)
    (serverSent s.server.context.log) s.client.received iv s.toClient s.server.context.serverIv

structure Linked (C : ClientSuite) (E : Env) (id : ClientIdentity) (s : Session) : Prop where
  responded : s.responded = true
  known : ∃ keyNonce random,
    secretFor E id.entityId keyNonce random = some s.server.context.sharedSecret
  stage : clientSecret s.client.stage = some s.server.context.sharedSecret ∨ s.client.stage = .ended
  up : ∃ j, up C s j ∧ ∀ iv, sendIv s.client.stage = some iv → iv = j
  down : (∃ iv, receiveIv s.client.stage = some iv ∧ down C s iv) ∨
    s.client.stage = .ended ∧ s.client.received <+: serverSent s.server.context.log
  sentFits : ∀ p ∈ s.client.sent, p.length ≤ maxAuthedSize
  writtenFits : ∀ p ∈ serverSent s.server.context.log, p.length ≤ maxAuthedSize

variable {s : Session}

theorem serverReceived_append (log l : List Event) :
    serverReceived (log ++ l) = serverReceived log ++ serverReceived l := List.filterMap_append

theorem serverSent_append (log l : List Event) :
    serverSent (log ++ l) = serverSent log ++ serverSent l := List.filterMap_append

theorem opens_sealed (h : Suited C E id) {iv : BitVec 64} {secret packet payload : Bytes}
    (hfits : payload.length ≤ maxAuthedSize)
    (hpacket : .authed packet = sealedWire C secret iv payload) :
    E.authentic iv secret packet = some payload := by
  rw [Wire.authed.inj hpacket]
  exact h.authentic iv secret ⟨payload, hfits⟩

/-- The front of the channel to the server is the next payload that the client has sent. -/
theorem Linked.front (hs : Linked C E id s) (h : Suited C E id) {packet : Bytes} {rest : List Wire}
    {j : BitVec 64} (hup : LinkedSession.up C s j) (hfront : s.toServer = .authed packet :: rest) :
    ∃ payload, s.client.sent[(serverReceived s.server.context.log).length]? = some payload ∧
      E.authentic s.server.context.clientIv s.server.context.sharedSecret packet = some payload ∧
      Delivers (· + 1) (sealedWire C s.server.context.sharedSecret) s.client.sent
        (serverReceived s.server.context.log ++ [payload])
        (s.server.context.clientIv + 1) rest j := by
  rw [LinkedSession.up, hfront] at hup
  obtain ⟨payload, hnext, hpacket, hrest⟩ := hup.receive
  exact ⟨payload, hnext, opens_sealed h (hs.sentFits payload (List.mem_of_getElem? hnext)) hpacket,
    hrest⟩

/-- The front of the channel to the client is the next payload that the server has written. -/
theorem Linked.clientFront (hs : Linked C E id s) {packet : Bytes} {rest : List Wire}
    {iv : BitVec 64} (hdown : LinkedSession.down C s iv)
    (hfront : s.toClient = .authed packet :: rest) :
    ∃ p : AuthedPayload,
      (serverSent s.server.context.log)[s.client.received.length]? = some p.bytes ∧
      packet = authedPacket C.crypto s.server.context.sharedSecret iv p.bytes ∧
      Delivers (· + 1) (sealedWire C s.server.context.sharedSecret)
        (serverSent s.server.context.log) (s.client.received ++ [p.bytes]) (iv + 1) rest
        s.server.context.serverIv := by
  rw [LinkedSession.down, hfront] at hdown
  obtain ⟨payload, hnext, hpacket, hrest⟩ := hdown.receive
  exact ⟨⟨payload, hs.writtenFits payload (List.mem_of_getElem? hnext)⟩, hnext,
    Wire.authed.inj hpacket, hrest⟩

/-- The server goes on. -/
theorem Linked.serverMoves (hs : Linked C E id s) (h : Suited C E id) {t : Connection}
    (got put : Option Bytes)
    (toServer : List Wire) (heffect : Effect E s.server.context t.context got put)
    (hput : ∀ p ∈ put, p.length ≤ maxAuthedSize)
    (hup : ∃ j, Delivers (· + 1) (sealedWire C s.server.context.sharedSecret) s.client.sent
      (serverReceived s.server.context.log ++ got.toList) (advanced s.server.context.clientIv got)
      toServer j ∧ ∀ iv, sendIv s.client.stage = some iv → iv = j) :
    Linked C E id { served E s t with toServer := toServer } := by
  obtain ⟨hsecret, hclientIv, hserverIv, l, hlog, hreceived, hsent, hwires⟩ := heffect
  have hdrop : t.context.log.drop s.server.context.log.length = l := by
    rw [hlog, List.drop_left]
  have hsent' : serverSent t.context.log = serverSent s.server.context.log ++ put.toList := by
    rw [hlog, serverSent_append, hsent]
  refine ⟨hs.responded, ?_, ?_, ?_, ?_, hs.sentFits, ?_⟩
  · simpa only [served, hsecret] using hs.known
  · simpa only [served, hsecret] using hs.stage
  · simpa only [served, LinkedSession.up, hsecret, hclientIv, hlog, serverReceived_append,
      hreceived] using hup
  · simp only [served, LinkedSession.down, hsecret, hserverIv, hdrop, hwires, hsent']
    rcases hs.down with ⟨iv, hiv, hdown⟩ | ⟨hended, hreceived⟩
    · refine Or.inl ⟨iv, hiv, ?_⟩
      cases put with
      | none =>
        simp only [Option.map_none, Option.toList_none, List.append_nil, advanced]
        exact hdown
      | some p =>
        have hsealed := h.sealedPacket s.server.context.serverIv s.server.context.sharedSecret
          ⟨p, hput p rfl⟩
        simp only [Option.map_some, Option.toList_some, hsealed, advanced]
        exact hdown.send p
    · exact Or.inr ⟨hended, hreceived.trans (List.prefix_append _ _)⟩
  · intro p hp
    simp only [served, hsent'] at hp
    rcases List.mem_append.mp hp with hp | hp
    · exact hs.writtenFits p hp
    · exact hput p (Option.mem_toList.mp hp)

/-- The client sends. -/
theorem Linked.clientSends (hs : Linked C E id s) {iv : BitVec 64} {payload : Bytes}
    {stage : ClientStage} (hsend : sendIv s.client.stage = some iv)
    (hfits : payload.length ≤ maxAuthedSize) (hsend' : sendIv stage = some (iv + 1))
    (hreceive : receiveIv stage = receiveIv s.client.stage)
    (hsecret : clientSecret stage = clientSecret s.client.stage) :
    Linked C E id { s with
      client := clientSent s.client payload stage
      toServer := s.toServer ++
        [.authed (authedPacket C.crypto s.server.context.sharedSecret iv payload)] } := by
  have hlive : s.client.stage ≠ .ended := by
    intro hended
    rw [hended] at hsend
    cases hsend
  refine ⟨hs.responded, hs.known, ?_, ?_, ?_, ?_, hs.writtenFits⟩
  · exact Or.inl (hsecret.trans (hs.stage.resolve_right hlive))
  · obtain ⟨j, hup, hj⟩ := hs.up
    obtain rfl := hj iv hsend
    refine ⟨iv + 1, hup.send payload, fun iv' hiv' => ?_⟩
    exact (Option.some.inj (hsend'.symm.trans hiv')).symm
  · rcases hs.down with ⟨iv', hiv', hdown⟩ | ⟨hended, -⟩
    · exact Or.inl ⟨iv', hreceive.trans hiv', hdown⟩
    · exact absurd hended hlive
  · intro p hp
    rcases List.mem_append.mp hp with hp | hp
    · exact hs.sentFits p hp
    · rw [List.mem_singleton.mp hp]
      exact hfits

theorem Linked.ends (hs : Linked C E id s) (rest : List Wire) :
    Linked C E id { s with client := clientStep s.client .ended, toClient := rest } := by
  refine ⟨hs.responded, hs.known, Or.inr rfl, ?_, Or.inr ⟨rfl, ?_⟩, hs.sentFits, hs.writtenFits⟩
  · obtain ⟨j, hup, -⟩ := hs.up
    exact ⟨j, hup, fun iv hiv => by cases hiv⟩
  · rcases hs.down with ⟨iv, -, hdown⟩ | ⟨-, hreceived⟩
    · exact hdown.in_order
    · exact hreceived

/-- The client receives what is at the front, or it ends. -/
theorem Linked.clientReceives (hs : Linked C E id s) {iv : BitVec 64} {packet : Bytes}
    {rest : List Wire} {frags : List Bytes} {r : Except AuthedError Bytes}
    {stage : Bytes → ClientStage} (hreceive : receiveIv s.client.stage = some iv)
    (hfront : s.toClient = .authed packet :: rest)
    (hread : readPacket C s.server.context.sharedSecret iv packet frags = some r)
    (hstage : ∀ val, stage val = .ended ∨ (clientSecret (stage val) = clientSecret s.client.stage ∧
      sendIv (stage val) = sendIv s.client.stage ∧ receiveIv (stage val) = some (iv + 1))) :
    Linked C E id (afterRead s rest stage r) := by
  have hlive : s.client.stage ≠ .ended := by
    intro hended
    rw [hended] at hreceive
    cases hreceive
  obtain ⟨hended, -⟩ | ⟨iv', hiv', hdown⟩ := hs.down.symm
  · exact absurd hended hlive
  obtain rfl : iv = iv' := Option.some.inj (hreceive.symm.trans hiv')
  obtain ⟨p, -, hpacket, hrest⟩ := hs.clientFront hdown hfront
  rcases readPacket_cases p hpacket hread with rfl | ⟨e, rfl⟩
  · refine ⟨hs.responded, hs.known, ?_, ?_, ?_, hs.sentFits, hs.writtenFits⟩
    · rcases hstage p.bytes with hended | ⟨hsecret, -, -⟩
      · exact Or.inr hended
      · exact Or.inl (hsecret.trans (hs.stage.resolve_right hlive))
    · obtain ⟨j, hup, hj⟩ := hs.up
      refine ⟨j, hup, fun iv' hiv' => ?_⟩
      rcases hstage p.bytes with hended | ⟨-, hsend, -⟩
      · have hnone : sendIv (stage p.bytes) = none := by rw [hended]; rfl
        cases hnone.symm.trans hiv'
      · exact hj iv' (hsend.symm.trans hiv')
    · rcases hstage p.bytes with hended | ⟨-, -, hreceive'⟩
      · exact Or.inr ⟨hended, hrest.in_order⟩
      · exact Or.inl ⟨iv + 1, hreceive', hrest⟩
  · exact hs.ends rest

/-! ### Before the secret is known to both -/

structure Silent (s : Session) : Prop where
  sent : s.client.sent = []
  received : s.client.received = []
  written : serverSent s.server.context.log = []
  read : serverReceived s.server.context.log = []
  stage : s.server.stage = .handshake ∨ s.server.stage = .gone
  idle : s.server.writing = false
  closed : s.server.context.dataserviceContextOpened = false

inductive Requesting (C : ClientSuite) (id : ClientIdentity) (s : Session) : Prop
  | idle (stage : s.client.stage = .idle) (toServer : s.toServer = [])
  | ended (stage : s.client.stage = .ended) (toServer : s.toServer = [])
  | requested {keyNonce challengeNonce : Bytes} (key : keyNonce.length = C.nonceSize)
      (challenge : challengeNonce.length = C.nonceSize)
      (stage : s.client.stage = .requested keyNonce challengeNonce ∨ s.client.stage = .ended)
      (toServer : s.toServer =
        [.boxed (sendreqHandshakeRequest C id.entityId keyNonce challengeNonce)])

inductive Answering (E : Env) (id : ClientIdentity) (s : Session) : Prop
  | ended (stage : s.client.stage = .ended)
  | refused {keyNonce challengeNonce : Bytes}
      (stage : s.client.stage = .requested keyNonce challengeNonce)
      (toClient : s.toClient = [.boxed refusal])
  | answered {keyNonce challengeNonce random secret : Bytes}
      (stage : s.client.stage = .requested keyNonce challengeNonce)
      (toClient : s.toClient = [.boxed (handshakeResponse E s.server.context)])
      (size : random.length = E.nonceSize + E.nonceSize)
      (known : secretFor E id.entityId keyNonce random = some secret)
      (answer : Answered E keyNonce challengeNonce random secret s.server.context)

inductive Invariant (C : ClientSuite) (E : Env) (id : ClientIdentity) (s : Session) : Prop
  | fresh (silent : Silent s) (responded : s.responded = false)
      (context : s.server.context = newContext) (toClient : s.toClient = [])
      (requesting : Requesting C id s)
  | answering (silent : Silent s) (responded : s.responded = true) (toServer : s.toServer = [])
      (answering : Answering E id s)
  | linked (linked : Linked C E id s)

theorem opened_invariant : Invariant C E id opened :=
  .fresh ⟨rfl, rfl, rfl, rfl, Or.inl rfl, rfl, rfl⟩ rfl rfl rfl (.idle rfl rfl)

/-- All that such a server can do besides is to release what is left when it is gone. -/
theorem Silent.other (hs : Silent s) {a : Action} (hother : isOther a = true)
    (henabled : Enabled s.server a) :
    ∃ server, served E s (next E s.server a) = { s with server := server } ∧
      server.context = s.server.context ∧ server.stage = s.server.stage ∧
        server.writing = false := by
  have hnot : ∀ {stage : Stage}, s.server.stage = stage → stage ≠ .handshake → stage ≠ .gone →
      False := by
    intro stage hstage hhandshake hgone
    rcases hs.stage with h | h
    · exact hhandshake (hstage.symm.trans h)
    · exact hgone (hstage.symm.trans h)
  cases a with
  | handshake o => cases hother
  | turn o => cases hother
  | write payload w => cases hother
  | openContext o => exact (hnot henabled (by decide) (by decide)).elim
  | addWriter retval => exact (hnot henabled (by decide) (by decide)).elim
  | shutdownWriter retval => exact (hnot henabled (by decide) (by decide)).elim
  | writerFails => exact absurd (hs.idle.symm.trans henabled) (by decide)
  | writerStops => exact absurd (hs.idle.symm.trans henabled.1) (by decide)
  | release o =>
    refine ⟨{ s.server with released := true }, ?_, rfl, rfl, hs.idle⟩
    simp only [served, next, hs.closed, Bool.false_eq_true, if_false, List.drop_length,
      List.filterMap_nil, List.append_nil]

/-- A server of which only the stage has changed. -/
theorem Silent.server (hs : Silent s) {server : Connection}
    (hcontext : server.context = s.server.context) (hidle : server.writing = false)
    (hstage : server.stage = .handshake ∨ server.stage = .gone) :
    Silent { s with server := server } := by
  refine ⟨hs.sent, hs.received, ?_, ?_, hstage, hidle, ?_⟩
  · simpa only [hcontext] using hs.written
  · simpa only [hcontext] using hs.read
  · simpa only [hcontext] using hs.closed

theorem Linked.server (hs : Linked C E id s) {server : Connection}
    (hcontext : server.context = s.server.context) : Linked C E id { s with server := server } := by
  refine ⟨hs.responded, ?_, ?_, ?_, ?_, hs.sentFits, ?_⟩
  · simpa only [hcontext] using hs.known
  · simpa only [hcontext] using hs.stage
  · simpa only [LinkedSession.up, hcontext] using hs.up
  · simpa only [LinkedSession.down, hcontext] using hs.down
  · simpa only [hcontext] using hs.writtenFits

theorem Requesting.server (hs : Requesting C id s) (server : Connection) :
    Requesting C id { s with server := server } := by
  cases hs with
  | idle stage toServer => exact .idle stage toServer
  | ended stage toServer => exact .ended stage toServer
  | requested key challenge stage toServer => exact .requested key challenge stage toServer

theorem Answering.server (hs : Answering E id s) {server : Connection}
    (hcontext : server.context = s.server.context) :
    Answering E id { s with server := server } := by
  cases hs with
  | ended stage => exact .ended stage
  | refused stage toClient => exact .refused stage toClient
  | answered stage toClient size known answer =>
    refine .answered stage (toClient.trans ?_) size known ?_
    · simp only [hcontext]
    · simpa only [hcontext] using answer

/-! ### Steps -/

theorem clientRequest_step {keyNonce challengeNonce : Bytes} (hs : Invariant C E id s)
    (hkey : keyNonce.length = C.nonceSize) (hchallenge : challengeNonce.length = C.nonceSize)
    (hstage : s.client.stage = .idle) :
    Invariant C E id { s with
      client := clientStep s.client (.requested keyNonce challengeNonce)
      toServer := s.toServer ++
        [.boxed (sendreqHandshakeRequest C id.entityId keyNonce challengeNonce)] } := by
  cases hs with
  | fresh silent responded context toClient requesting =>
    have hempty : s.toServer = [] := by
      cases requesting with
      | idle _ toServer => exact toServer
      | ended _ toServer => exact toServer
      | requested _ _ stage _ =>
        rcases stage with h | h
        · cases hstage.symm.trans h
        · cases hstage.symm.trans h
    refine .fresh ⟨silent.sent, silent.received, silent.written, silent.read, silent.stage,
      silent.idle, silent.closed⟩ responded context toClient
      (.requested hkey hchallenge (Or.inl rfl) ?_)
    simp only [hempty, List.nil_append]
  | answering _ _ _ answering =>
    cases answering with
    | ended h => cases hstage.symm.trans h
    | refused h _ => cases hstage.symm.trans h
    | answered h _ _ _ _ => cases hstage.symm.trans h
  | linked linked =>
    rcases linked.stage with h | h
    · rw [hstage] at h
      cases h
    · cases hstage.symm.trans h

theorem channels_of_refused (hk : Refused k) :
    serverSent k.log = [] ∧ serverReceived k.log = [] ∧
      k.log.filterMap (wireOf E) = [.boxed refusal] := by
  obtain ⟨l, hlog, hl⟩ := hk.log
  have hnone : ∀ {γ : Type} (f : Event → Option γ), (∀ request, f (.readBoxed request) = none) →
      (∀ random, f (.random random) = none) → l.filterMap f = [] := by
    intro γ f hread hrandom
    refine List.filterMap_eq_nil_iff.mpr fun e he => ?_
    rcases hl e he with ⟨request, rfl⟩ | ⟨random, rfl⟩
    · exact hread request
    · exact hrandom random
  refine ⟨?_, ?_, ?_⟩
  · rw [hlog, serverSent_append, serverSent, hnone _ (fun _ => rfl) fun _ => rfl]
    rfl
  · rw [hlog, serverReceived_append, serverReceived, hnone _ (fun _ => rfl) fun _ => rfl]
    rfl
  · rw [hlog, List.filterMap_append, hnone _ (fun _ => rfl) fun _ => rfl]
    rfl

/-- The server takes the request only once. -/
theorem serverRespond_step {random request : Bytes} {rest : List Wire} {k : Context}
    {retval : Retval} (hs : Invariant C E id s) (h : Suited C E id)
    (hresponded : s.responded = false) (hrandom : random.length = E.nonceSize + E.nonceSize)
    (hfront : s.toServer = .boxed request :: rest)
    (hrespond : respondHandshake E (workingHandshake request random []) s.server.context =
      (k, retval)) :
    Invariant C E id { served E s
        { s.server with context := k, stage := stageAfter .handshake retval } with
      responded := true, toServer := rest } := by
  cases hs with
  | answering _ responded _ _ => exact absurd (hresponded.symm.trans responded) (by decide)
  | linked linked => exact absurd (hresponded.symm.trans linked.responded) (by decide)
  | fresh silent _ context toClient requesting =>
    cases requesting with
    | idle _ toServer => rw [toServer] at hfront; cases hfront
    | ended _ toServer => rw [toServer] at hfront; cases hfront
    | requested hkey hchallenge stage toServer =>
      rename_i keyNonce challengeNonce
      rw [toServer] at hfront
      obtain ⟨hrequest, rfl⟩ := List.cons.inj hfront
      obtain rfl := Wire.boxed.inj hrequest
      have hwires : ∀ server : Connection, (served E s server).toClient =
          server.context.log.filterMap (wireOf E) := by
        intro server
        simp only [served, toClient, context, newContext, List.length_nil, List.drop_zero,
          List.nil_append]
      rw [context] at hrespond
      rcases respond_cases h random hkey hchallenge with
        ⟨k', heq, -, hrefused⟩ | ⟨k', secret, heq, hknown, hanswered⟩
      · obtain ⟨rfl, rfl⟩ := Prod.mk.inj (hrespond.symm.trans heq)
        obtain ⟨hsent, hreceived, hwire⟩ := channels_of_refused (E := E) hrefused
        refine .answering ⟨silent.sent, silent.received, hsent, hreceived, Or.inr rfl, silent.idle,
          hrefused.closed⟩ rfl rfl ?_
        rcases stage with hrequested | hended
        · exact .refused hrequested ((hwires _).trans hwire)
        · exact .ended hended
      · obtain ⟨rfl, rfl⟩ := Prod.mk.inj (hrespond.symm.trans heq)
        obtain ⟨request, hlog⟩ := hanswered.log
        refine .answering ⟨silent.sent, silent.received, ?_, ?_, Or.inl rfl, silent.idle,
          hanswered.closed⟩ rfl rfl ?_
        · simp only [served, hlog]
          rfl
        · simp only [served, hlog]
          rfl
        rcases stage with hrequested | hended
        · refine .answered hrequested ((hwires _).trans ?_) hrandom hknown hanswered
          simp only [hlog]
          rfl
        · exact .ended hended

theorem clientVerify_step {keyNonce challengeNonce val : Bytes} {rest : List Wire}
    (hs : Invariant C E id s) (h : Suited C E id)
    (hstage : s.client.stage = .requested keyNonce challengeNonce)
    (hfront : s.toClient = .boxed val :: rest) :
    Invariant C E id
      (match recvrespHandshakeRequest C id.privkey keyNonce challengeNonce val with
      | .ok offer => { s with
          client := clientStep s.client (.verified offer.sharedSecret offer.serverChallengeNonce)
          toClient := rest }
      | .error _ => { s with client := clientStep s.client .ended, toClient := rest }) := by
  cases hs with
  | fresh _ _ _ toClient _ => rw [toClient] at hfront; cases hfront
  | linked linked =>
    rcases linked.stage with h | h
    · rw [hstage] at h
      cases h
    · cases hstage.symm.trans h
  | answering silent responded toServer answering =>
    cases answering with
    | ended stage => cases hstage.symm.trans stage
    | refused stage toClient =>
      obtain ⟨rfl, rfl⟩ := ClientStage.requested.inj (hstage.symm.trans stage)
      obtain ⟨hval, rfl⟩ := List.cons.inj (hfront.symm.trans toClient)
      obtain rfl := Wire.boxed.inj hval
      rw [verify_refusal]
      exact .answering ⟨silent.sent, silent.received, silent.written, silent.read, silent.stage,
        silent.idle, silent.closed⟩ responded toServer (.ended rfl)
    | answered stage toClient size known answer =>
      obtain ⟨rfl, rfl⟩ := ClientStage.requested.inj (hstage.symm.trans stage)
      obtain ⟨hval, rfl⟩ := List.cons.inj (hfront.symm.trans toClient)
      obtain rfl := Wire.boxed.inj hval
      rename_i random secret
      rw [verify_answer h size known answer]
      refine .linked ⟨responded, ⟨keyNonce, random, ?_⟩, Or.inl ?_, ?_, Or.inl ?_, ?_, ?_⟩
      · exact known.trans (congrArg some answer.secret.symm)
      · exact congrArg some answer.secret.symm
      · refine ⟨initialClientIv, ?_, fun iv hiv => (Option.some.inj hiv).symm⟩
        simp only [LinkedSession.up, clientStep, silent.sent, silent.read, answer.clientIv,
          toServer]
        exact .start _
      · refine ⟨initialServerIv, rfl, ?_⟩
        simp only [LinkedSession.down, clientStep, silent.received, silent.written, answer.serverIv]
        exact .start _
      · simp only [clientStep, silent.sent]
        exact fun p hp => absurd hp List.not_mem_nil
      · simp only [silent.written]
        exact fun p hp => absurd hp List.not_mem_nil

/-! A client with a secret, a packet for the server and a server in its session are linked. -/

theorem Invariant.of_secret (hs : Invariant C E id s) {secret : Bytes}
    (h : clientSecret s.client.stage = some secret) :
    Linked C E id s ∧ s.server.context.sharedSecret = secret := by
  cases hs with
  | fresh _ _ _ _ requesting =>
    cases requesting with
    | idle stage _ => rw [stage] at h; cases h
    | ended stage _ => rw [stage] at h; cases h
    | requested _ _ stage _ =>
      rcases stage with stage | stage
      · rw [stage] at h; cases h
      · rw [stage] at h; cases h
  | answering _ _ _ answering =>
    cases answering with
    | ended stage => rw [stage] at h; cases h
    | refused stage _ => rw [stage] at h; cases h
    | answered stage _ _ _ _ => rw [stage] at h; cases h
  | linked linked =>
    rcases linked.stage with hsecret | hended
    · exact ⟨linked, Option.some.inj (hsecret.symm.trans h)⟩
    · rw [hended] at h
      cases h

theorem Invariant.of_packet (hs : Invariant C E id s) {packet : Bytes} {rest : List Wire}
    (h : s.toServer = .authed packet :: rest) : Linked C E id s := by
  cases hs with
  | fresh _ _ _ _ requesting =>
    cases requesting with
    | idle _ toServer => cases toServer.symm.trans h
    | ended _ toServer => cases toServer.symm.trans h
    | requested _ _ _ toServer => cases toServer.symm.trans h
  | answering _ _ toServer _ => cases toServer.symm.trans h
  | linked linked => exact linked

theorem Invariant.silent_or_linked (hs : Invariant C E id s) : Silent s ∨ Linked C E id s := by
  cases hs with
  | fresh silent _ _ _ _ => exact Or.inl silent
  | answering silent _ _ _ => exact Or.inl silent
  | linked linked => exact Or.inr linked

theorem Invariant.of_writing (hs : Invariant C E id s) (h : s.server.writing = true) :
    Linked C E id s := by
  rcases hs.silent_or_linked with hsilent | hlinked
  · exact absurd (hsilent.idle.symm.trans h) (by decide)
  · exact hlinked

theorem clientEnds_step (hs : Invariant C E id s) :
    Invariant C E id { s with client := clientStep s.client .ended } := by
  cases hs with
  | fresh silent responded context toClient requesting =>
    refine .fresh ⟨silent.sent, silent.received, silent.written, silent.read, silent.stage,
      silent.idle, silent.closed⟩ responded context toClient ?_
    cases requesting with
    | idle _ toServer => exact .ended rfl toServer
    | ended _ toServer => exact .ended rfl toServer
    | requested key challenge _ toServer => exact .requested key challenge (Or.inr rfl) toServer
  | answering silent responded toServer _ =>
    exact .answering ⟨silent.sent, silent.received, silent.written, silent.read, silent.stage,
      silent.idle, silent.closed⟩ responded toServer (.ended rfl)
  | linked linked => exact .linked (linked.ends s.toClient)

theorem Invariant.server (hs : Invariant C E id s) {server : Connection}
    (hcontext : server.context = s.server.context) (hidle : server.writing = false)
    (hstage : Silent s → server.stage = .handshake ∨ server.stage = .gone) :
    Invariant C E id { s with server := server } := by
  cases hs with
  | fresh silent responded context toClient requesting =>
    exact .fresh (silent.server hcontext hidle (hstage silent)) responded (hcontext.trans context)
      toClient (requesting.server server)
  | answering silent responded toServer answering =>
    exact .answering (silent.server hcontext hidle (hstage silent)) responded toServer
      (answering.server hcontext)
  | linked linked => exact .linked (linked.server hcontext)

theorem serverOther_step (hs : Invariant C E id s) (h : Suited C E id) {a : Action}
    (hother : isOther a = true)
    (henabled : Enabled s.server a) : Invariant C E id (served E s (next E s.server a)) := by
  rcases hs.silent_or_linked with hsilent | hlinked
  · obtain ⟨server, heq, hcontext, hstage, hidle⟩ := hsilent.other hother henabled
    rw [heq]
    exact hs.server hcontext hidle fun _ => hstage ▸ hsilent.stage
  · obtain ⟨j, hup, hj⟩ := hlinked.up
    refine .linked (hlinked.serverMoves h none none s.toServer (other_effect s.server hother)
      (by simp) ⟨j, ?_, hj⟩)
    simpa [advanced, LinkedSession.up] using hup

/-- What the server reads and what it writes after that. -/
theorem serverRead_step (hs : Invariant C E id s) (h : Suited C E id) {packet : Bytes}
    {rest : List Wire} {t : Connection} (hfront : s.toServer = .authed packet :: rest)
    (put : Option Bytes) (hput : ∀ p ∈ put, p.length ≤ maxAuthedSize)
    (heffect : ∀ payload,
      E.authentic s.server.context.clientIv s.server.context.sharedSecret packet = some payload →
      Effect E s.server.context t.context (some payload) put) :
    Invariant C E id { served E s t with toServer := rest } := by
  have hlinked := hs.of_packet hfront
  obtain ⟨j, hup, hj⟩ := hlinked.up
  obtain ⟨payload, -, hauthentic, hrest⟩ := hlinked.front h hup hfront
  exact .linked (hlinked.serverMoves h _ put rest (heffect payload hauthentic) hput ⟨j, hrest, hj⟩)

theorem step_invariant {event : SessionEvent} {t : Session} (h : Suited C E id)
    (hs : Invariant C E id s) (hstep : step C E id s event = some t) : Invariant C E id t := by
  cases event with
  | clientRequest keyNonce challengeNonce =>
    simp only [step] at hstep
    split at hstep
    · rename_i hidle
      split at hstep
      · rename_i hsizes
        obtain rfl := Option.some.inj hstep
        exact clientRequest_step hs hsizes.1 hsizes.2 hidle
      · cases hstep
    · cases hstep
  | serverRespond random =>
    simp only [step] at hstep
    split at hstep
    · rename_i hready
      split at hstep
      · rename_i request rest hfront
        obtain rfl := Option.some.inj hstep
        exact serverRespond_step hs h hready.2.1 hready.2.2.2 hfront rfl
      · cases hstep
    · cases hstep
  | clientVerify =>
    simp only [step] at hstep
    split at hstep
    · rename_i hstage hfront
      have hverify := clientVerify_step hs h hstage hfront
      split at hstep
      · rename_i hval
        obtain rfl := Option.some.inj hstep
        rwa [hval] at hverify
      · rename_i hval
        obtain rfl := Option.some.inj hstep
        rwa [hval] at hverify
    · cases hstep
  | clientAcknowledge =>
    simp only [step] at hstep
    split at hstep
    · rename_i secret challenge hstage
      obtain rfl := Option.some.inj hstep
      obtain ⟨hlinked, rfl⟩ :=
        hs.of_secret (show clientSecret s.client.stage = some secret by rw [hstage]; rfl)
      refine .linked (hlinked.clientSends (by rw [hstage]; rfl) ?_ rfl (by rw [hstage]; rfl)
        (by rw [hstage]; rfl))
      rw [sendreqHandshakeAck, C.crypto.length_macShort]
      exact h.codeFits
    · cases hstep
  | serverAcknowledge =>
    simp only [step] at hstep
    split at hstep
    · split at hstep
      · rename_i hfront
        obtain rfl := Option.some.inj hstep
        refine serverRead_step hs h hfront
          (some (responsePayload handshakeAcknowledge 0 0)) (by simp [responsePayload]; decide) ?_
        intro payload hauthentic
        obtain ⟨t, heq, heffect⟩ := acknowledge_effect hauthentic
        rw [heq]
        exact heffect
      · cases hstep
    · cases hstep
  | clientFinish frags =>
    simp only [step] at hstep
    split at hstep
    · rename_i secret iv packet rest hstage hfront
      obtain ⟨r, hread, rfl⟩ := Option.map_eq_some_iff.mp hstep
      obtain ⟨hlinked, rfl⟩ :=
        hs.of_secret (show clientSecret s.client.stage = some secret by rw [hstage]; rfl)
      refine .linked (hlinked.clientReceives (by rw [hstage]; rfl) hfront hread fun val => ?_)
      rw [finishedStage, hstage]
      split
      · split
        · exact Or.inr ⟨rfl, rfl, rfl⟩
        · exact Or.inl rfl
      · exact Or.inl rfl
    · cases hstep
  | clientSend payload =>
    simp only [step] at hstep
    split at hstep
    · rename_i secret clientIv serverIv hstage
      split at hstep
      · rename_i hfits
        obtain rfl := Option.some.inj hstep
        obtain ⟨hlinked, rfl⟩ :=
          hs.of_secret (show clientSecret s.client.stage = some secret by rw [hstage]; rfl)
        exact .linked (hlinked.clientSends (by rw [hstage]; rfl) hfits rfl (by rw [hstage]; rfl)
          (by rw [hstage]; rfl))
      · cases hstep
    · cases hstep
  | clientReceive frags =>
    simp only [step] at hstep
    split at hstep
    · rename_i secret clientIv serverIv packet rest hstage hfront
      obtain ⟨r, hread, rfl⟩ := Option.map_eq_some_iff.mp hstep
      obtain ⟨hlinked, rfl⟩ :=
        hs.of_secret (show clientSecret s.client.stage = some secret by rw [hstage]; rfl)
      refine .linked (hlinked.clientReceives (by rw [hstage]; rfl) hfront hread fun _ => ?_)
      rw [hstage]
      exact Or.inr ⟨rfl, rfl, rfl⟩
    · cases hstep
  | serverTurn o =>
    simp only [step] at hstep
    split at hstep
    · split at hstep
      · rename_i hfront
        obtain rfl := Option.some.inj hstep
        exact serverRead_step hs h hfront none (by simp) fun payload => turn_effect o
      · cases hstep
    · cases hstep
  | serverWrite payload =>
    simp only [step] at hstep
    split at hstep
    · rename_i hready
      obtain rfl := Option.some.inj hstep
      have hlinked := hs.of_writing hready.1
      obtain ⟨j, hup, hj⟩ := hlinked.up
      refine .linked (hlinked.serverMoves h none (some payload) s.toServer
        (write_effect payload) ?_ ⟨j, ?_, hj⟩)
      · intro p hp
        rw [← Option.some.inj hp]
        exact hready.2
      · simpa [advanced, LinkedSession.up] using hup
    · cases hstep
  | serverOther a =>
    simp only [step] at hstep
    split at hstep
    · rename_i hready
      obtain rfl := Option.some.inj hstep
      exact serverOther_step hs h hready.1 hready.2
    · cases hstep
  | clientEnds =>
    obtain rfl := Option.some.inj hstep
    exact clientEnds_step hs
  | serverEnds =>
    obtain rfl := Option.some.inj hstep
    exact hs.server rfl rfl fun _ => Or.inr rfl

end LinkedSession
