import Agentd.EndpointFiber

/-! # Contexts that the data service refuses

A connection asks the endpoint for a context and waits for one message. When the data service
refuses the context, the handler cleans up with a success and no reply, so that the loop goes on
with the pointer as it was; every other request is answered or ends the fiber. -/
namespace RefusedContexts

open ByteString
open DataserviceStore
open DataserviceDispatch hiding decodeAndDispatch
open ResponseCodec
open ClientProtocol
open ClientAnswers
open DataEndpoint (Address MailboxContextEntry WriteMessage RequestMessage RequestBuffer)
open EndpointFiber

/-! ### The connection -/

/-- What the calls of `protocolservice_protocol_request_data_service_context` return. -/
structure RequestCalls where
  payloadCreate : Status
  mapUserCapabilities : Status
  messageCreate : Status
  messageSend : Status
  messageReceive : Status
  releaseResponse : Status
  cleanup : Status

structure Requested where
  status : Status
  request : Option Message
  dataserviceContextOpened : Bool

/-- The message that arrives is released and not read. -/
def requestDataServiceContext (returnAddr fiberAddr : Address) (caps : Bitcap) (opened : Bool)
    (f : RequestCalls) (_response : WriteMessage) : Requested :=
  if f.payloadCreate ≠ 0 then ⟨f.payloadCreate, none, opened⟩
  else if f.mapUserCapabilities ≠ 0 then
    ⟨cleanedUp f.mapUserCapabilities f.cleanup, none, opened⟩
  else if f.messageCreate ≠ 0 then ⟨cleanedUp f.messageCreate f.cleanup, none, opened⟩
  else if f.messageSend ≠ 0 then ⟨cleanedUp f.messageSend f.cleanup, none, opened⟩
  else
    let request := some ⟨fiberAddr, .contextOpen returnAddr caps⟩
    if f.messageReceive ≠ 0 then ⟨f.messageReceive, request, opened⟩
    else ⟨f.releaseResponse, request, true⟩

/-! ### What is asked of a turn -/

variable {s : Fiber} {m : Message} {c : Calls} {t : Trees} {p : ReplyPayload}
  {returnAddress data : Address} {caps : Bitcap} {offset protocolRequestId : BitVec 32}
  {payload : RequestBuffer} {entry : MailboxContextEntry} {sent : Option Bytes}
  {retval cleanup : Status} {reply : WriteMessage}

/-- The message asks for a context, and the data service answers that it does not get one. -/
structure RefusesContext (m : Message) (c : Calls) : Prop where
  opens : ∃ data caps, m.request = .contextOpen data caps
  allocated : c.allocateEntry = 0
  asked : c.sendreq = 0
  answered : c.read = 0
  refused : ∃ header record,
    decodeResponseChildContextCreate c.response = .ok (header, record) ∧ header.status ≠ 0

/-- The connection that sent `m` has got `reply`, and then has an error and no open context. -/
def LearnsOfRefusal (m : Message) (reply : WriteMessage) : Prop :=
  ∀ returnAddr caps f, m.request = .contextOpen returnAddr caps →
    (requestDataServiceContext returnAddr m.returnAddress caps false f reply).status ≠ 0 ∧
    (requestDataServiceContext returnAddr m.returnAddress caps false f
      reply).dataserviceContextOpened = false

/-- A success comes with a reply to this request, whatever the pointer was; the loop uses no other;
and a connection whose context was refused is told. -/
structure Reported (s : Fiber) (m : Message) (c : Calls) : Prop where
  set : (decodeAndDispatch s.trees s.replyPayload m c).status = 0 →
    ∃ reply, ∀ p, (decodeAndDispatch s.trees p m c).replyPayload = .message reply
  defined : (turn s m c).1.stage ≠ .undefined
  told : RefusesContext m c → ∃ reply, (turn s m c).2 = some reply ∧ LearnsOfRefusal m reply

/-! ### Handlers that set the reply -/

/-- A handler, by the pointer it gets, sets a reply whenever it returns a success. -/
def SetsReply (handler : ReplyPayload → Dispatched) : Prop :=
  ∀ p, (handler p).status = 0 → ∃ reply, ∀ q, (handler q).replyPayload = .message reply

theorem writeEndpointMessageCreate_of_success
    (h : (writeEndpointMessageCreate c reply p).1 = 0) (q : ReplyPayload) :
    writeEndpointMessageCreate c reply q = (0, .message reply) := by
  unfold writeEndpointMessageCreate at h ⊢
  split at h
  · rename_i hfail
    exact absurd h hfail
  · rename_i hok
    rw [if_neg hok]

theorem setsReply_contextOpened (t : Trees) (returnAddress : Address) (entry : MailboxContextEntry)
    (sent : Option Bytes) (c : Calls) :
    SetsReply fun p => contextOpened t p returnAddress entry sent c := by
  intro p h
  unfold contextOpened at h ⊢
  dsimp only at h ⊢
  split at h
  · rename_i hinsert
    exact absurd (cleanedUp_eq_zero.mp h).1 hinsert
  · rename_i hmailbox
    split at h
    · rename_i hinsert
      exact absurd (cleanedUp_eq_zero.mp (cleanedUp_eq_zero.mp h).1).1 hinsert
    · rename_i hcontext
      split at h
      · rename_i hreply
        exact absurd (cleanedUp_eq_zero.mp (cleanedUp_eq_zero.mp h).1).1 hreply
      · rename_i hreply
        have hwrite := writeEndpointMessageCreate_of_success (not_not.mp hreply)
        refine ⟨⟨.dataserviceContextCreate, 0, 0, []⟩, fun q => ?_⟩
        rw [if_neg hmailbox, if_neg hcontext, hwrite q, if_neg (by simp)]

theorem recvresp_ok_iff {decode : Decoder} {r : ResponseHeader × Option Record} :
    recvresp decode c = .ok r ↔
      c.read = 0 ∧ c.reclaimResponse = 0 ∧ decode c.response = .ok r := by
  unfold recvresp
  by_cases hread : c.read = 0
  · by_cases hreclaim : c.reclaimResponse = 0
    · rw [if_neg (by simpa using hread), if_neg (by simpa using hreclaim)]
      cases decode c.response with
      | error e => simp
      | ok r' => simp [hread, hreclaim]
    · rw [if_neg (by simpa using hread), if_pos hreclaim]
      exact ⟨fun h => (nomatch h), fun h => absurd h.2.1 hreclaim⟩
  · rw [if_pos hread]
    exact ⟨fun h => (nomatch h), fun h => absurd h.1 hread⟩

theorem recvresp_error_ne_zero {decode : Decoder} {e : Status} (h : recvresp decode c = .error e) :
    e ≠ 0 := by
  unfold recvresp at h
  split at h
  · cases h
    decide
  · split at h
    · rename_i hreclaim
      cases h
      exact hreclaim
    · split at h
      · rename_i e' _
        cases h
        cases e' <;> decide
      · cases h

theorem child_of_success {resp : Bytes} {header : ResponseHeader} {record : Option Record}
    (h : decodeResponseChildContextCreate resp = .ok (header, record)) (hok : header.status = 0) :
    ∃ child, record = some (.child child) := by
  unfold decodeResponseChildContextCreate decodeRecord at h
  split at h
  · cases h
  · split at h
    · cases h
    · split at h
      · rename_i hstatus
        cases h
        exact absurd hok hstatus
      · split at h
        · cases h
          exact ⟨_, rfl⟩
        · cases h

theorem reqContextOpen_refused {header : ResponseHeader} {record : Option Record}
    (halloc : c.allocateEntry = 0) (hsend : c.sendreq = 0)
    (hresp : recvresp decodeResponseChildContextCreate c = .ok (header, record))
    (hrefused : header.status ≠ 0) :
    reqContextOpen t p returnAddress data caps c =
      ⟨cleanedUp 0 c.releaseEntry, t, p,
        some (DataserviceClient.encodeRequestChildContextCreate caps)⟩ := by
  unfold reqContextOpen
  rw [if_neg (by simpa using halloc), if_neg (by simpa using hsend), hresp]
  exact if_pos hrefused

theorem reqContextOpen_accepted {header : ResponseHeader} {record : Option Record}
    (halloc : c.allocateEntry = 0) (hsend : c.sendreq = 0)
    (hresp : recvresp decodeResponseChildContextCreate c = .ok (header, record))
    (hok : header.status = 0) : ∃ child, ∀ p,
    reqContextOpen t p returnAddress data caps c =
      contextOpened t p returnAddress ⟨data, child⟩
        (some (DataserviceClient.encodeRequestChildContextCreate caps)) c := by
  obtain ⟨child, rfl⟩ := child_of_success (recvresp_ok_iff.mp hresp).2.2 hok
  refine ⟨child, fun p => ?_⟩
  unfold reqContextOpen
  rw [if_neg (by simpa using halloc), if_neg (by simpa using hsend), hresp]
  exact if_neg (by simpa using hok)

/-- An open sets its reply unless its context was refused. -/
theorem setsReply_reqContextOpen (hc : ¬ RefusesContext ⟨returnAddress, .contextOpen data caps⟩ c) :
    SetsReply fun p => reqContextOpen t p returnAddress data caps c := by
  intro p h
  dsimp only at h ⊢
  by_cases halloc : c.allocateEntry = 0
  · by_cases hsend : c.sendreq = 0
    · cases hresp : recvresp decodeResponseChildContextCreate c with
      | error e =>
        unfold reqContextOpen at h
        rw [if_neg (by simpa using halloc), if_neg (by simpa using hsend), hresp] at h
        exact absurd (cleanedUp_eq_zero.mp h).1 (recvresp_error_ne_zero hresp)
      | ok r =>
        obtain ⟨header, record⟩ := r
        obtain ⟨hread, -, hdecode⟩ := recvresp_ok_iff.mp hresp
        have hok : header.status = 0 := by
          by_contra hstatus
          exact hc ⟨⟨_, _, rfl⟩, halloc, hsend, hread, _, _, hdecode, hstatus⟩
        obtain ⟨child, hopened⟩ : ∃ child, ∀ p, reqContextOpen t p returnAddress data caps c =
            contextOpened t p returnAddress ⟨data, child⟩
              (some (DataserviceClient.encodeRequestChildContextCreate caps)) c :=
          reqContextOpen_accepted halloc hsend hresp hok
        rw [hopened p] at h
        obtain ⟨reply, hreply⟩ := setsReply_contextOpened t returnAddress ⟨data, child⟩ _ c p h
        exact ⟨reply, fun q => by rw [hopened q]; exact hreply q⟩
    · unfold reqContextOpen at h
      rw [if_neg (by simpa using halloc), if_pos hsend] at h
      exact absurd (cleanedUp_eq_zero.mp h).1 hsend
  · unfold reqContextOpen at h
    rw [if_pos halloc] at h
    exact absurd h halloc

/-- The status of a close is that of its reply. -/
theorem setsReply_reqContextClose (t : Trees) (offset : BitVec 32) (data : Address) (c : Calls) :
    SetsReply fun p => reqContextClose t p offset data c := by
  intro p h
  have hwrite := writeEndpointMessageCreate_of_success h
  exact ⟨_, fun q => congrArg Prod.snd (hwrite q)⟩

theorem setsReply_reqDataserviceReq (t : Trees) (returnAddress : Address)
    (protocolRequestId offset : BitVec 32) (payload : RequestBuffer) (c : Calls) :
    SetsReply fun p =>
      reqDataserviceReq t p returnAddress protocolRequestId offset payload c := by
  intro p h
  unfold reqDataserviceReq at h ⊢
  dsimp only at h ⊢
  split at h
  · exact absurd h c.notFound.property
  · split at h
    · rename_i hsend
      exact absurd h hsend
    · rename_i hsend
      split at h
      · rename_i hread
        exact absurd h hread
      · rename_i hread
        have hwrite := writeEndpointMessageCreate_of_success (cleanedUp_eq_zero.mp h).1
        refine ⟨⟨.dataservice, protocolRequestId, offset, c.response⟩, fun q => ?_⟩
        rw [if_neg hsend, if_neg hread]
        exact congrArg Prod.snd (hwrite q)

theorem setsReply_invalidReq (t : Trees) (offset : BitVec 32) (c : Calls) :
    SetsReply fun p => invalidReq t p offset c := by
  intro p h
  have hwrite := writeEndpointMessageCreate_of_success h
  exact ⟨_, fun q => congrArg Prod.snd (hwrite q)⟩

theorem setsReply_decodeAndDispatch (t : Trees) (hc : ¬ RefusesContext m c) :
    SetsReply fun p => decodeAndDispatch t p m c := by
  obtain ⟨returnAddress, request⟩ := m
  cases request with
  | contextOpen data caps => exact setsReply_reqContextOpen hc
  | contextClose offset data => exact setsReply_reqContextClose t offset data c
  | dataserviceReq protocolRequestId offset payload =>
    exact setsReply_reqDataserviceReq t returnAddress protocolRequestId offset payload c
  | other offset => exact setsReply_invalidReq t offset c

/-! ### Turns -/

theorem turn_of_failure (h : (decodeAndDispatch s.trees s.replyPayload m c).status ≠ 0) :
    (turn s m c).2 = none ∧ (turn s m c).1.stage ≠ .undefined := by
  unfold turn
  dsimp only
  rw [if_pos h]
  exact ⟨rfl, by simp⟩

theorem turn_of_reply (h : (decodeAndDispatch s.trees s.replyPayload m c).status = 0)
    (hreply : (decodeAndDispatch s.trees s.replyPayload m c).replyPayload = .message reply) :
    (turn s m c).1.stage ≠ .undefined := by
  unfold turn
  dsimp only
  rw [if_neg (not_not.mpr h), hreply]
  dsimp only
  split
  · simp
  · split
    · simp
    · split
      · simp
      · simp

/-- What a refused open leads to: no reply of its own, and a success unless the release fails. -/
theorem dispatch_refused (h : RefusesContext m c) :
    ∃ status, ∀ p, (decodeAndDispatch t p m c).status = status ∧
      (decodeAndDispatch t p m c).replyPayload = p := by
  obtain ⟨⟨data, caps, hrequest⟩, halloc, hsend, hread, header, record, hdecode, hrefused⟩ := h
  simp only [decodeAndDispatch, hrequest]
  cases hresp : recvresp decodeResponseChildContextCreate c with
  | error e =>
    refine ⟨cleanedUp e c.releaseEntry, fun p => ?_⟩
    unfold reqContextOpen
    rw [if_neg (not_not.mpr halloc), if_neg (not_not.mpr hsend), hresp]
    exact ⟨rfl, rfl⟩
  | ok r =>
    have hr := (recvresp_ok_iff.mp hresp).2.2
    rw [hdecode] at hr
    cases hr
    refine ⟨cleanedUp 0 c.releaseEntry, fun p => ?_⟩
    rw [reqContextOpen_refused halloc hsend hresp hrefused]
    exact ⟨rfl, rfl⟩

/-- No message tells a connection that its context was refused: what arrives opens it. -/
theorem not_learnsOfRefusal (hm : m.request = .contextOpen data caps) (reply : WriteMessage) :
    ¬ LearnsOfRefusal m reply := by
  intro h
  exact Bool.noConfusion (h data caps ⟨0, 0, 0, 0, 0, 0, 0⟩ hm).2

/-- Between two turns the pointer points to no reply. -/
theorem run_replyPayload (hs : Run s) (hrunning : s.stage = .running) (reply : WriteMessage) :
    s.replyPayload ≠ .message reply := by
  cases hs with
  | start => simp [endpointStart]
  | turn before running m c =>
    unfold turn at hrunning ⊢
    dsimp only at hrunning ⊢
    split at hrunning
    · cases hrunning
    · rename_i hstatus
      rw [if_neg hstatus]
      split at hrunning
      · rename_i hreply
        split at hrunning
        · cases hrunning
        · rename_i hcreate
          rw [if_neg hcreate]
          split at hrunning
          · cases hrunning
          · rename_i hsend
            rw [if_neg hsend]
            split at hrunning
            · cases hrunning
            · rename_i hrelease
              rw [if_neg hrelease]
              simp
      · cases hrunning

/-- A refused context whose entry is released makes the fiber use a pointer to no reply. -/
theorem refused_turn_undefined (hs : Run s) (hrunning : s.stage = .running)
    (h : RefusesContext m c) (hreclaim : c.reclaimResponse = 0) (hrelease : c.releaseEntry = 0) :
    (turn s m c).1.stage = .undefined ∧ (turn s m c).2 = none := by
  obtain ⟨⟨data, caps, hrequest⟩, halloc, hsend, hread, header, record, hdecode, hrefused⟩ := h
  have hresp : recvresp decodeResponseChildContextCreate c = .ok (header, record) :=
    recvresp_ok_iff.mpr ⟨hread, hreclaim, hdecode⟩
  have hd : decodeAndDispatch s.trees s.replyPayload m c = ⟨0, s.trees, s.replyPayload,
      some (DataserviceClient.encodeRequestChildContextCreate caps)⟩ := by
    simp only [decodeAndDispatch, hrequest, reqContextOpen_refused halloc hsend hresp hrefused,
      cleanedUp_eq_zero.mpr ⟨rfl, hrelease⟩]
  have hpointer := run_replyPayload hs hrunning
  unfold turn
  rw [hd]
  dsimp only
  rw [if_neg (by simp)]
  cases hp : s.replyPayload with
  | uninitialised => exact ⟨rfl, rfl⟩
  | null => exact ⟨rfl, rfl⟩
  | message reply => exact absurd hp (hpointer reply)

/-- A turn is as it should be exactly when it is not about a context that was refused. -/
theorem reported_iff (s : Fiber) (m : Message) (c : Calls) :
    Reported s m c ↔ ¬ RefusesContext m c := by
  constructor
  · rintro ⟨hset, -, htold⟩ hrefuses
    obtain ⟨status, hdispatch⟩ := dispatch_refused (t := s.trees) hrefuses
    by_cases hstatus : status = 0
    · obtain ⟨reply, hreply⟩ := hset ((hdispatch _).1.trans hstatus)
      have hnull := hreply .null
      rw [(hdispatch .null).2] at hnull
      cases hnull
    · obtain ⟨reply, hreply, -⟩ := htold hrefuses
      have hfails : (decodeAndDispatch s.trees s.replyPayload m c).status ≠ 0 := by
        rw [(hdispatch _).1]
        exact hstatus
      rw [(turn_of_failure hfails).1] at hreply
      cases hreply
  · intro hc
    have hsets := setsReply_decodeAndDispatch s.trees hc
    refine ⟨hsets s.replyPayload, ?_, fun hrefuses => absurd hrefuses hc⟩
    by_cases hstatus : (decodeAndDispatch s.trees s.replyPayload m c).status = 0
    · obtain ⟨reply, hreply⟩ := hsets s.replyPayload hstatus
      exact turn_of_reply hstatus (hreply _)
    · exact (turn_of_failure hstatus).2

/-! ### Refusals of the data service -/

/-- A packet with the status of an error is a refusal. -/
theorem refusesContext_of_response (hm : m.request = .contextOpen data caps)
    (halloc : c.allocateEntry = 0) (hsend : c.sendreq = 0) (hread : c.read = 0)
    {offset status : BitVec 32} (hstatus : status ≠ 0)
    (hresponse : c.response =
      responsePacket Method.llChildContextCreate.code offset status none) :
    RefusesContext m c := by
  refine ⟨⟨data, caps, hm⟩, halloc, hsend, hread,
    ⟨Method.llChildContextCreate.code, offset, status⟩, none, ?_, hstatus⟩
  rw [hresponse]
  exact decodeRecord_failure hstatus

/-- When the data service has no child context for the request, as when all slots are in use, the
response it writes is a refusal. -/
theorem refusesContext_of_dataservice {v v' : Service} {d : Delivery} {req : Bytes} {a : Response}
    {st : Except DataserviceRecords.AgentdError Unit} {free : List (Fin maxChildContexts)}
    (hslots : ChildContexts.Slots v.inst free) (hcaps : decodeCaps req = .ok caps)
    (hnone : DataEndpoint.createChild v.inst caps d.payloadAllocFails = none)
    (hserved : dispatchChildContextCreate v d req = some (v', some a, st))
    (hm : m.request = .contextOpen data caps) (halloc : c.allocateEntry = 0)
    (hsend : c.sendreq = 0) (hread : c.read = 0) (hresponse : c.response = encodeResponse a) :
    RefusesContext m c := by
  obtain ⟨e, he⟩ := createResponse_of_dataservice hslots hcaps hserved
  rw [hnone] at he
  exact refusesContext_of_response hm halloc hsend hread (statusOfError_ne_zero e)
    (hresponse.trans he)

/-! ### A refusal after an open -/

/-- The calls of an open that work, with the response of the data service. -/
def openCalls (response : Bytes) : Calls := callsOf .none response

def firstOpen : Message × Calls :=
  (⟨2, .contextOpen 1 0⟩,
    openCalls (responsePacket Method.llChildContextCreate.code 0 0 (some (be 4 0#32))))

def secondOpen : Message × Calls :=
  (⟨4, .contextOpen 3 0⟩,
    openCalls (responsePacket Method.llChildContextCreate.code 0
      (statusOfError .childContextMaxReached) none))

theorem second_open_unreported : ∃ s, Run s ∧ s.stage = .running ∧
    RefusesContext secondOpen.1 secondOpen.2 ∧
    (decodeAndDispatch s.trees s.replyPayload secondOpen.1 secondOpen.2).status = 0 ∧
    (decodeAndDispatch s.trees s.replyPayload secondOpen.1 secondOpen.2).replyPayload = .null ∧
    (turn s secondOpen.1 secondOpen.2).1.stage = .undefined ∧
    ¬ Reported s secondOpen.1 secondOpen.2 := by
  have hrun : Run (turn endpointStart firstOpen.1 firstOpen.2).1 := Run.start.turn rfl _ _
  have hrunning : (turn endpointStart firstOpen.1 firstOpen.2).1.stage = .running := by
    decide +kernel
  have hrefuses : RefusesContext secondOpen.1 secondOpen.2 :=
    refusesContext_of_response rfl rfl rfl rfl (statusOfError_ne_zero _) rfl
  refine ⟨_, hrun, hrunning, hrefuses, ?_, ?_, ?_, ?_⟩
  · decide +kernel
  · decide +kernel
  · exact (refused_turn_undefined hrun hrunning hrefuses rfl rfl).1
  · intro hreported
    obtain ⟨reply, hreply, -⟩ := hreported.told hrefuses
    rw [(refused_turn_undefined hrun hrunning hrefuses rfl rfl).2] at hreply
    cases hreply

end RefusedContexts
