import Agentd.ClientAnswers

/-! # The fiber of the data service endpoint

The handlers of the endpoint with the status of every call they make, over any responses of the data
service, and the pointer to the reply that the loop of the fiber carries from request to request.
With the data service behind it and no other failures this is the endpoint of `DataEndpoint`. -/
namespace EndpointFiber

open ByteString
open DataserviceRecords (AgentdError)
open DataserviceStore
open DataserviceDispatch
open DataserviceClient
open ResponseCodec hiding decodeResponseChildContextCreate
open ClientProtocol
open ClientAnswers
open DataEndpoint hiding reqContextOpen reqContextClose reqDataserviceReq invalidReq
  step

/-! ### State -/

inductive ReplyPayload where
  | uninitialised
  | null
  | message (m : WriteMessage)
  deriving DecidableEq

structure Trees where
  mailboxContextTree : Address → Option MailboxContextEntry
  contextMailboxTree : BitVec 32 → Option MailboxContextEntry

abbrev Failure := { s : Status // s ≠ 0 }

/-- What the calls of one turn return, zero for success: `notFound` and `duplicate` are those of the
trees, `response` is what is read from the data service. -/
structure Calls where
  allocateEntry : Status
  sendreq : Status
  read : Status
  response : Bytes
  reclaimResponse : Status
  notFound : Failure
  duplicate : Failure
  insertMailbox : Status
  insertContext : Status
  deleteMailbox : Status
  deleteContext : Status
  releaseEntry : Status
  allocateReply : Status
  messageCreate : Status
  messageSend : Status
  releaseRequest : Status
  cleanup : Status

structure Dispatched where
  status : Status
  trees : Trees
  replyPayload : ReplyPayload
  sent : Option Bytes

/-! ### Calls -/

def statusOfResponseError : ResponseError → Status
  | .packetInvalidSize => dataserviceError 0x42
  | .unexpectedMethodCode => dataserviceError 0x06
  | .unexpectedDataPacketSize => dataserviceError 0x05

/-- `dataservice_api_recvresp_child_context_create` and
`dataservice_api_recvresp_child_context_close`: their own status and that of the response are
two. -/
def recvresp (decode : Decoder) (c : Calls) : Except Status (ResponseHeader × Option Record) :=
  if c.read ≠ 0 then .error (dataserviceError 0x04)
  else if c.reclaimResponse ≠ 0 then .error c.reclaimResponse
  else match decode c.response with
    | .error e => .error (statusOfResponseError e)
    | .ok r => .ok r

/-- `protocolservice_protocol_write_endpoint_message_create`: the pointer stays on a failure. -/
def writeEndpointMessageCreate (c : Calls) (m : WriteMessage) (p : ReplyPayload) :
    Status × ReplyPayload :=
  if c.allocateReply ≠ 0 then (c.allocateReply, p) else (0, .message m)

def insertStatus (c : Calls) (found : Option MailboxContextEntry) (status : Status) : Status :=
  if found.isSome then c.duplicate else status

def deleteStatus (c : Calls) (found : Option MailboxContextEntry) (status : Status) : Status :=
  if found.isSome then status else c.notFound

def cleanedUp (status cleanup : Status) : Status := if cleanup ≠ 0 then cleanup else status

def Trees.setMailbox (t : Trees) (a : Address) (e : Option MailboxContextEntry) : Trees :=
  { t with mailboxContextTree := Function.update t.mailboxContextTree a e }

def Trees.setContext (t : Trees) (context : BitVec 32) (e : Option MailboxContextEntry) : Trees :=
  { t with contextMailboxTree := Function.update t.contextMailboxTree context e }

/-! ### Handlers -/

/-- The rest of an open once there is a child context. The entry is no longer released when the
reply cannot be made. -/
def contextOpened (t : Trees) (p : ReplyPayload) (returnAddress : Address)
    (entry : MailboxContextEntry) (sent : Option Bytes) (c : Calls) : Dispatched :=
  let inserted := insertStatus c (t.mailboxContextTree entry.addr) c.insertMailbox
  if inserted ≠ 0 then ⟨cleanedUp inserted c.releaseEntry, t, p, sent⟩
  else
    let t := t.setMailbox entry.addr (some entry)
    let deleted := deleteStatus c (t.mailboxContextTree returnAddress) c.deleteMailbox
    let inserted := insertStatus c (t.contextMailboxTree entry.context) c.insertContext
    if inserted ≠ 0 then
      ⟨cleanedUp (cleanedUp inserted deleted) c.releaseEntry, t.setMailbox returnAddress none, p,
        sent⟩
    else
      let t := t.setContext entry.context (some entry)
      let (retval, p) :=
        writeEndpointMessageCreate c ⟨.dataserviceContextCreate, 0, 0, []⟩ p
      if retval ≠ 0 then
        ⟨cleanedUp (cleanedUp retval c.deleteContext) deleted,
          (t.setContext entry.context none).setMailbox returnAddress none, p, sent⟩
      else ⟨0, t, p, sent⟩

/-- A response with an error leads to the cleanup with the status of its reception, a success. -/
def reqContextOpen (t : Trees) (p : ReplyPayload) (returnAddress data : Address) (caps : Bitcap)
    (c : Calls) : Dispatched :=
  if c.allocateEntry ≠ 0 then ⟨c.allocateEntry, t, p, none⟩
  else if c.sendreq ≠ 0 then ⟨cleanedUp c.sendreq c.releaseEntry, t, p, none⟩
  else
    let sent := some (encodeRequestChildContextCreate caps)
    match recvresp ResponseCodec.decodeResponseChildContextCreate c with
    | .error e => ⟨cleanedUp e c.releaseEntry, t, p, sent⟩
    | .ok (header, record) =>
      if header.status ≠ 0 then ⟨cleanedUp 0 c.releaseEntry, t, p, sent⟩
      else
        match record with
        | some (.child child) => contextOpened t p returnAddress ⟨data, child⟩ sent c
        | _ => ⟨cleanedUp 0 c.releaseEntry, t, p, sent⟩

def reqContextClose (t : Trees) (p : ReplyPayload) (offset : BitVec 32) (data : Address)
    (c : Calls) : Dispatched :=
  let (trees, sent) :=
    match t.mailboxContextTree data with
    | none => (t, none)
    | some entry =>
      if c.sendreq ≠ 0 then (t, none)
      else
        let sent := some (encodeRequestChildContextClose entry.context)
        match recvresp decodeResponseChildContextClose c with
        | .error _ => (t, sent)
        | .ok (header, _) =>
          if header.status ≠ 0 then (t, sent)
          else if deleteStatus c (t.mailboxContextTree entry.addr) c.deleteMailbox ≠ 0 then
            (t.setMailbox entry.addr none, sent)
          else ((t.setMailbox entry.addr none).setContext entry.context none, sent)
  let (retval, p) := writeEndpointMessageCreate c ⟨.dataserviceContextCreate, 0, offset, []⟩ p
  ⟨retval, trees, p, sent⟩

def reqDataserviceReq (t : Trees) (p : ReplyPayload) (returnAddress : Address)
    (protocolRequestId offset : BitVec 32) (payload : RequestBuffer) (c : Calls) : Dispatched :=
  match t.mailboxContextTree returnAddress with
  | none => ⟨c.notFound, t, p, none⟩
  | some entry =>
    if c.sendreq ≠ 0 then ⟨c.sendreq, t, p, none⟩
    else
      let sent := some (overwrite payload.bytes 4 (be 4 entry.context))
      if c.read ≠ 0 then ⟨c.read, t, p, sent⟩
      else
        let (retval, p) :=
          writeEndpointMessageCreate c ⟨.dataservice, protocolRequestId, offset, c.response⟩ p
        ⟨cleanedUp retval c.reclaimResponse, t, p, sent⟩

def invalidReq (t : Trees) (p : ReplyPayload) (offset : BitVec 32) (c : Calls) : Dispatched :=
  let (retval, p) := writeEndpointMessageCreate c
    ⟨.shutdown, BitVec.ofNat 32 WriteMessageType.errorMessage.ctorIdx, offset, []⟩ p
  ⟨retval, t, p, none⟩

structure Message where
  returnAddress : Address
  request : RequestMessage
  deriving DecidableEq

def decodeAndDispatch (t : Trees) (p : ReplyPayload) (m : Message) (c : Calls) : Dispatched :=
  match m.request with
  | .contextOpen data caps => reqContextOpen t p m.returnAddress data caps c
  | .contextClose offset data => reqContextClose t p offset data c
  | .dataserviceReq protocolRequestId offset payload =>
    reqDataserviceReq t p m.returnAddress protocolRequestId offset payload c
  | .other offset => invalidReq t p offset c

/-! ### The loop -/

/-- Whether the fiber is in its loop, has returned, or used a pointer that points to no reply. -/
inductive Stage where
  | running
  | returned (retval : Status)
  | undefined
  deriving DecidableEq

structure Fiber where
  trees : Trees
  replyPayload : ReplyPayload
  stage : Stage

def endpointStart : Fiber := ⟨⟨fun _ => none, fun _ => none⟩, .uninitialised, .running⟩

/-- One turn of the loop of `protocolservice_dataservice_endpoint_fiber_entry`: the fiber after it
and the reply that went to the return address. -/
def turn (s : Fiber) (m : Message) (c : Calls) : Fiber × Option WriteMessage :=
  let d := decodeAndDispatch s.trees s.replyPayload m c
  if d.status ≠ 0 then
    (⟨d.trees, d.replyPayload, .returned (cleanedUp d.status c.cleanup)⟩, none)
  else match d.replyPayload with
    | .message reply =>
      if c.messageCreate ≠ 0 then
        (⟨d.trees, .null, .returned (cleanedUp c.messageCreate c.cleanup)⟩, none)
      else if c.messageSend ≠ 0 then
        (⟨d.trees, .null, .returned (cleanedUp c.messageSend c.cleanup)⟩, none)
      else if c.releaseRequest ≠ 0 then
        (⟨d.trees, .null, .returned (cleanedUp c.releaseRequest c.cleanup)⟩, some reply)
      else (⟨d.trees, .null, .running⟩, some reply)
    | p => (⟨d.trees, p, .undefined⟩, none)

inductive Run : Fiber → Prop
  | start : Run endpointStart
  | turn {s : Fiber} (before : Run s) (running : s.stage = .running) (m : Message) (c : Calls) :
    Run (turn s m c).1

/-! ### With the data service behind it -/

section DataService

variable {s : Endpoint} {p : ReplyPayload} {returnAddress data : Address} {caps : Bitcap}
  {f : OpenFault} {e : AgentdError} {entry : MailboxContextEntry} {offset : BitVec 32}

def treesOf (s : Endpoint) : Trees := ⟨s.mailboxContextTree, s.contextMailboxTree⟩

def outcomeOf (d : Dispatched) : Outcome :=
  if d.status ≠ 0 then .failed
  else match d.replyPayload with
    | .message m => .replied m
    | _ => .unset

def failsIf (fails : Bool) : Status := if fails then 1 else 0

def callsOf (f : OpenFault) (response : Bytes) : Calls where
  allocateEntry := failsIf (f = .entryAlloc)
  sendreq := failsIf (f = .send)
  read := failsIf (f = .receive)
  response := response
  reclaimResponse := 0
  notFound := ⟨1, by decide⟩
  duplicate := ⟨1, by decide⟩
  insertMailbox := failsIf (f = .mailboxInsert)
  insertContext := failsIf (f = .contextInsert)
  deleteMailbox := 0
  deleteContext := 0
  releaseEntry := 0
  allocateReply := failsIf (f = .reply)
  messageCreate := 0
  messageSend := 0
  releaseRequest := 0
  cleanup := 0

/-- The packet of the data service, which refuses with the status of `e`. -/
def createResponse (e : AgentdError) : Option (Instance × Fin maxChildContexts) → Bytes
  | none => responsePacket Method.llChildContextCreate.code 0 (statusOfError e) none
  | some (_, i) =>
    responsePacket Method.llChildContextCreate.code 0 0 (some (be 4 (BitVec.ofNat 32 i)))

def closeResponse (e : AgentdError) (context : BitVec 32) : Option Instance → Bytes
  | none => responsePacket Method.llChildContextClose.code context (statusOfError e) none
  | some _ => responsePacket Method.llChildContextClose.code context 0 none

/-- The calls for an action on the endpoint `s`, where `e` is the error of a refusal. -/
def callsFor (s : Endpoint) (a : Action) (e : AgentdError) : Calls :=
  match a.request with
  | .contextOpen _ caps =>
    callsOf a.fault (createResponse e (createChild s.inst caps (a.fault = .childAlloc)))
  | .contextClose _ data =>
    callsOf .none (match s.mailboxContextTree data with
      | none => []
      | some entry => closeResponse e entry.context (closeChild s.inst entry.context))
  | _ => callsOf .none a.answer

theorem encodeResponse_of_written {v v' : Service} {d : Delivery} {m off : BitVec 32}
    {status st : Except AgentdError Unit} {payload : Option Bytes} {a : Response}
    (h : writeStatus d v m off status payload = some (v', some a, st)) :
    encodeResponse a = responsePacket m off (statusOf status) payload := by
  unfold writeStatus at h
  split at h
  · cases h
    rfl
  · cases h
  · cases h

/-- These are the responses that the data service writes. -/
theorem createResponse_of_dataservice {v v' : Service} {d : Delivery} {req : Bytes} {a : Response}
    {st : Except AgentdError Unit} {free : List (Fin maxChildContexts)}
    (hslots : ChildContexts.Slots v.inst free) (hcaps : decodeCaps req = .ok caps)
    (hserved : dispatchChildContextCreate v d req = some (v', some a, st)) :
    ∃ e, encodeResponse a = createResponse e (createChild v.inst caps d.payloadAllocFails) := by
  have hdispatch := dispatchChildContextCreate_eq (d := d) hslots hcaps
  cases hcreate : createChild v.inst caps d.payloadAllocFails with
  | none =>
    rw [hcreate] at hdispatch
    obtain ⟨e, he⟩ := hdispatch
    have hwritten := encodeResponse_of_written (he.symm.trans hserved)
    exact ⟨e, hwritten⟩
  | some made =>
    rw [hcreate] at hdispatch
    have hwritten := encodeResponse_of_written (hdispatch.symm.trans hserved)
    exact ⟨.outOfMemory, hwritten⟩

theorem closeResponse_of_dataservice {v v' : Service} {d : Delivery} {req rest : Bytes}
    {context : BitVec 32} {a : Response} {st : Except AgentdError Unit}
    (hinit : requestInit req = .ok (context, rest))
    (hserved : dispatchChildContextClose v d req = some (v', some a, st)) :
    ∃ e, encodeResponse a = closeResponse e context (closeChild v.inst context) := by
  have hdispatch := dispatchChildContextClose_eq (s := v) (d := d) hinit
  cases hclose : closeChild v.inst context with
  | none =>
    rw [hclose] at hdispatch
    obtain ⟨e, he⟩ := hdispatch
    have hwritten := encodeResponse_of_written (he.symm.trans hserved)
    exact ⟨e, hwritten⟩
  | some inst =>
    rw [hclose] at hdispatch
    have hwritten := encodeResponse_of_written (hdispatch.symm.trans hserved)
    exact ⟨.outOfMemory, hwritten⟩

theorem failsIf_ne_zero (fails : Bool) : failsIf fails ≠ 0 ↔ fails = true := by
  cases fails <;> decide

theorem recvresp_callsOf {decode : Decoder} {response : Bytes}
    {r : ResponseHeader × Option Record} (hf : f ≠ .receive) (hdecode : decode response = .ok r) :
    recvresp decode (callsOf f response) = .ok r := by
  have hread : ¬ (callsOf f response).read ≠ 0 := by simp [callsOf, failsIf, hf]
  have hreclaim : ¬ (callsOf f response).reclaimResponse ≠ 0 := by simp [callsOf]
  rw [recvresp, if_neg hread, if_neg hreclaim]
  have hresponse : (callsOf f response).response = response := rfl
  rw [hresponse, hdecode]

theorem decode_refused (e : AgentdError) :
    ResponseCodec.decodeResponseChildContextCreate (createResponse e none) =
      .ok (⟨Method.llChildContextCreate.code, 0, statusOfError e⟩, none) :=
  decodeRecord_failure (statusOfError_ne_zero e)

theorem decode_accepted (e : AgentdError) (inst : Instance) (i : Fin maxChildContexts) :
    ResponseCodec.decodeResponseChildContextCreate (createResponse e (some (inst, i))) =
      .ok (⟨Method.llChildContextCreate.code, 0, 0⟩, some (.child (BitVec.ofNat 32 i))) :=
  decodeRecord_success (congrArg Record.child (childOfResponse_packet _)) (by simp)

theorem cleanedUp_eq_zero {retval cleanup : Status} :
    cleanedUp retval cleanup = 0 ↔ retval = 0 ∧ cleanup = 0 := by
  unfold cleanedUp
  split
  · rename_i h
    exact ⟨fun hz => absurd hz h, fun hz => absurd hz.2 h⟩
  · rename_i h
    exact ⟨fun hz => ⟨hz, not_not.mp h⟩, fun hz => hz.1⟩

theorem cleanedUp_ne_zero {retval cleanup : Status} (h : retval ≠ 0) :
    cleanedUp retval cleanup ≠ 0 :=
  fun hz => h (cleanedUp_eq_zero.mp hz).1

theorem insertStatus_callsOf {g : OpenFault} {found : Option MailboxContextEntry}
    (response : Bytes) :
    insertStatus (callsOf f response) found (failsIf (f = g)) ≠ 0 ↔ f = g ∨ found.isSome := by
  unfold insertStatus
  cases found with
  | none =>
    rw [if_neg (by simp), failsIf_ne_zero]
    simp
  | some e =>
    rw [if_pos (by simp)]
    simp [callsOf]

/-- What a handler of `DataEndpoint` leaves and returns is what the handler here does. -/
def Embeds (r : Endpoint × Outcome) (d : Dispatched) : Prop :=
  treesOf r.1 = d.trees ∧ r.2 = outcomeOf d

theorem Embeds.of_failure {d : Dispatched} (hstatus : d.status ≠ 0) (htrees : treesOf s = d.trees) :
    Embeds (s, .failed) d :=
  ⟨htrees, by rw [outcomeOf, if_pos hstatus]⟩

theorem contextOpened_embeds (s : Endpoint) (p : ReplyPayload) (returnAddress : Address)
    (entry : MailboxContextEntry) (sent : Option Bytes) (f : OpenFault) (response : Bytes) :
    Embeds
      (if f = .mailboxInsert ∨ (s.mailboxContextTree entry.addr).isSome then (s, .failed)
      else
        let mailboxes := Function.update s.mailboxContextTree entry.addr (some entry)
        if f = .contextInsert ∨ (s.contextMailboxTree entry.context).isSome then
          ({ s with mailboxContextTree := Function.update mailboxes returnAddress none }, .failed)
        else
          let contexts := Function.update s.contextMailboxTree entry.context (some entry)
          if f = .reply then
            ({ s with
              mailboxContextTree := Function.update mailboxes returnAddress none
              contextMailboxTree := Function.update contexts entry.context none }, .failed)
          else
            ({ s with mailboxContextTree := mailboxes, contextMailboxTree := contexts },
              contextReply 0))
      (contextOpened (treesOf s) p returnAddress entry sent (callsOf f response)) := by
  have hmailbox : insertStatus (callsOf f response) ((treesOf s).mailboxContextTree entry.addr)
      (callsOf f response).insertMailbox ≠ 0 ↔
      f = .mailboxInsert ∨ (s.mailboxContextTree entry.addr).isSome :=
    insertStatus_callsOf response
  have hcontext : insertStatus (callsOf f response)
      (((treesOf s).setMailbox entry.addr (some entry)).contextMailboxTree entry.context)
      (callsOf f response).insertContext ≠ 0 ↔
      f = .contextInsert ∨ (s.contextMailboxTree entry.context).isSome :=
    insertStatus_callsOf response
  unfold contextOpened
  dsimp only
  by_cases hm : f = .mailboxInsert ∨ (s.mailboxContextTree entry.addr).isSome
  · rw [if_pos hm, if_pos (hmailbox.mpr hm)]
    refine Embeds.of_failure ?_ rfl
    dsimp only
    exact cleanedUp_ne_zero (hmailbox.mpr hm)
  · rw [if_neg hm, if_neg (hmailbox.not.mpr hm)]
    by_cases hc : f = .contextInsert ∨ (s.contextMailboxTree entry.context).isSome
    · rw [if_pos hc, if_pos (hcontext.mpr hc)]
      refine Embeds.of_failure ?_ rfl
      dsimp only
      exact cleanedUp_ne_zero (cleanedUp_ne_zero (hcontext.mpr hc))
    · rw [if_neg hc, if_neg (hcontext.not.mpr hc)]
      by_cases hreply : f = .reply
      · subst hreply
        refine Embeds.of_failure ?_ rfl
        have hwrite : (writeEndpointMessageCreate (callsOf .reply response)
            ⟨.dataserviceContextCreate, 0, 0, []⟩ p).1 ≠ 0 := by
          simp [writeEndpointMessageCreate, callsOf, failsIf]
        exact cleanedUp_ne_zero (cleanedUp_ne_zero hwrite)
      · have hwrite : writeEndpointMessageCreate (callsOf f response)
            ⟨.dataserviceContextCreate, 0, 0, []⟩ p =
            (0, .message ⟨.dataserviceContextCreate, 0, 0, []⟩) := by
          simp [writeEndpointMessageCreate, callsOf, failsIf, hreply]
        rw [if_neg hreply, hwrite]
        exact ⟨rfl, rfl⟩

/-- An open, when the data service answers as it does and at most one call fails. -/
theorem reqContextOpen_embeds (s : Endpoint) (hp : ∀ m, p ≠ .message m)
    (returnAddress data : Address) (caps : Bitcap) (f : OpenFault) (e : AgentdError) :
    Embeds (DataEndpoint.reqContextOpen s returnAddress data caps f)
      (reqContextOpen (treesOf s) p returnAddress data caps
        (callsOf f (createResponse e (createChild s.inst caps (f = .childAlloc))))) := by
  rw [DataEndpoint.reqContextOpen]
  by_cases hearly : f = .entryAlloc ∨ f = .send
  · rw [if_pos hearly]
    rcases hearly with rfl | rfl
    · exact Embeds.of_failure (by simp [reqContextOpen, callsOf, failsIf]) rfl
    · exact Embeds.of_failure (by simp [reqContextOpen, callsOf, failsIf, cleanedUp]) rfl
  · rw [if_neg hearly]
    obtain ⟨hentry, hsend⟩ := not_or.mp hearly
    have halloc (response) : ¬ (callsOf f response).allocateEntry ≠ 0 := by
      simp [callsOf, failsIf, hentry]
    have hsendreq (response) : ¬ (callsOf f response).sendreq ≠ 0 := by
      simp [callsOf, failsIf, hsend]
    have hrelease (response) : (callsOf f response).releaseEntry = 0 := rfl
    unfold reqContextOpen
    rw [if_neg (halloc _), if_neg (hsendreq _)]
    by_cases hreceive : f = .receive
    · subst hreceive
      have hresp (response) : recvresp ResponseCodec.decodeResponseChildContextCreate
          (callsOf .receive response) = .error (dataserviceError 0x04) := rfl
      have hread : dataserviceError 0x04 ≠ 0 := by decide
      cases createChild s.inst caps (OpenFault.receive = .childAlloc) with
      | none =>
        simp only [hresp]
        refine Embeds.of_failure ?_ rfl
        dsimp only
        exact cleanedUp_ne_zero hread
      | some made =>
        simp only [hresp]
        refine Embeds.of_failure ?_ rfl
        dsimp only
        exact cleanedUp_ne_zero hread
    · cases createChild s.inst caps (f = .childAlloc) with
      | none =>
        simp only [recvresp_callsOf hreceive (decode_refused e), if_neg hreceive, hrelease,
          if_pos (statusOfError_ne_zero e)]
        cases p with
        | uninitialised => exact ⟨rfl, rfl⟩
        | null => exact ⟨rfl, rfl⟩
        | message m => exact absurd rfl (hp m)
      | some made =>
        obtain ⟨inst, i⟩ := made
        simp only [recvresp_callsOf hreceive (decode_accepted e inst i), if_neg hreceive]
        rw [if_neg (show ¬ (0 : Status) ≠ 0 by simp)]
        exact contextOpened_embeds { s with inst := inst, owner := Function.update s.owner i data }
          p returnAddress ⟨data, BitVec.ofNat 32 i⟩ _ f _

theorem writeReply_callsOf (response : Bytes) (m : WriteMessage) (p : ReplyPayload) :
    writeEndpointMessageCreate (callsOf .none response) m p = (0, .message m) := by
  have hallocate : ¬ (callsOf .none response).allocateReply ≠ 0 := by simp [callsOf, failsIf]
  rw [writeEndpointMessageCreate, if_neg hallocate]

theorem outcomeOf_reply {trees : Trees} {m : WriteMessage} {sent : Option Bytes} :
    outcomeOf ⟨0, trees, .message m, sent⟩ = .replied m := rfl

theorem reqContextClose_embeds (s : Endpoint) (p : ReplyPayload) (offset : BitVec 32)
    (data : Address) (e : AgentdError) {response : Bytes}
    (hkey : ∀ entry, s.mailboxContextTree data = some entry → entry.addr = data)
    (hresponse : ∀ entry, s.mailboxContextTree data = some entry →
      response = closeResponse e entry.context (closeChild s.inst entry.context)) :
    Embeds (DataEndpoint.reqContextClose s offset data)
      (reqContextClose (treesOf s) p offset data (callsOf .none response)) := by
  have htree : (treesOf s).mailboxContextTree = s.mailboxContextTree := rfl
  unfold DataEndpoint.reqContextClose reqContextClose
  simp only [writeReply_callsOf, htree]
  cases hentry : s.mailboxContextTree data with
  | none => exact ⟨rfl, outcomeOf_reply.symm⟩
  | some entry =>
    have hsendreq : ¬ (callsOf .none response).sendreq ≠ 0 := by simp [callsOf, failsIf]
    have hdelete : ¬ deleteStatus (callsOf .none response) (s.mailboxContextTree entry.addr)
        (callsOf .none response).deleteMailbox ≠ 0 := by
      rw [hkey entry hentry, hentry]
      simp [deleteStatus, callsOf]
    have hinst : (writePacket s data (encodeRequestChildContextClose entry.context)).inst =
        s.inst :=
      rfl
    have hpacket := hresponse entry hentry
    simp only [if_neg hsendreq, if_neg hdelete, hinst]
    cases hclose : closeChild s.inst entry.context with
    | none =>
      rw [hclose] at hpacket
      have hdecode : decodeResponseChildContextClose response =
          .ok (⟨Method.llChildContextClose.code, entry.context, statusOfError e⟩, none) := by
        rw [hpacket]
        exact decodeStatus_responsePacket _ _ _
      simp only [recvresp_callsOf (show OpenFault.none ≠ .receive by decide) hdecode,
        if_pos (statusOfError_ne_zero e)]
      exact ⟨rfl, outcomeOf_reply.symm⟩
    | some inst =>
      rw [hclose] at hpacket
      have hdecode : decodeResponseChildContextClose response =
          .ok (⟨Method.llChildContextClose.code, entry.context, 0⟩, none) := by
        rw [hpacket]
        exact decodeStatus_responsePacket _ _ _
      simp only [recvresp_callsOf (show OpenFault.none ≠ .receive by decide) hdecode,
        if_neg (show ¬ (0 : Status) ≠ 0 by simp)]
      exact ⟨rfl, outcomeOf_reply.symm⟩

theorem reqDataserviceReq_embeds (s : Endpoint) (p : ReplyPayload) (returnAddress : Address)
    (protocolRequestId offset : BitVec 32) (payload : RequestBuffer) (answer : Bytes) :
    Embeds
      (DataEndpoint.reqDataserviceReq s returnAddress protocolRequestId offset payload answer)
      (reqDataserviceReq (treesOf s) p returnAddress protocolRequestId offset payload
        (callsOf .none answer)) := by
  have htree : (treesOf s).mailboxContextTree = s.mailboxContextTree := rfl
  unfold DataEndpoint.reqDataserviceReq reqDataserviceReq
  simp only [htree, writeReply_callsOf]
  cases s.mailboxContextTree returnAddress with
  | none => exact Embeds.of_failure (callsOf .none answer).notFound.property rfl
  | some entry => exact ⟨rfl, outcomeOf_reply.symm⟩

/-- The endpoint of `DataEndpoint` is the one here with the data service behind it, before any
request and as long as the mailbox tree has its entries under their own addresses. -/
theorem decodeAndDispatch_embeds (s : Endpoint) (hp : ∀ m, p ≠ .message m) (a : Action)
    (e : AgentdError)
    (hkey : ∀ data entry, s.mailboxContextTree data = some entry → entry.addr = data) :
    Embeds (decodeAndDispatchReq s a)
      (decodeAndDispatch (treesOf s) p ⟨a.returnAddress, a.request⟩ (callsFor s a e)) := by
  obtain ⟨returnAddress, request, fault, answer⟩ := a
  cases request with
  | contextOpen data caps => exact reqContextOpen_embeds s hp returnAddress data caps fault e
  | contextClose offset data =>
    refine reqContextClose_embeds s p offset data e (hkey data) ?_
    intro entry hentry
    simp only [hentry]
  | dataserviceReq protocolRequestId offset payload =>
    exact reqDataserviceReq_embeds s p returnAddress protocolRequestId offset payload answer
  | other offset => exact ⟨rfl, rfl⟩

end DataService

end EndpointFiber
