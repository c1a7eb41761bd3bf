import Agentd.ChildContextSlots
import Agentd.DataserviceClient
import Agentd.TwinTrees

/-! # The data service endpoint of the protocol service

All connections share one socket to the data service. The endpoint fiber owns it: it opens a child
context for every connection, writes that child context into the requests of the connection, and
closes it in the end. Two trees hold the entries, one by the mailbox of the connection and one by
the child context. -/
namespace DataEndpoint

open ByteString
open DataserviceStore
open DataserviceDispatch
open LinkedKeys
open ChildContexts
open ChildContextSlots
open DataserviceClient

/-! ### Child contexts in the data service -/

variable {inst inst' : Instance} {free : List (Fin maxChildContexts)} {i : Fin maxChildContexts}

/-- What a request for a child context does in the data service; `none` when it is refused. -/
def createChild (inst : Instance) (caps : Bitcap) (allocFails : Bool) :
    Option (Instance × Fin maxChildContexts) :=
  match childDetailsCreate inst with
  | none => none
  | some (inst, i) =>
    let child := { inst.children i with
      childcaps := bitcapSetTrue (inst.children i).childcaps .llChildContextCreate }
    match childContextCreate inst.apicaps caps child with
    | .error _ => none
    | .ok child =>
      if allocFails then none
      else some ({ inst with children := Function.update inst.children i child }, i)

def closeChild (inst : Instance) (context : BitVec 32) : Option Instance :=
  match childContextLookup inst context with
  | .error _ => none
  | .ok i =>
    match childContextClose (inst.children i) with
    | .error _ => none
    | .ok child =>
      some (childDetailsDelete { inst with children := Function.update inst.children i child } i)

theorem dispatchChildContextCreate_eq {s : Service} {d : Delivery} {req : Bytes} {caps : Bitcap}
    (hslots : Slots s.inst free) (hcaps : decodeCaps req = .ok caps) :
    match createChild s.inst caps d.payloadAllocFails with
    | none => ∃ e, dispatchChildContextCreate s d req =
        writeStatus d s Method.llChildContextCreate.code 0 (.error e) none
    | some (inst, i) => dispatchChildContextCreate s d req =
        writeStatus d { s with inst := inst } Method.llChildContextCreate.code 0 (.ok ())
          (some (be 4 (BitVec.ofNat 32 i))) := by
  cases hcreate : childDetailsCreate s.inst with
  | none =>
    simp only [createChild, hcreate, dispatchChildContextCreate, hcaps]
    exact ⟨_, rfl⟩
  | some made =>
    obtain ⟨inst, i⟩ := made
    obtain ⟨rest, rfl, -, rfl⟩ := hslots.create hcreate
    simp only [createChild, hcreate, dispatchChildContextCreate, hcaps]
    generalize hchild : childContextCreate _ _ _ = made
    cases made with
    | error e =>
      rw [hslots.giveBack]
      exact ⟨_, rfl⟩
    | ok child =>
      cases d.payloadAllocFails with
      | true =>
        simp only [if_true]
        rw [hslots.giveBack]
        exact ⟨_, rfl⟩
      | false => rfl

theorem dispatchChildContextClose_eq {s : Service} {d : Delivery} {req rest : Bytes}
    {context : BitVec 32} (hinit : requestInit req = .ok (context, rest)) :
    match closeChild s.inst context with
    | none => ∃ e, dispatchChildContextClose s d req =
        writeStatus d s Method.llChildContextClose.code context (.error e) none
    | some inst => dispatchChildContextClose s d req =
        writeStatus d { s with inst := inst } Method.llChildContextClose.code context (.ok ())
          none := by
  cases hlook : childContextLookup s.inst context with
  | error e =>
    simp only [closeChild, hlook]
    exact ⟨e, by simp only [dispatchChildContextClose, hinit, hlook]⟩
  | ok i =>
    cases hclose : childContextClose (s.inst.children i) with
    | error e =>
      simp only [closeChild, hlook, hclose]
      exact ⟨_, by simp only [dispatchChildContextClose, hinit, hlook, hclose]; rfl⟩
    | ok child =>
      simp only [closeChild, hlook, hclose, dispatchChildContextClose, hinit]

theorem childContextCreate_dispose {apicaps caps : Bitcap} {child child' : ChildDetails}
    (h : childContextCreate apicaps caps child = .ok child') : child'.dispose = child.dispose := by
  rw [childContextCreate] at h
  split at h
  · cases h
  · split at h
    · cases h
    · cases h
      rfl

theorem createChild_some {caps : Bitcap} {allocFails : Bool} (hslots : Slots inst free)
    (h : createChild inst caps allocFails = some (inst', i)) :
    i ∉ openSlots inst ∧ openSlots inst' = insert i (openSlots inst) ∧
      ∃ free', Slots inst' free' := by
  cases hcreate : childDetailsCreate inst with
  | none =>
    simp only [createChild, hcreate] at h
    cases h
  | some made =>
    obtain ⟨inst₁, j⟩ := made
    obtain ⟨rest, rfl, -, rfl⟩ := hslots.create hcreate
    simp only [createChild, hcreate] at h
    split at h
    · cases h
    · rename_i child hchild
      split at h
      · cases h
      · cases h
        have hopen : child.dispose = true := by
          rw [childContextCreate_dispose hchild, Function.update_self]
        refine ⟨not_mem_openSlots.mpr ((hslots.mem_iff i).mp (by simp)), ?_, rest, ?_⟩
        · simp only [Function.update_idem]
          exact openSlots_opened _ i hopen _ _ _ _
        · simp only [Function.update_idem]
          exact hslots.keep hopen

theorem createChild_allocFails (inst : Instance) (caps : Bitcap) :
    createChild inst caps true = none := by
  rw [createChild]
  split
  · rfl
  · dsimp only
    split
    · rfl
    · rfl

theorem closeChild_some (hslots : Slots inst free) (hi : i ∈ openSlots inst)
    (h : closeChild inst (BitVec.ofNat 32 i) = some inst') :
    openSlots inst' = openSlots inst \ {i} ∧ ∃ free', Slots inst' free' := by
  have hlook : childContextLookup inst (BitVec.ofNat 32 i) = .ok i :=
    (childContextLookup_iff _ i).mpr ⟨rfl, hi⟩
  simp only [closeChild, hlook] at h
  split at h
  · cases h
  · cases h
    refine ⟨?_, _, hslots.delete hi⟩
    simp only [childDetailsDelete, Function.update_idem]
    exact openSlots_childDetailsDelete inst i

/-! ### Messages -/

/-- A mailbox gets a number that no other has had. -/
abbrev Address := ℕ

inductive WriteMessageType where
  | shutdown
  | dataserviceContextCreate
  | dataservice
  | notification
  | packet
  | errorMessage
  deriving DecidableEq, Repr

structure WriteMessage where
  messageType : WriteMessageType
  originalRequestId : BitVec 32
  offset : BitVec 32
  payload : Bytes
  deriving DecidableEq

/-- An encoded request of the data service client; there is room for the child context. -/
structure RequestBuffer where
  bytes : Bytes
  long : 8 ≤ bytes.length
  deriving DecidableEq

/-- `protocolservice_dataservice_request_message`, by its request id. -/
inductive RequestMessage where
  | contextOpen (data : Address) (caps : Bitcap)
  | contextClose (offset : BitVec 32) (data : Address)
  | dataserviceReq (protocolRequestId offset : BitVec 32) (payload : RequestBuffer)
  | other (offset : BitVec 32)
  deriving DecidableEq

/-! ### State -/

structure MailboxContextEntry where
  addr : Address
  context : BitVec 32
  deriving DecidableEq

/-- A request that was written to the data service for a connection. The holder is a ghost: it is
the mailbox for which the child context was opened that the data service finds for the packet. -/
structure Sent where
  connection : Address
  packet : Bytes
  holder : Option Address
  deriving DecidableEq

/-- The state of the endpoint and of its instance of the data service. The owner of a slot is a
ghost: the mailbox for which it was opened last. -/
structure Endpoint where
  inst : Instance
  owner : Fin maxChildContexts → Address
  mailboxContextTree : Address → Option MailboxContextEntry
  contextMailboxTree : BitVec 32 → Option MailboxContextEntry
  sent : List Sent
  running : Bool

/-- The endpoint at its start; the root context was opened and its capabilities were reduced. -/
def endpointAdd (apicaps : Bitcap) (datadir : Bytes) : Endpoint where
  inst := { instanceCreate with apicaps := apicaps, details := .opened datadir }
  owner _ := 0
  mailboxContextTree _ := none
  contextMailboxTree _ := none
  sent := []
  running := true

/-! ### Dispatch -/

/-- Where an open fails, if the data service does not refuse it for its own reasons. -/
inductive OpenFault where
  | none
  | entryAlloc
  | send
  | childAlloc
  | receive
  | mailboxInsert
  | contextInsert
  | reply
  deriving DecidableEq, Repr

/-- The reply; `unset` is a success that left the pointer to it as it was. -/
inductive Outcome where
  | replied (m : WriteMessage)
  | unset
  | failed
  deriving DecidableEq

def contextReply (offset : BitVec 32) : Outcome :=
  .replied ⟨.dataserviceContextCreate, 0, offset, []⟩

def holderOf (s : Endpoint) (packet : Bytes) : Option Address :=
  match requestInit (packet.drop 4) with
  | .error _ => none
  | .ok (child, _) =>
    match childContextLookup s.inst child with
    | .error _ => none
    | .ok i => some (s.owner i)

def writePacket (s : Endpoint) (connection : Address) (packet : Bytes) : Endpoint :=
  { s with sent := s.sent ++ [⟨connection, packet, holderOf s packet⟩] }

/-- The entry is put in both trees by its own fields, and on an error the deletion from the mailbox
tree goes by the return address of the message. A child context that the data service refused is no
error. -/
def reqContextOpen (s : Endpoint) (returnAddress data : Address) (caps : Bitcap) (f : OpenFault) :
    Endpoint × Outcome :=
  if f = .entryAlloc ∨ f = .send then (s, .failed)
  else
    match createChild s.inst caps (f = .childAlloc) with
    | none => (s, if f = .receive then .failed else .unset)
    | some (inst, i) =>
      let s := { s with inst := inst, owner := Function.update s.owner i data }
      let entry : MailboxContextEntry := ⟨data, BitVec.ofNat 32 i⟩
      if f = .receive then (s, .failed)
      else if f = .mailboxInsert ∨ (s.mailboxContextTree entry.addr).isSome then (s, .failed)
      else
        let mailboxes := Function.update s.mailboxContextTree entry.addr (some entry)
        if f = .contextInsert ∨ (s.contextMailboxTree entry.context).isSome then
          ({ s with mailboxContextTree := Function.update mailboxes returnAddress none }, .failed)
        else
          let contexts := Function.update s.contextMailboxTree entry.context (some entry)
          if f = .reply then
            ({ s with
              mailboxContextTree := Function.update mailboxes returnAddress none
              contextMailboxTree := Function.update contexts entry.context none }, .failed)
          else
            ({ s with mailboxContextTree := mailboxes, contextMailboxTree := contexts },
              contextReply 0)

def reqContextClose (s : Endpoint) (offset : BitVec 32) (data : Address) : Endpoint × Outcome :=
  match s.mailboxContextTree data with
  | none => (s, contextReply offset)
  | some entry =>
    let s := writePacket s data (encodeRequestChildContextClose entry.context)
    match closeChild s.inst entry.context with
    | none => (s, contextReply offset)
    | some inst =>
      ({ s with
        inst := inst
        mailboxContextTree := Function.update s.mailboxContextTree entry.addr none
        contextMailboxTree := Function.update s.contextMailboxTree entry.context none },
        contextReply offset)

/-- The child context goes over the one in the request; the answer of the data service is passed on
as it is. -/
def reqDataserviceReq (s : Endpoint) (returnAddress : Address)
    (protocolRequestId offset : BitVec 32) (payload : RequestBuffer) (answer : Bytes) :
    Endpoint × Outcome :=
  match s.mailboxContextTree returnAddress with
  | none => (s, .failed)
  | some entry =>
    (writePacket s returnAddress (overwrite payload.bytes 4 (be 4 entry.context)),
      .replied ⟨.dataservice, protocolRequestId, offset, answer⟩)

def invalidReq (s : Endpoint) (offset : BitVec 32) : Endpoint × Outcome :=
  (s, .replied ⟨.shutdown, BitVec.ofNat 32 WriteMessageType.errorMessage.ctorIdx, offset, []⟩)

structure Action where
  returnAddress : Address
  request : RequestMessage
  fault : OpenFault
  answer : Bytes

def decodeAndDispatchReq (s : Endpoint) (a : Action) : Endpoint × Outcome :=
  match a.request with
  | .contextOpen data caps => reqContextOpen s a.returnAddress data caps a.fault
  | .contextClose offset data => reqContextClose s offset data
  | .dataserviceReq protocolRequestId offset payload =>
    reqDataserviceReq s a.returnAddress protocolRequestId offset payload a.answer
  | .other offset => invalidReq s offset

def step (s : Endpoint) (a : Action) : Endpoint :=
  if s.running = false then s
  else
    match decodeAndDispatchReq s a with
    | (s, .failed) => { s with running := false }
    | (s, _) => s

end DataEndpoint
