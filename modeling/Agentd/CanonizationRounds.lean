import Agentd.TransitionRuns
import Agentd.PublishedBlocks
import Agentd.ChildContextSlots
import Agentd.BlockAcceptance

/-! # Rounds of canonization

A round begins when the random service is asked for a block id and ends when the timer is armed or
the next round begins. With nothing failing and nobody else acting there is one message in flight
and one way to handle it, so a round is determined by the state it begins in. -/
namespace CanonizationRounds

open ByteString
open CertificateFields
open FaultyTransactions
open DataserviceRecords
open DataserviceStore
open DataserviceQueue
open DataserviceBlocks
open DataserviceRequests
open DataserviceDispatch
open DataserviceClient
open TransitionRuns.Deterministic
open ChildContexts
open CapabilityConfinement
open ChildContextSlots
open ProcessQueueRefinement
open ProcessQueueRuns
open BlockchainInvariant
open CanonizationService
open CanonizationSystem

/-! ### Steps -/

/-- How a message is handled when nothing fails; the random service answers with `blockId`. -/
def answer (now : BitVec 64) (blockId : Uuid) : Message → Action
  | .timer => .timer (allWorks now)
  | .randomRequest => .random (randomPacket blockId)
  | .randomResponse _ => .randomRead (allWorks now)
  | .dataRequest _ => .serve (workingDelivery [])
  | .dataResponse _ => .dataRead (allWorks now)
  | .blockUpdate _ => .update 0
  | .notifyResponse _ => .notifyRead (allWorks now)

def endsRound : Message → Bool
  | .timer => true
  | .randomRequest => true
  | _ => false

def advance (E : Env) (B : CertBuilder) (dir : Bytes) (now : BitVec 64) (blockId : Uuid)
    (s : System) : Option (Message × System) :=
  match s.net with
  | [m] =>
    if endsRound m then none else (step E B dir s (answer now blockId m)).map fun t => (m, t)
  | _ => none

def Round (E : Env) (B : CertBuilder) (dir : Bytes) (now : BitVec 64) (blockId : Uuid) (s : System)
    (ms : List Message) (u : System) : Prop :=
  s.net = [.randomRequest] ∧ ∃ t, step E B dir s (answer now blockId .randomRequest) = some t ∧
    Steps (advance E B dir now blockId) t ms u ∧ (u.net = [.timer] ∨ u.net = [.randomRequest])

section Steps

variable {E : Env} {B : CertBuilder} {dir : Bytes} {now : BitVec 64} {blockId : Uuid}
  {s t : System} {m : Message}

theorem advance_eq (hnet : s.net = [m]) (hm : endsRound m = false)
    (h : step E B dir s (answer now blockId m) = some t) :
    advance E B dir now blockId s = some (m, t) := by
  simp [advance, hnet, hm, h]

theorem halted_of_end (h : s.net = [.timer] ∨ s.net = [.randomRequest]) :
    Halted (advance E B dir now blockId) s := by
  rcases h with h | h
  · simp [Halted, advance, h, endsRound]
  · simp [Halted, advance, h, endsRound]

theorem halted_of_nothing (h : s.net = []) : Halted (advance E B dir now blockId) s := by
  simp [Halted, advance, h]

end Steps

/-! ### Block requests -/

def wrappedIn (E : Env) : Message → Option (List Bytes)
  | .dataRequest packet =>
    if bits 32 (packet.take 4) = Method.appBlockWrite.code then
      some (match E.fields (packet.drop 24) with
        | some fs => fieldValues fs .wrappedTransactionTuple
        | none => [])
    else none
  | _ => none

/-- What the requests to make a block wrap, in the order in which they were sent. -/
def blockMakes (E : Env) (ms : List Message) : List (List Bytes) := ms.filterMap (wrappedIn E)

theorem blockMakes_append (E : Env) (ms ns : List Message) :
    blockMakes E (ms ++ ns) = blockMakes E ms ++ blockMakes E ns := List.filterMap_append

theorem wrappedIn_other (E : Env) {m : Method} (hm : m.code ≠ Method.appBlockWrite.code)
    (rest : Bytes) : wrappedIn E (.dataRequest (be 4 m.code ++ rest)) = none := by
  rw [wrappedIn, bits_method, if_neg hm]

theorem blockMakes_request (E : Env) {m : Method} (hm : m.code ≠ Method.appBlockWrite.code)
    (rest : Bytes) (ms : List Message) :
    blockMakes E (.dataRequest (be 4 m.code ++ rest) :: ms) = blockMakes E ms :=
  List.filterMap_cons_none (wrappedIn_other E hm rest)

/-- An exchange about something else. -/
theorem blockMakes_other (E : Env) {m : Method} (hm : m.code ≠ Method.appBlockWrite.code)
    (rest : Bytes) (resp : Response) :
    blockMakes E [.dataRequest (be 4 m.code ++ rest), .dataResponse resp] = [] := by
  rw [blockMakes_request E hm]
  rfl

theorem wrappedIn_blockMake (E : Env) (child : BitVec 32) (blockId : Uuid) {cert : Bytes}
    {fs : List (CertField × Bytes)} (hfs : E.fields cert = some fs) :
    wrappedIn E (.dataRequest (encodeRequestBlockMake child blockId cert)) =
      some (fieldValues fs .wrappedTransactionTuple) := by
  have hdrop : (encodeRequestBlockMake child blockId cert).drop 24 = cert := by
    rw [encodeRequestBlockMake, requestPacket, ← List.append_assoc, ← List.append_assoc,
      List.drop_left' (by simp)]
  rw [wrappedIn, hdrop, encodeRequestBlockMake, requestPacket, bits_method, if_pos rfl, hfs]

/-! ### Inside a round -/

theorem callback_eq {s : System} {e : Effect} (hrun : s.canon.forceExit = false)
    (net : List Message) :
    callback s net (some e) = some { s with canon := e.1, net := net ++ e.2 } := by
  rw [callback, if_neg (by simp [hrun])]
  rfl

/-- A request that is answered. -/
theorem step_serve {E : Env} {B : CertBuilder} {dir : Bytes} {s : System} {packet : Bytes}
    {v : Service} {resp : Response} (hnet : s.net = [.dataRequest packet])
    (hserving : s.dataExited = false) (hlen : packet.length < maxPayload)
    (h : decodeAndDispatch E s.data (workingDelivery packet) = some (v, some resp, .ok ())) :
    step E B dir s (.serve (workingDelivery [])) =
      some { s with data := v, dataExited := false, net := [.dataResponse resp] } := by
  have hnot : ¬ maxPayload ≤ packet.length := not_le.mpr hlen
  simp only [step, hnet, takeMessage, isDataRequest, Option.bind_eq_bind, Option.bind_some,
    serveData, hserving, Bool.false_eq_true, if_false, if_neg hnot]
  rw [show ({ workingDelivery [] with packet := packet } : Delivery) =
    workingDelivery packet from rfl, h]
  rfl

def canonCall (r : Request) : Invocation := ⟨r, canonizationCaps, noFaults, false⟩

def respondTo (m : Method) (r : DecodedRequest) : Except AgentdError Reply → Response
  | .error e => ⟨m.code, r.childIndex, .error e, none⟩
  | .ok a => ⟨m.code, r.childIndex, .ok (), (encodeReply false r a).toOption.getD none⟩

structure At (dir : Bytes) (i : Fin maxChildContexts) (inst : CanonizationService.Instance)
    (d : Store) (m : Message) (s : System) : Prop where
  canon : s.canon = inst
  net : s.net = [m]
  store : s.store dir = d
  opened : s.data.inst.details = .opened dir
  child : s.data.inst.children i = ⟨true, none, true, canonizationCaps⟩
  create : bitcapIsset s.data.inst.apicaps .llChildContextCreate = true
  caps : Within canonizationCaps s.data.inst.apicaps
  serving : s.dataExited = false
  allowed : s.notification.blockUpdateAllowed = true

section At

variable {E : Env} {B : CertBuilder} {dir : Bytes} {now : BitVec 64} {blockId : Uuid}
  {i : Fin maxChildContexts} {inst inst' : CanonizationService.Instance} {d d' : Store}
  {m : Message} {s : System}

theorem performChild_canon {v : Service} {dv : Delivery} {r : Request}
    (hopen : v.inst.details = .opened dir)
    (hchild : v.inst.children i = ⟨true, none, true, canonizationCaps⟩)
    (hf : dv.faults = noFaults) (hc : dv.commitFails = false) :
    performChild E v i dv r = ((perform E (v.disk dir) (canonCall r)).1,
      { v with disk := Function.update v.disk dir (perform E (v.disk dir) (canonCall r)).2 }) := by
  simp only [performChild, hopen, hchild, hf, hc]
  rfl

variable (B now blockId)

/-- An operation is performed and answered. -/
theorem At.serve {packet : Bytes} {meth : Method} {r : DecodedRequest}
    {result : Except AgentdError Reply} (h : At dir i inst d (.dataRequest packet) s)
    (he : Encodes packet meth r) (hi : r.childIndex = BitVec.ofNat 32 i)
    (hlen : packet.length < maxPayload)
    (hp : perform E d (canonCall r.request) = (result.mapError Stop.fail, d')) :
    ∃ t, advance E B dir now blockId s = some (.dataRequest packet, t) ∧
      At dir i inst d' (.dataResponse (respondTo meth r result)) t := by
  have hlook : childContextLookup s.data.inst r.childIndex = .ok i := by
    refine (childContextLookup_iff _ i).mpr ⟨hi, ?_⟩
    show (s.data.inst.children i).dispose = true
    rw [h.child]
  obtain ⟨decode, req, hdecode, hdispatch⟩ := decodeAndDispatch_operation (E := E) (s := s.data)
    (d := workingDelivery packet) he
  have hchild : performChild E s.data i (workingDelivery packet) r.request =
      (result.mapError Stop.fail, { s.data with disk := Function.update s.data.disk dir d' }) := by
    rw [performChild_canon h.opened h.child rfl rfl, show s.data.disk dir = d from h.store, hp]
  have hserved : decodeAndDispatch E s.data (workingDelivery packet) =
      some ({ s.data with disk := Function.update s.data.disk dir d' },
        some (respondTo meth r result), .ok ()) := by
    rw [hdispatch, dispatchChildRequest, hdecode]
    simp only [hlook, hchild]
    cases result with
    | error e => rfl
    | ok a => cases a <;> rfl
  refine ⟨_, advance_eq h.net rfl (step_serve h.net h.serving hlen hserved), ?_⟩
  refine ⟨h.canon, rfl, ?_, h.opened, h.child, h.create, h.caps, rfl, h.allowed⟩
  simp [System.store]

/-- A response is read, and the next message sent. -/
theorem At.read {resp : Response} (h : At dir i inst d (.dataResponse resp) s)
    (hrun : inst.forceExit = false)
    (he : CanonizationService.dataRead E B (allWorks now) inst resp = some (inst', [m])) :
    ∃ t, advance E B dir now blockId s = some (.dataResponse resp, t) ∧ At dir i inst' d m t := by
  refine ⟨{ s with canon := inst', net := [m] }, advance_eq h.net rfl ?_, ?_⟩
  · simp only [answer, step, h.net, takeMessage, isDataResponse, Option.bind_eq_bind,
      Option.bind_some, h.canon, he]
    rw [callback_eq (h.canon ▸ hrun)]
    rfl
  · exact ⟨rfl, rfl, h.store, h.opened, h.child, h.create, h.caps, h.serving, h.allowed⟩

/-- A request, its response, and what is sent next. -/
theorem At.exchange {packet : Bytes} {meth : Method} {r : DecodedRequest}
    {result : Except AgentdError Reply} (h : At dir i inst d (.dataRequest packet) s)
    (he : Encodes packet meth r) (hi : r.childIndex = BitVec.ofNat 32 i)
    (hlen : packet.length < maxPayload)
    (hp : perform E d (canonCall r.request) = (result.mapError Stop.fail, d'))
    (hrun : inst.forceExit = false)
    (hread : CanonizationService.dataRead E B (allWorks now) inst (respondTo meth r result) =
      some (inst', [m])) :
    ∃ t, Steps (advance E B dir now blockId) s
        [.dataRequest packet, .dataResponse (respondTo meth r result)] t ∧
      At dir i inst' d' m t := by
  obtain ⟨t, hs, ht⟩ := h.serve B now blockId he hi hlen hp
  obtain ⟨u, ht', hu⟩ := ht.read B now blockId hrun hread
  exact ⟨u, .head hs (.single ht'), hu⟩

end At

/-! ### The beginning -/

/-- The services when a round begins: the canonization service has its key and waits for random
bytes, and its data service lets it open a child context with the capabilities it asks for. -/
structure Ready (dir : Bytes) (s : System) : Prop where
  net : s.net = [.randomRequest]
  state : s.canon.state = .waitrespGetRandomBytes
  running : s.canon.forceExit = false
  list : s.canon.transactionList = some []
  key : s.canon.privateKey ≠ none
  signature : s.canon.previousBlockSignature.length = signatureSize
  serving : s.dataExited = false
  opened : s.data.inst.details = .opened dir
  create : bitcapIsset s.data.inst.apicaps .llChildContextCreate = true
  caps : Within canonizationCaps s.data.inst.apicaps
  slot : s.data.inst.childHead ≠ none
  allowed : s.notification.blockUpdateAllowed = true

section Begin

variable {E : Env} {B : CertBuilder} {dir : Bytes} {now : BitVec 64} {blockId : Uuid}
  {inst : CanonizationService.Instance} {s : System}

theorem randomRead_randomPacket (hrun : inst.forceExit = false)
    (hstate : inst.state = .waitrespGetRandomBytes) :
    CanonizationService.randomRead (allWorks now) inst (randomPacket blockId) =
      ({ inst with blockId := blockId, state := .waitrespChildContextCreate },
        [.dataRequest (encodeRequestChildContextCreate canonizationCaps)]) := by
  have hlen : ¬ (randomPacket blockId).length < 12 := by simp [randomPacket]
  have hmethod : bits 32 (slice (randomPacket blockId) 0 4) = methodGetRandomBytes := by
    simp [randomPacket, slice_append_self, bits_be]
  have hstatus : bits 32 (slice (randomPacket blockId) 8 4) = 0 := by
    simp [randomPacket, slice_append_skip, slice_append_self, bits_be]
  have hdrop : (randomPacket blockId).drop 12 = be 16 blockId := by
    rw [randomPacket, List.drop_left' (by simp)]
  have hfields : ¬ (bits 32 (slice (randomPacket blockId) 0 4) ≠ methodGetRandomBytes ∨
      bits 32 (slice (randomPacket blockId) 8 4) ≠ 0 ∨
      ((randomPacket blockId).drop 12).length ≠ 16) := by
    simp [hmethod, hstatus, hdrop]
  rw [CanonizationService.randomRead, if_neg (by simp [hrun]), if_neg (by simp [hstate]),
    if_neg hlen, if_neg hfields, hdrop, bits_be (n := 16) (w := 128) rfl]
  rfl

/-- The capabilities of the new child context are those that were asked for. -/
theorem granted_canonizationCaps {apicaps : Bitcap} (h : Within canonizationCaps apicaps) :
    bitcapSetFalse (bitcapIntersect apicaps canonizationCaps) .llChildContextCreate =
      canonizationCaps := by
  have hand : bitcapIntersect apicaps canonizationCaps = canonizationCaps :=
    (BitVec.and_comm _ _).trans h
  rw [hand]
  decide

theorem served_join {v : Service} {i : Fin maxChildContexts} (hhead : v.inst.childHead = some i)
    (hcreate : bitcapIsset v.inst.apicaps .llChildContextCreate = true)
    (hcaps : Within canonizationCaps v.inst.apicaps) :
    decodeAndDispatch E v
        (workingDelivery (encodeRequestChildContextCreate canonizationCaps)) =
      some (⟨{ v.inst with
          childHead := (v.inst.children i).next
          children := Function.update v.inst.children i ⟨true, none, true, canonizationCaps⟩ },
          v.disk⟩,
        some ⟨Method.llChildContextCreate.code, 0, .ok (), some (be 4 (BitVec.ofNat 32 i))⟩,
        .ok ()) := by
  have hdecode : decodeCaps ((encodeRequestChildContextCreate canonizationCaps).drop 4) =
      .ok canonizationCaps := by decide +kernel
  have hcap : ¬ bitcapIsset v.inst.apicaps .llChildContextCreate = false := by simp [hcreate]
  have hself : ¬ bitcapIsset (bitcapSetTrue clearedChild.childcaps .llChildContextCreate)
      .llChildContextCreate = false := by decide
  have hserve : decodeAndDispatch E v
      (workingDelivery (encodeRequestChildContextCreate canonizationCaps)) =
      dispatchChildContextCreate v
        (workingDelivery (encodeRequestChildContextCreate canonizationCaps))
        ((encodeRequestChildContextCreate canonizationCaps).drop 4) := rfl
  rw [hserve]
  simp only [dispatchChildContextCreate, hdecode, childDetailsCreate, hhead, Option.map_some,
    childContextCreate, if_neg hcap, Function.update_self, if_neg hself, Function.update_idem,
    granted_canonizationCaps hcaps, workingDelivery]
  rfl

theorem responseChildContextCreate_eq (i : Fin maxChildContexts) (hrun : inst.forceExit = false) :
    CanonizationService.dataRead E B (allWorks now) inst
        ⟨Method.llChildContextCreate.code, 0, .ok (), some (be 4 (BitVec.ofNat 32 i))⟩ =
      some ({ inst with
          dataChildContext := BitVec.ofNat 32 i
          state := .waitrespLatestBlockIdGet },
        [.dataRequest (encodeRequestLatestBlockIdGet (BitVec.ofNat 32 i))]) := by
  have hchild : bits 32 (slice (be 4 (BitVec.ofNat 32 i.val)) 0 4) = BitVec.ofNat 32 i.val := by
    have hslice := slice_append_self (be 4 (BitVec.ofNat 32 i.val)) [] (length_be 4 _)
    rw [List.append_nil] at hslice
    rw [hslice, bits_be (n := 4) (w := 32) rfl]
  have hdecode : decodeResponseChildContextCreate
      ⟨Method.llChildContextCreate.code, 0, .ok (), some (be 4 (BitVec.ofNat 32 i))⟩ =
      some (.ok (BitVec.ofNat 32 i)) := by
    simp [decodeResponseChildContextCreate, decodeResponse, hchild]
  rw [dataRead_of_create E B hrun rfl, responseChildContextCreate, hdecode]
  rfl

variable (E B now blockId)

/-- The first steps of a round end with the question for the latest block. -/
theorem Ready.begins (h : Ready dir s) : ∃ i t ms u,
    step E B dir s (answer now blockId .randomRequest) = some t ∧
    Steps (advance E B dir now blockId) t ms u ∧ blockMakes E ms = [] ∧
    At dir i { s.canon with
        blockId := blockId
        dataChildContext := BitVec.ofNat 32 i
        state := .waitrespLatestBlockIdGet } (s.store dir)
      (.dataRequest (encodeRequestLatestBlockIdGet (BitVec.ofNat 32 i))) u := by
  obtain ⟨i, hi⟩ := Option.ne_none_iff_exists'.mp h.slot
  let joined : Service := ⟨{ s.data.inst with
    childHead := (s.data.inst.children i).next
    children := Function.update s.data.inst.children i ⟨true, none, true, canonizationCaps⟩ },
    s.data.disk⟩
  let asking : CanonizationService.Instance :=
    { s.canon with blockId := blockId, state := .waitrespChildContextCreate }
  let resp : Response :=
    ⟨Method.llChildContextCreate.code, 0, .ok (), some (be 4 (BitVec.ofNat 32 i))⟩
  let packet := encodeRequestChildContextCreate canonizationCaps
  have h₁ : step E B dir s (answer now blockId .randomRequest) =
      some { s with net := [.randomResponse (randomPacket blockId)] } := by
    simp only [answer, step, h.net, takeMessage, isRandomRequest]
    rfl
  have h₂ : advance E B dir now blockId
      { s with net := [.randomResponse (randomPacket blockId)] } =
      some (.randomResponse (randomPacket blockId),
        { s with canon := asking, net := [.dataRequest packet] }) := by
    refine advance_eq rfl rfl ?_
    simp only [answer, step, takeMessage, isRandomResponse, Option.bind_eq_bind, Option.bind_some]
    rw [callback_eq (by exact h.running)]
    simp only [randomRead_randomPacket h.running h.state]
    rfl
  have h₃ : advance E B dir now blockId
      { s with canon := asking, net := [.dataRequest packet] } =
      some (.dataRequest packet, { s with
        canon := asking, data := joined, dataExited := false, net := [.dataResponse resp] }) := by
    refine advance_eq rfl rfl ?_
    exact step_serve rfl h.serving (by decide +kernel) (served_join hi h.create h.caps)
  have hat : At dir i asking (s.store dir) (.dataResponse resp) { s with
      canon := asking, data := joined, dataExited := false, net := [.dataResponse resp] } := by
    refine ⟨rfl, rfl, rfl, h.opened, ?_, h.create, h.caps, rfl, h.allowed⟩
    exact Function.update_self _ _ _
  obtain ⟨u, h₄, hu⟩ := hat.read B now blockId h.running
    (responseChildContextCreate_eq i h.running)
  refine ⟨i, _, _, u, h₁, .head h₂ (.head h₃ (.single h₄)), ?_, hu⟩
  exact blockMakes_other E (m := .llChildContextCreate) (by decide)
    (be 4 canonizationCaps).reverse resp

end Begin

/-! ### The latest block -/

def Signed (E : Env) (bs : List Block) : Prop :=
  ∀ b, bs.getLast? = some b → b.data.length + 84 < maxPayload ∧
    ∃ fs, E.fields b.data = some fs ∧ fieldValues fs .signature ≠ []

section Latest

variable {E : Env} {B : CertBuilder} {dir : Bytes} {now : BitVec 64} {blockId : Uuid}
  {i : Fin maxChildContexts} {inst : CanonizationService.Instance} {d : Store} {s : System}
  {bs : List Block}

theorem canonCall_works (r : Request) : (canonCall r).Works :=
  ⟨⟨fun _ => rfl, fun _ => rfl, fun _ => rfl, fun _ => rfl⟩, rfl, fun _ => rfl⟩

theorem canonCall_permitted {r : Request} (h : bitcapIsset canonizationCaps r.capability = true) :
    (canonCall r).Permitted :=
  ⟨h, ⟨fun _ => rfl, fun _ => rfl, fun _ => rfl, fun _ => rfl⟩⟩

theorem decode_latest (child : BitVec 32) (id : Uuid) :
    decodeResponseLatestBlockIdGet (respondTo .appBlockIdLatestRead
      ⟨child, .latestBlockIdGet, false⟩ (.ok (.blockId id))) = some (.ok id) := by
  have hid := uuidAt_append id []
  rw [List.append_nil] at hid
  simp [decodeResponseLatestBlockIdGet, decodeResponse, respondTo, encodeReply, Except.toOption,
    hid]

theorem decode_block (child : BitVec 32) (id : Uuid) (node : DataBlockNode) (cert : Bytes) :
    ∃ got, decodeResponseBlockGet (respondTo .appBlockRead ⟨child, .blockGet id, true⟩
        (.ok (.block node cert))) = some (.ok (got, cert)) ∧
      got.netBlockHeight = node.netBlockHeight := by
  have hlen : ¬ (encodeResponseBlockRead node true cert).length < 72 := by
    simp [encodeResponseBlockRead]
    omega
  have hdrop : (encodeResponseBlockRead node true cert).drop 72 = cert := by
    rw [encodeResponseBlockRead, if_pos rfl, List.drop_left' (by simp)]
  have hheight : bits 64 (slice (encodeResponseBlockRead node true cert) 64 8) =
      node.netBlockHeight := by
    simp [encodeResponseBlockRead, slice_append_skip, slice_append_self, bits_be]
  have hdecode : decodeResponseBlockGet (respondTo .appBlockRead ⟨child, .blockGet id, true⟩
      (.ok (.block node cert))) = some (.ok
        (⟨uuidAt (encodeResponseBlockRead node true cert) 0,
          uuidAt (encodeResponseBlockRead node true cert) 16,
          uuidAt (encodeResponseBlockRead node true cert) 32,
          uuidAt (encodeResponseBlockRead node true cert) 48, node.netBlockHeight,
          BitVec.ofNat 64 cert.length⟩, cert)) := by
    rw [decodeResponseBlockGet, decodeResponse, if_neg (by simp [respondTo])]
    simp only [respondTo, encodeReply, Bool.false_eq_true, if_false, Except.toOption,
      Option.getD_some, if_neg hlen, hdrop, hheight]
  exact ⟨_, hdecode, rfl⟩

variable (B now) in
theorem dataRead_latest (child : BitVec 32) (id : Uuid) (hrun : inst.forceExit = false) :
    CanonizationService.dataRead E B (allWorks now) inst (respondTo .appBlockIdLatestRead
        ⟨child, .latestBlockIdGet, false⟩ (.ok (.blockId id))) =
      some (if id = E.rootBlock then
        sendreqTransactionGetFirst (allWorks now)
          { inst with previousBlockId := id, blockHeight := 1 }
        else sendreqBlockGet (allWorks now) { inst with previousBlockId := id }) := by
  rw [dataRead_of_latest E B hrun rfl, responseLatestBlockIdRead, decode_latest]

variable (B now inst) in
theorem dataRead_block (child : BitVec 32) (id : Uuid) (node : DataBlockNode) {cert : Bytes}
    {fs : List (CertField × Bytes)} (hrun : inst.forceExit = false)
    (hsig : inst.previousBlockSignature.length = signatureSize) (hfs : E.fields cert = some fs)
    (hne : fieldValues fs .signature ≠ []) :
    ∃ sig : Bytes, sig.length = signatureSize ∧
      CanonizationService.dataRead E B (allWorks now) inst (respondTo .appBlockRead
        ⟨child, .blockGet id, true⟩ (.ok (.block node cert))) =
      some ({ inst with
          blockHeight := node.netBlockHeight + 1
          previousBlockSignature := sig
          state := .waitrespPqTxnFirstGet },
        [.dataRequest (encodeRequestTransactionGetFirst inst.dataChildContext)]) := by
  obtain ⟨got, hdecode, hheight⟩ := decode_block child id node cert
  obtain ⟨found, rest, hfound⟩ := List.exists_cons_of_ne_nil hne
  rw [dataRead_of_block E B hrun rfl]
  by_cases hfit : found.length = signatureSize
  · refine ⟨found, hfit, ?_⟩
    simp only [responseBlockRead, hdecode, hheight]
    simp [parseBlock, allWorks, hfs, hfound, hfit]
    rfl
  · refine ⟨inst.previousBlockSignature, hsig, ?_⟩
    simp only [responseBlockRead, hdecode, hheight]
    simp [parseBlock, allWorks, hfs, hfound, hfit]
    rfl

theorem length_requestPacket (m : Method) (child : BitVec 32) (args : Bytes) :
    (requestPacket m child args).length = 8 + args.length := by
  simp [requestPacket]
  omega

theorem requestPacket_short {m : Method} {child : BitVec 32} {args : Bytes}
    (h : args.length ≤ 100) : (requestPacket m child args).length < maxPayload := by
  have hmax : maxPayload = 1073741824 := by decide
  rw [length_requestPacket]
  omega

/-- The instance that is about to read the queue behind the latest block. -/
def behindLatest (E : Env) (d : Store) (inst : CanonizationService.Instance) (sig : Bytes) :
    CanonizationService.Instance :=
  { inst with
    previousBlockId := expectedPrevBlockId E (d.blockDb ffUuid)
    previousBlockSignature := sig
    blockHeight := expectedBlockHeight (d.blockDb ffUuid)
    state := .waitrespPqTxnFirstGet }

variable (B now blockId)

/-- The id of the latest block is read and, unless it is the root block, the block itself. -/
theorem At.latest
    (h : At dir i inst d (.dataRequest (encodeRequestLatestBlockIdGet inst.dataChildContext)) s)
    (hrun : inst.forceExit = false) (hchild : inst.dataChildContext = BitVec.ofNat 32 i)
    (hsig : inst.previousBlockSignature.length = signatureSize)
    (hc : Chain E d.blockDb d.heightDb bs) (hsigned : Signed E bs) : ∃ sig ms t,
      sig.length = signatureSize ∧ Steps (advance E B dir now blockId) s ms t ∧
      blockMakes E ms = [] ∧ At dir i (behindLatest E d inst sig) d
        (.dataRequest (encodeRequestTransactionGetFirst inst.dataChildContext)) t := by
  have hp : perform E d (canonCall .latestBlockIdGet) =
      ((Except.ok (.blockId (blockAt E bs bs.length))).mapError Stop.fail, d) :=
    perform_latestBlockIdGet hc rfl (canonCall_works _).lmdb (canonCall_permitted (by decide))
  have hread := dataRead_latest (E := E) B now inst.dataChildContext
    (blockAt E bs bs.length) hrun
  unfold behindLatest
  rw [hc.expectedPrevBlockId_eq, hc.expectedBlockHeight_eq]
  rcases List.eq_nil_or_concat bs with rfl | ⟨init, b, rfl⟩
  · rw [if_pos (by rfl)] at hread
    obtain ⟨t, hsteps, ht⟩ := h.exchange B now blockId (encodes_latestBlockIdGet _) hchild
      (requestPacket_short (by simp)) hp hrun hread
    exact ⟨inst.previousBlockSignature, _, t, hsig, hsteps,
      blockMakes_other E (m := .appBlockIdLatestRead) (by decide) _ _, ht⟩
  · rw [List.concat_eq_append] at hc hsigned hp hread ⊢
    have hlast : (init ++ [b])[init.length]? = some b := by simp
    have hid : blockAt E (init ++ [b]) (init ++ [b]).length = b.id := by
      rw [List.length_append, List.length_singleton]
      exact blockAt_succ hlast
    obtain ⟨hroot, -, -⟩ := hc.not_reserved b (by simp)
    obtain ⟨-, fs, hfs, hne⟩ := hsigned b (by simp)
    rw [hid] at hp hread ⊢
    rw [if_neg hroot] at hread
    obtain ⟨t, hsteps, ht⟩ := h.exchange B now blockId (encodes_latestBlockIdGet _) hchild
      (requestPacket_short (by simp)) hp hrun hread
    obtain ⟨firstId, hget⟩ := perform_blockGet (i := canonCall (.blockGet b.id)) hc hlast rfl
      (canonCall_works _).lmdb (canonCall_permitted (by simp only [Request.capability]; decide))
    obtain ⟨sig, hsig', hread'⟩ := dataRead_block B now
      { inst with previousBlockId := b.id, state := .waitrespBlockGet } inst.dataChildContext b.id
      ⟨b.id, blockAt E (init ++ [b]) init.length, blockAt E (init ++ [b]) (init.length + 2),
        firstId, heightKey (init.length + 1), BitVec.ofNat 64 b.data.length⟩ hrun hsig hfs hne
    have hheight : heightKey (init.length + 1) + 1 = heightKey ((init ++ [b]).length + 1) := by
      rw [BitVec.add_comm, heightKey_succ, List.length_append, List.length_singleton]
    rw [hheight] at hread'
    have hget' : perform E d (canonCall (.blockGet b.id)) = ((Except.ok (.block _ b.data)).mapError
        Stop.fail, d) := hget
    obtain ⟨u, hsteps', hu⟩ := ht.exchange B now blockId (encodes_blockGet _ b.id true) hchild
      (requestPacket_short (by simp)) hget' hrun hread'
    refine ⟨sig, _, u, hsig', hsteps.trans hsteps', ?_, hu⟩
    rw [blockMakes_append, encodeRequestLatestBlockIdGet, encodeRequestBlockGet, requestPacket,
      requestPacket, blockMakes_other E (by decide), blockMakes_other E (by decide)]
    rfl

end Latest

/-! ### The end -/

structure Gathering (i : Fin maxChildContexts) (inst : CanonizationService.Instance)
    (txns : List Transaction) : Prop where
  running : inst.forceExit = false
  key : inst.privateKey ≠ none
  signature : inst.previousBlockSignature.length = signatureSize
  child : inst.dataChildContext = BitVec.ofNat 32 i
  list : inst.transactionList = some txns

/-- The round is over: the next one begins at once when the list was full, and otherwise with the
timer. -/
structure Over (E : Env) (B : CertBuilder) (dir : Bytes) (full : Prop) (d : Store) (u : System) :
    Prop where
  store : u.store dir = d
  again : full → Ready dir u
  sleeps : ¬ full → u.net = [.timer] ∧
    ∀ now, ∃ t, step E B dir u (.timer (allWorks now)) = some t ∧ t.store dir = d ∧ Ready dir t

section End

variable {E : Env} {B : CertBuilder} {dir : Bytes} {now : BitVec 64} {blockId : Uuid}
  {i : Fin maxChildContexts} {inst : CanonizationService.Instance} {d : Store} {s : System}
  {txns : List Transaction}

theorem served_leave {v : Service}
    (hchild : v.inst.children i = ⟨true, none, true, canonizationCaps⟩) :
    decodeAndDispatch E v (workingDelivery (encodeRequestChildContextClose (BitVec.ofNat 32 i))) =
      some ({ v with inst := childDetailsDelete { v.inst with
          children := Function.update v.inst.children i ⟨true, none, false, 0⟩ } i },
        some ⟨Method.llChildContextClose.code, BitVec.ofNat 32 i, .ok (), none⟩, .ok ()) := by
  have hlook : childContextLookup v.inst (BitVec.ofNat 32 i) = .ok i := by
    refine (childContextLookup_iff _ i).mpr ⟨rfl, ?_⟩
    show (v.inst.children i).dispose = true
    rw [hchild]
  have hcap : ¬ bitcapIsset canonizationCaps .llChildContextClose = false := by decide
  have hlen : ¬ (workingDelivery (encodeRequestChildContextClose (BitVec.ofNat 32 i))).packet.length
      < 4 := by
    simp [workingDelivery, encodeRequestChildContextClose, length_requestPacket]
  have hdrop : (workingDelivery
      (encodeRequestChildContextClose (BitVec.ofNat 32 i))).packet.drop 4 =
      be 4 (BitVec.ofNat 32 i.val) ++ [] := List.drop_left' (length_be 4 _)
  have hmethod : bits 32 ((workingDelivery
      (encodeRequestChildContextClose (BitVec.ofNat 32 i))).packet.take 4) =
      Method.llChildContextClose.code := bits_method _ _
  have hhandler : handlerOf Method.llChildContextClose.code = some .childContextClose := rfl
  rw [decodeAndDispatch, if_neg hlen, hdrop]
  simp only [hmethod, hhandler, Handler.serve, dispatchChildContextClose, requestInit_append, hlook,
    hchild, DataserviceDispatch.childContextClose, if_neg hcap]
  rfl

def asleep (inst : CanonizationService.Instance) : CanonizationService.Instance :=
  { inst with state := .idle, blockId := zeroUuid, transactionList := none }

def awake (inst : CanonizationService.Instance) : CanonizationService.Instance :=
  { asleep inst with state := .waitrespGetRandomBytes, transactionList := some [] }

theorem timerCb_allWorks (hrun : inst.forceExit = false) :
    timerCb (allWorks now) (asleep inst) = (awake inst, [.randomRequest]) := by
  rw [timerCb, if_neg (by simp [asleep, hrun])]
  rfl

theorem dataRead_close (hg : Gathering i inst txns) :
    CanonizationService.dataRead E B (allWorks now) inst
        ⟨Method.llChildContextClose.code, BitVec.ofNat 32 i, .ok (), none⟩ =
      some (if BitVec.ofNat 64 txns.length = inst.blockMaxTransactions then
        (awake inst, [.randomRequest]) else (asleep inst, [.timer])) := by
  rw [dataRead_of_close E B hg.running rfl, responseChildContextClose, hg.list, Option.map_some,
    reset]
  by_cases hfull : BitVec.ofNat 64 txns.length = inst.blockMaxTransactions
  · simp only [hfull, ne_eq, not_true_eq_false, decide_false, Bool.false_eq_true, if_false, if_true]
    exact congrArg some (timerCb_allWorks hg.running)
  · simp only [hfull, ne_eq, not_false_eq_true, decide_true, if_true, if_false]
    rfl

theorem Over.ends {full : Prop} {u : System} (h : Over E B dir full d u) :
    u.net = [.timer] ∨ u.net = [.randomRequest] := by
  by_cases hfull : full
  · exact Or.inr (h.again hfull).net
  · exact Or.inl (h.sleeps hfull).1

theorem Over.net_iff {full : Prop} {u : System} (h : Over E B dir full d u) :
    u.net = [.randomRequest] ↔ full := by
  constructor
  · intro hnet
    by_contra hfull
    rw [(h.sleeps hfull).1] at hnet
    cases hnet
  · exact fun hfull => (h.again hfull).net

variable (E B now blockId)

theorem Over.halted {full : Prop} {u : System} (h : Over E B dir full d u) :
    Halted (advance E B dir now blockId) u := halted_of_end h.ends

theorem At.close
    (h : At dir i inst d (.dataRequest (encodeRequestChildContextClose inst.dataChildContext)) s)
    (hg : Gathering i inst txns) : ∃ ms u, Steps (advance E B dir now blockId) s ms u ∧
      blockMakes E ms = [] ∧
      Over E B dir (BitVec.ofNat 64 txns.length = inst.blockMaxTransactions) d u := by
  let left : Service := { s.data with inst := childDetailsDelete { s.data.inst with
    children := Function.update s.data.inst.children i ⟨true, none, false, 0⟩ } i }
  let resp : Response := ⟨Method.llChildContextClose.code, BitVec.ofNat 32 i, .ok (), none⟩
  let packet := encodeRequestChildContextClose inst.dataChildContext
  have hready : Ready dir { s with
      canon := awake inst, data := left, dataExited := false, net := [.randomRequest] } :=
    ⟨rfl, rfl, hg.running, rfl, hg.key, hg.signature, rfl, h.opened, h.create, h.caps,
      by simp [left, childDetailsDelete], h.allowed⟩
  have h₁ : advance E B dir now blockId s = some (.dataRequest packet,
      { s with data := left, dataExited := false, net := [.dataResponse resp] }) := by
    refine advance_eq h.net rfl ?_
    refine step_serve h.net h.serving (requestPacket_short (by simp)) ?_
    rw [hg.child]
    exact served_leave h.child
  have hsteps : ∀ e, (if BitVec.ofNat 64 txns.length = inst.blockMaxTransactions then
      (awake inst, [Message.randomRequest]) else (asleep inst, [.timer])) = e →
      Steps (advance E B dir now blockId) s [.dataRequest packet, .dataResponse resp]
        { s with canon := e.1, data := left, dataExited := false, net := e.2 } := by
    rintro e rfl
    refine .head h₁ (.single (advance_eq rfl rfl ?_))
    simp only [answer, step, takeMessage, isDataResponse, Option.bind_eq_bind, Option.bind_some,
      h.canon, resp, dataRead_close hg]
    rw [callback_eq (by exact h.canon ▸ hg.running)]
    rfl
  have hmakes : blockMakes E [.dataRequest packet, .dataResponse resp] = [] :=
    blockMakes_other E (m := .llChildContextClose) (by decide) _ resp
  by_cases hfull : BitVec.ofNat 64 txns.length = inst.blockMaxTransactions
  · refine ⟨_, _, hsteps _ (if_pos hfull), hmakes, h.store, fun _ => hready, ?_⟩
    intro hnot
    exact (hnot hfull).elim
  · refine ⟨_, _, hsteps _ (if_neg hfull), hmakes, h.store, fun hf => (hfull hf).elim, ?_⟩
    intro _
    refine ⟨rfl, fun now' => ⟨{ s with
      canon := awake inst, data := left, dataExited := false, net := [.randomRequest] }, ?_,
      h.store, hready⟩⟩
    simp only [step, takeMessage, isTimer, Option.bind_eq_bind, Option.bind_some]
    rw [callback_eq (by exact hg.running)]
    simp only [timerCb_allWorks hg.running]
    rfl

/-- The round is completed after a block update was answered. -/
theorem At.announced {b : Uuid} (h : At dir i inst d (.blockUpdate b) s)
    (hg : Gathering i inst txns) (hstate : inst.state = .waitrespNotifyBlockUpdate) :
    ∃ ms u, Steps (advance E B dir now blockId) s ms u ∧ blockMakes E ms = [] ∧
      Over E B dir (BitVec.ofNat 64 txns.length = inst.blockMaxTransactions) d u := by
  let packet : Bytes := be 4 1#32 ++ be 8 blockUpdateOffset ++ be 4 0#32
  let closing : CanonizationService.Instance :=
    { inst with state := .waitrespChildContextClose }
  have h₁ : advance E B dir now blockId s = some (.blockUpdate b, { s with
      notification := { s.notification with latestBlockId := b }
      net := [.notifyResponse packet] }) := by
    refine advance_eq h.net rfl ?_
    simp only [answer, step, h.net, takeMessage, isBlockUpdate, Option.bind_eq_bind,
      Option.bind_some, dispatchBlockUpdate, h.allowed, Bool.true_eq_false, if_false]
    rfl
  have hread : CanonizationService.notifyRead (allWorks now) inst packet =
      (closing, [.dataRequest (encodeRequestChildContextClose inst.dataChildContext)]) := by
    rw [CanonizationService.notifyRead, if_neg (by simp [hg.running]), if_neg (by simp [hstate]),
      if_neg (by decide), if_neg (by decide)]
    rfl
  have h₂ : advance E B dir now blockId { s with
      notification := { s.notification with latestBlockId := b }
      net := [.notifyResponse packet] } = some (.notifyResponse packet, { s with
        canon := closing
        notification := { s.notification with latestBlockId := b }
        net := [.dataRequest (encodeRequestChildContextClose inst.dataChildContext)] }) := by
    refine advance_eq rfl rfl ?_
    simp only [answer, step, takeMessage, isNotifyResponse, Option.bind_eq_bind, Option.bind_some,
      h.canon, hread]
    rw [callback_eq (by exact h.canon ▸ hg.running)]
    rfl
  have hat : At dir i closing d
      (.dataRequest (encodeRequestChildContextClose closing.dataChildContext)) { s with
        canon := closing
        notification := { s.notification with latestBlockId := b }
        net := [.dataRequest (encodeRequestChildContextClose inst.dataChildContext)] } :=
    ⟨rfl, rfl, h.store, h.opened, h.child, h.create, h.caps, h.serving, h.allowed⟩
  have hclosing : Gathering i closing txns :=
    ⟨hg.running, hg.key, hg.signature, hg.child, hg.list⟩
  obtain ⟨ms, u, hsteps, hmakes, hover⟩ :=
    hat.close E B now blockId hclosing
  exact ⟨_, u, .head h₁ (.head h₂ hsteps), hmakes, hover⟩

variable {E now}

/-- Nothing to canonize: the latest block is announced the first time, and the round is over. -/
theorem At.complete {inst₀ : CanonizationService.Instance} {resp : Response}
    (h : At dir i inst₀ d (.dataResponse resp) s) (hrun : inst₀.forceExit = false)
    (hg : Gathering i inst txns)
    (hread : CanonizationService.dataRead E B (allWorks now) inst₀ resp =
      some (completeUpdate (allWorks now) inst)) :
    ∃ ms u, Steps (advance E B dir now blockId) s ms u ∧ blockMakes E ms = [] ∧
      Over E B dir (BitVec.ofNat 64 txns.length = inst.blockMaxTransactions) d u := by
  cases hfirst : inst.firstTime with
  | true =>
    have hsent : completeUpdate (allWorks now) inst = ({ inst with
        firstTime := false
        blockId := inst.previousBlockId
        state := .waitrespNotifyBlockUpdate }, [.blockUpdate inst.previousBlockId]) := by
      rw [completeUpdate, hfirst]
      rfl
    rw [hsent] at hread
    obtain ⟨t, hstep, ht⟩ := h.read B now blockId hrun hread
    obtain ⟨ms, u, hsteps, hmakes, hover⟩ := ht.announced E B now blockId
      ⟨hg.running, hg.key, hg.signature, hg.child, hg.list⟩ rfl
    exact ⟨_, u, .head hstep hsteps, hmakes, hover⟩
  | false =>
    have hsent : completeUpdate (allWorks now) inst = ({ inst with
        state := .waitrespChildContextClose },
        [.dataRequest (encodeRequestChildContextClose inst.dataChildContext)]) := by
      rw [completeUpdate, if_neg (by simp [hfirst])]
      rfl
    rw [hsent] at hread
    obtain ⟨t, hstep, ht⟩ := h.read B now blockId hrun hread
    obtain ⟨ms, u, hsteps, hmakes, hover⟩ := ht.close E B now blockId
      ⟨hg.running, hg.key, hg.signature, hg.child, hg.list⟩
    exact ⟨_, u, .head hstep hsteps, hmakes, hover⟩

end End

end CanonizationRounds
