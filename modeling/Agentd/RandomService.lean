import Agentd.HandshakeAgreement
import Agentd.IndexedStreams
import Agentd.TransitionRuns

/-! # Random bytes of the handshakes

The protocol service has one fiber that asks the random service for the bytes of all handshakes. The
fibers of the connections put their requests into its mailbox and wait; it sends one request at a
time over the socket and passes on what comes back. -/
namespace RandomService

open ByteString
open ClientProtocol
open ProtocolFiber
open HandshakeAgreement
open IndexedStreams
open TransitionRuns

/-! ### The service -/

def randomserviceError (reason : BitVec 32) : BitVec 32 :=
  0x8000000 ||| (0x0C <<< 16) ||| (reason &&& 0xFFFF)

theorem outOfMemory_ne_zero : (0x8000001 : Status) ≠ 0 := by decide

def outOfMemory : Failure := ⟨0x8000001, outOfMemory_ne_zero⟩

def requestPacketInvalidSize : Failure := ⟨randomserviceError 0x06, by decide⟩

def randomPacketBad : Failure := ⟨randomserviceError 0x07, by decide⟩

def ipcWriteDataFailure : Failure := ⟨randomserviceError 0x08, by decide⟩

def getRandomBytesInvalidSize : Failure := ⟨randomserviceError 0x0A, by decide⟩

def getRandomBytesReadFailed : Failure := ⟨randomserviceError 0x0B, by decide⟩

def methodGetRandomBytes : BitVec 32 := 1

/-- What `read` does with the random device: it fails, or it gets up to this many bytes. -/
inductive DeviceRead where
  | failed
  | upTo (bytes : ℕ)
  deriving DecidableEq

structure ServiceCalls where
  device : DeviceRead
  responseAlloc : Bool
  responseWrite : Bool
  /-- The response leaves the buffer of the socket before the service ends. -/
  flushed : Bool
  deriving DecidableEq

structure Dispatched where
  retval : Retval
  response : Option Bytes
  taken : ℕ

variable (device : ℕ → UInt8) (o : ServiceCalls) (position : ℕ)

def responsePacket (method offset : BitVec 32) (status : Status) (data : Bytes) : Bytes :=
  [be 4 method, be 4 offset, be 4 status, data].flatten

def writeStatus (method offset : BitVec 32) (status : Status) (data : Bytes) (taken : ℕ) :
    Dispatched :=
  if o.responseAlloc = false then ⟨some outOfMemory, none, taken⟩
  else if o.responseWrite = false then ⟨some ipcWriteDataFailure, none, taken⟩
  else ⟨none, some (responsePacket method offset status data), taken⟩

/-- `randomservice_decode_and_dispatch_get_random_bytes`. Whether the request succeeds is told to
the caller only; the status that is returned is that of the response. -/
def dispatchGetRandomBytes (req : Bytes) : Dispatched :=
  if req.length ≠ 8 then
    writeStatus o methodGetRandomBytes 0 requestPacketInvalidSize.val [] 0
  else
    let offset := wordAt req 0
    let rndsize := (wordAt req 4).toNat
    if rndsize = 0 ∨ 1024 < rndsize then
      writeStatus o methodGetRandomBytes offset getRandomBytesInvalidSize.val [] 0
    else
      match o.device with
      | .failed => writeStatus o methodGetRandomBytes offset getRandomBytesReadFailed.val [] 0
      | .upTo bytes =>
        if bytes < rndsize then
          writeStatus o methodGetRandomBytes offset getRandomBytesReadFailed.val [] bytes
        else
          writeStatus o methodGetRandomBytes offset 0 (portion device position rndsize) rndsize

def randomserviceDecodeAndDispatch (req : Bytes) : Dispatched :=
  if req.length < 4 then ⟨some requestPacketInvalidSize, none, 0⟩
  else if wordAt req 0 = methodGetRandomBytes then
    dispatchGetRandomBytes device o position (req.drop 4)
  else { writeStatus o (wordAt req 0) 0 randomPacketBad.val
    [] 0 with retval := some randomPacketBad }

/-- The service runs until a request fails or its response cannot be sent. -/
structure Service where
  running : Bool
  position : ℕ

/-! ### The calls of the endpoint -/

/-- `random_service_api_sendreq_random_bytes_get`; the number of bytes goes through 32 bits. -/
def sendreqRandomBytesGet (offset : BitVec 32) (count : ℕ) : Bytes :=
  [be 4 methodGetRandomBytes, be 4 offset, be 4 (BitVec.ofNat 32 count)].flatten

/-- `random_service_api_recvresp_random_bytes_get`, of a response that was read. -/
def recvrespRandomBytesGet (resp : Bytes) (allocated : Bool) (reclaimed : Retval) :
    Except Failure Bytes :=
  if resp.length < 12 then .error (reclaimed.getD requestPacketInvalidSize)
  else if wordAt resp 0 ≠ methodGetRandomBytes ∨ wordAt resp 8 ≠ 0 ∨ resp.length - 12 = 0 then
    .error (reclaimed.getD randomPacketBad)
  else if allocated = false then .error (reclaimed.getD outOfMemory)
  else
    match reclaimed with
    | some e => .error e
    | none => .ok (resp.drop 12)

/-! ### The system -/

/-- A request in the mailbox of the endpoint: where the answer goes and how many bytes it asks
for. -/
structure Request (A : Type*) where
  returnAddress : A
  size : ℕ
  deriving DecidableEq

inductive Endpoint (A : Type*) where
  | idle
  | waiting (q : Request A)
  | ended

/-- What happens in `protocolservice_random_endpoint_fiber_entry` up to the request. -/
structure RequestCalls where
  payloadCreated : Bool
  sent : Bool
  deriving DecidableEq

/-- And from the response on; a read that fails finds no response. -/
structure ResponseCalls where
  read : Bool
  allocated : Bool
  reclaimed : Retval
  messageCreated : Bool
  messageSent : Bool
  released : Bool

inductive Event (A : Type*) where
  /-- A fiber sends a request. -/
  | request (q : Request A)
  | takeRequest (o : RequestCalls)
  | serve (o : ServiceCalls)
  | takeResponse (o : ResponseCalls)
  /-- The endpoint is resumed by something else than a message, or its read ends without a
  packet. -/
  | endpointInterrupted
  /-- A signal or its socket ends the service. -/
  | serviceExits

structure System (A : Type*) where
  /-- The requests that were sent, in their order. -/
  accepted : List (Request A)
  mailbox : List (Request A)
  endpoint : Endpoint A
  toService : List Bytes
  service : Service
  toEndpoint : List Bytes
  /-- The answers that were sent, in their order. -/
  replies : List (A × Bytes)

variable {A : Type*}

def started : System A := ⟨[], [], .idle, [], ⟨true, 0⟩, [], []⟩

def System.endEndpoint (s : System A) : System A := { s with endpoint := .ended, mailbox := [] }

def step (s : System A) : Event A → Option (System A)
  | .request q =>
    match s.endpoint with
    | .ended => none
    | _ => some { s with accepted := s.accepted ++ [q], mailbox := s.mailbox ++ [q] }
  | .takeRequest o =>
    match s.endpoint, s.mailbox with
    | .idle, q :: rest =>
      if o.payloadCreated = false then some s.endEndpoint
      else if o.sent = false then some s.endEndpoint
      else some { s with
        mailbox := rest
        endpoint := .waiting q
        toService := s.toService ++ [sendreqRandomBytesGet 0 q.size] }
    | _, _ => none
  | .serve o =>
    match s.toService with
    | [] => none
    | req :: rest =>
      if s.service.running = false then none
      else
        let d := randomserviceDecodeAndDispatch device o s.service.position req
        some { s with
          toService := rest
          service := ⟨d.retval.isNone && o.flushed, s.service.position + d.taken⟩
          toEndpoint := s.toEndpoint ++ if o.flushed then d.response.toList else [] }
  | .takeResponse o =>
    match s.endpoint, s.toEndpoint with
    | .waiting q, resp :: rest =>
      let s := { s with toEndpoint := rest }
      if o.read = false then some s.endEndpoint
      else
        match recvrespRandomBytesGet resp o.allocated o.reclaimed with
        | .error _ => some s.endEndpoint
        | .ok bytes =>
          if o.messageCreated = false then some s.endEndpoint
          else if o.messageSent = false then some s.endEndpoint
          else
            let s := { s with replies := s.replies ++ [(q.returnAddress, bytes)] }
            if o.released = false then some s.endEndpoint else some { s with endpoint := .idle }
    | _, _ => none
  | .endpointInterrupted =>
    match s.endpoint with
    | .ended => none
    | _ => some s.endEndpoint
  | .serviceExits => some { s with service := { s.service with running := false } }

/-! ### One request and its response -/

def Request.asked (q : Request A) : ℕ := (BitVec.ofNat 32 q.size).toNat

def Request.Sane (q : Request A) : Prop := 1 ≤ q.asked ∧ q.asked ≤ 1024

instance (q : Request A) : Decidable q.Sane := inferInstanceAs (Decidable (_ ∧ _))

inductive Answered (q : Request A) (d : Dispatched) : Prop
  | silent (response : d.response = none) (retval : d.retval ≠ none)
  | refused (status : Status) (nonzero : status ≠ 0)
      (response : d.response = some (responsePacket methodGetRandomBytes 0 status []))
  | filled (sane : q.Sane) (taken : d.taken = q.asked) (response : d.response =
      some (responsePacket methodGetRandomBytes 0 0 (portion device position q.asked)))

variable {device o position} {q : Request A} {s s' : System A}

theorem writeStatus_cases (method offset : BitVec 32) (status : Status) (data : Bytes) (taken : ℕ) :
    ((writeStatus o method offset status data taken).response = none ∧
        (writeStatus o method offset status data taken).retval ≠ none) ∨
      (writeStatus o method offset status data taken).response =
        some (responsePacket method offset status data) := by
  rw [writeStatus]
  by_cases halloc : o.responseAlloc = false
  · rw [if_pos halloc]
    exact Or.inl ⟨rfl, Option.some_ne_none _⟩
  · rw [if_neg halloc]
    by_cases hwrite : o.responseWrite = false
    · rw [if_pos hwrite]
      exact Or.inl ⟨rfl, Option.some_ne_none _⟩
    · rw [if_neg hwrite]
      exact Or.inr rfl

theorem writeStatus_taken (method offset : BitVec 32) (status : Status) (data : Bytes) (taken : ℕ) :
    (writeStatus o method offset status data taken).taken = taken := by
  rw [writeStatus]
  by_cases halloc : o.responseAlloc = false
  · rw [if_pos halloc]
  · rw [if_neg halloc]
    by_cases hwrite : o.responseWrite = false
    · rw [if_pos hwrite]
    · rw [if_neg hwrite]

theorem answered_refused {status : Status} (hstatus : status ≠ 0) (taken : ℕ) :
    Answered device position q (writeStatus o methodGetRandomBytes 0 status [] taken) := by
  rcases writeStatus_cases (o := o) methodGetRandomBytes 0 status [] taken with hnone | hsome
  · exact .silent hnone.1 hnone.2
  · exact .refused status hstatus hsome

/-- The request of the endpoint is decoded to what it asks for. -/
theorem dispatch_sendreq (n : ℕ) :
    randomserviceDecodeAndDispatch device o position (sendreqRandomBytesGet 0 n) =
      if (BitVec.ofNat 32 n).toNat = 0 ∨ 1024 < (BitVec.ofNat 32 n).toNat then
        writeStatus o methodGetRandomBytes 0 getRandomBytesInvalidSize.val [] 0
      else
        match o.device with
        | .failed => writeStatus o methodGetRandomBytes 0 getRandomBytesReadFailed.val [] 0
        | .upTo bytes =>
          if bytes < (BitVec.ofNat 32 n).toNat then
            writeStatus o methodGetRandomBytes 0 getRandomBytesReadFailed.val [] bytes
          else
            writeStatus o methodGetRandomBytes 0 0
              (portion device position (BitVec.ofNat 32 n).toNat) (BitVec.ofNat 32 n).toNat := by
  have hmethod : wordAt (sendreqRandomBytesGet 0 n) 0 = methodGetRandomBytes :=
    wordAt_field 0 rfl rfl rfl
  have hrest : (sendreqRandomBytesGet 0 n).drop 4 =
      [be 4 (0 : BitVec 32), be 4 (BitVec.ofNat 32 n)].flatten := by
    rw [sendreqRandomBytesGet, List.flatten_cons, List.drop_left' (length_be ..)]
  have hoffset : wordAt ((sendreqRandomBytesGet 0 n).drop 4) 0 = 0 := wordAt_field 0 hrest rfl rfl
  have hcount : wordAt ((sendreqRandomBytesGet 0 n).drop 4) 4 = BitVec.ofNat 32 n :=
    wordAt_field 1 hrest rfl (by simp)
  have hlength : (sendreqRandomBytesGet 0 n).length = 12 := by simp [sendreqRandomBytesGet]
  rw [randomserviceDecodeAndDispatch, if_neg (by omega), if_pos hmethod, dispatchGetRandomBytes,
    if_neg (by rw [List.length_drop]; omega)]
  simp only [hoffset, hcount]

theorem dispatch_answered (q : Request A) : Answered device position q
    (randomserviceDecodeAndDispatch device o position (sendreqRandomBytesGet 0 q.size)) := by
  rw [dispatch_sendreq]
  by_cases hsane : (BitVec.ofNat 32 q.size).toNat = 0 ∨ 1024 < (BitVec.ofNat 32 q.size).toNat
  · rw [if_pos hsane]
    exact answered_refused getRandomBytesInvalidSize.property 0
  · rw [if_neg hsane]
    cases hdevice : o.device with
    | failed => exact answered_refused getRandomBytesReadFailed.property 0
    | upTo bytes =>
      simp only
      by_cases hshort : bytes < (BitVec.ofNat 32 q.size).toNat
      · rw [if_pos hshort]
        exact answered_refused getRandomBytesReadFailed.property bytes
      · rw [if_neg hshort]
        rcases writeStatus_cases (o := o) methodGetRandomBytes 0 0
          (portion device position q.asked) q.asked with hnone | hsome
        · exact .silent hnone.1 hnone.2
        · refine .filled ?_ (writeStatus_taken ..) hsome
          rw [Request.Sane, Request.asked]
          omega

/-- A response that is not a success is not passed on. -/
theorem recvresp_refused {status : Status} (hstatus : status ≠ 0) (allocated : Bool)
    (reclaimed : Retval) :
    ∃ e, recvrespRandomBytesGet
      (responsePacket methodGetRandomBytes 0 status []) allocated reclaimed =
      .error e := by
  have hword : wordAt (responsePacket methodGetRandomBytes 0 status []) 8 = status :=
    wordAt_field 2 rfl rfl (by simp)
  rw [recvrespRandomBytesGet.eq_def, if_neg (by simp [responsePacket]),
    if_pos (Or.inr (Or.inl (by rwa [hword])))]
  exact ⟨_, rfl⟩

theorem recvresp_filled {data : Bytes} (hdata : data ≠ []) (allocated : Bool) (reclaimed : Retval) :
    recvrespRandomBytesGet (responsePacket methodGetRandomBytes 0 0 data) allocated reclaimed =
      if allocated = false then .error (reclaimed.getD outOfMemory)
      else match reclaimed with
        | some e => .error e
        | none => .ok data := by
  have hmethod : wordAt (responsePacket methodGetRandomBytes 0 0 data) 0 = methodGetRandomBytes :=
    wordAt_field 0 rfl rfl rfl
  have hstatus : wordAt (responsePacket methodGetRandomBytes 0 0 data) 8 = 0 :=
    wordAt_field 2 rfl rfl (by simp)
  have hlength : (responsePacket methodGetRandomBytes 0 0 data).length = 12 + data.length := by
    simp [responsePacket]
    omega
  have hdrop : (responsePacket methodGetRandomBytes 0 0 data).drop 12 = data := by
    have hsplit : responsePacket methodGetRandomBytes 0 0 data =
        (be 4 methodGetRandomBytes ++ be 4 (0 : BitVec 32) ++ be 4 (0 : BitVec 32)) ++ data := by
      simp [responsePacket]
    rw [hsplit]
    exact List.drop_left' (by simp)
  have hpos : 0 < data.length := List.length_pos_iff.mpr hdata
  have hgood : ¬ (methodGetRandomBytes ≠ methodGetRandomBytes ∨ (0 : Status) ≠ 0 ∨
      (responsePacket methodGetRandomBytes 0 0 data).length - 12 = 0) := by
    rintro (hne | hne | hsize)
    · exact hne rfl
    · exact hne rfl
    · omega
  rw [recvrespRandomBytesGet.eq_def, if_neg (by omega), hmethod, hstatus, if_neg hgood, hdrop]

/-! ### What has been answered -/

variable (device) in
/-- The answers to some requests, with the bytes of the device from the first on. -/
def answers (l : List (Request A)) : List (A × Bytes) :=
  (l.map Request.returnAddress).zip (portions device 0 (l.map Request.asked))

theorem answers_concat (l : List (Request A)) (q : Request A) : answers device (l ++ [q]) =
    answers device l ++ [(q.returnAddress, portion device (l.map Request.asked).sum q.asked)] := by
  simp only [answers, List.map_append, List.map_cons, List.map_nil, portions_concat]
  rw [List.zip_append (by simp), Nat.zero_add]
  rfl

theorem length_answers (l : List (Request A)) : (answers device l).length = l.length := by
  simp [answers]

structure Progress (device : ℕ → UInt8) (s : System A) (answered pending : List (Request A)) :
    Prop where
  accepted : s.accepted = answered ++ pending
  replies : s.replies = answers device answered
  sane : ∀ q ∈ answered, q.Sane

/-- What can be in the socket while the endpoint waits for the response to a request. -/
inductive Responded (device : ℕ → UInt8) (s : System A) (answered : List (Request A))
    (q : Request A) : Prop
  | lost (socket : s.toEndpoint = []) (exited : s.service.running = false)
  | refused (status : Status) (nonzero : status ≠ 0)
      (socket : s.toEndpoint = [responsePacket methodGetRandomBytes 0 status []])
  | filled (sane : q.Sane)
    (position : s.service.position = ((answered ++ [q]).map Request.asked).sum)
      (socket : s.toEndpoint = [responsePacket methodGetRandomBytes 0 0
        (portion device (answered.map Request.asked).sum q.asked)])

/-- One request at a time is on its way, and the device is where the answers end. -/
inductive Invariant (device : ℕ → UInt8) (s : System A) : Prop
  | idle (answered : List (Request A)) (progress : Progress device s answered s.mailbox)
      (endpoint : s.endpoint = .idle) (request : s.toService = []) (response : s.toEndpoint = [])
      (position : s.service.position = (answered.map Request.asked).sum)
  | asked (answered : List (Request A)) (q : Request A)
      (progress : Progress device s answered (q :: s.mailbox)) (endpoint : s.endpoint = .waiting q)
      (request : s.toService = [sendreqRandomBytesGet 0 q.size]) (response : s.toEndpoint = [])
      (position : s.service.position = (answered.map Request.asked).sum)
  | responded (answered : List (Request A)) (q : Request A)
      (progress : Progress device s answered (q :: s.mailbox)) (endpoint : s.endpoint = .waiting q)
      (request : s.toService = []) (response : Responded device s answered q)
  | ended (answered lost : List (Request A)) (progress : Progress device s answered lost)
      (endpoint : s.endpoint = .ended)

variable {answered pending : List (Request A)}

theorem Progress.congr (h : Progress device s answered pending)
    (haccepted : s'.accepted = s.accepted)
    (hreplies : s'.replies = s.replies) : Progress device s' answered pending :=
  ⟨haccepted.trans h.accepted, hreplies.trans h.replies, h.sane⟩

theorem Progress.send (h : Progress device s answered pending) (q : Request A)
    (haccepted : s'.accepted = s.accepted ++ [q]) (hreplies : s'.replies = s.replies) :
    Progress device s' answered (pending ++ [q]) where
  accepted := by rw [haccepted, h.accepted, List.append_assoc]
  replies := hreplies.trans h.replies
  sane := h.sane

theorem Progress.answer (h : Progress device s answered (q :: pending)) (hsane : q.Sane)
    (haccepted : s'.accepted = s.accepted) (hreplies : s'.replies = s.replies ++
      [(q.returnAddress, portion device (answered.map Request.asked).sum q.asked)]) :
    Progress device s' (answered ++ [q]) pending where
  accepted := by rw [haccepted, h.accepted, List.append_assoc, List.singleton_append]
  replies := by rw [hreplies, h.replies, answers_concat]
  sane := by
    intro p hp
    rcases List.mem_append.mp hp with hp | hp
    · exact h.sane p hp
    · rw [List.mem_singleton.mp hp]
      exact hsane

theorem Progress.ended (h : Progress device s answered pending) : Invariant device s.endEndpoint :=
  .ended answered pending (h.congr rfl rfl) rfl

theorem Invariant.progress (h : Invariant device s) :
    ∃ answered pending, Progress device s answered pending := by
  cases h with
  | idle answered progress => exact ⟨answered, _, progress⟩
  | asked answered q progress => exact ⟨answered, _, progress⟩
  | responded answered q progress => exact ⟨answered, _, progress⟩
  | ended answered lost progress => exact ⟨answered, lost, progress⟩

theorem request_step (h : Invariant device s) (q : Request A)
    (hstep : step device s (.request q) = some s') : Invariant device s' := by
  cases h with
  | idle answered progress endpoint request response position =>
    simp only [step, endpoint] at hstep
    obtain rfl := Option.some.inj hstep
    exact .idle answered (progress.send q rfl rfl) rfl request response position
  | asked answered p progress endpoint request response position =>
    simp only [step, endpoint] at hstep
    obtain rfl := Option.some.inj hstep
    exact .asked answered p (progress.send q rfl rfl) rfl request response position
  | responded answered p progress endpoint request response =>
    simp only [step, endpoint] at hstep
    obtain rfl := Option.some.inj hstep
    refine .responded answered p (progress.send q rfl rfl) rfl request ?_
    cases response with
    | lost socket exited => exact .lost socket exited
    | refused status nonzero socket => exact .refused status nonzero socket
    | filled sane position socket => exact .filled sane position socket
  | ended answered lost progress endpoint =>
    simp only [step, endpoint] at hstep
    cases hstep

theorem takeRequest_step (h : Invariant device s) (o : RequestCalls)
    (hstep : step device s (.takeRequest o) = some s') : Invariant device s' := by
  cases h with
  | idle answered progress endpoint request response position =>
    cases hmailbox : s.mailbox with
    | nil =>
      simp only [step, endpoint, hmailbox] at hstep
      cases hstep
    | cons q rest =>
      simp only [step, endpoint, hmailbox] at hstep
      split at hstep
      · obtain rfl := Option.some.inj hstep
        exact progress.ended
      · split at hstep
        · obtain rfl := Option.some.inj hstep
          exact progress.ended
        · obtain rfl := Option.some.inj hstep
          rw [hmailbox] at progress
          exact .asked answered q (progress.congr rfl rfl) rfl
            (by rw [request]; rfl) response position
  | asked answered q progress endpoint request response position =>
    simp only [step, endpoint] at hstep
    cases hstep
  | responded answered q progress endpoint request response =>
    simp only [step, endpoint] at hstep
    cases hstep
  | ended answered lost progress endpoint =>
    simp only [step, endpoint] at hstep
    cases hstep

/-- A request that was served has its response in the socket, or the service is gone. -/
theorem serve_step (h : Invariant device s) (o : ServiceCalls)
    (hstep : step device s (.serve o) = some s') : Invariant device s' := by
  cases h with
  | idle answered progress endpoint request =>
    simp only [step, request] at hstep
    cases hstep
  | asked answered q progress endpoint request response position =>
    simp only [step, request, response, List.nil_append] at hstep
    split at hstep
    · cases hstep
    · obtain rfl := Option.some.inj hstep
      refine .responded answered q (progress.congr rfl rfl) endpoint rfl ?_
      by_cases hflushed : o.flushed = true
      · have hanswered : Answered device s.service.position q
            (randomserviceDecodeAndDispatch device o
            s.service.position (sendreqRandomBytesGet 0 q.size)) := dispatch_answered q
        rcases hanswered with
          ⟨hresponse, hretval⟩ | ⟨status, hstatus, hresponse⟩ | ⟨hsane, htaken, hresponse⟩
        · refine .lost (by simp only [hresponse, hflushed]; rfl) ?_
          simp only [hflushed, Bool.and_true]
          exact Option.isNone_eq_false_iff.mpr (Option.isSome_iff_ne_none.mpr hretval)
        · exact .refused status hstatus (by simp only [hresponse, hflushed]; rfl)
        · refine .filled hsane ?_ ?_
          · rw [List.map_append, List.sum_append, ← position]
            exact congrArg (s.service.position + ·) htaken
          · simp only [hresponse, hflushed, ← position]
            rfl
      · exact .lost (if_neg hflushed) (by simp [hflushed])
  | responded answered q progress endpoint request =>
    simp only [step, request] at hstep
    cases hstep
  | ended answered lost progress endpoint =>
    simp only [step] at hstep
    split at hstep
    · cases hstep
    · split at hstep
      · cases hstep
      · obtain rfl := Option.some.inj hstep
        exact .ended answered lost (progress.congr rfl rfl) endpoint

theorem takeResponse_step (h : Invariant device s) (o : ResponseCalls)
    (hstep : step device s (.takeResponse o) = some s') : Invariant device s' := by
  cases h with
  | idle answered progress endpoint =>
    simp only [step, endpoint] at hstep
    cases hstep
  | asked answered q progress endpoint request response =>
    simp only [step, endpoint, response] at hstep
    cases hstep
  | responded answered q progress endpoint request response =>
    cases response with
    | lost socket =>
      simp only [step, endpoint, socket] at hstep
      cases hstep
    | refused status nonzero socket =>
      obtain ⟨e, hrefused⟩ := recvresp_refused nonzero o.allocated o.reclaimed
      simp only [step, endpoint, socket, hrefused, ite_self] at hstep
      obtain rfl := Option.some.inj hstep
      exact .ended answered _ (progress.congr rfl rfl) rfl
    | filled sane position socket =>
      have hdata : portion device (answered.map Request.asked).sum q.asked ≠ [] := by
        rw [← List.length_pos_iff, length_portion]
        exact sane.1
      simp only [step, endpoint, socket, recvresp_filled hdata] at hstep
      split at hstep
      · obtain rfl := Option.some.inj hstep
        exact .ended answered _ (progress.congr rfl rfl) rfl
      · split at hstep
        · obtain rfl := Option.some.inj hstep
          exact .ended answered _ (progress.congr rfl rfl) rfl
        · rename_i bytes hbytes
          obtain rfl : portion device (answered.map Request.asked).sum q.asked = bytes := by
            split at hbytes
            · cases hbytes
            · split at hbytes
              · cases hbytes
              · exact Except.ok.inj hbytes
          split at hstep
          · obtain rfl := Option.some.inj hstep
            exact .ended answered _ (progress.congr rfl rfl) rfl
          · split at hstep
            · obtain rfl := Option.some.inj hstep
              exact .ended answered _ (progress.congr rfl rfl) rfl
            · split at hstep
              · obtain rfl := Option.some.inj hstep
                exact .ended (answered ++ [q]) s.mailbox (progress.answer sane rfl rfl) rfl
              · obtain rfl := Option.some.inj hstep
                exact .idle (answered ++ [q])
                  (progress.answer sane rfl rfl) rfl request rfl position
  | ended answered lost progress endpoint =>
    simp only [step, endpoint] at hstep
    cases hstep

theorem step_invariant {e : Event A} (h : Invariant device s) (hstep : step device s e = some s') :
    Invariant device s' := by
  cases e with
  | request q => exact request_step h q hstep
  | takeRequest o => exact takeRequest_step h o hstep
  | serve o => exact serve_step h o hstep
  | takeResponse o => exact takeResponse_step h o hstep
  | endpointInterrupted =>
    obtain ⟨answered, pending, progress⟩ := h.progress
    simp only [step] at hstep
    split at hstep
    · cases hstep
    · obtain rfl := Option.some.inj hstep
      exact progress.ended
  | serviceExits =>
    obtain rfl := Option.some.inj hstep
    cases h with
    | idle answered progress endpoint request response position =>
      exact .idle answered (progress.congr rfl rfl) endpoint request response position
    | asked answered q progress endpoint request response position =>
      exact .asked answered q (progress.congr rfl rfl) endpoint request response position
    | responded answered q progress endpoint request response =>
      refine .responded answered q (progress.congr rfl rfl) endpoint request ?_
      cases response with
      | lost socket => exact .lost socket rfl
      | refused status nonzero socket => exact .refused status nonzero socket
      | filled sane position socket => exact .filled sane position socket
    | ended answered lost progress endpoint =>
      exact .ended answered lost (progress.congr rfl rfl) endpoint

theorem run_invariant {log : List (Taken (System A) (Event A))}
    (h : Run (step device) started log s) : Invariant device s :=
  h.invariant (.idle [] ⟨rfl, rfl, by simp⟩ rfl rfl rfl rfl) step_invariant

/-! ### Fresh bytes -/

def System.startOf (s : System A) (i : ℕ) : ℕ := ((s.accepted.take i).map Request.asked).sum

def Endpoint.requests : Endpoint A → List (Request A)
  | .waiting q => [q]
  | _ => []

/-- The answers are to the first requests, in their order, each with as many bytes as were asked
for; no byte of the device is in two of them, and no request is passed over. -/
structure Fresh (device : ℕ → UInt8) (s : System A) : Prop where
  answered : ∀ i r, s.replies[i]? = some r → ∃ q, s.accepted[i]? = some q ∧ r.1 = q.returnAddress ∧
    q.Sane ∧ r.2 = portion device (s.startOf i) q.asked
  disjoint : ∀ i j q, i < j → s.accepted[i]? = some q → s.startOf i + q.asked ≤ s.startOf j
  kept : s.endpoint ≠ .ended →
    s.accepted.drop s.replies.length = s.endpoint.requests ++ s.mailbox

theorem getElem?_answers (l : List (Request A)) (i : ℕ) : (answers device l)[i]? =
    l[i]?.map fun q =>
      (q.returnAddress, portion device ((l.take i).map Request.asked).sum q.asked) := by
  rw [answers, List.zip_eq_zipWith, List.getElem?_zipWith, List.getElem?_map, getElem?_portions,
    List.getElem?_map, Nat.zero_add, List.map_take]
  cases l[i]? with
  | none => rfl
  | some q => rfl

theorem replies_are_fresh {log : List (Taken (System A) (Event A))}
    (h : Run (step device) started log s) : Fresh device s := by
  have hinvariant := run_invariant h
  obtain ⟨answered, pending, progress⟩ := hinvariant.progress
  refine ⟨?_, ?_, ?_⟩
  · intro i r hr
    rw [progress.replies, getElem?_answers] at hr
    obtain ⟨q, hq, rfl⟩ := Option.map_eq_some_iff.mp hr
    have hi : i < answered.length := (List.getElem?_eq_some_iff.mp hq).1
    refine ⟨q, ?_, rfl, progress.sane q (List.mem_of_getElem? hq), ?_⟩
    · rw [progress.accepted, List.getElem?_append_left hi, hq]
    · rw [System.startOf, progress.accepted, List.take_append_of_le_length hi.le]
  · intro i j q hij hq
    have hasked : (s.accepted.map Request.asked)[i]? = some q.asked := by
      rw [List.getElem?_map, hq]
      rfl
    simpa only [System.startOf, List.map_take] using end_le_start hij hasked
  · intro hended
    have hlength : ∀ {l : List (Request A)}, s.replies = answers device l →
        s.replies.length = l.length := fun hl => by rw [hl, length_answers]
    cases hinvariant with
    | idle answered progress endpoint =>
      rw [progress.accepted, hlength progress.replies, List.drop_left, endpoint]
      rfl
    | asked answered q progress endpoint =>
      rw [progress.accepted, hlength progress.replies, List.drop_left, endpoint]
      rfl
    | responded answered q progress endpoint =>
      rw [progress.accepted, hlength progress.replies, List.drop_left, endpoint]
      rfl
    | ended answered lost progress endpoint => exact absurd endpoint hended

/-! ### Nonces -/

/-- The fibers of the connections ask for the two nonces of a handshake
(`protocolservice_read_random_bytes`). -/
def noncesRequest (E : Env) (returnAddress : A) : Request A :=
  ⟨returnAddress, E.nonceSize + E.nonceSize⟩

/-- Handshakes are answered in order, and the nonces of one are those of no other: the challenge and
the key nonce of the answer with number `i` are the next bytes of the device behind those of the
answers before it. -/
theorem nonces_are_fresh {E : Env} {log : List (Taken (System A) (Event A))}
    (h : Run (step device) started log s) (hsize : E.nonceSize + E.nonceSize < 2 ^ 32)
    (hnonces : ∀ q ∈ s.accepted, q = noncesRequest E q.returnAddress) :
    Fresh device s ∧ ∀ i r, s.replies[i]? = some r →
      r.2.length = E.nonceSize + E.nonceSize ∧
      randomChallengeNonce E r.2 = portion device (i * (E.nonceSize + E.nonceSize)) E.nonceSize ∧
      randomKeyNonce E r.2 =
        portion device (i * (E.nonceSize + E.nonceSize) + E.nonceSize) E.nonceSize := by
  refine ⟨replies_are_fresh h, fun i r hr => ?_⟩
  obtain ⟨q, hq, -, -, hbytes⟩ := (replies_are_fresh h).answered i r hr
  have hasked : ∀ p ∈ s.accepted, p.asked = E.nonceSize + E.nonceSize := by
    intro p hp
    rw [hnonces p hp, noncesRequest, Request.asked, BitVec.toNat_ofNat, Nat.mod_eq_of_lt hsize]
  have hstart : s.startOf i = i * (E.nonceSize + E.nonceSize) := by
    have hi : i < s.accepted.length := (List.getElem?_eq_some_iff.mp hq).1
    have hmap : (s.accepted.take i).map Request.asked =
        List.replicate i (E.nonceSize + E.nonceSize) := by
      refine List.eq_replicate_iff.mpr ⟨by simp; omega, ?_⟩
      intro n hn
      obtain ⟨p, hp, rfl⟩ := List.mem_map.mp hn
      exact hasked p (List.mem_of_mem_take hp)
    rw [System.startOf, hmap, List.sum_replicate_nat]
  rw [hasked q (List.mem_of_getElem? hq), hstart] at hbytes
  refine ⟨by rw [hbytes, length_portion], ?_, ?_⟩
  · rw [randomChallengeNonce, hbytes, slice, take_drop_portion (by omega), Nat.add_zero]
  · rw [randomKeyNonce, hbytes, slice, take_drop_portion (by omega)]

/-! ### Two handshakes -/

def counting (i : ℕ) : UInt8 := UInt8.ofNat i

def requests : List (Event ℕ) := [.request ⟨7, 2⟩, .request ⟨8, 2⟩]

def exchange : List (Event ℕ) :=
  [.takeRequest ⟨true, true⟩, .serve ⟨.upTo 1024, true, true, true⟩,
    .takeResponse ⟨true, true, none, true, true, true⟩]

def afterRequests : System ℕ :=
  { started with accepted := [⟨7, 2⟩, ⟨8, 2⟩], mailbox := [⟨7, 2⟩, ⟨8, 2⟩] }

theorem requests_run : ∃ log, Run (step counting) started log afterRequests ∧
    log.map Taken.event = requests := by
  obtain ⟨hrun, hevents⟩ := run_execute (show execute (step counting) started requests =
    some (_, afterRequests) from rfl)
  exact ⟨_, hrun, hevents⟩

theorem exchanges_run : ∃ log s, Run (step counting) afterRequests log s ∧
    log.map Taken.event = exchange ++ exchange ∧ s.accepted = [⟨7, 2⟩, ⟨8, 2⟩] ∧
      s.replies = [(7, [0, 1]), (8, [2, 3])] := by
  obtain ⟨hrun, hevents⟩ := run_execute (show execute (step counting) afterRequests
    (exchange ++ exchange) = some (_, _) from rfl)
  exact ⟨_, _, hrun, hevents, rfl, rfl⟩

theorem two_handshakes_get_their_nonces : ∃ log s, Run (step counting) started log s ∧
    s.replies = [(7, [0, 1]), (8, [2, 3])] ∧
      randomKeyNonce HandshakeSteps.plainEnv [2, 3] = portion counting 3 1 := by
  obtain ⟨log, hrequests, -⟩ := requests_run
  obtain ⟨log', s, hexchanges, -, haccepted, hreplies⟩ := exchanges_run
  have hfresh := nonces_are_fresh (E := HandshakeSteps.plainEnv) (hrequests.trans hexchanges)
    (by decide) (by rw [haccepted]; decide)
  exact ⟨_, s, hrequests.trans hexchanges, hreplies,
    (hfresh.2 1 (8, [2, 3]) (by rw [hreplies]; rfl)).2.2⟩

/-! ### Undisturbed runs -/

/-- Every call works, the device has all that is asked for, and no request asks for nothing or too
much. -/
def Works : Event A → Prop
  | .request q => q.Sane
  | .takeRequest o => o.payloadCreated = true ∧ o.sent = true
  | .serve o => (∃ n, 1024 ≤ n ∧ o.device = .upTo n) ∧ o.responseAlloc = true ∧
      o.responseWrite = true ∧ o.flushed = true
  | .takeResponse o => o.read = true ∧ o.allocated = true ∧ o.reclaimed = none ∧
      o.messageCreated = true ∧ o.messageSent = true ∧ o.released = true
  | .endpointInterrupted => False
  | .serviceExits => False

def IsRequest : Event A → Prop
  | .request _ => True
  | _ => False

def System.stepsLeft (s : System A) : ℕ :=
  3 * s.mailbox.length +
    match s.endpoint with
    | .waiting _ => if s.toService = [] then 1 else 2
    | _ => 0

inductive Going (device : ℕ → UInt8) (s : System A) : Prop
  | idle (answered : List (Request A)) (progress : Progress device s answered s.mailbox)
      (endpoint : s.endpoint = .idle) (request : s.toService = []) (response : s.toEndpoint = [])
      (running : s.service.running = true)
      (position : s.service.position = (answered.map Request.asked).sum)
      (sane : ∀ p ∈ s.mailbox, p.Sane)
  | asked (answered : List (Request A)) (q : Request A)
      (progress : Progress device s answered (q :: s.mailbox)) (endpoint : s.endpoint = .waiting q)
      (request : s.toService = [sendreqRandomBytesGet 0 q.size]) (response : s.toEndpoint = [])
      (running : s.service.running = true)
      (position : s.service.position = (answered.map Request.asked).sum)
      (sane : ∀ p ∈ q :: s.mailbox, p.Sane)
  | responded (answered : List (Request A)) (q : Request A)
      (progress : Progress device s answered (q :: s.mailbox)) (endpoint : s.endpoint = .waiting q)
      (request : s.toService = [])
      (response : s.toEndpoint = [responsePacket methodGetRandomBytes 0 0
        (portion device (answered.map Request.asked).sum q.asked)])
      (running : s.service.running = true)
      (position : s.service.position = ((answered ++ [q]).map Request.asked).sum)
      (sane : ∀ p ∈ q :: s.mailbox, p.Sane)

theorem dispatch_works (hdevice : ∃ n, 1024 ≤ n ∧ o.device = .upTo n)
    (halloc : o.responseAlloc = true)
    (hwrite : o.responseWrite = true) (hsane : q.Sane) :
    randomserviceDecodeAndDispatch device o position (sendreqRandomBytesGet 0 q.size) =
      ⟨none, some (responsePacket methodGetRandomBytes 0 0 (portion device position q.asked)),
        q.asked⟩ := by
  obtain ⟨n, hn, hdevice⟩ := hdevice
  have hbounds := hsane
  rw [Request.Sane, Request.asked] at hbounds
  rw [dispatch_sendreq, if_neg (by omega), hdevice]
  simp only
  rw [if_neg (by omega), writeStatus, if_neg (by simp [halloc]), if_neg (by simp [hwrite])]
  rfl

/-- An undisturbed step leads on, and each but a new request brings the answers closer. -/
theorem going_step {e : Event A} (h : Going device s) (hworks : Works e)
    (hstep : step device s e = some s') :
    Going device s' ∧ (IsRequest e ∨ s'.stepsLeft + 1 = s.stepsLeft) := by
  cases e with
  | request p =>
    have hsane : p.Sane := hworks
    have hmailbox : ∀ {l : List (Request A)}, (∀ x ∈ l, x.Sane) → ∀ x ∈ l ++ [p], x.Sane := by
      intro l hl x hx
      rcases List.mem_append.mp hx with hx | hx
      · exact hl x hx
      · rw [List.mem_singleton.mp hx]
        exact hsane
    refine ⟨?_, Or.inl trivial⟩
    cases h with
    | idle answered progress endpoint request response running position sane =>
      simp only [step, endpoint] at hstep
      obtain rfl := Option.some.inj hstep
      exact .idle answered (progress.send p rfl rfl) rfl request response running position
        (hmailbox sane)
    | asked answered q progress endpoint request response running position sane =>
      simp only [step, endpoint] at hstep
      obtain rfl := Option.some.inj hstep
      exact .asked answered q (progress.send p rfl rfl) rfl request response running position
        (hmailbox (l := q :: s.mailbox) sane)
    | responded answered q progress endpoint request response running position sane =>
      simp only [step, endpoint] at hstep
      obtain rfl := Option.some.inj hstep
      exact .responded answered q (progress.send p rfl rfl) rfl request response running position
        (hmailbox (l := q :: s.mailbox) sane)
  | takeRequest o =>
    obtain ⟨hcreated, hsent⟩ := hworks
    cases h with
    | idle answered progress endpoint request response running position sane =>
      cases hmailbox : s.mailbox with
      | nil =>
        simp only [step, endpoint, hmailbox] at hstep
        cases hstep
      | cons q rest =>
        rw [hmailbox] at progress sane
        simp only [step, endpoint, hmailbox, hcreated, hsent, Bool.true_eq_false, if_false] at hstep
        obtain rfl := Option.some.inj hstep
        refine ⟨.asked answered q (progress.congr rfl rfl) rfl
          (by rw [request]; rfl) response running
          position sane, Or.inr ?_⟩
        simp [System.stepsLeft, endpoint, hmailbox]
        omega
    | asked answered q progress endpoint =>
      simp only [step, endpoint] at hstep
      cases hstep
    | responded answered q progress endpoint =>
      simp only [step, endpoint] at hstep
      cases hstep
  | serve o =>
    obtain ⟨hdevice, halloc, hwrite, hflushed⟩ := hworks
    cases h with
    | idle answered progress endpoint request =>
      simp only [step, request] at hstep
      cases hstep
    | asked answered q progress endpoint request response running position sane =>
      simp only [step, request, running, Bool.true_eq_false, if_false, response,
        dispatch_works hdevice halloc hwrite (sane q List.mem_cons_self), hflushed] at hstep
      obtain rfl := Option.some.inj hstep
      refine ⟨.responded answered q (progress.congr rfl rfl) endpoint rfl ?_ rfl ?_ sane, Or.inr ?_⟩
      · rw [← position]
        rfl
      · rw [List.map_append, List.sum_append, ← position]
        rfl
      · simp [System.stepsLeft, endpoint, request]
    | responded answered q progress endpoint request =>
      simp only [step, request] at hstep
      cases hstep
  | takeResponse o =>
    obtain ⟨hread, hallocated, hreclaimed, hcreated, hsent, hreleased⟩ := hworks
    cases h with
    | idle answered progress endpoint =>
      simp only [step, endpoint] at hstep
      cases hstep
    | asked answered q progress endpoint request response =>
      simp only [step, endpoint, response] at hstep
      cases hstep
    | responded answered q progress endpoint request response running position sane =>
      have hdata : portion device (answered.map Request.asked).sum q.asked ≠ [] := by
        rw [← List.length_pos_iff, length_portion]
        exact (sane q List.mem_cons_self).1
      simp only [step, endpoint, response, recvresp_filled hdata, hread, hallocated, hreclaimed,
        hcreated, hsent, hreleased, Bool.true_eq_false, if_false] at hstep
      obtain rfl := Option.some.inj hstep
      refine ⟨.idle (answered ++ [q])
        (progress.answer (sane q List.mem_cons_self) rfl rfl) rfl request
        rfl running position fun p hp => sane p (List.mem_cons_of_mem _ hp), Or.inr ?_⟩
      simp [System.stepsLeft, endpoint, request]
  | endpointInterrupted => exact absurd hworks id
  | serviceExits => exact absurd hworks id

/-- Only requests are new requests. -/
theorem accepted_step {e : Event A} (hrequest : ¬ IsRequest e) (hstep : step device s e = some s') :
    s'.accepted = s.accepted := by
  cases e with
  | request q => exact absurd trivial hrequest
  | takeRequest o =>
    simp only [step] at hstep
    repeat' split at hstep
    all_goals cases hstep
    all_goals rfl
  | serve o =>
    simp only [step] at hstep
    repeat' split at hstep
    all_goals cases hstep
    all_goals rfl
  | takeResponse o =>
    simp only [step] at hstep
    repeat' split at hstep
    all_goals cases hstep
    all_goals rfl
  | endpointInterrupted =>
    simp only [step] at hstep
    split at hstep
    all_goals cases hstep
    all_goals rfl
  | serviceExits =>
    cases hstep
    rfl

theorem going_goes_on (h : Going device s) (hleft : s.stepsLeft ≠ 0) :
    ∃ e, Works e ∧ ¬ IsRequest e ∧ (step device s e).isSome := by
  cases h with
  | idle answered progress endpoint request response running position sane =>
    cases hmailbox : s.mailbox with
    | nil => exact absurd (by simp [System.stepsLeft, endpoint, hmailbox]) hleft
    | cons q rest =>
      refine ⟨.takeRequest ⟨true, true⟩, ⟨rfl, rfl⟩, id, ?_⟩
      simp only [step, endpoint, hmailbox]
      rfl
  | asked answered q progress endpoint request response running =>
    refine ⟨.serve ⟨.upTo 1024, true, true, true⟩, ⟨⟨1024, le_rfl, rfl⟩, rfl, rfl, rfl⟩, id, ?_⟩
    simp only [step, request, running]
    rfl
  | responded answered q progress endpoint request response running position sane =>
    have hdata : portion device (answered.map Request.asked).sum q.asked ≠ [] := by
      rw [← List.length_pos_iff, length_portion]
      exact (sane q List.mem_cons_self).1
    refine ⟨.takeResponse ⟨true, true, none, true, true, true⟩, ⟨rfl, rfl, rfl, rfl, rfl, rfl⟩,
      id, ?_⟩
    simp only [step, endpoint, response, recvresp_filled hdata]
    rfl

theorem going_done (h : Going device s) (hleft : s.stepsLeft = 0) :
    s.replies = answers device s.accepted := by
  cases h with
  | idle answered progress endpoint =>
    have hmailbox : s.mailbox = [] := by
      rw [System.stepsLeft, endpoint] at hleft
      exact List.length_eq_zero_iff.mp (by simpa using hleft)
    rw [progress.replies, progress.accepted, hmailbox, List.append_nil]
  | asked answered q progress endpoint request =>
    rw [System.stepsLeft, endpoint] at hleft
    simp [request] at hleft
  | responded answered q progress endpoint request =>
    rw [System.stepsLeft, endpoint] at hleft
    simp [request] at hleft

theorem run_going {log : List (Taken (System A) (Event A))} (h : Run (step device) started log s)
    (hworks : ∀ t ∈ log, Works t.event) : Going device s := by
  refine h.invariant_on (P := Going device) hworks
    (.idle [] ⟨rfl, rfl, by simp⟩ rfl rfl rfl rfl rfl (by simp [started])) ?_
  exact fun hgoing hworks hstep => (going_step hgoing hworks hstep).1

/-- While nothing fails every request is answered, three steps for each: without new requests the
system can go on until all have their answers, and not longer. -/
theorem undisturbed_requests_are_answered {log l : List (Taken (System A) (Event A))}
    (h : Run (step device) started log s) (hworks : ∀ t ∈ log, Works t.event)
    (h' : Run (step device) s l s') (hworks' : ∀ t ∈ l, Works t.event ∧ ¬ IsRequest t.event) :
    l.length ≤ s.stepsLeft ∧
      (l.length < s.stepsLeft → ∃ e, Works e ∧ ¬ IsRequest e ∧ (step device s' e).isSome) ∧
      (l.length = s.stepsLeft → s'.replies = answers device s.accepted) := by
  have hbefore := run_going h hworks
  have hkeep : ∀ {t e t'}, (Going device t ∧ t.accepted = s.accepted) →
      (Works e ∧ ¬ IsRequest e) → step device t e = some t' →
      (Going device t' ∧ t'.accepted = s.accepted) ∧
        t'.stepsLeft + Bool.toNat true = t.stepsLeft := by
    rintro t e t' ⟨hgoing, haccepted⟩ ⟨hworks, hrequest⟩ hstep
    obtain ⟨hnext, hcloser⟩ := going_step hgoing hworks hstep
    have hone := hcloser.resolve_left hrequest
    exact ⟨⟨hnext, (accepted_step hrequest hstep).trans haccepted⟩, hone⟩
  obtain ⟨⟨hgoing, haccepted⟩, hcount⟩ :=
    h'.countdown System.stepsLeft (fun _ => true) hworks' ⟨hbefore, rfl⟩ hkeep
  rw [List.countP_true] at hcount
  refine ⟨by omega, fun hlt => going_goes_on hgoing (by omega), fun heq => ?_⟩
  rw [← haccepted]
  exact going_done hgoing (by omega)

theorem two_requests_are_answered : ∃ log s, Run (step counting) afterRequests log s ∧
    log.length = 6 ∧ s.replies = answers counting afterRequests.accepted := by
  obtain ⟨log, hrequests, hevents⟩ := requests_run
  obtain ⟨log', s, hexchanges, hevents', -, -⟩ := exchanges_run
  have hlength : log'.length = 6 := by
    rw [← List.length_map Taken.event, hevents']
    rfl
  refine ⟨log', s, hexchanges, hlength,
    (undisturbed_requests_are_answered hrequests ?_ hexchanges ?_).2.2 hlength⟩
  · intro t ht
    have hmem : t.event ∈ requests := hevents ▸ List.mem_map_of_mem ht
    revert hmem
    generalize t.event = e
    simp only [requests, List.mem_cons, List.not_mem_nil, or_false]
    rintro (rfl | rfl)
    all_goals exact ⟨by decide, by decide⟩
  · intro t ht
    have hmem : t.event ∈ exchange ++ exchange := hevents' ▸ List.mem_map_of_mem ht
    revert hmem
    generalize t.event = e
    simp only [exchange, List.mem_append, List.mem_cons, List.not_mem_nil, or_false, or_self]
    rintro (rfl | rfl | rfl)
    · exact ⟨⟨rfl, rfl⟩, id⟩
    · exact ⟨⟨⟨1024, le_rfl, rfl⟩, rfl, rfl, rfl⟩, id⟩
    · exact ⟨⟨rfl, rfl, rfl, rfl, rfl, rfl⟩, id⟩

end RandomService
