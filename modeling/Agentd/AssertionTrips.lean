import Agentd.NotificationEndpoint

/-! # Assertions on their way

For every connection the parts of the system hold a few numbers: whether there is an entry for it,
how many notifications are on their way to its client, and where its request to the endpoint is.
They fit together in every state, however the steps are interleaved, as long as the endpoint fibers
do not meet what makes them leave their loops. -/
namespace AssertionTrips

open DataserviceRecords
open DataEndpoint
open TwinTrees
open NotificationEndpoint
open NotificationFibers (noFaults)

variable {n : ℕ} {home : Fin n} {s t : System n} {c d : ℕ}

/-! ### Views -/

def isNotice (m : WriteMessage) : Bool := decide (m.messageType = .notification)

/-- The notifications that wait for a write fiber, with the one it is dealing with. -/
def noticesIn (box : Option (List WriteMessage)) (hand : Option WriteMessage) : ℕ :=
  (box.getD []).countP isNotice + hand.toList.countP isNotice

def requestsOf (c : ℕ) (cancel : Bool) (inbox : List AssertionRequest) : ℕ :=
  inbox.countP fun r => r.replyAddr = c ∧ r.cancel = cancel

def replyCount (c : ℕ) (replying : Option (ℕ × AssertionReply)) : ℕ :=
  if replying.map Prod.fst = some c then 1 else 0

def entryCount (e : Option XlatEntry) : ℕ := if e.isSome then 1 else 0

structure View where
  protocol : ProtocolFiber
  flag : Bool
  entry : ℕ
  notices : ℕ
  asks : ℕ
  cancels : ℕ
  replies : ℕ
  acks : ℕ
  returnOpen : Bool
  fiberOpen : Bool

def view (s : System n) (c : ℕ) : View where
  protocol := (s.connection c).protocol
  flag := (s.connection c).latestBlockIdAssertionSet
  entry := entryCount (s.clientXlatMap c)
  notices := noticesIn (s.returnBox c) (s.connection c).hand
  asks := requestsOf c false s.inbox
  cancels := requestsOf c true s.inbox
  replies := replyCount c s.replying
  acks := ((s.fiberBox c).getD []).length
  returnOpen := (s.returnBox c).isSome
  fiberOpen := (s.fiberBox c).isSome

theorem view_congr (hconnection : t.connection d = s.connection d)
    (hreturn : t.returnBox d = s.returnBox d) (hfiber : t.fiberBox d = s.fiberBox d)
    (hclient : t.clientXlatMap d = s.clientXlatMap d)
    (hinbox : ∀ b, requestsOf d b t.inbox = requestsOf d b s.inbox)
    (hreplying : replyCount d t.replying = replyCount d s.replying) : view t d = view s d := by
  simp only [view, hconnection, hreturn, hfiber, hclient, hinbox, hreplying]

/-! ### The invariant -/

def waits : ProtocolFiber → ℕ
  | .absent => 0
  | .reading => 0
  | .asserting _ => 1
  | .cancelling => 1
  | .gone => 0

def asserts : ProtocolFiber → ℕ
  | .absent => 0
  | .reading => 0
  | .asserting _ => 1
  | .cancelling => 0
  | .gone => 0

def live : ProtocolFiber → Bool
  | .absent => false
  | .reading => true
  | .asserting _ => true
  | .cancelling => true
  | .gone => false

/-- A request of a connection is in one place, from where it was sent to its reply; and the flag is
set wherever an entry or a notification tells of an assertion that was acknowledged. -/
structure Fits (v : View) : Prop where
  trip : v.asks + v.cancels + v.replies + v.acks = waits v.protocol
  asks : v.asks ≤ asserts v.protocol
  cancels : v.cancels + asserts v.protocol ≤ 1
  single : v.entry + v.notices ≤ 1
  unset : v.flag = false → asserts v.protocol = 0 → v.entry + v.notices = 0
  fresh : asserts v.protocol = 1 → v.flag = false ∧ (v.asks = 1 → v.entry + v.notices = 0)
  absent : v.protocol = .absent → v.flag = false
  opened : live v.protocol = true → v.returnOpen = true ∧ v.fiberOpen = true

structure Inv (s : System n) : Prop where
  twin : Twin XlatEntry.clientAddr XlatEntry.serverOffset s.clientXlatMap s.serverXlatMap
  endpoint : s.endpointRuns = true
  writeEndpoint : s.writeEndpointRuns = true
  fits : ∀ c, Fits (view s c)

theorem inv_start (n : ℕ) : Inv (start n) := by
  refine ⟨Twin.empty, rfl, rfl, ?_⟩
  intro c
  constructor
  · rfl
  · exact le_rfl
  · exact Nat.zero_le 1
  · exact Nat.zero_le 1
  · intro _ _
    rfl
  · intro h
    cases h
  · intro _
    rfl
  · intro h
    cases h

/-! ### Counting -/

theorem requestsOf_append (b : Bool) (l₁ l₂ : List AssertionRequest) :
    requestsOf c b (l₁ ++ l₂) = requestsOf c b l₁ + requestsOf c b l₂ :=
  List.countP_append ..

theorem requestsOf_cons (b : Bool) (r : AssertionRequest) (l : List AssertionRequest) :
    requestsOf c b (r :: l) =
      requestsOf c b l + if r.replyAddr = c ∧ r.cancel = b then 1 else 0 := by
  rw [requestsOf, requestsOf, List.countP_cons]
  simp only [decide_eq_true_eq]

theorem requestsOf_other {r : AssertionRequest} (hd : d ≠ r.replyAddr) (b : Bool)
    (l : List AssertionRequest) : requestsOf d b (r :: l) = requestsOf d b l := by
  have hnot : ¬ (r.replyAddr = d ∧ r.cancel = b) := fun h => hd h.1.symm
  rw [requestsOf_cons, if_neg hnot, Nat.add_zero]

theorem replyCount_some (r : AssertionReply) : replyCount c (some (c, r)) = 1 := by
  simp [replyCount]

theorem replyCount_other (r : AssertionReply) (hd : d ≠ c) : replyCount d (some (c, r)) = 0 := by
  have hcd : ¬ c = d := fun h => hd h.symm
  simp [replyCount, hcd]

theorem noticesIn_append (box : List WriteMessage) (m : WriteMessage) (hand : Option WriteMessage) :
    noticesIn (some (box ++ [m])) hand =
      noticesIn (some box) hand + if isNotice m then 1 else 0 := by
  simp only [noticesIn, Option.getD_some, List.countP_append, List.countP_singleton]
  omega

/-! ### What a step can do -/

/-- What makes an endpoint fiber leave its loop: a cancel of a connection that has no entry, an
assertion for which the counter has come round to an offset in use, and a response for an entry
whose connection has closed its mailbox. -/
def Safe (home : Fin n) (s : System n) : Action n → Prop
  | .take => ∀ r rest, s.inbox = r :: rest →
    if r.cancel then (s.clientXlatMap r.replyAddr).isSome = true
    else s.serverXlatMap (s.requestOffsetCounter + 1) = none
  | .receiveResponse => ∀ r e, nextResponse home s = some r → s.serverXlatMap r.offset = some e →
    (s.returnBox e.clientAddr).isSome = true
  | _ => True

theorem safe_receiveResponse {r : NotificationFibers.Response} (h : nextResponse home s = some r) :
    Safe home s .receiveResponse ↔
      ∀ e, s.serverXlatMap r.offset = some e → (s.returnBox e.clientAddr).isSome = true := by
  constructor
  · intro hsafe e he
    exact hsafe r e h he
  · intro hopen r' e hr' he
    cases h.symm.trans hr'
    exact hopen e he

instance (home : Fin n) (s : System n) : DecidablePred (Safe home s)
  | .take =>
    match hinbox : s.inbox with
    | [] => isTrue (by simp [Safe, hinbox])
    | r :: _ => decidable_of_iff (if r.cancel then (s.clientXlatMap r.replyAddr).isSome = true
        else s.serverXlatMap (s.requestOffsetCounter + 1) = none) (by simp [Safe, hinbox])
  | .receiveResponse =>
    match hresponse : nextResponse home s with
    | none => isTrue (by simp [Safe, hresponse])
    | some r =>
      match hentry : s.serverXlatMap r.offset with
      | none => isTrue (by simp [safe_receiveResponse hresponse, hentry])
      | some e => decidable_of_iff ((s.returnBox e.clientAddr).isSome = true)
        (by simp [safe_receiveResponse hresponse, hentry])
  | .connect _ | .assertLatestBlockId .. | .assertLatestBlockIdCancel .. | .resume _ | .respond .. |
    .leave _ | .receive _ | .finish _ | .writeFails _ | .closeMailboxes _ | .reply | .serve _ |
    .service _ => isTrue trivial

inductive Change : Action n → ℕ → View → View → Prop
  | idle {a : Action n} {c : ℕ} {v : View} : Change a c v v
  | connects {c : ℕ} {v : View} (hprotocol : v.protocol = .absent) :
    Change (.connect c) c v ⟨.reading, false, v.entry, 0, v.asks, v.cancels, v.replies, 0,
      true, true⟩
  | asserts {c : ℕ} {v : View} {offset : BitVec 32} {blockId : Uuid}
      (hprotocol : v.protocol = .reading) (hflag : v.flag = false) :
    Change (.assertLatestBlockId c offset blockId) c v
      { v with protocol := .asserting offset, asks := v.asks + 1 }
  | cancels {c : ℕ} {v : View} {offset : BitVec 32} (hprotocol : v.protocol = .reading)
      (hflag : v.flag = true) :
    Change (.assertLatestBlockIdCancel c offset) c v
      { v with protocol := .cancelling, cancels := v.cancels + 1 }
  | acknowledged {c k : ℕ} {v : View} {offset : BitVec 32}
      (hprotocol : v.protocol = .asserting offset) (hacks : v.acks = k + 1) :
    Change (.resume c) c v { v with protocol := .reading, flag := true, acks := k }
  | passedOn {c k : ℕ} {v : View} (hprotocol : v.protocol = .cancelling) (hacks : v.acks = k + 1) :
    Change (.resume c) c v { v with protocol := .reading, acks := k }
  | leaves {c : ℕ} {v : View} (hprotocol : v.protocol = .reading) :
    Change (.leave c) c v { v with protocol := .gone }
  | told {c k : ℕ} {v : View} (hnotices : v.notices = k + 1) :
    Change (.finish c) c v { v with flag := false, notices := k }
  | drops {c k : ℕ} {v : View} (hnotices : k ≤ v.notices) :
    Change (.writeFails c) c v { v with notices := k }
  | closes {c k : ℕ} {v : View} (hprotocol : v.protocol = .gone) (hnotices : k ≤ v.notices) :
    Change (.closeMailboxes c) c v
      { v with notices := k, acks := 0, returnOpen := false, fiberOpen := false }
  | assertionTaken {c k : ℕ} {v : View} (hasks : v.asks = k + 1) (hentry : v.entry = 0)
      (hreplies : v.replies = 0) :
    Change .take c v { v with asks := k, entry := 1, replies := 1 }
  | cancelTaken {c k : ℕ} {v : View} (hcancels : v.cancels = k + 1) (hreplies : v.replies = 0) :
    Change .take c v { v with cancels := k, replies := 1 }
  | replied {c : ℕ} {v : View} (hreplies : v.replies = 1) :
    Change .reply c v { v with replies := 0, acks := v.acks + 1 }
  | answered {c : ℕ} {v : View} (hentry : v.entry = 1) :
    Change .receiveResponse c v { v with entry := 0, notices := v.notices + 1 }

theorem Fits.change {a : Action n} {v w : View} (h : Fits v) (hchange : Change a c v w) :
    Fits w := by
  obtain ⟨htrip, hasks, hcancels, hsingle, hunset, hfresh, habsent, hopened⟩ := h
  cases hchange with
  | idle => exact ⟨htrip, hasks, hcancels, hsingle, hunset, hfresh, habsent, hopened⟩
  | connects hprotocol =>
    rw [hprotocol] at htrip hasks hcancels hunset habsent
    have hnone := hunset (habsent rfl) rfl
    simp only [waits, asserts] at htrip hasks hcancels
    constructor <;> simp [waits, asserts, live] <;> omega
  | asserts hprotocol hflag =>
    rw [hprotocol] at htrip hasks hcancels hunset hopened
    have hnone := hunset hflag rfl
    have hopen := hopened rfl
    simp only [waits, asserts] at htrip hasks hcancels
    constructor <;> simp [waits, asserts, live, hflag, hopen] <;> omega
  | cancels hprotocol hflag =>
    rw [hprotocol] at htrip hasks hcancels hopened
    have hopen := hopened rfl
    simp only [waits, asserts] at htrip hasks hcancels
    constructor <;> simp [waits, asserts, live, hflag, hopen] <;> omega
  | acknowledged hprotocol hacks =>
    rw [hprotocol] at htrip hasks hcancels hopened
    have hopen := hopened rfl
    simp only [waits, asserts] at htrip hasks hcancels
    constructor <;> simp [waits, asserts, live, hopen] <;> omega
  | passedOn hprotocol hacks =>
    rw [hprotocol] at htrip hasks hcancels hunset hopened
    have hopen := hopened rfl
    simp only [waits, asserts] at htrip hasks hcancels
    refine ⟨?_, hasks, hcancels, hsingle, hunset, ?_, ?_, ?_⟩
    · simp only [waits]
      omega
    · simp [asserts]
    · simp
    · simp [hopen]
  | leaves hprotocol =>
    rw [hprotocol] at htrip hasks hcancels hunset
    refine ⟨htrip, hasks, hcancels, hsingle, hunset, ?_, ?_, ?_⟩
    · simp [asserts]
    · simp
    · simp [live]
  | told hnotices =>
    refine ⟨htrip, hasks, hcancels, ?_, ?_, ?_, ?_, hopened⟩
    · simp only
      omega
    · intro _ _
      simp only
      omega
    · intro hasserts
      refine ⟨rfl, ?_⟩
      intro hone
      have hnone := (hfresh hasserts).2 hone
      omega
    · intro _
      rfl
  | drops hnotices =>
    refine ⟨htrip, hasks, hcancels, ?_, ?_, ?_, habsent, hopened⟩
    · simp only
      omega
    · intro hflag hasserts
      have hnone := hunset hflag hasserts
      simp only
      omega
    · intro hasserts
      refine ⟨(hfresh hasserts).1, ?_⟩
      intro hone
      have hnone := (hfresh hasserts).2 hone
      simp only
      omega
  | closes hprotocol hnotices =>
    rw [hprotocol] at htrip hasks hcancels hunset
    simp only [waits, asserts] at htrip hasks hcancels
    refine ⟨?_, ?_, ?_, ?_, ?_, ?_, ?_, ?_⟩
    · simp only [hprotocol, waits]
      omega
    · simp only [hprotocol, asserts]
      omega
    · simp only [hprotocol, asserts]
      omega
    · simp only
      omega
    · intro hflag _
      have hnone := hunset hflag rfl
      simp only
      omega
    · simp [hprotocol, asserts]
    · simp [hprotocol]
    · simp [hprotocol, live]
  | assertionTaken htaken hentry hreplies =>
    have hone : v.asks = 1 ∧ asserts v.protocol = 1 := by
      have hle : asserts v.protocol ≤ 1 := by omega
      omega
    have hnone := (hfresh hone.2).2 hone.1
    refine ⟨?_, ?_, hcancels, ?_, ?_, ?_, habsent, hopened⟩
    · simp only
      omega
    · simp only
      omega
    · simp only
      omega
    · intro _ hasserts
      simp only at hasserts
      omega
    · intro _
      refine ⟨(hfresh hone.2).1, ?_⟩
      intro hasks'
      simp only at hasks'
      omega
  | cancelTaken htaken hreplies =>
    refine ⟨?_, hasks, ?_, hsingle, hunset, hfresh, habsent, hopened⟩
    · simp only
      omega
    · simp only
      omega
  | replied hreplies =>
    refine ⟨?_, hasks, hcancels, hsingle, hunset, hfresh, habsent, hopened⟩
    simp only
    omega
  | answered hentry =>
    refine ⟨htrip, hasks, hcancels, ?_, ?_, ?_, habsent, hopened⟩
    · simp only
      omega
    · intro hflag hasserts
      have hnone := hunset hflag hasserts
      omega
    · intro hasserts
      refine ⟨(hfresh hasserts).1, ?_⟩
      intro hone
      have hnone := (hfresh hasserts).2 hone
      omega

/-! ### Steps -/

/-- A step changes the view of one connection, and neither tears the maps apart nor stops a
fiber. -/
structure Moves (a : Action n) (s t : System n) : Prop where
  change : ∃ c, Change a c (view s c) (view t c) ∧ ∀ d, d ≠ c → view t d = view s d
  twin : Twin XlatEntry.clientAddr XlatEntry.serverOffset t.clientXlatMap t.serverXlatMap
  endpoint : t.endpointRuns = true
  writeEndpoint : t.writeEndpointRuns = true

theorem Inv.moves {a : Action n} (h : Inv s) (hmoves : Moves a s t) : Inv t := by
  refine ⟨hmoves.twin, hmoves.endpoint, hmoves.writeEndpoint, ?_⟩
  obtain ⟨c, hchange, hother⟩ := hmoves.change
  intro d
  by_cases hd : d = c
  · rw [hd]
    exact (h.fits c).change hchange
  · rw [hother d hd]
    exact h.fits d

def SameMaps (s t : System n) : Prop :=
  t.clientXlatMap = s.clientXlatMap ∧ t.serverXlatMap = s.serverXlatMap ∧
    t.endpointRuns = s.endpointRuns ∧ t.writeEndpointRuns = s.writeEndpointRuns

theorem moves_of_change {a : Action n} (h : Inv s) (hsame : SameMaps s t)
    (hchange : Change a c (view s c) (view t c)) (hother : ∀ d, d ≠ c → view t d = view s d) :
    Moves a s t := by
  obtain ⟨hclient, hserver, hendpoint, hwrite⟩ := hsame
  refine ⟨⟨c, hchange, hother⟩, ?_, ?_, ?_⟩
  · rw [hclient, hserver]
    exact h.twin
  · rw [hendpoint, h.endpoint]
  · rw [hwrite, h.writeEndpoint]

theorem view_setConnection_other (k : Connection) (hd : d ≠ c) :
    view (setConnection s c k) d = view s d := by
  apply view_congr
  · exact Function.update_of_ne hd ..
  all_goals intros; rfl

theorem view_messageSend_other (m : WriteMessage) (hd : d ≠ c) :
    view (messageSend s c m) d = view s d := by
  apply view_congr
  · rfl
  · exact Function.update_of_ne hd ..
  all_goals intros; rfl

theorem view_fiberSend_other (r : AssertionReply) (hd : d ≠ c) :
    view (fiberSend s c r) d = view s d := by
  apply view_congr
  · rfl
  · rfl
  · exact Function.update_of_ne hd ..
  all_goals intros; rfl

/-- A message that is no notification is not seen. -/
theorem view_messageSend_self {m : WriteMessage} (hm : isNotice m = false) :
    view (messageSend s c m) c = view s c := by
  have hnotices : noticesIn ((s.returnBox c).map (· ++ [m])) (s.connection c).hand =
      noticesIn (s.returnBox c) (s.connection c).hand := by
    cases hbox : s.returnBox c with
    | none => rfl
    | some box =>
      rw [Option.map_some, noticesIn_append, hm]
      rfl
  simp only [view, messageSend, Function.update_self, hnotices, Option.isSome_map]

theorem moves_messageSend {a : Action n} (h : Inv s) {m : WriteMessage} (hm : isNotice m = false)
    (c : ℕ) : Moves a s (messageSend s c m) := by
  refine moves_of_change (c := c) h ?_ ?_ ?_
  · exact ⟨rfl, rfl, rfl, rfl⟩
  · rw [view_messageSend_self hm]
    exact Change.idle
  · intro d hd
    exact view_messageSend_other m hd

theorem moves_connect (h : Inv s) (hprotocol : (s.connection c).protocol = .absent) :
    Moves (.connect c) s (setConnection { s with
      returnBox := Function.update s.returnBox c (some [])
      fiberBox := Function.update s.fiberBox c (some []) } c newConnection) := by
  refine moves_of_change (c := c) h ?_ ?_ ?_
  · exact ⟨rfl, rfl, rfl, rfl⟩
  · have hview := Change.connects (n := n) (c := c) (v := view s c) hprotocol
    convert hview using 1
    simp only [view, setConnection, Function.update_self, newConnection]
    rfl
  · intro d hd
    apply view_congr
    · exact Function.update_of_ne hd ..
    · exact Function.update_of_ne hd ..
    · exact Function.update_of_ne hd ..
    all_goals intros; rfl

theorem view_askEndpoint_self (p : ProtocolFiber) (b : Bool) (offset : BitVec 32) (id : Uuid) :
    view (askEndpoint s c p ⟨b, offset, id, c⟩) c = { view s c with
      protocol := p
      asks := (view s c).asks + (if b = false then 1 else 0)
      cancels := (view s c).cancels + (if b = true then 1 else 0) } := by
  simp only [view, askEndpoint, setConnection, Function.update_self, requestsOf_append]
  simp [requestsOf]

theorem view_askEndpoint_other (p : ProtocolFiber) {r : AssertionRequest} (hr : r.replyAddr = c)
    (hd : d ≠ c) : view (askEndpoint s c p r) d = view s d := by
  apply view_congr
  · exact Function.update_of_ne hd ..
  · rfl
  · rfl
  · rfl
  · intro b
    have hne : d ≠ r.replyAddr := fun heq => hd (heq.trans hr)
    simp only [askEndpoint, requestsOf_append, requestsOf_other hne]
    rfl
  · rfl

theorem moves_assert (h : Inv s) (hprotocol : (s.connection c).protocol = .reading)
    (offset : BitVec 32) (blockId : Uuid) :
    Moves (.assertLatestBlockId c offset blockId) s
      (dndAssertLatestBlockId s c offset blockId) := by
  rw [dndAssertLatestBlockId]
  split
  · exact moves_messageSend h rfl c
  · rename_i hflag
    refine moves_of_change (c := c) h ?_ ?_ ?_
    · exact ⟨rfl, rfl, rfl, rfl⟩
    · rw [view_askEndpoint_self]
      exact Change.asserts hprotocol (Bool.not_eq_true _ ▸ hflag)
    · intro d hd
      exact view_askEndpoint_other _ rfl hd

theorem moves_cancel (h : Inv s) (hprotocol : (s.connection c).protocol = .reading)
    (offset : BitVec 32) :
    Moves (.assertLatestBlockIdCancel c offset) s (dndAssertLatestBlockIdCancel s c offset) := by
  rw [dndAssertLatestBlockIdCancel]
  split
  · exact moves_messageSend h rfl c
  · rename_i hflag
    refine moves_of_change (c := c) h ?_ ?_ ?_
    · exact ⟨rfl, rfl, rfl, rfl⟩
    · rw [view_askEndpoint_self]
      exact Change.cancels hprotocol (Bool.not_eq_false _ ▸ hflag)
    · intro d hd
      exact view_askEndpoint_other _ rfl hd

theorem moves_resume (h : Inv s) {box : List AssertionReply} (hbox : s.fiberBox c = some box) :
    Moves (.resume c) s (resumeDispatch s c box) := by
  have hacks : (view s c).acks = box.length := by simp [view, hbox]
  have hother : ∀ k d, d ≠ c → ∀ rest, view (setConnection { s with
      fiberBox := Function.update s.fiberBox c (some rest) } c k) d = view s d := by
    intro k d hd rest
    apply view_congr
    · exact Function.update_of_ne hd ..
    · rfl
    · exact Function.update_of_ne hd ..
    all_goals intros; rfl
  cases box with
  | nil =>
    refine moves_of_change (c := c) h ⟨rfl, rfl, rfl, rfl⟩ Change.idle ?_
    intro d _
    rfl
  | cons r rest =>
    rw [List.length_cons] at hacks
    have htrip := (h.fits c).trip
    cases hprotocol : (s.connection c).protocol with
    | asserting offset =>
      simp only [resumeDispatch, hprotocol]
      refine moves_of_change (c := c) h ⟨rfl, rfl, rfl, rfl⟩ ?_ ?_
      · convert Change.acknowledged (n := n) (c := c) (v := view s c) hprotocol hacks using 1
        simp [view, setConnection, hbox]
      · intro d hd
        exact hother _ d hd rest
    | cancelling =>
      simp only [resumeDispatch, hprotocol]
      refine moves_of_change (c := c) h ⟨rfl, rfl, rfl, rfl⟩ ?_ ?_
      · convert Change.passedOn (n := n) (c := c) (v := view s c) hprotocol hacks using 1
        simp [view, setConnection, hbox]
      · intro d hd
        exact hother _ d hd rest
    | _ =>
      have hwaits : waits (view s c).protocol = 0 := by
        rw [view, hprotocol]
        rfl
      omega

theorem moves_leave (h : Inv s) (hprotocol : (s.connection c).protocol = .reading) :
    Moves (.leave c) s (messageSend (setConnection s c { s.connection c with protocol := .gone }) c
      ⟨.shutdown, 0, 0, []⟩) := by
  refine moves_of_change (c := c) h ⟨rfl, rfl, rfl, rfl⟩ ?_ ?_
  · rw [view_messageSend_self rfl]
    convert Change.leaves (n := n) (c := c) (v := view s c) hprotocol using 1
    simp [view, setConnection]
  · intro d hd
    rw [view_messageSend_other _ hd, view_setConnection_other _ hd]

/-- The notifications of a connection are the same when one moves into the hand of the write
fiber. -/
theorem moves_receive (h : Inv s) (hhand : (s.connection c).hand = none) {box : List WriteMessage}
    (hbox : s.returnBox c = some box) : Moves (.receive c) s (receiveMessage s c box) := by
  cases box with
  | nil =>
    refine moves_of_change (c := c) h ⟨rfl, rfl, rfl, rfl⟩ Change.idle ?_
    intro d _
    rfl
  | cons m rest =>
    refine moves_of_change (c := c) h ⟨rfl, rfl, rfl, rfl⟩ ?_ ?_
    · have hview : view (receiveMessage s c (m :: rest)) c = view s c := by
        simp [view, receiveMessage, setConnection, noticesIn, hbox, hhand, List.countP_cons]
      rw [hview]
      exact Change.idle
    · intro d hd
      apply view_congr
      · exact Function.update_of_ne hd ..
      · exact Function.update_of_ne hd ..
      all_goals intros; rfl

/-- Without the message in hand there is one notification less, or as many. -/
theorem noticesIn_hand (box : Option (List WriteMessage)) (m : WriteMessage) :
    noticesIn box (some m) = noticesIn box none + if isNotice m then 1 else 0 := by
  simp [noticesIn, List.countP_cons]

/-- A message that is no notification leaves the views as they are. -/
theorem view_finishMessage {m : WriteMessage} (hhand : (s.connection c).hand = some m)
    (hm : isNotice m = false) (d : ℕ) : view (finishMessage s c m) d = view s d := by
  have hnotices := noticesIn_hand (s.returnBox c) m
  simp only [hm, Bool.false_eq_true, if_false, Nat.add_zero] at hnotices
  have hset : ∀ b, view (setConnection s c { s.connection c with hand := none, writing := b }) d =
      view s d := by
    intro b
    by_cases hd : d = c
    · rw [hd]
      simp only [view, setConnection, Function.update_self, hhand, hnotices]
    · exact view_setConnection_other _ hd
  cases htype : m.messageType with
  | notification => simp [isNotice, htype] at hm
  | dataservice =>
    simp only [finishMessage, htype]
    exact hset _
  | packet =>
    simp only [finishMessage, htype]
    exact hset _
  | _ =>
    simp only [finishMessage, htype]
    exact hset _

theorem sameMaps_finishMessage (m : WriteMessage) : SameMaps s (finishMessage s c m) := by
  rw [finishMessage]
  split
  · exact ⟨rfl, rfl, rfl, rfl⟩
  · exact ⟨rfl, rfl, rfl, rfl⟩
  · exact ⟨rfl, rfl, rfl, rfl⟩
  · exact ⟨rfl, rfl, rfl, rfl⟩

theorem moves_finish (h : Inv s) {m : WriteMessage} (hhand : (s.connection c).hand = some m) :
    Moves (.finish c) s (finishMessage s c m) := by
  by_cases hm : isNotice m = false
  · refine moves_of_change (c := c) h (sameMaps_finishMessage m) ?_ ?_
    · rw [view_finishMessage hhand hm]
      exact Change.idle
    · intro d _
      exact view_finishMessage hhand hm d
  · have hnotice : isNotice m = true := Bool.not_eq_false _ ▸ hm
    have htype : m.messageType = .notification := by simpa [isNotice] using hnotice
    have hone : (view s c).notices = noticesIn (s.returnBox c) none + 1 := by
      simp only [view, hhand, noticesIn_hand, hnotice, if_true]
    simp only [finishMessage, htype]
    refine moves_of_change (c := c) h ⟨rfl, rfl, rfl, rfl⟩ ?_ ?_
    · convert Change.told (n := n) (c := c) (v := view s c) hone using 1
      simp [view, setConnection]
    · intro d hd
      exact view_setConnection_other _ hd

theorem moves_writeFails (h : Inv s) :
    Moves (.writeFails c) s (setConnection s c
      { s.connection c with hand := none, writing := false }) := by
  refine moves_of_change (c := c) h ⟨rfl, rfl, rfl, rfl⟩ ?_ ?_
  · have hless : noticesIn (s.returnBox c) none ≤ (view s c).notices := by
      simp [view, noticesIn]
    convert Change.drops (n := n) (c := c) (v := view s c) hless using 1
    simp [view, setConnection]
  · intro d hd
    exact view_setConnection_other _ hd

theorem moves_closeMailboxes (h : Inv s) (hprotocol : (s.connection c).protocol = .gone) :
    Moves (.closeMailboxes c) s { s with
      returnBox := Function.update s.returnBox c none
      fiberBox := Function.update s.fiberBox c none } := by
  refine moves_of_change (c := c) h ⟨rfl, rfl, rfl, rfl⟩ ?_ ?_
  · have hless : noticesIn none (s.connection c).hand ≤ (view s c).notices := by
      simp [view, noticesIn]
    convert Change.closes (n := n) (c := c) (v := view s c) hprotocol hless using 1
    simp [view]
  · intro d hd
    apply view_congr
    · rfl
    · exact Function.update_of_ne hd ..
    · exact Function.update_of_ne hd ..
    all_goals intros; rfl

/-! ### Endpoint fibers -/

/-- A connection with an assertion in the inbox has no entry. -/
theorem Inv.free_of_asked (h : Inv s) {r : AssertionRequest} {rest : List AssertionRequest}
    (hinbox : s.inbox = r :: rest) (hcancel : r.cancel = false) :
    s.clientXlatMap r.replyAddr = none := by
  have hasks : (view s r.replyAddr).asks = requestsOf r.replyAddr false rest + 1 := by
    simp [view, hinbox, requestsOf_cons, hcancel]
  have hentry : (view s r.replyAddr).entry = 0 := by
    have hfits := h.fits r.replyAddr
    have hle := hfits.cancels
    have hasserts := hfits.asks
    have hnone := (hfits.fresh (by omega)).2 (by omega)
    omega
  simpa [view, entryCount] using hentry

theorem moves_takeAssertion (h : Inv s) {r : AssertionRequest} {rest : List AssertionRequest}
    (hinbox : s.inbox = r :: rest) (hcancel : r.cancel = false) (hreplying : s.replying = none)
    (hfree : s.serverXlatMap (s.requestOffsetCounter + 1) = none) :
    Moves .take s (takeAssertion { s with inbox := rest } r) := by
  have hasks : (view s r.replyAddr).asks = requestsOf r.replyAddr false rest + 1 := by
    simp [view, hinbox, requestsOf_cons, hcancel]
  have hreplies : (view s r.replyAddr).replies = 0 := by
    simp [view, hreplying, replyCount]
  have hclient := h.free_of_asked hinbox hcancel
  have hentry : (view s r.replyAddr).entry = 0 := by
    simp [view, entryCount, hclient]
  simp only [takeAssertion, hclient, hfree, Option.isSome_none, Bool.false_eq_true, if_false]
  refine ⟨⟨r.replyAddr, ?_, ?_⟩, ?_, h.endpoint, h.writeEndpoint⟩
  · convert Change.assertionTaken (n := n) (c := r.replyAddr) hasks hentry hreplies using 1
    simp [view, entryCount, replyCount, hinbox, requestsOf_cons, hcancel]
  · intro d hd
    apply view_congr
    · rfl
    · rfl
    · rfl
    · exact Function.update_of_ne hd ..
    · intro b
      rw [hinbox, requestsOf_other hd]
    · rw [hreplying, replyCount_other _ hd]
      rfl
  · exact Twin.insert (e := ⟨r.replyAddr, s.requestOffsetCounter + 1, r.reqOffset⟩) h.twin hclient
      hfree

theorem moves_takeCancel (h : Inv s) {r : AssertionRequest} {rest : List AssertionRequest}
    (hinbox : s.inbox = r :: rest) (hcancel : r.cancel = true) (hreplying : s.replying = none)
    (hsome : (s.clientXlatMap r.replyAddr).isSome = true) :
    Moves .take s (takeCancel { s with inbox := rest } r) := by
  obtain ⟨e, he⟩ := Option.isSome_iff_exists.mp hsome
  have hcancels : (view s r.replyAddr).cancels = requestsOf r.replyAddr true rest + 1 := by
    simp [view, hinbox, requestsOf_cons, hcancel]
  have hreplies : (view s r.replyAddr).replies = 0 := by
    simp [view, hreplying, replyCount]
  simp only [takeCancel, he]
  refine ⟨⟨r.replyAddr, ?_, ?_⟩, h.twin, h.endpoint, h.writeEndpoint⟩
  · convert Change.cancelTaken (n := n) (c := r.replyAddr) hcancels hreplies using 1
    simp [view, replyCount, hinbox, requestsOf_cons, hcancel]
  · intro d hd
    apply view_congr
    · rfl
    · rfl
    · rfl
    · rfl
    · intro b
      rw [hinbox, requestsOf_other hd]
    · rw [hreplying, replyCount_other _ hd]
      rfl

theorem moves_sendReply (h : Inv s) : Moves .reply s (sendReply s s.replying) := by
  cases hreplying : s.replying with
  | none =>
    refine moves_of_change (c := 0) h ⟨rfl, rfl, rfl, rfl⟩ Change.idle ?_
    intro d _
    rfl
  | some r =>
    obtain ⟨c, r⟩ := r
    have hreplies : (view s c).replies = 1 := by
      rw [view, hreplying, replyCount_some]
    have hopen : (s.fiberBox c).isSome = true := by
      have htrip := (h.fits c).trip
      have hlive : live (view s c).protocol = true := by
        have hwaits : 0 < waits (view s c).protocol := by omega
        revert hwaits
        cases (view s c).protocol <;> simp [waits, live]
      exact ((h.fits c).opened hlive).2
    obtain ⟨box, hbox⟩ := Option.isSome_iff_exists.mp hopen
    simp only [sendReply, hopen, if_true]
    refine moves_of_change (c := c) h ⟨rfl, rfl, rfl, rfl⟩ ?_ ?_
    · convert Change.replied (n := n) (c := c) hreplies using 1
      simp [view, fiberSend, replyCount, hbox]
    · intro d hd
      rw [view_fiberSend_other _ hd]
      apply view_congr
      · rfl
      · rfl
      · rfl
      · rfl
      · intro b
        rfl
      · rw [hreplying, replyCount_other _ hd]
        rfl

theorem moves_receiveResponse (h : Inv s) {r : NotificationFibers.Response}
    (hopen : ∀ e, s.serverXlatMap r.offset = some e → (s.returnBox e.clientAddr).isSome = true) :
    Moves .receiveResponse s (receiveResponse s (some r)) := by
  cases hentry : s.serverXlatMap r.offset with
  | none =>
    simp only [receiveResponse, hentry]
    refine moves_of_change (c := 0) h ⟨rfl, rfl, rfl, rfl⟩ Change.idle ?_
    intro d _
    rfl
  | some e =>
    obtain ⟨hkey, hclient⟩ := h.twin.right hentry
    obtain ⟨box, hbox⟩ := Option.isSome_iff_exists.mp (hopen e hentry)
    have hone : (view s e.clientAddr).entry = 1 := by
      simp [view, entryCount, hclient]
    simp only [receiveResponse, hentry, hbox, Option.isSome_some, if_true]
    refine ⟨⟨e.clientAddr, ?_, ?_⟩, h.twin.delete hclient, h.endpoint, h.writeEndpoint⟩
    · convert Change.answered (n := n) (c := e.clientAddr) hone using 1
      simp [view, messageSend, entryCount, hbox, noticesIn_append, isNotice]
    · intro d hd
      rw [view_messageSend_other _ hd]
      apply view_congr
      · rfl
      · rfl
      · rfl
      · exact Function.update_of_ne hd ..
      all_goals intros; rfl

/-! ### Runs -/

theorem moves_idle {a : Action n} (h : Inv s) (hsame : SameMaps s t)
    (hview : ∀ c, view t c = view s c) :
    Moves a s t := by
  refine moves_of_change (c := 0) h hsame ?_ ?_
  · rw [hview 0]
    exact Change.idle
  · intro d _
    exact hview d

theorem serveRequest_some {f : NotificationFibers.Faults n} {l : List NotificationFibers.Request}
    (h : serveRequest home s f l = some t) :
    ∃ service rest, t = { s with service := service, requests := rest } := by
  cases l with
  | nil => cases h
  | cons r rest =>
    obtain ⟨service, -, rfl⟩ := Option.map_eq_some_iff.mp h
    exact ⟨service, rest, rfl⟩

theorem step_moves {a : Action n} (h : Inv s) (henabled : Enabled home s a)
    (hsafe : Safe home s a) : Moves a s (next home s a) := by
  obtain ⟨-, -, hguard⟩ := henabled
  cases a with
  | connect c => exact moves_connect h hguard
  | assertLatestBlockId c offset blockId => exact moves_assert h hguard offset blockId
  | assertLatestBlockIdCancel c offset => exact moves_cancel h hguard offset
  | resume c =>
    obtain ⟨box, hbox⟩ := Option.ne_none_iff_exists'.mp hguard.2
    rw [next, hbox]
    exact moves_resume h hbox
  | respond c payload => exact moves_messageSend h rfl c
  | leave c => exact moves_leave h hguard
  | receive c =>
    rw [next]
    cases hbox : s.returnBox c with
    | none => exact moves_idle h ⟨rfl, rfl, rfl, rfl⟩ fun _ => rfl
    | some box => exact moves_receive h hguard.2 hbox
  | finish c =>
    obtain ⟨m, hhand⟩ := Option.ne_none_iff_exists'.mp hguard.2
    rw [next, hhand]
    exact moves_finish h hhand
  | writeFails c => exact moves_writeFails h
  | closeMailboxes c => exact moves_closeMailboxes h hguard.1
  | take =>
    rw [next]
    cases hinbox : s.inbox with
    | nil => exact moves_idle h ⟨rfl, rfl, rfl, rfl⟩ fun _ => rfl
    | cons r rest =>
      have hr := hsafe r rest hinbox
      cases hcancel : r.cancel with
      | true =>
        simp only [takeRequest, hcancel, if_true] at hr ⊢
        exact moves_takeCancel h hinbox hcancel hguard hr
      | false =>
        simp only [takeRequest, hcancel, Bool.false_eq_true, if_false] at hr ⊢
        exact moves_takeAssertion h hinbox hcancel hguard hr
  | reply => exact moves_sendReply h
  | serve f =>
    obtain ⟨t, ht⟩ := Option.isSome_iff_exists.mp hguard
    rw [next, ht, Option.getD_some]
    obtain ⟨service, rest, rfl⟩ := serveRequest_some ht
    exact moves_idle h ⟨rfl, rfl, rfl, rfl⟩ fun _ => rfl
  | service a => exact moves_idle h ⟨rfl, rfl, rfl, rfl⟩ fun _ => rfl
  | receiveResponse =>
    rw [next]
    cases hresponse : nextResponse home s with
    | none => exact moves_idle h ⟨rfl, rfl, rfl, rfl⟩ fun _ => rfl
    | some r => exact moves_receiveResponse h fun e he => hsafe r e hresponse he

theorem inv_of_run {allowed : System n → Action n → Prop}
    (hallowed : ∀ s a, allowed s a → Safe home s a) (h : Run home allowed s) : Inv s := by
  induction h with
  | start => exact inv_start n
  | tail before henabled hmeets ih => exact ih.moves (step_moves ih henabled (hallowed _ _ hmeets))

/-- An endpoint fiber that meets one of these leaves its loop. -/
theorem stops_of_not_safe {a : Action n} (hsafe : ¬ Safe home s a) :
    ¬ ((next home s a).endpointRuns = true ∧ (next home s a).writeEndpointRuns = true) := by
  rintro ⟨hendpoint, hwrite⟩
  apply hsafe
  cases a with
  | take =>
    intro r rest hinbox
    simp only [next, hinbox, takeRequest] at hendpoint
    cases hcancel : r.cancel with
    | true =>
      simp only [hcancel, if_true] at hendpoint ⊢
      cases hclient : s.clientXlatMap r.replyAddr with
      | none => simp [takeCancel, hclient] at hendpoint
      | some e => rfl
    | false =>
      simp only [hcancel, Bool.false_eq_true, if_false] at hendpoint ⊢
      cases hserver : s.serverXlatMap (s.requestOffsetCounter + 1) with
      | none => rfl
      | some e =>
        simp only [takeAssertion, hserver, Option.isSome_some, if_true] at hendpoint
        split at hendpoint
        · cases hendpoint
        · cases hendpoint
  | receiveResponse =>
    intro r e hresponse hentry
    simp only [next, hresponse, receiveResponse, hentry] at hwrite
    by_contra hclosed
    simp only [if_neg hclosed] at hwrite
    cases hwrite
  | _ => trivial

/-- In every run in which the endpoint fibers meet none of these, both are in their loops, and a
step takes one of them out exactly when it meets one. -/
theorem endpoints_stay_in_their_loops (home : Fin n) (s : System n) (h : Run home (Safe home) s) :
    s.endpointRuns = true ∧ s.writeEndpointRuns = true ∧
    ∀ a, Enabled home s a → (Safe home s a ↔
      (next home s a).endpointRuns = true ∧ (next home s a).writeEndpointRuns = true) := by
  have hinv := inv_of_run (fun _ _ hsafe => hsafe) h
  refine ⟨hinv.endpoint, hinv.writeEndpoint, ?_⟩
  intro a henabled
  constructor
  · intro hsafe
    have hmoves := step_moves hinv henabled hsafe
    exact ⟨hmoves.endpoint, hmoves.writeEndpoint⟩
  · intro hruns
    by_contra hsafe
    exact stops_of_not_safe hsafe hruns

def toldOnce : List (Action 2) :=
  [.connect 7, .assertLatestBlockId 7 1 zeroUuid, .take, .reply, .resume 7, .serve noFaults,
    .service (.request 1 ⟨.blockUpdate, 0, List.replicate 16 1⟩ noFaults),
    .service (.resume 1 noFaults), .receiveResponse, .receive 7, .finish 7]

theorem told_client_may_go : ∃ s : System 2, Run 0 (Safe 0) s ∧
    (s.connection 7).latestBlockIdAssertionSet = false ∧ s.received = 1 ∧
    s.endpointRuns = true ∧ s.writeEndpointRuns = true := by
  have hplay : ((play 0 (Safe 0) (start 2) toldOnce).map fun s =>
      ((s.connection 7).latestBlockIdAssertionSet, s.received)) = some (false, 1) := by
    decide +kernel
  obtain ⟨s, hs, hfacts⟩ := Option.map_eq_some_iff.mp hplay
  obtain ⟨hflag, hreceived⟩ := Prod.mk.inj hfacts
  have hrun := run_of_play Run.start hs
  obtain ⟨hendpoint, hwrite, -⟩ := endpoints_stay_in_their_loops 0 s hrun
  exact ⟨s, hrun, hflag, hreceived, hendpoint, hwrite⟩

/-- An invalidation that has not been written leaves the flag set, so that the client can still
cancel. -/
def lateCancel : List (Action 2) :=
  [.connect 7, .assertLatestBlockId 7 1 1, .take, .reply, .resume 7, .serve noFaults,
    .receiveResponse, .assertLatestBlockIdCancel 7 2, .take]

def leftBehind : List (Action 2) :=
  [.connect 7, .assertLatestBlockId 7 1 zeroUuid, .take, .reply, .resume 7, .serve noFaults,
    .leave 7, .receive 7, .finish 7, .closeMailboxes 7,
    .service (.request 1 ⟨.blockUpdate, 0, List.replicate 16 1⟩ noFaults),
    .service (.resume 1 noFaults), .receiveResponse]

theorem late_cancel_and_disconnect_stop_endpoints :
    (∃ s : System 2, Run 0 (fun _ _ => True) s ∧ s.endpointRuns = false) ∧
    ∃ s : System 2, Run 0 (fun _ _ => True) s ∧ s.writeEndpointRuns = false := by
  constructor
  · have hplay : ((play 0 (fun _ _ => True) (start 2) lateCancel).map System.endpointRuns) =
        some false := by
      decide +kernel
    obtain ⟨s, hs, hstops⟩ := Option.map_eq_some_iff.mp hplay
    exact ⟨s, run_of_play Run.start hs, hstops⟩
  · have hplay : ((play 0 (fun _ _ => True) (start 2) leftBehind).map System.writeEndpointRuns) =
        some false := by
      decide +kernel
    obtain ⟨s, hs, hstops⟩ := Option.map_eq_some_iff.mp hplay
    exact ⟨s, run_of_play Run.start hs, hstops⟩

end AssertionTrips
