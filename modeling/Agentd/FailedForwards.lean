import Agentd.ExtendedApiCorrelation

/-! # Requests that do not reach their sentinel

What a send-receive request leaves behind when a step of it fails. Between the entry in the tree of
the sentinel and the message to it there is no way back. -/
namespace FailedForwards

open ByteString
open DataserviceRecords
open ClientProtocol
open ClientRequests (Env)
open ExtendedApi hiding extendedApiSendReq xlatEntryAdd messageSend

/-! ### A request and its failures -/

inductive Step where
  | allocatePayload
  | encode
  | messageCreate
  | allocateEntry
  | insertEntry
  | messageSend
  | sendResponse
  | releasePayload
  | releaseMessage
  | releaseEntry
  deriving DecidableEq

abbrev Failures := Step → Option Status

variable (E : Env) (fails : Failures)

/-- The status of a cleanup that fails takes the place of the first one. -/
def cleanup (step : Step) (status : Status) : Status := (fails step).getD status

def xlatEntryAdd (s : System) (d : ℕ) (x : XlatEntry) : Except Status System :=
  match fails .allocateEntry with
  | some e => .error e
  | none =>
    match fails .insertEntry with
    | some e => .error (cleanup fails .releaseEntry e)
    | none =>
      match ExtendedApi.xlatEntryAdd E s d x with
      | .error e => .error (cleanup fails .releaseEntry e)
      | .ok s => .ok s

def messageSend (step : Step) (s : System) (d : ℕ) (p : Packet) : Except Status System :=
  match fails step with
  | some e => .error e
  | none =>
    match ExtendedApi.messageSend s d p with
    | none => .error E.library.messageSendFailure
    | some s => .ok s

/-- From `message_create` on the payload belongs to the message. -/
def sendOnward (s : System) (c d : ℕ) (responds : Bool) (offset : BitVec 64)
    (req : Decoded ExtendedApiFields) : Outcome :=
  match (if responds then xlatEntryAdd E fails s d ⟨offset, req.offset, c⟩ else .ok s) with
  | .error e => (s, some (cleanup fails .releaseMessage e))
  | .ok s =>
    match messageSend E fails .messageSend s d (clientRequestPacket E c offset req) with
    | .error e => (s, some (cleanup fails .releaseMessage e))
    | .ok s =>
      if responds then (s, none)
      else
        match messageSend E fails .sendResponse s c
          (.statusResponse ProtocolRequest.extendedApiSendrecv.code 0 req.offset) with
        | .error e => (s, some e)
        | .ok s => (s, none)

def extendedApiSendReq (s : System) (c : ℕ) (req : Decoded ExtendedApiFields) : Outcome :=
  if (E.entity c).capabilityCheck req.fields.verbId req.fields.entityId = false then
    (s, some errorUnauthorized)
  else
    match s.extendedApiDict.find? fun e => e.entityId = req.fields.entityId with
    | none => (s, some errorExtendedApiUnknownEntity)
    | some entry =>
      match fails .allocatePayload with
      | some e => (s, some e)
      | none =>
        let k := s.connection entry.ctx
        let offset := k.extendedApiOffset + 1
        let s := s.set entry.ctx { k with extendedApiOffset := offset }
        match fails .encode, fails .messageCreate with
        | some e, _ => (s, some (cleanup fails .releasePayload e))
        | none, some e => (s, some (cleanup fails .releasePayload e))
        | none, none => sendOnward E fails s c entry.ctx k.extendedApiCanRespond offset req

/-! ### What is left behind -/

def SameTrees (s t : System) : Prop :=
  ∀ d, (t.connection d).extendedApiOffsetDict = (s.connection d).extendedApiOffsetDict

/-- All steps before the message to the sentinel work, and an entry goes into its tree. -/
structure Entered (s : System) (c : ℕ) (req : Decoded ExtendedApiFields) (entry : DictEntry) :
    Prop where
  authorized : (E.entity c).capabilityCheck req.fields.verbId req.fields.entityId = true
  routed : s.extendedApiDict.find? (fun e => e.entityId = req.fields.entityId) = some entry
  responds : (s.connection entry.ctx).extendedApiCanRespond = true
  works : ∀ step ∈ [Step.allocatePayload, .encode, .messageCreate, .allocateEntry, .insertEntry],
    fails step = none
  fresh : ∀ x ∈ (s.connection entry.ctx).extendedApiOffsetDict,
    x.serverOffset ≠ (s.connection entry.ctx).extendedApiOffset + 1

def SendFails (s : System) (entry : DictEntry) : Prop :=
  fails .messageSend ≠ none ∨ (s.connection entry.ctx).mailbox = none

variable {E fails} {s t : System} {c d : ℕ} {x : XlatEntry} {offset : BitVec 64}
  {req : Decoded ExtendedApiFields} {entry : DictEntry} {p : Packet} {step : Step}

theorem SameTrees.refl (s : System) : SameTrees s s := fun _ => rfl

theorem SameTrees.trans {u : System} (h : SameTrees s t) (k : SameTrees t u) : SameTrees s u :=
  fun d => (k d).trans (h d)

theorem set_trees {k : FiberContext}
    (h : k.extendedApiOffsetDict = (s.connection d).extendedApiOffsetDict) :
    SameTrees s (s.set d k) := by
  intro c
  change (Function.update s.connection d k c).extendedApiOffsetDict = _
  by_cases hcd : c = d
  · rw [hcd, Function.update_self, h]
  · rw [Function.update_of_ne hcd]

/-! ### What the steps do -/

theorem messageSend_trees (h : messageSend E fails step s d p = .ok t) : SameTrees s t := by
  unfold messageSend at h
  cases hfails : fails step with
  | some e =>
    rw [hfails] at h
    cases h
  | none =>
    rw [hfails] at h
    dsimp only at h
    unfold ExtendedApi.messageSend at h
    cases hq : (s.connection d).mailbox with
    | none =>
      rw [hq] at h
      cases h
    | some q =>
      rw [hq] at h
      cases h
      exact set_trees rfl

variable (E fails step) in
theorem messageSend_error_iff (s : System) (d : ℕ) (p : Packet) :
    (∃ e, messageSend E fails step s d p = .error e) ↔
    fails step ≠ none ∨ (s.connection d).mailbox = none := by
  unfold messageSend
  cases hfails : fails step with
  | some e => simp
  | none =>
    dsimp only
    unfold ExtendedApi.messageSend
    cases hq : (s.connection d).mailbox with
    | none => simp
    | some q => simp

/-- An entry goes in when both steps work and its offset is new. -/
theorem xlatEntryAdd_ok : xlatEntryAdd E fails s d x = .ok t ↔
    fails .allocateEntry = none ∧ fails .insertEntry = none ∧
      (∀ y ∈ (s.connection d).extendedApiOffsetDict, y.serverOffset ≠ x.serverOffset) ∧
      t = s.set d { s.connection d with
        extendedApiOffsetDict := (s.connection d).extendedApiOffsetDict ++ [x] } := by
  unfold xlatEntryAdd
  cases halloc : fails .allocateEntry with
  | some e => simp
  | none =>
    cases hinsert : fails .insertEntry with
    | some e => simp
    | none =>
      dsimp only
      unfold ExtendedApi.xlatEntryAdd
      dsimp only
      cases hfind : (s.connection d).extendedApiOffsetDict.find?
          fun y => decide (y.serverOffset = x.serverOffset) with
      | some y =>
        have hmem := List.mem_of_find?_eq_some hfind
        have hkey : y.serverOffset = x.serverOffset := by simpa using List.find?_some hfind
        constructor
        · intro h
          cases h
        · rintro ⟨-, -, hfresh, -⟩
          exact (hfresh y hmem hkey).elim
      | none =>
        have hfresh : ∀ y ∈ (s.connection d).extendedApiOffsetDict,
            y.serverOffset ≠ x.serverOffset := by
          intro y hy hkey
          exact List.find?_eq_none.mp hfind y hy (decide_eq_true hkey)
        constructor
        · intro h
          cases h
          exact ⟨rfl, rfl, hfresh, rfl⟩
        · rintro ⟨-, -, -, rfl⟩
          rfl

/-- Without an entry nothing is left behind. -/
theorem sendOnward_silent : SameTrees s (sendOnward E fails s c d false offset req).1 := by
  unfold sendOnward
  simp only [Bool.false_eq_true, if_false]
  cases hsend : messageSend E fails .messageSend s d (clientRequestPacket E c offset req) with
  | error e => exact SameTrees.refl s
  | ok t =>
    have hsame := messageSend_trees hsend
    dsimp only
    cases hresponse : messageSend E fails .sendResponse t c
        (.statusResponse ProtocolRequest.extendedApiSendrecv.code 0 req.offset) with
    | error e => exact hsame
    | ok u => exact hsame.trans (messageSend_trees hresponse)

/-- With an entry something is left behind when the message is not sent. -/
theorem sendOnward_responds (E : Env) (fails : Failures) (s : System) (c d : ℕ)
    (offset : BitVec 64) (req : Decoded ExtendedApiFields) :
    ((sendOnward E fails s c d true offset req).2 ≠ none →
      SameTrees s (sendOnward E fails s c d true offset req).1) ↔
    ¬ (fails .allocateEntry = none ∧ fails .insertEntry = none ∧
      (∀ y ∈ (s.connection d).extendedApiOffsetDict, y.serverOffset ≠ offset) ∧
      (fails .messageSend ≠ none ∨ (s.connection d).mailbox = none)) := by
  unfold sendOnward
  simp only [if_true]
  cases hadd : xlatEntryAdd E fails s d ⟨offset, req.offset, c⟩ with
  | error e =>
    refine iff_of_true (fun _ => SameTrees.refl s) ?_
    rintro ⟨halloc, hinsert, hfresh, -⟩
    rw [xlatEntryAdd_ok.mpr ⟨halloc, hinsert, hfresh, rfl⟩] at hadd
    cases hadd
  | ok t =>
    obtain ⟨halloc, hinsert, hfresh, rfl⟩ := xlatEntryAdd_ok.mp hadd
    have hfails := messageSend_error_iff E fails .messageSend
      (s.set d { s.connection d with extendedApiOffsetDict :=
        (s.connection d).extendedApiOffsetDict ++ [⟨offset, req.offset, c⟩] })
      d (clientRequestPacket E c offset req)
    rw [connection_set_self] at hfails
    dsimp only at hfails ⊢
    cases hsend : messageSend E fails .messageSend (s.set d { s.connection d with
        extendedApiOffsetDict :=
          (s.connection d).extendedApiOffsetDict ++ [⟨offset, req.offset, c⟩] }) d
        (clientRequestPacket E c offset req) with
    | error e =>
      refine iff_of_false ?_ (not_not.mpr ⟨halloc, hinsert, hfresh, hfails.mp ⟨e, hsend⟩⟩)
      intro h
      have htree := h (Option.some_ne_none _) d
      dsimp only at htree
      rw [connection_set_self] at htree
      have hlen := congrArg List.length htree
      rw [List.length_append, List.length_singleton] at hlen
      omega
    | ok u =>
      refine iff_of_true (fun h => (h rfl).elim) ?_
      rintro ⟨-, -, -, hsendFails⟩
      obtain ⟨e, he⟩ := hfails.mpr hsendFails
      rw [hsend] at he
      cases he

/-! ### The whole request -/

/-- None of the steps before the message has failed. -/
theorem Entered.not_failed (h : Entered E fails s c req entry) {e : Status}
    (hfail : fails step = some e)
    (hstep : step ∈ [Step.allocatePayload, .encode, .messageCreate, .allocateEntry, .insertEntry]) :
    False := by
  rw [h.works step hstep] at hfail
  cases hfail

/-- A request that fails leaves the trees alone exactly when no entry was made for a message that is
not sent. -/
theorem failed_request_leaves_no_entry (E : Env) (fails : Failures) (s : System) (c : ℕ)
    (req : Decoded ExtendedApiFields) :
    ((extendedApiSendReq E fails s c req).2 ≠ none →
      SameTrees s (extendedApiSendReq E fails s c req).1) ↔
    ∀ entry, Entered E fails s c req entry → ¬ SendFails fails s entry := by
  have hnever : ∀ {u : System} {o : Option Status}, SameTrees s u →
      (∀ entry, ¬ Entered E fails s c req entry) →
      ((o ≠ none → SameTrees s u) ↔
        ∀ entry, Entered E fails s c req entry → ¬ SendFails fails s entry) := by
    intro u o hsame hnone
    exact iff_of_true (fun _ => hsame) fun entry hentered => (hnone entry hentered).elim
  unfold extendedApiSendReq
  by_cases hcap : (E.entity c).capabilityCheck req.fields.verbId req.fields.entityId = false
  · rw [if_pos hcap]
    refine hnever (SameTrees.refl s) fun entry hentered => ?_
    rw [hentered.authorized] at hcap
    cases hcap
  rw [if_neg hcap]
  cases hfind : s.extendedApiDict.find? fun e => e.entityId = req.fields.entityId with
  | none =>
    refine hnever (SameTrees.refl s) fun entry hentered => ?_
    rw [hentered.routed] at hfind
    cases hfind
  | some entry =>
    have hentry : ∀ other, Entered E fails s c req other → other = entry := by
      intro other hentered
      exact Option.some.inj (hentered.routed.symm.trans hfind)
    dsimp only
    cases hallocate : fails .allocatePayload with
    | some e =>
      exact hnever (SameTrees.refl s) fun other hentered => hentered.not_failed hallocate (by simp)
    | none =>
      have hsame : SameTrees s (s.set entry.ctx { s.connection entry.ctx with
          extendedApiOffset := (s.connection entry.ctx).extendedApiOffset + 1 }) := set_trees rfl
      have hmailbox : ((s.set entry.ctx { s.connection entry.ctx with
          extendedApiOffset := (s.connection entry.ctx).extendedApiOffset + 1 }).connection
            entry.ctx).mailbox = (s.connection entry.ctx).mailbox := by
        rw [connection_set_self]
      generalize s.set entry.ctx _ = u at hsame hmailbox ⊢
      dsimp only
      cases hencode : fails .encode with
      | some e =>
        exact hnever hsame fun other hentered => hentered.not_failed hencode (by simp)
      | none =>
        cases hcreate : fails .messageCreate with
        | some e =>
          exact hnever hsame fun other hentered => hentered.not_failed hcreate (by simp)
        | none =>
          dsimp only
          by_cases hresponds : (s.connection entry.ctx).extendedApiCanRespond = true
          · have honward := sendOnward_responds E fails u c entry.ctx
              ((s.connection entry.ctx).extendedApiOffset + 1) req
            rw [hresponds]
            have htrees : ∀ v, SameTrees s v ↔ SameTrees u v := by
              intro v
              exact ⟨fun h d => (h d).trans (hsame d).symm, fun h => hsame.trans h⟩
            rw [htrees, honward, hsame, hmailbox]
            constructor
            · rintro hnot other hentered hsend
              obtain rfl := hentry other hentered
              exact hnot ⟨hentered.works _ (by simp), hentered.works _ (by simp), hentered.fresh,
                hsend⟩
            · rintro hall ⟨halloc, hinsert, hfresh, hsend⟩
              refine hall entry ⟨Bool.eq_true_of_not_eq_false hcap, hfind, hresponds, ?_,
                hfresh⟩ hsend
              simp [hallocate, hencode, hcreate, halloc, hinsert]
          · rw [Bool.eq_false_of_not_eq_true hresponds]
            refine hnever (hsame.trans sendOnward_silent) fun other hentered => ?_
            have hother := hentered.responds
            rw [hentry other hentered] at hother
            exact hresponds hother

open AnsweredOnce (sampleEnv requestPacket sentinelResponse)

/-- The sentinel `1` has enabled the API, and the client `2` is connected. -/
def enabledSystem : System :=
  [Action.connect 1, .connect 2, .request 1 (requestPacket .extendedApiEnable 7 [])].foldl
    (next sampleEnv) start

def sampleRequest : Decoded ExtendedApiFields := ⟨0x51, 8, ⟨1, 5, []⟩⟩

/-- There is no memory for the message in the mailbox of the sentinel. -/
def sendFails : Failures := fun step => if step = .messageSend then some 4 else none

/-- The client is told that its request has failed, and gets a response of the sentinel to it. -/
theorem failed_request_is_answered :
    ¬ ((extendedApiSendReq sampleEnv sendFails enabledSystem 2 sampleRequest).2 ≠ none →
      SameTrees enabledSystem
        (extendedApiSendReq sampleEnv sendFails enabledSystem 2 sampleRequest).1) ∧
    ((dndExtendedApiSendresp sampleEnv
      (extendedApiSendReq sampleEnv sendFails enabledSystem 2 sampleRequest).1 1 0
      (sentinelResponse 1)).1.arrived 2) = [.extendedApiResponse 8 0 []] := by
  have hrun : (extendedApiSendReq sampleEnv sendFails enabledSystem 2 sampleRequest).2 ≠ none ∧
      ((extendedApiSendReq sampleEnv sendFails enabledSystem 2 sampleRequest).1.connection
        1).extendedApiOffsetDict ≠ (enabledSystem.connection 1).extendedApiOffsetDict ∧
      ((dndExtendedApiSendresp sampleEnv
        (extendedApiSendReq sampleEnv sendFails enabledSystem 2 sampleRequest).1 1 0
        (sentinelResponse 1)).1.arrived 2) = [.extendedApiResponse 8 0 []] := by
    decide +kernel
  exact ⟨fun h => hrun.2.1 (h hrun.1 1), hrun.2.2⟩

end FailedForwards
