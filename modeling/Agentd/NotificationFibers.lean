import Agentd.DataserviceRecords
import Mathlib.Data.List.Sort

/-! # The fibers of the notification service

Every instance of the notification service has a protocol fiber that reads one request after the
other. The fibers share the latest block id and the trees of waiting assertions, and they take turns
where a message is sent: a block update takes the trees of all instances and then sends one
invalidation after the other, while the other fibers go on. The log is a ghost: it records the
requests in the order in which they are dispatched and the responses in the order in which they are
queued, each with the request that it answers and the one that had it sent. -/
namespace NotificationFibers

open ByteString
open DataserviceRecords

/-! ### Requests and responses -/

inductive NotificationMethod where
  | reduceCaps
  | blockUpdate
  | blockAssertion
  | blockAssertionCancel
  | other (code : BitVec 32)
  deriving DecidableEq

inductive NotificationStatus where
  | success
  | notAuthorized
  | malformedRequest
  | invalidRequestId
  | outOfMemory
  | duplicate
  | sendFailure
  deriving DecidableEq, Repr

structure Request where
  method : NotificationMethod
  offset : BitVec 64
  payload : Bytes
  deriving DecidableEq

structure Response where
  method : NotificationMethod
  offset : BitVec 64
  status : NotificationStatus
  deriving DecidableEq

def invalidation (offset : BitVec 64) : Response := ⟨.blockAssertion, offset, .success⟩

def cancellation (offset : BitVec 64) : Response := ⟨.blockAssertionCancel, offset, .success⟩

/-- The requests are numbered. A response is queued for the endpoint of an instance; it is about one
request and was sent by way of another, or the same. -/
inductive Event (n : ℕ) where
  | request (number : ℕ) (inst : Fin n) (r : Request)
  | response (inst : Fin n) (r : Response) (about via : ℕ)
  deriving DecidableEq

/-! ### State -/

/-- `notificationservice_assertion_entry`, with the number of its request. The context is that of
the protocol fiber of its instance. -/
structure AssertionEntry (n : ℕ) where
  context : Fin n
  offset : BitVec 64
  request : ℕ
  deriving DecidableEq

def AssertionEntry.upTo {n : ℕ} (a b : AssertionEntry n) : Prop :=
  a.context < b.context ∨ (a.context = b.context ∧ a.offset.toNat ≤ b.offset.toNat)

instance {n : ℕ} : DecidableRel (AssertionEntry.upTo (n := n)) :=
  fun a b => inferInstanceAs (Decidable (a.context < b.context ∨
    (a.context = b.context ∧ a.offset.toNat ≤ b.offset.toNat)))

/-- Where a protocol fiber is: at its read, in a block update with the entries it has not reached,
or gone with its context. -/
inductive Fiber (n : ℕ) where
  | reading
  | notifying (number : ℕ) (offset : BitVec 64) (rest : List (AssertionEntry n))
  | released
  deriving DecidableEq

def Fiber.rest {n : ℕ} : Fiber n → List (AssertionEntry n)
  | .notifying _ _ rest => rest
  | _ => []

structure Service (n : ℕ) where
  latestBlockId : Uuid
  caps : Fin n → BitVec 32
  assertions : List (AssertionEntry n)
  fiber : Fin n → Fiber n
  /-- A context was read after its release. -/
  dangling : Bool
  clock : ℕ
  log : List (Event n)

def capReduceCaps : ℕ := 0

def capBlockUpdate : ℕ := 1

def capBlockAssertion : ℕ := 2

def serviceCreate (n : ℕ) : Service n where
  latestBlockId := zeroUuid
  caps _ := BitVec.allOnes 32
  assertions := []
  fiber _ := .reading
  dangling := false
  clock := 0
  log := []

/-! ### Failures -/

/-- Where a block update stops before its first send: at its list of trees, at the new tree of an
instance, or when the old one is put in the list. -/
inductive SwapFault (n : ℕ) where
  | none
  | listCreate
  | treeCreate (inst : Fin n)
  | listAppend (inst : Fin n)
  deriving DecidableEq

structure Faults (n : ℕ) where
  entry : Bool
  swap : SwapFault n
  /-- The send of an invalidation by a block update. -/
  send : Bool
  /-- The send of the response to the request itself. -/
  report : Bool
  deriving DecidableEq

def noFaults {n : ℕ} : Faults n := ⟨false, .none, false, false⟩

variable {n : ℕ}

def keptAssertions (assertions : List (AssertionEntry n)) : SwapFault n → List (AssertionEntry n)
  | .none => []
  | .listCreate => assertions
  | .treeCreate inst => assertions.filter fun e => inst ≤ e.context
  | .listAppend inst => assertions.filter fun e => inst < e.context

/-! ### Dispatch -/

def arrive (s : Service n) (j : Fin n) (r : Request) : Service n :=
  { s with clock := s.clock + 1, log := s.log ++ [.request s.clock j r] }

/-- Reports the status of a request; the fiber leaves its loop on an error, also when that is one of
the report. -/
def finish (s : Service n) (j : Fin n) (number : ℕ) (r : Response) (fails : Bool) : Service n :=
  { s with
    log := if fails then s.log else s.log ++ [.response j r number number]
    fiber := Function.update s.fiber j
      (if r.status = .success ∧ fails = false then .reading else .released) }

def dispatchReduceCaps (s : Service n) (j : Fin n) (number : ℕ) (r : Request) (f : Faults n) :
    Service n :=
  if (s.caps j).getLsbD capReduceCaps = false then
    finish s j number ⟨.reduceCaps, r.offset, .notAuthorized⟩ f.report
  else if r.payload.length ≠ 4 then
    finish s j number ⟨.reduceCaps, r.offset, .malformedRequest⟩ f.report
  else
    -- The word is copied as the host has it, little end first.
    finish { s with caps := Function.update s.caps j (s.caps j &&& bits 32 r.payload.reverse) } j
      number ⟨.reduceCaps, r.offset, .success⟩ f.report

/-- The trees change hands before anything is sent; from then on the fiber only works on its own
list. The first send belongs to the dispatch; that other fibers may run before it only adds runs. -/
def dispatchBlockUpdate (s : Service n) (j : Fin n) (number : ℕ) (r : Request) (f : Faults n) :
    Service n :=
  if (s.caps j).getLsbD capBlockUpdate = false then
    finish s j number ⟨.blockUpdate, r.offset, .notAuthorized⟩ f.report
  else if r.payload.length ≠ 16 then
    finish s j number ⟨.blockUpdate, r.offset, .malformedRequest⟩ f.report
  else if f.swap ≠ .none then
    finish { s with
      latestBlockId := bits 128 r.payload
      assertions := keptAssertions s.assertions f.swap } j number
      ⟨.blockUpdate, r.offset, .outOfMemory⟩ f.report
  else
    { s with
      latestBlockId := bits 128 r.payload
      assertions := []
      fiber := Function.update s.fiber j (.notifying number r.offset s.assertions) }

def entryOf (s : Service n) (j : Fin n) (offset : BitVec 64) : Option (AssertionEntry n) :=
  s.assertions.find? fun e => e.context = j ∧ e.offset = offset

/-- An assertion that waits is not answered. -/
def dispatchBlockAssertion (s : Service n) (j : Fin n) (number : ℕ) (r : Request) (f : Faults n) :
    Service n :=
  if (s.caps j).getLsbD capBlockAssertion = false then
    finish s j number ⟨.blockAssertion, r.offset, .notAuthorized⟩ f.report
  else if r.payload.length ≠ 16 then
    finish s j number ⟨.blockAssertion, r.offset, .malformedRequest⟩ f.report
  else if bits 128 r.payload ≠ s.latestBlockId then
    finish s j number (invalidation r.offset) f.report
  else if f.entry then
    finish s j number ⟨.blockAssertion, r.offset, .outOfMemory⟩ f.report
  else if (entryOf s j r.offset).isSome then
    finish s j number ⟨.blockAssertion, r.offset, .duplicate⟩ f.report
  else
    { s with assertions := s.assertions.orderedInsert AssertionEntry.upTo ⟨j, r.offset, number⟩ }

def deleteEntry (assertions : List (AssertionEntry n)) (j : Fin n) (offset : BitVec 64) :
    List (AssertionEntry n) :=
  assertions.filter fun e => ¬ (e.context = j ∧ e.offset = offset)

/-- The capability is the one for assertions. A missing entry is no error. -/
def dispatchBlockAssertionCancel (s : Service n) (j : Fin n) (number : ℕ) (r : Request)
    (f : Faults n) : Service n :=
  if (s.caps j).getLsbD capBlockAssertion = false then
    finish s j number ⟨.blockAssertionCancel, r.offset, .notAuthorized⟩ f.report
  else if r.payload.length ≠ 0 then
    finish s j number ⟨.blockAssertionCancel, r.offset, .malformedRequest⟩ f.report
  else
    finish { s with assertions := deleteEntry s.assertions j r.offset } j number
      (cancellation r.offset) f.report

def dispatch (s : Service n) (j : Fin n) (number : ℕ) (r : Request) (f : Faults n) : Service n :=
  match r.method with
  | .reduceCaps => dispatchReduceCaps s j number r f
  | .blockUpdate => dispatchBlockUpdate s j number r f
  | .blockAssertion => dispatchBlockAssertion s j number r f
  | .blockAssertionCancel => dispatchBlockAssertionCancel s j number r f
  | .other code => finish s j number ⟨.other code, r.offset, .invalidRequestId⟩ f.report

/-- A block update up to its next send. The endpoint is found through the context of the entry. -/
def notify (s : Service n) (j : Fin n) (number : ℕ) (offset : BitVec 64) (f : Faults n) :
    List (AssertionEntry n) → Service n
  | [] => finish s j number ⟨.blockUpdate, offset, .success⟩ f.report
  | e :: rest =>
    if s.fiber e.context = .released then { s with dangling := true }
    else if f.send then finish s j number ⟨.blockUpdate, offset, .sendFailure⟩ f.report
    else { s with
      log := s.log ++ [.response e.context (invalidation e.offset) e.request number]
      fiber := Function.update s.fiber j (.notifying number offset rest) }

/-! ### Runs -/

/-- The fiber of an instance reads a request, goes on with its block update, or leaves its loop
because its socket was closed, a packet was too short, or the service quiesces. -/
inductive Action (n : ℕ) where
  | request (j : Fin n) (r : Request) (f : Faults n)
  | resume (j : Fin n) (f : Faults n)
  | close (j : Fin n)

def step (s : Service n) (a : Action n) : Option (Service n) :=
  if s.dangling then none
  else match a with
    | .request j r f =>
      if s.fiber j = .reading then some (dispatch (arrive s j r) j s.clock r f) else none
    | .resume j f =>
      match s.fiber j with
      | .notifying number offset rest => some (notify s j number offset f rest)
      | _ => none
    | .close j =>
      if s.fiber j = .reading then some { s with fiber := Function.update s.fiber j .released }
      else none

inductive Run (allowed : Service n → Action n → Prop) : Service n → Prop
  | start : Run allowed (serviceCreate n)
  | tail {s t : Service n} {a : Action n} (before : Run allowed s) (meets : allowed s a)
      (taken : step s a = some t) : Run allowed t

def play (check : Service n → Action n → Bool) (s : Service n) (as : List (Action n)) :
    Option (Service n) :=
  as.foldlM (fun s a => if check s a then step s a else none) s

theorem run_of_play {check : Service n → Action n → Bool} {allowed : Service n → Action n → Prop}
    (hcheck : ∀ s a, check s a = true → allowed s a) {s t : Service n} {as : List (Action n)}
    (hs : Run allowed s) (h : play check s as = some t) : Run allowed t := by
  induction as generalizing s with
  | nil =>
    cases h
    exact hs
  | cons a as ih =>
    rw [play, List.foldlM_cons] at h
    obtain ⟨u, hu, hrest⟩ := Option.bind_eq_some_iff.mp h
    split at hu
    · rename_i hc
      exact ih (hs.tail (hcheck _ _ hc) hu) hrest
    · cases hu

def Live (s : Service n) (e : AssertionEntry n) : Prop :=
  e ∈ s.assertions ∨ ∃ j, e ∈ (s.fiber j).rest

/-! ### What a step can do -/

inductive Move (s : Service n) : Action n → Service n → Prop
  | refuses {j : Fin n} {r : Request} {f : Faults n} {status : NotificationStatus}
      (hfiber : s.fiber j = .reading) (hstatus : status ≠ .success) :
    Move s (.request j r f)
      (finish (arrive s j r) j s.clock ⟨r.method, r.offset, status⟩ f.report)
  | reduces {j : Fin n} {r : Request} {f : Faults n} (caps : Fin n → BitVec 32)
      (hfiber : s.fiber j = .reading) (hmethod : r.method = .reduceCaps) :
    Move s (.request j r f)
      (finish { arrive s j r with caps := caps } j s.clock ⟨.reduceCaps, r.offset, .success⟩
        f.report)
  | swapFails {j : Fin n} {r : Request} {f : Faults n} (hfiber : s.fiber j = .reading)
      (hmethod : r.method = .blockUpdate) (hswap : f.swap ≠ .none) :
    Move s (.request j r f)
      (finish { arrive s j r with
        latestBlockId := bits 128 r.payload
        assertions := keptAssertions s.assertions f.swap } j s.clock
        ⟨.blockUpdate, r.offset, .outOfMemory⟩ f.report)
  | takes {j : Fin n} {r : Request} {f : Faults n} (hfiber : s.fiber j = .reading)
      (hmethod : r.method = .blockUpdate) :
    Move s (.request j r f) { arrive s j r with
      latestBlockId := bits 128 r.payload
      assertions := []
      fiber := Function.update s.fiber j (.notifying s.clock r.offset s.assertions) }
  | invalidates {j : Fin n} {r : Request} {f : Faults n} (hfiber : s.fiber j = .reading)
      (hmethod : r.method = .blockAssertion) (hother : bits 128 r.payload ≠ s.latestBlockId) :
    Move s (.request j r f)
      (finish (arrive s j r) j s.clock (invalidation r.offset) f.report)
  | waits {j : Fin n} {r : Request} {f : Faults n} (hfiber : s.fiber j = .reading)
      (hmethod : r.method = .blockAssertion) (hlatest : bits 128 r.payload = s.latestBlockId)
      (hfree : ∀ e ∈ s.assertions, ¬ (e.context = j ∧ e.offset = r.offset)) :
    Move s (.request j r f) { arrive s j r with
      assertions := s.assertions.orderedInsert AssertionEntry.upTo ⟨j, r.offset, s.clock⟩ }
  | cancels {j : Fin n} {r : Request} {f : Faults n} (hfiber : s.fiber j = .reading)
      (hmethod : r.method = .blockAssertionCancel)
      (hcap : (s.caps j).getLsbD capBlockAssertion = true) (hpayload : r.payload.length = 0) :
    Move s (.request j r f)
      (finish { arrive s j r with assertions := deleteEntry s.assertions j r.offset } j s.clock
        (cancellation r.offset) f.report)
  | finishes {j : Fin n} {f : Faults n} {number : ℕ} {offset : BitVec 64}
      (hfiber : s.fiber j = .notifying number offset []) :
    Move s (.resume j f) (finish s j number ⟨.blockUpdate, offset, .success⟩ f.report)
  | dangles {j : Fin n} {f : Faults n} {number : ℕ} {offset : BitVec 64} {e : AssertionEntry n}
      {rest : List (AssertionEntry n)} (hfiber : s.fiber j = .notifying number offset (e :: rest))
      (hreleased : s.fiber e.context = .released) :
    Move s (.resume j f) { s with dangling := true }
  | sendFails {j : Fin n} {f : Faults n} {number : ℕ} {offset : BitVec 64}
      {e : AssertionEntry n} {rest : List (AssertionEntry n)}
      (hfiber : s.fiber j = .notifying number offset (e :: rest)) (hsend : f.send = true) :
    Move s (.resume j f) (finish s j number ⟨.blockUpdate, offset, .sendFailure⟩ f.report)
  | reaches {j : Fin n} {f : Faults n} {number : ℕ} {offset : BitVec 64}
      {e : AssertionEntry n} {rest : List (AssertionEntry n)}
      (hfiber : s.fiber j = .notifying number offset (e :: rest))
      (halive : s.fiber e.context ≠ .released) :
    Move s (.resume j f) { s with
      log := s.log ++ [.response e.context (invalidation e.offset) e.request number]
      fiber := Function.update s.fiber j (.notifying number offset rest) }
  | closes {j : Fin n} (hfiber : s.fiber j = .reading) :
    Move s (.close j) { s with fiber := Function.update s.fiber j .released }

section Steps

variable {s t : Service n} {a : Action n} {j : Fin n} {r : Request} {f : Faults n}

theorem entryOf_eq_none (h : ¬ (entryOf s j r.offset).isSome = true) :
    ∀ e ∈ s.assertions, ¬ (e.context = j ∧ e.offset = r.offset) := by
  intro e he hkey
  rw [entryOf, List.find?_isSome] at h
  exact h ⟨e, he, by simpa using hkey⟩

theorem dispatchReduceCaps_move (hfiber : s.fiber j = .reading) (hmethod : r.method = .reduceCaps) :
    Move s (.request j r f) (dispatchReduceCaps (arrive s j r) j s.clock r f) := by
  unfold dispatchReduceCaps
  rw [← hmethod]
  split
  · exact .refuses hfiber (by decide)
  · split
    · exact .refuses hfiber (by decide)
    · rw [hmethod]
      exact .reduces _ hfiber hmethod

theorem dispatchBlockUpdate_move (hfiber : s.fiber j = .reading)
    (hmethod : r.method = .blockUpdate) :
    Move s (.request j r f) (dispatchBlockUpdate (arrive s j r) j s.clock r f) := by
  unfold dispatchBlockUpdate
  split
  · rw [← hmethod]
    exact .refuses hfiber (by decide)
  · split
    · rw [← hmethod]
      exact .refuses hfiber (by decide)
    · split
      · rename_i hswap
        exact .swapFails hfiber hmethod hswap
      · exact .takes hfiber hmethod

theorem dispatchBlockAssertion_move (hfiber : s.fiber j = .reading)
    (hmethod : r.method = .blockAssertion) :
    Move s (.request j r f) (dispatchBlockAssertion (arrive s j r) j s.clock r f) := by
  have hrefuses : ∀ status, status ≠ .success → Move s (.request j r f)
      (finish (arrive s j r) j s.clock ⟨.blockAssertion, r.offset, status⟩ f.report) := by
    intro status hstatus
    rw [← hmethod]
    exact .refuses hfiber hstatus
  unfold dispatchBlockAssertion
  split
  · exact hrefuses _ (by decide)
  · split
    · exact hrefuses _ (by decide)
    · split
      · rename_i hother
        exact .invalidates hfiber hmethod hother
      · rename_i hlatest
        split
        · exact hrefuses _ (by decide)
        · split
          · exact hrefuses _ (by decide)
          · rename_i hfree
            exact .waits hfiber hmethod (not_not.mp hlatest) (entryOf_eq_none hfree)

theorem dispatchBlockAssertionCancel_move (hfiber : s.fiber j = .reading)
    (hmethod : r.method = .blockAssertionCancel) :
    Move s (.request j r f) (dispatchBlockAssertionCancel (arrive s j r) j s.clock r f) := by
  unfold dispatchBlockAssertionCancel
  split
  · rw [← hmethod]
    exact .refuses hfiber (by decide)
  · rename_i hcap
    split
    · rw [← hmethod]
      exact .refuses hfiber (by decide)
    · rename_i hpayload
      exact .cancels hfiber hmethod (Bool.eq_true_of_not_eq_false hcap) (not_not.mp hpayload)

theorem dispatch_move (hfiber : s.fiber j = .reading) :
    Move s (.request j r f) (dispatch (arrive s j r) j s.clock r f) := by
  unfold dispatch
  cases hmethod : r.method with
  | reduceCaps => exact dispatchReduceCaps_move hfiber hmethod
  | blockUpdate => exact dispatchBlockUpdate_move hfiber hmethod
  | blockAssertion => exact dispatchBlockAssertion_move hfiber hmethod
  | blockAssertionCancel => exact dispatchBlockAssertionCancel_move hfiber hmethod
  | other code =>
    simp only [← hmethod]
    exact .refuses hfiber (by decide)

theorem notify_move {number : ℕ} {offset : BitVec 64} {rest : List (AssertionEntry n)}
    (hfiber : s.fiber j = .notifying number offset rest) :
    Move s (.resume j f) (notify s j number offset f rest) := by
  cases rest with
  | nil => exact .finishes hfiber
  | cons e rest =>
    rw [notify]
    split
    · rename_i hreleased
      exact .dangles hfiber hreleased
    · rename_i halive
      split
      · rename_i hsend
        exact .sendFails hfiber hsend
      · exact .reaches hfiber halive

theorem step_move (h : step s a = some t) : s.dangling = false ∧ Move s a t := by
  unfold step at h
  split at h
  · cases h
  · rename_i hdangling
    refine ⟨by simpa using hdangling, ?_⟩
    cases a with
    | request j r f =>
      simp only at h
      split at h
      · rename_i hfiber
        cases h
        exact dispatch_move hfiber
      · cases h
    | resume j f =>
      simp only at h
      split at h
      · rename_i number offset rest hfiber
        cases h
        exact notify_move hfiber
      · cases h
    | close j =>
      simp only at h
      split at h
      · rename_i hfiber
        cases h
        exact .closes hfiber
      · cases h

end Steps

end NotificationFibers
