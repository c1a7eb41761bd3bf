import Agentd.ProcessControl
import Agentd.TransitionRuns
import Mathlib.Data.List.TakeWhile

/-! # The supervisor

The supervisor has other processes read its files, creates a record for each service, starts the
services one after the other, waits for a signal, stops them again and starts all over. Whatever
fails on the way jumps to a label, from where the clean-up falls through to the end. -/
namespace Supervision

open ProcessControl
open TransitionRuns

/-! ### Services -/

inductive Service where
  | randomService
  | randomForCanonizationservice
  | listenerService
  | dataForAuthProtocolService
  | notificationService
  | protocolService
  | dataForCanonizationservice
  | canonizationservice
  | dataForAttestationservice
  | attestationservice
  deriving DecidableEq

/-- How the start of a service goes: there is no child, since a call before the fork or the fork
itself fails, or there is one, and the requests that configure it all succeed or one fails. -/
inductive StartOutcome where
  | beforeFork
  | forkFailed
  | forked (pid : ℤ) (configured : Bool)

def StartOutcome.pid : StartOutcome → Option ℤ
  | .beforeFork => none
  | .forkFailed => none
  | .forked pid _ => some pid

abbrev Supervisor := World Service

/-! ### Reading the files -/

/-- How the reading of a file goes: there is no child, or there is one, with which the supervisor
exchanges all messages or fails to. What is read is accepted or not, by the exit status of the child
and the checks behind. -/
inductive ReaderOutcome where
  | beforeFork
  | forkFailed
  | forked (pid : ℤ) (exchanged accepted : Bool)

def ReaderOutcome.pid : ReaderOutcome → Option ℤ
  | .beforeFork => none
  | .forkFailed => none
  | .forked pid _ _ => some pid

/-- `config_read_proc`, `config_read_public_entities_proc` and `config_read_private_key_proc`, and
whether they succeed. Where an exchange fails they leave without waiting for the child. -/
def readProc (o : ReaderOutcome) (w : Supervisor) : Supervisor × Bool :=
  match o with
  | .beforeFork => (w, false)
  | .forkFailed => (w, false)
  | .forked pid false _ => (forkChild w pid, false)
  | .forked pid true accepted => (waitpid (forkChild w pid) pid, accepted)

/-- One file after the other, up to the first failure. -/
def readAll : List ReaderOutcome → Supervisor → Supervisor × Bool
  | [], w => (w, true)
  | r :: rest, w =>
    match readProc r w with
    | (w, true) => readAll rest w
    | (w, false) => (w, false)

/-! ### Starting a service -/

/-- The start of the random service, the listener, the notification service and the attestation
service, which are not configured. -/
def supervisorStartPlain (s : Service) (o : StartOutcome) (w : Supervisor) :
    Supervisor × ProcessStatus :=
  match o with
  | .beforeFork => (w, .failure)
  | .forkFailed => (forkFails w s, .failure)
  | .forked pid _ => (fork w s pid, .success)

def terminateProc (w : Supervisor) (s : Service) : Supervisor :=
  (processKill (processStop (setRunning w s true) s).1 s).1

/-- `supervisor_start_data_service` and `supervisor_start_canonizationservice`. -/
def supervisorStartConfigured (s : Service) (o : StartOutcome) (w : Supervisor) :
    Supervisor × ProcessStatus :=
  match o with
  | .beforeFork => (w, .failure)
  | .forkFailed => (forkFails w s, .failure)
  | .forked pid true => (fork w s pid, .success)
  | .forked pid false => (terminateProc (fork w s pid) s, .failure)

/-- `supervisor_start_protocol_service`, which has no `terminate_proc`. -/
def supervisorStartProtocolService (s : Service) (o : StartOutcome) (w : Supervisor) :
    Supervisor × ProcessStatus :=
  match o with
  | .beforeFork => (w, .failure)
  | .forkFailed => (forkFails w s, .failure)
  | .forked pid true => (fork w s pid, .success)
  | .forked pid false => (fork w s pid, .failure)

def initMethod (s : Service) : StartOutcome → Supervisor → Supervisor × ProcessStatus :=
  match s with
  | .dataForAuthProtocolService => supervisorStartConfigured s
  | .dataForCanonizationservice => supervisorStartConfigured s
  | .dataForAttestationservice => supervisorStartConfigured s
  | .canonizationservice => supervisorStartConfigured s
  | .protocolService => supervisorStartProtocolService s
  | _ => supervisorStartPlain s

/-! ### Disposing of a service -/

/-- The dispose method of every service but the notification service. -/
def supervisorDispose (w : Supervisor) (s : Service) : Supervisor :=
  if (w.proc s).running = true then (processKill (processStop w s).1 s).1 else w

/-- Only the sockets are closed before the record is wiped. -/
def supervisorDisposeNotificationService (w : Supervisor) (s : Service) : Supervisor :=
  setProcess w s newProcess

def disposeMethod (w : Supervisor) (s : Service) : Supervisor :=
  match s with
  | .notificationService => supervisorDisposeNotificationService w s
  | _ => supervisorDispose w s

/-! ### A run of the supervisor -/

inductive Label where
  | quiesceDataProcesses
  | cleanup (s : Service)
  /-- There is no process to be cleaned up. -/
  | cleanupPrivateKey

def cleanupOrder : List Service :=
  [.attestationservice, .dataForAttestationservice, .canonizationservice,
    .dataForCanonizationservice, .protocolService, .notificationService,
    .dataForAuthProtocolService, .listenerService,
    .randomForCanonizationservice, .randomService]

def cleanupFrom (w : Supervisor) (s : Service) : Supervisor :=
  (cleanupOrder.dropWhile (· ≠ s)).foldl disposeMethod w

def dataServices : List Service :=
  [.dataForCanonizationservice, .dataForAuthProtocolService, .dataForAttestationservice]

def jump (w : Supervisor) : Label → Supervisor
  | .quiesceDataProcesses => cleanupFrom (stopAll w dataServices) .attestationservice
  | .cleanup s => cleanupFrom w s
  | .cleanupPrivateKey => w

/-- The services in the order in which they are created, with the label for a failure. -/
def creations : List (Service × Label) :=
  [(.randomService, .cleanupPrivateKey),
    (.randomForCanonizationservice, .cleanup .randomService),
    (.listenerService, .cleanup .randomForCanonizationservice),
    (.dataForAuthProtocolService, .cleanup .listenerService),
    (.notificationService, .cleanup .dataForAuthProtocolService),
    (.protocolService, .cleanup .notificationService),
    (.dataForCanonizationservice, .cleanup .protocolService),
    (.canonizationservice, .cleanup .dataForCanonizationservice),
    (.dataForAttestationservice, .cleanup .canonizationservice),
    (.attestationservice, .cleanup .dataForAttestationservice)]

/-- The services in the order in which they are started, with the label for a failure. -/
def starts : List (Service × Label) :=
  [(.randomService, .cleanup .attestationservice),
    (.randomForCanonizationservice, .cleanup .attestationservice),
    (.dataForCanonizationservice, .cleanup .attestationservice),
    (.dataForAttestationservice, .quiesceDataProcesses),
    (.dataForAuthProtocolService, .quiesceDataProcesses),
    (.listenerService, .quiesceDataProcesses),
    (.notificationService, .quiesceDataProcesses),
    (.protocolService, .quiesceDataProcesses),
    (.canonizationservice, .quiesceDataProcesses),
    (.attestationservice, .quiesceDataProcesses)]

structure RunOutcome where
  configRead : ReaderOutcome
  publicEntitiesRead : ReaderOutcome
  /-- None where the config names no private key. -/
  privateKeyRead : Option ReaderOutcome
  logSockets : Bool
  created : Service → Bool
  started : Service → StartOutcome
  /-- A signal to terminate comes at some time. -/
  terminated : Bool

def RunOutcome.readers (o : RunOutcome) : List ReaderOutcome :=
  [o.configRead, o.publicEntitiesRead] ++ o.privateKeyRead.toList

def createAll (o : RunOutcome) : List (Service × Label) → Supervisor → Supervisor × Option Label
  | [], w => (w, none)
  | (s, label) :: rest, w =>
    if o.created s = true then createAll o rest (setProcess w s newProcess) else (w, some label)

def startAll (o : RunOutcome) : List (Service × Label) → Supervisor → Supervisor × Option Label
  | [], w => (w, none)
  | (s, label) :: rest, w =>
    match processStart (initMethod s (o.started s)) w s with
    | (w, .success) => startAll o rest w
    | (w, _) => (w, some label)

def higherServices : List Service :=
  [.listenerService, .protocolService, .canonizationservice, .attestationservice,
    .notificationService]

def randomServices : List Service := [.randomForCanonizationservice, .randomService]

def shutDown (w : Supervisor) : Supervisor :=
  killAll (stopAll (stopAll w higherServices) randomServices) higherServices

/-- `supervisor_run`, and whether it succeeds. -/
def supervisorRun (o : RunOutcome) (w : Supervisor) : Supervisor × Bool :=
  match readAll o.readers w with
  | (w, false) => (w, false)
  | (w, true) =>
    if o.logSockets = false then (jump w .cleanupPrivateKey, false)
    else
      match createAll o creations w with
      | (w, some label) => (jump w label, false)
      | (w, none) =>
        match startAll o starts w with
        | (w, some label) => (jump w label, false)
        | (w, none) => (jump (shutDown w) .quiesceDataProcesses, true)

/-! ### The supervisor from run to run -/

structure State where
  world : Supervisor
  keepRunning : Bool

def installed : State := ⟨⟨fun _ => newProcess, [], []⟩, true⟩

def forkedPids (o : RunOutcome) : List ℤ :=
  (starts.map Prod.fst).filterMap fun s => (o.started s).pid

/-- The process ids that forks return are positive and those of no other child. A reader is no
longer a child when the next one is forked. -/
def Fresh (o : RunOutcome) (w : Supervisor) : Prop :=
  (forkedPids o).Nodup ∧
    ∀ p ∈ o.readers.filterMap ReaderOutcome.pid ++ forkedPids o, 0 < p ∧ p ∉ w.children

instance (o : RunOutcome) (w : Supervisor) : Decidable (Fresh o w) :=
  inferInstanceAs (Decidable (_ ∧ _))

/-- One turn of the loop in `private_command_supervisor`. -/
def step (s : State) (o : RunOutcome) : Option State :=
  if s.keepRunning = true ∧ Fresh o s.world then
    some ⟨(supervisorRun o s.world).1, (supervisorRun o s.world).2 && !o.terminated⟩
  else none

/-! ### What is left behind -/

def ReaderOutcome.succeeds : ReaderOutcome → Bool
  | .forked _ exchanged accepted => exchanged && accepted
  | _ => false

def ReaderOutcome.left : ReaderOutcome → List ℤ
  | .forked pid false _ => [pid]
  | _ => []

def leftByReaders : List ReaderOutcome → List ℤ
  | [] => []
  | r :: rest => if r.succeeds = true then leftByReaders rest else r.left

def isConfigured : Service → Bool
  | .dataForAuthProtocolService => true
  | .dataForCanonizationservice => true
  | .dataForAttestationservice => true
  | .canonizationservice => true
  | .protocolService => true
  | _ => false

def startSucceeds (o : RunOutcome) (s : Service) : Bool :=
  match o.started s with
  | .forked _ configured => configured || !isConfigured s
  | _ => false

def failingStart (o : RunOutcome) : Option Service :=
  (starts.map Prod.fst).find? fun s => !startSucceeds o s

def isPrepared (o : RunOutcome) : Bool :=
  o.readers.all ReaderOutcome.succeeds && o.logSockets && (creations.map Prod.fst).all o.created

/-- The child of a reader with which the exchange fails is forgotten, and so is that of a protocol
service that could not be configured, and that of the notification service when one of the services
after it does not start. -/
def leaked (o : RunOutcome) : List ℤ :=
  if isPrepared o = true then
    match failingStart o with
    | some .protocolService =>
      (o.started .protocolService).pid.toList ++ (o.started .notificationService).pid.toList
    | some .canonizationservice => (o.started .notificationService).pid.toList
    | some .attestationservice => (o.started .notificationService).pid.toList
    | _ => []
  else leftByReaders o.readers

variable {w : Supervisor} {s t : Service} {o : RunOutcome} {orphans : List ℤ}

/-! ### Reading -/

def readEvents (r : ReaderOutcome) : List ProcessEvent :=
  match r.pid with
  | some pid => [.forked pid, .waited pid]
  | none => []

theorem readProc_owned {r : ReaderOutcome} (hw : Owned w [])
    (hfresh : ∀ pid, r.pid = some pid → 0 < pid ∧ pid ∉ w.children) :
    Owned (readProc r w).1 r.left ∧ (readProc r w).1.proc = w.proc ∧ (readProc r w).2 = r.succeeds ∧
      (r.succeeds = true → (readProc r w).1.children = w.children ∧
        (readProc r w).1.events = w.events ++ readEvents r) := by
  cases r with
  | beforeFork => exact ⟨hw, rfl, rfl, fun h => by cases h⟩
  | forkFailed => exact ⟨hw, rfl, rfl, fun h => by cases h⟩
  | forked pid exchanged accepted =>
    obtain ⟨hpositive, hnew⟩ := hfresh pid rfl
    have hforked := hw.forkChild hpositive hnew
    cases exchanged with
    | false => exact ⟨hforked, rfl, rfl, fun h => by cases h⟩
    | true =>
      refine ⟨hforked.reap List.not_mem_nil, rfl, rfl, fun _ => ⟨?_, ?_⟩⟩
      · exact List.erase_cons_head ..
      · exact List.append_assoc _ _ _

/-- What the readers leave: nothing when all succeed, else the child of the one that fails. -/
theorem readAll_owned {l : List ReaderOutcome} (hw : Owned w [])
    (hfresh : ∀ p ∈ l.filterMap ReaderOutcome.pid, 0 < p ∧ p ∉ w.children) :
    Owned (readAll l w).1 (leftByReaders l) ∧ (readAll l w).1.proc = w.proc ∧
      (readAll l w).2 = l.all ReaderOutcome.succeeds ∧
      ((readAll l w).2 = true → (readAll l w).1.children = w.children ∧
        (readAll l w).1.events = w.events ++ l.flatMap readEvents) := by
  induction l generalizing w with
  | nil => exact ⟨hw, rfl, rfl, fun _ => ⟨rfl, (List.append_nil _).symm⟩⟩
  | cons r l ih =>
    obtain ⟨howned, hproc, hstatus, hkept⟩ := readProc_owned (r := r) hw fun pid hpid =>
      hfresh pid (List.mem_filterMap.mpr ⟨r, List.mem_cons_self, hpid⟩)
    rw [readAll, leftByReaders, List.all_cons]
    generalize readProc r w = x at *
    obtain ⟨w', status⟩ := x
    obtain rfl : status = r.succeeds := hstatus
    cases hsucceeds : r.succeeds with
    | false =>
      rw [if_neg (by decide)]
      exact ⟨howned, hproc, rfl, fun h => by cases h⟩
    | true =>
      obtain ⟨hchildren, hevents⟩ := hkept hsucceeds
      have hleft : r.left = [] := by
        cases r with
        | forked pid exchanged accepted => cases exchanged <;> first | rfl | cases hsucceeds
        | _ => rfl
      rw [hleft] at howned
      obtain ⟨howned', hproc', hstatus', hkept'⟩ := ih (w := w') howned fun p hp => by
        rw [show w'.children = w.children from hchildren]
        obtain ⟨r', hr', hpid⟩ := List.mem_filterMap.mp hp
        exact hfresh p (List.mem_filterMap.mpr ⟨r', List.mem_cons_of_mem _ hr', hpid⟩)
      rw [if_pos rfl, Bool.true_and]
      refine ⟨howned', hproc'.trans hproc, hstatus', fun h => ?_⟩
      obtain ⟨hchildren', hevents'⟩ := hkept' h
      refine ⟨hchildren'.trans hchildren, ?_⟩
      rw [hevents', show w'.events = w.events ++ readEvents r from hevents, List.flatMap_cons,
        List.append_assoc]

theorem leftByReaders_succeed {l : List ReaderOutcome} (h : l.all ReaderOutcome.succeeds = true) :
    leftByReaders l = [] := by
  induction l with
  | nil => rfl
  | cons r l ih =>
    obtain ⟨hr, hl⟩ := Bool.and_eq_true_iff.mp (List.all_cons ▸ h)
    rw [leftByReaders, if_pos hr, ih hl]

/-! ### Disposing -/

theorem supervisorDispose_eq (w : Supervisor) (s : Service) :
    supervisorDispose w s = (processStop w s).1 := by
  rw [supervisorDispose]
  split
  · refine processKill_idle ?_
    rw [processStop_proc, if_pos rfl]
  · rename_i h
    rw [processStop, if_pos (by simpa using h)]

def forgotten (w : Supervisor) (l : List Service) : List ℤ :=
  if .notificationService ∈ l ∧ (w.proc .notificationService).running = true then
    [(w.proc .notificationService).processId]
  else []

theorem disposeNotification_running :
    ((supervisorDisposeNotificationService w s).proc t).running = true ↔
      t ≠ s ∧ (w.proc t).running = true := by
  rw [supervisorDisposeNotificationService, setProcess_proc]
  split
  · rename_i heq
    simp [heq, newProcess]
  · rename_i hne
    simp [hne]

theorem disposeMethod_running :
    ((disposeMethod w s).proc t).running = true ↔ t ≠ s ∧ (w.proc t).running = true := by
  cases s with
  | notificationService => exact disposeNotification_running
  | _ =>
    simp only [disposeMethod, supervisorDispose_eq]
    exact processStop_running

theorem dispose_running (l : List Service) :
    ((l.foldl disposeMethod w).proc t).running = true ↔ t ∉ l ∧ (w.proc t).running = true := by
  induction l generalizing w with
  | nil => simp
  | cons s l ih =>
    rw [List.foldl_cons, List.mem_cons, not_or]
    refine ih.trans ?_
    rw [disposeMethod_running]
    exact ⟨fun ⟨hl, hs, h⟩ => ⟨⟨hs, hl⟩, h⟩, fun ⟨⟨hs, hl⟩, h⟩ => ⟨hl, hs, h⟩⟩

theorem disposeMethod_eq (h : s ≠ .notificationService) :
    disposeMethod w s = (processStop w s).1 := by
  rw [← supervisorDispose_eq]
  cases s with
  | notificationService => exact absurd rfl h
  | _ => rfl

theorem forgotten_idle (h : (w.proc .notificationService).running = false) (l : List Service) :
    forgotten w l = [] := if_neg fun hboth => by rw [h] at hboth; exact absurd hboth.2 (by decide)

theorem forgotten_stop (h : s ≠ .notificationService) (l : List Service) :
    forgotten (processStop w s).1 l = forgotten w (s :: l) := by
  have hproc : (processStop w s).1.proc .notificationService = w.proc .notificationService := by
    rw [processStop_proc, if_neg h.symm]
  simp only [forgotten, hproc, List.mem_cons, h.symm, false_or]

/-- Only the notification service is not stopped. -/
theorem dispose_owned (hw : Owned w orphans) (l : List Service) :
    Owned (l.foldl disposeMethod w) (forgotten w l ++ orphans) := by
  induction l generalizing w orphans with
  | nil => exact hw
  | cons s l ih =>
    rw [List.foldl_cons]
    by_cases hs : s = .notificationService
    · subst hs
      have hidle : forgotten (setProcess w .notificationService newProcess) l = [] :=
        forgotten_idle (by rw [setProcess_proc, if_pos rfl, newProcess]) l
      cases hrunning : (w.proc .notificationService).running with
      | false =>
        have hrest := ih (hw.idle (p := newProcess) hrunning rfl)
        rw [forgotten_idle hrunning]
        rwa [hidle] at hrest
      | true =>
        have hrest := ih (hw.abandon hrunning)
        have hforgotten : forgotten w (.notificationService :: l) =
            [(w.proc .notificationService).processId] := if_pos ⟨List.mem_cons_self, hrunning⟩
        rw [hforgotten]
        rwa [hidle] at hrest
    · rw [disposeMethod_eq hs, ← forgotten_stop hs]
      exact ih (hw.stop s)

/-! ### Jumps -/

theorem cleanupFrom_eq (w : Supervisor) :
    cleanupFrom w .attestationservice = cleanupOrder.foldl disposeMethod w := rfl

theorem mem_cleanupOrder (s : Service) : s ∈ cleanupOrder := by
  cases s with
  | _ => decide

/-- Nothing runs once everything was disposed of, and the notification service is forgotten. -/
theorem cleanup_all (hw : Owned w orphans) :
    Owned (cleanupFrom w .attestationservice) (forgotten w cleanupOrder ++ orphans) ∧
      ∀ s, ((cleanupFrom w .attestationservice).proc s).running = false := by
  rw [cleanupFrom_eq]
  refine ⟨dispose_owned hw cleanupOrder, fun s => ?_⟩
  rw [Bool.eq_false_iff]
  intro h
  exact ((dispose_running cleanupOrder).mp h).1 (mem_cleanupOrder s)

theorem forgotten_stopAll {l : List Service} (h : .notificationService ∉ l) (l' : List Service) :
    forgotten (stopAll w l) l' = forgotten w l' := by
  induction l generalizing w with
  | nil => rfl
  | cons s l ih =>
    have hs : s ≠ .notificationService := fun heq => h (heq ▸ List.mem_cons_self)
    have hproc : (processStop w s).1.proc .notificationService = w.proc .notificationService := by
      rw [processStop_proc, if_neg hs.symm]
    refine (ih fun hmem => h (List.mem_cons_of_mem _ hmem)).trans ?_
    simp only [forgotten, hproc]

theorem quiesce_all (hw : Owned w orphans) :
    Owned (jump w .quiesceDataProcesses) (forgotten w cleanupOrder ++ orphans) ∧
      ∀ s, ((jump w .quiesceDataProcesses).proc s).running = false := by
  have hall := cleanup_all (hw.stopAll dataServices)
  rw [forgotten_stopAll (by decide)] at hall
  exact hall

/-- A clean-up when nothing runs. -/
theorem jump_idle (hw : Owned w orphans) (h : ∀ s, (w.proc s).running = false) (label : Label) :
    Owned (jump w label) orphans ∧ ∀ s, ((jump w label).proc s).running = false := by
  have hkept : ∀ {v : Supervisor} (l : List Service), (∀ s, (v.proc s).running = false) →
      ∀ s, ((l.foldl disposeMethod v).proc s).running = false := by
    intro v l hv s
    rw [Bool.eq_false_iff]
    intro hs
    exact absurd (hv s) (by rw [((dispose_running l).mp hs).2]; decide)
  cases label with
  | cleanupPrivateKey => exact ⟨hw, h⟩
  | cleanup s =>
    have hdisposed := dispose_owned hw (cleanupOrder.dropWhile (· ≠ s))
    rw [forgotten_idle (h _)] at hdisposed
    exact ⟨hdisposed, hkept _ h⟩
  | quiesceDataProcesses =>
    have hquiesced := quiesce_all hw
    rw [forgotten_idle (h _)] at hquiesced
    exact hquiesced

/-! ### Creating and starting -/

theorem createAll_owned (l : List (Service × Label)) (hw : Owned w orphans)
    (h : ∀ s, (w.proc s).running = false) :
    Owned (createAll o l w).1 orphans ∧ (∀ s, ((createAll o l w).1.proc s).running = false) ∧
      (createAll o l w).1.children = w.children ∧ (createAll o l w).1.events = w.events ∧
      ((createAll o l w).2 = none ↔ (l.map Prod.fst).all o.created = true) := by
  induction l generalizing w with
  | nil => exact ⟨hw, h, rfl, rfl, by simp [createAll]⟩
  | cons x l ih =>
    obtain ⟨s, label⟩ := x
    rw [createAll]
    split
    · rename_i hcreated
      have hidle : ∀ t, ((setProcess w s newProcess).proc t).running = false := by
        intro t
        rw [setProcess_proc]
        split
        · rfl
        · exact h t
      obtain ⟨howned, hrunning, hchildren, hevents, hnone⟩ :=
        ih (hw.idle (p := newProcess) (h s) rfl) hidle
      refine ⟨howned, hrunning, hchildren, hevents, hnone.trans ?_⟩
      simp [hcreated]
    · rename_i hcreated
      exact ⟨hw, h, rfl, rfl, by simp [hcreated]⟩

structure Running (o : RunOutcome) (l : List Service) (w : Supervisor) (orphans : List ℤ) :
    Prop where
  owned : Owned w orphans
  running : ∀ s, (w.proc s).running = true ↔ s ∈ l
  pid : ∀ s ∈ l, (o.started s).pid = some (w.proc s).processId

variable {l : List Service} {pid : ℤ}

theorem Running.idle (hw : Running o l w orphans) (h : s ∉ l) : (w.proc s).running = false := by
  rw [Bool.eq_false_iff]
  exact fun hs => h ((hw.running s).mp hs)

theorem fork_proc : (fork w s pid).proc t =
    if t = s then { w.proc s with processId := pid } else w.proc t := setProcess_proc _

theorem Running.forkFails (hw : Running o l w orphans) (h : s ∉ l) :
    Running o l (forkFails w s) orphans := by
  have hproc : ∀ t ∈ l, (ProcessControl.forkFails w s).proc t = w.proc t := by
    intro t ht
    rw [ProcessControl.forkFails, setProcess_proc, if_neg fun heq : t = s => h (heq ▸ ht)]
  refine ⟨hw.owned.idle (hw.idle h) (hw.idle h), fun t => ?_, fun t ht => ?_⟩
  · rw [ProcessControl.forkFails, setProcess_proc]
    split
    · rename_i heq
      rw [heq]
      exact hw.running s
    · exact hw.running t
  · rw [hproc t ht]
    exact hw.pid t ht

theorem Running.fork (hw : Running o l w orphans) (h : s ∉ l) (hpositive : 0 < pid)
    (hfresh : pid ∉ w.children) : Running o l (fork w s pid) (pid :: orphans) := by
  refine ⟨hw.owned.fork (hw.idle h) hpositive hfresh, fun t => ?_, fun t ht => ?_⟩
  · rw [fork_proc]
    split
    · rename_i heq
      rw [heq]
      exact hw.running s
    · exact hw.running t
  · rw [fork_proc, if_neg fun heq : t = s => h (heq ▸ ht)]
    exact hw.pid t ht

theorem Running.start (hw : Running o l w orphans) (h : s ∉ l)
    (hpid : (o.started s).pid = some pid) (hpositive : 0 < pid) (hfresh : pid ∉ w.children) :
    Running o (s :: l) (setRunning (ProcessControl.fork w s pid) s true) orphans := by
  have hforked := hw.fork h hpositive hfresh
  have hrecord : ((ProcessControl.fork w s pid).proc s).processId = pid := by
    rw [fork_proc, if_pos rfl]
  have hnew : pid ∉ orphans := fun hmem => hfresh (hw.owned.orphan pid hmem).1
  refine ⟨?_, fun t => ?_, fun t ht => ?_⟩
  · refine Owned.adopt ?_ ?_ (hforked.idle h)
    · rw [hrecord]
      exact hforked.owned
    · rw [hrecord]
      exact hnew
  · rw [setRunning_proc, List.mem_cons]
    split
    · rename_i heq
      simp [heq]
    · rename_i hne
      rw [hforked.running t]
      exact ⟨Or.inr, fun hor => hor.resolve_left hne⟩
  · rw [setRunning_proc]
    split
    · rename_i heq
      rw [heq, hpid]
      exact congrArg some hrecord.symm
    · rename_i hne
      exact hforked.pid t ((List.mem_cons.mp ht).resolve_left hne)

/-- A child that cannot be configured is stopped, where the source has it. -/
theorem Running.terminate (hw : Running o l w orphans) (h : s ∉ l)
    (hpid : (o.started s).pid = some pid) (hpositive : 0 < pid) (hfresh : pid ∉ w.children) :
    Running o l (terminateProc (ProcessControl.fork w s pid) s) orphans := by
  have hstarted := hw.start h hpid hpositive hfresh
  have hidle : ((processStop
      (setRunning (ProcessControl.fork w s pid) s true) s).1.proc s).running =
      false := by rw [processStop_proc, if_pos rfl]
  rw [terminateProc, processKill_idle hidle]
  refine ⟨hstarted.owned.stop s, fun t => ?_, fun t ht => ?_⟩
  · rw [processStop_running, hstarted.running t, List.mem_cons]
    refine ⟨fun ⟨hne, hor⟩ => hor.resolve_left hne, fun ht => ⟨?_, Or.inr ht⟩⟩
    exact fun heq => h (heq ▸ ht)
  · have hne : t ≠ s := fun heq => h (heq ▸ ht)
    rw [processStop_proc, if_neg hne]
    exact hstarted.pid t (List.mem_cons_of_mem _ ht)

def leftByStart (o : RunOutcome) (s : Service) : List ℤ :=
  if s = .protocolService then (o.started s).pid.toList else []

/-- What the start of a service leaves. -/
theorem initMethod_cases (hw : Running o l w orphans) (h : s ∉ l)
    (hfresh : ∀ pid, (o.started s).pid = some pid → 0 < pid ∧ pid ∉ w.children) :
    (startSucceeds o s = true ∧ ∃ pid, (o.started s).pid = some pid ∧
        initMethod s (o.started s) w = (ProcessControl.fork w s pid, .success)) ∨
      (startSucceeds o s = false ∧ ∃ w', initMethod s (o.started s) w = (w', .failure) ∧
        Running o l w' (leftByStart o s ++ orphans)) := by
  cases hstarted : o.started s with
  | beforeFork =>
    refine Or.inr ⟨by rw [startSucceeds, hstarted], w, by cases s <;> rfl, ?_⟩
    have hnone : leftByStart o s = [] := by
      rw [leftByStart, hstarted]
      exact ite_self []
    rw [hnone]
    exact hw
  | forkFailed =>
    refine Or.inr ⟨by rw [startSucceeds, hstarted], forkFails w s, by cases s <;> rfl, ?_⟩
    have hnone : leftByStart o s = [] := by
      rw [leftByStart, hstarted]
      exact ite_self []
    rw [hnone]
    exact hw.forkFails h
  | forked pid configured =>
    have hpid : (o.started s).pid = some pid := by rw [hstarted]; rfl
    obtain ⟨hpositive, hnew⟩ := hfresh pid hpid
    have hsucceeds : startSucceeds o s = (configured || !isConfigured s) := by
      rw [startSucceeds, hstarted]
    cases configured with
    | true => exact Or.inl ⟨hsucceeds, pid, rfl, by cases s <;> rfl⟩
    | false =>
      cases hconfigured : isConfigured s with
      | false =>
        rw [hconfigured] at hsucceeds
        refine Or.inl ⟨hsucceeds, pid, rfl, ?_⟩
        revert hconfigured
        cases s with
        | randomService | randomForCanonizationservice | listenerService | notificationService
        | attestationservice => exact fun _ => rfl
        | _ => exact fun hconfigured => by cases hconfigured
      | true =>
        rw [hconfigured] at hsucceeds
        refine Or.inr ⟨hsucceeds, ?_⟩
        by_cases hs : s = .protocolService
        · refine ⟨ProcessControl.fork w s pid, by rw [hs]; rfl, ?_⟩
          rw [leftByStart, if_pos hs, hpid]
          exact hw.fork h hpositive hnew
        · refine ⟨terminateProc (ProcessControl.fork w s pid) s, ?_, ?_⟩
          · revert hconfigured hs
            cases s with
            | dataForAuthProtocolService | dataForCanonizationservice | dataForAttestationservice
            | canonizationservice => exact fun _ _ => rfl
            | protocolService => exact fun _ hs => absurd rfl hs
            | _ => exact fun hconfigured => by cases hconfigured
          · rw [leftByStart, if_neg hs]
            exact hw.terminate h hpid hpositive hnew

structure Unused (o : RunOutcome) (ls : List Service) (w : Supervisor) : Prop where
  nodup : (ls.filterMap fun s => (o.started s).pid).Nodup
  fresh : ∀ s ∈ ls, ∀ pid, (o.started s).pid = some pid → 0 < pid ∧ pid ∉ w.children

theorem Fresh.unused (h : Fresh o w) {w' : Supervisor} (hchildren : w'.children = w.children) :
    Unused o (starts.map Prod.fst) w' := by
  refine ⟨h.1, fun s hs pid hpid => ?_⟩
  rw [hchildren]
  exact h.2 pid (List.mem_append_right _ (List.mem_filterMap.mpr ⟨s, hs, hpid⟩))

theorem Unused.tail {ls : List Service} (hw : Unused o (s :: ls) w)
    (hpid : (o.started s).pid = some pid) :
    Unused o ls (setRunning (ProcessControl.fork w s pid) s true) := by
  have hnodup := hw.nodup
  rw [List.filterMap_cons, hpid] at hnodup
  obtain ⟨hpidNew, hrest⟩ := List.nodup_cons.mp hnodup
  refine ⟨hrest, fun t ht p hp => ?_⟩
  obtain ⟨hpositive, hold⟩ := hw.fresh t (List.mem_cons_of_mem _ ht) p hp
  refine ⟨hpositive, fun hmem => ?_⟩
  rcases List.mem_cons.mp hmem with rfl | hmem
  · exact hpidNew (List.mem_filterMap.mpr ⟨t, ht, hp⟩)
  · exact hold hmem

structure Startable (o : RunOutcome) (l : List Service) (ls : List (Service × Label))
    (w : Supervisor) : Prop where
  running : Running o l w []
  new : ∀ s ∈ ls.map Prod.fst, s ∉ l
  nodup : (ls.map Prod.fst).Nodup
  unused : Unused o (ls.map Prod.fst) w

/-- One more service is started, or it does not start and the others are not tried. -/
theorem Startable.startAll_cons {ls : List (Service × Label)} {label : Label}
    (h : Startable o l ((s, label) :: ls) w) :
    (startSucceeds o s = true ∧ ∃ pid w', (o.started s).pid = some pid ∧
        w'.events = w.events ++ [.forked pid] ∧
        startAll o ((s, label) :: ls) w = startAll o ls w' ∧ Startable o (s :: l) ls w') ∨
      (startSucceeds o s = false ∧ ∃ w', startAll o ((s, label) :: ls) w = (w', some label) ∧
        Running o l w' (leftByStart o s)) := by
  have hs : s ∉ l := h.new s List.mem_cons_self
  have hidle : ¬ (w.proc s).running = true := by rw [h.running.idle hs]; decide
  rcases initMethod_cases h.running hs (h.unused.fresh s List.mem_cons_self) with
    ⟨hsucceeds, pid, hpid, hinit⟩ | ⟨hfails, w', hinit, hrunning⟩
  · obtain ⟨hpositive, hfresh⟩ := h.unused.fresh s List.mem_cons_self pid hpid
    obtain ⟨hsls, hrest⟩ := List.nodup_cons.mp h.nodup
    have hstart : startAll o ((s, label) :: ls) w =
        startAll o ls (setRunning (ProcessControl.fork w s pid) s true) := by
      simp only [startAll, processStart, if_neg hidle, hinit]
    refine Or.inl ⟨hsucceeds, pid, _, hpid, rfl, hstart, h.running.start hs hpid hpositive hfresh,
      ?_, hrest, h.unused.tail hpid⟩
    intro t ht hmem
    rcases List.mem_cons.mp hmem with rfl | hmem
    · exact hsls ht
    · exact h.new t (List.mem_cons_of_mem _ ht) hmem
  · refine Or.inr ⟨hfails, w', by simp only [startAll, processStart, if_neg hidle, hinit], ?_⟩
    rwa [List.append_nil] at hrunning

/-- The services are started in their order until one does not start. -/
theorem Startable.startAll_cases {ls : List (Service × Label)} (h : Startable o l ls w) :
    ((ls.map Prod.fst).find? (fun s => !startSucceeds o s) = none ∧
      ∃ w', startAll o ls w = (w', none) ∧
        Running o (((ls.map Prod.fst).takeWhile (startSucceeds o)).reverse ++ l) w' []) ∨
    ∃ s label w', (ls.map Prod.fst).find? (fun s => !startSucceeds o s) = some s ∧
      (s, label) ∈ ls ∧ startAll o ls w = (w', some label) ∧
        Running o (((ls.map Prod.fst).takeWhile (startSucceeds o)).reverse ++ l) w'
          (leftByStart o s) := by
  induction ls generalizing w l with
  | nil => exact Or.inl ⟨rfl, w, rfl, h.running⟩
  | cons x ls ih =>
    obtain ⟨s, label⟩ := x
    rcases h.startAll_cons with
      ⟨hsucceeds, -, w₁, -, -, hstart, hnext⟩ | ⟨hfails, w', hstart, hrunning⟩
    · have htake : ((s :: ls.map Prod.fst).takeWhile (startSucceeds o)).reverse ++ l =
          ((ls.map Prod.fst).takeWhile (startSucceeds o)).reverse ++ (s :: l) := by
        rw [List.takeWhile_cons_of_pos hsucceeds, List.reverse_cons, List.append_assoc,
          List.singleton_append]
      have hfind : (s :: ls.map Prod.fst).find? (fun s => !startSucceeds o s) =
          (ls.map Prod.fst).find? (fun s => !startSucceeds o s) :=
        List.find?_cons_of_neg (by simp [hsucceeds])
      rw [hstart, List.map_cons, htake, hfind]
      rcases ih hnext with hnone | ⟨t, label', w', ht, hmem, hrun⟩
      · exact Or.inl hnone
      · exact Or.inr ⟨t, label', w', ht, List.mem_cons_of_mem _ hmem, hrun⟩
    · have htake : (s :: ls.map Prod.fst).takeWhile (startSucceeds o) = [] :=
        List.takeWhile_cons_of_neg (by simp [hfails])
      refine Or.inr ⟨s, label, w', List.find?_cons_of_pos (by simp [hfails]), List.mem_cons_self,
        hstart, ?_⟩
      rwa [List.map_cons, htake]

/-! ### A run -/

theorem starts_label {x : Service × Label} (hx : x ∈ starts) :
    x.2 = .cleanup .attestationservice ∨ x.2 = .quiesceDataProcesses := by
  simp only [starts, List.mem_cons, List.not_mem_nil, or_false] at hx
  rcases hx with rfl | rfl | rfl | rfl | rfl | rfl | rfl | rfl | rfl | rfl
  any_goals exact Or.inl rfl
  all_goals exact Or.inr rfl

theorem starts_nodup : (starts.map Prod.fst).Nodup := by decide

/-- When the files were read and everything is created, all services can be started. -/
theorem startable_created {w' : Supervisor} (howned : Owned w' [])
    (hidle : ∀ s, (w'.proc s).running = false) (hfresh : Fresh o w)
    (hchildren : w'.children = w.children) : Startable o [] starts w' where
  running := ⟨howned, fun s => by simp [hidle s], fun s hs => absurd hs List.not_mem_nil⟩
  new _ _ := List.not_mem_nil
  nodup := starts_nodup
  unused := hfresh.unused hchildren

/-- What was started before the first service that does not start. -/
theorem startedBefore_eq (h : failingStart o = some s) :
    (starts.map Prod.fst).takeWhile (startSucceeds o) =
      (starts.map Prod.fst).takeWhile (fun t => decide (t ≠ s)) := by
  obtain ⟨hs, as, bs, hsplit, has⟩ := List.find?_eq_some_iff_append.mp h
  have hnodup := starts_nodup
  rw [hsplit] at hnodup ⊢
  have hsas : ∀ t ∈ as, t ≠ s := by
    intro t ht heq
    exact (List.nodup_append.mp hnodup).2.2 t ht s List.mem_cons_self heq
  have hsucceeds : ∀ t ∈ as, startSucceeds o t = true := by
    intro t ht
    simpa using has t ht
  have hfails : ¬ startSucceeds o s = true := by simpa using hs
  rw [List.takeWhile_append_of_pos hsucceeds, List.takeWhile_cons_of_neg hfails,
    List.takeWhile_append_of_pos fun t ht => decide_eq_true (hsas t ht),
    List.takeWhile_cons_of_neg (by simp)]

/-- The notification service is forgotten when it runs. -/
theorem forgotten_of_running {l : List Service} (hw : Running o l w orphans) :
    forgotten w cleanupOrder =
      if .notificationService ∈ l then (o.started .notificationService).pid.toList else [] := by
  rw [forgotten]
  by_cases hmem : .notificationService ∈ l
  · rw [if_pos hmem, if_pos ⟨mem_cleanupOrder _, (hw.running _).mpr hmem⟩, hw.pid _ hmem]
    rfl
  · rw [if_neg hmem, if_neg fun h => hmem ((hw.running _).mp h.2)]

/-- What is left when a service does not start. -/
theorem leaked_of_failing (hprepared : isPrepared o = true) (h : failingStart o = some s) :
    ((if .notificationService ∈ ((starts.map Prod.fst).takeWhile (startSucceeds o)).reverse ++
    [] then
        (o.started .notificationService).pid.toList else []) ++ leftByStart o s).Perm
        (leaked o) := by
  rw [List.append_nil, startedBefore_eq h, leaked, if_pos hprepared, h]
  cases s with
  | protocolService => exact List.perm_append_comm
  | canonizationservice => exact .of_eq (List.append_nil _)
  | attestationservice => exact .of_eq (List.append_nil _)
  | _ => exact .refl _

theorem leaked_unprepared (h : ¬ isPrepared o = true) : leaked o = leftByReaders o.readers :=
  if_neg h

theorem higherServices_stopped (w : Supervisor) : ∀ s ∈ higherServices,
    ((stopAll (stopAll w higherServices) randomServices).proc s).running = false := by
  intro s hs
  rw [Bool.eq_false_iff]
  intro h
  exact ((stopAll_running w higherServices).mp ((stopAll_running _ randomServices).mp h).2).1 hs

/-- Nothing is left to kill when all have been stopped. -/
theorem shutDown_eq (w : Supervisor) :
    shutDown w = stopAll (stopAll w higherServices) randomServices := by
  rw [shutDown, killAll_stopped (higherServices_stopped w)]

theorem shutDown_owned (hw : Owned w []) :
    Owned (shutDown w) [] ∧ ((shutDown w).proc .notificationService).running = false := by
  rw [shutDown_eq]
  exact ⟨(hw.stopAll _).stopAll _, higherServices_stopped w _ (by decide)⟩

/-- After the files were read: nothing runs afterwards, and the orphans are those that are
leaked. -/
theorem supervisorRun_owned_of_read (hw : Owned w []) (hidle : ∀ s, (w.proc s).running = false)
    (hfresh : Fresh o w) {w₀ : Supervisor} (hread : readAll o.readers w = (w₀, true)) :
    (∃ orphans, Owned (supervisorRun o w).1 orphans ∧ orphans.Perm (leaked o)) ∧
      (∀ s, ((supervisorRun o w).1.proc s).running = false) ∧
      ((supervisorRun o w).2 = true → leaked o = []) := by
  obtain ⟨howned₀, hproc, hsucceed, hkept⟩ := readAll_owned (l := o.readers) hw fun p hp =>
    hfresh.2 p (List.mem_append_left _ hp)
  rw [hread] at howned₀ hproc hsucceed hkept
  have hall₀ : o.readers.all ReaderOutcome.succeeds = true := hsucceed.symm
  have hleft := leftByReaders_succeed hall₀
  have hidle₀ : ∀ s, (w₀.proc s).running = false := fun s => by
    rw [show w₀.proc = w.proc from hproc]
    exact hidle s
  rw [hleft] at howned₀
  rw [supervisorRun, hread]
  dsimp only
  split
  · rename_i hsockets
    have hnone : leaked o = [] := (leaked_unprepared (by simp [isPrepared, hsockets])).trans hleft
    rw [hnone]
    exact ⟨⟨[], howned₀, .refl _⟩, hidle₀, fun _ => rfl⟩
  rename_i hsockets
  obtain ⟨howned, hcreated, hchildren, -, hall⟩ := createAll_owned (o := o) creations howned₀ hidle₀
  generalize hcreate : createAll o creations w₀ = x at *
  obtain ⟨w₁, label⟩ := x
  cases label with
  | some label =>
    have hnone : leaked o = [] := by
      refine (leaked_unprepared fun h => ?_).trans hleft
      have hcontra := hall.mpr (Bool.and_eq_true_iff.mp h).2
      cases hcontra
    obtain ⟨hjumped, hrest⟩ := jump_idle howned hcreated label
    rw [hnone]
    exact ⟨⟨[], hjumped, .refl _⟩, hrest, fun _ => rfl⟩
  | none =>
    have hprepared : isPrepared o = true := by
      rw [isPrepared, hall₀, hall.mp rfl]
      simpa using hsockets
    have hstartable : Startable o [] starts w₁ :=
      startable_created howned hcreated hfresh (hchildren.trans (hkept rfl).1)
    rcases hstartable.startAll_cases with
      ⟨hnone, w₂, hstart, hrun⟩ | ⟨s, label, w₂, hfind, hlabel, hstart, hrun⟩
    · obtain ⟨hshut, hnotification⟩ := shutDown_owned hrun.owned
      obtain ⟨hquiet, hidle'⟩ := quiesce_all hshut
      rw [forgotten_idle hnotification] at hquiet
      have hleaked : leaked o = [] := by
        rw [leaked, if_pos hprepared, failingStart, hnone]
      simp only [hstart]
      rw [hleaked]
      exact ⟨⟨[], hquiet, .refl _⟩, hidle', fun _ => rfl⟩
    · have hjumped : Owned (jump w₂ label) (forgotten w₂ cleanupOrder ++ leftByStart o s) ∧
          ∀ s, ((jump w₂ label).proc s).running = false := by
        rcases starts_label hlabel with h | h
        · obtain rfl : label = .cleanup .attestationservice := h
          exact cleanup_all hrun.owned
        · obtain rfl : label = .quiesceDataProcesses := h
          exact quiesce_all hrun.owned
      rw [forgotten_of_running hrun] at hjumped
      simp only [hstart]
      exact ⟨⟨_, hjumped.1, leaked_of_failing hprepared hfind⟩, hjumped.2, fun h => by cases h⟩

/-- Whatever happens in a run nothing runs afterwards, and the orphans are those that are leaked. -/
theorem supervisorRun_owned (hw : Owned w []) (hidle : ∀ s, (w.proc s).running = false)
    (hfresh : Fresh o w) :
    (∃ orphans, Owned (supervisorRun o w).1 orphans ∧ orphans.Perm (leaked o)) ∧
      (∀ s, ((supervisorRun o w).1.proc s).running = false) ∧
      ((supervisorRun o w).2 = true → leaked o = []) := by
  cases hread : readAll o.readers w with
  | mk w₀ status =>
    cases status with
    | true => exact supervisorRun_owned_of_read hw hidle hfresh hread
    | false =>
      obtain ⟨howned, hproc, hsucceed, -⟩ := readAll_owned (l := o.readers) hw fun p hp =>
        hfresh.2 p (List.mem_append_left _ hp)
      rw [hread] at howned hproc hsucceed
      have hnot : ¬ isPrepared o = true := by simp [isPrepared, ← hsucceed]
      rw [supervisorRun, hread, leaked_unprepared hnot]
      refine ⟨⟨_, howned, .refl _⟩, fun s => ?_, fun h => by cases h⟩
      rw [show w₀.proc = w.proc from hproc]
      exact hidle s

/-! ### All runs -/

/-- Whatever becomes of the services, the supervisor only ever terminates children of its own that
it has not waited for yet, each at most once, and it kills none. Nothing runs between two runs, and
while it keeps running it has no children then; those it has in the end are the ones its last run
leaked. -/
structure Supervised (log : List (Taken State RunOutcome)) (s : State) : Prop where
  disciplined : Disciplined s.world.events s.world.children
  stopped : ∀ t, (s.world.proc t).running = false
  childless : s.keepRunning = true → s.world.children = []
  left : ∀ p, p ∈ s.world.children ↔ ∃ t ∈ log.getLast?, p ∈ leaked t.event

theorem children_eq (hw : Owned w orphans) (hidle : ∀ s, (w.proc s).running = false) (p : ℤ) :
    p ∈ w.children ↔ p ∈ orphans := by
  refine ⟨fun hp => ?_, fun hp => (hw.orphan p hp).1⟩
  rcases hw.accounted p hp with horphan | ⟨s, hs, -⟩
  · exact horphan
  · rw [hidle s] at hs
    cases hs

/-- The children of a supervisor that has nothing running are its orphans, and all else is as
`Owned` has it. -/
theorem Supervised.owned {log : List (Taken State RunOutcome)} {s : State} (hs : Supervised log s)
    (h : s.keepRunning = true) : Owned s.world [] := by
  have hidle : ∀ {t}, ¬ (s.world.proc t).running = true := by
    intro t
    rw [hs.stopped t]
    decide
  have hchildren := hs.childless h
  refine ⟨hs.disciplined, hchildren ▸ List.nodup_nil, fun t ht => absurd ht hidle,
    fun t _ ht => absurd ht hidle, fun p hp => absurd hp List.not_mem_nil, fun p hp => ?_⟩
  rw [hchildren] at hp
  exact absurd hp List.not_mem_nil

theorem run_supervised {log : List (Taken State RunOutcome)} {s : State}
    (hrun : Run step installed log s) : Supervised log s := by
  refine hrun.history (P := Supervised) ?_ ?_
  · exact ⟨.nil, fun _ => rfl, fun _ => rfl, fun p => by simp [installed]⟩
  · intro log s o s' hs hstep
    rw [step] at hstep
    split at hstep
    · rename_i hready
      obtain rfl := Option.some.inj hstep
      obtain ⟨⟨orphans, howned, hperm⟩, hidle, hsuccess⟩ :=
        supervisorRun_owned (hs.owned hready.1) hs.stopped hready.2
      have hleft : ∀ p, p ∈ (supervisorRun o s.world).1.children ↔ p ∈ leaked o := fun p =>
        (children_eq howned hidle p).trans hperm.mem_iff
      refine ⟨howned.disciplined, hidle, fun h => ?_, fun p => (hleft p).trans ?_⟩
      · have hnone := hsuccess (Bool.and_eq_true_iff.mp h).1
        refine List.eq_nil_iff_forall_not_mem.mpr fun p hp => ?_
        rw [hleft p, hnone] at hp
        exact absurd hp List.not_mem_nil
      · simp
    · cases hstep

theorem supervisor_terminates_its_children {log : List (Taken State RunOutcome)} {s : State}
    (hrun : Run step installed log s) : Supervised log s := run_supervised hrun

/-- All is well at first, then the protocol service cannot be configured. -/
def wellStarted (s : Service) : StartOutcome :=
  match s with
  | .randomService => .forked 11 true
  | .randomForCanonizationservice => .forked 12 true
  | .listenerService => .forked 13 true
  | .dataForAuthProtocolService => .forked 14 true
  | .notificationService => .forked 15 true
  | .protocolService => .forked 16 true
  | .dataForCanonizationservice => .forked 17 true
  | .canonizationservice => .forked 18 true
  | .dataForAttestationservice => .forked 19 true
  | .attestationservice => .forked 20 true

def wellRun : RunOutcome where
  configRead := .forked 8 true true
  publicEntitiesRead := .forked 9 true true
  privateKeyRead := some (.forked 10 true true)
  logSockets := true
  created _ := true
  started := wellStarted
  terminated := false

def badRun : RunOutcome :=
  { wellRun with started := Function.update wellStarted .protocolService (.forked 16 false) }

theorem second_run_leaks_two_children :
    ∃ log s, Run step installed log s ∧ s.world.children = [16, 15] ∧ Supervised log s := by
  obtain ⟨log, s, hexecute, hchildren⟩ : ∃ log s, execute step installed [wellRun, badRun] =
      some (log, s) ∧ s.world.children = [16, 15] := ⟨_, _, rfl, by decide +kernel⟩
  have hrun := (run_execute hexecute).1
  exact ⟨log, s, hrun, hchildren, supervisor_terminates_its_children hrun⟩

/-- A config with an error leaves the process that reads it. -/
example : (supervisorRun
  { wellRun with configRead := .forked 8 false true } installed.world).1.children =
    [8] := rfl

/-! ### The order of an undisturbed run -/

def pidOf (o : RunOutcome) (s : Service) : ℤ := (o.started s).pid.getD 0

def stopEvents (pid : ℤ) : List ProcessEvent := [.signaled pid .term, .waited pid]

theorem Startable.startAll_events {ls : List (Service × Label)} {w' : Supervisor}
    (h : Startable o l ls w) (hstart : startAll o ls w = (w', none)) :
    w'.events = w.events ++ ls.map fun x => .forked (pidOf o x.1) := by
  induction ls generalizing w l with
  | nil =>
    cases hstart
    exact (List.append_nil _).symm
  | cons x ls ih =>
    obtain ⟨s, label⟩ := x
    rcases h.startAll_cons with ⟨-, pid, w₁, hpid, hevents, heq, hnext⟩ | ⟨-, w₁, heq, -⟩
    · rw [ih hnext (heq.symm.trans hstart), hevents, List.map_cons, pidOf, hpid]
      exact List.append_assoc _ _ _
    · rw [heq] at hstart
      cases hstart

theorem stopAll_events {l : List Service} (h : ∀ s ∈ l, (w.proc s).running = true) (hl : l.Nodup) :
    (stopAll w l).events = w.events ++ l.flatMap fun s => stopEvents (w.proc s).processId := by
  induction l generalizing w with
  | nil => exact (List.append_nil _).symm
  | cons s l ih =>
    obtain ⟨hs, hrest⟩ := List.nodup_cons.mp hl
    have hproc : ∀ t ∈ l, (processStop w s).1.proc t = w.proc t := by
      intro t ht
      rw [processStop_proc, if_neg fun heq : t = s => hs (heq ▸ ht)]
    have hstop : (processStop w s).1.events = w.events ++ stopEvents (w.proc s).processId := by
      have hrunning : ¬ (w.proc s).running = false := by rw [h s List.mem_cons_self]; decide
      rw [processStop, if_neg hrunning]
      exact List.append_assoc _ _ _
    have hevents := ih (w := (processStop w s).1)
      (fun t ht => (hproc t ht).symm ▸ h t (List.mem_cons_of_mem _ ht)) hrest
    rw [stopAll, List.foldl_cons]
    rw [stopAll] at hevents
    rw [hevents, hstop, List.flatMap_cons, List.append_assoc]
    congr 2
    exact List.flatMap_congr fun t ht => by rw [hproc t ht]

theorem dispose_events {l : List Service} (h : ∀ s, (w.proc s).running = false) :
    (l.foldl disposeMethod w).events = w.events := by
  induction l generalizing w with
  | nil => rfl
  | cons s l ih =>
    have hkept : (disposeMethod w s).events = w.events := by
      by_cases hs : s = .notificationService
      · subst hs
        rfl
      · rw [disposeMethod_eq hs, processStop, if_pos (h s)]
    rw [List.foldl_cons, ih, hkept]
    intro t
    rw [Bool.eq_false_iff]
    intro ht
    exact absurd (h t) (by rw [(disposeMethod_running.mp ht).2]; decide)

def stopOrder : List Service := higherServices ++ randomServices ++ dataServices

theorem mem_stopOrder (s : Service) : s ∈ stopOrder := by
  cases s with
  | _ => decide

theorem stop_everything (w : Supervisor) :
    jump (shutDown w) .quiesceDataProcesses =
      cleanupOrder.foldl disposeMethod (stopAll w stopOrder) := by
  rw [shutDown_eq, jump, cleanupFrom_eq]
  simp only [stopOrder, stopAll, List.foldl_append]

/-- A run that succeeds has read every file and started every service. -/
theorem supervisorRun_success (hw : Owned w []) (hidle : ∀ s, (w.proc s).running = false)
    (hfresh : Fresh o w) (hsuccess : (supervisorRun o w).2 = true) :
    ∃ w', (∀ s, (w'.proc s).running = true ∧ (w'.proc s).processId = pidOf o s) ∧
      w'.events = w.events ++ o.readers.flatMap readEvents ++
        (starts.map fun x => .forked (pidOf o x.1)) ∧
      (supervisorRun o w).1 = jump (shutDown w') .quiesceDataProcesses := by
  obtain ⟨howned₀, hproc, hsucceed, hkept⟩ := readAll_owned (l := o.readers) hw fun p hp =>
    hfresh.2 p (List.mem_append_left _ hp)
  rw [supervisorRun] at hsuccess ⊢
  generalize readAll o.readers w = x at *
  obtain ⟨w₀, status⟩ := x
  cases status with
  | false => cases hsuccess
  | true =>
  obtain ⟨hchildren₀, hevents₀⟩ := hkept rfl
  have hidle₀ : ∀ s, (w₀.proc s).running = false := fun s => by
    rw [show w₀.proc = w.proc from hproc]
    exact hidle s
  have howned₀ : Owned w₀ [] := leftByReaders_succeed hsucceed.symm ▸ howned₀
  dsimp only at hsuccess ⊢
  split at hsuccess
  · cases hsuccess
  rename_i hsockets
  rw [if_neg hsockets]
  obtain ⟨howned, hcreated, hchildren, hevents, -⟩ :=
    createAll_owned (o := o) creations howned₀ hidle₀
  generalize createAll o creations w₀ = x at *
  obtain ⟨w₁, label⟩ := x
  cases label with
  | some label => cases hsuccess
  | none =>
    have hstartable : Startable o [] starts w₁ :=
      startable_created howned hcreated hfresh (hchildren.trans hchildren₀)
    rcases hstartable.startAll_cases with
      ⟨hnone, w₂, hstart, hrun⟩ | ⟨s, label, w₂, -, -, hstart, -⟩
    · have hall : (starts.map Prod.fst).takeWhile (startSucceeds o) = starts.map Prod.fst := by
        rw [List.takeWhile_eq_self_iff]
        intro s hs
        simpa using List.find?_eq_none.mp hnone s hs
      have hmem : ∀ s, s ∈ ((starts.map Prod.fst).takeWhile (startSucceeds o)).reverse ++ [] := by
        intro s
        rw [hall, List.append_nil, List.mem_reverse]
        cases s with
        | _ => decide
      refine ⟨w₂, fun s => ⟨(hrun.running s).mpr (hmem s), ?_⟩, ?_, by simp only [hstart]⟩
      · rw [pidOf, hrun.pid s (hmem s)]
        rfl
      · rw [hstartable.startAll_events hstart]
        rw [show w₁.events = w₀.events from hevents, show w₀.events = _ from hevents₀]
    · simp only [hstart] at hsuccess
      cases hsuccess

/-- When every file is read and every service starts, all are told to terminate after a signal:
first those that serve clients or use a data service, then the random services, and the data
services last. -/
theorem data_services_stop_last {log : List (Taken State RunOutcome)} {s s' : State}
    (hrun : Run step installed log s) (hstep : step s o = some s')
    (hsuccess : (supervisorRun o s.world).2 = true) :
    s'.world.events = s.world.events ++ o.readers.flatMap readEvents ++
      (starts.map fun x => .forked (pidOf o x.1)) ++ stopOrder.flatMap fun t =>
      stopEvents (pidOf o t) := by
  have hs := run_supervised hrun
  rw [step] at hstep
  split at hstep
  · rename_i hready
    obtain rfl := Option.some.inj hstep
    obtain ⟨w, hrunning, hevents, heq⟩ :=
      supervisorRun_success (hs.owned hready.1) hs.stopped hready.2 hsuccess
    have hidle : ∀ t, ((stopAll w stopOrder).proc t).running = false := by
      intro t
      rw [Bool.eq_false_iff]
      exact fun h => ((stopAll_running w stopOrder).mp h).1 (mem_stopOrder t)
    rw [heq, stop_everything, dispose_events hidle,
      stopAll_events (fun t _ => (hrunning t).1) (by decide), hevents]
    congr 1
    exact List.flatMap_congr fun t _ => by rw [(hrunning t).2]
  · cases hstep

theorem well_run_stops_data_services_last :
    ∃ s', step installed wellRun = some s' ∧
      s'.world.events = installed.world.events ++ wellRun.readers.flatMap readEvents ++
        (starts.map fun x => .forked (pidOf wellRun x.1)) ++ stopOrder.flatMap fun t =>
        stopEvents (pidOf wellRun t) := by
  obtain ⟨s', hstep⟩ : ∃ s', step installed wellRun = some s' := ⟨_, rfl⟩
  exact ⟨s', hstep, data_services_stop_last .nil hstep (by decide +kernel)⟩

end Supervision
