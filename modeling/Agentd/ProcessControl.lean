import Mathlib.Data.Int.Basic
import Mathlib.Data.List.Nodup
import Mathlib.Logic.Function.Basic

/-! # Starting and stopping child processes

A parent keeps a record for each of its processes and sends signals to the process ids in them.
Which children there really are, only the kernel knows: those that were forked and not waited for
yet. -/
namespace ProcessControl

inductive SignalNumber where
  | term
  | kill
  deriving DecidableEq

inductive ProcessStatus where
  | success
  | notActive
  | alreadySpawned
  | failure
  deriving DecidableEq

/-- `process_t`. The id is that of the last fork, which returns a negative one when it fails. -/
structure Process where
  processId : ℤ
  running : Bool

def newProcess : Process := ⟨0, false⟩

inductive ProcessEvent where
  | forked (pid : ℤ)
  | signaled (pid : ℤ) (signal : SignalNumber)
  | waited (pid : ℤ)
  deriving DecidableEq

/-- The records of the parent, and the children it has forked and not waited for. -/
structure World (κ : Type) where
  proc : κ → Process
  children : List ℤ
  events : List ProcessEvent

variable {κ : Type} [DecidableEq κ]

def setProcess (w : World κ) (s : κ) (p : Process) : World κ :=
  { w with proc := Function.update w.proc s p }

/-! ### System calls -/

def kill (w : World κ) (pid : ℤ) (signal : SignalNumber) : World κ :=
  { w with events := w.events ++ [.signaled pid signal] }

/-- It returns once the child has ended; the signals of the parent restart it. -/
def waitpid (w : World κ) (pid : ℤ) : World κ :=
  { w with children := w.children.erase pid, events := w.events ++ [.waited pid] }

/-- The parent of a fork that succeeds, for a child without a record. -/
def forkChild (w : World κ) (pid : ℤ) : World κ :=
  { w with children := pid :: w.children, events := w.events ++ [.forked pid] }

def fork (w : World κ) (s : κ) (pid : ℤ) : World κ :=
  forkChild (setProcess w s { w.proc s with processId := pid }) pid

def forkFails (w : World κ) (s : κ) : World κ := setProcess w s { w.proc s with processId := -1 }

/-! ### Processes -/

def setRunning (w : World κ) (s : κ) (running : Bool) : World κ :=
  setProcess w s { w.proc s with running := running }

def processStart (initMethod : World κ → World κ × ProcessStatus) (w : World κ) (s : κ) :
    World κ × ProcessStatus :=
  if (w.proc s).running = true then (w, .alreadySpawned)
  else
    match initMethod w with
    | (w, .success) => (setRunning w s true, .success)
    | (w, retval) => (w, retval)

/-- `process_stop_ex` with no options, as in every call there is. -/
def processStop (w : World κ) (s : κ) : World κ × ProcessStatus :=
  if (w.proc s).running = false then (w, .notActive)
  else
    let pid := (w.proc s).processId
    (setRunning (waitpid (kill w pid .term) pid) s false, .success)

def processKill (w : World κ) (s : κ) : World κ × ProcessStatus :=
  if (w.proc s).running = false then (w, .notActive)
  else
    let pid := (w.proc s).processId
    (setRunning (waitpid (kill w pid .kill) pid) s false, .success)

def stopAll (w : World κ) (l : List κ) : World κ := l.foldl (fun w s => (processStop w s).1) w

def killAll (w : World κ) (l : List κ) : World κ := l.foldl (fun w s => (processKill w s).1) w

/-! ### What becomes of the children -/

/-- Only new children are forked, and only a child that was not waited for yet is waited for or told
to terminate, in which case it is waited for at once; nothing is killed, and nothing else is sent a
signal. -/
inductive Disciplined : List ProcessEvent → List ℤ → Prop
  | nil : Disciplined [] []
  | forked {events : List ProcessEvent} {children : List ℤ} {pid : ℤ}
      (earlier : Disciplined events children) (positive : 0 < pid) (fresh : pid ∉ children) :
      Disciplined (events ++ [.forked pid]) (pid :: children)
  | stopped {events : List ProcessEvent} {children : List ℤ} {pid : ℤ}
      (earlier : Disciplined events children) (child : pid ∈ children) :
      Disciplined (events ++ [.signaled pid .term, .waited pid]) (children.erase pid)
  | reaped {events : List ProcessEvent} {children : List ℤ} {pid : ℤ}
      (earlier : Disciplined events children) (child : pid ∈ children) :
      Disciplined (events ++ [.waited pid]) (children.erase pid)

/-- The children are those of the running processes and the orphans, which no running process
has. -/
structure Owned (w : World κ) (orphans : List ℤ) : Prop where
  disciplined : Disciplined w.events w.children
  nodup : w.children.Nodup
  running : ∀ s, (w.proc s).running = true → (w.proc s).processId ∈ w.children
  distinct : ∀ s t, (w.proc s).running = true → (w.proc t).running = true →
    (w.proc s).processId = (w.proc t).processId → s = t
  orphan : ∀ p ∈ orphans, p ∈ w.children ∧ ∀ s, (w.proc s).running = true → (w.proc s).processId ≠ p
  accounted : ∀ p ∈ w.children,
    p ∈ orphans ∨ ∃ s, (w.proc s).running = true ∧ (w.proc s).processId = p

variable {w : World κ} {s t : κ} {orphans : List ℤ} {pid : ℤ}

theorem setProcess_proc (p : Process) :
    (setProcess w s p).proc t = if t = s then p else w.proc t := by
  exact Function.update_apply ..

/-- A record of a process that does not run, before or after, says nothing. -/
theorem Owned.idle (hw : Owned w orphans) {p : Process} (h : (w.proc s).running = false)
    (hp : p.running = false) : Owned (setProcess w s p) orphans := by
  have hrunning : ∀ t, ((setProcess w s p).proc t).running = true →
      (w.proc t).running = true ∧ (setProcess w s p).proc t = w.proc t := by
    intro t ht
    rw [setProcess_proc] at ht ⊢
    split at ht
    · rw [hp] at ht
      cases ht
    · rename_i hne
      exact ⟨ht, if_neg hne⟩
  have hstays : ∀ t, (w.proc t).running = true → (setProcess w s p).proc t = w.proc t := by
    intro t ht
    rw [setProcess_proc]
    split
    · rename_i heq
      rw [heq, h] at ht
      cases ht
    · rfl
  refine ⟨hw.disciplined, hw.nodup, ?_, ?_, ?_, ?_⟩
  · intro t ht
    obtain ⟨hold, heq⟩ := hrunning t ht
    rw [heq]
    exact hw.running t hold
  · intro t u ht hu hpid
    obtain ⟨hold, heq⟩ := hrunning t ht
    obtain ⟨hold', heq'⟩ := hrunning u hu
    rw [heq, heq'] at hpid
    exact hw.distinct t u hold hold' hpid
  · intro q hq
    refine ⟨(hw.orphan q hq).1, fun t ht => ?_⟩
    obtain ⟨hold, heq⟩ := hrunning t ht
    rw [heq]
    exact (hw.orphan q hq).2 t hold
  · intro q hq
    rcases hw.accounted q hq with horphan | ⟨t, ht, hpid⟩
    · exact Or.inl horphan
    · exact Or.inr ⟨t, (hstays t ht).symm ▸ ht, (hstays t ht).symm ▸ hpid⟩

omit [DecidableEq κ] in
/-- A new child is an orphan. -/
theorem Owned.forkChild (hw : Owned w orphans) (hpositive : 0 < pid) (hfresh : pid ∉ w.children) :
    Owned (forkChild w pid) (pid :: orphans) := by
  refine ⟨hw.disciplined.forked hpositive hfresh, List.nodup_cons.mpr ⟨hfresh, hw.nodup⟩, ?_,
    hw.distinct, ?_, ?_⟩
  · exact fun t ht => List.mem_cons_of_mem _ (hw.running t ht)
  · intro q hq
    rcases List.mem_cons.mp hq with rfl | hq
    · refine ⟨List.mem_cons_self, fun t ht hpid => hfresh ?_⟩
      rw [← hpid]
      exact hw.running t ht
    · exact ⟨List.mem_cons_of_mem _ (hw.orphan q hq).1, (hw.orphan q hq).2⟩
  · intro q hq
    rcases List.mem_cons.mp hq with rfl | hq
    · exact Or.inl List.mem_cons_self
    · rcases hw.accounted q hq with horphan | hrunning
      · exact Or.inl (List.mem_cons_of_mem _ horphan)
      · exact Or.inr hrunning

theorem Owned.fork (hw : Owned w orphans) (h : (w.proc s).running = false) (hpositive : 0 < pid)
    (hfresh : pid ∉ w.children) : Owned (fork w s pid) (pid :: orphans) :=
  (hw.idle (p := { w.proc s with processId := pid }) h h).forkChild hpositive hfresh

omit [DecidableEq κ] in
/-- An orphan that has ended is waited for. -/
theorem Owned.reap (hw : Owned w (pid :: orphans)) (hnew : pid ∉ orphans) :
    Owned (waitpid w pid) orphans := by
  obtain ⟨hchild, hapart⟩ := hw.orphan pid List.mem_cons_self
  have hkept : ∀ q ∈ w.children, q ≠ pid → q ∈ w.children.erase pid :=
    fun q hq hne => (List.mem_erase_of_ne hne).mpr hq
  refine ⟨hw.disciplined.reaped hchild, hw.nodup.erase _, ?_, hw.distinct, ?_, ?_⟩
  · exact fun t ht => hkept _ (hw.running t ht) (hapart t ht)
  · intro q hq
    obtain ⟨hmem, hq'⟩ := hw.orphan q (List.mem_cons_of_mem _ hq)
    exact ⟨hkept q hmem fun heq => hnew (heq ▸ hq), hq'⟩
  · intro q hq
    obtain ⟨hne, hmem⟩ := (hw.nodup.mem_erase_iff).mp hq
    rcases hw.accounted q hmem with horphan | hrunning
    · exact Or.inl ((List.mem_cons.mp horphan).resolve_left hne)
    · exact Or.inr hrunning

theorem setRunning_proc (running : Bool) : (setRunning w s running).proc t =
    if t = s then { w.proc s with running := running } else w.proc t := setProcess_proc _

/-- The process of an orphan begins to run. -/
theorem Owned.adopt (hw : Owned w ((w.proc s).processId :: orphans))
    (hnew : (w.proc s).processId ∉ orphans) (h : (w.proc s).running = false) :
    Owned (setRunning w s true) orphans := by
  obtain ⟨hchild, hapart⟩ := hw.orphan _ List.mem_cons_self
  have hpid : ∀ t, ((setRunning w s true).proc t).processId = (w.proc t).processId := by
    intro t
    rw [setRunning_proc]
    split
    · rename_i heq
      rw [heq]
    · rfl
  have hrunning : ∀ t, ((setRunning w s true).proc t).running = true →
      t = s ∨ (w.proc t).running = true := by
    intro t ht
    rw [setRunning_proc] at ht
    split at ht
    · rename_i heq
      exact Or.inl heq
    · exact Or.inr ht
  refine ⟨hw.disciplined, hw.nodup, ?_, ?_, ?_, ?_⟩
  · intro t ht
    rw [hpid]
    rcases hrunning t ht with rfl | ht
    · exact hchild
    · exact hw.running t ht
  · intro t u ht hu heq
    rw [hpid, hpid] at heq
    rcases hrunning t ht with rfl | hold
    · rcases hrunning u hu with rfl | hold'
      · rfl
      · exact absurd heq.symm (hapart u hold')
    · rcases hrunning u hu with rfl | hold'
      · exact absurd heq (hapart t hold)
      · exact hw.distinct t u hold hold' heq
  · intro q hq
    refine ⟨(hw.orphan q (List.mem_cons_of_mem _ hq)).1, fun t ht => ?_⟩
    rw [hpid]
    rcases hrunning t ht with rfl | ht
    · exact fun heq => hnew (heq ▸ hq)
    · exact (hw.orphan q (List.mem_cons_of_mem _ hq)).2 t ht
  · intro q hq
    rcases hw.accounted q hq with horphan | ⟨t, ht, heq⟩
    · rcases List.mem_cons.mp horphan with rfl | horphan
      · exact Or.inr ⟨s, by rw [setRunning_proc, if_pos rfl], hpid s⟩
      · exact Or.inl horphan
    · refine Or.inr ⟨t, ?_, (hpid t).trans heq⟩
      rw [setRunning_proc]
      split
      · rfl
      · exact ht

/-- A running process whose record is wiped leaves an orphan. -/
theorem Owned.abandon (hw : Owned w orphans) (h : (w.proc s).running = true) :
    Owned (setProcess w s newProcess) ((w.proc s).processId :: orphans) := by
  have hrunning : ∀ t, ((setProcess w s newProcess).proc t).running = true →
      t ≠ s ∧ (w.proc t).running = true ∧ (setProcess w s newProcess).proc t = w.proc t := by
    intro t ht
    rw [setProcess_proc] at ht ⊢
    split at ht
    · cases ht
    · rename_i hne
      exact ⟨hne, ht, if_neg hne⟩
  refine ⟨hw.disciplined, hw.nodup, ?_, ?_, ?_, ?_⟩
  · intro t ht
    obtain ⟨-, hold, heq⟩ := hrunning t ht
    rw [heq]
    exact hw.running t hold
  · intro t u ht hu hpid
    obtain ⟨-, hold, heq⟩ := hrunning t ht
    obtain ⟨-, hold', heq'⟩ := hrunning u hu
    rw [heq, heq'] at hpid
    exact hw.distinct t u hold hold' hpid
  · intro q hq
    rcases List.mem_cons.mp hq with rfl | hq
    · refine ⟨hw.running s h, fun t ht hpid => ?_⟩
      obtain ⟨hne, hold, heq⟩ := hrunning t ht
      rw [heq] at hpid
      exact hne (hw.distinct t s hold h hpid)
    · refine ⟨(hw.orphan q hq).1, fun t ht => ?_⟩
      obtain ⟨-, hold, heq⟩ := hrunning t ht
      rw [heq]
      exact (hw.orphan q hq).2 t hold
  · intro q hq
    rcases hw.accounted q hq with horphan | ⟨t, ht, hpid⟩
    · exact Or.inl (List.mem_cons_of_mem _ horphan)
    · by_cases hts : t = s
      · subst hts
        exact Or.inl (hpid ▸ List.mem_cons_self)
      · refine Or.inr ⟨t, ?_, ?_⟩
        · rw [setProcess_proc, if_neg hts]
          exact ht
        · rw [setProcess_proc, if_neg hts]
          exact hpid

/-! ### Stopping -/

theorem processStop_proc (w : World κ) (s t : κ) : (processStop w s).1.proc t =
    if t = s then { w.proc s with running := false } else w.proc t := by
  rw [processStop]
  split
  · rename_i h
    split
    · rename_i heq
      rw [heq, ← h]
    · rfl
  · exact setRunning_proc false

/-- A process that runs is told to terminate and is waited for. -/
theorem Owned.stop (hw : Owned w orphans) (s : κ) : Owned (processStop w s).1 orphans := by
  rw [processStop]
  split
  · exact hw
  · rename_i hne
    have h : (w.proc s).running = true := by simpa using hne
    have hrunning : ∀ t, ((setRunning (waitpid (kill w (w.proc s).processId .term)
        (w.proc s).processId) s false).proc t).running = true →
        t ≠ s ∧ (w.proc t).running = true ∧ (setRunning (waitpid (kill w (w.proc s).processId .term)
          (w.proc s).processId) s false).proc t = w.proc t := by
      intro t ht
      rw [setRunning_proc] at ht ⊢
      split at ht
      · cases ht
      · rename_i hne
        exact ⟨hne, ht, if_neg hne⟩
    have hkept : ∀ q ∈ w.children, q ≠ (w.proc s).processId →
        q ∈ w.children.erase (w.proc s).processId :=
          fun q hq hne => (List.mem_erase_of_ne hne).mpr hq
    refine ⟨?_, hw.nodup.erase _, ?_, ?_, ?_, ?_⟩
    · have hstopped := hw.disciplined.stopped (hw.running s h)
      rwa [← List.singleton_append, ← List.append_assoc] at hstopped
    · intro t ht
      obtain ⟨hts, hold, heq⟩ := hrunning t ht
      rw [heq]
      exact hkept _ (hw.running t hold) fun hpid => hts (hw.distinct t s hold h hpid)
    · intro t u ht hu hpid
      obtain ⟨-, hold, heq⟩ := hrunning t ht
      obtain ⟨-, hold', heq'⟩ := hrunning u hu
      rw [heq, heq'] at hpid
      exact hw.distinct t u hold hold' hpid
    · intro q hq
      refine ⟨hkept q (hw.orphan q hq).1 ((hw.orphan q hq).2 s h).symm, fun t ht => ?_⟩
      obtain ⟨-, hold, heq⟩ := hrunning t ht
      rw [heq]
      exact (hw.orphan q hq).2 t hold
    · intro q hq
      obtain ⟨hqs, hchild⟩ := (hw.nodup.mem_erase_iff).mp hq
      rcases hw.accounted q hchild with horphan | ⟨t, ht, hpid⟩
      · exact Or.inl horphan
      · have hts : t ≠ s := fun heq => hqs (hpid ▸ heq ▸ rfl)
        refine Or.inr ⟨t, ?_, ?_⟩
        · rw [setRunning_proc, if_neg hts]
          exact ht
        · rw [setRunning_proc, if_neg hts]
          exact hpid

theorem processKill_idle (h : (w.proc s).running = false) : (processKill w s).1 = w := by
  rw [processKill, if_pos h]

theorem processStop_running :
    ((processStop w s).1.proc t).running = true ↔ t ≠ s ∧ (w.proc t).running = true := by
  rw [processStop_proc]
  split
  · rename_i heq
    simp [heq]
  · rename_i hne
    simp [hne]

theorem Owned.stopAll (hw : Owned w orphans) (l : List κ) : Owned (stopAll w l) orphans := by
  induction l generalizing w with
  | nil => exact hw
  | cons s l ih => exact ih (hw.stop s)

theorem stopAll_running (w : World κ) (l : List κ) :
    ((stopAll w l).proc t).running = true ↔ t ∉ l ∧ (w.proc t).running = true := by
  induction l generalizing w with
  | nil => simp [stopAll]
  | cons s l ih =>
    have hrest := ih (processStop w s).1
    rw [processStop_running] at hrest
    rw [List.mem_cons, not_or]
    exact hrest.trans ⟨fun ⟨hl, hs, h⟩ => ⟨⟨hs, hl⟩, h⟩, fun ⟨⟨hs, hl⟩, h⟩ => ⟨hl, hs, h⟩⟩

/-- Once they have been stopped nothing is left to be killed. -/
theorem killAll_stopped {l : List κ} (h : ∀ s ∈ l, (w.proc s).running = false) :
    killAll w l = w := by
  induction l with
  | nil => rfl
  | cons s l ih =>
    rw [killAll, List.foldl_cons, processKill_idle (h s List.mem_cons_self)]
    exact ih fun t ht => h t (List.mem_cons_of_mem _ ht)

end ProcessControl
