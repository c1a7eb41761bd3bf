import Agentd.BlockContents
import Agentd.ServicePrivileges

/-! # Rounds of attestation

In a build with attestation a submitted transaction waits in the process queue until the attestation
service has tested it. From time to time the service reads the queue from its head; a transaction
that passes three tests is promoted, any other is dropped. -/
namespace AttestationRounds

open ByteString
open FaultyTransactions
open DataserviceRecords
open DataserviceStore
open DataserviceQueue
open DataserviceBlocks
open DataserviceRequests hiding Run
open DataserviceEffects
open ProcessQueueRefinement
open ProcessQueueRuns
open BlockContents
open ServicePrivileges (Owner reducedcaps privileges isset_reducedcaps)
open TransitionRuns

/-! ### The tests -/

/-- The status of a test, zero for a transaction that passes. -/
structure Tests where
  verifyTxnHasValidFields : DataTransactionNode → Bytes → BitVec 32
  verifyTxnIsInCorrectSequence : DataTransactionNode → Bytes → BitVec 32
  verifyTxnIsUnique : DataTransactionNode → Bytes → BitVec 32

/-- None of the tests is filled out yet. -/
def attestationserviceTests : Tests where
  verifyTxnHasValidFields _ _ := -1
  verifyTxnIsInCorrectSequence _ _ := -1
  verifyTxnIsUnique _ _ := -1

def Tests.passes (T : Tests) (node : DataTransactionNode) (cert : Bytes) : Bool :=
  T.verifyTxnHasValidFields node cert = 0 && T.verifyTxnIsInCorrectSequence node cert = 0 &&
    T.verifyTxnIsUnique node cert = 0

/-! ### The service -/

/-- Where the loop is: between rounds, or before a request to the data service. -/
inductive Phase where
  | asleep
  /-- For the first transaction, or for the one with the id. -/
  | querying (txnId : Option Uuid)
  | promoting (node : DataTransactionNode)
  /-- Promoted; its artifact is not in the tree. -/
  | queryingArtifact (node : DataTransactionNode)
  | dropping (node : DataTransactionNode)
  | exited
  deriving DecidableEq

structure Trees where
  transactions : Uuid → Option DataTransactionNode
  artifacts : Uuid → Option DataArtifactRecord

def clearedTrees : Trees := ⟨fun _ => none, fun _ => none⟩

def Phase.request : Phase → Option Request
  | .asleep => none
  | .querying none => some .transactionGetFirst
  | .querying (some txnId) => some (.transactionGet txnId)
  | .promoting node => some (.transactionPromote node.key)
  | .queryingArtifact node => some (.artifactGet node.artifactId)
  | .dropping node => some (.transactionDrop node.key)
  | .exited => none

def verdict (T : Tests) (node : DataTransactionNode) (cert : Bytes) : Phase :=
  if T.verifyTxnHasValidFields node cert ≠ 0 then .dropping node
  else if T.verifyTxnIsInCorrectSequence node cert ≠ 0 then .dropping node
  else if T.verifyTxnIsUnique node cert ≠ 0 then .dropping node
  else .promoting node

/-- On to the next transaction, or to the end of the round, where the trees are cleared. -/
def advance (node : DataTransactionNode) (trees : Trees) : Phase × Trees :=
  if node.next = ffUuid then (.asleep, clearedTrees) else (.querying (some node.next), trees)

def updateOrInsertArtifact (trees : Trees) (artifact : DataArtifactRecord) : Trees :=
  match trees.artifacts artifact.key with
  | none => { trees with
      artifacts := Function.update trees.artifacts artifact.key (some artifact) }
  | some curr => { trees with
      artifacts := Function.update trees.artifacts artifact.key (some { curr with
        txnLatest := artifact.txnLatest, netStateLatest := artifact.netStateLatest }) }

def artifactRecordValueCreate (node : DataTransactionNode) : DataArtifactRecord :=
  ⟨node.artifactId, node.key, node.key, 0, 0, node.netTxnState⟩

def setLatest (trees : Trees) (node : DataTransactionNode) (artifact : DataArtifactRecord) :
    Trees :=
  updateOrInsertArtifact trees { artifact with
    txnLatest := node.key, netStateLatest := node.netTxnState }

/-- `attestationservice_transaction_tree_insert`, up to a request for the artifact. Whether a
transaction follows another one is read off its place in the queue. -/
def transactionTreeInsert (node : DataTransactionNode) (trees : Trees) : Phase × Trees :=
  if (trees.transactions node.key).isSome then (.exited, trees)
  else
    let trees := { trees with
      transactions := Function.update trees.transactions node.key (some node) }
    if node.prev = zeroUuid then
      advance node (updateOrInsertArtifact trees (artifactRecordValueCreate node))
    else
      match trees.artifacts node.artifactId with
      | some artifact => advance node (setLatest trees node artifact)
      | none => (.queryingArtifact node, trees)

/-- What the answer to a request leads to. The state of a transaction is looked at only when it is
the first one of the round, and the status of a drop not at all. -/
def answered (T : Tests) (trees : Trees) : Phase → Except AgentdError Reply → Phase × Trees
  | .querying none, .error .notFound => (.asleep, clearedTrees)
  | .querying none, .ok (.transaction node cert) =>
    if node.netTxnState = TransactionNodeState.submitted.code then (verdict T node cert, trees)
    else (.asleep, clearedTrees)
  | .querying (some _), .ok (.transaction node cert) => (verdict T node cert, trees)
  | .promoting node, .ok _ => transactionTreeInsert node trees
  | .queryingArtifact node, .ok (.artifact record) => advance node (setLatest trees node record)
  | .dropping node, _ => advance node trees
  | _, _ => (.exited, trees)

/-! ### The service and its data service -/

/-- What a request of the service meets. Where the response is not read, or what it leads to finds
no memory, the service ends. -/
structure CallOutcome where
  sent : Bool
  faults : FaultPattern
  commitFails : Bool
  received : Bool

structure System where
  store : Store
  phase : Phase
  trees : Trees
  /-- All calls on the data service, in their order. -/
  calls : List (Invocation × Outcome)

inductive Event where
  | wake
  | sleepFails
  | call (o : CallOutcome)
  /-- A call by another client of the store. -/
  | other (i : Invocation)

def CallOutcome.invocation (o : CallOutcome) (r : Request) : Invocation :=
  ⟨r, reducedcaps .attestation, o.faults, o.commitFails⟩

/-- A call on the store; one that leads to undefined behaviour has no next state. -/
def served (E : Env) (s : System) (i : Invocation) : Option (Except AgentdError Reply × System) :=
  let r := perform E s.store i
  let s := { s with store := r.2, calls := s.calls ++ [(i, r.1)] }
  match r.1 with
  | .ok a => some (.ok a, s)
  | .error (.fail e) => some (.error e, s)
  | .error .undefined => none

variable (E : Env) (T : Tests)

/-- `attestationservice_event_loop` and `attestationservice_do_attestation`, among the other
clients. A build without attestation only sleeps. -/
def step (s : System) : Event → Option System
  | .wake =>
    if s.phase = .asleep then some { s with
      phase := if E.attestation then .querying none else .asleep }
    else none
  | .sleepFails => if s.phase = .asleep then some { s with phase := .exited } else none
  | .call o =>
    match s.phase.request with
    | none => none
    | some r =>
      if o.sent = false then some { s with phase := .exited }
      else (served E s (o.invocation r)).map fun (outcome, s) =>
        if o.received = false then { s with phase := .exited }
        else
          let (phase, trees) := answered T s.trees s.phase outcome
          { s with phase := phase, trees := trees }
  | .other i => (served E s i).map Prod.snd

def opened (store : Store) : System := ⟨store, .asleep, clearedTrees, []⟩

def working : CallOutcome := ⟨true, noFaults, false, true⟩

/-! ### What a round does to the queue -/

def prevId (pre : List Entry) : Uuid := (pre.getLast?.map Entry.id).getD zeroUuid

def nodeAt (done : List Entry) (e : Entry) (rest : List Entry) : DataTransactionNode :=
  e.node (prevId done) (nextId rest)

/-- Whether the tree insert finds what it needs: the first entry of the queue needs nothing, another
one its artifact, from this round or from the database. -/
def insertable (inDb : Uuid → Bool) (done : List Entry) (e : Entry) : Bool :=
  done.isEmpty || done.any (fun p => p.artifactId = e.artifactId) || inDb e.artifactId

/-- The queue at the end of a round that has promoted `done`, and whether the service lives on. -/
def attestFrom (T : Tests) (inDb : Uuid → Bool) : List Entry → List Entry → List Entry × Bool
  | done, [] => (done, true)
  | done, e :: rest =>
    if T.passes (nodeAt done e rest) e.cert then
      if insertable inDb done e then attestFrom T inDb (done ++ [attestedEntry e]) rest
      else (done ++ attestedEntry e :: rest, false)
    else attestFrom T inDb done rest

def afterRound (T : Tests) (inDb : Uuid → Bool) : List Entry → List Entry × Bool
  | [] => ([], true)
  | e :: rest =>
    if e.state = TransactionNodeState.submitted.code then attestFrom T inDb [] (e :: rest)
    else (e :: rest, true)

/-- Tests that no transaction passes leave only what was promoted before. -/
theorem attestFrom_of_failing {T : Tests} (h : ∀ node cert, T.passes node cert = false)
    (inDb : Uuid → Bool) (done rest : List Entry) : attestFrom T inDb done rest = (done, true) := by
  induction rest with
  | nil => rfl
  | cons e rest ih => rw [attestFrom, h, if_neg Bool.false_ne_true, ih]

/-! ### Reads and writes of a round -/

section Queue

variable {d : Store} {done rest : List Entry} {e : Entry}

theorem split_unique {l l' r r' : List Entry} {x : Entry} (hnd : (ids (l ++ x :: r)).Nodup)
    {y : Entry} (hid : y.id = x.id) (h : l ++ x :: r = l' ++ y :: r') :
    l = l' ∧ x = y ∧ r = r' := by
  have hyx : y = x := List.inj_on_of_nodup_map hnd (by simp [h]) (by simp) hid
  subst hyx
  have hcons := List.nodup_cons.mp (List.nodup_middle.mp (List.Nodup.of_map _ hnd))
  rw [List.append_cons_inj_of_notMem (fun hy => hcons.1 (List.mem_append_left _ hy))
    (fun hy => hcons.1 (List.mem_append_right _ hy))] at h
  obtain ⟨hl, -, hr⟩ := h
  exact ⟨hl, rfl, hr⟩

theorem id_ne_of_represents (hq : Represents d.pqDb (done ++ e :: rest)) :
    ∀ x ∈ done ++ rest, x.id ≠ e.id := by
  intro x hx heq
  have hnd := nodup_of_framed (nodup_of_represents hq)
  simp only [ids, List.map_append, List.map_cons] at hnd
  have hcons := List.nodup_cons.mp (List.nodup_middle.mp hnd)
  apply hcons.1
  rw [← heq, ← List.map_append]
  exact List.mem_map_of_mem hx

/-- A read shows an entry between its neighbours. -/
theorem shows_nodeAt (hq : Represents d.pqDb (done ++ e :: rest)) {node : DataTransactionNode}
    {cert : Bytes} (h : Shows (done ++ e :: rest) e.id node cert) :
    node = nodeAt done e rest ∧ cert = e.cert := by
  obtain ⟨hnext, -, hcert⟩ := shows_entry hq h
  obtain ⟨l, p, x, n, r, hframed, -, hid, rfl, -⟩ := h
  have hsplit : framed (done ++ e :: rest) = (startEntry :: done) ++ e :: (rest ++ [endEntry]) := by
    simp [framed]
  have hnd := nodup_of_represents hq
  rw [hsplit] at hnd hframed
  have hframed' : (startEntry :: done) ++ e :: (rest ++ [endEntry]) =
      (l ++ [p]) ++ x :: (n :: r) := by
    rw [hframed, List.append_assoc, List.singleton_append]
  obtain ⟨hl, rfl, -⟩ := split_unique hnd hid hframed'
  have hp : p.id = prevId done := by
    rcases List.eq_nil_or_concat done with rfl | ⟨init, last, rfl⟩
    · have hl' : [] ++ [startEntry] = l ++ [p] := hl
      obtain ⟨-, hlast⟩ := List.append_inj' hl' rfl
      obtain ⟨rfl, -⟩ := List.cons.inj hlast
      rfl
    · rw [List.concat_eq_append, ← List.cons_append] at hl
      obtain ⟨-, hlast⟩ := List.append_inj' hl rfl
      obtain ⟨rfl, -⟩ := List.cons.inj hlast
      simp [prevId]
  refine ⟨?_, hcert⟩
  have hn : n.id = nextId rest := hnext
  rw [nodeAt, hp, hn]

theorem works_invocation (r : Request) : (working.invocation r).Works :=
  ⟨⟨fun _ => rfl, fun _ => rfl, fun _ => rfl, fun _ => rfl⟩, rfl, fun _ => rfl⟩

theorem permitted_invocation {r : Request} (hr : r.capability ∈ privileges .attestation) :
    (working.invocation r).Permitted :=
  ⟨(isset_reducedcaps .attestation r.capability).mpr hr,
    ⟨fun _ => rfl, fun _ => rfl, fun _ => rfl, fun _ => rfl⟩⟩

theorem perform_get (E : Env) (hq : Represents d.pqDb (done ++ e :: rest)) :
    perform E d (working.invocation (.transactionGet e.id)) =
      (.ok (.transaction (nodeAt done e rest) e.cert), d) := by
  obtain ⟨hsound, hcomplete⟩ := get_answers (E := E) hq
    (i := working.invocation (.transactionGet e.id)) rfl (works_invocation _).lmdb
  obtain ⟨a, ha⟩ := hcomplete (permitted_invocation (by simp [Request.capability, privileges]))
    (by simp [ids])
  obtain ⟨node, cert, rfl, hshows⟩ := hsound a ha
  obtain ⟨rfl, rfl⟩ := shows_nodeAt hq hshows
  obtain ⟨w, -, ⟨rfl, -⟩, hw⟩ := perform_ok ha
  exact Prod.ext ha hw

theorem perform_getFirst (E : Env) (hq : Represents d.pqDb (e :: rest)) :
    perform E d (working.invocation .transactionGetFirst) =
      (.ok (.transaction (nodeAt [] e rest) e.cert), d) := by
  obtain ⟨hsound, hcomplete⟩ := getFirst_answers (E := E) hq
    (i := working.invocation .transactionGetFirst) rfl (works_invocation _).lmdb
  obtain ⟨a, ha⟩ := hcomplete (permitted_invocation (by simp [Request.capability, privileges]))
    (by simp)
  obtain ⟨e', node, cert, hhead, rfl, hshows⟩ := hsound a ha
  obtain rfl := Option.some.inj hhead
  have hq' : Represents d.pqDb ([] ++ e :: rest) := hq
  obtain ⟨rfl, rfl⟩ := shows_nodeAt hq' hshows
  obtain ⟨w, -, ⟨rfl, -⟩, hw⟩ := perform_ok ha
  exact Prod.ext ha hw

theorem perform_getFirst_empty (E : Env) (hq : Represents d.pqDb []) :
    perform E d (working.invocation .transactionGetFirst) = (.error (.fail .notFound), d) := by
  obtain ⟨m, hkey⟩ := firstKey_empty hq ⟨1, [.begun]⟩
  obtain ⟨m', habort⟩ := mdbTxnAbort_ends noFaults d m
  have hcap : bitcapIsset (reducedcaps .attestation) .appPqTransactionFirstRead = true :=
    (isset_reducedcaps _ _).mpr (by simp [privileges])
  have hbegin : mdbTxnBegin.run noFaults ⟨d, [], ⟨0, []⟩, false⟩ =
      .ok () ⟨d, [d], ⟨1, [.begun]⟩, false⟩ := rfl
  have hfirst : ((Prog.inTxn firstKey).finally' mdbTxnAbort).run noFaults
      ⟨d, [d], ⟨1, [.begun]⟩, false⟩ = .stop (.fail .notFound) ⟨d, [], m', false⟩ := by
    simp [Prog.finally', Prog.run_bind, Prog.onFail, Prog.inTxn, hkey, habort]
  have hget : (transactionGetFirst (reducedcaps .attestation)).run noFaults
      ⟨d, [], ⟨0, []⟩, false⟩ = .stop (.fail .notFound) ⟨d, [], m', false⟩ := by
    rw [transactionGetFirst, authorize, Prog.reject, if_neg (by rw [hcap]; decide)]
    exact (Prog.run_bind_ok _ hbegin).trans (Prog.run_bind_stop _ hfirst)
  have hrun : (Request.run E (reducedcaps .attestation) .transactionGetFirst).run noFaults
      ⟨d, [], ⟨0, []⟩, false⟩ = .stop (.fail .notFound) ⟨d, [], m', false⟩ :=
    Prog.run_bind_stop _ hget
  simp only [perform, CallOutcome.invocation, working, hrun]

theorem perform_promote (E : Env) (hq : Represents d.pqDb (done ++ e :: rest)) : ∃ pq',
    perform E d (working.invocation (.transactionPromote e.id)) =
      (.ok .done, { d with pqDb := pq' }) ∧ Represents pq' (done ++ attestedEntry e :: rest) := by
  obtain ⟨-, hcomplete⟩ := promote_answers (E := E) hq
    (i := working.invocation (.transactionPromote e.id)) rfl (works_invocation _).lmdb
  have hok := hcomplete (permitted_invocation (by simp [Request.capability, privileges]))
    (by simp [ids])
  obtain ⟨w, -, ⟨-, ⟨hz, hf⟩, hends⟩, hw⟩ := perform_ok hok
  obtain ⟨pq', rfl, hs⟩ := transactionPromoteBody_ends hends
  refine ⟨pq', Prod.ext hok hw, ?_⟩
  rw [← attestId_split (id_ne_of_represents hq)]
  exact (hq.promote hz hf hs).2

theorem perform_drop (E : Env) (hq : Represents d.pqDb (done ++ e :: rest)) : ∃ pq',
    perform E d (working.invocation (.transactionDrop e.id)) =
      (.ok .done, { d with pqDb := pq' }) ∧ Represents pq' (done ++ rest) := by
  obtain ⟨-, hcomplete⟩ := drop_answers (E := E) hq
    (i := working.invocation (.transactionDrop e.id)) rfl (works_invocation _).lmdb
  have hok := hcomplete (permitted_invocation (by simp [Request.capability, privileges]))
    (by simp [ids])
  obtain ⟨w, -, ⟨-, ⟨hz, hf⟩, hends⟩, hw⟩ := perform_ok hok
  obtain ⟨pq', rfl, hs⟩ := transactionDropBody_ends hends
  refine ⟨pq', Prod.ext hok hw, ?_⟩
  rw [← withoutId_split (id_ne_of_represents hq)]
  exact (hq.drop hz hf hs).2

def KeyedRecords (art : Uuid → Option Bytes) : Prop :=
  ∀ a b, art a = some b → b.length = sizeofArtifactRecord ∧ (DataArtifactRecord.decode b).key = a

theorem perform_artifactGet_present (E : Env) (hd : KeyedRecords d.artifactDb) {a : Uuid}
    {b : Bytes}
    (hb : d.artifactDb a = some b) : ∃ record,
      perform E d (working.invocation (.artifactGet a)) = (.ok (.artifact record), d) ∧
        record.key = a := by
  obtain ⟨hlen, hkey⟩ := hd a b hb
  refine ⟨_, ?_, hkey⟩
  have hp : (working.invocation (.artifactGet a)).Permitted :=
    permitted_invocation (by simp [Request.capability, privileges])
  have hy := artifactGetBody_yields (works_invocation (.artifactGet a)).lmdb hb hlen
  have hget : Delivers (artifactGet (reducedcaps .attestation) a) noFaults d []
      (DataArtifactRecord.decode b) d :=
    authorize_delivers hp.capability
      (inReadTxn_delivers (works_invocation (.artifactGet a)).lmdb hy)
  have hd : Delivers (Request.run E (reducedcaps .attestation) (.artifactGet a)) noFaults d []
      (.artifact (DataArtifactRecord.decode b)) d := hget.bind_pure Reply.artifact
  rw [perform_of_delivers (i := working.invocation (.artifactGet a)) hd, ite_self]

theorem perform_artifactGet_absent (E : Env) {a : Uuid} (hb : d.artifactDb a = none) :
    ∃ err, perform E d (working.invocation (.artifactGet a)) = (.error (.fail err), d) := by
  rcases perform_cases E d (working.invocation (.artifactGet a)) with ⟨hu, -⟩ | he |
    ⟨x, w, -, heff, -⟩
  · rcases hu with hu | ⟨-, hcommit⟩
    · exact hu.elim
    · cases hcommit
  · exact he
  · obtain ⟨-, record, u, -, hends⟩ := heff
    obtain ⟨b, v, hget, -⟩ := hends.of_bind
    obtain ⟨-, hb'⟩ := getOrFail_ends hget
    cases hb.symm.trans hb'

end Queue

/-! ### One entry of a round -/

section Round

variable {E : Env} {T : Tests} {d v w : Store} {s t u : System} {n : ℕ} {done rest : List Entry}
  {e : Entry} {trees : Trees} {artifact : DataArtifactRecord}

def Calls (E : Env) (T : Tests) (s : System) (n : ℕ) (t : System) : Prop :=
  ∃ log, Run (step E T) s log t ∧ log.map Taken.event = List.replicate n (.call working)

theorem Calls.refl (s : System) : Calls E T s 0 s := ⟨[], .nil, rfl⟩

theorem Calls.cons (taken : step E T s (.call working) = some t) (h : Calls E T t n u) :
    Calls E T s (n + 1) u := by
  obtain ⟨log, hrun, hevents⟩ := h
  exact ⟨_, .cons taken hrun, by rw [List.map_cons, hevents, List.replicate_succ]⟩

theorem Calls.trans {m : ℕ} (h : Calls E T s n t) (h' : Calls E T t m u) :
    Calls E T s (n + m) u := by
  obtain ⟨log, hrun, hevents⟩ := h
  obtain ⟨log', hrun', hevents'⟩ := h'
  exact ⟨_, hrun.trans hrun', by rw [List.map_append, hevents, hevents', List.replicate_add]⟩

theorem served_eq {i : Invocation} {x : Except AgentdError Reply}
    (hp : perform E s.store i = (x.mapError Stop.fail, w)) :
    served E s i = some (x, { s with
      store := w, calls := s.calls ++ [(i, x.mapError Stop.fail)] }) := by
  unfold served
  rw [hp]
  cases x with
  | error err => rfl
  | ok a => rfl

theorem step_working {r : Request} {x : Except AgentdError Reply} (hr : s.phase.request = some r)
    (hp : perform E s.store (working.invocation r) = (x.mapError Stop.fail, w)) :
    ∃ t, step E T s (.call working) = some t ∧ t.store = w ∧
      (t.phase, t.trees) = answered T s.trees s.phase x := by
  refine ⟨⟨w, (answered T s.trees s.phase x).1, (answered T s.trees s.phase x).2,
    s.calls ++ [(working.invocation r, x.mapError Stop.fail)]⟩, ?_, rfl, rfl⟩
  simp only [step, hr, served_eq hp]
  rfl

theorem updateOrInsertArtifact_isSome (trees : Trees) (artifact : DataArtifactRecord) (a : Uuid) :
    ((updateOrInsertArtifact trees artifact).artifacts a).isSome =
      ((trees.artifacts a).isSome || decide (artifact.key = a)) := by
  unfold updateOrInsertArtifact
  by_cases ha : a = artifact.key
  · subst ha
    cases trees.artifacts artifact.key with
    | none => simp
    | some curr => simp
  · cases trees.artifacts artifact.key with
    | none => simp [Function.update_of_ne ha, Ne.symm ha]
    | some curr => simp [Function.update_of_ne ha, Ne.symm ha]

theorem updateOrInsertArtifact_transactions (trees : Trees) (artifact : DataArtifactRecord) :
    (updateOrInsertArtifact trees artifact).transactions = trees.transactions := by
  unfold updateOrInsertArtifact
  cases trees.artifacts artifact.key with
  | none => rfl
  | some curr => rfl

def KeyedTree (trees : Trees) : Prop :=
  ∀ a record, trees.artifacts a = some record → record.key = a

theorem KeyedTree.updateOrInsertArtifact (h : KeyedTree trees) (artifact : DataArtifactRecord) :
    KeyedTree (updateOrInsertArtifact trees artifact) := by
  intro a record ha
  unfold AttestationRounds.updateOrInsertArtifact at ha
  cases hcurr : trees.artifacts artifact.key with
  | none =>
    simp only [hcurr, Function.update_apply] at ha
    split at ha
    · next heq => exact (congrArg _ (Option.some.inj ha).symm).trans heq.symm
    · exact h a record ha
  | some curr =>
    simp only [hcurr, Function.update_apply] at ha
    split at ha
    · next heq =>
      have hkey := h artifact.key curr hcurr
      rw [← Option.some.inj ha, heq]
      exact hkey
    · exact h a record ha

/-- Between two entries: `done` was promoted, `rest` is still to come, and nothing but the queue has
changed. -/
structure Between (d : Store) (done rest : List Entry) (v : Store) (trees : Trees) : Prop where
  queue : Represents v.pqDb (done ++ rest)
  frame : v = { d with pqDb := v.pqDb }
  transactions : ∀ k, (trees.transactions k).isSome = true → k ∈ ids done
  artifacts : ∀ a, (trees.artifacts a).isSome = done.any fun p => p.artifactId = a
  keyed : KeyedTree trees

theorem prevId_eq_zero (hq : Represents d.pqDb (done ++ rest)) :
    prevId done = zeroUuid ↔ done = [] := by
  rcases List.eq_nil_or_concat done with rfl | ⟨init, last, rfl⟩
  · exact ⟨fun _ => rfl, fun _ => rfl⟩
  · have hmem : last.id ∈ ids (init.concat last ++ rest) := by simp [ids]
    have hne := (mem_ids_ne hq hmem).1
    simp [prevId, hne]

/-- A promoted entry joins those that are done. -/
theorem Between.learn (h : Between d done (e :: rest) v trees)
    (hq : Represents w.pqDb (done ++ attestedEntry e :: rest)) (hw : w = { v with pqDb := w.pqDb })
    (node : DataTransactionNode) (hkey : artifact.key = e.artifactId) :
    Between d (done ++ [attestedEntry e]) rest w (updateOrInsertArtifact { trees with
      transactions := Function.update trees.transactions e.id (some node) } artifact) where
  queue := by simpa using hq
  frame := by
    rw [hw, h.frame]
  transactions k hk := by
    rw [updateOrInsertArtifact_transactions] at hk
    by_cases hke : k = e.id
    · simp [hke, ids, attestedEntry]
    · simp only [Function.update_of_ne hke] at hk
      have hmem := h.transactions k hk
      simp only [ids, List.map_append, List.mem_append] at hmem ⊢
      exact Or.inl hmem
  artifacts a := by
    rw [updateOrInsertArtifact_isSome, hkey, h.artifacts a]
    simp [attestedEntry]
  keyed := by
    apply KeyedTree.updateOrInsertArtifact
    exact h.keyed

def inDb (d : Store) (a : Uuid) : Bool := (d.artifactDb a).isSome

/-- Behind a promotion: at most one request, for the artifact. -/
theorem insert_promoted (hd : KeyedRecords d.artifactDb) (h : Between d done (e :: rest) v trees)
    (hq : Represents w.pqDb (done ++ attestedEntry e :: rest)) (hw : w = { v with pqDb := w.pqDb })
    (hstore : s.store = w)
    (hs : (s.phase, s.trees) = transactionTreeInsert (nodeAt done e rest) trees) :
    ∃ n t, n ≤ 1 ∧ Calls E T s n t ∧ t.store = w ∧
      if insertable (inDb d) done e then
        ∃ trees', Between d (done ++ [attestedEntry e]) rest w trees' ∧
          (t.phase, t.trees) = advance (nodeAt done e rest) trees'
      else t.phase = .exited := by
  have hnew : (trees.transactions e.id).isSome = false := by
    by_contra hold
    have hmem := h.transactions e.id (Bool.not_eq_false _ ▸ hold)
    obtain ⟨x, hx, hxe⟩ := List.mem_map.mp hmem
    exact id_ne_of_represents h.queue x (List.mem_append_left _ hx) hxe
  have hkey : (nodeAt done e rest).key = e.id := rfl
  have hart : (nodeAt done e rest).artifactId = e.artifactId := rfl
  have hprev : (nodeAt done e rest).prev = prevId done := rfl
  simp only [transactionTreeInsert, hkey, hart, hprev, hnew, Bool.false_eq_true, if_false,
    prevId_eq_zero h.queue] at hs
  by_cases hdone : done = []
  · rw [if_pos hdone] at hs
    have hins : insertable (inDb d) done e = true := by simp [insertable, hdone]
    refine ⟨0, s, by omega, .refl s, hstore, ?_⟩
    rw [if_pos hins]
    exact ⟨_, h.learn hq hw (nodeAt done e rest) rfl, hs⟩
  · rw [if_neg hdone] at hs
    have hempty : done.isEmpty = false := by simp [hdone]
    have hany := h.artifacts e.artifactId
    cases hcurr : trees.artifacts e.artifactId with
    | some record =>
      simp only [hcurr] at hs hany
      have hins : insertable (inDb d) done e = true := by simp [insertable, ← hany]
      have hrecord : record.key = e.artifactId := h.keyed _ _ hcurr
      refine ⟨0, s, by omega, .refl s, hstore, ?_⟩
      rw [if_pos hins]
      refine ⟨_, ?_, hs⟩
      exact h.learn hq hw (nodeAt done e rest) hrecord
    | none =>
      simp only [hcurr] at hs hany
      obtain ⟨hphase, htrees⟩ := Prod.mk.inj hs
      have hins : insertable (inDb d) done e = inDb d e.artifactId := by
        simp [insertable, hempty, ← hany]
      have hsame : s.store.artifactDb = d.artifactDb := by
        rw [hstore, hw, h.frame]
      have hr : s.phase.request = some (.artifactGet e.artifactId) := by
        rw [hphase]
        rfl
      rw [hins]
      cases hb : d.artifactDb e.artifactId with
      | none =>
        obtain ⟨err, hp⟩ := perform_artifactGet_absent (d := s.store) E (by rw [hsame, hb])
        obtain ⟨t, hstep, ht, hanswer⟩ := step_working (T := T) (x := .error err) hr hp
        rw [hphase] at hanswer
        refine ⟨1, t, le_refl 1, .cons hstep (.refl t), ht.trans hstore, ?_⟩
        rw [if_neg (by simp [inDb, hb])]
        exact (Prod.mk.inj hanswer).1
      | some b =>
        obtain ⟨record, hp, hrecord⟩ := perform_artifactGet_present (d := s.store) E
          (by rw [hsame]; exact hd) (by rw [hsame, hb])
        obtain ⟨t, hstep, ht, hanswer⟩ := step_working (T := T) (x := .ok (.artifact record)) hr hp
        rw [hphase, htrees] at hanswer
        refine ⟨1, t, le_refl 1, .cons hstep (.refl t), ht.trans hstore, ?_⟩
        rw [if_pos (by simp [inDb, hb])]
        refine ⟨_, ?_, hanswer⟩
        exact h.learn hq hw (nodeAt done e rest) hrecord

theorem verdict_eq (T : Tests) (node : DataTransactionNode) (cert : Bytes) :
    verdict T node cert = if T.passes node cert then .promoting node else .dropping node := by
  unfold verdict Tests.passes
  by_cases h₁ : T.verifyTxnHasValidFields node cert = 0#32
  · by_cases h₂ : T.verifyTxnIsInCorrectSequence node cert = 0#32
    · by_cases h₃ : T.verifyTxnIsUnique node cert = 0#32
      · simp [h₁, h₂, h₃]
      · simp [h₁, h₂, h₃]
    · simp [h₁, h₂]
  · simp [h₁]

def onward (trees : Trees) : List Entry → Phase × Trees
  | [] => (.asleep, clearedTrees)
  | e :: _ => (.querying (some e.id), trees)

theorem advance_nodeAt (hq : Represents v.pqDb (done ++ e :: rest)) (trees : Trees) :
    advance (nodeAt done e rest) trees = onward trees rest := by
  have hnext : (nodeAt done e rest).next = nextId rest := rfl
  rw [advance, hnext]
  cases rest with
  | nil => rfl
  | cons f rest => exact if_neg fun hff => nomatch (nextId_eq_ff hq).mp hff

structure Ended (d : Store) (r : List Entry × Bool) (t : System) : Prop where
  queue : Represents t.store.pqDb r.1
  frame : t.store = { d with pqDb := t.store.pqDb }
  phase : t.phase = if r.2 then .asleep else .exited

/-- An entry that passes is promoted, any other is dropped. -/
theorem entry_tested (hd : KeyedRecords d.artifactDb)
    (h : Between d done (e :: rest) s.store s.trees)
    (hs : s.phase = verdict T (nodeAt done e rest) e.cert) :
    ∃ n t, n ≤ 2 ∧ Calls E T s n t ∧
      if T.passes (nodeAt done e rest) e.cert then
        if insertable (inDb d) done e then
          ∃ trees, Between d (done ++ [attestedEntry e]) rest t.store trees ∧
            (t.phase, t.trees) = onward trees rest
        else Ended d (done ++ attestedEntry e :: rest, false) t
      else ∃ trees, Between d done rest t.store trees ∧ (t.phase, t.trees) = onward trees rest := by
  rw [verdict_eq] at hs
  by_cases hpass : T.passes (nodeAt done e rest) e.cert = true
  · rw [if_pos hpass] at hs
    have hr : s.phase.request = some (.transactionPromote e.id) := by
      rw [hs]
      rfl
    obtain ⟨pq', hp, hq⟩ := perform_promote E h.queue
    obtain ⟨t, hstep, ht, hanswer⟩ := step_working (T := T) (x := .ok .done) hr hp
    rw [hs] at hanswer
    obtain ⟨n, u, hn, hcalls, hu, hend⟩ := insert_promoted (E := E) (T := T) hd h hq rfl ht hanswer
    refine ⟨n + 1, u, by omega, .cons hstep hcalls, ?_⟩
    rw [if_pos hpass]
    by_cases hins : insertable (inDb d) done e = true
    · rw [if_pos hins] at hend ⊢
      obtain ⟨trees, hbetween, honward⟩ := hend
      rw [advance_nodeAt h.queue] at honward
      refine ⟨trees, ?_, honward⟩
      rw [hu]
      exact hbetween
    · rw [if_neg hins] at hend ⊢
      refine ⟨?_, ?_, hend⟩
      · rw [hu]
        exact hq
      · rw [hu, h.frame]
  · rw [if_neg hpass] at hs
    have hr : s.phase.request = some (.transactionDrop e.id) := by
      rw [hs]
      rfl
    obtain ⟨pq', hp, hq⟩ := perform_drop E h.queue
    obtain ⟨t, hstep, ht, hanswer⟩ := step_working (T := T) (x := .ok .done) hr hp
    rw [hs] at hanswer
    refine ⟨1, t, by omega, .cons hstep (.refl t), ?_⟩
    rw [if_neg hpass]
    refine ⟨s.trees, ⟨?_, ?_, h.transactions, h.artifacts, h.keyed⟩, ?_⟩
    · rw [ht]
      exact hq
    · rw [ht, h.frame]
    · rw [← advance_nodeAt h.queue]
      exact hanswer

/-- From the verdict on an entry on, where the entries behind it are done as `hrest` says. -/
theorem round_from_verdict (hd : KeyedRecords d.artifactDb)
    (h : Between d done (e :: rest) s.store s.trees)
    (hs : s.phase = verdict T (nodeAt done e rest) e.cert)
    (hrest : ∀ {done t trees}, Between d done rest t.store trees →
      (t.phase, t.trees) = onward trees rest → ∃ n u, n ≤ 3 * rest.length ∧ Calls E T t n u ∧
        Ended d (attestFrom T (inDb d) done rest) u) : ∃ n t, n ≤ 3 * rest.length + 2 ∧
      Calls E T s n t ∧ Ended d (attestFrom T (inDb d) done (e :: rest)) t := by
  obtain ⟨n, t, hn, hcalls, hend⟩ := entry_tested (E := E) (T := T) hd h hs
  rw [attestFrom]
  by_cases hpass : T.passes (nodeAt done e rest) e.cert = true
  · rw [if_pos hpass] at hend ⊢
    by_cases hins : insertable (inDb d) done e = true
    · rw [if_pos hins] at hend ⊢
      obtain ⟨trees, hb, ht⟩ := hend
      obtain ⟨m, u, hm, hcalls', hended⟩ := hrest hb ht
      exact ⟨n + m, u, by omega, hcalls.trans hcalls', hended⟩
    · rw [if_neg hins] at hend ⊢
      exact ⟨n, t, by omega, hcalls, hend⟩
  · rw [if_neg hpass] at hend ⊢
    obtain ⟨trees, hb, ht⟩ := hend
    obtain ⟨m, u, hm, hcalls', hended⟩ := hrest hb ht
    exact ⟨n + m, u, by omega, hcalls.trans hcalls', hended⟩

/-- The entries one after the other, with at most three requests for each. -/
theorem rest_of_round (hd : KeyedRecords d.artifactDb) (h : Between d done rest s.store trees)
    (hs : (s.phase, s.trees) = onward trees rest) : ∃ n t, n ≤ 3 * rest.length ∧
      Calls E T s n t ∧ Ended d (attestFrom T (inDb d) done rest) t := by
  induction rest generalizing done s trees with
  | nil =>
    obtain ⟨hphase, -⟩ := Prod.mk.inj hs
    have hqueue : Represents s.store.pqDb done := by simpa using h.queue
    exact ⟨0, s, by simp, .refl s, hqueue, h.frame, hphase⟩
  | cons e rest ih =>
    obtain ⟨hphase, htrees⟩ := Prod.mk.inj hs
    have hr : s.phase.request = some (.transactionGet e.id) := by
      rw [hphase]
      rfl
    obtain ⟨t, hstep, ht, hanswer⟩ := step_working (T := T)
      (x := .ok (.transaction (nodeAt done e rest) e.cert)) hr (perform_get E h.queue)
    rw [hphase, htrees] at hanswer
    obtain ⟨hverdict, htrees'⟩ := Prod.mk.inj hanswer
    have hb : Between d done (e :: rest) t.store t.trees := by
      rw [ht, htrees']
      exact h
    obtain ⟨n, u, hn, hcalls, hended⟩ := round_from_verdict hd hb hverdict ih
    refine ⟨n + 1, u, ?_, .cons hstep hcalls, hended⟩
    rw [List.length_cons]
    omega

theorem between_start (hq : Represents s.store.pqDb rest) (htrees : s.trees = clearedTrees) :
    Between s.store [] rest s.store s.trees := by
  rw [htrees]
  refine ⟨hq, rfl, ?_, fun a => rfl, ?_⟩
  · intro k hk
    cases hk
  · intro a record ha
    cases ha

/-- A round from its first request on. -/
theorem round_from_query (hd : KeyedRecords s.store.artifactDb) {q : List Entry}
    (hq : Represents s.store.pqDb q) (hphase : s.phase = .querying none)
    (htrees : s.trees = clearedTrees) : ∃ n t, n ≤ 3 * q.length + 1 ∧ Calls E T s n t ∧
      Ended s.store (afterRound T (inDb s.store) q) t := by
  have hr : s.phase.request = some .transactionGetFirst := by
    rw [hphase]
    rfl
  cases q with
  | nil =>
    obtain ⟨t, hstep, ht, hanswer⟩ := step_working (T := T) (x := .error .notFound) hr
      (perform_getFirst_empty E hq)
    rw [hphase] at hanswer
    refine ⟨1, t, by simp, .cons hstep (.refl t), ?_, ?_, (Prod.mk.inj hanswer).1⟩
    · rw [ht]
      exact hq
    · rw [ht]
  | cons e rest =>
    obtain ⟨t, hstep, ht, hanswer⟩ := step_working (T := T)
      (x := .ok (.transaction (nodeAt [] e rest) e.cert)) hr (perform_getFirst E hq)
    have hstate : (nodeAt [] e rest).netTxnState = e.state := rfl
    rw [hphase, answered, hstate] at hanswer
    rw [afterRound]
    by_cases hsub : e.state = TransactionNodeState.submitted.code
    · rw [if_pos hsub] at hanswer ⊢
      obtain ⟨hverdict, htrees'⟩ := Prod.mk.inj hanswer
      have hb : Between s.store [] (e :: rest) t.store t.trees := by
        rw [ht, htrees']
        exact between_start hq htrees
      obtain ⟨n, u, hn, hcalls, hended⟩ :=
        round_from_verdict (E := E) (T := T) hd hb hverdict fun hb' ht' => rest_of_round hd hb' ht'
      refine ⟨n + 1, u, ?_, .cons hstep hcalls, hended⟩
      rw [List.length_cons]
      omega
    · rw [if_neg hsub] at hanswer ⊢
      refine ⟨1, t, by omega, .cons hstep (.refl t), ?_, ?_, (Prod.mk.inj hanswer).1⟩
      · rw [ht]
        exact hq
      · rw [ht]

end Round

/-! ### Among the other clients -/

/-- Where an answer leads to: a round ends with the trees cleared, and a promotion comes right
behind the read of a transaction that passes. -/
inductive Led (T : Tests) (x : Except AgentdError Reply) : Phase → Trees → Prop
  | asleep : Led T x .asleep clearedTrees
  | querying (txnId : Uuid) (trees : Trees) : Led T x (.querying (some txnId)) trees
  | queryingArtifact (node : DataTransactionNode) (trees : Trees) :
      Led T x (.queryingArtifact node) trees
  | dropping (node : DataTransactionNode) (trees : Trees) : Led T x (.dropping node) trees
  | exited (trees : Trees) : Led T x .exited trees
  | promoting {node : DataTransactionNode} {cert : Bytes} (read : x = .ok (.transaction node cert))
      (passes : T.passes node cert = true) (trees : Trees) : Led T x (.promoting node) trees

section Led

variable {T : Tests} {x : Except AgentdError Reply} {node : DataTransactionNode} {cert : Bytes}
  {trees : Trees}

theorem led_advance : Led T x (advance node trees).1 (advance node trees).2 := by
  unfold advance
  split
  · exact .asleep
  · exact .querying _ _

theorem led_transactionTreeInsert :
    Led T x (transactionTreeInsert node trees).1 (transactionTreeInsert node trees).2 := by
  unfold transactionTreeInsert
  split
  · exact .exited _
  · dsimp only
    split
    · exact led_advance
    · split
      · exact led_advance
      · exact .queryingArtifact _ _

theorem led_verdict (hx : x = .ok (.transaction node cert)) :
    Led T x (verdict T node cert) trees := by
  rw [verdict_eq]
  by_cases hpass : T.passes node cert = true
  · rw [if_pos hpass]
    exact .promoting hx hpass _
  · rw [if_neg hpass]
    exact .dropping _ _

theorem led_answered (phase : Phase) :
    Led T x (answered T trees phase x).1 (answered T trees phase x).2 := by
  unfold answered
  split
  · exact .asleep
  · split
    · exact led_verdict rfl
    · exact .asleep
  · exact led_verdict rfl
  · exact led_transactionTreeInsert
  · exact led_advance
  · exact led_advance
  · exact .exited _

theorem Led.cleared {phase : Phase} (h : Led T x phase trees)
    (hphase : phase = .asleep ∨ phase = .querying none) : trees = clearedTrees := by
  cases h with
  | asleep => rfl
  | _ => simp at hphase

theorem Led.passed {phase : Phase} (h : Led T x phase trees) (hphase : phase = .promoting node) :
    ∃ cert, x = .ok (.transaction node cert) ∧ T.passes node cert = true := by
  cases h with
  | promoting read passes =>
    cases hphase
    exact ⟨_, read, passes⟩
  | _ => cases hphase

end Led

theorem promoting_of_request {phase : Phase} {txnId : Uuid}
    (h : phase.request = some (.transactionPromote txnId)) :
    ∃ node, phase = .promoting node ∧ node.key = txnId := by
  cases phase with
  | promoting node =>
    cases h
    exact ⟨node, rfl, rfl⟩
  | querying txnId => cases txnId <;> cases h
  | _ => cases h

/-- The requests of the service carry no data that a decoder could refuse. -/
theorem decoded_request {phase : Phase} {r : Request} (h : phase.request = some r) : r.Decoded := by
  cases phase with
  | querying txnId => cases txnId <;> (cases h; trivial)
  | asleep => cases h
  | exited => cases h
  | _ =>
    cases h
    trivial

theorem not_submit {phase : Phase} {txnId artifactId : Uuid} {txnBytes : Bytes} :
    phase.request ≠ some (.transactionSubmit txnId artifactId txnBytes) := by
  intro h
  cases phase with
  | querying txnId => cases txnId <;> cases h
  | _ => cases h

/-- A request of the attestation service was answered, and the answer read, with a transaction of
this id that passes. -/
def Passed (E : Env) (T : Tests) (log : List (Taken System Event)) (txnId : Uuid) : Prop :=
  ∃ t ∈ log, ∃ o r node cert, t.event = .call o ∧ o.sent = true ∧ o.received = true ∧
    t.before.phase.request = some r ∧
    (perform E t.before.store (o.invocation r)).1 = .ok (.transaction node cert) ∧
    node.key = txnId ∧ T.passes node cert = true

/-- The database works, and every other client has the privileges of another service. -/
def Allowed : Event → Prop
  | .call o => LmdbWorks o.faults ∧ FindWorks o.faults ∧ o.commitFails = false
  | .other i => QueueCall i ∧ ∃ o, o ≠ Owner.attestation ∧
      ∀ cap, bitcapIsset i.caps cap = true → cap ∈ privileges o
  | _ => True

def Tested (E : Env) (T : Tests) (log : List (Taken System Event)) (q : List Entry) : Prop :=
  ∀ e ∈ q, e.state = TransactionNodeState.submitted.code ∨
    (e.state = TransactionNodeState.attested.code ∧ Passed E T log e.id)

structure Kept (E : Env) (T : Tests) (log : List (Taken System Event)) (s : System) : Prop where
  ran : DataserviceRequests.Run E (fun _ i => QueueCall i) s.calls s.store
  records : KeyedRecords s.store.artifactDb
  cleared : s.phase = .asleep ∨ s.phase = .querying none → s.trees = clearedTrees
  promoted : ∀ node, s.phase = .promoting node → Passed E T log node.key
  tested : E.attestation = true → Tested E T log (queueAfter E s.calls)

section Kept

variable {E : Env} {T : Tests} {d w : Store} {s s' : System} {i : Invocation}
  {x : Except AgentdError Reply} {calls : List (Invocation × Outcome)}
  {log : List (Taken System Event)}

theorem KeyedRecords.updated {art art' : Uuid → Option Bytes} {height : BitVec 64} {c : ChildFields}
    (h : KeyedRecords art) (hu : ArtifactUpdated height c art art') : KeyedRecords art' := by
  have hput : ∀ {b : Bytes}, b.length = sizeofArtifactRecord →
      KeyedRecords (Function.update art (DataArtifactRecord.decode b).key (some b)) := by
    intro b hb a b' hb'
    by_cases ha : a = (DataArtifactRecord.decode b).key
    · rw [ha, Function.update_self] at hb'
      rw [← Option.some.inj hb']
      exact ⟨hb, ha.symm⟩
    · rw [Function.update_of_ne ha] at hb'
      exact h a b' hb'
  rcases hu with ⟨-, rfl⟩ | ⟨b, -, hb, rfl⟩
  · have hnew := hput (b := (⟨c.artifactId, c.transactionId, c.transactionId, height, height,
      c.state⟩ : DataArtifactRecord).encode) (DataArtifactRecord.length_encode _)
    rw [DataArtifactRecord.decode_encode_header] at hnew
    exact hnew
  · exact hput (BlockAcceptance.length_setArtifactLatest hb _ _ _)

theorem KeyedRecords.canonized {height : BitVec 64} {blockId : Uuid}
    {cs : List (Bytes × ChildFields)}
    (h : KeyedRecords d.artifactDb) (hcs : Canonized E height blockId cs d w) :
    KeyedRecords w.artifactDb := by
  induction hcs with
  | nil v => exact h
  | cons first rest ih => exact ih (h.updated first.artifact)

theorem keyedRecords_perform (h : KeyedRecords d.artifactDb) (i : Invocation) :
    KeyedRecords (perform E d i).2.artifactDb := by
  refine perform_preserves (P := fun v => KeyedRecords v.artifactDb) h fun a v _ heff => ?_
  rcases effect_cases heff with ⟨blockId, blockData, fs, -, -, hends⟩ | ⟨-, hsame⟩
  · obtain ⟨_, _, _, blk, cs, -, -, -, hcs, -⟩ := blockMakeBody_ends hends
    have hblk : KeyedRecords (withBlock blockId blk d).artifactDb := h
    exact hblk.canonized hcs
  · rw [hsame.artifact]
    exact h

theorem Passed.append {txnId : Uuid} (h : Passed E T log txnId) (t : Taken System Event) :
    Passed E T (log ++ [t]) txnId := by
  obtain ⟨t', ht', hread⟩ := h
  exact ⟨t', List.mem_append_left _ ht', hread⟩

theorem Kept.append (h : Kept E T log s) (t : Taken System Event) : Kept E T (log ++ [t]) s where
  ran := h.ran
  records := h.records
  cleared := h.cleared
  promoted node hnode := (h.promoted node hnode).append t
  tested hE e he := (h.tested hE e he).imp_right fun ⟨hstate, hpassed⟩ => ⟨hstate, hpassed.append t⟩

/-- A call keeps the attested entries tested when it promotes only what has passed. -/
theorem tested_call (hE : E.attestation = true) (h : Tested E T log (queueAfter E calls))
    {outcome : Outcome} (hpromote : ∀ txnId a, i.request = .transactionPromote txnId →
      outcome = .ok a → Passed E T log txnId) :
    Tested E T log (queueAfter E (calls ++ [(i, outcome)])) := by
  cases outcome with
  | error err =>
    rw [queueAfter, List.foldl_append]
    exact h
  | ok a =>
    rw [queueAfter_ok E rfl]
    cases hr : i.request with
    | transactionSubmit txnId artifactId txnBytes =>
      intro e he
      rcases List.mem_append.mp he with he | he
      · exact h e he
      · rw [List.mem_singleton.mp he]
        left
        simp [submittedEntry, submittedState, hE]
    | transactionDrop txnId => exact fun e he => h e (List.mem_of_mem_filter he)
    | transactionPromote txnId =>
      intro e he
      obtain ⟨e', he', rfl⟩ := List.mem_map.mp he
      by_cases hid : e'.id = txnId
      · rw [if_pos hid]
        refine Or.inr ⟨rfl, ?_⟩
        rw [show (attestedEntry e').id = txnId from hid]
        exact hpromote txnId a hr rfl
      · rw [if_neg hid]
        exact h e' he'
    | blockMake blockId blockData => exact fun e he => h e (List.mem_of_mem_filter he)
    | _ => exact h

theorem served_some (h : served E s i = some (x, s')) :
    (perform E s.store i).1 = x.mapError Stop.fail ∧ s' = { s with
      store := (perform E s.store i).2, calls := s.calls ++ [(i, (perform E s.store i).1)] } := by
  unfold served at h
  cases hp : (perform E s.store i).1 with
  | ok a =>
    simp only [hp] at h
    obtain ⟨rfl, rfl⟩ := Prod.mk.inj (Option.some.inj h)
    exact ⟨rfl, rfl⟩
  | error err =>
    cases err with
    | fail e =>
      simp only [hp] at h
      obtain ⟨rfl, rfl⟩ := Prod.mk.inj (Option.some.inj h)
      exact ⟨rfl, rfl⟩
    | undefined =>
      simp only [hp] at h
      cases h

theorem kept_opened (E : Env) (T : Tests) : Kept E T [] (opened emptyStore) where
  ran := .nil
  records a b hb := by cases hb
  cleared _ := rfl
  promoted node hnode := by cases hnode
  tested _ e he := by cases he

/-- A call whose promotion, if it is one, has passed. -/
theorem Kept.served (h : Kept E T log s) (hs : served E s i = some (x, s')) (hi : QueueCall i)
    (hpromote : ∀ txnId a, i.request = .transactionPromote txnId →
      (perform E s.store i).1 = .ok a → Passed E T log txnId) : Kept E T log s' := by
  obtain ⟨-, rfl⟩ := served_some hs
  exact ⟨.snoc h.ran hi, keyedRecords_perform h.records i, h.cleared, h.promoted,
    fun hE => tested_call hE (h.tested hE) hpromote⟩

theorem Kept.exited (h : Kept E T log s) : Kept E T log { s with phase := .exited } :=
  ⟨h.ran, h.records, fun hphase => by simp at hphase, fun _ hnode => (nomatch hnode), h.tested⟩

theorem kept_step (h : Kept E T log s) {e : Event} (he : Allowed e) (hs : step E T s e = some s') :
    Kept E T (log ++ [⟨s, e, s'⟩]) s' := by
  cases e with
  | wake =>
    simp only [step, Option.ite_none_right_eq_some, Option.some.injEq] at hs
    obtain ⟨hphase, rfl⟩ := hs
    refine Kept.append ?_ _
    refine ⟨h.ran, h.records, fun _ => h.cleared (Or.inl hphase), fun node hnode => ?_, h.tested⟩
    cases hE : E.attestation <;> simp [hE] at hnode
  | sleepFails =>
    simp only [step, Option.ite_none_right_eq_some, Option.some.injEq] at hs
    obtain ⟨-, rfl⟩ := hs
    exact h.exited.append _
  | other i =>
    obtain ⟨hi, o, ho, hcaps⟩ := he
    obtain ⟨⟨x, t⟩, ht, rfl⟩ := Option.map_eq_some_iff.mp hs
    refine Kept.append (h.served ht hi fun txnId a hr ha => ?_) _
    obtain ⟨w, hcap, -⟩ := perform_ok ha
    rw [hr] at hcap
    exact absurd ((ServicePrivileges.mem_privileges o).2.2.1 (hcaps _ hcap)) ho
  | call o =>
    obtain ⟨hlmdb, hfind, hcommit⟩ := he
    simp only [step] at hs
    cases hr : s.phase.request with
    | none =>
      rw [hr] at hs
      cases hs
    | some r =>
      simp only [hr] at hs
      split at hs
      · cases hs
        exact h.exited.append _
      · rename_i hsent
        obtain ⟨⟨x, t⟩, ht, hs'⟩ := Option.map_eq_some_iff.mp hs
        have hi : QueueCall (o.invocation r) := by
          refine ⟨⟨hlmdb, hcommit, hfind⟩, ?_, ?_⟩
          · exact decoded_request hr
          · intro txnId artifactId txnBytes hsubmit
            exact absurd (hr.trans (congrArg some hsubmit)) not_submit
        have hkept : Kept E T log t := h.served ht hi fun txnId a hpr _ => by
          obtain ⟨node, hnode, rfl⟩ := promoting_of_request (hr.trans (congrArg some hpr))
          exact h.promoted node hnode
        obtain ⟨hx, rfl⟩ := served_some ht
        dsimp only at hs'
        split at hs'
        · rw [← hs']
          exact hkept.exited.append _
        · rename_i hreceived
          rw [← hs']
          have hled : Led T x (answered T s.trees s.phase x).1 (answered T s.trees s.phase x).2 :=
            led_answered s.phase
          refine ⟨hkept.ran, hkept.records, ?_, ?_, (hkept.append _).tested⟩
          · intro hphase
            exact hled.cleared hphase
          · intro node hnode
            obtain ⟨cert, rfl, hpass⟩ := hled.passed hnode
            exact ⟨_, List.mem_append_right _ (List.mem_singleton_self _), o, r, node, cert, rfl,
              by simpa using hsent, by simpa using hreceived, hr, hx, rfl, hpass⟩

end Kept

/-! ### Whole runs -/

section Runs

variable {E : Env} {T : Tests} {log : List (Taken System Event)} {s : System}

theorem run_kept (h : Run (step E T) (opened emptyStore) log s)
    (hlog : ∀ t ∈ log, Allowed t.event) : Kept E T log s := by
  refine h.history (P := fun log s => (∀ t ∈ log, Allowed t.event) → Kept E T log s)
    (fun _ => kept_opened E T) ?_ hlog
  intro log s e s' ih hstep hlog
  have hearlier : ∀ t ∈ log, Allowed t.event := fun t ht => hlog t (List.mem_append_left _ ht)
  exact kept_step (ih hearlier) (hlog ⟨s, e, s'⟩ (by simp)) hstep

/-- A sleeping service that nothing disturbs. -/
theorem Kept.round (hE : E.attestation = true) (h : Kept E T log s) (hs : s.phase = .asleep) :
    ∃ n log' t, n ≤ 3 * (queueAfter E s.calls).length + 1 ∧ Run (step E T) s log' t ∧
      log'.map Taken.event = .wake :: List.replicate n (.call working) ∧
      Ended s.store (afterRound T (inDb s.store) (queueAfter E s.calls)) t := by
  have hq := run_represents h.ran
  have hwake : step E T s .wake = some { s with phase := .querying none } := by
    simp [step, hs, hE]
  obtain ⟨n, t, hn, ⟨log', hrun, hevents⟩, hended⟩ :=
    round_from_query (E := E) (T := T) (s := { s with phase := .querying none }) h.records hq rfl
      (h.cleared (Or.inl hs))
  exact ⟨n, _, t, hn, .cons hwake hrun, by rw [List.map_cons, hevents], hended⟩

/-- Whatever has happened before over a working database, without the reserved ids: a round that
nothing disturbs ends after at most three requests for each entry and one more, with the queue that
the abstract round leaves, and the service lives on exactly when that says so. Nothing but the queue
changes. -/
theorem undisturbed_round_attests_queue (hE : E.attestation = true)
    (h : Run (step E T) (opened emptyStore) log s)
    (hlog : ∀ t ∈ log, Allowed t.event) (hs : s.phase = .asleep) : ∃ n log' t,
    n ≤ 3 * (queueAfter E s.calls).length + 1 ∧ Run (step E T) s log' t ∧
      log'.map Taken.event = .wake :: List.replicate n (.call working) ∧
      Ended s.store (afterRound T (inDb s.store) (queueAfter E s.calls)) t :=
  (run_kept h hlog).round hE hs

def sampleTests : Tests where
  verifyTxnHasValidFields _ _ := 0
  verifyTxnIsInCorrectSequence _ cert := if cert = [2] then -1 else 0
  verifyTxnIsUnique _ _ := 0

def submitCall (txnId artifactId : Uuid) (txnBytes : Bytes) : Event :=
  .other ⟨.transactionSubmit txnId artifactId txnBytes, reducedcaps .authProtocol, noFaults, false⟩

theorem allowed_submitCall {txnId artifactId : Uuid} {txnBytes : Bytes} (hz : txnId ≠ zeroUuid)
    (hf : txnId ≠ ffUuid)
    (hd : (Request.transactionSubmit txnId artifactId txnBytes).Decoded) :
    Allowed (submitCall txnId artifactId txnBytes) := by
  refine ⟨⟨⟨(works_invocation .transactionGetFirst).lmdb, rfl, fun _ => rfl⟩, hd, ?_⟩,
    .authProtocol, by decide, ?_⟩
  · intro txnId' artifactId' txnBytes' heq
    cases heq
    exact ⟨hz, hf⟩
  · exact fun cap => (isset_reducedcaps .authProtocol cap).mp

/-- Of the third transaction neither the queue nor the database knows the artifact. -/
def sampleSubmits : List Event := [submitCall 5 7 [1], submitCall 6 7 [2], submitCall 8 9 [3]]

theorem allowed_sampleSubmits : ∀ e ∈ sampleSubmits, Allowed e := by
  intro e he
  simp only [sampleSubmits, List.mem_cons, List.not_mem_nil, or_false] at he
  rcases he with rfl | rfl | rfl
  all_goals exact allowed_submitCall (by decide) (by decide) ⟨by decide, by decide⟩

/-- What a computation of the three submits shows. -/
theorem exists_submitted_run {T : Tests}
    (hrun : (execute (step (codecEnv true) T) (opened emptyStore) sampleSubmits).map
      (fun r => (r.2.phase, ids (queueAfter (codecEnv true) r.2.calls))) =
      some (.asleep, [5, 6, 8])) : ∃ log s,
    Run (step (codecEnv true) T) (opened emptyStore) log s ∧ (∀ t ∈ log, Allowed t.event) ∧
      s.phase = .asleep ∧ ids (queueAfter (codecEnv true) s.calls) = [5, 6, 8] := by
  obtain ⟨⟨log, s⟩, h, heq⟩ := Option.map_eq_some_iff.mp hrun
  obtain ⟨hphase, hids⟩ := Prod.mk.inj heq
  obtain ⟨hrun, hevents⟩ := run_execute h
  refine ⟨log, s, hrun, fun t ht => allowed_sampleSubmits _ ?_, hphase, hids⟩
  rw [← hevents]
  exact List.mem_map_of_mem ht

/-- The first transaction is promoted, the second dropped, and the third, promoted as well, ends the
service. -/
theorem submitted_queue_is_attested : ∃ s : System,
    ids (queueAfter (codecEnv true) s.calls) = [5, 6, 8] ∧ ∃ n log' t, n ≤ 10 ∧
      Run (step (codecEnv true) sampleTests) s log' t ∧
      log'.map Taken.event = .wake :: List.replicate n (.call working) ∧
      Ended s.store (afterRound sampleTests (inDb s.store)
        (queueAfter (codecEnv true) s.calls)) t := by
  obtain ⟨log, s, hrun, hlog, hs, hids⟩ :=
    exists_submitted_run (T := sampleTests) (by decide +kernel)
  have hlength : (queueAfter (codecEnv true) s.calls).length = 3 := by
    rw [← List.length_map Entry.id]
    exact congrArg List.length hids
  obtain ⟨n, log', t, hn, hrest⟩ := undisturbed_round_attests_queue rfl hrun hlog hs
  rw [hlength] at hn
  exact ⟨s, hids, n, log', t, hn, hrest⟩

example : afterRound sampleTests (fun _ => false) [submittedEntry (codecEnv true) 5 7 [1],
    submittedEntry (codecEnv true) 6 7 [2], submittedEntry (codecEnv true) 8 9 [3]] =
    ([attestedEntry (submittedEntry (codecEnv true) 5 7 [1]),
      attestedEntry (submittedEntry (codecEnv true) 8 9 [3])], false) := by
  rfl

/-- However the rounds interleave with the calls of the other services: an entry of the queue is as
it was submitted, or it is attested and the attestation service itself has read a transaction of its
id that passes all tests. -/
theorem attested_transactions_have_passed (hE : E.attestation = true)
    (h : Run (step E T) (opened emptyStore) log s) (hlog : ∀ t ∈ log, Allowed t.event) :
    Represents s.store.pqDb (queueAfter E s.calls) ∧ Tested E T log (queueAfter E s.calls) :=
  ⟨run_represents (run_kept h hlog).ran, (run_kept h hlog).tested hE⟩

theorem submitted_transactions_are_tested : ∃ log s,
    Run (step (codecEnv true) sampleTests) (opened emptyStore) log s ∧
      ids (queueAfter (codecEnv true) s.calls) = [5, 8] ∧
      Represents s.store.pqDb (queueAfter (codecEnv true) s.calls) ∧
      Tested (codecEnv true) sampleTests log (queueAfter (codecEnv true) s.calls) := by
  have hrun : (execute (step (codecEnv true) sampleTests) (opened emptyStore)
      (sampleSubmits ++ .wake :: List.replicate 6 (.call working))).map
      (fun r => ids (queueAfter (codecEnv true) r.2.calls)) = some [5, 8] := by
    decide +kernel
  obtain ⟨⟨log, s⟩, h, hids⟩ := Option.map_eq_some_iff.mp hrun
  obtain ⟨hrun, hevents⟩ := run_execute h
  refine ⟨log, s, hrun, hids, attested_transactions_have_passed rfl hrun fun t ht => ?_⟩
  have he : t.event ∈ sampleSubmits ++ .wake :: List.replicate 6 (.call working) :=
    hevents ▸ List.mem_map_of_mem ht
  rcases List.mem_append.mp he with he | he
  · exact allowed_sampleSubmits _ he
  · rcases List.mem_cons.mp he with he | he
    · rw [he]
      trivial
    · rw [List.eq_of_mem_replicate he]
      exact ⟨(works_invocation .transactionGetFirst).lmdb, fun _ => rfl, rfl⟩

theorem not_passed (log : List (Taken System Event)) (txnId : Uuid) :
    ¬ Passed E attestationserviceTests log txnId := by
  rintro ⟨t, -, o, r, node, cert, -, -, -, -, -, -, hpass⟩
  cases hpass

/-- As the tests are, and as long as the database works and no reserved id is submitted: nothing is
ever attested, canonization gathers nothing, and a round that nothing disturbs drops the whole
queue. -/
theorem unfinished_tests_drop_all (hE : E.attestation = true)
    (h : Run (step E attestationserviceTests) (opened emptyStore) log s)
    (hlog : ∀ t ∈ log, Allowed t.event) :
    (∀ e ∈ queueAfter E s.calls, e.state = TransactionNodeState.submitted.code) ∧
    (∀ max n, gathered max n (queueAfter E s.calls) = []) ∧
    (s.phase = .asleep → ∃ n log' t, Run (step E attestationserviceTests) s log' t ∧
      log'.map Taken.event = .wake :: List.replicate n (.call working) ∧
      Ended s.store ([], true) t) := by
  have hkept := run_kept h hlog
  have hsubmitted : ∀ e ∈ queueAfter E s.calls, e.state = TransactionNodeState.submitted.code :=
    fun e he => (hkept.tested hE e he).resolve_right fun hpassed => not_passed _ _ hpassed.2
  refine ⟨hsubmitted, ?_, ?_⟩
  · intro max n
    cases hq : queueAfter E s.calls with
    | nil => rfl
    | cons e rest =>
      have hstate := hsubmitted e (by simp [hq])
      have hnot : attested e = false := by
        rw [attested, hstate]
        rfl
      simp [gathered, hnot]
  · intro hs
    obtain ⟨n, log', t, -, hrun, hevents, hended⟩ := hkept.round hE hs
    have hround : afterRound attestationserviceTests (inDb s.store) (queueAfter E s.calls) =
        ([], true) := by
      cases hq : queueAfter E s.calls with
      | nil => rfl
      | cons e rest =>
        rw [afterRound, if_pos (hsubmitted e (by simp [hq]))]
        exact attestFrom_of_failing (fun _ _ => rfl) _ _ _
    rw [hround] at hended
    exact ⟨n, log', t, hrun, hevents, hended⟩

theorem submitted_transactions_are_dropped : ∃ s : System,
    ids (queueAfter (codecEnv true) s.calls) = [5, 6, 8] ∧
      (∀ max n, gathered max n (queueAfter (codecEnv true) s.calls) = []) ∧
      ∃ n log' t, Run (step (codecEnv true) attestationserviceTests) s log' t ∧
        log'.map Taken.event = .wake :: List.replicate n (.call working) ∧
        Ended s.store ([], true) t := by
  obtain ⟨log, s, hrun, hlog, hs, hids⟩ :=
    exists_submitted_run (T := attestationserviceTests) (by decide +kernel)
  obtain ⟨-, hgathered, hround⟩ := unfinished_tests_drop_all rfl hrun hlog
  exact ⟨s, hids, hgathered, hround hs⟩

end Runs

end AttestationRounds
