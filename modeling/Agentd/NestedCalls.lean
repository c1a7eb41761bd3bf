import Agentd.DataserviceEffects

/-! # Calls under a transaction of the caller

Submit and block make open a transaction of their own under the caller's and abort it when they
fail. Drop and promote work in the caller's transaction. Promote writes last, so its failure leaves
nothing behind; drop deletes its record before it patches the neighbours. -/
namespace NestedCalls

open ByteString
open FaultyTransactions
open DataserviceRecords
open DataserviceStore
open DataserviceQueue
open DataserviceBlocks
open DataserviceRequests
open DataserviceEffects

def takesParent : Request → Bool
  | .transactionSubmit _ _ _ => true
  | .transactionDrop _ => true
  | .transactionPromote _ => true
  | .blockMake _ _ => true
  | _ => false

/-- What a drop reports when it did not get past its delete. -/
def beforeDelete : List AgentdError := [.notAuthorized, .notFound, .mdbDelFailure]

/-- The caller's copy after a drop that failed behind its delete: the record is gone, and at most
the record before it points to the one after it. -/
inductive HalfDropped (txnId : Uuid) (p : Store) : Store → Prop
  | deleted {x : Bytes} (record : p.pqDb txnId = some x) :
      HalfDropped txnId p { p with pqDb := Function.update p.pqDb txnId none }
  | patched {x b : Bytes} (record : p.pqDb txnId = some x)
      (prev : Function.update p.pqDb txnId none (DataTransactionNode.decode x).prev = some b) :
      HalfDropped txnId p (pqDb.write { p with pqDb := Function.update p.pqDb txnId none }
        (DataTransactionNode.decode x).prev (some (setNext b (DataTransactionNode.decode x).next)))

/-! ### Bodies -/

section Bodies

variable {f : FaultPattern} {v : Store} {Q : AgentdError → Store → Prop}

theorem mdbGet_failsWith {K : Type} (db : Dbi K) (k : K) : FailsWith (mdbGet db k) f v Q := by
  refine (FailsWith.attempt _).bind ?_
  intro r w _
  cases r with
  | true =>
    intro m e t h
    cases h
  | false => exact FailsWith.pure _

theorem getOrFail_failsWith {K : Type} {db : Dbi K} {k : K} {missing error : AgentdError}
    (hm : Q missing v) (he : Q error v) : FailsWith (getOrFail db k missing error) f v Q := by
  refine (mdbGet_failsWith db k).bind ?_
  intro r w hr
  obtain ⟨hw, -⟩ := mdbGet_ends hr
  subst hw
  cases r with
  | found b => exact FailsWith.pure b
  | notFound => exact FailsWith.fail hm
  | error => exact FailsWith.fail he

theorem getNodeOrFail_failsWith {db : Dbi Uuid} {id : Uuid} {e : AgentdError} (he : Q e v) :
    FailsWith (getNodeOrFail db id e) f v Q := by
  refine (getOrFail_failsWith he he).bind ?_
  intro b w hb
  obtain ⟨hw, -⟩ := getOrFail_ends hb
  subst hw
  refine (FailsWith.reject _ he).bind ?_
  intro _ w _
  exact FailsWith.pure b

theorem mdbPut_ends_false {K : Type} {db : Dbi K} {k : K} {b : Bytes} {no : Bool} {w : Store}
    (h : Ends (mdbPut db k b no) f v false w) : w = v := by
  obtain ⟨r, u, hr, h⟩ := h.of_bind
  have hu := hr.of_attempt
  subst hu
  cases r with
  | false => exact h.of_pure.2
  | true =>
    obtain ⟨m, m', h⟩ := h
    by_cases hc : (no && (db.read u k).isSome) = true
    · simp only [if_true, hc] at h
      cases h
      rfl
    · simp only [if_true, if_neg hc] at h
      cases h

theorem putOrFail_failsWith {K : Type} {db : Dbi K} {k : K} {b : Bytes} {no : Bool}
    (he : Q .mdbPutFailure v) : FailsWith (putOrFail db k b no) f v Q := by
  have hput : FailsWith (mdbPut db k b no) f v Q := by
    refine (FailsWith.attempt _).bind ?_
    intro r w _
    cases r with
    | false => exact FailsWith.pure _
    | true =>
      intro m e t h
      by_cases hc : (no && (db.read w k).isSome) = true
      · simp only [if_true, hc] at h
        cases h
      · simp only [if_true, if_neg hc] at h
        cases h
  refine hput.bind ?_
  intro r w hr
  cases r with
  | true => exact FailsWith.pure _
  | false =>
    rw [mdbPut_ends_false hr]
    exact FailsWith.fail he

theorem mdbDel_failsWith {K : Type} {db : Dbi K} {k : K} : FailsWith (mdbDel db k) f v Q := by
  refine (FailsWith.attempt _).bind ?_
  intro r w _
  cases r with
  | false => exact FailsWith.pure _
  | true =>
    intro m e t h
    by_cases hk : (db.read w k).isSome = true
    · simp only [if_true, hk] at h
      cases h
    · simp only [if_true, hk] at h
      cases h

theorem malloc_failsWith (he : Q .outOfMemory v) : FailsWith malloc f v Q :=
  FailsWith.require _ he

/-- Promote reads, allocates and then writes once. -/
theorem transactionPromoteBody_failsWith (txnId : Uuid) :
    FailsWith (transactionPromoteBody txnId) f v fun _ w => w = v := by
  refine (getNodeOrFail_failsWith rfl).bind ?_
  intro b w hb
  obtain ⟨hw, -⟩ := getNodeOrFail_ends hb
  subst hw
  refine (malloc_failsWith rfl).bind ?_
  intro _ w hw
  rw [malloc_ends hw]
  exact putOrFail_failsWith rfl

/-- How a drop on the copy `p` fails. -/
def DropFailure (txnId : Uuid) (p : Store) (e : AgentdError) (w : Store) : Prop :=
  (e ∈ beforeDelete ∧ w = p) ∨ (e ∉ beforeDelete ∧ HalfDropped txnId p w)

theorem transactionDropFixupPrevNext_failsWith {p : Store} {txnId : Uuid} {x : Bytes}
    (hx : p.pqDb txnId = some x) :
    FailsWith (transactionDropFixupPrevNext (DataTransactionNode.decode x)) f
      { p with pqDb := Function.update p.pqDb txnId none } (DropFailure txnId p) := by
  have hdeleted : ∀ e, e ∉ beforeDelete →
      DropFailure txnId p e { p with pqDb := Function.update p.pqDb txnId none } :=
    fun e he => Or.inr ⟨he, .deleted hx⟩
  refine (getNodeOrFail_failsWith (hdeleted _ (by decide))).bind ?_
  intro b w hb
  obtain ⟨hw, hprev, -⟩ := getNodeOrFail_ends hb
  subst hw
  refine (malloc_failsWith (hdeleted _ (by decide))).bind ?_
  intro _ w hw
  rw [malloc_ends hw]
  refine (putOrFail_failsWith (hdeleted _ (by decide))).bind ?_
  intro _ w hw
  rw [(putOrFail_ends hw).1]
  have hpatched : ∀ e, e ∉ beforeDelete → DropFailure txnId p e (pqDb.write
      { p with pqDb := Function.update p.pqDb txnId none } (DataTransactionNode.decode x).prev
      (some (setNext b (DataTransactionNode.decode x).next))) :=
    fun e he => Or.inr ⟨he, .patched hx hprev⟩
  refine (getNodeOrFail_failsWith (hpatched _ (by decide))).bind ?_
  intro n w hn
  obtain ⟨hw, -⟩ := getNodeOrFail_ends hn
  subst hw
  refine (malloc_failsWith (hpatched _ (by decide))).bind ?_
  intro _ w hw
  rw [malloc_ends hw]
  exact putOrFail_failsWith (hpatched _ (by decide))

theorem transactionDropBody_failsWith (p : Store) (txnId : Uuid) :
    FailsWith (transactionDropBody txnId) f p (DropFailure txnId p) := by
  have hsame : ∀ e, e ∈ beforeDelete → DropFailure txnId p e p := fun e he => Or.inl ⟨he, rfl⟩
  refine (getNodeOrFail_failsWith (hsame _ (by decide))).bind ?_
  intro x w hx
  obtain ⟨hw, hrecord, -⟩ := getNodeOrFail_ends hx
  subst hw
  refine mdbDel_failsWith.bind ?_
  intro r u hr
  obtain ⟨hok, hne⟩ := mdbDel_ends hr
  cases r with
  | notFound =>
    rw [hne (by simp)]
    exact FailsWith.fail (hsame _ (by decide))
  | error =>
    rw [hne (by simp)]
    exact FailsWith.fail (hsame _ (by decide))
  | ok =>
    rw [(hok rfl).1]
    exact transactionDropFixupPrevNext_failsWith hrecord

end Bodies

/-! ### Calls -/

section Calls

variable {E : Env} {caps : Bitcap} {f : FaultPattern} {v p : Store} {rest : List Store}

theorem mdbTxnBegin_stopsWith {α : Type} {x : Op Unit} {g : Unit → Op α}
    (hx : x = mdbTxnBegin ∨ ∃ n, x = mdbTxnBegin.onFail (Prog.note n))
    (hg : StopsWith (g ()) f v (p :: p :: rest) fun _ ws => ws = p :: rest) :
    StopsWith (x >>= g) f v (p :: rest) fun _ ws => ws = p :: rest := by
  have hrun : ∀ m b, (∃ m', x.run f ⟨v, p :: rest, m, b⟩ = .ok () ⟨v, p :: p :: rest, m', b⟩) ∨
      ∃ e m', x.run f ⟨v, p :: rest, m, b⟩ = .stop (.fail e) ⟨v, p :: rest, m', b⟩ := by
    intro m b
    rcases hx with rfl | ⟨n, rfl⟩ <;> cases hf : f .txnBegin m.tick <;>
    simp [Prog.onFail, mdbTxnBegin, Prog.run_bind, Prog.require, Prog.attempt, Prog.txnBegin,
      Prog.note, Prog.fail, Metered.meter, Metered.withMeter, hf]
  intro m b e t h
  rcases hrun m b with ⟨m', hm⟩ | ⟨e', m', hm⟩
  · rw [Prog.run_bind_ok g hm] at h
    exact hg m' b e t h
  · rw [Prog.run_bind_stop g hm] at h
    cases h
    exact ⟨_, m', rfl, rfl⟩

theorem mdbTxnCommit_stopsWith (ts : List Store) (m : Meter Event) (w : Store) (b : Bool) :
    ∃ r s, mdbTxnCommit.run f ⟨v, w :: ts, m, b⟩ = .ok r s := by
  cases b with
  | true => exact ⟨false, _, rfl⟩
  | false =>
    cases ts with
    | nil => exact ⟨true, _, rfl⟩
    | cons t ts => exact ⟨true, _, rfl⟩

theorem abortOrCommit_stopsWith {α : Type} {body : TxOp α} {u : Store} {ts : List Store}
    {R : AgentdError → Store → Prop} {Q : AgentdError → List Store → Prop}
    (hbody : FailsWith body f u R) (hq : ∀ e w, R e w → Q e ts) :
    StopsWith (abortOrCommit body) f v (u :: ts) Q :=
  StopsWith.abort_or_commit (fun m _ _ => ⟨⟨m.tick, m.trace ++ [.aborted]⟩, rfl⟩)
    (mdbTxnCommit_stopsWith ts) hbody hq

theorem abortOrCommit_spares {α : Type} (body : TxOp α) :
    StopsWith (abortOrCommit body) f v (p :: p :: rest) fun _ ws => ws = p :: rest :=
  abortOrCommit_stopsWith (R := fun _ _ => True) (fun _ _ _ _ => trivial) fun _ _ _ => rfl

theorem transactionSubmit_stopsWith (txnId artifactId : Uuid) (txnBytes : Bytes) :
    StopsWith (transactionSubmit E caps txnId artifactId txnBytes) f v (p :: rest)
      fun _ ws => ws = p :: rest :=
  StopsWith.of_reject rfl (mdbTxnBegin_stopsWith (Or.inl rfl) (abortOrCommit_spares _))

theorem blockMake_stopsWith (blockId : Uuid) (blockData : Bytes) :
    StopsWith (blockMake E caps blockId blockData) f v (p :: rest) fun _ ws => ws = p :: rest := by
  refine StopsWith.of_reject rfl ?_
  refine StopsWith.of_passive (Passive.require _ _) (fun _ => rfl) fun _ _ => ?_
  refine StopsWith.of_passive (Quiet.note _).passive (fun _ => rfl) fun _ _ => ?_
  refine StopsWith.finally' ?_ (Quiet.note _)
  refine StopsWith.of_passive (Passive.require _ _) (fun _ => rfl) fun _ _ => ?_
  refine StopsWith.of_passive (Quiet.note _).passive (fun _ => rfl) fun _ _ => ?_
  have hdispose : Quiet (Prog.note (.disposed .parserOptions) >>= fun _ =>
      Prog.note (.disposed .parser) : Op Unit) := (Quiet.note _).seq (Quiet.note _)
  refine StopsWith.bind_of_risky (blockMakeParserInit_risky E blockData) fun fs _ => ?_
  refine mdbTxnBegin_stopsWith (Or.inr ⟨_, rfl⟩) ?_
  exact (abortOrCommit_spares _).finally' hdispose

theorem transactionPromote_stopsWith (txnId : Uuid) :
    StopsWith (transactionPromote caps txnId) f v (p :: rest) fun _ ws => ws = p :: rest := by
  refine StopsWith.of_reject rfl (StopsWith.of_reject rfl (StopsWith.of_hasParent ?_))
  refine StopsWith.inTxn (transactionPromoteBody_failsWith txnId) ?_
  rintro _ w rfl
  rfl

theorem transactionDrop_stopsWith (txnId : Uuid) :
    StopsWith (transactionDrop caps txnId) f v (p :: rest) fun e ws =>
      ∃ w, ws = w :: rest ∧ DropFailure txnId p e w := by
  have hsame : ∀ e, e ∈ beforeDelete → ∃ w, p :: rest = w :: rest ∧ DropFailure txnId p e w :=
    fun e he => ⟨p, rfl, Or.inl ⟨he, rfl⟩⟩
  refine StopsWith.of_reject (hsame _ (by decide)) (StopsWith.of_reject (hsame _ (by decide))
    (StopsWith.of_hasParent ?_))
  exact StopsWith.inTxn (transactionDropBody_failsWith p txnId) fun e w hw => ⟨w, rfl, hw⟩

/-- A failed call leaves the committed store and all open transactions as they were; only a drop
that fails behind its delete leaves the caller's own copy of the queue half patched. -/
theorem failed_nested_call_spares_parent (E : Env) (caps : Bitcap) (f : FaultPattern) {r : Request}
    (hr : takesParent r = true) {s t : OpState} {p : Store} {rest : List Store}
    (hp : s.txns = p :: rest) {e : AgentdError}
    (h : (r.run E caps).run f s = .stop (.fail e) t) :
    ((∀ txnId, r = .transactionDrop txnId → e ∈ beforeDelete) → t = { s with meter := t.meter }) ∧
    ∀ txnId, r = .transactionDrop txnId → e ∉ beforeDelete →
      ∃ w, HalfDropped txnId p w ∧ t = { s with txns := w :: rest, meter := t.meter } := by
  obtain ⟨v, us, m, b⟩ := s
  obtain rfl : us = p :: rest := hp
  have hclean : ∀ {x : Op Unit}, r.run E caps = x >>= (fun _ => pure Reply.done) →
      (StopsWith x f v (p :: rest) fun _ ws => ws = p :: rest) →
      t = ⟨v, p :: rest, t.meter, b⟩ := by
    intro x hx hstop
    rw [hx] at h
    obtain ⟨ws, m', rfl, rfl⟩ := hstop.bind_pure (fun _ => Reply.done) m b e t h
    rfl
  cases r with
  | transactionSubmit txnId artifactId txnBytes =>
    have hsame := hclean rfl (transactionSubmit_stopsWith txnId artifactId txnBytes)
    exact ⟨fun _ => hsame, by rintro _ ⟨⟩⟩
  | transactionPromote txnId =>
    have hsame := hclean rfl (transactionPromote_stopsWith txnId)
    exact ⟨fun _ => hsame, by rintro _ ⟨⟩⟩
  | blockMake blockId blockData =>
    have hsame := hclean rfl (blockMake_stopsWith blockId blockData)
    exact ⟨fun _ => hsame, by rintro _ ⟨⟩⟩
  | transactionDrop txnId =>
    have hstop : StopsWith (transactionDrop caps txnId) f v (p :: rest) fun e ws =>
        ∃ w, ws = w :: rest ∧ DropFailure txnId p e w := transactionDrop_stopsWith txnId
    have hdrop := hstop.bind_pure (fun _ => Reply.done)
    obtain ⟨ws, m', rfl, w, rfl, hw⟩ := hdrop m b e t h
    rcases hw with ⟨he, rfl⟩ | ⟨he, hhalf⟩
    · refine ⟨fun _ => rfl, ?_⟩
      rintro _ _ hne
      exact absurd he hne
    · refine ⟨fun hall => absurd (hall txnId rfl) he, ?_⟩
      rintro _ ⟨⟩ _
      exact ⟨w, hhalf, rfl⟩
  | _ => cases hr

/-- A queue with one entry, seen from an open transaction over an empty database. -/
def underParent : OpState :=
  ⟨emptyStore, [(perform (codecEnv false) emptyStore (workingCall (.transactionSubmit 5 7 [1]))).2],
    ⟨0, []⟩, false⟩

def failingPut : FaultPattern := fun c _ => c = .put

theorem failed_promote_spares_parent : ∃ t,
    (Request.run (codecEnv false) (BitVec.allOnes 32) (.transactionPromote 5)).run failingPut
      underParent = .stop (.fail .mdbPutFailure) t ∧ t = { underParent with meter := t.meter } := by
  refine ⟨_, rfl, ?_⟩
  have hspared := failed_nested_call_spares_parent (codecEnv false) (BitVec.allOnes 32) failingPut
    (r := .transactionPromote 5) (s := underParent) rfl rfl rfl
  exact hspared.1 (by rintro _ ⟨⟩)

/-- The write to the record before it fails after the delete. -/
theorem failed_drop_unlinks_half : ¬ ∀ (E : Env) (caps : Bitcap) (f : FaultPattern) (r : Request)
    (s t : OpState) (e : AgentdError), takesParent r = true → s.txns ≠ [] →
    (r.run E caps).run f s = .stop (.fail e) t → t.disk = s.disk ∧ t.txns = s.txns := by
  intro hall
  have hsame := (hall (codecEnv false) (BitVec.allOnes 32) failingPut
    (.transactionDrop 5) underParent
    _ .mdbPutFailure rfl (by simp [underParent]) rfl).2
  have hrecord := congrArg (fun ts => ts.map fun w => (w.pqDb 5).isSome) hsame
  exact absurd hrecord (by decide +kernel)

end Calls

end NestedCalls
