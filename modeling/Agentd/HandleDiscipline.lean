import Agentd.DataserviceRequests

/-! # Handles of the operations

An operation ends every transaction that it begins, and disposes the suite, the parser options and
the parsers that it initialised, on up to ten exits that share their cleanup. Books kept along the
events of a run say whether it does. -/
namespace HandleDiscipline

open ByteString
open CertificateFields
open FaultyTransactions
open DataserviceRecords
open DataserviceStore
open DataserviceQueue
open DataserviceBlocks
open DataserviceRequests

/-! ### Books -/

structure Books where
  txns : ℕ
  suites : ℕ
  options : ℕ
  parsers : ℕ
  deriving DecidableEq

def noHandles : Books := ⟨0, 0, 0, 0⟩

def takeOne : ℕ → Option ℕ
  | 0 => none
  | n + 1 => some n

/-- None when a handle is ended that is not there. -/
def Books.record (b : Books) : Event → Option Books
  | .begun => some { b with txns := b.txns + 1 }
  | .committed => (takeOne b.txns).map fun n => { b with txns := n }
  | .aborted => (takeOne b.txns).map fun n => { b with txns := n }
  | .acquired .cryptoSuite => some { b with suites := b.suites + 1 }
  | .acquired .parserOptions => some { b with options := b.options + 1 }
  | .acquired .parser => some { b with parsers := b.parsers + 1 }
  | .disposed .cryptoSuite => (takeOne b.suites).map fun n => { b with suites := n }
  | .disposed .parserOptions => (takeOne b.options).map fun n => { b with options := n }
  | .disposed .parser => (takeOne b.parsers).map fun n => { b with parsers := n }

def booksOf (events : List Event) : Option Books :=
  events.foldl (fun b e => b.bind (·.record e)) (some noHandles)

theorem booksOf_append (events : List Event) (e : Event) :
    booksOf (events ++ [e]) = (booksOf events).bind (·.record e) := by
  rw [booksOf, List.foldl_append]
  rfl

/-! ### Programs inside a transaction -/

section Transaction

variable {α β : Type} {b c d : Books}

/-- Every run of `x` takes the books from `b` to `c` when it ends well and to `d` when it fails. A
run that is undefined has ended no transaction. -/
def Moves (x : TxOp α) (b c d : Books) : Prop :=
  ∀ f v m, booksOf m.trace = some b →
    match x.run f ⟨v, m⟩ with
    | .ok _ t => booksOf t.meter.trace = some c
    | .stop (.fail _) t => booksOf t.meter.trace = some d
    | .stop .undefined t => ∃ b', booksOf t.meter.trace = some b' ∧ b'.txns = b.txns

theorem Moves.bind {x : TxOp α} {g : α → TxOp β} {e : Books} (hx : Moves x b c d)
    (htxns : c.txns = b.txns) (hg : ∀ a, Moves (g a) c e d) : Moves (x >>= g) b e d := by
  intro f v m hb
  have hrun := hx f v m hb
  rw [Prog.run_bind]
  cases hr : x.run f ⟨v, m⟩ with
  | ok a t =>
    rw [hr] at hrun
    have hrest := hg a f t.view t.meter hrun
    rw [htxns] at hrest
    exact hrest
  | stop e' t =>
    rw [hr] at hrun
    cases e' with
    | undefined => exact hrun
    | fail e' => exact hrun

/-- `x` disposes just what it initialised itself: it leaves the books as they are, whatever they
are. -/
class Tidy (x : TxOp α) : Prop where
  moves : ∀ b, Moves x b b b

theorem Tidy.of_trace {x : TxOp α} (h : ∀ f s, match x.run f s with
    | .ok _ t => t.meter.trace = s.meter.trace
    | .stop _ t => t.meter.trace = s.meter.trace) : Tidy x where
  moves b f v m hb := by
    have hrun := h f ⟨v, m⟩
    cases hr : x.run f ⟨v, m⟩ with
    | ok a t =>
      rw [hr] at hrun
      exact (congrArg booksOf hrun).trans hb
    | stop e t =>
      rw [hr] at hrun
      have hbooks := (congrArg booksOf hrun).trans hb
      cases e with
      | undefined => exact ⟨b, hbooks, rfl⟩
      | fail e => exact hbooks

instance Tidy.bind {x : TxOp α} {g : α → TxOp β} [hx : Tidy x] [hg : ∀ a, Tidy (g a)] :
    Tidy (x >>= g) :=
  ⟨fun b => (hx.moves b).bind rfl fun a => (hg a).moves b⟩

instance Tidy.pure (a : α) : Tidy (Pure.pure a : TxOp α) := .of_trace fun _ _ => rfl

instance Tidy.fail (e : AgentdError) : Tidy (Prog.fail e : TxOp α) := .of_trace fun _ _ => rfl

instance Tidy.attempt (k : Call) : Tidy (Prog.attempt k : TxOp Bool) := .of_trace fun _ _ => rfl

instance Tidy.ite (p : Prop) [Decidable p] {x y : TxOp α} [hx : Tidy x] [hy : Tidy y] :
    Tidy (if p then x else y) := by
  by_cases hp : p
  · rw [if_pos hp]
    exact hx
  · rw [if_neg hp]
    exact hy

instance Tidy.reject (p : Prop) [Decidable p] (e : AgentdError) :
    Tidy (Prog.reject p e : TxOp Unit) := by
  unfold Prog.reject
  infer_instance

instance Tidy.inBounds (p : Prop) [Decidable p] : Tidy (Prog.inBounds p : TxOp Unit) := by
  refine .of_trace fun f s => ?_
  by_cases hp : p
  · simp [Prog.inBounds, hp]
  · simp [Prog.inBounds, hp, Prog.undefined]

instance Tidy.require (k : Call) (e : AgentdError) : Tidy (Prog.require k e : TxOp Unit) := by
  unfold Prog.require
  infer_instance

/-! ### The LMDB calls and the parser -/

variable {K : Type} (db : Dbi K) (k : K)

instance : Tidy (mdbGet db k) := by
  have hread : Tidy (⟨fun _ t => .ok (match db.read t.view k with
      | some b => .found b
      | none => .notFound) t⟩ : TxOp MdbGet) := .of_trace fun _ _ => rfl
  unfold mdbGet
  infer_instance

instance (v : Bytes) (noOverwrite : Bool) : Tidy (mdbPut db k v noOverwrite) := by
  have hwrite : Tidy (⟨fun _ t =>
      if noOverwrite && (db.read t.view k).isSome then .ok false t
      else .ok true { t with view := db.write t.view k (some v) }⟩ : TxOp Bool) := by
    refine .of_trace fun f s => ?_
    by_cases hkept : (noOverwrite && (db.read s.view k).isSome) = true
    · simp [hkept]
    · simp [hkept]
  unfold mdbPut
  infer_instance

instance : Tidy (mdbDel db k) := by
  have hdel : Tidy (⟨fun _ t =>
      if (db.read t.view k).isSome then .ok .ok { t with view := db.write t.view k none }
      else .ok .notFound t⟩ : TxOp MdbDel) := by
    refine .of_trace fun f s => ?_
    by_cases hfound : (db.read s.view k).isSome = true
    · simp [hfound]
    · simp [hfound]
  unfold mdbDel
  infer_instance

instance (v : Bytes) (noOverwrite : Bool) : Tidy (putOrFail db k v noOverwrite) := by
  unfold putOrFail
  infer_instance

instance (missing error : AgentdError) : Tidy (getOrFail db k missing error) := by
  unfold getOrFail
  refine @Tidy.bind _ _ _ _ _ fun r => ?_
  cases r <;> infer_instance

instance : Tidy (malloc : TxOp Unit) := by
  unfold malloc
  infer_instance

instance (fs : List (CertField × Bytes)) (t : CertField) (size : ℕ) (missing : AgentdError) :
    Tidy (findSized fs t size missing : TxOp Bytes) := by
  unfold findSized
  cases (fieldValues fs t).head? <;> infer_instance

theorem Moves.fail (e : AgentdError) : Moves (Prog.fail e : TxOp α) b c b :=
  fun _ _ _ hb => hb

theorem Moves.pure (a : α) : Moves (Pure.pure a : TxOp α) b b d :=
  fun _ _ _ hb => hb

theorem Moves.note {e : Event} (he : b.record e = some c) :
    Moves (Prog.note e : TxOp Unit) b c d := by
  intro f v m hb
  have happend := booksOf_append m.trace e
  rw [hb, Option.bind_some, he] at happend
  exact happend

def Books.withParser (b : Books) : Books := { b with parsers := b.parsers + 1 }

theorem parserInit_moves (E : Env) (cert : Bytes) (b : Books) :
    Moves (parserInit E cert : TxOp _) b b.withParser b := by
  unfold parserInit
  refine ((Tidy.require .parserInit .vccertParserInitFailure).moves b).bind rfl fun _ => ?_
  cases E.fields cert with
  | none => exact .fail _
  | some fs => exact (Moves.note (c := b.withParser) rfl).bind rfl fun _ => .pure fs

theorem note_run (e : Event) (f : FaultPattern) (s : TxState) : (Prog.note e : TxOp Unit).run f s =
    .ok () ⟨s.view, ⟨s.meter.tick, s.meter.trace ++ [e]⟩⟩ := rfl

/-- A parser is disposed on both exits of the function that made it. -/
theorem disposing_moves (x : TxOp α) [hx : Tidy x] (b : Books) :
    Moves (x.finally' (Prog.note (.disposed .parser))) b.withParser b b := by
  intro f v m hb
  have hrun := hx.moves b.withParser f v m hb
  have hdispose : ∀ events, booksOf events = some b.withParser →
      booksOf (events ++ [.disposed .parser]) = some b := by
    intro events hevents
    rw [booksOf_append, hevents]
    rfl
  cases hr : x.run f ⟨v, m⟩ with
  | ok a t =>
    rw [hr] at hrun
    simpa [Prog.finally', Prog.run_bind, Prog.onFail, note_run, hr] using hdispose _ hrun
  | stop e t =>
    rw [hr] at hrun
    cases e with
    | undefined => simpa [Prog.finally', Prog.run_bind, Prog.onFail, hr] using hrun
    | fail e =>
      simpa [Prog.finally', Prog.run_bind, Prog.onFail, note_run, hr] using hdispose _ hrun

end Transaction

/-! ### The bodies of the operations -/

section Bodies

variable (E : Env) (db : Dbi Uuid) (fs : List (CertField × Bytes))

instance (header size : ℕ) (b : Bytes) : Tidy (copyRecord header size b) := by
  unfold copyRecord
  infer_instance

instance (header : ℕ) (certSize : Bytes → BitVec 64) (id prev : Uuid) :
    Tidy (updatePrevNext db header certSize id prev) := by
  unfold updatePrevNext
  infer_instance

instance (txnId : Uuid) : Tidy (transactionSubmitCreateQueue txnId) := by
  unfold transactionSubmitCreateQueue
  infer_instance

instance (txnId prev : Uuid) : Tidy (transactionSubmitUpdatePrev txnId prev) := by
  unfold transactionSubmitUpdatePrev
  infer_instance

instance (txnId : Uuid) (currEnd : Bytes) : Tidy (transactionSubmitUpdateEnd txnId currEnd) := by
  unfold transactionSubmitUpdateEnd
  infer_instance

instance : Tidy transactionSubmitQueryEnd := by
  unfold transactionSubmitQueryEnd
  refine @Tidy.bind _ _ _ _ _ fun r => ?_
  cases r <;> infer_instance

instance (txnId artifactId : Uuid) (txnBytes : Bytes) :
    Tidy (transactionSubmitBody E txnId artifactId txnBytes) := by
  unfold transactionSubmitBody
  refine @Tidy.bind _ _ _ _ _ fun endNode => ?_
  cases endNode <;> infer_instance

instance (id : Uuid) (e : AgentdError) : Tidy (getNodeOrFail db id e) := by
  unfold getNodeOrFail
  infer_instance

instance (node : DataTransactionNode) : Tidy (transactionDropFixupPrevNext node) := by
  unfold transactionDropFixupPrevNext
  infer_instance

instance (txnId : Uuid) : Tidy (transactionDropBody txnId) := by
  unfold transactionDropBody
  refine @Tidy.bind _ _ _ _ _ fun b => @Tidy.bind _ _ _ _ _ fun r => ?_
  cases r <;> infer_instance

instance (txnId : Uuid) : Tidy (transactionDropNested txnId) := by
  unfold transactionDropNested rejectSentinels
  infer_instance

instance (txnId : Uuid) : Tidy (transactionPromoteBody txnId) := by
  unfold transactionPromoteBody
  infer_instance

instance (nested : Bool) : Tidy (copyOut nested) := by
  unfold copyOut
  infer_instance

instance (nested : Bool) (txnId : Uuid) : Tidy (nodeGetBody db nested txnId) := by
  unfold nodeGetBody
  infer_instance

instance : Tidy firstKey := by
  unfold firstKey
  infer_instance

instance : Tidy queryEndNode := by
  unfold queryEndNode
  refine @Tidy.bind _ _ _ _ _ fun r => ?_
  cases r <;> infer_instance

instance (endNode : Option Bytes) : Tidy (constraintMatchingBlockHeight fs endNode) := by
  unfold constraintMatchingBlockHeight
  infer_instance

instance (endNode : Option Bytes) : Tidy (constraintMatchingPrevUuid E fs endNode) := by
  unfold constraintMatchingPrevUuid
  infer_instance

instance (blockId : Uuid) : Tidy (constraintSaneBlockUuid E fs blockId) := by
  unfold constraintSaneBlockUuid
  infer_instance

instance (txnCert : Bytes) : Tidy (makeBlockGetFirstTransactionId E txnCert) where
  moves b := (parserInit_moves E txnCert b).bind rfl fun _ =>
    (disposing_moves _ b).bind rfl fun _ => .pure _

instance (blockId blockPrevId firstChildTxnId : Uuid) (blockHeight : BitVec 64)
    (blockData : Bytes) :
    Tidy (makeBlockInsertBlock blockId blockPrevId firstChildTxnId blockHeight blockData) := by
  unfold makeBlockInsertBlock
  infer_instance

instance (blockId : Uuid) (height : BitVec 64) (endNode : Option Bytes) :
    Tidy (blockMakeLink blockId height endNode) := by
  unfold blockMakeLink blockMakeCreateQueue blockMakeUpdatePrev blockMakeUpdateEnd
  cases endNode <;> infer_instance

instance (txnId nextTxnId : Uuid) : Tidy (blockMakeUpdatePrevTxn txnId nextTxnId) := by
  unfold blockMakeUpdatePrevTxn
  infer_instance

instance (artifactId transactionId : Uuid) (height : BitVec 64) (state : BitVec 32) :
    Tidy (blockMakeUpdateArtifact artifactId transactionId height state) := by
  unfold blockMakeUpdateArtifact
  refine @Tidy.bind _ _ _ _ _ fun r => ?_
  cases r <;> infer_instance

instance : Tidy (blockMakeChildFields fs) := by
  unfold blockMakeChildFields
  infer_instance

instance (height : BitVec 64) (blockId : Uuid) (txnCert : Bytes) (c : ChildFields) :
    Tidy (blockMakeCanonizeChild height blockId txnCert c) := by
  unfold blockMakeCanonizeChild blockMakeLinkPrevTxn
  infer_instance

instance (height : BitVec 64) (blockId : Uuid) (txnCert : Bytes) :
    Tidy (blockMakeProcessChild E height blockId txnCert) where
  moves b := (parserInit_moves E txnCert b).bind rfl fun _ => disposing_moves _ b

instance blockMakeProcessChildren_tidy (height : BitVec 64) (blockId : Uuid) (cert : Bytes)
    (certs : List Bytes) : Tidy (blockMakeProcessChildren E height blockId cert certs) := by
  induction certs generalizing cert with
  | nil =>
    unfold blockMakeProcessChildren
    infer_instance
  | cons next rest ih =>
    have hrest := ih next
    unfold blockMakeProcessChildren
    infer_instance

instance (blockId : Uuid) (blockData : Bytes) : Tidy (blockMakeBody E fs blockId blockData) := by
  unfold blockMakeBody
  cases fieldValues fs .wrappedTransactionTuple <;> infer_instance

instance (nested skipCert : Bool) (r : MdbGet) : Tidy (blockGetNode nested skipCert r) := by
  unfold blockGetNode
  cases r <;> infer_instance

instance (nested : Bool) (blockId : Uuid) : Tidy (blockGetBody E nested blockId) := by
  unfold blockGetBody
  infer_instance

instance : Tidy (latestBlockIdGetBody E) := by
  unfold latestBlockIdGetBody
  refine @Tidy.bind _ _ _ _ _ fun r => ?_
  cases r <;> infer_instance

instance (height : BitVec 64) : Tidy (blockIdByHeightGetBody height) := by
  unfold blockIdByHeightGetBody
  infer_instance

instance (artifactId : Uuid) : Tidy (artifactGetBody artifactId) := by
  unfold artifactGetBody
  infer_instance

instance (key : BitVec 64) (size : ℕ) : Tidy (globalSettingsGetBody key size) := by
  unfold globalSettingsGetBody
  infer_instance

end Bodies

/-! ### Whole operations -/

section Operations

variable {α β : Type} {base : ℕ} {f : FaultPattern} {b c d e : Books}

/-- The books of a state. Of the transactions that are open, `base` are the caller's. -/
def Holds (base : ℕ) (s : OpState) (b : Books) : Prop :=
  booksOf s.meter.trace = some b ∧ s.txns.length = base + b.txns

/-- The books are `c` when the operation ended well and `d` when it failed. An operation that copies
past the end of a stored record is undefined from there on; until then no handle was ended that is
not there, and its transaction is open. -/
def Lands (base : ℕ) (c d : Books) : Result AgentdError OpState α → Prop
  | .ok _ t => Holds base t c
  | .stop (.fail _) t => Holds base t d
  | .stop .undefined t => ∃ b, Holds base t b ∧ 0 < b.txns

def Runs (base : ℕ) (f : FaultPattern) (x : Op α) (b c d : Books) : Prop :=
  ∀ s, Holds base s b → Lands base c d (x.run f s)

theorem Lands.bind {x : Op α} {g : α → Op β} {s : OpState} (hx : Lands base c d (x.run f s))
    (hg : ∀ a, Runs base f (g a) c e d) : Lands base e d ((x >>= g).run f s) := by
  cases hr : x.run f s with
  | ok a t =>
    rw [hr] at hx
    rw [Prog.run_bind_ok g hr]
    exact hg a t hx
  | stop e' t =>
    rw [hr] at hx
    rw [Prog.run_bind_stop g hr]
    cases e' with
    | undefined => exact hx
    | fail e' => exact hx

theorem Lands.onFail {x : Op α} {cleanup : Op Unit} {s : OpState} (hx : Lands base c d (x.run f s))
    (hc : Runs base f cleanup d e e) : Lands base c e ((x.onFail cleanup).run f s) := by
  cases hr : x.run f s with
  | ok a t => simpa [Prog.onFail, hr, Lands] using hx
  | stop e' t =>
    rw [hr] at hx
    cases e' with
    | undefined => simpa [Prog.onFail, hr, Lands] using hx
    | fail e' =>
      have hclean := hc t hx
      cases hr' : cleanup.run f t with
      | ok _ u =>
        rw [hr'] at hclean
        simpa [Prog.onFail, hr, hr', Lands] using hclean
      | stop e'' u =>
        rw [hr'] at hclean
        cases e'' with
        | undefined => simpa [Prog.onFail, hr, hr', Lands] using hclean
        | fail e'' => simpa [Prog.onFail, hr, hr', Lands] using hclean

theorem lands_bind_pure {x : Op α} {k : α → β} {s : OpState} :
    Lands base c d ((x >>= fun a => pure (k a)).run f s) ↔ Lands base c d (x.run f s) := by
  rw [Prog.run_bind]
  cases x.run f s with
  | ok a t => rfl
  | stop e' t =>
    cases e' with
    | undefined => rfl
    | fail e' => rfl

theorem Runs.pure (a : α) : Runs base f (Pure.pure a : Op α) b b d := fun _ hs => hs

theorem Runs.fail (err : AgentdError) : Runs base f (Prog.fail err : Op α) b c b := fun _ hs => hs

theorem Runs.bind {x : Op α} {g : α → Op β} (hx : Runs base f x b c d)
    (hg : ∀ a, Runs base f (g a) c e d) : Runs base f (x >>= g) b e d :=
  fun s hs => (hx s hs).bind hg

theorem Runs.onFail {x : Op α} {cleanup : Op Unit} (hx : Runs base f x b c d)
    (hc : Runs base f cleanup d e e) : Runs base f (x.onFail cleanup) b c e :=
  fun s hs => (hx s hs).onFail hc

theorem Lands.finally' {x : Op α} {cleanup : Op Unit} {s : OpState}
    (hx : Lands base c d (x.run f s)) (hc : Runs base f cleanup c e e)
    (hd : Runs base f cleanup d e e) : Lands base e e ((x.finally' cleanup).run f s) :=
  (hx.onFail hd).bind fun a => hc.bind fun _ => .pure a

theorem Runs.note {ev : Event} (hb : b.record ev = some c) (htxns : c.txns = b.txns) :
    Runs base f (Prog.note ev : Op Unit) b c d := by
  rintro s ⟨hbooks, hlen⟩
  refine ⟨?_, by rw [htxns]; exact hlen⟩
  have happend := booksOf_append s.meter.trace ev
  rw [hbooks, Option.bind_some, hb] at happend
  exact happend

theorem Runs.attempt (k : Call) : Runs base f (Prog.attempt k : Op Bool) b b d := fun _ hs => hs

theorem Runs.require (k : Call) (err : AgentdError) :
    Runs base f (Prog.require k err : Op Unit) b b b := by
  refine (Runs.attempt k).bind fun r => ?_
  cases r with
  | true => exact .pure ()
  | false => exact .fail err

theorem Runs.reject (p : Prop) [Decidable p] (err : AgentdError) :
    Runs base f (Prog.reject p err : Op Unit) b b b := by
  unfold Prog.reject
  by_cases hp : p
  · rw [if_pos hp]
    exact .fail err
  · rw [if_neg hp]
    exact .pure ()

def Books.withTxn (b : Books) : Books := { b with txns := b.txns + 1 }

theorem mdbTxnBegin_runs (b : Books) : Runs base f mdbTxnBegin b b.withTxn b := by
  refine (Runs.require .txnBegin .mdbTxnBeginFailure).bind fun _ => ?_
  rintro s ⟨hbooks, hlen⟩
  refine ⟨?_, ?_⟩
  · have happend := booksOf_append s.meter.trace .begun
    rw [hbooks] at happend
    exact happend
  · change (s.txns.headD s.disk :: s.txns).length = base + (b.txns + 1)
    rw [List.length_cons, hlen, Nat.add_assoc]

theorem mdbTxnAbort_runs (b : Books) : Runs base f mdbTxnAbort b.withTxn b d := by
  rintro ⟨disk, txns, meter, commitFails⟩ ⟨hbooks, hlen⟩
  cases txns with
  | nil => simp [Books.withTxn] at hlen
  | cons t rest =>
    refine ⟨?_, ?_⟩
    · have happend := booksOf_append meter.trace .aborted
      rw [hbooks] at happend
      exact happend
    · change rest.length = base + b.txns
      simp only [List.length_cons, Books.withTxn] at hlen
      omega

theorem mdbTxnCommit_runs (b : Books) : Runs base f mdbTxnCommit b.withTxn b d := by
  rintro ⟨disk, txns, meter, commitFails⟩ ⟨hbooks, hlen⟩
  have hended : booksOf (meter.trace ++ [.committed]) = some b := by
    rw [booksOf_append]
    rw [hbooks]
    rfl
  cases txns with
  | nil => simp [Books.withTxn] at hlen
  | cons t rest =>
    have hrest : rest.length = base + b.txns := by
      simp only [List.length_cons, Books.withTxn] at hlen
      omega
    cases commitFails with
    | true => exact ⟨hended, hrest⟩
    | false =>
      cases rest with
      | nil => exact ⟨hended, hrest⟩
      | cons u outer => exact ⟨hended, hrest⟩

/-- A body in a transaction that the operation has begun. -/
theorem inTxn_runs (y : TxOp α) [hy : Tidy y] (b : Books) :
    Runs base f (Prog.inTxn y) b.withTxn b.withTxn b.withTxn := by
  rintro ⟨disk, txns, meter, commitFails⟩ ⟨hbooks, hlen⟩
  cases txns with
  | nil => simp [Books.withTxn] at hlen
  | cons t rest =>
    have hrun := hy.moves b.withTxn f t meter hbooks
    cases hr : y.run f ⟨t, meter⟩ with
    | ok a u =>
      rw [hr] at hrun
      simpa [Prog.inTxn, hr, Lands, Holds] using And.intro hrun hlen
    | stop e' u =>
      rw [hr] at hrun
      cases e' with
      | fail e' => simpa [Prog.inTxn, hr, Lands, Holds] using And.intro hrun hlen
      | undefined =>
        obtain ⟨b', hb', htxns⟩ := hrun
        have hholds : Holds base ⟨disk, u.view :: rest, u.meter, commitFails⟩ b' :=
          ⟨hb', by rw [htxns]; exact hlen⟩
        have hpos : 0 < b'.txns := by
          rw [htxns]
          exact Nat.succ_pos _
        simpa [Prog.inTxn, hr, Lands] using (⟨b', hholds, hpos⟩ : ∃ b', _ ∧ 0 < b'.txns)

/-- A body in the transaction of the caller that no run of is undefined. -/
theorem inParent_runs {y : TxOp α} [hy : Tidy y] (hsafe : ∀ f v, Safe y f v) (hbase : 0 < base)
    (b : Books) : Runs base f (Prog.inTxn y) b b b := by
  rintro ⟨disk, txns, meter, commitFails⟩ ⟨hbooks, hlen⟩
  cases txns with
  | nil =>
    simp only [List.length_nil] at hlen
    omega
  | cons t rest =>
    have hrun := hy.moves b f t meter hbooks
    cases hr : y.run f ⟨t, meter⟩ with
    | ok a u =>
      rw [hr] at hrun
      simpa [Prog.inTxn, hr, Lands, Holds] using And.intro hrun hlen
    | stop e' u =>
      rw [hr] at hrun
      cases e' with
      | fail e' => simpa [Prog.inTxn, hr, Lands, Holds] using And.intro hrun hlen
      | undefined => exact absurd hr (hsafe f t meter u)

theorem abortOrCommit_runs (y : TxOp α) [Tidy y] (b : Books) :
    Runs base f (abortOrCommit y) b.withTxn b b :=
  ((inTxn_runs y b).onFail (mdbTxnAbort_runs b)).bind fun a =>
    (mdbTxnCommit_runs b).bind fun _ => .pure a

theorem inOwnTxn_runs (y : TxOp α) [Tidy y] (b : Books) : Runs base f (inOwnTxn y) b b b :=
  (mdbTxnBegin_runs b).bind fun _ => abortOrCommit_runs y b

theorem ownRead_runs (y : TxOp α) [Tidy y] (b : Books) : Runs base f (do
    mdbTxnBegin
    (Prog.inTxn y).finally' mdbTxnAbort) b b b :=
  (mdbTxnBegin_runs b).bind fun _ s hs =>
    (inTxn_runs y b s hs).finally' (mdbTxnAbort_runs b) (mdbTxnAbort_runs b)

/-- The caller's transaction is there just when there is one. -/
theorem hasParent_runs {g : Bool → Op α} (hparent : 0 < base → Runs base f (g true) noHandles c d)
    (hown : Runs base f (g false) noHandles c d) :
    Runs base f (Prog.hasParent >>= g) noHandles c d := by
  rintro ⟨disk, txns, meter, commitFails⟩ hs
  cases txns with
  | nil => exact hown _ hs
  | cons t rest =>
    refine hparent ?_ _ hs
    have hlen := hs.2
    simp only [List.length_cons, noHandles] at hlen
    omega

theorem inTxnOrParent_runs {y : TxOp α} [Tidy y] (hsafe : ∀ f v, Safe y f v) :
    Runs base f (inTxnOrParent y) noHandles noHandles noHandles :=
  hasParent_runs (fun hbase => inParent_runs hsafe hbase _) (inOwnTxn_runs y _)

theorem inReadTxn_runs {y : TxOp α} [Tidy y] (hsafe : ∀ f v, Safe y f v) :
    Runs base f (inReadTxn y) noHandles noHandles noHandles :=
  hasParent_runs (fun hbase => inParent_runs hsafe hbase _) (ownRead_runs y _)

theorem nodeGet_runs (db : Dbi Uuid) (txnId : Uuid) :
    Runs base f (nodeGet db txnId) noHandles noHandles noHandles := by
  refine hasParent_runs (fun _ => ?_) ?_
  · exact inReadTxn_runs fun f v => nodeGetBody_safe f v db true txnId
  · exact inReadTxn_runs fun f v => nodeGetBody_safe f v db false txnId

theorem authorize_runs (caps : Bitcap) (cap : ApiCap) (b : Books) :
    Runs base f (authorize caps cap) b b b :=
  .reject _ _

/-- The two operations that do not always end what they began. -/
def Request.Careless : Request → Bool
  | .globalSettingsSet .. => true
  | .blockMake .. => true
  | _ => false

theorem request_runs (E : Env) (caps : Bitcap) {r : Request} (hr : Request.Careless r = false) :
    Runs base f (r.run E caps) noHandles noHandles noHandles := by
  cases r with
  | globalSettingsSet key buffer => cases hr
  | blockMake blockId blockData => cases hr
  | globalSettingsGet key size =>
    refine Runs.bind ?_ fun _ => .pure _
    exact (authorize_runs _ _ _).bind fun _ => ownRead_runs _ _
  | transactionSubmit txnId artifactId txnBytes =>
    refine Runs.bind ?_ fun _ => .pure _
    exact (authorize_runs _ _ _).bind fun _ => inOwnTxn_runs _ _
  | transactionDrop txnId =>
    refine Runs.bind ?_ fun _ => .pure _
    refine (authorize_runs _ _ _).bind fun _ => (Runs.reject _ _).bind fun _ => ?_
    exact inTxnOrParent_runs fun f v => transactionDropBody_safe f v txnId
  | transactionPromote txnId =>
    refine Runs.bind ?_ fun _ => .pure _
    refine (authorize_runs _ _ _).bind fun _ => (Runs.reject _ _).bind fun _ => ?_
    exact inTxnOrParent_runs fun f v => transactionPromoteBody_safe f v txnId
  | transactionGet txnId =>
    refine Runs.bind ?_ fun _ => .pure _
    exact (authorize_runs _ _ _).bind fun _ => nodeGet_runs pqDb txnId
  | transactionGetFirst =>
    refine Runs.bind ?_ fun _ => .pure _
    refine (authorize_runs _ _ _).bind fun _ => (mdbTxnBegin_runs _).bind fun _ => ?_
    refine Runs.bind (c := noHandles) (fun s hs => ?_) fun key => nodeGet_runs pqDb key
    exact (inTxn_runs firstKey _ s hs).finally' (mdbTxnAbort_runs _) (mdbTxnAbort_runs _)
  | canonizedTransactionGet txnId =>
    refine Runs.bind ?_ fun _ => .pure _
    exact (authorize_runs _ _ _).bind fun _ => nodeGet_runs txnDb txnId
  | blockGet blockId =>
    refine Runs.bind ?_ fun _ => .pure _
    refine (authorize_runs _ _ _).bind fun _ => hasParent_runs (fun _ => ?_) ?_
    · exact inReadTxn_runs fun f v => blockGetBody_safe E f v true blockId
    · exact inReadTxn_runs fun f v => blockGetBody_safe E f v false blockId
  | latestBlockIdGet =>
    refine Runs.bind ?_ fun _ => .pure _
    exact (authorize_runs _ _ _).bind fun _ =>
      inReadTxn_runs fun f v => latestBlockIdGetBody_safe E f v
  | blockIdByHeightGet height =>
    refine Runs.bind ?_ fun _ => .pure _
    exact (authorize_runs _ _ _).bind fun _ =>
      inReadTxn_runs fun f v => blockIdByHeightGetBody_safe f v height
  | artifactGet artifactId =>
    refine Runs.bind ?_ fun _ => .pure _
    exact (authorize_runs _ _ _).bind fun _ =>
      inReadTxn_runs fun f v => artifactGetBody_safe f v artifactId

end Operations

/-! ### The two exceptions -/

section Exceptions

variable (E : Env) (caps : Bitcap) (f : FaultPattern) (v : Store) (ts : List Store) (n : ℕ)
  (commitFails : Bool)

/-- What an operation starts from: the transactions of its caller and no events of its own. -/
def atStart : OpState := ⟨v, ts, ⟨n, []⟩, commitFails⟩

theorem atStart_holds : Holds ts.length (atStart v ts n commitFails) noHandles := ⟨rfl, rfl⟩

/-- The outside calls are counted from `n` on. -/
def Request.Mishandles : Request → Prop
  | .globalSettingsSet .. => bitcapIsset caps .appGlobalSettingWrite = true ∧
      f .txnBegin n = false ∧ f .put (n + 1) = false ∧ commitFails = true
  | .blockMake _ blockData => bitcapIsset caps .appBlockWrite = true ∧
      f .suiteInit n = false ∧ f .parserOptionsInit (n + 1) = false ∧
      (f .parserInit (n + 2) = true ∨ E.fields blockData = none ∨ f .txnBegin (n + 3) = true)
  | _ => False

variable {v n commitFails}

theorem begin_run (events : List Event) :
    (mdbTxnBegin : Op Unit).run f ⟨v, ts, ⟨n, events⟩, commitFails⟩ =
    if f .txnBegin n then .stop (.fail .mdbTxnBeginFailure) ⟨v, ts, ⟨n + 1, events⟩, commitFails⟩
    else .ok () ⟨v, ts.headD v :: ts, ⟨n + 1, events ++ [.begun]⟩, commitFails⟩ := by
  cases hbegin : f .txnBegin n <;>
    simp [mdbTxnBegin, Prog.require, Prog.attempt, Prog.run_bind, Prog.txnBegin, Prog.note,
      Metered.meter, Metered.withMeter, hbegin, Prog.fail]

theorem put_run (db : Dbi (BitVec 64)) (key : BitVec 64) (buffer : Bytes) (t : Store)
    (events : List Event) :
    (Prog.inTxn (putOrFail db key buffer false)).run f ⟨v, t :: ts, ⟨n, events⟩, commitFails⟩ =
    if f .put n then .stop (.fail .mdbPutFailure) ⟨v, t :: ts, ⟨n + 1, events⟩, commitFails⟩
    else .ok () ⟨v, db.write t key (some buffer) :: ts, ⟨n + 1, events⟩, commitFails⟩ := by
  cases hput : f .put n <;>
    simp [Prog.inTxn, putOrFail, mdbPut, Prog.attempt, Prog.run_bind, Metered.meter,
      Metered.withMeter, hput, Prog.fail]

/-- A commit that fails has ended the transaction, and the rollback ends it again. -/
theorem globalSettingsSet_lands_iff (key : BitVec 64) (buffer : Bytes) :
    Lands ts.length noHandles noHandles
      ((globalSettingsSet caps key buffer).run f (atStart v ts n commitFails)) ↔
    ¬ (bitcapIsset caps .appGlobalSettingWrite = true ∧ f .txnBegin n = false ∧
      f .put (n + 1) = false ∧ commitFails = true) := by
  cases hcap : bitcapIsset caps .appGlobalSettingWrite with
  | false =>
    refine iff_of_true ?_ (by simp)
    have hrun : (globalSettingsSet caps key buffer).run f (atStart v ts n commitFails) =
        .stop (.fail .notAuthorized) (atStart v ts n commitFails) := by
      simp [globalSettingsSet, authorize, Prog.reject, hcap, Prog.run_bind, Prog.fail]
    rw [hrun]
    exact atStart_holds v ts n commitFails
  | true =>
    have hbegun : (globalSettingsSet caps key buffer).run f (atStart v ts n commitFails) =
        (mdbTxnBegin >>= fun _ => Prog.onFail (do
          Prog.inTxn (putOrFail globalDb key buffer false)
          if ← mdbTxnCommit then pure () else Prog.fail .mdbTxnCommitFailure)
          mdbTxnAbort).run f (atStart v ts n commitFails) := by
      simp [globalSettingsSet, authorize, Prog.reject, hcap, Prog.run_bind]
    rw [hbegun, atStart, Prog.run_bind, begin_run]
    cases hbegin : f .txnBegin n with
    | true => exact iff_of_true ⟨rfl, rfl⟩ (by simp)
    | false =>
      simp only [Bool.false_eq_true, if_false, Prog.onFail, Prog.run_bind, put_run]
      cases hput : f .put (n + 1) with
      | true => exact iff_of_true ⟨rfl, rfl⟩ (by simp)
      | false =>
        cases commitFails with
        | true =>
          refine iff_of_false ?_ (by simp)
          cases ts with
          | nil =>
            rintro ⟨b, ⟨hbooks, -⟩, hpos⟩
            obtain rfl : noHandles = b := Option.some.inj hbooks
            exact absurd hpos (lt_irrefl 0)
          | cons t ts =>
            rintro ⟨hbooks, -⟩
            cases hbooks
        | false =>
          refine iff_of_true ?_ (by simp)
          cases ts with
          | nil => exact ⟨rfl, rfl⟩
          | cons t ts => exact ⟨rfl, rfl⟩

theorem require_run (k : Call) (err : AgentdError) (events : List Event) :
    (Prog.require k err : Op Unit).run f ⟨v, ts, ⟨n, events⟩, commitFails⟩ =
    if f k n then .stop (.fail err) ⟨v, ts, ⟨n + 1, events⟩, commitFails⟩
    else .ok () ⟨v, ts, ⟨n + 1, events⟩, commitFails⟩ := by
  cases hk : f k n <;>
    simp [Prog.require, Prog.attempt, Prog.run_bind, Metered.meter, Metered.withMeter, hk,
      Prog.fail]

theorem note_runs (e : Event) (events : List Event) :
    (Prog.note e : Op Unit).run f ⟨v, ts, ⟨n, events⟩, commitFails⟩ =
      .ok () ⟨v, ts, ⟨n, events ++ [e]⟩, commitFails⟩ := rfl

theorem parserInit_run (cert : Bytes) (events : List Event) :
    (parserInit E cert : Op _).run f ⟨v, ts, ⟨n, events⟩, commitFails⟩ =
    if f .parserInit n then
      .stop (.fail .vccertParserInitFailure) ⟨v, ts, ⟨n + 1, events⟩, commitFails⟩
    else match E.fields cert with
      | none => .stop (.fail .vccertParserInitFailure) ⟨v, ts, ⟨n + 1, events⟩, commitFails⟩
      | some fs => .ok fs ⟨v, ts, ⟨n + 1, events ++ [.acquired .parser]⟩, commitFails⟩ := by
  rw [parserInit, Prog.run_bind, require_run]
  cases hinit : f .parserInit n with
  | true => rfl
  | false =>
    cases hfields : E.fields cert with
    | none => simp [Prog.fail]
    | some fs => simp [Prog.run_bind, note_runs]

theorem authorize_run (cap : ApiCap) (s : OpState) : (authorize caps cap).run f s =
    if bitcapIsset caps cap then .ok () s else .stop (.fail .notAuthorized) s := by
  cases hcap : bitcapIsset caps cap <;> simp [authorize, Prog.reject, hcap, Prog.fail]

def suiteOnly : Books := ⟨0, 1, 0, 0⟩

/-- The cleanup of a block that had its transaction. -/
theorem abortOrCommit_disposes {α : Type} {base : ℕ} (y : TxOp α) [Tidy y] :
    Runs base f ((abortOrCommit y).finally' (do
      Prog.note (.disposed .parserOptions)
      Prog.note (.disposed .parser))) ⟨1, 1, 1, 1⟩ suiteOnly suiteOnly := by
  have hclean : Runs base f (do
      Prog.note (.disposed .parserOptions)
      Prog.note (.disposed .parser)) ⟨0, 1, 1, 1⟩ suiteOnly suiteOnly := by
    refine Runs.bind (c := ⟨0, 1, 0, 1⟩) ?_ fun _ => ?_
    · exact .note rfl rfl
    · exact .note rfl rfl
  exact fun s hs => (abortOrCommit_runs y ⟨0, 1, 1, 1⟩ s hs).finally' hclean hclean

/-- What `blockMake` does while it has its suite. -/
def blockMakeParsed (E : Env) (blockId : Uuid) (blockData : Bytes) : Op Unit := do
  Prog.require .parserOptionsInit .vccertParserOptionsInitFailure
  Prog.note (.acquired .parserOptions)
  let fs ← blockMakeParserInit E blockData
  mdbTxnBegin.onFail (Prog.note (.disposed .parser))
  (abortOrCommit (blockMakeBody E fs blockId blockData)).finally' (do
    Prog.note (.disposed .parserOptions)
    Prog.note (.disposed .parser))

/-- A parser that could not be initialised is disposed, and a transaction that could not be begun
leaves the parser options. -/
theorem blockMakeParsed_lands_iff (blockId : Uuid) (blockData : Bytes) :
    Lands ts.length suiteOnly suiteOnly ((blockMakeParsed E blockId blockData).run f
      ⟨v, ts, ⟨n, [.acquired .cryptoSuite]⟩, commitFails⟩) ↔
    ¬ (f .parserOptionsInit n = false ∧
      (f .parserInit (n + 1) = true ∨ E.fields blockData = none ∨ f .txnBegin (n + 2) = true)) := by
  rw [blockMakeParsed, Prog.run_bind, require_run]
  cases hoptions : f .parserOptionsInit n with
  | true => exact iff_of_true ⟨rfl, rfl⟩ (by simp)
  | false =>
    simp only [Bool.false_eq_true, if_false, Prog.run_bind, note_runs, Prog.onFail,
      blockMakeParserInit, parserInit_run]
    cases hinit : f .parserInit (n + 1) with
    | true =>
      refine iff_of_false ?_ (by simp)
      rintro ⟨b, ⟨hbooks, -⟩, -⟩
      cases hbooks
    | false =>
      cases hfields : E.fields blockData with
      | none =>
        refine iff_of_false ?_ (by simp)
        rintro ⟨b, ⟨hbooks, -⟩, -⟩
        cases hbooks
      | some fs =>
        simp only [Bool.false_eq_true, if_false, begin_run]
        cases hbegin : f .txnBegin (n + 1 + 1) with
        | true =>
          refine iff_of_false ?_ (by simp)
          rintro ⟨hbooks, -⟩
          cases hbooks
        | false =>
          refine iff_of_true ?_ (by simp)
          exact abortOrCommit_disposes f (blockMakeBody E fs blockId blockData) _ ⟨rfl, rfl⟩

theorem booksOf_suite_disposed (events : List Event) :
    booksOf (events ++ [.disposed .cryptoSuite]) = some noHandles ↔
      booksOf events = some suiteOnly := by
  rw [booksOf_append]
  constructor
  · intro h
    obtain ⟨⟨txns, suites, options, parsers⟩, hb, hrecord⟩ := Option.bind_eq_some_iff.mp h
    rw [hb]
    cases suites with
    | zero => cases hrecord
    | succ k =>
      obtain ⟨rfl, rfl, rfl, rfl⟩ := Books.mk.inj (Option.some.inj hrecord)
      rfl
  · intro h
    rw [h]
    rfl

/-- The suite is disposed on both exits. -/
theorem lands_finally_suite {α : Type} {base : ℕ} {x : Op α} {s : OpState} :
    Lands base noHandles noHandles
      ((x.finally' (Prog.note (.disposed .cryptoSuite))).run f s) ↔
    Lands base suiteOnly suiteOnly (x.run f s) := by
  have hnote : ∀ t : OpState, (Prog.note (.disposed .cryptoSuite) : Op Unit).run f t =
      .ok () { t with meter := ⟨t.meter.tick, t.meter.trace ++ [.disposed .cryptoSuite]⟩ } :=
    fun _ => rfl
  cases hr : x.run f s with
  | ok a t =>
    simp only [Prog.finally', Prog.run_bind, Prog.onFail, hr, hnote]
    exact and_congr_left fun _ => booksOf_suite_disposed t.meter.trace
  | stop e t =>
    cases e with
    | undefined => simp only [Prog.finally', Prog.run_bind, Prog.onFail, hr, Lands]
    | fail e =>
      simp only [Prog.finally', Prog.run_bind, Prog.onFail, hr, hnote]
      exact and_congr_left fun _ => booksOf_suite_disposed t.meter.trace

theorem blockMake_lands_iff (blockId : Uuid) (blockData : Bytes) :
    Lands ts.length noHandles noHandles
      ((blockMake E caps blockId blockData).run f (atStart v ts n commitFails)) ↔
    ¬ (bitcapIsset caps .appBlockWrite = true ∧ f .suiteInit n = false ∧
      f .parserOptionsInit (n + 1) = false ∧
      (f .parserInit (n + 2) = true ∨ E.fields blockData = none ∨ f .txnBegin (n + 3) = true)) := by
  have hrun : (blockMake E caps blockId blockData).run f (atStart v ts n commitFails) =
      (authorize caps .appBlockWrite >>= fun _ =>
        Prog.require .suiteInit .vccryptSuiteOptionsInitFailure >>= fun _ =>
        Prog.note (.acquired .cryptoSuite) >>= fun _ =>
        (blockMakeParsed E blockId blockData).finally' (Prog.note (.disposed .cryptoSuite))).run f
          (atStart v ts n commitFails) := rfl
  rw [hrun, Prog.run_bind, authorize_run]
  cases hcap : bitcapIsset caps .appBlockWrite with
  | false => exact iff_of_true (atStart_holds v ts n commitFails) (by simp)
  | true =>
    simp only [if_true, atStart, Prog.run_bind, require_run]
    cases hsuite : f .suiteInit n with
    | true => exact iff_of_true ⟨rfl, rfl⟩ (by simp)
    | false =>
      simp only [Bool.false_eq_true, if_false, note_runs, List.nil_append]
      rw [lands_finally_suite]
      refine (blockMakeParsed_lands_iff E f ts blockId blockData).trans ?_
      simp

end Exceptions

/-! ### Every operation -/

/-- In each run of an operation, whatever fails in it, every transaction it begins is ended once,
the caller's is not, and what it initialises is disposed once and nothing else, if and only if it is
not a setting whose commit fails, and not a block whose parser cannot be initialised or whose
transaction cannot be begun. -/
theorem handles_ended_once_iff (E : Env) (caps : Bitcap) (f : FaultPattern) (v : Store)
    (ts : List Store) (n : ℕ) (commitFails : Bool) (r : Request) :
    Lands ts.length noHandles noHandles ((r.run E caps).run f (atStart v ts n commitFails)) ↔
      ¬ Request.Mishandles E caps f n commitFails r := by
  cases hr : Request.Careless r with
  | false =>
    refine iff_of_true (request_runs E caps hr _ (atStart_holds v ts n commitFails)) ?_
    cases r <;> first | exact id | cases hr
  | true =>
    cases r with
    | globalSettingsSet key buffer =>
      exact lands_bind_pure.trans (globalSettingsSet_lands_iff caps f ts key buffer)
    | blockMake blockId blockData =>
      exact lands_bind_pure.trans (blockMake_lands_iff E caps f ts blockId blockData)
    | _ => cases hr

def failing (k : Call) : FaultPattern := fun call _ => decide (call = k)

def sampleBlock : Bytes := blockCert 2 1 1 []

/-- A rollback of a transaction that the commit has ended, a parser that is disposed though it was
never initialised, and parser options that are never disposed. -/
theorem handles_mishandled :
    ¬ Lands 0 noHandles noHandles ((Request.run (codecEnv true) (BitVec.allOnes 32)
      (.globalSettingsSet 0 [1])).run noFaults (atStart emptyStore [] 0 true)) ∧
    ¬ Lands 0 noHandles noHandles ((Request.run (codecEnv true) (BitVec.allOnes 32)
      (.blockMake 2 sampleBlock)).run (failing .parserInit) (atStart emptyStore [] 0 false)) ∧
    ¬ Lands 0 noHandles noHandles ((Request.run (codecEnv true) (BitVec.allOnes 32)
      (.blockMake 2 sampleBlock)).run (failing .txnBegin) (atStart emptyStore [] 0 false)) := by
  refine ⟨fun h => ?_, fun h => ?_, fun h => ?_⟩
  · have hset := (globalSettingsSet_lands_iff _ _ [] _ _).mp (lands_bind_pure.mp h)
    exact hset ⟨by decide, rfl, rfl, rfl⟩
  · have hmake := (blockMake_lands_iff _ _ _ [] _ _).mp (lands_bind_pure.mp h)
    exact hmake ⟨by decide, rfl, rfl, Or.inl rfl⟩
  · have hmake := (blockMake_lands_iff _ _ _ [] _ _).mp (lands_bind_pure.mp h)
    exact hmake ⟨by decide, rfl, rfl, Or.inr (Or.inr rfl)⟩

end HandleDiscipline
