import Agentd.CertificateFields
import Agentd.DataserviceRecords

/-! # The database calls of the data service

Six databases, the LMDB calls on them, the capability bits and the certificate parser. A read
returns the stored bytes by value. The stack of open transactions stands for `dtxn_ctx`: an
operation called with a NULL context runs on a session without open transactions. -/
namespace DataserviceStore

open ByteString
open CertificateFields
open FaultyTransactions
open DataserviceRecords

/-! ### Capabilities -/

inductive ApiCap where
  | llRootContextCreate
  | llRootContextReduceCaps
  | llChildContextCreate
  | llChildContextClose
  | llDatabaseBackup
  | llDatabaseRestore
  | llDatabaseUpgrade
  | appGlobalSettingRead
  | appGlobalSettingWrite
  | appBlockIdLatestRead
  | appBlockIdNextRead
  | appBlockIdPrevRead
  | appBlockIdWithTransactionRead
  | appBlockRead
  | appTransactionRead
  | appPqTransactionSubmit
  | appPqTransactionPromote
  | appPqTransactionFirstRead
  | appPqTransactionRead
  | appPqTransactionDrop
  | appArtifactRead
  | appBlockWrite
  | appBlockIdByHeightRead
  deriving DecidableEq, Repr

/-- `BITCAP(x, DATASERVICE_API_CAP_BITS_MAX)`: 23 bits fit one 32-bit word. -/
abbrev Bitcap := BitVec 32

def bitcapMask (cap : ApiCap) : Bitcap := 1#32 <<< cap.ctorIdx

def bitcapIsset (caps : Bitcap) (cap : ApiCap) : Bool := caps &&& bitcapMask cap != 0

def bitcapSetTrue (caps : Bitcap) (cap : ApiCap) : Bitcap := caps ||| bitcapMask cap

def bitcapSetFalse (caps : Bitcap) (cap : ApiCap) : Bitcap := caps &&& ~~~ bitcapMask cap

def bitcapIntersect (a b : Bitcap) : Bitcap := a &&& b

theorem bitcapIsset_allOnes (cap : ApiCap) : bitcapIsset (BitVec.allOnes 32) cap = true := by
  cases cap <;> decide

/-! ### The databases -/

@[ext] structure Store where
  globalDb : BitVec 64 → Option Bytes
  blockDb : Uuid → Option Bytes
  txnDb : Uuid → Option Bytes
  pqDb : Uuid → Option Bytes
  artifactDb : Uuid → Option Bytes
  heightDb : BitVec 64 → Option Bytes

def emptyStore : Store :=
  ⟨fun _ => none, fun _ => none, fun _ => none, fun _ => none, fun _ => none, fun _ => none⟩

/-- A database handle: how to look a key up and how to replace its value. -/
structure Dbi (K : Type) where
  read : Store → K → Option Bytes
  write : Store → K → Option Bytes → Store

def globalDb : Dbi (BitVec 64) :=
  ⟨Store.globalDb, fun s k v => { s with globalDb := Function.update s.globalDb k v }⟩

def blockDb : Dbi Uuid :=
  ⟨Store.blockDb, fun s k v => { s with blockDb := Function.update s.blockDb k v }⟩

def txnDb : Dbi Uuid :=
  ⟨Store.txnDb, fun s k v => { s with txnDb := Function.update s.txnDb k v }⟩

def pqDb : Dbi Uuid :=
  ⟨Store.pqDb, fun s k v => { s with pqDb := Function.update s.pqDb k v }⟩

def artifactDb : Dbi Uuid :=
  ⟨Store.artifactDb, fun s k v => { s with artifactDb := Function.update s.artifactDb k v }⟩

def heightDb : Dbi (BitVec 64) :=
  ⟨Store.heightDb, fun s k v => { s with heightDb := Function.update s.heightDb k v }⟩

/-! ### Outside calls and events -/

inductive Call where
  | txnBegin
  | get
  | put
  | del
  | malloc
  | suiteInit
  | parserOptionsInit
  | parserInit
  | find
  deriving DecidableEq, Repr

inductive Resource where
  | cryptoSuite
  | parserOptions
  | parser
  deriving DecidableEq, Repr

inductive Event where
  | begun
  | committed
  | aborted
  | acquired (r : Resource)
  | disposed (r : Resource)
  deriving DecidableEq, Repr

abbrev FaultPattern := Faults Call

abbrev TxState := Tx Store Event

abbrev OpState := Session Store Event

abbrev TxOp (α : Type) := Prog Call AgentdError TxState α

abbrev Op (α : Type) := Prog Call AgentdError OpState α

/-- No LMDB call of the pattern fails; the commit is not part of the pattern. -/
structure LmdbWorks (f : FaultPattern) : Prop where
  txnBegin : ∀ n, f .txnBegin n = false
  get : ∀ n, f .get n = false
  put : ∀ n, f .put n = false
  del : ∀ n, f .del n = false

/-- Neither allocation nor the initialisation of a parser or crypto suite fails. -/
structure AllocWorks (f : FaultPattern) : Prop where
  malloc : ∀ n, f .malloc n = false
  suiteInit : ∀ n, f .suiteInit n = false
  parserOptionsInit : ∀ n, f .parserOptionsInit n = false
  parserInit : ∀ n, f .parserInit n = false

def FindWorks (f : FaultPattern) : Prop := ∀ n, f .find n = false

def noFaults : FaultPattern := fun _ _ => false

/-! ### LMDB -/

inductive MdbGet where
  | found (b : Bytes)
  | notFound
  | error
  deriving DecidableEq, Repr

inductive MdbDel where
  | ok
  | notFound
  | error
  deriving DecidableEq, Repr

variable {K : Type}

def mdbGet (db : Dbi K) (k : K) : TxOp MdbGet := do
  if ← Prog.attempt .get then
    ⟨fun _ t => .ok (match db.read t.view k with
      | some b => .found b
      | none => .notFound) t⟩
  else
    pure .error

/-- `mdb_put`; true when it returns zero. -/
def mdbPut (db : Dbi K) (k : K) (v : Bytes) (noOverwrite : Bool) : TxOp Bool := do
  if ← Prog.attempt .put then
    ⟨fun _ t =>
      if noOverwrite && (db.read t.view k).isSome then .ok false t
      else .ok true { t with view := db.write t.view k (some v) }⟩
  else
    pure false

def mdbDel (db : Dbi K) (k : K) : TxOp MdbDel := do
  if ← Prog.attempt .del then
    ⟨fun _ t =>
      if (db.read t.view k).isSome then .ok .ok { t with view := db.write t.view k none }
      else .ok .notFound t⟩
  else
    pure .error

def putOrFail (db : Dbi K) (k : K) (v : Bytes) (noOverwrite : Bool) : TxOp Unit := do
  if ← mdbPut db k v noOverwrite then pure () else Prog.fail .mdbPutFailure

/-- A lookup where a missing key and a failed read end the operation with these errors. -/
def getOrFail (db : Dbi K) (k : K) (missing error : AgentdError) : TxOp Bytes := do
  match ← mdbGet db k with
  | .found b => pure b
  | .notFound => Prog.fail missing
  | .error => Prog.fail error

def malloc {S : Type} [Metered S Event] : Prog Call AgentdError S Unit :=
  Prog.require .malloc .outOfMemory

/-- `mdb_txn_begin` under the open transaction of the caller, if there is one. -/
def mdbTxnBegin : Op Unit := do
  Prog.require .txnBegin .mdbTxnBeginFailure
  Prog.txnBegin
  Prog.note .begun

def mdbTxnAbort : Op Unit := do
  Prog.txnAbort
  Prog.note .aborted

/-- `mdb_txn_commit`; true when it returns zero. -/
def mdbTxnCommit : Op Bool := do
  let r ← Prog.txnCommit
  Prog.note .committed
  pure r

variable {α : Type}

/-- The rest of an operation after it began a transaction of its own: every failure reaches
`maybe_transaction_abort`, and the status of the commit is dropped. -/
def abortOrCommit (body : TxOp α) : Op α := do
  let a ← (Prog.inTxn body).onFail mdbTxnAbort
  let _ ← mdbTxnCommit
  pure a

def inOwnTxn (body : TxOp α) : Op α := do
  mdbTxnBegin
  abortOrCommit body

/-- The caller's transaction when there is one, else one of the operation's own. -/
def inTxnOrParent (body : TxOp α) : Op α := do
  if ← Prog.hasParent then Prog.inTxn body else inOwnTxn body

/-- A read: the caller's transaction, or a read-only one that is aborted on both exits. -/
def inReadTxn (body : TxOp α) : Op α := do
  if ← Prog.hasParent then
    Prog.inTxn body
  else
    mdbTxnBegin
    (Prog.inTxn body).finally' mdbTxnAbort

def authorize (childcaps : Bitcap) (cap : ApiCap) : Op Unit :=
  Prog.reject (bitcapIsset childcaps cap = false) .notAuthorized

/-! ### Certificates -/

/-- The build option and the two things the certificate library supplies: the uuid of the root
block and the parser, given by the fields it finds in a certificate. The value of a field is a
part of the certificate and stands behind a header. -/
structure Env where
  attestation : Bool
  rootBlock : Uuid
  fields : Bytes → Option (List (CertField × Bytes))
  rootBlock_ne_zero : rootBlock ≠ zeroUuid
  rootBlock_ne_ff : rootBlock ≠ ffUuid
  value_length_lt : ∀ {cert fs t v}, fields cert = some fs → (t, v) ∈ fs → v.length < cert.length

def codecEnv (attestation : Bool) : Env where
  attestation := attestation
  rootBlock := 1
  fields := certFields
  rootBlock_ne_zero := by decide
  rootBlock_ne_ff := by decide
  value_length_lt := parseFields_value_length

section Parser

variable {S : Type} [Metered S Event]

/-- `vccert_parser_init` on a certificate. -/
def parserInit (E : Env) (cert : Bytes) :
    Prog Call AgentdError S (List (CertField × Bytes)) := do
  Prog.require .parserInit .vccertParserInitFailure
  match E.fields cert with
  | none => Prog.fail .vccertParserInitFailure
  | some fs =>
    Prog.note (.acquired .parser)
    pure fs

/-- `vccert_parser_find_short`, rejecting a value that is not of the given size. -/
def findSized (fs : List (CertField × Bytes)) (t : CertField) (size : ℕ) (missing : AgentdError) :
    Prog Call AgentdError S Bytes := do
  Prog.require .find missing
  match (fieldValues fs t).head? with
  | none => Prog.fail missing
  | some v => do
    Prog.reject (v.length ≠ size) missing
    pure v

end Parser

/-! ### What the calls can end in -/

section Ends

variable {db : Dbi K} {k : K} {f : FaultPattern} {v w : Store} {b : Bytes}

theorem mdbGet_ends {r : MdbGet} (h : Ends (mdbGet db k) f v r w) :
    w = v ∧ ((∃ b, r = .found b ∧ db.read v k = some b) ∨
      (r = .notFound ∧ db.read v k = none) ∨ r = .error) := by
  obtain ⟨a, u, ha, h⟩ := h.of_bind
  have hu := ha.of_attempt
  subst hu
  cases a with
  | false =>
    obtain ⟨hr, hw⟩ := h.of_pure
    exact ⟨hw, Or.inr (Or.inr hr)⟩
  | true =>
    obtain ⟨m, m', h⟩ := h
    cases hk : db.read u k with
    | none =>
      simp only [if_true, hk] at h
      cases h
      exact ⟨rfl, Or.inr (Or.inl ⟨rfl, rfl⟩)⟩
    | some b =>
      simp only [if_true, hk] at h
      cases h
      exact ⟨rfl, Or.inl ⟨b, rfl, rfl⟩⟩

theorem putOrFail_ends {no : Bool} (h : Ends (putOrFail db k b no) f v () w) :
    w = db.write v k (some b) ∧ (no = true → db.read v k = none) := by
  obtain ⟨r, u, hp, h⟩ := h.of_bind
  cases r with
  | false => exact h.not_fail.elim
  | true =>
    obtain ⟨a, u', ha, hp⟩ := hp.of_bind
    have hw := h.of_pure.2
    have hu := ha.of_attempt
    subst hw hu
    cases a with
    | false =>
      have := hp.of_pure.1
      cases this
    | true =>
      obtain ⟨m, m', hp⟩ := hp
      by_cases hc : (no && (db.read u' k).isSome) = true
      · simp only [if_true, hc] at hp
        cases hp
      · simp only [if_true, if_neg hc] at hp
        cases hp
        refine ⟨rfl, fun hno => ?_⟩
        simpa [hno] using hc

theorem getOrFail_ends {missing error : AgentdError}
    (h : Ends (getOrFail db k missing error) f v b w) : w = v ∧ db.read v k = some b := by
  obtain ⟨r, u, hg, h⟩ := h.of_bind
  obtain ⟨hu, hr⟩ := mdbGet_ends hg
  subst hu
  rcases hr with ⟨b', rfl, hb⟩ | ⟨rfl, hb⟩ | rfl
  · obtain ⟨hb', hw⟩ := h.of_pure
    subst hb' hw
    exact ⟨rfl, hb⟩
  · exact h.not_fail.elim
  · exact h.not_fail.elim

theorem mdbDel_ends {r : MdbDel} (h : Ends (mdbDel db k) f v r w) :
    (r = .ok → w = db.write v k none ∧ (db.read v k).isSome) ∧ (r ≠ .ok → w = v) := by
  obtain ⟨a, u, ha, h⟩ := h.of_bind
  have hu := ha.of_attempt
  subst hu
  cases a with
  | false =>
    obtain ⟨hr, hw⟩ := h.of_pure
    subst hr hw
    simp
  | true =>
    obtain ⟨m, m', h⟩ := h
    by_cases hk : (db.read u k).isSome = true
    · simp only [if_true, hk] at h
      cases h
      simp [hk]
    · simp only [if_true, hk] at h
      cases h
      simp

theorem malloc_ends (h : Ends malloc f v () w) : w = v := h.of_require

theorem parserInit_ends {E : Env} {cert : Bytes} {fs : List (CertField × Bytes)}
    (h : Ends (parserInit E cert) f v fs w) : w = v ∧ E.fields cert = some fs := by
  obtain ⟨_, u, hr, hrest⟩ := h.of_bind
  have hu := hr.of_require
  subst hu
  cases hf : E.fields cert with
  | none =>
    simp only [hf] at hrest
    exact hrest.not_fail.elim
  | some fs' =>
    simp only [hf] at hrest
    obtain ⟨_, u', hn, hrest⟩ := hrest.of_bind
    obtain ⟨hfs, hw⟩ := hrest.of_pure
    have hu' := hn.of_note
    subst hfs hw hu'
    exact ⟨rfl, rfl⟩

theorem findSized_ends {fs : List (CertField × Bytes)} {t : CertField} {size : ℕ}
    {missing : AgentdError} (h : Ends (findSized fs t size missing) f v b w) :
    w = v ∧ sizedField fs t size = some b := by
  obtain ⟨_, u, hr, hrest⟩ := h.of_bind
  have hu := hr.of_require
  subst hu
  cases hv : (fieldValues fs t).head? with
  | none =>
    simp only [hv] at hrest
    exact hrest.not_fail.elim
  | some b' =>
    simp only [hv] at hrest
    obtain ⟨_, u', hr', hrest⟩ := hrest.of_bind
    obtain ⟨hl, hu'⟩ := hr'.of_reject
    obtain ⟨hb, hw⟩ := hrest.of_pure
    subst hb hw hu'
    exact ⟨rfl, sizedField_eq_some.mpr ⟨hv, not_not.mp hl⟩⟩

end Ends

/-! ### What the calls do when nothing fails -/

section Yields

variable {db : Dbi K} {k : K} {f : FaultPattern} {v : Store} {b : Bytes}

theorem mdbGet_yields (hf : LmdbWorks f) (db : Dbi K) (k : K) (v : Store) :
    Yields (mdbGet db k) f v (match db.read v k with
      | some b => .found b
      | none => .notFound) v :=
  (Yields.attempt hf.get v).bind fun m => ⟨m, rfl⟩

theorem putOrFail_yields {no : Bool} (hf : LmdbWorks f)
    (hk : no = true → db.read v k = none) :
    Yields (putOrFail db k b no) f v () (db.write v k (some b)) := by
  have hp : Yields (mdbPut db k b no) f v true (db.write v k (some b)) := by
    refine (Yields.attempt hf.put v).bind fun m => ⟨m, ?_⟩
    by_cases hno : no = true
    · simp [hno, hk hno]
    · simp [hno]
  exact hp.bind (Yields.pure () f _)

theorem getOrFail_yields {missing error : AgentdError} (hf : LmdbWorks f)
    (hk : db.read v k = some b) : Yields (getOrFail db k missing error) f v b v := by
  have hg := mdbGet_yields hf db k v
  simp only [hk] at hg
  exact hg.bind (Yields.pure b f v)

theorem mdbDel_yields (hf : LmdbWorks f) (hk : (db.read v k).isSome) :
    Yields (mdbDel db k) f v .ok (db.write v k none) := by
  refine (Yields.attempt hf.del v).bind fun m => ⟨m, ?_⟩
  simp [hk]

theorem malloc_yields (hf : AllocWorks f) : Yields malloc f v () v :=
  Yields.require hf.malloc _ v

theorem parserInit_yields {E : Env} {cert : Bytes} {fs : List (CertField × Bytes)}
    (hf : AllocWorks f) (h : E.fields cert = some fs) :
    Yields (parserInit E cert) f v fs v := by
  refine (Yields.require hf.parserInit _ v).bind ?_
  simp only [h]
  exact (Yields.note _ f v).bind (Yields.pure fs f v)

theorem findSized_yields {fs : List (CertField × Bytes)} {t : CertField} {size : ℕ}
    {missing : AgentdError} (hf : FindWorks f) (h : sizedField fs t size = some b) :
    Yields (findSized fs t size missing) f v b v := by
  obtain ⟨hv, hl⟩ := sizedField_eq_some.mp h
  refine (Yields.require hf _ v).bind ?_
  simp only [hv]
  exact (Yields.reject (not_not.mpr hl) _ f v).bind (Yields.pure b f v)

end Yields

/-! ### No undefined behaviour in the calls -/

section Safe

variable {db : Dbi K} {k : K} {f : FaultPattern} {v : Store} {b : Bytes}

theorem mdbGet_safe : Safe (mdbGet db k) f v := by
  apply (Safe.attempt _).bind
  intro r w _
  cases r with
  | true =>
    intro m u h
    cases h
  | false => exact Safe.pure _

theorem putOrFail_safe {no : Bool} : Safe (putOrFail db k b no) f v := by
  apply Safe.bind
  · apply (Safe.attempt _).bind
    intro r w _
    cases r with
    | false => exact Safe.pure _
    | true =>
      intro m u h
      simp only [if_true] at h
      by_cases hc : (no && (db.read w k).isSome) = true
      · rw [if_pos hc] at h
        cases h
      · rw [if_neg hc] at h
        cases h
  · intro r w _
    cases r with
    | true => exact Safe.pure _
    | false => exact Safe.fail _

theorem getOrFail_safe {missing error : AgentdError} :
    Safe (getOrFail db k missing error) f v := by
  apply mdbGet_safe.bind
  intro r w _
  cases r with
  | found b => exact Safe.pure _
  | notFound => exact Safe.fail _
  | error => exact Safe.fail _

theorem mdbDel_safe : Safe (mdbDel db k) f v := by
  apply (Safe.attempt _).bind
  intro r w _
  cases r with
  | false => exact Safe.pure _
  | true =>
    intro m u h
    simp only [if_true] at h
    by_cases hc : (db.read w k).isSome = true
    · rw [if_pos hc] at h
      cases h
    · rw [if_neg hc] at h
      cases h

theorem malloc_safe : Safe malloc f v := Safe.require _ _

end Safe

/-! ### Transactions of an operation's own -/

theorem authorize_passive (caps : Bitcap) (cap : ApiCap) :
    Passive (authorize caps cap) fun _ => ¬ bitcapIsset caps cap = false :=
  Passive.reject _ _

theorem parserInit_passive (E : Env) (cert : Bytes) :
    Passive (parserInit E cert : Op (List (CertField × Bytes)))
      fun fs => E.fields cert = some fs := by
  apply (Passive.require _ _).bind
  intro _ _
  cases h : E.fields cert with
  | none => exact Passive.fail _
  | some fs =>
    apply (Quiet.note _).passive.bind
    intro _ _
    exact Passive.pure rfl

theorem mdbTxnBegin_opens : Opens mdbTxnBegin := by
  apply Opens.of_passive_bind (Passive.require _ _)
  intro _
  exact Opens.txnBegin.seq_quiet (Quiet.note _)

theorem mdbTxnAbort_ends (f : FaultPattern) (v : Store) (m : Meter Event) :
    ∃ m', ∀ u b, mdbTxnAbort.run f ⟨v, [u], m, b⟩ = .ok () ⟨v, [], m', b⟩ :=
  ⟨⟨m.tick, m.trace ++ [.aborted]⟩, fun _ _ => rfl⟩

theorem mdbTxnCommit_ends (f : FaultPattern) (v : Store) (m : Meter Event) :
    ∃ m', ∀ u b, mdbTxnCommit.run f ⟨v, [u], m, b⟩ =
      .ok (!b) ⟨if b then v else u, [], m', b⟩ := by
  refine ⟨⟨m.tick, m.trace ++ [.committed]⟩, fun u b => ?_⟩
  cases b with
  | true => rfl
  | false => rfl

section Settles

variable {f : FaultPattern} {v : Store} {body : TxOp α} {caps : Bitcap} {cap : ApiCap} {U : Prop}
  {Q : α → Store → Prop}

theorem authorize_bind_settles {x : Op α} (hx : Settles x f v [] U Q) :
    Settles (authorize caps cap >>= fun _ => x) f v [] U
      (fun a w => bitcapIsset caps cap = true ∧ Q a w) :=
  (authorize_passive caps cap).bind_settles fun _ hcap =>
    hx.mono id fun _ _ hq => ⟨by simpa using hcap, hq⟩

theorem abortOrCommit_settles :
    Settles (abortOrCommit body) f v [v] (¬ Safe body f v) (fun a w => Ends body f v a w) :=
  Settles.abort_or_commit (mdbTxnAbort_ends f v) (mdbTxnCommit_ends f v)

theorem inOwnTxn_settles :
    Settles (inOwnTxn body) f v [] (¬ Safe body f v) (fun a w => Ends body f v a w) :=
  mdbTxnBegin_opens.bind_settles abortOrCommit_settles

theorem inTxnOrParent_settles :
    Settles (inTxnOrParent body) f v [] (¬ Safe body f v) (fun a w => Ends body f v a w) :=
  Settles.of_hasParent inOwnTxn_settles

theorem inReadTxn_settles :
    Settles (inReadTxn body) f v [] (¬ Safe body f v)
      (fun a w => w = v ∧ ∃ u, Ends body f v a u) :=
  Settles.of_hasParent
    (mdbTxnBegin_opens.bind_settles (Settles.always_abort (mdbTxnAbort_ends f v)))

end Settles

section Delivers

variable {f : FaultPattern} {v w : Store} {a : α} {body : TxOp α}

theorem authorize_delivers {caps : Bitcap} {cap : ApiCap} {x : Op α} {ts : List Store}
    (hcap : bitcapIsset caps cap = true) (hx : Delivers x f v ts a w) :
    Delivers (authorize caps cap >>= fun _ => x) f v ts a w :=
  Delivers.of_reject (by simp [hcap]) hx

theorem mdbTxnBegin_delivers {x : Op α} (hf : LmdbWorks f) (hx : Delivers x f v [v] a w) :
    Delivers (mdbTxnBegin >>= fun _ => x) f v [] a w := by
  intro m
  obtain ⟨m', h⟩ := hx ⟨m.tick + 1, m.trace ++ [.begun]⟩
  refine ⟨m', fun b => ?_⟩
  rw [← h b]
  simp [mdbTxnBegin, Prog.require, Prog.attempt, Prog.run_bind, Prog.txnBegin, Prog.note,
    Metered.meter, Metered.withMeter, hf.txnBegin]

theorem abortOrCommit_delivers (h : Yields body f v a w) :
    Delivers (abortOrCommit body) f v [v] a w :=
  Delivers.abort_or_commit h (mdbTxnCommit_ends f v)

theorem inOwnTxn_delivers (hf : LmdbWorks f) (h : Yields body f v a w) :
    Delivers (inOwnTxn body) f v [] a w :=
  mdbTxnBegin_delivers hf (abortOrCommit_delivers h)

theorem inTxnOrParent_delivers (hf : LmdbWorks f) (h : Yields body f v a w) :
    Delivers (inTxnOrParent body) f v [] a w :=
  Delivers.of_hasParent (inOwnTxn_delivers hf h)

theorem readTxn_delivers (hf : LmdbWorks f) (h : Yields body f v a w) :
    Delivers (mdbTxnBegin >>= fun _ => (Prog.inTxn body).finally' mdbTxnAbort) f v [] a v :=
  mdbTxnBegin_delivers hf (Delivers.always_abort h (mdbTxnAbort_ends f v))

theorem inReadTxn_delivers (hf : LmdbWorks f) (h : Yields body f v a w) :
    Delivers (inReadTxn body) f v [] a v :=
  Delivers.of_hasParent (readTxn_delivers hf h)

end Delivers

end DataserviceStore
