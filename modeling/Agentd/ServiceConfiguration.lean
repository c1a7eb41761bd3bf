import Agentd.ConfigFolding

/-! # The configuration of the services

The supervisor has a process without privileges read the configuration file. It reads the block that
this process writes to a socket, waits for its end and sets what is missing to the defaults. -/
namespace ServiceConfiguration

open ByteString
open TypedIpc
open StreamFronts
open ConfigBlock
open ConfigFields
open ConfigRoundTrip
open ConfigFolding (bind_ok_iff)
open FragmentedStreams (FieldsWhole)

/-! ### Defaults -/

inductive Allocation where
  | logdir
  | secret
  | rootblock
  | datastore
  | listenNode
  | listenAddr
  | chroot
  | usergroup
  | user
  | group
  deriving DecidableEq, Repr

/-- `log`. -/
def logdirDefault : CString := ⟨[108, 111, 103], by decide⟩

def loglevelDefault : BitVec 64 := 4

/-- 16 TB. -/
def databaseMaxSizeDefault : BitVec 64 := 16 * 1024 * 1024 * 1024 * 1024

def blockMaxMillisecondsDefault : BitVec 64 := 5000

def blockMaxTransactionsDefault : BitVec 64 := 500

/-- `root/secret.cert`. -/
def secretDefault : CString :=
  ⟨[114, 111, 111, 116, 47, 115, 101, 99, 114, 101, 116, 46, 99, 101, 114, 116], by decide⟩

/-- `root/root.cert`. -/
def rootblockDefault : CString :=
  ⟨[114, 111, 111, 116, 47, 114, 111, 111, 116, 46, 99, 101, 114, 116], by decide⟩

/-- `data`. -/
def datastoreDefault : CString := ⟨[100, 97, 116, 97], by decide⟩

/-- 0.0.0.0:4891. -/
def listenDefault : ListenAddress := ⟨0, 4891⟩

/-- `veloagent`. -/
def veloagent : CString := ⟨[118, 101, 108, 111, 97, 103, 101, 110, 116], by decide⟩

def defaultString (fails : Bool) (code : ℕ) (f : StringField) (text : CString)
    (conf : AgentConfig) :
    Except ℕ AgentConfig :=
  if (f.get conf).isSome then .ok conf
  else if fails then .error code
  else .ok (f.set conf text)

/-- A number that is out of its range is replaced as well. -/
def defaultNumber (f : NumberField) (n : BitVec 64) (conf : AgentConfig) : AgentConfig :=
  if (f.get conf).isSet = false ∨ (f.get conf).value.toInt < 0 ∨
    f.maximum < (f.get conf).value.toInt then
    f.set conf n
  else conf

def defaultDatabaseMaxSize (conf : AgentConfig) : AgentConfig :=
  if conf.databaseMaxSize.isSet then conf
  else { conf with databaseMaxSize := ⟨true, databaseMaxSizeDefault⟩ }

variable (fails : Allocation → Bool) (prefixDir : CString)

/-- The status 7 is for an address that cannot be converted. -/
def defaultListen (conf : AgentConfig) : Except ℕ AgentConfig :=
  if conf.listenHead ≠ [] then .ok conf
  else if fails .listenNode then .error 5
  else if fails .listenAddr then .error 6
  else .ok { conf with listenHead := [listenDefault] }

def defaultUsergroup (conf : AgentConfig) : Except ℕ AgentConfig :=
  if conf.usergroup.isSome then .ok conf
  else if fails .usergroup then .error 9
  else if fails .user then .error 10
  else if fails .group then .error 11
  else .ok { conf with usergroup := some ⟨veloagent, veloagent⟩ }

def configSetDefaults (conf : AgentConfig) : Except ℕ AgentConfig := do
  let conf ← defaultString (fails .logdir) 1 .logdir logdirDefault conf
  let conf := defaultNumber .loglevel loglevelDefault conf
  let conf := defaultDatabaseMaxSize conf
  let conf := defaultNumber .blockMaxMilliseconds blockMaxMillisecondsDefault conf
  let conf := defaultNumber .blockMaxTransactions blockMaxTransactionsDefault conf
  let conf ← defaultString (fails .secret) 2 .secret secretDefault conf
  let conf ← defaultString (fails .rootblock) 3 .rootblock rootblockDefault conf
  let conf ← defaultString (fails .datastore) 4 .datastore datastoreDefault conf
  let conf ← defaultListen fails conf
  let conf ← defaultString (fails .chroot) 8 .chroot prefixDir conf
  defaultUsergroup fails conf

/-! ### The process that reads the file -/

/-- The directives of a file up to its end, or up to the first error of the grammar. -/
structure ConfigFile where
  directives : List Directive
  syntaxError : Option String

structure ChildEnd where
  sent : Bytes
  exitStatus : UInt8

/-- `error: `. -/
def errorPrefix : Bytes := [101, 114, 114, 111, 114, 58, 32]

/-- The messages are short enough for the buffer. -/
def privateConfigSetError (msg : String) : ChildEnd :=
  ⟨errorPrefix ++ msg.toUTF8.data.toList ++ [10], 1⟩

/-- The first error ends the process. -/
def privateCommandReadconfig (file : ConfigFile) : ChildEnd :=
  match parse file.directives, file.syntaxError with
  | .error msg, _ => privateConfigSetError msg
  | .ok _, some msg => privateConfigSetError msg
  | .ok conf, none => ⟨written conf, 0⟩

/-! ### The supervisor -/

inductive ProcError where
  | runsecureRootUserRequired
  | ipcSocketpairFailure
  | forkFailure
  | ipcReadDataFailure
  | procExitFailure
  | defaultsSetFailure
  deriving DecidableEq, Repr

/-- What the calls of the supervisor meet with. A process that was killed has no exit status. -/
structure ProcCalls where
  root : Bool
  socketpair : Bool
  forked : Bool
  exitStatus : Option UInt8
  allocFails : Allocation → Bool

/-- What fails before there is a process to read from. -/
def startFailure (o : ProcCalls) : Option ProcError :=
  if o.root = false then some .runsecureRootUserRequired
  else if o.socketpair = false then some .ipcSocketpairFailure
  else if o.forked = false then some .forkFailure
  else none

/-- A failure of the defaults hides one of the process. -/
def afterRead (o : ProcCalls) : Except ConfigError AgentConfig → Except ProcError AgentConfig
  | .error _ => .error .ipcReadDataFailure
  | .ok conf =>
    match configSetDefaults o.allocFails prefixDir conf with
    | .error _ => .error .defaultsSetFailure
    | .ok conf => if o.exitStatus = some 0 then .ok conf else .error .procExitFailure

/-- `config_read_proc` in the supervisor, which takes the configuration only on success; `none` when
the block may have more than `n` fields. -/
def configReadProc (o : ProcCalls) (n : ℕ) (frags : List Bytes) :
    Option (Except ProcError AgentConfig) :=
  match startFailure o with
  | some e => some (.error e)
  | none => (configReadBlock n frags).map fun r => afterRead prefixDir o r.1

/-! ### What the defaults come to -/

variable {fails prefixDir} {conf conf' : AgentConfig} {n : ℕ} {frags : List Bytes}

def numberOr (maximum : ℤ) (default : BitVec 64) (s : Setting) : BitVec 64 :=
  if s.isSet = false ∨ s.value.toInt < 0 ∨ maximum < s.value.toInt then default else s.value

variable (prefixDir) in
def withDefaults (conf : AgentConfig) : AgentConfig :=
  { conf with
    logdir := some (conf.logdir.getD logdirDefault)
    loglevel := ⟨true, numberOr loglevelMaximum loglevelDefault conf.loglevel⟩
    databaseMaxSize :=
      if conf.databaseMaxSize.isSet then conf.databaseMaxSize else ⟨true, databaseMaxSizeDefault⟩
    blockMaxMilliseconds :=
      ⟨true, numberOr blockMillisecondsMaximum blockMaxMillisecondsDefault
        conf.blockMaxMilliseconds⟩
    blockMaxTransactions :=
      ⟨true, numberOr blockTransactionsMaximum blockMaxTransactionsDefault
        conf.blockMaxTransactions⟩
    secret := some (conf.secret.getD secretDefault)
    rootblock := some (conf.rootblock.getD rootblockDefault)
    datastore := some (conf.datastore.getD datastoreDefault)
    listenHead := if conf.listenHead = [] then [listenDefault] else conf.listenHead
    chroot := some (conf.chroot.getD prefixDir)
    usergroup := some (conf.usergroup.getD ⟨veloagent, veloagent⟩) }

theorem set_get {f : StringField} {s : CString} (h : f.get conf = some s) :
    f.set conf s = conf := by
  cases conf
  cases f <;> cases h <;> rfl

/-- Where the default of a string succeeds, the string is set. -/
theorem defaultString_ok {failed : Bool} {code : ℕ} {f : StringField} {text : CString}
    (h : defaultString failed code f text conf = .ok conf') :
    conf' = f.set conf ((f.get conf).getD text) := by
  unfold defaultString at h
  cases hget : f.get conf with
  | none =>
    rw [hget] at h
    cases failed with
    | true => cases h
    | false => exact (Except.ok.inj h).symm
  | some s =>
    rw [hget] at h
    rw [← Except.ok.inj h]
    exact (set_get hget).symm

theorem defaultString_works (code : ℕ) (f : StringField) (text : CString) (conf : AgentConfig) :
    defaultString false code f text conf = .ok (f.set conf ((f.get conf).getD text)) := by
  unfold defaultString
  cases hget : f.get conf with
  | none => rfl
  | some s => exact congrArg Except.ok (set_get hget).symm

theorem defaultListen_ok (h : defaultListen fails conf = .ok conf') :
    conf' = { conf with
      listenHead := if conf.listenHead = [] then [listenDefault] else conf.listenHead } := by
  unfold defaultListen at h
  by_cases hnil : conf.listenHead = []
  · rw [if_neg (not_not.mpr hnil)] at h
    split_ifs at h
    rw [if_pos hnil]
    exact (Except.ok.inj h).symm
  · rw [if_pos hnil] at h
    rw [if_neg hnil]
    exact (Except.ok.inj h).symm

theorem defaultUsergroup_ok (h : defaultUsergroup fails conf = .ok conf') :
    conf' = { conf with usergroup := some (conf.usergroup.getD ⟨veloagent, veloagent⟩) } := by
  unfold defaultUsergroup at h
  cases hgroup : conf.usergroup with
  | none =>
    rw [hgroup] at h
    split_ifs at h
    · cases ‹(none : Option UserGroup).isSome = true›
    · exact (Except.ok.inj h).symm
  | some u =>
    rw [hgroup] at h
    rw [← Except.ok.inj h, Option.getD_some, ← hgroup]

theorem set_get_number {f : NumberField} (h : (f.get conf).isSet = true) :
    f.set conf (f.get conf).value = conf := by
  have hsetting : Setting.mk true (f.get conf).value = f.get conf := by rw [← h]
  cases f with
  | loglevel => exact congrArg (fun s => { conf with loglevel := s }) hsetting
  | blockMaxMilliseconds =>
    exact congrArg (fun s => { conf with blockMaxMilliseconds := s }) hsetting
  | blockMaxTransactions =>
    exact congrArg (fun s => { conf with blockMaxTransactions := s }) hsetting

theorem defaultNumber_eq (f : NumberField) (n : BitVec 64) (conf : AgentConfig) :
    defaultNumber f n conf = f.set conf (numberOr f.maximum n (f.get conf)) := by
  unfold defaultNumber numberOr
  split_ifs with hout
  · rfl
  · rw [not_or, Bool.not_eq_false] at hout
    exact (set_get_number hout.1).symm

theorem defaultDatabaseMaxSize_eq (conf : AgentConfig) :
    defaultDatabaseMaxSize conf = { conf with
      databaseMaxSize :=
        if conf.databaseMaxSize.isSet then conf.databaseMaxSize else ⟨true,
          databaseMaxSizeDefault⟩ } := by
  unfold defaultDatabaseMaxSize
  split_ifs <;> rfl

/-- Where the defaults succeed, what is missing is set. -/
theorem configSetDefaults_ok (h : configSetDefaults fails prefixDir conf = .ok conf') :
    conf' = withDefaults prefixDir conf := by
  simp only [configSetDefaults, bind_ok_iff, defaultNumber_eq, defaultDatabaseMaxSize_eq] at h
  obtain ⟨_, hlogdir, _, hsecret, _, hrootblock, _, hdatastore, _, hlisten, _, hchroot,
      husergroup⟩ := h
  obtain rfl := defaultString_ok hlogdir
  obtain rfl := defaultString_ok hsecret
  obtain rfl := defaultString_ok hrootblock
  obtain rfl := defaultString_ok hdatastore
  obtain rfl := defaultListen_ok hlisten
  obtain rfl := defaultString_ok hchroot
  exact defaultUsergroup_ok husergroup

theorem defaultListen_works (hworks : ∀ a, fails a = false) (conf : AgentConfig) :
    defaultListen fails conf = .ok { conf with
      listenHead := if conf.listenHead = [] then [listenDefault] else conf.listenHead } := by
  unfold defaultListen
  by_cases hnil : conf.listenHead = []
  · simp only [hnil, hworks, ne_eq, not_true_eq_false, if_false, Bool.false_eq_true, if_true]
  · rw [if_pos hnil, if_neg hnil]

theorem defaultUsergroup_works (hworks : ∀ a, fails a = false) (conf : AgentConfig) :
    defaultUsergroup fails conf = .ok { conf with
      usergroup := some (conf.usergroup.getD ⟨veloagent, veloagent⟩) } := by
  unfold defaultUsergroup
  cases hgroup : conf.usergroup with
  | none => simp only [hworks, Option.isSome_none, Bool.false_eq_true, if_false, Option.getD_none]
  | some u =>
    rw [Option.getD_some, ← hgroup]
    exact if_pos (by rw [hgroup]; rfl)

theorem configSetDefaults_works (hworks : ∀ a, fails a = false) (conf : AgentConfig) :
    configSetDefaults fails prefixDir conf = .ok (withDefaults prefixDir conf) := by
  simp only [configSetDefaults, hworks, defaultString_works, defaultNumber_eq,
    defaultDatabaseMaxSize_eq, defaultListen_works hworks, defaultUsergroup_works hworks]
  rfl

structure Complete (conf : AgentConfig) : Prop where
  string : ∀ f : StringField, f ≠ .privateKey → f ≠ .endorserKey → (f.get conf).isSome = true
  number : ∀ f : NumberField, (f.get conf).isSet = true
  inRange : NumbersInRange conf
  databaseMaxSize : conf.databaseMaxSize.isSet = true
  listenHead : conf.listenHead ≠ []
  usergroup : conf.usergroup.isSome = true

theorem numberOr_inRange {maximum : ℤ} {default : BitVec 64} (s : Setting)
    (hdefault : 0 ≤ default.toInt ∧ default.toInt ≤ maximum) :
    0 ≤ (numberOr maximum default s).toInt ∧ (numberOr maximum default s).toInt ≤ maximum := by
  unfold numberOr
  split_ifs with hout
  · exact hdefault
  · omega

theorem withDefaults_complete (conf : AgentConfig) : Complete (withDefaults prefixDir conf) where
  string := by
    intro f hprivate hendorser
    cases f with
    | privateKey => exact absurd rfl hprivate
    | endorserKey => exact absurd rfl hendorser
    | _ => rfl
  number := by
    intro f
    cases f <;> rfl
  inRange := by
    intro f _
    cases f with
    | loglevel => exact numberOr_inRange conf.loglevel (by decide)
    | blockMaxMilliseconds => exact numberOr_inRange conf.blockMaxMilliseconds (by decide)
    | blockMaxTransactions => exact numberOr_inRange conf.blockMaxTransactions (by decide)
  databaseMaxSize := by
    simp only [withDefaults]
    split_ifs with hset
    · exact hset
    · rfl
  listenHead := by
    simp only [withDefaults]
    split_ifs with hnil
    · exact List.cons_ne_nil _ _
    · exact hnil
  usergroup := rfl

/-- Nothing is allocated for a configuration that is complete. -/
theorem configSetDefaults_complete (h : Complete conf) :
    configSetDefaults fails prefixDir conf = .ok conf := by
  have hstring : ∀ failed code f text, f ≠ StringField.privateKey → f ≠ .endorserKey →
      defaultString failed code f text conf = .ok conf :=
    fun _ _ f _ hprivate hendorser => if_pos (h.string f hprivate hendorser)
  have hnumber : ∀ f n, defaultNumber f n conf = conf := by
    intro f n
    obtain ⟨hlow, hhigh⟩ := h.inRange f (h.number f)
    refine if_neg ?_
    rintro (hunset | hout | hout)
    · rw [h.number f] at hunset
      cases hunset
    · exact absurd hlow (not_le.mpr hout)
    · exact absurd hhigh (not_le.mpr hout)
  have hdatabase : defaultDatabaseMaxSize conf = conf := if_pos h.databaseMaxSize
  have hlisten : defaultListen fails conf = .ok conf := if_pos h.listenHead
  have husergroup : defaultUsergroup fails conf = .ok conf := if_pos h.usergroup
  simp only [configSetDefaults, bind, Except.bind, hnumber, hdatabase,
    hstring _ _ .logdir _ (by decide) (by decide), hstring _ _ .secret _ (by decide) (by decide),
    hstring _ _ .rootblock _ (by decide) (by decide),
    hstring _ _ .datastore _ (by decide) (by decide),
    hstring _ _ .chroot _ (by decide) (by decide), hlisten, husergroup]

/-! ### What is written -/

def setPart (s : Setting) : Setting := if s.isSet then s else unset

def sentPart (conf : AgentConfig) : AgentConfig :=
  { conf with
    loglevel := setPart conf.loglevel
    databaseMaxSize := unset
    blockMaxMilliseconds := setPart conf.blockMaxMilliseconds
    blockMaxTransactions := setPart conf.blockMaxTransactions
    viewHead := [] }

theorem get_string_sentPart (f : StringField) (conf : AgentConfig) :
    f.get (sentPart conf) = f.get conf := by
  cases f <;> rfl

theorem get_number_sentPart (f : NumberField) (conf : AgentConfig) :
    f.get (sentPart conf) = setPart (f.get conf) := by
  cases f <;> rfl

theorem configWriteNumber_sentPart (f : NumberField) (conf : AgentConfig) :
    configWriteNumber (sentPart conf) f = configWriteNumber conf f := by
  unfold configWriteNumber
  rw [get_number_sentPart, setPart]
  cases hset : (f.get conf).isSet with
  | true => simp only [if_true, hset]
  | false => rfl

theorem configValues_sentPart (conf : AgentConfig) :
    configValues (sentPart conf) = configValues conf := by
  simp only [configValues, configWriteLoglevel, configWriteBlockMaxMilliseconds,
    configWriteBlockMaxTransactions, configWriteNumber_sentPart]
  rfl

theorem writtenPieces_sentPart (conf : AgentConfig) :
    writtenPieces (sentPart conf) = writtenPieces conf := by
  rw [writtenPieces, writtenPieces, configValues_sentPart]

theorem written_sentPart (conf : AgentConfig) : written (sentPart conf) = written conf := by
  rw [written, written, configWriteBlock_eq, configWriteBlock_eq, writtenPieces_sentPart]

theorem carried_sentPart (hfit : StringsFit conf) : Carried (sentPart conf) where
  databaseMaxSize := rfl
  viewHead := rfl
  number := by
    intro f hset
    rw [get_number_sentPart, setPart] at hset ⊢
    split_ifs at hset ⊢ with h
    · rw [h] at hset
      cases hset
    · rfl
  strings :=
    { string := fun f s hs => hfit.string f s (get_string_sentPart f conf ▸ hs)
      usergroup := hfit.usergroup
      publicKey := hfit.publicKey }

theorem numbersInRange_sentPart (h : NumbersInRange conf) : NumbersInRange (sentPart conf) := by
  intro f hset
  rw [get_number_sentPart, setPart] at hset ⊢
  split_ifs at hset ⊢ with hf
  · exact h f hf
  · cases hset

theorem numberOr_setPart (maximum : ℤ) (default : BitVec 64) (s : Setting) :
    numberOr maximum default (setPart s) = numberOr maximum default s := by
  unfold setPart
  split_ifs with hset
  · rfl
  · rw [numberOr, numberOr, if_pos (.inl rfl), if_pos (.inl (Bool.not_eq_true _ ▸ hset))]

theorem withDefaults_sentPart (conf : AgentConfig) : withDefaults prefixDir (sentPart conf) =
    withDefaults prefixDir { conf with databaseMaxSize := unset, viewHead := [] } := by
  simp only [withDefaults, sentPart, numberOr_setPart]
  rfl

/-- The defaults do not tell two configurations apart that are the same. -/
theorem same_withDefaults (h : Same conf conf') :
    Same (withDefaults prefixDir conf) (withDefaults prefixDir conf') where
  string := by
    intro f
    have hget := h.string f
    cases f with
    | privateKey => exact hget
    | endorserKey => exact hget
    | _ => exact congrArg (fun s => some (Option.getD s _)) hget
  number := by
    intro f
    have hget := h.number f
    cases f <;> exact congrArg (fun s => Setting.mk true (numberOr _ _ s)) hget
  databaseMaxSize :=
    congrArg (fun s => if s.isSet then s else Setting.mk true databaseMaxSizeDefault)
      h.databaseMaxSize
  usergroup := congrArg (fun u =>
    some (Option.getD u (UserGroup.mk veloagent veloagent))) h.usergroup
  listenHead := by
    have hlisten := h.listenHead
    simp only [withDefaults]
    by_cases hnil : conf.listenHead = []
    · rw [hnil] at hlisten
      rw [if_pos hnil, if_pos (List.perm_nil.mp hlisten)]
    · have hnil' : conf'.listenHead ≠ [] := by
        intro hnil'
        rw [hnil'] at hlisten
        exact hnil (List.nil_perm.mp hlisten)
      rw [if_neg hnil, if_neg hnil']
      exact hlisten
  viewHead := h.viewHead
  publicKeyHead := h.publicKeyHead

/-! ### What the supervisor accepts -/

variable {o : ProcCalls}

theorem afterRead_ok {conf : AgentConfig} (h : afterRead prefixDir o (.ok conf) = .ok conf') :
    o.exitStatus = some 0 ∧ conf' = withDefaults prefixDir conf := by
  unfold afterRead at h
  cases hset : configSetDefaults o.allocFails prefixDir conf with
  | error e =>
    simp only [hset] at h
    cases h
  | ok conf =>
    simp only [hset] at h
    split_ifs at h with hexit
    obtain rfl := Except.ok.inj h
    exact ⟨hexit, configSetDefaults_ok hset⟩

theorem afterRead_works (hexit : o.exitStatus = some 0) (hallocs : ∀ a, o.allocFails a = false)
    (conf : AgentConfig) : afterRead prefixDir o (.ok conf) =
    .ok (withDefaults prefixDir conf) := by
  simp only [afterRead, configSetDefaults_works hallocs, hexit, if_true]

/-- A configuration that was accepted: the process ended well after a block, whose settings are
taken with defaults for the rest, and nothing is left to set. -/
structure Accepted (prefixDir : CString) (o : ProcCalls) (frags : List Bytes) (conf : AgentConfig) :
    Prop where
  exited : o.exitStatus = some 0
  block : ∃ fs left, WellFormed fs ∧ frags.flatten = (streamPieces fs).flatten ++ left ∧
    conf = withDefaults prefixDir (fs.foldl Field.apply newConfig)
  complete : Complete conf
  settled : ∀ fails dir, configSetDefaults fails dir conf = .ok conf
  databaseMaxSize : conf.databaseMaxSize = ⟨true, databaseMaxSizeDefault⟩
  viewHead : conf.viewHead = []

theorem accepted_of_read {left : List Bytes}
    (hread : configReadBlock n frags = some (.ok conf, left))
    (h : afterRead prefixDir o (.ok conf) = .ok conf') : Accepted prefixDir o frags conf' := by
  obtain ⟨hexit, rfl⟩ := afterRead_ok h
  obtain ⟨fs, hwell, rfl, hfront⟩ := configReadBlock_sound hread
  have hcarried := carried_of_read hwell.inRange
  exact
    { exited := hexit
      block := ⟨fs, left.flatten, hwell, hfront.flatten, rfl⟩
      complete := withDefaults_complete _
      settled := fun _ _ => configSetDefaults_complete (withDefaults_complete _)
      databaseMaxSize := by
        simp only [withDefaults, hcarried.databaseMaxSize]
        rfl
      viewHead := hcarried.viewHead }

/-- Whatever the process writes and however it ends, the supervisor comes to an end, and the
configuration that it accepts is complete and from a block of a process that ended well. -/
theorem accepted_configuration_is_complete (prefixDir : CString) (o : ProcCalls)
    (frags : List Bytes) :
    ∃ r, (∀ n, frags.flatten.length < n → configReadProc prefixDir o n frags = some r) ∧
      ∀ conf, r = .ok conf → Accepted prefixDir o frags conf := by
  unfold configReadProc
  cases startFailure o with
  | some e =>
    refine ⟨.error e, fun _ _ => rfl, ?_⟩
    rintro conf ⟨⟩
  | none =>
    obtain ⟨⟨read, left⟩, hr⟩ := configReadBlock_terminates frags
    have hread := hr _ (Nat.lt_succ_self _)
    refine ⟨afterRead prefixDir o read, fun n hn => by rw [hr n hn]; rfl, fun conf hok => ?_⟩
    cases read with
    | error e => cases hok
    | ok conf => exact accepted_of_read hread hok

/-! ### From the file to the supervisor -/

def Erroneous (file : ConfigFile) : Prop :=
  (∃ msg, parse file.directives = .error msg) ∨ file.syntaxError.isSome = true

theorem sent_of_erroneous {file : ConfigFile} (h : Erroneous file) :
    ∃ msg, privateCommandReadconfig file = privateConfigSetError msg := by
  unfold privateCommandReadconfig
  cases hparse : parse file.directives with
  | error msg => exact ⟨msg, rfl⟩
  | ok conf =>
    rcases h with ⟨msg, hmsg⟩ | herror
    · rw [hparse] at hmsg
      cases hmsg
    · obtain ⟨msg, hmsg⟩ := Option.isSome_iff_exists.mp herror
      exact ⟨msg, by rw [hmsg]⟩

/-- A message does not begin like a block. -/
theorem message_is_no_block {fs : List Field} {left : Bytes} (msg : String) :
    (privateConfigSetError msg).sent ≠ (streamPieces fs).flatten ++ left := by
  intro h
  have hmessage : (privateConfigSetError msg).sent.head? = some 101 := rfl
  have hblock : ((streamPieces fs).flatten ++ left).head? = some 0 := rfl
  rw [h, hblock] at hmessage
  exact absurd hmessage (by decide)

/-- A file without an error takes effect: its settings get to the supervisor, but for the size of
the database and the views, and the rest are defaults. Of a file with an error nothing is taken. -/
theorem configuration_file_takes_effect (file : ConfigFile) (hstart : startFailure o = none)
    (hexit : o.exitStatus = some (privateCommandReadconfig file).exitStatus)
    (hsent : frags.flatten = (privateCommandReadconfig file).sent) :
    (∀ conf, parse file.directives = .ok conf → file.syntaxError = none → StringsFit conf →
      FieldsWhole frags 0 ((writtenPieces conf).map List.length) → (∀ a, o.allocFails a = false) →
      ∃ conf', (∀ n, frags.flatten.length < n →
        configReadProc prefixDir o n frags = some (.ok conf')) ∧
        Same (withDefaults prefixDir { conf with databaseMaxSize := unset, viewHead := [] })
          conf') ∧
      (Erroneous file → ∀ n, frags.flatten.length < n →
        configReadProc prefixDir o n frags = some (.error .ipcReadDataFailure)) := by
  unfold configReadProc
  rw [hstart]
  constructor
  · intro conf hparse hsyntax hfit hwhole hallocs
    have hchild : privateCommandReadconfig file = ⟨written conf, 0⟩ := by
      unfold privateCommandReadconfig
      rw [hparse, hsyntax]
    rw [hchild] at hexit hsent
    rw [← writtenPieces_sentPart] at hwhole
    have hflatten : frags.flatten = written (sentPart conf) ++ [] := by
      rw [hsent, written_sentPart, List.append_nil]
    obtain ⟨conf', left, hread, hsame, -⟩ := roundTrips_of_carried
      (numbersInRange_sentPart (parse_inRange hparse)) (carried_sentPart hfit) hflatten hwhole
    refine ⟨withDefaults prefixDir conf', fun n hn => ?_, ?_⟩
    · rw [hread n hn]
      exact congrArg some (afterRead_works hexit hallocs conf')
    · rw [← withDefaults_sentPart]
      exact same_withDefaults hsame
  · intro herror n hn
    obtain ⟨msg, hmsg⟩ := sent_of_erroneous herror
    rw [hmsg] at hsent
    obtain ⟨⟨read, left⟩, hr⟩ := configReadBlock_terminates frags
    have hread := hr n hn
    cases read with
    | error e => rw [hread]; rfl
    | ok conf =>
      obtain ⟨fs, -, -, hfront⟩ := configReadBlock_sound hread
      exact absurd (hsent.symm.trans hfront.flatten) (message_is_no_block msg)

def sampleFile : ConfigFile := ⟨[.loglevel 3, .datasize 1000000, .listen 0x7F000001 4931], none⟩

def sampleConfig : AgentConfig :=
  { newConfig with
    loglevel := ⟨true, 3⟩
    databaseMaxSize := ⟨true, 1000000⟩
    listenHead := [⟨0x7F000001, 4931⟩] }

def workingCalls : ProcCalls := ⟨true, true, true, some 0, fun _ => false⟩

theorem sample_file_takes_effect : ∃ conf',
    (∀ n, [written sampleConfig].flatten.length < n →
      configReadProc logdirDefault workingCalls n [written sampleConfig] = some (.ok conf')) ∧
      Same (withDefaults logdirDefault
        { sampleConfig with databaseMaxSize := unset, viewHead := [] }) conf' := by
  have hchild : privateCommandReadconfig sampleFile = ⟨written sampleConfig, 0⟩ := rfl
  refine (configuration_file_takes_effect sampleFile rfl (by rw [hchild]; rfl)
    (by rw [hchild, List.flatten_singleton])).1 sampleConfig rfl rfl ⟨?_, ?_, ?_⟩ ?_ fun _ => rfl
  · intro f s hs
    cases f <;> cases hs
  · intro u hu
    cases hu
  · intro path hpath
    cases hpath
  · have harrives := (arrives_singleton (writtenPieces sampleConfig) []).whole
    rw [List.append_nil] at harrives
    exact harrives

end ServiceConfiguration
