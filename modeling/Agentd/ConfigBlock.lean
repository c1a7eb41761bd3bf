import Mathlib.Data.List.TakeWhile
import Agentd.TypedIpc
import Agentd.DataserviceRecords

/-! # The configuration and its way between processes

One process parses the configuration file and writes the configuration to a socket, field by field;
the other reads it. The parser folds the directives of the file into an empty configuration. -/
namespace ConfigBlock

open ByteString
open DataserviceRecords (Uuid)
open TypedIpc

/-! ### Configuration -/

structure Setting where
  isSet : Bool
  value : BitVec 64
  deriving DecidableEq

structure ListenAddress where
  addr : BitVec 32
  port : BitVec 16
  deriving DecidableEq

structure UserGroup where
  user : CString
  group : CString
  deriving DecidableEq

structure FieldType where
  fieldCode : Uuid
  fieldCrudFlags : BitVec 32
  deriving DecidableEq

structure TransactionType where
  transactionType : Uuid
  artifactCrudFlags : BitVec 32
  fieldHead : List FieldType
  deriving DecidableEq

structure ArtifactType where
  artifactType : Uuid
  transactionHead : List TransactionType
  deriving DecidableEq

structure View where
  name : CString
  artifactHead : List ArtifactType
  deriving DecidableEq

/-- `agent_config_t`; a key entry is its file name. -/
structure AgentConfig where
  logdir : Option CString
  loglevel : Setting
  databaseMaxSize : Setting
  blockMaxMilliseconds : Setting
  blockMaxTransactions : Setting
  secret : Option CString
  rootblock : Option CString
  datastore : Option CString
  listenHead : List ListenAddress
  chroot : Option CString
  usergroup : Option UserGroup
  viewHead : List View
  privateKey : Option CString
  endorserKey : Option CString
  publicKeyHead : List CString
  deriving DecidableEq

def unset : Setting := ⟨false, 0⟩

def newConfig : AgentConfig where
  logdir := none
  loglevel := unset
  databaseMaxSize := unset
  blockMaxMilliseconds := unset
  blockMaxTransactions := unset
  secret := none
  rootblock := none
  datastore := none
  listenHead := []
  chroot := none
  usergroup := none
  viewHead := []
  privateKey := none
  endorserKey := none
  publicKeyHead := []

def loglevelMaximum : ℤ := 9

def blockMillisecondsMaximum : ℤ := 43200000

def blockTransactionsMaximum : ℤ := 100000

/-! ### Directives -/

inductive Crud where
  | create
  | update
  | append
  | delete
  deriving DecidableEq, Repr

def Crud.flag : Crud → BitVec 32
  | create => 0x0001
  | update => 0x0002
  | append => 0x0004
  | delete => 0x0008

structure FieldBlock where
  uuid : Uuid
  crud : List Crud

inductive TransactionItem where
  | artifactCrud (crud : List Crud)
  | field (f : FieldBlock)

structure TransactionBlock where
  uuid : Uuid
  items : List TransactionItem

structure ArtifactBlock where
  uuid : Uuid
  transactions : List TransactionBlock

inductive CanonizationItem where
  | maxMilliseconds (milliseconds : BitVec 64)
  | maxTransactions (transactions : BitVec 64)

inductive Directive where
  | logdir (s : CString)
  | loglevel (n : BitVec 64)
  | datasize (n : BitVec 64)
  | secret (s : CString)
  | rootblock (s : CString)
  | datastore (s : CString)
  | listen (addr : BitVec 32) (port : BitVec 64)
  | chroot (s : CString)
  | usergroup (user group : CString)
  | canonization (items : List CanonizationItem)
  | view (name : CString) (artifacts : List ArtifactBlock)
  | privateKey (path : CString)
  | endorserKey (path : CString)
  | publicKeys (paths : List CString)

/-! ### Parser actions -/

def addOnce {α : Type} (message : String) (old : Option α) (x : α) : Except String (Option α) :=
  if old.isSome then .error message else .ok (some x)

def addNumber (duplicate range : String) (low high : ℤ) (old : Setting) (n : BitVec 64) :
    Except String Setting :=
  if old.isSet then .error duplicate
  else if n.toInt < low ∨ high < n.toInt then .error range
  else .ok ⟨true, n⟩

/-- An entry in front of a list that has none with the same key. -/
def addDistinct {α κ : Type} [DecidableEq κ] (message : String) (key : α → κ) (head : List α)
    (x : α) :
    Except String (List α) :=
  if head.any (fun y => decide (key y = key x)) then .error message else .ok (x :: head)

def crudFlags (crud : List Crud) : BitVec 32 := crud.foldl (fun flags c => flags ||| c.flag) 0

def viewField (f : FieldBlock) : FieldType := ⟨f.uuid, crudFlags f.crud⟩

def viewTransaction (b : TransactionBlock) : Except String TransactionType := do
  let transaction ← b.items.foldlM (fun t item =>
    match item with
    | .artifactCrud crud => .ok { t with artifactCrudFlags := crudFlags crud }
    | .field f => do
      let head ← addDistinct "Duplicate field types." FieldType.fieldCode t.fieldHead (viewField f)
      pure { t with fieldHead := head }) (⟨0, 0, []⟩ : TransactionType)
  pure { transaction with transactionType := b.uuid }

def viewArtifact (b : ArtifactBlock) : Except String ArtifactType := do
  let head ← b.transactions.foldlM (fun head t => do
    let transaction ← viewTransaction t
    addDistinct "Duplicate transaction types." TransactionType.transactionType head transaction) []
  pure ⟨b.uuid, head⟩

def viewBlock (name : CString) (artifacts : List ArtifactBlock) : Except String View := do
  let head ← artifacts.foldlM (fun head a => do
    let artifact ← viewArtifact a
    addDistinct "Duplicate artifact types." ArtifactType.artifactType head artifact) []
  pure ⟨name, head⟩

structure Canonization where
  blockMaxMilliseconds : Setting
  blockMaxTransactions : Setting

def addCanonizationItem (c : Canonization) : CanonizationItem → Except String Canonization
  | .maxMilliseconds n => do
    let s ← addNumber "Duplicate max milliseconds setting." "Invalid milliseconds range." 0
      blockMillisecondsMaximum c.blockMaxMilliseconds n
    pure { c with blockMaxMilliseconds := s }
  | .maxTransactions n => do
    let s ← addNumber "Duplicate max transactions setting." "Invalid transactions range." 0
      blockTransactionsMaximum c.blockMaxTransactions n
    pure { c with blockMaxTransactions := s }

/-- The flag of the block always replaces the one of the configuration. -/
def foldSetting (duplicate : String) (old new : Setting) : Except String Setting :=
  if old.isSet && new.isSet then .error duplicate
  else .ok ⟨new.isSet, if new.isSet then new.value else old.value⟩

def foldCanonization (cfg : AgentConfig) (c : Canonization) : Except String AgentConfig := do
  let milliseconds ← foldSetting "Duplicate canonization max milliseconds settings."
    cfg.blockMaxMilliseconds c.blockMaxMilliseconds
  let transactions ← foldSetting "Duplicate canonization max transactions settings."
    cfg.blockMaxTransactions c.blockMaxTransactions
  pure { cfg with blockMaxMilliseconds := milliseconds, blockMaxTransactions := transactions }

def addDirective (cfg : AgentConfig) : Directive → Except String AgentConfig
  | .logdir s => do
    let x ← addOnce "Duplicate logdir settings." cfg.logdir s
    pure { cfg with logdir := x }
  | .loglevel n => do
    let x ← addNumber "Duplicate loglevel settings." "Bad loglevel range." 0 loglevelMaximum
      cfg.loglevel n
    pure { cfg with loglevel := x }
  | .datasize n => do
    let x ← addNumber "Duplicate max database size settings." "Bad max database size value." 1
      (2 ^ 63 - 1) cfg.databaseMaxSize n
    pure { cfg with databaseMaxSize := x }
  | .secret s => do
    let x ← addOnce "Duplicate secrets set." cfg.secret s
    pure { cfg with secret := x }
  | .rootblock s => do
    let x ← addOnce "Duplicate rootblocks set." cfg.rootblock s
    pure { cfg with rootblock := x }
  | .datastore s => do
    let x ← addOnce "Duplicate datastores set." cfg.datastore s
    pure { cfg with datastore := x }
  | .listen addr port => .ok { cfg with listenHead := ⟨addr, port.setWidth 16⟩ :: cfg.listenHead }
  | .chroot s => do
    let x ← addOnce "Duplicate chroots set." cfg.chroot s
    pure { cfg with chroot := x }
  | .usergroup user group => do
    let x ← addOnce "Duplicate usergroups set." cfg.usergroup ⟨user, group⟩
    pure { cfg with usergroup := x }
  | .canonization items => do
    let c ← items.foldlM addCanonizationItem ⟨unset, unset⟩
    foldCanonization cfg c
  | .view name artifacts => do
    let view ← viewBlock name artifacts
    let head ← addDistinct "Duplicate materialized view names." View.name cfg.viewHead view
    pure { cfg with viewHead := head }
  | .privateKey path => do
    let x ← addOnce "Duplicate private key entry in config." cfg.privateKey path
    pure { cfg with privateKey := x }
  | .endorserKey path => do
    let x ← addOnce "Duplicate endorser key entry in config." cfg.endorserKey path
    pure { cfg with endorserKey := x }
  | .publicKeys paths => .ok { cfg with publicKeyHead := paths.reverse ++ cfg.publicKeyHead }

def parse (ds : List Directive) : Except String AgentConfig := ds.foldlM addDirective newConfig

/-! ### Internet addresses -/

def digit (n : ℕ) : UInt8 := UInt8.ofNat (48 + n)

def dot : UInt8 := 46

def decimal (b : UInt8) : Bytes :=
  let n := b.toNat
  if n < 10 then [digit n]
  else if n < 100 then [digit (n / 10), digit (n % 10)]
  else [digit (n / 100), digit (n / 10 % 10), digit (n % 10)]

/-- One to three decimal digits, up to 255. -/
def parseDecimal (s : Bytes) : Option UInt8 :=
  if s.length = 0 ∨ 3 < s.length ∨ s.any (fun c => c.toNat < 48 || 57 < c.toNat) then none
  else
    let n := s.foldl (fun n c => 10 * n + (c.toNat - 48)) 0
    if 255 < n then none else some (UInt8.ofNat n)

def inetNtop (addr : BitVec 32) : Bytes := [dot].intercalate ((be 4 addr).map decimal)

def inetPton (s : Bytes) : Option (BitVec 32) :=
  match (s.splitOn dot).mapM parseDecimal with
  | some [a, b, c, d] => some (bits 32 [a, b, c, d])
  | _ => none

/-! ### Tags -/

inductive StringField where
  | logdir
  | secret
  | rootblock
  | datastore
  | chroot
  | privateKey
  | endorserKey
  deriving DecidableEq, Repr

namespace StringField

def tag : StringField → BitVec 8
  | logdir => 0x01
  | secret => 0x03
  | rootblock => 0x04
  | datastore => 0x05
  | chroot => 0x07
  | privateKey => 0x0B
  | endorserKey => 0x0D

def get (conf : AgentConfig) : StringField → Option CString
  | logdir => conf.logdir
  | secret => conf.secret
  | rootblock => conf.rootblock
  | datastore => conf.datastore
  | chroot => conf.chroot
  | privateKey => conf.privateKey
  | endorserKey => conf.endorserKey

def set (conf : AgentConfig) (s : CString) : StringField → AgentConfig
  | logdir => { conf with logdir := some s }
  | secret => { conf with secret := some s }
  | rootblock => { conf with rootblock := some s }
  | datastore => { conf with datastore := some s }
  | chroot => { conf with chroot := some s }
  | privateKey => { conf with privateKey := some s }
  | endorserKey => { conf with endorserKey := some s }

end StringField

inductive NumberField where
  | loglevel
  | blockMaxMilliseconds
  | blockMaxTransactions
  deriving DecidableEq, Repr

namespace NumberField

def tag : NumberField → BitVec 8
  | loglevel => 0x02
  | blockMaxMilliseconds => 0x09
  | blockMaxTransactions => 0x0A

def maximum : NumberField → ℤ
  | loglevel => loglevelMaximum
  | blockMaxMilliseconds => blockMillisecondsMaximum
  | blockMaxTransactions => blockTransactionsMaximum

def get (conf : AgentConfig) : NumberField → Setting
  | loglevel => conf.loglevel
  | blockMaxMilliseconds => conf.blockMaxMilliseconds
  | blockMaxTransactions => conf.blockMaxTransactions

def set (conf : AgentConfig) (n : BitVec 64) : NumberField → AgentConfig
  | loglevel => { conf with loglevel := ⟨true, n⟩ }
  | blockMaxMilliseconds => { conf with blockMaxMilliseconds := ⟨true, n⟩ }
  | blockMaxTransactions => { conf with blockMaxTransactions := ⟨true, n⟩ }

end NumberField

def streamTypeBom : BitVec 8 := 0x00

def streamTypeListenAddr : BitVec 8 := 0x06

def streamTypeUsergroup : BitVec 8 := 0x08

def streamTypePublicKey : BitVec 8 := 0x0C

def streamTypeEom : BitVec 8 := 0x80

/-! ### Writing -/

theorem decimal_ascii (b : UInt8) : (0 ∉ decimal b ∧ dot ∉ decimal b) ∧
    parseDecimal (decimal b) = some b := by
  have hall : ∀ n : Fin 256, (0 ∉ decimal (UInt8.ofNat n) ∧ dot ∉ decimal (UInt8.ofNat n)) ∧
      parseDecimal (decimal (UInt8.ofNat n)) = some (UInt8.ofNat n) := by
    decide +kernel
  have hb := hall ⟨b.toNat, b.toNat_lt⟩
  rwa [UInt8.ofNat_toNat] at hb

theorem mem_intercalate {x sep : UInt8} {ls : List Bytes} (h : x ∈ [sep].intercalate ls) :
    x = sep ∨ ∃ l ∈ ls, x ∈ l := by
  induction ls with
  | nil => simp at h
  | cons a ls ih =>
    by_cases hls : ls = []
    · subst hls
      exact Or.inr ⟨a, List.mem_cons_self, by simpa using h⟩
    · rw [List.intercalate_cons_of_ne_nil hls, List.mem_append, List.mem_append] at h
      rcases h with (ha | hsep) | hrest
      · exact Or.inr ⟨a, List.mem_cons_self, ha⟩
      · exact Or.inl (List.mem_singleton.mp hsep)
      · rcases ih hrest with hsep | ⟨l, hl, hx⟩
        · exact Or.inl hsep
        · exact Or.inr ⟨l, List.mem_cons_of_mem a hl, hx⟩

theorem inetNtop_noNul (addr : BitVec 32) : 0 ∉ inetNtop addr := by
  intro hmem
  rcases mem_intercalate hmem with hdot | ⟨l, hl, hzero⟩
  · revert hdot
    decide
  · obtain ⟨b, -, rfl⟩ := List.mem_map.mp hl
    exact (decimal_ascii b).1.1 hzero

def inetNtopString (addr : BitVec 32) : CString := ⟨inetNtop addr, inetNtop_noNul addr⟩

def configWriteString (conf : AgentConfig) (f : StringField) : List Value :=
  match f.get conf with
  | none => []
  | some s => [.uint8 f.tag, .string s]

def configWriteNumber (conf : AgentConfig) (f : NumberField) : List Value :=
  if (f.get conf).isSet then [.uint8 f.tag, .int64 (f.get conf).value] else []

section Write

variable (conf : AgentConfig)

def configWriteLogdir : List Value := configWriteString conf .logdir

def configWriteLoglevel : List Value := configWriteNumber conf .loglevel

def configWriteBlockMaxMilliseconds : List Value := configWriteNumber conf .blockMaxMilliseconds

def configWriteBlockMaxTransactions : List Value := configWriteNumber conf .blockMaxTransactions

def configWriteSecret : List Value := configWriteString conf .secret

def configWriteRootblock : List Value := configWriteString conf .rootblock

def configWriteDatastore : List Value := configWriteString conf .datastore

def configWriteListenAddr : List Value :=
  conf.listenHead.flatMap fun l =>
    [.uint8 streamTypeListenAddr, .string (inetNtopString l.addr), .uint64 (l.port.setWidth 64)]

def configWriteChroot : List Value := configWriteString conf .chroot

def configWriteUsergroup : List Value :=
  match conf.usergroup with
  | none => []
  | some u => [.uint8 streamTypeUsergroup, .string u.user, .string u.group]

def configWritePrivateKey : List Value := configWriteString conf .privateKey

def configWriteEndorserKey : List Value := configWriteString conf .endorserKey

def configWritePublicKey : List Value :=
  conf.publicKeyHead.flatMap fun path => [.uint8 streamTypePublicKey, .string path]

def configValues : List Value :=
  .uint8 streamTypeBom :: (configWriteLogdir conf ++ configWriteLoglevel conf ++
    configWriteBlockMaxMilliseconds conf ++ configWriteBlockMaxTransactions conf ++
    configWriteSecret conf ++ configWriteRootblock conf ++ configWriteDatastore conf ++
    configWriteListenAddr conf ++ configWriteChroot conf ++ configWriteUsergroup conf ++
    configWritePrivateKey conf ++ configWriteEndorserKey conf ++ configWritePublicKey conf ++
    [.uint8 streamTypeEom])

inductive ConfigError where
  | ipcReadDataFailure
  | ipcWriteDataFailure
  | invalidStream
  | inetPtonFailure
  deriving DecidableEq, Repr

/-- It ends at the first value that cannot be written. -/
def configWriteBlock (write : Bytes → Value → Except IpcPackets.IpcError Unit × Bytes)
    (out : Bytes) :
    Except ConfigError Unit × Bytes :=
  match writeAll write out (configValues conf) with
  | (.error _, out) => (.error .ipcWriteDataFailure, out)
  | (.ok (), out) => (.ok (), out)

end Write

/-! ### Reading -/

/-- The string in a buffer ends before its first zero. -/
def CString.ofBuffer (b : Bytes) : CString where
  bytes := b.takeWhile (· != 0)
  noNul hmem := by simpa using List.mem_takeWhile_imp hmem

def readString (frags : List Bytes) : Except ConfigError CString × List Bytes :=
  match ipcReadStringBlock false frags with
  | (.error _, frags) => (.error .ipcReadDataFailure, frags)
  | (.ok b, frags) => (.ok (CString.ofBuffer b), frags)

section Read

variable (conf : AgentConfig) (frags : List Bytes)

def configReadString (f : StringField) : Except ConfigError AgentConfig × List Bytes :=
  if (f.get conf).isSome then (.error .invalidStream, frags)
  else
    match readString frags with
    | (.error e, frags) => (.error e, frags)
    | (.ok s, frags) => (.ok (f.set conf s), frags)

/-- The value is in the configuration before its range is tested, but not its flag. -/
def configReadNumber (f : NumberField) : Except ConfigError AgentConfig × List Bytes :=
  if (f.get conf).isSet then (.error .invalidStream, frags)
  else
    match ipcReadInt64Block frags with
    | (.error _, frags) => (.error .ipcReadDataFailure, frags)
    | (.ok n, frags) =>
      if n.toInt < 0 ∨ f.maximum < n.toInt then (.error .invalidStream, frags)
      else (.ok (f.set conf n), frags)

def configReadUsergroup : Except ConfigError AgentConfig × List Bytes :=
  if conf.usergroup.isSome then (.error .invalidStream, frags)
  else
    match readString frags with
    | (.error e, frags) => (.error e, frags)
    | (.ok user, frags) =>
      match readString frags with
      | (.error e, frags) => (.error e, frags)
      | (.ok group, frags) => (.ok { conf with usergroup := some ⟨user, group⟩ }, frags)

/-- The port is cut to 16 bits. -/
def configReadListenAddr : Except ConfigError AgentConfig × List Bytes :=
  match readString frags with
  | (.error e, frags) => (.error e, frags)
  | (.ok s, frags) =>
    match inetPton s.bytes with
    | none => (.error .inetPtonFailure, frags)
    | some addr =>
      match ipcReadUint64Block frags with
      | (.error _, frags) => (.error .ipcReadDataFailure, frags)
      | (.ok port, frags) =>
        (.ok { conf with listenHead := ⟨addr, port.setWidth 16⟩ :: conf.listenHead }, frags)

def configReadPublicKey : Except ConfigError AgentConfig × List Bytes :=
  match readString frags with
  | (.error e, frags) => (.error e, frags)
  | (.ok s, frags) => (.ok { conf with publicKeyHead := s :: conf.publicKeyHead }, frags)

def configReadField (tag : BitVec 8) : Except ConfigError AgentConfig × List Bytes :=
  if tag = StringField.logdir.tag then configReadString conf frags .logdir
  else if tag = NumberField.loglevel.tag then configReadNumber conf frags .loglevel
  else if tag = StringField.secret.tag then configReadString conf frags .secret
  else if tag = StringField.rootblock.tag then configReadString conf frags .rootblock
  else if tag = StringField.datastore.tag then configReadString conf frags .datastore
  else if tag = streamTypeListenAddr then configReadListenAddr conf frags
  else if tag = StringField.chroot.tag then configReadString conf frags .chroot
  else if tag = streamTypeUsergroup then configReadUsergroup conf frags
  else if tag = NumberField.blockMaxMilliseconds.tag then
    configReadNumber conf frags .blockMaxMilliseconds
  else if tag = NumberField.blockMaxTransactions.tag then
    configReadNumber conf frags .blockMaxTransactions
  else if tag = StringField.privateKey.tag then configReadString conf frags .privateKey
  else if tag = StringField.endorserKey.tag then configReadString conf frags .endorserKey
  else if tag = streamTypePublicKey then configReadPublicKey conf frags
  else (.error .invalidStream, frags)

end Read

/-- At most so many fields; `none` when there may be more. -/
def configReadFields : ℕ → AgentConfig → List Bytes →
    Option (Except ConfigError AgentConfig × List Bytes)
  | 0, _, _ => none
  | n + 1, conf, frags =>
    match ipcReadUint8Block frags with
    | (.error _, frags) => some (.error .invalidStream, frags)
    | (.ok tag, frags) =>
      if tag = streamTypeEom then some (.ok conf, frags)
      else
        match configReadField conf frags tag with
        | (.error e, frags) => some (.error e, frags)
        | (.ok conf, frags) => configReadFields n conf frags

def configReadBlock (n : ℕ) (frags : List Bytes) :
    Option (Except ConfigError AgentConfig × List Bytes) :=
  match ipcReadUint8Block frags with
  | (.error _, frags) => some (.error .ipcReadDataFailure, frags)
  | (.ok tag, frags) =>
    if tag ≠ streamTypeBom then some (.error .invalidStream, frags)
    else configReadFields n newConfig frags

end ConfigBlock
