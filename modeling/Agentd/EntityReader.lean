import Agentd.ConfigBlock

/-! # Loading the public entities

The supervisor sends the names of certificate files to a process without privileges. The process
parses the certificates and answers with one entity for each of them; the supervisor reads these. -/
namespace EntityReader

open ByteString
open DataserviceRecords (Uuid)
open TypedIpc
open ConfigBlock

structure Capability where
  subject : Uuid
  verb : Uuid
  object : Uuid
  deriving DecidableEq

/-- `config_public_entity_node_t`. -/
structure PublicEntity where
  id : Uuid
  capHead : List Capability
  encPubkey : Bytes
  signPubkey : Bytes
  deriving DecidableEq

/-! ### Buffers -/

/-- What a local variable points to; `none` when it has not been set. -/
abbrev Pointer := Option ℕ

/-- Allocations are numbered; those that hold data of the stream are buffers. -/
structure Heap where
  allocs : ℕ
  buffers : List ℕ
  released : List Pointer
  deriving DecidableEq

namespace Heap

def empty : Heap := ⟨0, [], []⟩

def alloc (h : Heap) : Heap := { h with allocs := h.allocs + 1 }

def allocBuffer (h : Heap) : Heap := ⟨h.allocs + 1, h.buffers ++ [h.allocs], h.released⟩

def free (h : Heap) (ps : List Pointer) : Heap := { h with released := h.released ++ ps }

end Heap

inductive ReaderError where
  | ipc (e : ReadError)
  | readerInvalidStream
  | configInvalidStream
  | outOfMemory
  | bufferInit
  deriving DecidableEq, Repr

/-! ### The supervisor -/

section Supervisor

variable (fails : ℕ → Bool)

def readData (frags : List Bytes) (h : Heap) : Except ReadError (Bytes × ℕ) × List Bytes × Heap :=
  match ipcReadDataBlock (fails h.allocs) frags with
  | (.error e, frags) => (.error e, frags, h.alloc)
  | (.ok b, frags) => (.ok (b, h.allocs), frags, h.allocBuffer)

/-- The local variables of `config_entity_read_capabilities`. -/
structure Locals where
  subjectId : Pointer
  verbId : Pointer
  objectId : Pointer

/-- How a turn of the loop ends: the loop is left, or goes on with one more capability. -/
inductive Turn where
  | stopped (result : Except ReaderError Unit)
  | next (cap : Capability) (l : Locals)

/-- One turn of the loop. A field of a wrong size ends the loop without an error. -/
def readCapability (frags : List Bytes) (h : Heap) : Turn × List Bytes × Heap :=
  match ipcReadUint8Block frags with
  | (.error e, frags) => (.stopped (.error (.ipc e)), frags, h)
  | (.ok type, frags) =>
    if type ≠ streamTypeBom then (.stopped (.error .readerInvalidStream), frags, h)
    else
      match readData fails frags h with
      | (.error e, frags, h) => (.stopped (.error (.ipc e)), frags, h)
      | (.ok (subject, p), frags, h) =>
        if subject.length ≠ 16 then (.stopped (.ok ()), frags, h.free [some p])
        else
          match readData fails frags h with
          | (.error e, frags, h) => (.stopped (.error (.ipc e)), frags, h.free [some p])
          | (.ok (verb, q), frags, h) =>
            if verb.length ≠ 16 then (.stopped (.ok ()), frags, h.free [some q, some p])
            else
              match readData fails frags h with
              | (.error e, frags, h) =>
                (.stopped (.error (.ipc e)), frags, h.free [some q, some p])
              | (.ok (object, r), frags, h) =>
                if object.length ≠ 16 then
                  (.stopped (.ok ()), frags, h.free [some r, some q, some p])
                else
                  match ipcReadUint8Block frags with
                  | (.error e, frags) =>
                    (.stopped (.error (.ipc e)), frags, h.free [some r, some q, some p])
                  | (.ok type, frags) =>
                    if type ≠ streamTypeEom then
                      (.stopped (.error .readerInvalidStream), frags,
                        h.free [some r, some q, some p])
                    else if fails h.allocs then
                      (.stopped (.error .outOfMemory), frags,
                        h.alloc.free [some r, some q, some p])
                    else
                      (.next ⟨bits 128 subject, bits 128 verb, bits 128 object⟩
                        ⟨some p, some q, some r⟩, frags, h.alloc)

/-- The loop over so many capabilities. Behind it the last fields are released. -/
def readCapabilities : ℕ → Locals → List Capability → List Bytes → Heap →
    Except ReaderError Unit × List Capability × List Bytes × Heap
  | 0, l, caps, frags, h => (.ok (), caps, frags, h.free [l.objectId, l.verbId, l.subjectId])
  | count + 1, _, caps, frags, h =>
    match readCapability fails frags h with
    | (.stopped result, frags, h) => (result, caps, frags, h)
    | (.next cap l, frags, h) => readCapabilities count l (cap :: caps) frags h

def configEntityReadCapabilities (caps : List Capability) (frags : List Bytes) (h : Heap) :
    Except ReaderError Unit × List Capability × List Bytes × Heap :=
  match ipcReadUint64Block frags with
  | (.error e, frags) => (.error (.ipc e), caps, frags, h)
  | (.ok count, frags) => readCapabilities fails count.toNat ⟨none, none, none⟩ caps frags h

def releasing {α : Type} (p : ℕ) (x : α × List Bytes × Heap) : α × List Bytes × Heap :=
  (x.1, x.2.1, x.2.2.free [some p])

def finishEntity (uuid enc sign : Bytes) (caps : List Capability) (frags : List Bytes) (h : Heap) :
    Except ReaderError PublicEntity × List Bytes × Heap :=
  match ipcReadUint8Block frags with
  | (.error e, frags) => (.error (.ipc e), frags, h)
  | (.ok type, frags) =>
    if type ≠ streamTypeEom then (.error .readerInvalidStream, frags, h)
    else if 16 ≠ uuid.length then (.error .configInvalidStream, frags, h)
    else if fails h.allocs then (.error .outOfMemory, frags, h.alloc)
    else if fails (h.allocs + 1) then (.error .bufferInit, frags, h.alloc.alloc)
    else if fails (h.allocs + 2) then (.error .bufferInit, frags, h.alloc.alloc.alloc)
    else (.ok ⟨bits 128 uuid, caps, enc, sign⟩, frags, h.alloc.alloc.alloc)

/-- The capabilities are there if there is an endorser, except for the endorser itself. -/
def readCapsAndFinish (withCaps : Bool) (uuid enc sign : Bytes) (frags : List Bytes) (h : Heap) :
    Except ReaderError PublicEntity × List Bytes × Heap :=
  if withCaps then
    match configEntityReadCapabilities fails [] frags h with
    | (.error e, _, frags, h) => (.error e, frags, h)
    | (.ok (), caps, frags, h) => finishEntity fails uuid enc sign caps frags h
  else finishEntity fails uuid enc sign [] frags h

def configEntityRead (withCaps : Bool) (frags : List Bytes) (h : Heap) :
    Except ReaderError PublicEntity × List Bytes × Heap :=
  match ipcReadUint8Block frags with
  | (.error e, frags) => (.error (.ipc e), frags, h)
  | (.ok type, frags) =>
    if type ≠ streamTypeBom then (.error .readerInvalidStream, frags, h)
    else
      match readData fails frags h with
      | (.error e, frags, h) => (.error (.ipc e), frags, h)
      | (.ok (uuid, p), frags, h) => releasing p <|
        match readData fails frags h with
        | (.error e, frags, h) => (.error (.ipc e), frags, h)
        | (.ok (enc, q), frags, h) => releasing q <|
          match readData fails frags h with
          | (.error e, frags, h) => (.error (.ipc e), frags, h)
          | (.ok (sign, r), frags, h) => releasing r <|
            readCapsAndFinish fails withCaps uuid enc sign frags h

def readEntities (withCaps : Bool) : List CString → List PublicEntity → List Bytes → Heap →
    Except ReaderError (List PublicEntity) × List Bytes × Heap
  | [], entities, frags, h => (.ok entities, frags, h)
  | _ :: files, entities, frags, h =>
    match configEntityRead fails withCaps frags h with
    | (.error e, frags, h) => (.error e, frags, h)
    | (.ok entry, frags, h) => readEntities withCaps files (entry :: entities) frags h

structure Loaded where
  endorser : Option PublicEntity
  entities : List PublicEntity
  deriving DecidableEq

def configReadPublicEntities (conf : AgentConfig) (frags : List Bytes) (h : Heap) :
    Except ReaderError Loaded × List Bytes × Heap :=
  match conf.endorserKey with
  | none => mapResult (Loaded.mk none) (readEntities fails false conf.publicKeyHead [] frags h)
  | some _ =>
    match configEntityRead fails false frags h with
    | (.error e, frags, h) => (.error e, frags, h)
    | (.ok entry, frags, h) =>
      mapResult (Loaded.mk (some entry)) (readEntities fails true conf.publicKeyHead [] frags h)

end Supervisor

def sentValues (conf : AgentConfig) : List Value :=
  .uint8 (if conf.endorserKey.isSome then 1 else 0) ::
    ((conf.endorserKey.toList ++ conf.publicKeyHead).map Value.string ++ [.uint8 streamTypeEom])

/-! ### Certificates -/

inductive CertFieldType where
  | artifactId
  | publicEncryptionKey
  | publicSigningKey
  | veloEndorsement
  | other (code : BitVec 16)
  deriving DecidableEq

/-- What attestation asks for: the keys of an entity. -/
abbrev EntityKeyResolver := Uuid → Option (Bytes × Bytes)

/-- The files and the certificate parser: the fields of a certificate in their order, and whether it
can be attested with a key resolver. Every field takes bytes of the file. -/
structure Certificates where
  file : CString → Option Bytes
  fields : Bytes → Option (List (CertFieldType × Bytes))
  attest : EntityKeyResolver → Bytes → Bool
  encPublicKeySize : ℕ
  signPublicKeySize : ℕ
  fields_lt : ∀ {cert fs}, fields cert = some fs → fs.length < 2 ^ 64
  encPublicKeySize_lt : encPublicKeySize < 2 ^ 32
  signPublicKeySize_lt : signPublicKeySize < 2 ^ 32

/-- The fields of a type, as they are found one after the other. -/
def findAll (t : CertFieldType) (fs : List (CertFieldType × Bytes)) : List Bytes :=
  (fs.filter fun f => decide (f.1 = t)).map Prod.snd

def findShort (t : CertFieldType) (fs : List (CertFieldType × Bytes)) : Option Bytes :=
  (findAll t fs).head?

/-! ### The process -/

structure Endorser where
  id : Uuid
  cipherKey : Bytes
  signingKey : Bytes
  deriving DecidableEq

/-- The parser callback context: the endorser, when it is set. -/
abbrev Context := Option Endorser

def endorserKeyResolver (ctx : Context) : EntityKeyResolver := fun entityId =>
  match ctx with
  | none => none
  | some e => if entityId ≠ e.id then none else some (e.cipherKey, e.signingKey)

/-- A size is cut to 32 bits. -/
def dataValue (b : Bytes) : Value :=
  .dataPacket ⟨b.take (b.length % 2 ^ 32), by
    have hlt := Nat.mod_lt b.length (show 0 < 2 ^ 32 by decide)
    rw [List.length_take]
    omega⟩

def countFields : List Bytes → BitVec 64 → BitVec 64
  | [], count => count
  | _ :: bufs, count => countFields bufs (count + 1)

def entityGetCapabilitiesCount (fs : List (CertFieldType × Bytes)) : BitVec 64 :=
  countFields (findAll .veloEndorsement fs) 0

def capabilityValues (endorsebuf : Bytes) : List Value :=
  [.uint8 streamTypeBom, dataValue (endorsebuf.take 16), dataValue (slice endorsebuf 16 16),
    dataValue (slice endorsebuf 32 16), .uint8 streamTypeEom]

/-- So many capabilities from the fields that are found, and whether that was right. -/
def writeCapabilities : ℕ → Bytes → List Bytes → List Value × Bool
  | 0, _, _ => ([], true)
  | count + 1, endorsebuf, found =>
    match found with
    | [] => (capabilityValues endorsebuf, count == 0)
    | next :: found =>
      if next.length < 48 then (capabilityValues endorsebuf, false)
      else
        let rest := writeCapabilities count next found
        (capabilityValues endorsebuf ++ rest.1, rest.2)

/-- What is written for a certificate that has its three fields, and whether the process goes on. -/
def writeEntity (ctx : Context) (isEndorser : Bool) (fs : List (CertFieldType × Bytes))
    (artifactId encPubkey signPubkey : Bytes) : List Value × Bool :=
  let header := [.uint8 streamTypeBom, dataValue artifactId, dataValue encPubkey,
    dataValue signPubkey]
  if ctx.isSome && !isEndorser then
    let count := entityGetCapabilitiesCount fs
    match findAll .veloEndorsement fs with
    | [] =>
      if count ≠ 0 then (header ++ [.uint64 count], false)
      else (header ++ [.uint64 count, .uint8 streamTypeEom], true)
    | endorsebuf :: found =>
      if endorsebuf.length < 48 then (header ++ [.uint64 count], false)
      else
        let caps := writeCapabilities count.toNat endorsebuf found
        if caps.2 then
          (header ++ [.uint64 count] ++ caps.1 ++ [.uint8 streamTypeEom], true)
        else (header ++ [.uint64 count] ++ caps.1, false)
  else (header ++ [.uint8 streamTypeEom], true)

section Process

variable (certs : Certificates)

/-- What is written for a file; with the context to go on with, if there was no error. -/
def readPublicEntity (ctx : Context) (filename : CString) (isEndorser : Bool) :
    List Value × Option Context :=
  match certs.file filename with
  | none => ([], none)
  | some cert =>
    match certs.fields cert with
    | none => ([], none)
    | some fs =>
      if ctx.isSome && !certs.attest (endorserKeyResolver ctx) cert then ([], none)
      else
        match findShort .artifactId fs with
        | none => ([], none)
        | some artifactId =>
          if artifactId.length ≠ 16 then ([], none)
          else
            match findShort .publicEncryptionKey fs with
            | none => ([], none)
            | some encPubkey =>
              if encPubkey.length ≠ certs.encPublicKeySize then ([], none)
              else
                match findShort .publicSigningKey fs with
                | none => ([], none)
                | some signPubkey =>
                  if signPubkey.length ≠ certs.signPublicKeySize then ([], none)
                  else
                    let ctx := if isEndorser then
                      some ⟨bits 128 artifactId, encPubkey, signPubkey⟩ else ctx
                    let (values, ok) :=
                      writeEntity ctx isEndorser fs artifactId encPubkey signPubkey
                    (values, if ok then some ctx else none)

/-- The files named on the control socket, as far as the first that cannot be read. -/
def readFiles : ℕ → Context → Bool → List Bytes → List Value
  | 0, _, _, _ => []
  | n + 1, ctx, isEndorser, frags =>
    match ipcReadStringBlock false frags with
    | (.error _, _) => []
    | (.ok filename, frags) =>
      match readPublicEntity certs ctx (CString.ofBuffer filename) isEndorser with
      | (values, none) => values
      | (values, some ctx) => values ++ readFiles n ctx false frags

def readPublicEntities (frags : List Bytes) : List Value :=
  match ipcReadUint8Block frags with
  | (.error _, _) => []
  | (.ok isEndorser, frags) =>
    readFiles certs (frags.flatten.length + 1) none (decide (isEndorser ≠ 0)) frags

end Process

def onSocket (vs : List Value) : Bytes := (writeAll (writeBlock none) [] vs).2

structure Conversation (certs : Certificates) (conf : AgentConfig) (control frags : List Bytes) :
    Prop where
  sent : control.flatten <+: onSocket (sentValues conf)
  answered : frags.flatten <+: onSocket (readPublicEntities certs control)

end EntityReader
