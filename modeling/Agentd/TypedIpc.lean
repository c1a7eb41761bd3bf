import Agentd.FragmentedStreams
import Agentd.IpcPackets

/-! # Typed values on a socket

Strings, data blocks and integers of 8 and 64 bits, each with a writer and a reader for a socket
that blocks and for one that does not. A value is its type, its size where it has one, and its
bytes. -/
namespace TypedIpc

open ByteString
open DataserviceRequests
open IpcPackets
open FragmentedStreams

inductive IpcType where
  | int64
  | uint64
  | int8
  | uint8
  | string
  | dataPacket
  deriving DecidableEq, Repr

def IpcType.code : IpcType → BitVec 32
  | int64 => 0x10
  | uint64 => 0x11
  | int8 => 0x16
  | uint8 => 0x17
  | string => 0x20
  | dataPacket => 0x22

/-! ### Numbers in memory -/

/-- The bytes of a number in memory, the low one first. -/
def hostBytes (n : ℕ) {w : ℕ} (v : BitVec w) : Bytes := (be n v).reverse

def htonl (v : BitVec 32) : BitVec 32 := bits 32 (be 4 v).reverse

def htonll (v : BitVec 64) : BitVec 64 := bits 64 (be 8 v).reverse

@[simp] theorem hostBytes_htonl (v : BitVec 32) : hostBytes 4 (htonl v) = be 4 v := by
  rw [hostBytes, htonl, be_bits (by decide) (by simp), List.reverse_reverse]

@[simp] theorem hostBytes_htonll (v : BitVec 64) : hostBytes 8 (htonll v) = be 8 v := by
  rw [hostBytes, htonll, be_bits (by decide) (by simp), List.reverse_reverse]

@[simp] theorem hostBytes_byte (v : BitVec 8) : hostBytes 1 v = be 1 v := rfl

/-! ### Values -/

structure CString where
  bytes : Bytes
  noNul : 0 ∉ bytes
  deriving DecidableEq

/-- A data block has a size of 32 bits. -/
structure DataBlock where
  bytes : Bytes
  size_lt : bytes.length < 2 ^ 32

inductive Value where
  | int64 (v : BitVec 64)
  | uint64 (v : BitVec 64)
  | int8 (v : BitVec 8)
  | uint8 (v : BitVec 8)
  | string (s : CString)
  | dataPacket (d : DataBlock)

/-- What a reader returns; a string or a data block is a buffer with its size. -/
inductive Result where
  | int64 (v : BitVec 64)
  | uint64 (v : BitVec 64)
  | int8 (v : BitVec 8)
  | uint8 (v : BitVec 8)
  | string (b : Bytes)
  | dataPacket (b : Bytes)
  deriving DecidableEq

namespace Value

def type : Value → IpcType
  | int64 _ => .int64
  | uint64 _ => .uint64
  | int8 _ => .int8
  | uint8 _ => .uint8
  | string _ => .string
  | dataPacket _ => .dataPacket

def result : Value → Result
  | int64 v => .int64 v
  | uint64 v => .uint64 v
  | int8 v => .int8 v
  | uint8 v => .uint8 v
  | string s => .string s.bytes
  | dataPacket d => .dataPacket d.bytes

end Value

/-! ### Writers that block -/

/-- The fields are written one after the other to a socket that takes all of them, or only so many
bytes. -/
def writeFields (accepted : Option ℕ) (out : Bytes) (fields : List Bytes) :
    Except IpcError Unit × Bytes :=
  match accepted with
  | none => (.ok (), out ++ fields.flatten)
  | some size =>
    if size < fields.flatten.length then (.error .writeBlockFailure,
      out ++ fields.flatten.take size)
    else (.ok (), out ++ fields.flatten)

section WriteBlock

variable (accepted : Option ℕ) (out : Bytes)

def ipcWriteInt64Block (val : BitVec 64) : Except IpcError Unit × Bytes :=
  writeFields accepted out [hostBytes 4 (htonl IpcType.int64.code), hostBytes 8 (htonll val)]

def ipcWriteUint64Block (val : BitVec 64) : Except IpcError Unit × Bytes :=
  writeFields accepted out [hostBytes 4 (htonl IpcType.uint64.code), hostBytes 8 (htonll val)]

def ipcWriteInt8Block (val : BitVec 8) : Except IpcError Unit × Bytes :=
  writeFields accepted out [hostBytes 4 (htonl IpcType.int8.code), hostBytes 1 val]

def ipcWriteUint8Block (val : BitVec 8) : Except IpcError Unit × Bytes :=
  writeFields accepted out [hostBytes 4 (htonl IpcType.uint8.code), hostBytes 1 val]

/-- The length is cut to 32 bits. -/
def ipcWriteStringBlock (val : CString) : Except IpcError Unit × Bytes :=
  let len := BitVec.ofNat 32 val.bytes.length
  writeFields accepted out [hostBytes 4 (htonl IpcType.string.code), hostBytes 4 (htonl len),
    val.bytes.take len.toNat]

def writeBlock : Value → Except IpcError Unit × Bytes
  | .int64 v => ipcWriteInt64Block accepted out v
  | .uint64 v => ipcWriteUint64Block accepted out v
  | .int8 v => ipcWriteInt8Block accepted out v
  | .uint8 v => ipcWriteUint8Block accepted out v
  | .string s => ipcWriteStringBlock accepted out s
  | .dataPacket d => ipcWriteDataBlock (accepted.getD (packet d.bytes).length) out d.bytes

end WriteBlock

/-! ### Writers that do not block -/

def addFailure : WriteStep → IpcError
  | .typeAdd => .writeBufferTypeAddFailure
  | .sizeAdd => .writeBufferSizeAddFailure
  | .payloadAdd => .writeBufferPayloadAddFailure
  | .socket => .writeNonblockFailure

def addFields (fails : Option WriteStep) (out : Bytes) :
    List (WriteStep × Bytes) → Except IpcError Unit × Bytes
  | [] => (.ok (), out)
  | (step, b) :: rest =>
    if fails = some step then (.error (addFailure step), out) else addFields fails (out ++ b) rest

section WriteNoblock

variable (fails : Option WriteStep) (out : Bytes)

def ipcWriteInt64Noblock (val : BitVec 64) : Except IpcError Unit × Bytes :=
  addFields fails out [(.typeAdd, hostBytes 4 (htonl IpcType.int64.code)),
    (.payloadAdd, hostBytes 8 (htonll val))]

def ipcWriteUint64Noblock (val : BitVec 64) : Except IpcError Unit × Bytes :=
  addFields fails out [(.typeAdd, hostBytes 4 (htonl IpcType.uint64.code)),
    (.payloadAdd, hostBytes 8 (htonll val))]

/-- The type is not brought into network order, and the byte is taken from a value of 64 bits that
was. -/
def ipcWriteInt8Noblock (val : BitVec 8) : Except IpcError Unit × Bytes :=
  let oval : BitVec 8 := (htonll (val.signExtend 64)).setWidth 8
  addFields fails out [(.typeAdd, hostBytes 4 IpcType.int8.code), (.payloadAdd, hostBytes 1 oval)]

def ipcWriteUint8Noblock (val : BitVec 8) : Except IpcError Unit × Bytes :=
  let oval : BitVec 8 := (htonll (val.setWidth 64)).setWidth 8
  addFields fails out [(.typeAdd, hostBytes 4 (htonl IpcType.uint8.code)),
    (.payloadAdd, hostBytes 1 oval)]

def ipcWriteStringNoblock (val : CString) : Except IpcError Unit × Bytes :=
  let size := BitVec.ofNat 32 val.bytes.length
  addFields fails out [(.typeAdd, hostBytes 4 (htonl IpcType.string.code)),
    (.sizeAdd, hostBytes 4 (htonl size)), (.payloadAdd, val.bytes.take size.toNat)]

def writeNoblock : Value → Except IpcError Unit × Bytes
  | .int64 v => ipcWriteInt64Noblock fails out v
  | .uint64 v => ipcWriteUint64Noblock fails out v
  | .int8 v => ipcWriteInt8Noblock fails out v
  | .uint8 v => ipcWriteUint8Noblock fails out v
  | .string s => ipcWriteStringNoblock fails out s
  | .dataPacket d => ipcWriteDataNoblock fails out d.bytes

end WriteNoblock

/-! ### Readers that block -/

inductive ReadError where
  | readBlockFailure
  | readUnexpectedDataType
  | readUnexpectedDataSize
  | outOfMemory
  deriving DecidableEq, Repr

/-- One `read`, which may get less than it asked for. -/
def readField (n : ℕ) (frags : List Bytes) : Except ReadError Bytes × List Bytes :=
  if (readFront n frags).1.length = n then (.ok (readFront n frags).1, (readFront n frags).2)
  else (.error .readBlockFailure, (readFront n frags).2)

def readTyped {γ : Type} (t : IpcType) (body : List Bytes → Except ReadError γ × List Bytes)
    (frags : List Bytes) : Except ReadError γ × List Bytes :=
  match readField 4 frags with
  | (.error e, frags) => (.error e, frags)
  | (.ok type, frags) =>
    if bits 32 type = t.code then body frags else (.error .readUnexpectedDataType, frags)

def readSized (sizeOk : ℕ → Bool) (mallocFails : Bool) (frags : List Bytes) :
    Except ReadError Bytes × List Bytes :=
  match readField 4 frags with
  | (.error e, frags) => (.error e, frags)
  | (.ok nsize, frags) =>
    let size := (bits 32 nsize).toNat
    if ¬ sizeOk size then (.error .readUnexpectedDataSize, frags)
    else if mallocFails then (.error .outOfMemory, frags)
    else readField size frags

def mapResult {δ γ η ζ : Type} (f : γ → δ) (x : Except η γ × ζ) : Except η δ × ζ :=
  (x.1.map f, x.2)

def ipcReadInt64Block (frags : List Bytes) : Except ReadError (BitVec 64) × List Bytes :=
  mapResult (bits 64) (readTyped .int64 (readField 8) frags)

def ipcReadUint64Block (frags : List Bytes) : Except ReadError (BitVec 64) × List Bytes :=
  mapResult (bits 64) (readTyped .uint64 (readField 8) frags)

def ipcReadInt8Block (frags : List Bytes) : Except ReadError (BitVec 8) × List Bytes :=
  mapResult (bits 8) (readTyped .int8 (readField 1) frags)

def ipcReadUint8Block (frags : List Bytes) : Except ReadError (BitVec 8) × List Bytes :=
  mapResult (bits 8) (readTyped .uint8 (readField 1) frags)

def maxStringSize : ℕ := 10 * 1024 * 1024

def ipcReadStringBlock (mallocFails : Bool) (frags : List Bytes) :
    Except ReadError Bytes × List Bytes :=
  readTyped .string (readSized (· ≤ maxStringSize) mallocFails) frags

def ipcReadDataBlock (mallocFails : Bool) (frags : List Bytes) :
    Except ReadError Bytes × List Bytes :=
  readTyped .dataPacket (readSized (fun _ => true) mallocFails) frags

def readBlock (frags : List Bytes) : IpcType → Except ReadError Result × List Bytes
  | .int64 => mapResult .int64 (ipcReadInt64Block frags)
  | .uint64 => mapResult .uint64 (ipcReadUint64Block frags)
  | .int8 => mapResult .int8 (ipcReadInt8Block frags)
  | .uint8 => mapResult .uint8 (ipcReadUint8Block frags)
  | .string => mapResult .string (ipcReadStringBlock false frags)
  | .dataPacket => mapResult .dataPacket (ipcReadDataBlock false frags)

/-! ### Readers that do not block -/

def takeInteger (typeOk : BitVec 32 → Bool) (size : ℕ) (c : ReadCall) (buf : Bytes) :
    Except IpcError Bytes × Bytes :=
  if buf.length < 4 then (.error .wouldBlock, buf)
  else if ¬ typeOk (bits 32 (buf.take 4)) then (.error .readUnexpectedDataType, buf)
  else if buf.length < size + 4 then (.error .wouldBlock, buf)
  else if c.drainFails then (.error .readBufferDrainFailure, buf)
  else if c.removeFails then (.error .readBufferRemoveFailure, buf.drop 4)
  else (.ok (slice buf 4 size), buf.drop (4 + size))

/-- A socket that would block is a failure here, and the end of the stream is not. -/
def readInteger (typeOk : BitVec 32 → Bool) (size : ℕ) (c : ReadCall) (buf : Bytes) :
    Except IpcError Bytes × Bytes :=
  match c.read with
  | .wouldBlock => (.error .evbufferReadFailure, buf)
  | .failed => (.error .evbufferReadFailure, buf)
  | .eof => takeInteger typeOk size c buf
  | .data chunk => takeInteger typeOk size c (buf ++ chunk)

def ipcReadInt64Noblock (c : ReadCall) (buf : Bytes) : Except IpcError (BitVec 64) × Bytes :=
  mapResult (bits 64) (readInteger (· == IpcType.int64.code) 8 c buf)

def ipcReadUint64Noblock (c : ReadCall) (buf : Bytes) : Except IpcError (BitVec 64) × Bytes :=
  mapResult (bits 64) (readInteger (· == IpcType.uint64.code) 8 c buf)

/-- The type is not looked at. -/
def ipcReadInt8Noblock (c : ReadCall) (buf : Bytes) : Except IpcError (BitVec 8) × Bytes :=
  mapResult (bits 8) (readInteger (fun _ => true) 1 c buf)

def ipcReadUint8Noblock (c : ReadCall) (buf : Bytes) : Except IpcError (BitVec 8) × Bytes :=
  mapResult (bits 8) (readInteger (· == IpcType.uint8.code) 1 c buf)

def evbufferDrain (fails : Bool) (n : ℕ) (buf : Bytes) : ℤ × Bytes :=
  if fails then (-1, buf) else (0, buf.drop n)

/-- It does not read from the socket. What the drain returns is compared with the size of the
header. -/
def ipcReadStringNoblock (c : ReadCall) (buf : Bytes) : Except IpcError Bytes × Bytes :=
  if buf.length < headerSize then (.error .wouldBlock, buf)
  else if bits 32 (buf.take 4) ≠ IpcType.string.code then (.error .readUnexpectedDataType, buf)
  else if packetSize buf = 0 ∨ maxPayload ≤ packetSize buf then
    (.error .readUnexpectedDataSize, buf)
  else if buf.length < packetSize buf + headerSize then (.error .wouldBlock, buf)
  else if c.mallocFails then (.error .outOfMemory, buf)
  else
    let (drained, rest) := evbufferDrain c.drainFails headerSize buf
    if (headerSize : ℤ) ≠ drained then (.error .readBufferDrainFailure, rest)
    else if c.removeFails then (.error .readBufferRemoveFailure, rest)
    else (.ok (rest.take (packetSize buf)), rest.drop (packetSize buf))

/-- The string reader finds what its caller has read into the buffer before. -/
def readNoblock (c : ReadCall) (buf : Bytes) : IpcType → Except IpcError Result × Bytes
  | .int64 => mapResult .int64 (ipcReadInt64Noblock c buf)
  | .uint64 => mapResult .uint64 (ipcReadUint64Noblock c buf)
  | .int8 => mapResult .int8 (ipcReadInt8Noblock c buf)
  | .uint8 => mapResult .uint8 (ipcReadUint8Noblock c buf)
  | .string => mapResult .string (ipcReadStringNoblock c (buf ++ c.read.bytes))
  | .dataPacket => mapResult .dataPacket (ipcReadDataNoblock c buf)

/-! ### Sequences -/

def writeAll (write : Bytes → Value → Except IpcError Unit × Bytes) (out : Bytes) :
    List Value → Except IpcError Unit × Bytes
  | [] => (.ok (), out)
  | v :: vs =>
    match write out v with
    | (.error e, out) => (.error e, out)
    | (.ok (), out) => writeAll write out vs

def readAll {η ζ : Type} (read : IpcType → ζ → Except η Result × ζ) (s : ζ) :
    List IpcType → Except η (List Result) × ζ
  | [] => (.ok [], s)
  | t :: ts =>
    match read t s with
    | (.error e, s) => (.error e, s)
    | (.ok r, s) => mapResult (r :: ·) (readAll read s ts)

def readAllBlock (frags : List Bytes) (ts : List IpcType) :
    Except ReadError (List Result) × List Bytes :=
  readAll (fun t frags => readBlock frags t) frags ts

/-- What a call gets from the socket behind the last fragment. -/
def afterwards (closed : Bool) : EvbufferRead := if closed then .eof else .wouldBlock

/-- A reader that does not block is called again while it would block and there are more
fragments. -/
def readWhenReady (closed : Bool) (t : IpcType) (s : Bytes × List Bytes) :
    Except IpcError Result × Bytes × List Bytes :=
  collect .wouldBlock (fun chunk buf => readNoblock (workingRead (.data chunk)) buf t)
    (fun buf => readNoblock (workingRead (afterwards closed)) buf t) s.1 s.2

def readAllNoblock (closed : Bool) (frags : List Bytes) (ts : List IpcType) :
    Except IpcError (List Result) × Bytes × List Bytes :=
  readAll (readWhenReady closed) ([], frags) ts

end TypedIpc
