import Agentd.IpcReaders
import Agentd.IndexedStreams

/-! # Authenticated packets

A packet of a session is a type and a size, a message authentication code, and a payload. The type,
the size and the payload are encrypted with one keystream, and the code is over what was encrypted.
There are a writer and a reader for a socket that blocks and for one that does not. The stream
cipher and the code are those of a crypto suite, of which only what the functions rely on is
given. -/
namespace AuthedPackets

open ByteString
open IpcPackets
open FragmentedStreams
open TypedIpc
open IpcReaders
open IndexedStreams

variable {Key : Type}

def authedPacketType : BitVec 32 := 0x30

def maxAuthedSize : ℕ := 10 * 1024 * 1024

structure CryptoSuite (Key : Type) where
  keystream : Key → BitVec 64 → ℕ → UInt8
  macShort : Key → Bytes → Bytes
  macSize : ℕ
  length_macShort : ∀ key b, (macShort key b).length = macSize

inductive AuthedError where
  | readBlockFailure
  | writeBlockFailure
  | writeBufferPayloadAddFailure
  | evbufferReadFailure
  | evbufferEof
  | wouldBlock
  | unauthorizedPacket
  | outOfMemory
  | cryptoFailure
  | readBufferDrainFailure
  deriving DecidableEq, Repr

inductive AuthedStep where
  | headerInit
  | dheaderInit
  | packetInit
  | pullupHeader
  | streamInit
  | macInit
  | continueHeader
  | cryptType
  | cryptSize
  | cryptHeader
  | pullupPacket
  | digest
  | digestInit
  | finalize
  | malloc
  | continuePayload
  | cryptPayload
  | evbufferAdd
  | drain
  deriving DecidableEq, Repr

def AuthedStep.error : AuthedStep → AuthedError
  | headerInit | dheaderInit | packetInit | digestInit | malloc => .outOfMemory
  | pullupHeader | pullupPacket => .wouldBlock
  | evbufferAdd => .writeBufferPayloadAddFailure
  | drain => .readBufferDrainFailure
  | _ => .cryptoFailure

def ensure (p : Prop) [Decidable p] (e : AuthedError) : Except AuthedError Unit :=
  if p then .ok () else .error e

def attempt (fails : Option AuthedStep) (s : AuthedStep) : Except AuthedError Unit :=
  ensure (fails ≠ some s) s.error

@[simp] theorem attempt_none (s : AuthedStep) : attempt none s = .ok () := rfl

/-! ### The stream cipher and the code between two calls -/

structure StreamContext (Key : Type) where
  key : Key
  iv : BitVec 64
  position : ℕ

structure MacContext (Key : Type) where
  key : Key
  digested : Bytes

namespace CryptoSuite

variable (S : CryptoSuite Key)

/-- The bytes from some position of the stream on, encrypted or decrypted. -/
def crypt (key : Key) (iv : BitVec 64) : ℕ → Bytes → Bytes :=
  applyFrom fun i x => x ^^^ S.keystream key iv i

/-- `vccrypt_stream_encrypt` and `vccrypt_stream_decrypt`: the result is written at the offset, and
both the stream and the offset move on. -/
def streamCrypt (c : StreamContext Key) (input output : Bytes) (offset : ℕ) :
    StreamContext Key × Bytes × ℕ :=
  ({ c with position := c.position + input.length },
    overwrite output offset (S.crypt c.key c.iv c.position input), offset + input.length)

def macFinalize (m : MacContext Key) : Bytes := S.macShort m.key m.digested

def headerSize : ℕ := 4 + 4 + S.macSize

@[simp] theorem length_crypt (key : Key) (iv : BitVec 64) (n : ℕ) (b : Bytes) :
    (S.crypt key iv n b).length = b.length := length_applyFrom n b

theorem crypt_crypt (key : Key) (iv : BitVec 64) (n : ℕ) (b : Bytes) :
    S.crypt key iv n (S.crypt key iv n b) = b := by
  refine applyFrom_applyFrom (fun i x => ?_) n b
  rw [UInt8.xor_assoc, UInt8.xor_self, UInt8.xor_zero]

theorem crypt_append (key : Key) (iv : BitVec 64) (n : ℕ) (l r : Bytes) :
    S.crypt key iv n (l ++ r) = S.crypt key iv n l ++ S.crypt key iv (n + l.length) r :=
  applyFrom_append n l r

end CryptoSuite

def macDigest (m : MacContext Key) (b : Bytes) : MacContext Key :=
  { m with digested := m.digested ++ b }

/-! ### Writers -/

section Functions

variable (S : CryptoSuite Key) (fails : Option AuthedStep) (key : Key) (iv : BitVec 64)

def buildPacket (val : DataBlock) : Except AuthedError Bytes := do
  let size := BitVec.ofNat 32 val.bytes.length
  let type := hostBytes 4 (htonl authedPacketType)
  let nsize := hostBytes 4 (htonl size)
  attempt fails .digestInit
  attempt fails .packetInit
  let packet := List.replicate (4 + 4 + S.macSize + size.toNat) 0
  attempt fails .streamInit
  attempt fails .macInit
  attempt fails .continueHeader
  let stream : StreamContext Key := ⟨key, iv, 0⟩
  attempt fails .cryptType
  let (stream, packet, offset) := S.streamCrypt stream type packet 0
  attempt fails .cryptSize
  let (stream, packet, offset) := S.streamCrypt stream nsize packet offset
  attempt fails .cryptPayload
  -- the payload goes behind the place of the code
  let (_, packet, _) := S.streamCrypt stream val.bytes packet (S.macSize + offset)
  attempt fails .digest
  let mac := macDigest ⟨key, []⟩ (slice packet 0 8)
  let mac := macDigest mac (slice packet (4 + 4 + S.macSize) size.toNat)
  attempt fails .finalize
  return overwrite packet 8 (S.macFinalize mac)

/-- The socket takes all of the packet in one write, or only so many bytes. -/
def ipcWriteAuthedDataBlock (accepted : Option ℕ) (out : Bytes) (val : DataBlock) :
    Except AuthedError Unit × Bytes :=
  match buildPacket S fails key iv val with
  | .error e => (.error e, out)
  | .ok packet =>
    match accepted with
    | none => (.ok (), out ++ packet)
    | some size =>
      if size < packet.length then (.error .writeBlockFailure, out ++ packet.take size)
      else (.ok (), out ++ packet)

def ipcWriteAuthedDataNoblock (out : Bytes) (val : DataBlock) : Except AuthedError Unit × Bytes :=
  match buildPacket S fails key iv val with
  | .error e => (.error e, out)
  | .ok packet =>
    match attempt fails .evbufferAdd with
    | .error e => (.error e, out)
    | .ok () => (.ok (), out ++ packet)

/-! ### Readers -/

/-- The size of the payload, and the offset at which its decryption goes on. -/
def openHeader (header : Bytes) : Except AuthedError (ℕ × ℕ) := do
  attempt fails .streamInit
  attempt fails .macInit
  attempt fails .continueHeader
  attempt fails .cryptHeader
  let stream : StreamContext Key := ⟨key, iv, 0⟩
  let (_, dheader, offset) := S.streamCrypt stream (slice header 0 8) (List.replicate 8 0) 0
  ensure (bits 32 (slice dheader 0 4) = authedPacketType) .unauthorizedPacket
  let size := (bits 32 (slice dheader 4 4)).toNat
  ensure (size ≤ maxAuthedSize) .unauthorizedPacket
  return (size, offset)

/-- The payload is decrypted when the code is that of the header and of the payload. -/
def openPayload (offset : ℕ) (header payload : Bytes) : Except AuthedError Bytes := do
  attempt fails .digest
  let mac := macDigest (macDigest ⟨key, []⟩ (slice header 0 8)) payload
  attempt fails .digestInit
  attempt fails .finalize
  let digest := S.macFinalize mac
  ensure (slice header 8 digest.length = digest) .unauthorizedPacket
  attempt fails .malloc
  let val := List.replicate payload.length 0
  attempt fails .continuePayload
  let stream : StreamContext Key := ⟨key, iv, offset⟩
  attempt fails .cryptPayload
  let (_, val, _) := S.streamCrypt stream payload val 0
  return val

def ipcReadAuthedDataBlock (frags : List Bytes) : Except AuthedError Bytes × List Bytes :=
  match attempt fails .headerInit *> attempt fails .dheaderInit with
  | .error e => (.error e, frags)
  | .ok () =>
    match readField S.headerSize frags with
    | (.error _, frags) => (.error .readBlockFailure, frags)
    | (.ok header, frags) =>
      match openHeader S fails key iv header with
      | .error e => (.error e, frags)
      | .ok (size, offset) =>
        match attempt fails .packetInit with
        | .error e => (.error e, frags)
        | .ok () =>
          match readField size frags with
          | (.error _, frags) => (.error .readBlockFailure, frags)
          | (.ok payload, frags) => (openPayload S fails key iv offset header payload, frags)

end Functions

/-- What reads from a socket that does not block will get, one after the other. -/
abbrev Socket := List EvbufferRead

/-- `evbuffer_read` of at most `n` bytes. The rest of a chunk is there for the next one. -/
def evbufferRead (n : ℕ) : Socket → EvbufferRead × Socket
  | [] => (.wouldBlock, [])
  | .data [] :: rest => evbufferRead n rest
  | .data (x :: c) :: rest =>
    if (x :: c).length ≤ n then (.data (x :: c), rest)
    else (.data ((x :: c).take n), .data ((x :: c).drop n) :: rest)
  | .eof :: rest => (.eof, .eof :: rest)
  | r :: rest => (r, rest)

structure ReadState where
  readbuf : Bytes
  sock : Socket
  deriving DecidableEq

/-- One read when the buffer has less than so many bytes. Any negative result is a failure, also
that of a socket that would block. -/
def needBytes (atEof : AuthedError) (size : ℕ) (s : ReadState) :
    Except AuthedError Unit × ReadState :=
  if s.readbuf.length < size then
    match evbufferRead (size - s.readbuf.length) s.sock with
    | (.data c, sock) =>
      if c.length < size - s.readbuf.length then (.error .wouldBlock, ⟨s.readbuf ++ c, sock⟩)
      else (.ok (), ⟨s.readbuf ++ c, sock⟩)
    | (.eof, sock) => (.error atEof, ⟨s.readbuf, sock⟩)
    | (_, sock) => (.error .evbufferReadFailure, ⟨s.readbuf, sock⟩)
  else (.ok (), s)

section Functions

variable (S : CryptoSuite Key) (fails : Option AuthedStep) (key : Key) (iv : BitVec 64)

/-- The end of the stream inside a payload is not told from a socket that would block. -/
def ipcReadAuthedDataNoblock (s : ReadState) : Except AuthedError Bytes × ReadState :=
  match needBytes .evbufferEof S.headerSize s with
  | (.error e, s) => (.error e, s)
  | (.ok (), s) =>
    match attempt fails .dheaderInit *> attempt fails .pullupHeader *>
        openHeader S fails key iv (slice s.readbuf 0 S.headerSize) with
    | .error e => (.error e, s)
    | .ok (size, offset) =>
      match needBytes .wouldBlock (S.headerSize + size) s with
      | (.error e, s) => (.error e, s)
      | (.ok (), s) =>
        match attempt fails .pullupPacket *> openPayload S fails key iv offset
            (slice s.readbuf 0 S.headerSize) (slice s.readbuf S.headerSize size) with
        | .error e => (.error e, s)
        | .ok val =>
          match attempt fails .drain with
          | .error e => (.error e, s)
          | .ok () => (.ok val, { s with readbuf := s.readbuf.drop (S.headerSize + size) })

end Functions

/-! ### What the writers write -/

section Written

variable {S : CryptoSuite Key} {key : Key} {iv : BitVec 64}

def plainHeader (size : ℕ) : Bytes := be 4 authedPacketType ++ be 4 (BitVec.ofNat 32 size)

def authedPacket (S : CryptoSuite Key) (key : Key) (iv : BitVec 64) (payload : Bytes) : Bytes :=
  let header := S.crypt key iv 0 (plainHeader payload.length)
  let body := S.crypt key iv 8 payload
  header ++ (S.macShort key (header ++ body) ++ body)

@[simp] theorem length_plainHeader (size : ℕ) : (plainHeader size).length = 8 := by
  rw [plainHeader, List.length_append, length_be, length_be]

theorem length_authedPacket (payload : Bytes) :
    (authedPacket S key iv payload).length = S.headerSize + payload.length := by
  simp only [authedPacket, List.length_append, CryptoSuite.length_crypt, length_plainHeader,
    S.length_macShort, CryptoSuite.headerSize]
  omega

theorem toNat_size (val : DataBlock) :
    (BitVec.ofNat 32 val.bytes.length).toNat = val.bytes.length := by
  rw [BitVec.toNat_ofNat, Nat.mod_eq_of_lt val.size_lt]

/-- A field that is written behind what is in the packet buffer already. -/
theorem overwrite_behind (l v r : Bytes) {off n : ℕ} (hoff : l.length = off) (hn : v.length = n) :
    overwrite (l ++ (List.replicate n 0 ++ r)) off v = l ++ (v ++ r) := by
  rw [overwrite_append_skip _ _ _ (by omega), hoff, Nat.sub_self,
    overwrite_append_self _ _ _ (by rw [List.length_replicate, hn])]

/-- The packet buffer with everything but the code in it. -/
theorem fill_packet (t n b : Bytes) (macSize : ℕ) (ht : t.length = 4) (hn : n.length = 4) :
    overwrite (overwrite (overwrite (List.replicate (4 + 4 + macSize + b.length) 0) 0 t) 4 n)
      (macSize + (4 + 4)) b = (t ++ n) ++ (List.replicate macSize 0 ++ b) := by
  have hsplit : List.replicate (4 + 4 + macSize + b.length) (0 : UInt8) =
      [] ++ (List.replicate 4 0 ++
        (List.replicate 4 0 ++ List.replicate (macSize + b.length) 0)) := by
    simp only [List.nil_append, ← List.replicate_add]
    congr 1
    omega
  have htype := overwrite_behind [] t
    (List.replicate 4 0 ++ List.replicate (macSize + b.length) 0) List.length_nil ht
  have hsize := overwrite_behind t n (List.replicate (macSize + b.length) 0) ht hn
  have hfront : ((t ++ n) ++ List.replicate macSize 0).length = macSize + (4 + 4) := by
    rw [List.length_append, List.length_append, List.length_replicate, ht, hn]
    omega
  have hbody := overwrite_behind ((t ++ n) ++ List.replicate macSize 0) b [] hfront rfl
  rw [List.append_nil, List.append_nil, List.append_assoc, ← List.replicate_add, List.append_assoc,
    List.append_assoc] at hbody
  rw [hsplit, htype, List.nil_append, hsize, hbody, List.append_assoc]

theorem buildPacket_eq (val : DataBlock) :
    buildPacket S none key iv val = .ok (authedPacket S key iv val.bytes) := by
  have hfill := fill_packet (S.crypt key iv 0 (be 4 authedPacketType))
    (S.crypt key iv 4 (be 4 (BitVec.ofNat 32 val.bytes.length))) (S.crypt key iv 8 val.bytes)
    S.macSize (by rw [CryptoSuite.length_crypt, length_be])
    (by rw [CryptoSuite.length_crypt, length_be])
  have hheader : S.crypt key iv 0 (plainHeader val.bytes.length) =
      S.crypt key iv 0 (be 4 authedPacketType) ++
        S.crypt key iv 4 (be 4 (BitVec.ofNat 32 val.bytes.length)) := by
    rw [plainHeader, CryptoSuite.crypt_append, length_be]
  rw [CryptoSuite.length_crypt, ← hheader] at hfill
  have hlen : (S.crypt key iv 0 (plainHeader val.bytes.length)).length = 8 := by
    rw [CryptoSuite.length_crypt, length_plainHeader]
  have hfront : (S.crypt key iv 0 (plainHeader val.bytes.length) ++
      List.replicate S.macSize 0).length = 4 + 4 + S.macSize := by
    rw [List.length_append, hlen, List.length_replicate]
  have hslice : slice (S.crypt key iv 0 (plainHeader val.bytes.length) ++
      (List.replicate S.macSize 0 ++ S.crypt key iv 8 val.bytes)) (4 + 4 + S.macSize)
        val.bytes.length = S.crypt key iv 8 val.bytes := by
    rw [← List.append_assoc, slice_append_skip _ _ _ (by omega), hfront, Nat.sub_self, slice,
      List.drop_zero, List.take_of_length_le (by rw [CryptoSuite.length_crypt])]
  simp only [buildPacket, attempt_none, hostBytes_htonl, CryptoSuite.streamCrypt, length_be,
    CryptoSuite.macFinalize, macDigest, toNat_size, Nat.zero_add, pure, Except.pure, bind,
    Except.bind, hfill]
  rw [slice_append_self _ _ hlen, hslice, List.nil_append,
    overwrite_behind _ _ _ hlen (S.length_macShort _ _)]
  rfl

/-- Without failures both writers write the packet. -/
theorem ipcWriteAuthedDataBlock_eq (out : Bytes) (val : DataBlock) :
    ipcWriteAuthedDataBlock S none key iv none out val =
      (.ok (), out ++ authedPacket S key iv val.bytes) := by
  rw [ipcWriteAuthedDataBlock, buildPacket_eq]

theorem ipcWriteAuthedDataNoblock_eq (out : Bytes) (val : DataBlock) :
    ipcWriteAuthedDataNoblock S none key iv out val =
      (.ok (), out ++ authedPacket S key iv val.bytes) := by
  rw [ipcWriteAuthedDataNoblock, buildPacket_eq]
  rfl

end Written

/-! ### What the readers accept -/

section Opened

variable {S : CryptoSuite Key} {fails : Option AuthedStep} {key : Key} {iv : BitVec 64}

theorem ensure_bind_ok {γ : Type} {p : Prop} [Decidable p] {e : AuthedError}
    {f : Unit → Except AuthedError γ} {r : γ} (h : (ensure p e >>= f) = .ok r) :
    p ∧ f () = .ok r := by
  rw [ensure] at h
  split at h
  · rename_i hp
    exact ⟨hp, h⟩
  · cases h

/-- A call that succeeds met no failure on its way. -/
theorem attempt_bind_ok {γ : Type} {s : AuthedStep} {f : Unit → Except AuthedError γ} {r : γ}
    (h : (attempt fails s >>= f) = .ok r) : f () = .ok r := (ensure_bind_ok h).2

theorem seqRight_ok {γ : Type} {x : Except AuthedError Unit} {y : Except AuthedError γ} {r : γ}
    (h : (x *> y) = .ok r) : y = .ok r := by
  cases x with
  | error e => cases h
  | ok u => exact h

def openedHeader (S : CryptoSuite Key) (key : Key) (iv : BitVec 64) (header : Bytes) : Bytes :=
  S.crypt key iv 0 (slice header 0 8)

/-- Writing over all of a buffer. -/
theorem overwrite_all (b v : Bytes) (h : v.length = b.length) : overwrite b 0 v = v := by
  have hself := overwrite_append_self b [] v h
  rwa [List.append_nil, List.append_nil] at hself

def AcceptsHeader (S : CryptoSuite Key) (key : Key) (iv : BitVec 64) (header : Bytes) : Prop :=
  bits 32 (slice (openedHeader S key iv header) 0 4) = authedPacketType ∧
    (bits 32 (slice (openedHeader S key iv header) 4 4)).toNat ≤ maxAuthedSize

instance (S : CryptoSuite Key) (key : Key) (iv : BitVec 64) (header : Bytes) :
    Decidable (AcceptsHeader S key iv header) :=
  inferInstanceAs (Decidable (_ ∧ _))

def openedSize (S : CryptoSuite Key) (key : Key) (iv : BitVec 64) (header : Bytes) : ℕ :=
  (bits 32 (slice (openedHeader S key iv header) 4 4)).toNat

theorem openHeader_eq {header : Bytes} (hlen : 8 ≤ header.length) :
    openHeader S none key iv header =
      if AcceptsHeader S key iv header then .ok (openedSize S key iv header, 8)
      else .error .unauthorizedPacket := by
  have hslice : (slice header 0 8).length = 8 := by
    rw [slice, List.drop_zero, List.length_take]
    omega
  have hall : overwrite (List.replicate 8 0) 0 (S.crypt key iv 0 (slice header 0 8)) =
      openedHeader S key iv header :=
    overwrite_all _ _ (by rw [CryptoSuite.length_crypt, hslice, List.length_replicate])
  simp only [openHeader, attempt_none, CryptoSuite.streamCrypt, hall, hslice, pure,
    Except.pure, bind, Except.bind]
  by_cases htype : bits 32 (slice (openedHeader S key iv header) 0 4) = authedPacketType
  · by_cases hsize : (bits 32 (slice (openedHeader S key iv header) 4 4)).toNat ≤ maxAuthedSize
    · rw [ensure, if_pos htype, ensure, if_pos hsize, if_pos ⟨htype, hsize⟩]
      rfl
    · rw [ensure, if_pos htype, ensure, if_neg hsize, if_neg fun h : AcceptsHeader _ _ _ _ =>
        hsize h.2]
  · rw [ensure, if_neg htype, if_neg fun h : AcceptsHeader _ _ _ _ => htype h.1]

theorem openPayload_eq (offset : ℕ) (header payload : Bytes) :
    openPayload S none key iv offset header payload =
      if slice header 8 S.macSize = S.macShort key (slice header 0 8 ++ payload) then
        .ok (S.crypt key iv offset payload)
      else .error .unauthorizedPacket := by
  have hall : overwrite (List.replicate payload.length 0) 0 (S.crypt key iv offset payload) =
      S.crypt key iv offset payload :=
    overwrite_all _ _ (by rw [CryptoSuite.length_crypt, List.length_replicate])
  simp only [openPayload, attempt_none, CryptoSuite.streamCrypt, CryptoSuite.macFinalize, macDigest,
    List.nil_append, S.length_macShort, hall, pure, Except.pure, bind, Except.bind]
  by_cases hmac : slice header 8 S.macSize = S.macShort key (slice header 0 8 ++ payload)
  · rw [ensure, if_pos hmac, if_pos hmac]
  · rw [ensure, if_neg hmac, if_neg hmac]

/-- A failure is no way to accept a header. -/
theorem openHeader_none {header : Bytes} {r : ℕ × ℕ}
    (h : openHeader S fails key iv header = .ok r) :
    openHeader S none key iv header = .ok r :=
  attempt_bind_ok (attempt_bind_ok (attempt_bind_ok (attempt_bind_ok h)))

theorem openPayload_none {offset : ℕ} {header payload val : Bytes}
    (h : openPayload S fails key iv offset header payload = .ok val) :
    openPayload S none key iv offset header payload = .ok val := by
  obtain ⟨hmac, hval⟩ := ensure_bind_ok (attempt_bind_ok (attempt_bind_ok (attempt_bind_ok h)))
  have hopened := attempt_bind_ok (attempt_bind_ok (attempt_bind_ok hval))
  have hcode : slice header 8 S.macSize = S.macShort key (slice header 0 8 ++ payload) := by
    rw [← S.length_macShort key (slice header 0 8 ++ payload)]
    exact hmac
  have hall : overwrite (List.replicate payload.length 0) 0 (S.crypt key iv offset payload) =
      S.crypt key iv offset payload :=
    overwrite_all _ _ (by rw [CryptoSuite.length_crypt, List.length_replicate])
  rw [openPayload_eq, if_pos hcode, ← hall]
  exact hopened

/-- The packet of a payload, with the code that the key gives its header and its body. -/
def Authentic (S : CryptoSuite Key) (key : Key) (iv : BitVec 64) (received val : Bytes) : Prop :=
  ∃ header code body, received = header ++ (code ++ body) ∧ header.length = 8 ∧
    code = S.macShort key (header ++ body) ∧ AcceptsHeader S key iv header ∧
    openedSize S key iv header = body.length ∧ val = S.crypt key iv 8 body

/-- A header and a payload that both are opened. -/
theorem opened_authentic {header payload val : Bytes} {offset : ℕ}
    (hlen : header.length = S.headerSize)
    (hheader : openHeader S fails key iv header = .ok (payload.length, offset))
    (hpayload : openPayload S fails key iv offset header payload = .ok val) :
    Authentic S key iv (header ++ payload) val := by
  have height : 8 ≤ header.length := by
    rw [hlen, CryptoSuite.headerSize]
    omega
  have hheader := openHeader_none hheader
  have hpayload := openPayload_none hpayload
  rw [openHeader_eq height] at hheader
  split at hheader
  · rename_i haccepts
    obtain ⟨hsize, rfl⟩ := Prod.mk.inj (Except.ok.inj hheader)
    rw [openPayload_eq] at hpayload
    split at hpayload
    · rename_i hcode
      have hparts : header = slice header 0 8 ++ slice header 8 S.macSize := by
        have hjoin := slice_append_slice header 0 8 S.macSize
        rw [Nat.zero_add] at hjoin
        rw [hjoin, slice, List.drop_zero, List.take_of_length_le]
        rw [hlen, CryptoSuite.headerSize]
      have hfront : (slice header 0 8).length = 8 := by
        rw [slice, List.drop_zero, List.length_take]
        omega
      have hopened : openedHeader S key iv (slice header 0 8) = openedHeader S key iv header := by
        rw [openedHeader, openedHeader, slice, slice, List.drop_zero, List.drop_zero,
          List.take_take, Nat.min_self]
      refine ⟨slice header 0 8, slice header 8 S.macSize, payload, ?_, hfront, hcode, ?_, ?_, ?_⟩
      · rw [← List.append_assoc, ← hparts]
      · rw [AcceptsHeader, hopened]
        exact haccepts
      · rw [openedSize, hopened]
        exact hsize
      · exact (Except.ok.inj hpayload).symm
    · cases hpayload
  · cases hheader

/-! ### Packets that are opened -/

structure AuthedPayload where
  bytes : Bytes
  size_le : bytes.length ≤ maxAuthedSize

theorem AuthedPayload.size_lt (p : AuthedPayload) : p.bytes.length < 2 ^ 32 := by
  have hmax : maxAuthedSize < 2 ^ 32 := by decide
  have hle := p.size_le
  omega

def AuthedPayload.block (p : AuthedPayload) : DataBlock := ⟨p.bytes, p.size_lt⟩

def sealedHeader (S : CryptoSuite Key) (key : Key) (iv : BitVec 64) (payload : Bytes) : Bytes :=
  S.crypt key iv 0 (plainHeader payload.length) ++
    S.macShort key (S.crypt key iv 0 (plainHeader payload.length) ++ S.crypt key iv 8 payload)

theorem authedPacket_eq (payload : Bytes) :
    authedPacket S key iv payload = sealedHeader S key iv payload ++ S.crypt key iv 8 payload :=
  (List.append_assoc _ _ _).symm

@[simp] theorem length_sealedHeader (payload : Bytes) :
    (sealedHeader S key iv payload).length = S.headerSize := by
  rw [sealedHeader, List.length_append, CryptoSuite.length_crypt, length_plainHeader,
    S.length_macShort, CryptoSuite.headerSize]

theorem openedHeader_sealed (payload : Bytes) :
    openedHeader S key iv (sealedHeader S key iv payload) = plainHeader payload.length := by
  rw [openedHeader, sealedHeader,
    slice_append_self _ _ (by rw [CryptoSuite.length_crypt, length_plainHeader]),
    CryptoSuite.crypt_crypt]

/-- The size in the header of a payload, of which only 32 bits are left. -/
theorem openedSize_sealed (payload : Bytes) (h : payload.length < 2 ^ 32) :
    openedSize S key iv (sealedHeader S key iv payload) = payload.length := by
  rw [openedSize, openedHeader_sealed, plainHeader, slice_append_skip _ _ _ (by rw [length_be]),
    length_be, Nat.sub_self, slice, List.drop_zero, List.take_of_length_le (by rw [length_be]),
    bits_be (by decide), BitVec.toNat_ofNat, Nat.mod_eq_of_lt h]

theorem acceptsHeader_sealed (payload : Bytes) (h : payload.length < 2 ^ 32) :
    AcceptsHeader S key iv (sealedHeader S key iv payload) ↔ payload.length ≤ maxAuthedSize := by
  have htype : bits 32 (slice (openedHeader S key iv (sealedHeader S key iv payload)) 0 4) =
      authedPacketType := by
    rw [openedHeader_sealed, plainHeader, slice_append_self _ _ (length_be _ _),
      bits_be (by decide)]
  have hsize : openedSize S key iv (sealedHeader S key iv payload) = payload.length :=
    openedSize_sealed payload h
  rw [openedSize] at hsize
  rw [AcceptsHeader, hsize]
  exact and_iff_right htype

theorem openHeader_sealed (p : AuthedPayload) :
    openHeader S none key iv (sealedHeader S key iv p.bytes) = .ok (p.bytes.length, 8) := by
  have hlen : 8 ≤ (sealedHeader S key iv p.bytes).length := by
    rw [length_sealedHeader, CryptoSuite.headerSize]
    omega
  rw [openHeader_eq hlen, if_pos ((acceptsHeader_sealed p.bytes p.size_lt).mpr p.size_le),
    openedSize_sealed p.bytes p.size_lt]

theorem openPayload_sealed (payload : Bytes) :
    openPayload S none key iv 8 (sealedHeader S key iv payload) (S.crypt key iv 8 payload) =
      .ok payload := by
  have hlen : (S.crypt key iv 0 (plainHeader payload.length)).length = 8 := by
    rw [CryptoSuite.length_crypt, length_plainHeader]
  rw [openPayload_eq, if_pos, CryptoSuite.crypt_crypt]
  rw [sealedHeader, slice_append_self _ _ hlen, slice_append_skip _ _ _ (by rw [hlen]), hlen,
    Nat.sub_self, slice, List.drop_zero, List.take_of_length_le (by rw [S.length_macShort])]

/-! ### The reader for a socket that blocks -/

theorem readField_ok {n : ℕ} {frags left : List Bytes} {b : Bytes}
    (h : readField n frags = (.ok b, left)) : b.length = n ∧ frags.flatten = b ++ left.flatten := by
  rw [readField] at h
  split at h
  · rename_i hfull
    obtain ⟨hb, rfl⟩ := Prod.mk.inj h
    rw [← Except.ok.inj hb]
    exact ⟨hfull, (readFront_flatten n frags).symm⟩
  · cases h

/-- What is returned is the payload of an authentic packet at the front of the stream. -/
theorem ipcReadAuthedDataBlock_sound {frags left : List Bytes} {val : Bytes}
    (h : ipcReadAuthedDataBlock S fails key iv frags = (.ok val, left)) :
    ∃ received, frags.flatten = received ++ left.flatten ∧ Authentic S key iv received val := by
  rw [ipcReadAuthedDataBlock] at h
  split at h
  · cases h
  split at h
  · cases h
  rename_i header frags₁ hread
  split at h
  · cases h
  rename_i size offset hheader
  split at h
  · cases h
  split at h
  · cases h
  rename_i payload frags₂ hpayload
  obtain ⟨hval, rfl⟩ := Prod.mk.inj h
  obtain ⟨hlen, hfront⟩ := readField_ok hread
  obtain ⟨rfl, hbody⟩ := readField_ok hpayload
  refine ⟨header ++ payload, ?_, opened_authentic hlen hheader hval⟩
  rw [hfront, hbody, List.append_assoc]

/-- A packet whose header and whose payload each arrive in one piece. -/
theorem ipcReadAuthedDataBlock_packet {frags : List Bytes} {rest : Bytes} (p : AuthedPayload)
    (hs : frags.flatten = authedPacket S key iv p.bytes ++ rest)
    (hwhole : FieldsWhole frags 0 [S.headerSize, p.bytes.length]) :
    ∃ left, ipcReadAuthedDataBlock S none key iv frags = (.ok p.bytes, left) ∧
      left.flatten = rest := by
  rw [authedPacket_eq, List.append_assoc] at hs
  obtain ⟨hheader, hrest⟩ := hwhole
  have hle : S.headerSize ≤ frags.flatten.length := by
    rw [hs, List.length_append, length_sealedHeader]
    omega
  obtain ⟨left₁, hread₁, hafter₁⟩ := readField_whole hle hheader
  have htake : frags.flatten.take S.headerSize = sealedHeader S key iv p.bytes := by
    rw [hs]
    exact List.take_left' (length_sealedHeader _)
  have hleft₁ : left₁.flatten = S.crypt key iv 8 p.bytes ++ rest := by
    rw [hafter₁.flatten, hs]
    exact List.drop_left' (length_sealedHeader _)
  have hbody : FieldsWhole left₁ 0 [p.bytes.length] := by
    rw [hafter₁.whole, Nat.add_zero]
    rwa [Nat.zero_add] at hrest
  have hle₁ : p.bytes.length ≤ left₁.flatten.length := by
    rw [hleft₁, List.length_append, CryptoSuite.length_crypt]
    omega
  obtain ⟨left₂, hread₂, hafter₂⟩ := readField_whole hle₁ hbody.1
  have htake₁ : left₁.flatten.take p.bytes.length = S.crypt key iv 8 p.bytes := by
    rw [hleft₁]
    exact List.take_left' (CryptoSuite.length_crypt _ _ _ _ _)
  refine ⟨left₂, ?_, ?_⟩
  · rw [htake] at hread₁
    rw [htake₁] at hread₂
    simp only [ipcReadAuthedDataBlock, attempt_none, hread₁, openHeader_sealed, hread₂,
      openPayload_sealed]
    rfl
  · rw [hafter₂.flatten, hleft₁]
    exact List.drop_left' (CryptoSuite.length_crypt _ _ _ _ _)

end Opened

end AuthedPackets
