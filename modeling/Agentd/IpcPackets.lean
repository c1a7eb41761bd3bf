import Agentd.DataserviceRequests
import Agentd.IncrementalParsing

/-! # Data packets on a socket

A data packet is four bytes of type, four bytes of size and the payload. The reader keeps what it
got from the socket in a buffer and takes one packet off the front of it for each call; the read
callbacks of the services call it once or in a loop. -/
namespace IpcPackets

open ByteString
open DataserviceRequests
open IncrementalParsing

def dataPacketType : BitVec 32 := 0x22

def headerSize : ℕ := 8

inductive IpcError where
  | wouldBlock
  | evbufferReadFailure
  | evbufferEof
  | readUnexpectedDataType
  | readUnexpectedDataSize
  | outOfMemory
  | readBufferDrainFailure
  | readBufferRemoveFailure
  | writeBufferTypeAddFailure
  | writeBufferSizeAddFailure
  | writeBufferPayloadAddFailure
  | writeNonblockFailure
  | writeBlockFailure
  deriving DecidableEq, Repr

/-! ### Writing -/

/-- The size is passed as 32 bits. -/
def packetHeader (payload : Bytes) : Bytes :=
  be 4 dataPacketType ++ be 4 (BitVec.ofNat 32 payload.length)

def packet (payload : Bytes) : Bytes := packetHeader payload ++ payload

inductive WriteStep where
  | typeAdd
  | sizeAdd
  | payloadAdd
  | socket
  deriving DecidableEq, Repr

/-- `out` is what was added to the write buffer so far, sent or not. -/
def ipcWriteDataNoblock (fails : Option WriteStep) (out payload : Bytes) :
    Except IpcError Unit × Bytes :=
  match fails with
  | some .typeAdd => (.error .writeBufferTypeAddFailure, out)
  | some .sizeAdd => (.error .writeBufferSizeAddFailure, out ++ be 4 dataPacketType)
  | some .payloadAdd => (.error .writeBufferPayloadAddFailure, out ++ packetHeader payload)
  | some .socket => (.error .writeNonblockFailure, out ++ packet payload)
  | none => (.ok (), out ++ packet payload)

/-- The type, the size and the payload are written to the socket, which takes `accepted` bytes. -/
def ipcWriteDataBlock (accepted : ℕ) (out payload : Bytes) : Except IpcError Unit × Bytes :=
  if accepted < (packet payload).length then
    (.error .writeBlockFailure, out ++ (packet payload).take accepted)
  else (.ok (), out ++ packet payload)

/-! ### Reading -/

inductive EvbufferRead where
  | data (chunk : Bytes)
  | wouldBlock
  | failed
  | eof
  deriving DecidableEq, Repr

structure ReadCall where
  read : EvbufferRead
  mallocFails : Bool
  drainFails : Bool
  removeFails : Bool

def workingRead (r : EvbufferRead) : ReadCall := ⟨r, false, false, false⟩

def packetSize (buf : Bytes) : ℕ := (bits 32 (slice buf 4 4)).toNat

def takePacket (c : ReadCall) (buf : Bytes) : Except IpcError Bytes × Bytes :=
  if buf.length < headerSize then (.error .wouldBlock, buf)
  else if bits 32 (buf.take 4) ≠ dataPacketType then (.error .readUnexpectedDataType, buf)
  else if packetSize buf = 0 ∨ maxPayload ≤ packetSize buf then
    (.error .readUnexpectedDataSize, buf)
  else if buf.length < packetSize buf + headerSize then (.error .wouldBlock, buf)
  else if c.mallocFails then (.error .outOfMemory, buf)
  else if c.drainFails then (.error .readBufferDrainFailure, buf)
  else if c.removeFails then (.error .readBufferRemoveFailure, buf.drop headerSize)
  else (.ok (slice buf headerSize (packetSize buf)), buf.drop (headerSize + packetSize buf))

/-- A socket that would block leaves the call with what is buffered; the end of the stream ends it
at once. -/
def ipcReadDataNoblock (c : ReadCall) (buf : Bytes) : Except IpcError Bytes × Bytes :=
  match c.read with
  | .wouldBlock => takePacket c buf
  | .failed => (.error .evbufferReadFailure, buf)
  | .eof => (.error .evbufferEof, buf)
  | .data chunk => takePacket c (buf ++ chunk)

/-- The payload of the complete packet at the front of a buffer, and what follows it. -/
def firstPacket (buf : Bytes) : Option (Bytes × Bytes) :=
  if headerSize ≤ buf.length ∧ bits 32 (buf.take 4) = dataPacketType ∧ packetSize buf ≠ 0 ∧
      packetSize buf < maxPayload ∧ packetSize buf + headerSize ≤ buf.length then
    some (slice buf headerSize (packetSize buf), buf.drop (headerSize + packetSize buf))
  else none

theorem firstPacket_some {buf payload rest : Bytes} (h : firstPacket buf = some (payload, rest)) :
    (headerSize ≤ buf.length ∧ bits 32 (buf.take 4) = dataPacketType ∧ packetSize buf ≠ 0 ∧
      packetSize buf < maxPayload ∧ packetSize buf + headerSize ≤ buf.length) ∧
    payload = slice buf headerSize (packetSize buf) ∧
    rest = buf.drop (headerSize + packetSize buf) := by
  unfold firstPacket at h
  split at h
  · rename_i hfront
    obtain ⟨hp, hr⟩ := Prod.mk.inj (Option.some.inj h)
    exact ⟨hfront, hp.symm, hr.symm⟩
  · cases h

theorem takePacket_ok_iff {c : ReadCall} {buf payload rest : Bytes} :
    takePacket c buf = (.ok payload, rest) ↔ firstPacket buf = some (payload, rest) ∧
      c.mallocFails = false ∧ c.drainFails = false ∧ c.removeFails = false := by
  constructor
  · intro h
    unfold takePacket at h
    split_ifs at h with hlen htype hsize hfull hm hd hr
    all_goals simp only [Prod.mk.injEq, reduceCtorEq, false_and] at h
    obtain ⟨hp, hrest⟩ := h
    rw [not_or, not_le] at hsize
    rw [not_lt] at hlen hfull
    have hfront : headerSize ≤ buf.length ∧ bits 32 (buf.take 4) = dataPacketType ∧
        packetSize buf ≠ 0 ∧ packetSize buf < maxPayload ∧
        packetSize buf + headerSize ≤ buf.length :=
      ⟨hlen, not_not.mp htype, hsize.1, hsize.2, hfull⟩
    rw [firstPacket, if_pos hfront, ← Except.ok.inj hp, ← hrest]
    simp_all
  · rintro ⟨hfirst, hm, hd, hr⟩
    obtain ⟨⟨hlen, htype, hzero, hmax, hfull⟩, rfl, rfl⟩ := firstPacket_some hfirst
    rw [takePacket, if_neg (not_lt.mpr hlen), if_neg (not_not.mpr htype),
      if_neg (not_or.mpr ⟨hzero, not_le.mpr hmax⟩), if_neg (not_lt.mpr hfull),
      if_neg (by simp [hm]), if_neg (by simp [hd]), if_neg (by simp [hr])]

/-- A call that would block finds no complete packet and leaves the buffer alone. -/
theorem takePacket_wouldBlock {c : ReadCall} {buf rest : Bytes}
    (h : takePacket c buf = (.error .wouldBlock, rest)) : firstPacket buf = none ∧ rest = buf := by
  unfold takePacket at h
  split_ifs at h with hlen htype hsize hfull hm hd hr
  all_goals simp only [Prod.mk.injEq, Except.error.injEq, reduceCtorEq, false_and] at h
  · refine ⟨?_, h.2.symm⟩
    rw [firstPacket, if_neg]
    rintro ⟨hle, -⟩
    exact absurd hlen (not_lt.mpr hle)
  · refine ⟨?_, h.2.symm⟩
    rw [firstPacket, if_neg]
    rintro ⟨-, -, -, -, hle⟩
    exact absurd hfull (not_lt.mpr hle)

theorem packetSize_append {b : Bytes} (c : Bytes) (h : headerSize ≤ b.length) :
    packetSize (b ++ c) = packetSize b := by
  have hslice : slice (b ++ c) 4 4 = slice b 4 4 := by
    simp only [headerSize] at h
    rw [slice, slice, List.drop_append_of_le_length (by omega),
      List.take_append_of_le_length (by rw [List.length_drop]; omega)]
  rw [packetSize, packetSize, hslice]

theorem firstPacket_incremental : Incremental firstPacket where
  shrinks := by
    intro b p r h
    obtain ⟨⟨hlen, -, -, -, -⟩, -, rfl⟩ := firstPacket_some h
    rw [List.length_drop]
    simp only [headerSize] at *
    omega
  stable := by
    intro b p r c h
    obtain ⟨⟨hlen, htype, hzero, hmax, hfull⟩, rfl, rfl⟩ := firstPacket_some h
    have hsize := packetSize_append c hlen
    have htake : (b ++ c).take 4 = b.take 4 := by
      simp only [headerSize] at hlen
      exact List.take_append_of_le_length (by omega)
    have hfront : headerSize ≤ (b ++ c).length ∧ bits 32 ((b ++ c).take 4) = dataPacketType ∧
        packetSize (b ++ c) ≠ 0 ∧ packetSize (b ++ c) < maxPayload ∧
        packetSize (b ++ c) + headerSize ≤ (b ++ c).length := by
      rw [hsize, htake, List.length_append]
      exact ⟨by omega, htype, hzero, hmax, by omega⟩
    rw [firstPacket, if_pos hfront, hsize, slice, slice, List.drop_append_of_le_length hlen,
      List.take_append_of_le_length (by rw [List.length_drop]; omega),
      List.drop_append_of_le_length (by omega)]

theorem length_packet (payload : Bytes) :
    (packet payload).length = headerSize + payload.length := by
  simp only [packet, packetHeader, headerSize, List.length_append, length_be]

def Sendable (payload : Bytes) : Prop := payload ≠ [] ∧ payload.length < maxPayload

instance (payload : Bytes) : Decidable (Sendable payload) :=
  inferInstanceAs (Decidable (payload ≠ [] ∧ payload.length < maxPayload))

theorem Sendable.length_pos {payload : Bytes} (h : Sendable payload) : 0 < payload.length :=
  List.length_pos_iff.mpr h.1

theorem packetSize_packet {payload : Bytes} (h : Sendable payload) (rest : Bytes) :
    packetSize (packet payload ++ rest) = payload.length := by
  have hmax : maxPayload = 1073741824 := by decide
  have hlen := h.2
  have hslice : slice (packet payload ++ rest) 4 4 = be 4 (BitVec.ofNat 32 payload.length) := by
    rw [packet, packetHeader, List.append_assoc, List.append_assoc,
      slice_append_skip _ _ 4 (by simp)]
    exact slice_append_self _ _ (by simp)
  rw [packetSize, hslice, bits_be (by decide), BitVec.toNat_ofNat, Nat.mod_eq_of_lt (by omega)]

theorem type_packet (payload rest : Bytes) :
    bits 32 ((packet payload ++ rest).take 4) = dataPacketType := by
  have htake : (packet payload ++ rest).take 4 = be 4 dataPacketType := by
    rw [packet, packetHeader, List.append_assoc, List.append_assoc]
    exact List.take_left' (by simp)
  rw [htake, bits_be (by decide)]

/-- The reader finds a packet that was written. -/
theorem firstPacket_packet {payload : Bytes} (h : Sendable payload) (rest : Bytes) :
    firstPacket (packet payload ++ rest) = some (payload, rest) := by
  have hsize := packetSize_packet h rest
  have hlen : (packet payload ++ rest).length = headerSize + payload.length + rest.length := by
    rw [List.length_append, length_packet]
  have hpos := h.length_pos
  have hfront : headerSize ≤ (packet payload ++ rest).length ∧
      bits 32 ((packet payload ++ rest).take 4) = dataPacketType ∧
      packetSize (packet payload ++ rest) ≠ 0 ∧ packetSize (packet payload ++ rest) < maxPayload ∧
      packetSize (packet payload ++ rest) + headerSize ≤ (packet payload ++ rest).length := by
    rw [hsize, hlen]
    exact ⟨by omega, type_packet payload rest, by omega, h.2, by omega⟩
  have hpayload : slice (packet payload ++ rest) headerSize payload.length = payload := by
    rw [packet, List.append_assoc, slice_append_skip _ _ _ (by simp [packetHeader, headerSize])]
    simp only [packetHeader, headerSize, List.length_append, length_be, Nat.sub_self]
    exact slice_append_self _ _ rfl
  have hrest : (packet payload ++ rest).drop (headerSize + payload.length) = rest :=
    List.drop_left' (length_packet payload)
  rw [firstPacket, if_pos hfront, hsize, hpayload, hrest]

/-- It waits for more as long as the packet is not complete. -/
theorem takePacket_waits {payload buf missing rest : Bytes} (h : Sendable payload) (c : ReadCall)
    (hbuf : buf ++ missing = packet payload ++ rest) (hlen : buf.length < (packet payload).length) :
    takePacket c buf = (.error .wouldBlock, buf) := by
  by_cases hheader : buf.length < headerSize
  · rw [takePacket, if_pos hheader]
  · rw [not_lt] at hheader
    have hpos := h.length_pos
    have hmax := h.2
    have hsize : packetSize buf = payload.length := by
      rw [← packetSize_append missing hheader, hbuf, packetSize_packet h rest]
    have htype : bits 32 (buf.take 4) = dataPacketType := by
      have htake : (buf ++ missing).take 4 = buf.take 4 := by
        simp only [headerSize] at hheader
        exact List.take_append_of_le_length (by omega)
      rw [← htake, hbuf, type_packet]
    rw [length_packet] at hlen
    rw [takePacket, if_neg (not_lt.mpr hheader), if_neg (not_not.mpr htype), hsize,
      if_neg (by omega), if_pos (by omega)]

/-! ### Read callbacks -/

variable {σ : Type}

/-- A socket with its read buffer, the service behind it and whether that asked to leave the event
loop. -/
structure Connection (σ : Type) where
  readbuf : Bytes
  service : σ
  forceExit : Bool

/-- Handling of one payload; false when the dispatcher reports an error. -/
abbrev Dispatch (σ : Type) := σ → Bytes → σ × Bool

/-- One read, and what is done with its result; also whether the read succeeded. -/
def readAndDispatch (dispatch : Dispatch σ) (call : ReadCall) (c : Connection σ) :
    Bool × Connection σ :=
  match ipcReadDataNoblock call c.readbuf with
  | (.ok payload, buf) =>
    let (s, ok) := dispatch c.service payload
    (true, ⟨buf, s, c.forceExit || !ok⟩)
  | (.error .wouldBlock, buf) => (false, { c with readbuf := buf })
  | (.error _, buf) => (false, { c with readbuf := buf, forceExit := true })

def EvbufferRead.bytes : EvbufferRead → Bytes
  | .data chunk => chunk
  | _ => []

def received (calls : List ReadCall) : Bytes := calls.flatMap fun c => c.read.bytes

def nextCall : List ReadCall → ReadCall × List ReadCall
  | [] => (workingRead .wouldBlock, [])
  | c :: rest => (c, rest)

theorem received_nextCall (calls : List ReadCall) :
    (nextCall calls).1.read.bytes ++ received (nextCall calls).2 = received calls := by
  cases calls with
  | nil => rfl
  | cons c rest => simp [nextCall, received]

theorem ipcReadDataNoblock_shrinks {c : ReadCall} {buf payload rest : Bytes}
    (h : ipcReadDataNoblock c buf = (.ok payload, rest)) :
    rest.length < buf.length + c.read.bytes.length := by
  unfold ipcReadDataNoblock at h
  split at h <;> rename_i hread
  · rw [hread]
    exact firstPacket_incremental.shrinks (takePacket_ok_iff.mp h).1
  · simp at h
  · simp at h
  · rw [hread]
    have hlt := firstPacket_incremental.shrinks (takePacket_ok_iff.mp h).1
    simpa [EvbufferRead.bytes] using hlt

theorem readAndDispatch_shrinks {dispatch : Dispatch σ} {call : ReadCall} {c : Connection σ}
    (h : (readAndDispatch dispatch call c).1 = true) :
    (readAndDispatch dispatch call c).2.readbuf.length <
      c.readbuf.length + call.read.bytes.length := by
  unfold readAndDispatch at h ⊢
  split
  · rename_i payload buf hread
    exact ipcReadDataNoblock_shrinks hread
  · rename_i buf hread
    simp [hread] at h
  · rename_i e buf hne hread
    cases e <;> simp [hread] at h

/-- Reads until a read does not succeed or the buffer is empty. -/
def readLoop (dispatch : Dispatch σ) (calls : List ReadCall) (c : Connection σ) :
    Connection σ × List ReadCall :=
  if (readAndDispatch dispatch (nextCall calls).1 c).1 = true ∧
      (readAndDispatch dispatch (nextCall calls).1 c).2.readbuf.length > 0 then
    readLoop dispatch (nextCall calls).2 (readAndDispatch dispatch (nextCall calls).1 c).2
  else ((readAndDispatch dispatch (nextCall calls).1 c).2, (nextCall calls).2)
  termination_by c.readbuf.length + (received calls).length
  decreasing_by
    rename_i hgo
    have hshrink := readAndDispatch_shrinks hgo.1
    have hbytes := congrArg List.length (received_nextCall calls)
    rw [List.length_append] at hbytes
    omega

def dataserviceIpcRead (dispatch : Dispatch σ) (calls : List ReadCall) (c : Connection σ) :
    Connection σ × List ReadCall :=
  if c.forceExit then (c, calls) else readLoop dispatch calls c

/-- The callback for the control socket of the canonization service reads once. -/
def canonizationserviceControlRead (dispatch : Dispatch σ) (call : ReadCall) (c : Connection σ) :
    Connection σ :=
  if c.forceExit then c else (readAndDispatch dispatch call c).2

end IpcPackets
