import Agentd.IpcPackets

/-! # Delivery of packets

The data service reads until its buffer holds no complete packet, so none is left behind when its
callback returns. The canonization service reads once for each callback. For both, the end of the
stream hides packets that are still in the buffer. -/
namespace PacketDelivery

open ByteString
open DataserviceRequests
open IncrementalParsing
open IpcPackets

/-! ### One read -/

section Read

variable {σ : Type} {dispatch : Dispatch σ} {call : ReadCall} {c : Connection σ}

structure Works (call : ReadCall) : Prop where
  notFailed : call.read ≠ .failed
  notEof : call.read ≠ .eof
  malloc : call.mallocFails = false
  drain : call.drainFails = false
  remove : call.removeFails = false

/-- Everything one read can lead to: the packet at the front is dispatched, there is none yet, or an
error makes the service leave its event loop. -/
theorem readAndDispatch_cases (dispatch : Dispatch σ) (call : ReadCall) (c : Connection σ) :
    (Works call ∧ ∃ payload rest,
      firstPacket (c.readbuf ++ call.read.bytes) = some (payload, rest) ∧
      readAndDispatch dispatch call c = (true, ⟨rest, (dispatch c.service payload).1,
        c.forceExit || !(dispatch c.service payload).2⟩)) ∨
    (firstPacket (c.readbuf ++ call.read.bytes) = none ∧ readAndDispatch dispatch call c =
      (false, { c with readbuf := c.readbuf ++ call.read.bytes })) ∨
    (¬ (Works call ∧ firstPacket (c.readbuf ++ call.read.bytes) ≠ none) ∧
      (readAndDispatch dispatch call c).1 = false ∧
      (readAndDispatch dispatch call c).2.forceExit = true) := by
  have hread : (call.read = .failed ∨ call.read = .eof) ∨
      (call.read ≠ .failed ∧ call.read ≠ .eof ∧ ipcReadDataNoblock call c.readbuf =
        takePacket call (c.readbuf ++ call.read.bytes)) := by
    cases hr : call.read <;> simp [ipcReadDataNoblock, hr, EvbufferRead.bytes]
  rcases hread with hend | ⟨hnf, hne, hread⟩
  · right
    right
    refine ⟨fun hw => ?_, ?_⟩
    · rcases hend with hf | he
      · exact hw.1.notFailed hf
      · exact hw.1.notEof he
    · rcases hend with hf | he
      · simp [readAndDispatch, ipcReadDataNoblock, hf]
      · simp [readAndDispatch, ipcReadDataNoblock, he]
  cases htake : takePacket call (c.readbuf ++ call.read.bytes) with
  | mk r rest =>
    rw [htake] at hread
    cases r with
    | ok payload =>
      obtain ⟨hfirst, hm, hd, hr⟩ := takePacket_ok_iff.mp htake
      exact Or.inl ⟨⟨hnf, hne, hm, hd, hr⟩, payload, rest, hfirst, by
        simp [readAndDispatch, hread]⟩
    | error e =>
      by_cases hblock : e = .wouldBlock
      · subst hblock
        obtain ⟨hnone, rfl⟩ := takePacket_wouldBlock htake
        exact Or.inr (Or.inl ⟨hnone, by simp [readAndDispatch, hread]⟩)
      · refine Or.inr (Or.inr ⟨?_, ?_⟩)
        · rintro ⟨hw, hsome⟩
          obtain ⟨⟨payload, rest'⟩, hfirst⟩ := Option.ne_none_iff_exists'.mp hsome
          rw [takePacket_ok_iff.mpr ⟨hfirst, hw.malloc, hw.drain, hw.remove⟩] at htake
          cases htake
        · cases e <;> simp_all [readAndDispatch]

end Read

/-! ### Callbacks -/

section Callbacks

variable {σ : Type} {dispatch : Dispatch σ}

def dispatchAll (dispatch : Dispatch σ) (s : σ) (payloads : List Bytes) : σ :=
  payloads.foldl (fun s p => (dispatch s p).1) s

/-- When the loop ends without an exit, every complete packet of what was buffered and read was
dispatched in order. -/
theorem readLoop_dispatches (dispatch : Dispatch σ) (calls : List ReadCall) (c : Connection σ) :
    (readLoop dispatch calls c).1.forceExit = false → ∃ bytes,
      received calls = bytes ++ received (readLoop dispatch calls c).2 ∧
      (readLoop dispatch calls c).1.service =
        dispatchAll dispatch c.service (parse firstPacket (c.readbuf ++ bytes)).1 ∧
      (readLoop dispatch calls c).1.readbuf = (parse firstPacket (c.readbuf ++ bytes)).2 := by
  induction calls, c using readLoop.induct dispatch with
  | case1 calls c hgo ih =>
    rw [readLoop, if_pos hgo]
    intro hexit
    obtain ⟨bytes, hbytes, hservice, hbuf⟩ := ih hexit
    rcases readAndDispatch_cases dispatch (nextCall calls).1 c with
      ⟨-, payload, rest, hfirst, hstep⟩ | ⟨-, hstep⟩ | ⟨-, hfail, -⟩
    · refine ⟨(nextCall calls).1.read.bytes ++ bytes, ?_, ?_⟩
      · rw [← received_nextCall, hbytes, List.append_assoc]
      · have hparse := parse_some firstPacket_incremental
          (firstPacket_incremental.stable bytes hfirst)
        rw [List.append_assoc] at hparse
        rw [hservice, hbuf, hparse, hstep]
        exact ⟨rfl, rfl⟩
    · rw [hstep] at hgo
      exact absurd hgo.1 (by simp)
    · rw [hfail] at hgo
      exact absurd hgo.1 (by simp)
  | case2 calls c hstop =>
    rw [readLoop, if_neg hstop]
    intro hexit
    refine ⟨(nextCall calls).1.read.bytes, (received_nextCall calls).symm, ?_⟩
    rcases readAndDispatch_cases dispatch (nextCall calls).1 c with
      ⟨-, payload, rest, hfirst, hstep⟩ | ⟨hnone, hstep⟩ | ⟨-, -, htrue⟩
    · have hempty : rest = [] := by
        rw [hstep] at hstop
        simpa using hstop
      subst hempty
      rw [parse_some firstPacket_incremental hfirst, hstep]
      exact ⟨rfl, rfl⟩
    · rw [parse_none hnone, hstep]
      exact ⟨rfl, rfl⟩
    · rw [htrue] at hexit
      cases hexit

/-- The packet at the front, if the callback takes it and its dispatch works, is the only complete
one in the buffer. -/
def Single (dispatch : Dispatch σ) (call : ReadCall) (c : Connection σ) : Prop :=
  ∀ payload rest, firstPacket (c.readbuf ++ call.read.bytes) = some (payload, rest) →
    c.forceExit = false → Works call → (dispatch c.service payload).2 = true →
    firstPacket rest = none

theorem controlRead_strands_iff (dispatch : Dispatch σ) (call : ReadCall) (c : Connection σ) :
    ((canonizationserviceControlRead dispatch call c).forceExit = false →
      firstPacket (canonizationserviceControlRead dispatch call c).readbuf = none) ↔
    Single dispatch call c := by
  unfold canonizationserviceControlRead
  by_cases hexit : c.forceExit = true
  · rw [if_pos hexit]
    simp [hexit, Single]
  rw [if_neg hexit]
  rw [Bool.not_eq_true] at hexit
  rcases readAndDispatch_cases dispatch call c with
    ⟨hw, payload, rest, hfirst, hstep⟩ | ⟨hnone, hstep⟩ | ⟨hbad, -, htrue⟩
  · rw [hstep]
    constructor
    · intro h payload' rest' hfirst' _ _ hok
      rw [hfirst] at hfirst'
      obtain ⟨rfl, rfl⟩ := Prod.mk.inj (Option.some.inj hfirst')
      exact h (by simp [hexit, hok])
    · intro h hafter
      simp only [hexit, Bool.false_or, Bool.not_eq_false'] at hafter
      exact h payload rest hfirst hexit hw hafter
  · rw [hstep]
    refine iff_of_true (fun _ => hnone) ?_
    intro payload rest hfirst
    rw [hnone] at hfirst
    cases hfirst
  · refine iff_of_true (fun hafter => ?_) ?_
    · rw [htrue] at hafter
      cases hafter
    · intro payload rest hfirst _ hw _
      exact absurd ⟨hw, by simp [hfirst]⟩ hbad

def recorder : Dispatch (List Bytes) := fun l p => (l ++ [p], true)

structure ControlStep (σ : Type) where
  before : Connection σ
  call : ReadCall
  after : Connection σ

inductive ControlRun (dispatch : Dispatch σ) (s : σ) : List (ControlStep σ) → Connection σ → Prop
  | nil : ControlRun dispatch s [] ⟨[], s, false⟩
  | snoc {log : List (ControlStep σ)} {c : Connection σ} (earlier : ControlRun dispatch s log c)
      (call : ReadCall) :
      ControlRun dispatch s (log ++ [⟨c, call, canonizationserviceControlRead dispatch call c⟩])
        (canonizationserviceControlRead dispatch call c)

theorem ControlRun.after_eq {s : σ} {log : List (ControlStep σ)} {c : Connection σ}
    (h : ControlRun dispatch s log c) :
    ∀ t ∈ log, t.after = canonizationserviceControlRead dispatch t.call t.before := by
  induction h with
  | nil => simp
  | snoc earlier call ih =>
    intro t ht
    rcases List.mem_append.mp ht with ht | ht
    · exact ih t ht
    · rw [List.mem_singleton.mp ht]

/-- A callback of the data service that returns without an exit has dispatched every complete packet
and leaves none. In every run of the control socket's callbacks, none leaves a complete packet
behind if and only if each finds at most one. -/
theorem packets_stranded_iff :
    (∀ calls (c : Connection σ), (dataserviceIpcRead dispatch calls c).1.forceExit = false →
      firstPacket (dataserviceIpcRead dispatch calls c).1.readbuf = none ∧
      ∃ bytes, received calls = bytes ++ received (dataserviceIpcRead dispatch calls c).2 ∧
        (dataserviceIpcRead dispatch calls c).1.service =
          dispatchAll dispatch c.service (parse firstPacket (c.readbuf ++ bytes)).1) ∧
    ∀ (s : σ) log c, ControlRun dispatch s log c →
      ((∀ t ∈ log, t.after.forceExit = false → firstPacket t.after.readbuf = none) ↔
        ∀ t ∈ log, Single dispatch t.call t.before) := by
  constructor
  · intro calls c hexit
    unfold dataserviceIpcRead at hexit ⊢
    by_cases hforce : c.forceExit = true
    · rw [if_pos hforce, hforce] at hexit
      cases hexit
    · rw [if_neg hforce] at hexit ⊢
      obtain ⟨bytes, hbytes, hservice, hbuf⟩ := readLoop_dispatches dispatch calls c hexit
      refine ⟨?_, bytes, hbytes, hservice⟩
      rw [hbuf]
      exact next_parse firstPacket_incremental _
  · intro s log c hrun
    refine forall₂_congr fun t ht => ?_
    rw [hrun.after_eq t ht]
    exact controlRead_strands_iff dispatch t.call t.before

theorem single_command_is_not_stranded : ∃ log c, ControlRun recorder [] log c ∧
    log.map (fun t => t.call.read) = [.data (packet [1])] ∧ c.service = [[1]] ∧
    ∀ t ∈ log, t.after.forceExit = false → firstPacket t.after.readbuf = none := by
  have hnil : ControlRun recorder [] [] ⟨[], [], false⟩ := .nil
  refine ⟨_, _, hnil.snoc (workingRead (.data (packet [1]))), rfl, by decide, ?_⟩
  apply (packets_stranded_iff.2 _ _ _ (hnil.snoc (workingRead (.data (packet [1]))))).mpr
  intro t ht payload rest hfirst _ _ _
  have hempty : firstPacket ([] ++ packet [1]) = some ([1], []) := by decide
  rw [List.mem_singleton.mp ht] at hfirst
  obtain ⟨-, rfl⟩ := Prod.mk.inj (Option.some.inj (hempty.symm.trans hfirst))
  rfl

/-- Two packets that arrive together on the control socket: the second is left in the buffer. -/
theorem coalesced_command_is_stranded : ¬ ∀ (σ : Type) (dispatch : Dispatch σ) (s : σ) log c,
    ControlRun dispatch s log c →
      ∀ t ∈ log, t.after.forceExit = false → firstPacket t.after.readbuf = none := by
  intro hall
  have hnil : ControlRun recorder [] [] ⟨[], [], false⟩ := .nil
  have hnone := hall _ _ _ _ _ (hnil.snoc (workingRead (.data (packet [1] ++ packet [2])))) _
    (List.mem_singleton.mpr rfl) (by decide)
  exact absurd hnone (by decide)

end Callbacks

/-! ### Whole streams -/

def bytesOf (reads : List EvbufferRead) : Bytes := reads.flatMap EvbufferRead.bytes

/-- The number of packets that lie within the first `n` bytes of the stream. -/
def completed : List Bytes → ℕ → ℕ
  | [], _ => 0
  | p :: ps, n => if (packet p).length ≤ n then completed ps (n - (packet p).length) + 1 else 0

/-- However many reads before the end are looked at, no more packets than that get their last byte
in them. -/
def Paced (payloads : List Bytes) (reads : List EvbufferRead) : Prop :=
  ∀ j ≤ reads.length, payloads.length + j ≤
    completed payloads (bytesOf (reads.take j)).length + reads.length

instance (payloads : List Bytes) (reads : List EvbufferRead) : Decidable (Paced payloads reads) :=
  inferInstanceAs (Decidable (∀ j ≤ reads.length, payloads.length + j ≤
    completed payloads (bytesOf (reads.take j)).length + reads.length))

structure PacedFrom (n : ℕ) (payloads : List Bytes) (reads : List EvbufferRead) : Prop where
  enough : payloads.length ≤ reads.length
  paced : ∀ j ≤ reads.length, payloads.length + j ≤
    completed payloads (n + (bytesOf (reads.take j)).length) + reads.length

section Streams

variable {payloads : List Bytes} {r : EvbufferRead} {reads : List EvbufferRead} {n : ℕ}

theorem completed_zero (payloads : List Bytes) : completed payloads 0 = 0 := by
  cases payloads with
  | nil => rfl
  | cons p ps =>
    rw [completed, if_neg]
    rw [length_packet, headerSize]
    omega

theorem paced_iff : Paced payloads reads ↔ PacedFrom 0 payloads reads := by
  constructor
  · intro h
    refine ⟨?_, fun j hj => by simpa using h j hj⟩
    simpa [bytesOf, completed_zero] using h 0 (Nat.zero_le _)
  · intro h j hj
    simpa using h.paced j hj

/-- A read that completes no packet. -/
theorem pacedFrom_wait (hnone : completed payloads (n + r.bytes.length) = 0) :
    PacedFrom n payloads (r :: reads) ↔ PacedFrom (n + r.bytes.length) payloads reads := by
  have hbytes : ∀ j, n + (bytesOf ((r :: reads).take (j + 1))).length =
      n + r.bytes.length + (bytesOf (reads.take j)).length := by
    intro j
    simp only [bytesOf, List.take_succ_cons, List.flatMap_cons, List.length_append]
    omega
  constructor
  · intro h
    have hpaced : ∀ j ≤ reads.length, payloads.length + j ≤
        completed payloads (n + r.bytes.length + (bytesOf (reads.take j)).length) +
          reads.length := by
      intro j hj
      have hstep := h.paced (j + 1) (by simpa using hj)
      rw [hbytes, List.length_cons] at hstep
      omega
    refine ⟨?_, hpaced⟩
    have hzero := hpaced 0 (Nat.zero_le _)
    simpa [bytesOf, hnone] using hzero
  · intro h
    have henough := h.enough
    refine ⟨by rw [List.length_cons]; omega, fun j hj => ?_⟩
    cases j with
    | zero => simp only [List.length_cons]; omega
    | succ j =>
      have hstep := h.paced j (by simpa using hj)
      rw [hbytes, List.length_cons]
      omega

/-- A read after which the packet at the front is complete and taken. -/
theorem pacedFrom_take {p : Bytes} (hfull : (packet p).length ≤ n + r.bytes.length) :
    PacedFrom n (p :: payloads) (r :: reads) ↔
      PacedFrom (n + r.bytes.length - (packet p).length) payloads reads := by
  have hcount : ∀ j, completed (p :: payloads) (n + (bytesOf ((r :: reads).take (j + 1))).length) =
      completed payloads (n + r.bytes.length - (packet p).length +
        (bytesOf (reads.take j)).length) + 1 := by
    intro j
    simp only [bytesOf, List.take_succ_cons, List.flatMap_cons, List.length_append]
    rw [completed, if_pos (by omega)]
    congr 2
    omega
  constructor
  · intro h
    have henough := h.enough
    simp only [List.length_cons] at henough
    refine ⟨by omega, fun j hj => ?_⟩
    have hstep := h.paced (j + 1) (by simpa using hj)
    rw [hcount, List.length_cons, List.length_cons] at hstep
    omega
  · intro h
    have henough := h.enough
    refine ⟨by simp only [List.length_cons]; omega, fun j hj => ?_⟩
    cases j with
    | zero => simp only [List.length_cons]; omega
    | succ j =>
      have hstep := h.paced j (by simpa using hj)
      rw [hcount, List.length_cons, List.length_cons]
      omega

/-! ### Read by read -/

/-- The reads of a stream one by one, whichever callback makes them, until one reports an error. -/
def readAll : List ReadCall → Connection (List Bytes) → Connection (List Bytes)
  | [], c => c
  | call :: calls, c =>
    if c.forceExit then c else readAll calls (readAndDispatch recorder call c).2

theorem readAll_exited {c : Connection (List Bytes)} (h : c.forceExit = true)
    (calls : List ReadCall) : readAll calls c = c := by
  cases calls with
  | nil => rfl
  | cons call calls => rw [readAll, if_pos h]

/-- The reads of a stream whose end comes last. -/
def stream (reads : List EvbufferRead) : List ReadCall :=
  (reads ++ [EvbufferRead.eof]).map workingRead

def Ordinary (reads : List EvbufferRead) : Prop := ∀ r ∈ reads, r ≠ .failed ∧ r ≠ .eof

instance (reads : List EvbufferRead) : Decidable (Ordinary reads) :=
  inferInstanceAs (Decidable (∀ r ∈ reads, r ≠ .failed ∧ r ≠ .eof))

theorem readAndDispatch_ordinary (hr : r ≠ .failed ∧ r ≠ .eof) (c : Connection (List Bytes)) :
    ipcReadDataNoblock (workingRead r) c.readbuf =
      takePacket (workingRead r) (c.readbuf ++ r.bytes) := by
  cases r with
  | data chunk => rfl
  | wouldBlock => simp [ipcReadDataNoblock, workingRead, EvbufferRead.bytes]
  | failed => exact absurd rfl hr.1
  | eof => exact absurd rfl hr.2

/-- The buffer is a piece of the stream of packets still to be delivered: the reader takes the first
of them or waits for it. -/
theorem readAndDispatch_piece (hr : r ≠ .failed ∧ r ≠ .eof) {c : Connection (List Bytes)}
    (hrun : c.forceExit = false) (hsend : ∀ p ∈ payloads, Sendable p) {missing : Bytes}
    (hbuf : c.readbuf ++ r.bytes ++ missing = payloads.flatMap packet) :
    (completed payloads (c.readbuf.length + r.bytes.length) = 0 ∧
      readAndDispatch recorder (workingRead r) c =
        (false, ⟨c.readbuf ++ r.bytes, c.service, false⟩)) ∨
    ∃ p ps rest, payloads = p :: ps ∧ c.readbuf ++ r.bytes = packet p ++ rest ∧
      readAndDispatch recorder (workingRead r) c = (true, ⟨rest, c.service ++ [p], false⟩) := by
  have hread := readAndDispatch_ordinary hr c
  have hlen : (c.readbuf ++ r.bytes).length = c.readbuf.length + r.bytes.length :=
    List.length_append
  cases payloads with
  | nil =>
    left
    have hempty : c.readbuf ++ r.bytes = [] := (List.append_eq_nil_iff.mp hbuf).1
    refine ⟨rfl, ?_⟩
    rw [hempty] at hread
    have hwait : takePacket (workingRead r) [] = (.error .wouldBlock, []) := rfl
    simp only [readAndDispatch, hread, hwait, hempty, hrun]
  | cons p ps =>
    have hp := hsend p (by simp)
    rw [List.flatMap_cons] at hbuf
    by_cases hfull : (packet p).length ≤ c.readbuf.length + r.bytes.length
    · right
      rw [← hlen] at hfull
      obtain ⟨rest, hrest⟩ : ∃ rest, c.readbuf ++ r.bytes = packet p ++ rest := by
        have hprefix : c.readbuf ++ r.bytes <+: packet p ++ ps.flatMap packet := ⟨missing, hbuf⟩
        obtain ⟨rest, hrest⟩ :=
          List.prefix_of_prefix_length_le (List.prefix_append _ _) hprefix hfull
        exact ⟨rest, hrest.symm⟩
      refine ⟨p, ps, rest, rfl, hrest, ?_⟩
      have htake : takePacket (workingRead r) (packet p ++ rest) = (.ok p, rest) :=
        takePacket_ok_iff.mpr ⟨firstPacket_packet hp rest, rfl, rfl, rfl⟩
      rw [hrest, htake] at hread
      simp [readAndDispatch, hread, recorder, hrun]
    · left
      refine ⟨by rw [completed, if_neg hfull], ?_⟩
      rw [← hlen, not_le] at hfull
      rw [takePacket_waits hp (workingRead r) hbuf hfull] at hread
      simp only [readAndDispatch, hread, hrun]

/-- What the reads of a stream deliver before the end of it is reported. -/
theorem readAll_delivers (hord : Ordinary reads) {c : Connection (List Bytes)}
    (hrun : c.forceExit = false) (hsend : ∀ p ∈ payloads, Sendable p)
    (hbytes : c.readbuf ++ bytesOf reads = payloads.flatMap packet) :
    ∃ ds, ds <+: payloads ∧ (readAll (stream reads) c).service = c.service ++ ds ∧
      (readAll (stream reads) c).forceExit = true ∧
      (ds = payloads ↔ PacedFrom c.readbuf.length payloads reads) := by
  induction reads generalizing c payloads with
  | nil =>
    have heof : readAll (stream []) c = { c with forceExit := true } := by
      simp [stream, readAll, hrun, readAndDispatch, ipcReadDataNoblock, workingRead]
    refine ⟨[], List.nil_prefix, by rw [heof, List.append_nil], by rw [heof], ?_⟩
    constructor
    · rintro rfl
      exact ⟨le_rfl, fun j hj => by simp only [List.length_nil] at *; omega⟩
    · intro h
      exact (List.length_eq_zero_iff.mp (Nat.le_zero.mp h.enough)).symm
  | cons r reads ih =>
    have hstep : readAll (stream (r :: reads)) c =
        readAll (stream reads) (readAndDispatch recorder (workingRead r) c).2 := by
      rw [stream, List.cons_append, List.map_cons, readAll, if_neg (by simp [hrun])]
      rfl
    have hord' : Ordinary reads := fun r' hr' => hord r' (List.mem_cons_of_mem r hr')
    have hcons : bytesOf (r :: reads) = r.bytes ++ bytesOf reads := List.flatMap_cons
    rw [hcons, ← List.append_assoc] at hbytes
    rw [hstep]
    rcases readAndDispatch_piece (hord r (by simp)) hrun hsend hbytes with
      ⟨hnone, hwait⟩ | ⟨p, ps, rest, rfl, hfront, htake⟩
    · obtain ⟨ds, hpre, hserv, hexit, hiff⟩ :=
        ih (c := ⟨c.readbuf ++ r.bytes, c.service, false⟩) hord' rfl hsend hbytes
      rw [hwait]
      refine ⟨ds, hpre, hserv, hexit, ?_⟩
      rw [hiff, pacedFrom_wait hnone, List.length_append]
    · have hrest : rest ++ bytesOf reads = ps.flatMap packet := by
        rw [hfront, List.flatMap_cons, List.append_assoc] at hbytes
        exact List.append_cancel_left hbytes
      obtain ⟨ds, hpre, hserv, hexit, hiff⟩ :=
        ih (c := ⟨rest, c.service ++ [p], false⟩) hord' rfl
          (fun q hq => hsend q (List.mem_cons_of_mem p hq)) hrest
      have hlen : c.readbuf.length + r.bytes.length = (packet p).length + rest.length := by
        rw [← List.length_append, hfront, List.length_append]
      rw [htake]
      refine ⟨p :: ds, List.cons_prefix_cons.mpr ⟨rfl, hpre⟩, ?_, hexit, ?_⟩
      · rw [hserv, List.append_assoc, List.singleton_append]
      · rw [pacedFrom_take (by omega), List.cons.injEq, hiff, hlen, Nat.add_sub_cancel_left]
        exact ⟨fun h => h.2, fun h => ⟨rfl, h⟩⟩

end Streams

/-! ### Callback by callback -/

/-- Callbacks of the data service until the reads are used up or the service leaves its event
loop. -/
inductive Callbacks {σ : Type} (dispatch : Dispatch σ) :
    Connection σ → List ReadCall → Connection σ → Prop
  | done (c : Connection σ) : Callbacks dispatch c [] c
  | exited {c : Connection σ} (calls : List ReadCall) (exit : c.forceExit = true) :
      Callbacks dispatch c calls c
  | next {c c' : Connection σ} {calls : List ReadCall} (readable : calls ≠ [])
      (running : c.forceExit = false)
      (later : Callbacks dispatch (dataserviceIpcRead dispatch calls c).1
        (dataserviceIpcRead dispatch calls c).2 c') : Callbacks dispatch c calls c'

section CallbackRuns

variable {payloads : List Bytes} {reads : List EvbufferRead}

theorem length_readLoop {σ : Type} (dispatch : Dispatch σ) (calls : List ReadCall)
    (c : Connection σ) : (readLoop dispatch calls c).2.length ≤ (nextCall calls).2.length := by
  induction calls, c using readLoop.induct dispatch with
  | case1 calls c hgo ih =>
    rw [readLoop, if_pos hgo]
    refine ih.trans ?_
    cases (nextCall calls).2 <;> simp [nextCall]
  | case2 calls c hstop => rw [readLoop, if_neg hstop]

theorem exists_callbacks {σ : Type} (dispatch : Dispatch σ) (calls : List ReadCall)
    (c : Connection σ) : ∃ c', Callbacks dispatch c calls c' := by
  induction hn : calls.length using Nat.strongRecOn generalizing calls c with
  | ind n ih =>
    cases calls with
    | nil => exact ⟨c, .done c⟩
    | cons call calls =>
      cases hrun : c.forceExit with
      | true => exact ⟨c, .exited _ hrun⟩
      | false =>
        have hlen := length_readLoop dispatch (call :: calls) c
        have hread : dataserviceIpcRead dispatch (call :: calls) c =
            readLoop dispatch (call :: calls) c := by
          rw [dataserviceIpcRead, if_neg (by simp [hrun])]
        obtain ⟨c', hc'⟩ := ih _ (by simp only [nextCall, List.length_cons] at hlen hn; omega)
          (readLoop dispatch (call :: calls) c).2 (readLoop dispatch (call :: calls) c).1 rfl
        exact ⟨c', .next (by simp) hrun (by rw [hread]; exact hc')⟩

theorem readAndDispatch_running {call : ReadCall} {c : Connection (List Bytes)}
    (hrun : c.forceExit = false) (h : (readAndDispatch recorder call c).1 = true) :
    (readAndDispatch recorder call c).2.forceExit = false ∧ call.read ≠ .eof := by
  rcases readAndDispatch_cases recorder call c with ⟨hw, p, rest, -, hstep⟩ | ⟨-, hstep⟩ |
    ⟨-, hfail, -⟩
  · rw [hstep]
    exact ⟨by simp [recorder, hrun], hw.notEof⟩
  · rw [hstep] at h
    cases h
  · rw [hfail] at h
    cases h

/-- A callback makes some of the reads and leaves the others to the next one. -/
theorem readAll_readLoop (calls : List ReadCall) (c : Connection (List Bytes))
    (hrun : c.forceExit = false) (reads : List EvbufferRead) (hcalls : calls = stream reads) :
    readAll (readLoop recorder calls c).2 (readLoop recorder calls c).1 = readAll calls c ∧
      ((readLoop recorder calls c).1.forceExit = true ∨
        ∃ later, (readLoop recorder calls c).2 = stream later) := by
  induction calls, c using readLoop.induct recorder generalizing reads with
  | case1 calls c hgo ih =>
    subst hcalls
    rw [readLoop, if_pos hgo]
    obtain ⟨hrun', hne⟩ := readAndDispatch_running hrun hgo.1
    cases reads with
    | nil => exact absurd rfl hne
    | cons r reads =>
      obtain ⟨hall, hlater⟩ := ih hrun' reads rfl
      refine ⟨?_, hlater⟩
      rw [hall]
      simp only [stream, List.cons_append, List.map_cons, nextCall, readAll, hrun,
        Bool.false_eq_true, if_false]
  | case2 calls c hstop =>
    subst hcalls
    rw [readLoop, if_neg hstop]
    cases reads with
    | nil =>
      refine ⟨?_, Or.inl ?_⟩
      · simp [stream, nextCall, readAll, hrun]
      · simp [stream, nextCall, readAndDispatch, ipcReadDataNoblock, workingRead]
    | cons r reads =>
      refine ⟨?_, Or.inr ⟨reads, rfl⟩⟩
      simp [stream, nextCall, readAll, hrun]

theorem callbacks_eq_readAll {c c' : Connection (List Bytes)} {calls : List ReadCall}
    (h : Callbacks recorder c calls c')
    (hcalls : c.forceExit = true ∨ ∃ reads, calls = stream reads) :
    c' = readAll calls c := by
  induction h with
  | done c => rfl
  | exited calls hexit => exact (readAll_exited hexit calls).symm
  | @next c c' calls _ hrun later ih =>
    obtain ⟨reads, hreads⟩ := hcalls.resolve_left (by simp [hrun])
    have hread : dataserviceIpcRead recorder calls c = readLoop recorder calls c := by
      rw [dataserviceIpcRead, if_neg (by simp [hrun])]
    obtain ⟨hall, hlater⟩ := readAll_readLoop calls c hrun reads hreads
    rw [hread] at ih
    rw [ih hlater, hall]

inductive Written : List Bytes → Bytes → Prop
  | nil : Written [] []
  | noblock {payloads : List Bytes} {out out' payload : Bytes} (earlier : Written payloads out)
      (sent : ipcWriteDataNoblock none out payload = (.ok (), out')) :
      Written (payloads ++ [payload]) out'
  | block {payloads : List Bytes} {out out' payload : Bytes} (earlier : Written payloads out)
      (accepted : ℕ) (sent : ipcWriteDataBlock accepted out payload = (.ok (), out')) :
      Written (payloads ++ [payload]) out'

theorem Written.eq_flatMap {out : Bytes} (h : Written payloads out) :
    out = payloads.flatMap packet := by
  induction h with
  | nil => rfl
  | noblock earlier sent ih =>
    rw [ipcWriteDataNoblock] at sent
    rw [← (Prod.mk.inj sent).2, ih, List.flatMap_append, List.flatMap_singleton]
  | block earlier accepted sent ih =>
    unfold ipcWriteDataBlock at sent
    split at sent
    · cases sent
    · rw [← (Prod.mk.inj sent).2, ih, List.flatMap_append, List.flatMap_singleton]

def newConnection : Connection (List Bytes) := ⟨[], [], false⟩

/-- Written payloads whose bytes arrive in any pieces: the callbacks deliver a first part of them,
in order, and then report the end of the stream. It is all of them if and only if the packets are
paced: none is still in the buffer when the end is read. -/
theorem stream_delivered_iff_paced {out : Bytes} (hout : Written payloads out)
    (hsend : ∀ p ∈ payloads, Sendable p) (hord : Ordinary reads) (hbytes : bytesOf reads = out) :
    ∃ c, Callbacks recorder newConnection (stream reads) c ∧
      (∀ c', Callbacks recorder newConnection (stream reads) c' → c' = c) ∧
      c.forceExit = true ∧ c.service <+: payloads ∧
      (c.service = payloads ↔ Paced payloads reads) := by
  obtain ⟨c, hc⟩ := exists_callbacks recorder (stream reads) newConnection
  have hsame : ∀ c', Callbacks recorder newConnection (stream reads) c' →
      c' = readAll (stream reads) newConnection :=
    fun c' hc' => callbacks_eq_readAll hc' (Or.inr ⟨reads, rfl⟩)
  obtain ⟨ds, hpre, hserv, hexit, hiff⟩ := readAll_delivers (c := newConnection) hord rfl hsend
    (by rw [hbytes, hout.eq_flatMap]; rfl)
  obtain rfl := hsame c hc
  have hds : (readAll (stream reads) newConnection).service = ds := by
    rw [hserv]
    rfl
  rw [← hds] at hpre hiff
  refine ⟨_, hc, hsame, hexit, hpre, ?_⟩
  rw [paced_iff]
  exact hiff

def splitReads : List EvbufferRead :=
  [.data (packet [1] ++ (packet [2]).take 3), .wouldBlock, .data ((packet [2]).drop 3)]

theorem split_stream_is_delivered :
    ∃ c, Callbacks recorder newConnection (stream splitReads) c ∧ c.service = [[1], [2]] := by
  have hone : Written [[1]] (packet [1]) := .noblock .nil rfl
  have htwo : Written [[1], [2]] (packet [1] ++ packet [2]) := .block hone 9 rfl
  have hord : Ordinary splitReads := by decide
  obtain ⟨c, hc, -, -, -, hiff⟩ := stream_delivered_iff_paced htwo (by decide) hord (by decide)
  exact ⟨c, hc, hiff.mpr (by decide)⟩

/-- Two payloads in one read, and then the end: the second one is not delivered. -/
theorem coalesced_packet_is_lost : ¬ ∀ payloads out reads, Written payloads out →
    (∀ p ∈ payloads, Sendable p) → Ordinary reads → bytesOf reads = out →
    ∃ c, Callbacks recorder newConnection (stream reads) c ∧ c.service = payloads := by
  intro hall
  have hone : Written [[1]] (packet [1]) := .noblock .nil rfl
  have htwo : Written [[1], [2]] (packet [1] ++ packet [2]) := .noblock hone rfl
  obtain ⟨c, hc, hserv⟩ := hall _ _ [.data (packet [1] ++ packet [2])] htwo (by decide) (by decide)
    (by decide)
  rw [callbacks_eq_readAll hc (Or.inr ⟨_, rfl⟩)] at hserv
  exact absurd hserv (by decide)

end CallbackRuns

end PacketDelivery
