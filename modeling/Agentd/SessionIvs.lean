import Agentd.HandshakeSteps

/-! # Initialization vectors of a session

The packets that are encrypted for a client and those that are read from it are counted, each side
in its own half of the numbers. A vector is used twice where a write that has failed does not move
the counter on, and where a read that has failed is taken for one that has not. -/
namespace SessionIvs

open ByteString
open ClientProtocol
open ProtocolFiber
open HandshakeSteps

variable {E : Env} {s : Connection} {k t : Context} {o : HandshakeOutcome} {a : Action}

/-! ### Vectors in a log -/

def serverIv? : Event → Option (BitVec 64)
  | .writeAuthed iv _ _ true => some iv
  | _ => none

def serverIvs (log : List Event) : List (BitVec 64) := log.filterMap serverIv?

def clientIv? : Event → Option (BitVec 64)
  | .readAuthed iv _ _ _ => some iv
  | _ => none

/-- The vectors with which packets of the client were decrypted, or were tried to be. -/
def clientIvs (log : List Event) : List (BitVec 64) := log.filterMap clientIv?

def isSend : Event → Bool
  | .writeAuthed .. => true
  | _ => false

def sends (log : List Event) : ℕ := log.countP isSend

def NoReuse (log : List Event) : Prop :=
  (serverIvs log).Nodup ∧ (clientIvs log).Pairwise (· < ·)

/-! ### The condition -/

/-- A read of the acknowledgement that fails leaves nothing in its output, or the cleanup fails too;
and the response is not encrypted a second time after it was encrypted and not written. -/
def HandshakeFresh (o : HandshakeOutcome) : Prop :=
  (o.ack.left = none ∨ o.ackReclaim ≠ none) ∧
  (o.ackRespWrite.retval ≠ none → o.ackRespWrite.encrypted = true →
    o.ackRespErrorWrite.encrypted = false)

/-- The counters do not come round. -/
def Fresh (s : Connection) : Action → Prop
  | .handshake o => HandshakeFresh o
  | .turn _ => (clientIvs s.context.log).length < 2 ^ 64 - 1
  | .write _ _ => sends s.context.log < 2 ^ 64
  | _ => True

/-! ### Counting -/

structure ServerCounted (k : Context) (m : ℕ) : Prop where
  counter : k.serverIv = initialServerIv + BitVec.ofNat 64 m
  sends : m ≤ sends k.log
  behind : ∀ iv ∈ serverIvs k.log, ∃ i < m, iv = initialServerIv + BitVec.ofNat 64 i

structure ClientCounted (k : Context) (r : ℕ) : Prop where
  counter : k.clientIv = BitVec.ofNat 64 (r + 1)
  reads : (clientIvs k.log).length = r
  behind : ∀ iv ∈ clientIvs k.log, iv.toNat ≤ r

theorem add_ofNat_inj {iv : BitVec 64} {i m : ℕ} (hi : i < m) (hm : m < 2 ^ 64) :
    iv + BitVec.ofNat 64 m ≠ iv + BitVec.ofNat 64 i := by
  intro heq
  have hnat := congrArg BitVec.toNat (BitVec.add_right_inj iv |>.mp heq)
  simp only [BitVec.toNat_ofNat] at hnat
  rw [Nat.mod_eq_of_lt hm, Nat.mod_eq_of_lt (by omega)] at hnat
  omega

theorem serverIvs_append (log log' : List Event) :
    serverIvs (log ++ log') = serverIvs log ++ serverIvs log' := List.filterMap_append

theorem clientIvs_append (log log' : List Event) :
    clientIvs (log ++ log') = clientIvs log ++ clientIvs log' := List.filterMap_append

theorem sends_append (log log' : List Event) : sends (log ++ log') = sends log + sends log' :=
  List.countP_append ..

theorem serverIvs_write (payload : Bytes) (w : AuthedWrite) :
    serverIvs (psockWriteAuthedData k payload w).1.log =
      serverIvs k.log ++ if w.encrypted then [k.serverIv] else [] := by
  simp only [psockWriteAuthedData, record, serverIvs_append]
  cases w.encrypted with
  | true => rfl
  | false => rfl

/-- A packet is encrypted with the counter, and the counter goes on. -/
theorem ServerCounted.write {m : ℕ} (hk : ServerCounted k m) (hnodup : (serverIvs k.log).Nodup)
    (hm : m < 2 ^ 64) (payload : Bytes) (w : AuthedWrite) :
    ServerCounted (advanceServerIv (psockWriteAuthedData k payload w).1) (m + 1) ∧
      (serverIvs (psockWriteAuthedData k payload w).1.log).Nodup := by
  obtain ⟨hcounter, hsends, hbehind⟩ := hk
  have hfresh : k.serverIv ∉ serverIvs k.log := by
    intro hmem
    obtain ⟨i, hi, heq⟩ := hbehind _ hmem
    rw [hcounter] at heq
    exact add_ofNat_inj hi hm heq
  have hlog := serverIvs_write (k := k) payload w
  refine ⟨⟨?_, ?_, ?_⟩, ?_⟩
  · simp only [advanceServerIv, psockWriteAuthedData, record, hcounter]
    rw [BitVec.ofNat_add, BitVec.add_assoc]
    rfl
  · simp only [advanceServerIv, psockWriteAuthedData, record, sends_append]
    have hone : SessionIvs.sends [.writeAuthed k.serverIv k.sharedSecret payload w.encrypted] = 1 :=
      rfl
    omega
  · intro iv hiv
    have hiv' : iv ∈ serverIvs k.log ++ if w.encrypted then [k.serverIv] else [] := by
      rw [← hlog]
      exact hiv
    rcases List.mem_append.mp hiv' with hold | hnew
    · obtain ⟨i, hi, heq⟩ := hbehind iv hold
      exact ⟨i, by omega, heq⟩
    · refine ⟨m, by omega, ?_⟩
      rw [← hcounter]
      cases hencrypted : w.encrypted with
      | true => simpa [hencrypted] using hnew
      | false => simp [hencrypted] at hnew
  · rw [hlog]
    cases w.encrypted with
    | true =>
      rw [if_pos rfl, List.nodup_append]
      refine ⟨hnodup, List.nodup_singleton _, ?_⟩
      intro iv hiv iv' hiv' heq
      rw [List.mem_singleton.mp hiv'] at heq
      exact hfresh (heq ▸ hiv)
    | false => simpa using hnodup

theorem clientIvs_read {r : ℕ} (hk : ClientCounted k r)
    (hpairwise : (clientIvs k.log).Pairwise (· < ·))
    (hr : r < 2 ^ 64 - 1) (packet : Bytes) (payload : Option Bytes) :
    (clientIvs (k.log ++ [.readAuthed k.clientIv k.sharedSecret packet payload])).Pairwise
      (· < ·) := by
  rw [clientIvs_append, List.pairwise_append]
  refine ⟨hpairwise, List.pairwise_singleton .., ?_⟩
  intro iv hiv iv' hiv'
  rw [List.mem_singleton.mp hiv', hk.counter, BitVec.lt_def, BitVec.toNat_ofNat,
    Nat.mod_eq_of_lt (by omega)]
  have hle := hk.behind iv hiv
  omega

/-- A packet is read with the counter. -/
theorem ClientCounted.read {r : ℕ} (hk : ClientCounted k r) (hr : r < 2 ^ 64 - 1) (packet : Bytes)
    (payload : Option Bytes) :
    ClientCounted (advanceClientIv
      (record k (.readAuthed k.clientIv k.sharedSecret packet payload)))
      (r + 1) := by
  have hone : clientIvs [.readAuthed k.clientIv k.sharedSecret packet payload] = [k.clientIv] := rfl
  have hlog : clientIvs (k.log ++ [.readAuthed k.clientIv k.sharedSecret packet payload]) =
      clientIvs k.log ++ [k.clientIv] := by
    rw [clientIvs_append, hone]
  refine ⟨?_, ?_, ?_⟩
  · simp only [advanceClientIv, record, hk.counter]
    rw [BitVec.ofNat_add (r + 1) 1]
    rfl
  · simp only [advanceClientIv, record, hlog, List.length_append, hk.reads, List.length_singleton]
  · intro iv hiv
    simp only [advanceClientIv, record, hlog] at hiv
    rcases List.mem_append.mp hiv with hold | hnew
    · have hle := hk.behind iv hold
      omega
    · rw [List.mem_singleton.mp hnew, hk.counter, BitVec.toNat_ofNat, Nat.mod_eq_of_lt (by omega)]

/-! ### Events without a vector -/

def isQuiet (e : Event) : Bool := (serverIv? e).isNone && (clientIv? e).isNone && !isSend e

structure Quiet (k t : Context) : Prop where
  log : ∃ l, t.log = k.log ++ l ∧ ∀ e ∈ l, isQuiet e = true
  serverIv : t.serverIv = k.serverIv
  clientIv : t.clientIv = k.clientIv

theorem Quiet.refl (k : Context) : Quiet k k := ⟨⟨[], by simp, by simp⟩, rfl, rfl⟩

theorem quiet_record {e : Event} (he : isQuiet e = true) : Quiet k (record k e) :=
  ⟨⟨[e], rfl, by simpa using he⟩, rfl, rfl⟩

theorem ivs_of_quiet {l : List Event} (hl : ∀ e ∈ l, isQuiet e = true) :
    serverIvs l = [] ∧ clientIvs l = [] ∧ sends l = 0 := by
  induction l with
  | nil => exact ⟨rfl, rfl, rfl⟩
  | cons e l ih =>
    have he := hl e (List.mem_cons_self ..)
    obtain ⟨hserver, hclient, hsends⟩ := ih fun e he => hl e (List.mem_cons_of_mem _ he)
    simp only [isQuiet, Bool.and_eq_true, Option.isNone_iff_eq_none, Bool.not_eq_true'] at he
    obtain ⟨⟨hserverIv, hclientIv⟩, hsend⟩ := he
    refine ⟨?_, ?_, ?_⟩
    · rw [serverIvs, List.filterMap_cons_none hserverIv]
      exact hserver
    · rw [clientIvs, List.filterMap_cons_none hclientIv]
      exact hclient
    · rw [sends, List.countP_cons_of_neg (by simp [hsend])]
      exact hsends

theorem Quiet.ivs (h : Quiet k t) : serverIvs t.log = serverIvs k.log ∧
    clientIvs t.log = clientIvs k.log ∧ sends t.log = sends k.log := by
  obtain ⟨l, hlog, hl⟩ := h.log
  obtain ⟨hserver, hclient, hsends⟩ := ivs_of_quiet hl
  rw [hlog, serverIvs_append, clientIvs_append, sends_append, hserver, hclient, hsends]
  simp

theorem ServerCounted.quiet {m : ℕ} (hk : ServerCounted k m) (h : Quiet k t) :
    ServerCounted t m := by
  obtain ⟨hserver, _, hsends⟩ := h.ivs
  refine ⟨?_, ?_, ?_⟩
  · rw [h.serverIv]
    exact hk.counter
  · rw [hsends]
    exact hk.sends
  · rw [hserver]
    exact hk.behind

theorem ClientCounted.quiet {r : ℕ} (hk : ClientCounted k r) (h : Quiet k t) :
    ClientCounted t r := by
  obtain ⟨_, hclient, _⟩ := h.ivs
  refine ⟨?_, ?_, ?_⟩
  · rw [h.clientIv]
    exact hk.counter
  · rw [hclient]
    exact hk.reads
  · rw [hclient]
    exact hk.behind

theorem NoReuse.quiet (hk : NoReuse k.log) (h : Quiet k t) : NoReuse t.log := by
  obtain ⟨hserver, hclient, _⟩ := h.ivs
  rw [NoReuse, hserver, hclient]
  exact hk

/-- What the writes leave alone. -/
theorem clientIvs_write (payload : Bytes) (w : AuthedWrite) :
    clientIvs (psockWriteAuthedData k payload w).1.log = clientIvs k.log := by
  simp only [psockWriteAuthedData, record, clientIvs_append]
  exact List.append_nil _

theorem ClientCounted.write {r : ℕ} (hk : ClientCounted k r) (payload : Bytes) (w : AuthedWrite) :
    ClientCounted (advanceServerIv (psockWriteAuthedData k payload w).1) r := by
  refine ⟨hk.counter, ?_, ?_⟩
  · simp only [advanceServerIv]
    rw [clientIvs_write]
    exact hk.reads
  · simp only [advanceServerIv]
    rw [clientIvs_write]
    exact hk.behind

theorem NoReuse.write {m : ℕ} (hk : NoReuse k.log) (hserver : ServerCounted k m) (hm : m < 2 ^ 64)
    (payload : Bytes) (w : AuthedWrite) :
    NoReuse (advanceServerIv (psockWriteAuthedData k payload w).1).log := by
  refine ⟨(hserver.write hk.1 hm payload w).2, ?_⟩
  simp only [advanceServerIv]
  rw [clientIvs_write]
  exact hk.2

/-- What the reads leave alone. -/
theorem ServerCounted.read {m : ℕ} (hk : ServerCounted k m) (iv : BitVec 64) (packet : Bytes)
    (payload : Option Bytes) :
    ServerCounted (record k (.readAuthed iv k.sharedSecret packet payload)) m := by
  have hserver : serverIvs (k.log ++ [.readAuthed iv k.sharedSecret packet payload]) =
      serverIvs k.log := by
    rw [serverIvs_append]
    exact List.append_nil _
  refine ⟨hk.counter, ?_, ?_⟩
  · simp only [record, sends_append]
    exact Nat.le_add_right_of_le hk.sends
  · simp only [record, hserver]
    exact hk.behind

theorem ServerCounted.advance {m : ℕ} (hk : ServerCounted k m) :
    ServerCounted (advanceClientIv k) m := ⟨hk.counter, hk.sends, hk.behind⟩

theorem NoReuse.read {r : ℕ} (hk : NoReuse k.log) (hclient : ClientCounted k r)
    (hr : r < 2 ^ 64 - 1) (packet : Bytes) (payload : Option Bytes) :
    NoReuse (record k (.readAuthed k.clientIv k.sharedSecret packet payload)).log := by
  refine ⟨?_, clientIvs_read hclient hk.2 hr packet payload⟩
  simp only [record, serverIvs_append]
  rw [show serverIvs [.readAuthed k.clientIv k.sharedSecret packet payload] = [] from rfl,
    List.append_nil]
  exact hk.1

/-! ### The handshake -/

theorem isQuiet_of_isPlain {e : Event} (he : isPlain e = true) : isQuiet e = true := by
  cases e with
  | readAuthed => simp [isPlain] at he
  | writeAuthed => simp [isPlain] at he
  | readBoxed => rfl
  | writeBoxed => rfl
  | random => rfl
  | contextOpen => rfl
  | contextClose => rfl
  | dispatch => rfl

structure Counted (k : Context) : Prop where
  server : ∃ m, ServerCounted k m
  client : ∃ r, ClientCounted k r

theorem noReuse_of_plain (hk : k.log = []) (h : Plain k t) : NoReuse t.log := by
  obtain ⟨l, hlog, hl⟩ := h
  obtain ⟨hserver, hclient, _⟩ := ivs_of_quiet fun e he => isQuiet_of_isPlain (hl e he)
  rw [hk, List.nil_append] at hlog
  rw [NoReuse, hlog, hserver, hclient]
  exact ⟨List.nodup_nil, List.Pairwise.nil⟩

/-- Nothing was encrypted before the first response. -/
theorem counted_of_responded {request bytes payload : Bytes} {entity : Entity}
    (ht : Responded E request bytes payload entity t) :
    NoReuse t.log ∧ ServerCounted t 0 ∧ ClientCounted t 0 := by
  obtain ⟨hserver, hclient, hsends⟩ := ivs_of_quiet (l := t.log) (by rw [ht.log]; simp [isQuiet,
    serverIv?, clientIv?, isSend])
  refine ⟨?_, ⟨ht.agreed.serverIv, Nat.zero_le _, ?_⟩, ⟨ht.agreed.clientIv, ?_, ?_⟩⟩
  · rw [NoReuse, hserver, hclient]
    exact ⟨List.nodup_nil, List.Pairwise.nil⟩
  · simp [hserver]
  · simp [hclient]
  · simp [hclient]

/-- A write that failed after it had encrypted its packet, followed by one that does not encrypt. -/
theorem noReuse_of_write_then_error {m : ℕ} (hk : NoReuse k.log) (hserver : ServerCounted k m)
    (hm : m < 2 ^ 64) (payload payload' : Bytes) (w w' : AuthedWrite)
    (hfresh : w.encrypted = true → w'.encrypted = false) :
    NoReuse (psockWriteAuthedData (psockWriteAuthedData k payload w).1 payload' w').1.log := by
  have hclient : clientIvs (psockWriteAuthedData k payload w).1.log = clientIvs k.log :=
    clientIvs_write payload w
  cases hw : w.encrypted with
  | true =>
    have hfirst := hk.write hserver hm payload w
    refine ⟨?_, ?_⟩
    · rw [serverIvs_write, hfresh hw]
      simp only [Bool.false_eq_true, if_false, List.append_nil]
      exact hfirst.1
    · rw [clientIvs_write]
      exact hfirst.2
  | false =>
    have hserverIvs : serverIvs (psockWriteAuthedData k payload w).1.log = serverIvs k.log := by
      rw [serverIvs_write, hw]
      simp
    have hfirst : NoReuse (psockWriteAuthedData k payload w).1.log := by
      rw [NoReuse, hserverIvs, hclient]
      exact hk
    refine hfirst.write (m := m) ⟨hserver.counter, ?_, ?_⟩ hm payload' w'
    · simp only [psockWriteAuthedData, record, sends_append]
      exact Nat.le_add_right_of_le hserver.sends
    · rw [hserverIvs]
      exact hserver.behind

/-- A handshake that succeeds leaves counters that are ahead. -/
theorem handshake_counted (hk : k.log = []) (hfresh : HandshakeFresh o) :
    NoReuse (protocolHandleHandshake E o k).1.log ∧
      ((protocolHandleHandshake E o k).2 = none →
        Counted (protocolHandleHandshake E o k).1) := by
  rcases handshake_cases (E := E) (o := o) hk with
    ⟨e, he, hplain⟩ | ⟨t, request, bytes, payload, entity, ht, heq⟩
  · exact ⟨noReuse_of_plain hk hplain, fun hnone => by rw [he] at hnone; cases hnone⟩
  · obtain ⟨hreuse, hserver, hclient⟩ := counted_of_responded ht
    rw [heq]
    rcases ack_cases (E := E) (o := o) t with ⟨ack, _, hack⟩ | ⟨retval, hretval, hack⟩
    · rw [hack]
      simp only [after]
      have hread : NoReuse (advanceClientIv (record t (.readAuthed t.clientIv t.sharedSecret
          o.ack.packet (some ack)))).log :=
        hreuse.read hclient (by decide) o.ack.packet (some ack)
      have hclient' := hclient.read (by decide) o.ack.packet (some ack)
      have hserver' := (hserver.read t.clientIv o.ack.packet (some ack)).advance
      generalize advanceClientIv (record t (.readAuthed t.clientIv t.sharedSecret o.ack.packet
        (some ack))) = u at hread hserver' hclient' ⊢
      rcases ackResp_cases (o := o) u with ⟨_, hresp⟩ | ⟨e, e', hfail, hresp⟩
      · rw [hresp]
        refine ⟨hread.write hserver' (by decide) _ _, fun _ => ⟨⟨1, ?_⟩, ⟨1, ?_⟩⟩⟩
        · exact (hserver'.write hread.1 (by decide) _ _).1
        · exact hclient'.write _ _
      · rw [hresp]
        refine ⟨?_, fun hnone => by cases hnone⟩
        refine noReuse_of_write_then_error hread hserver' (by decide) _ _ _ _ ?_
        exact hfresh.2 (by rw [hfail]; exact Option.some_ne_none e)
    · cases retval with
      | none =>
        obtain ⟨hleft, hreclaim⟩ := hretval rfl
        exact absurd hfresh.1 (by
          rintro (hnone | hsome)
          · exact hleft hnone
          · exact hsome hreclaim)
      | some e =>
        rw [hack]
        refine ⟨?_, fun hnone => by cases hnone⟩
        have hread := hreuse.read hclient (by decide) o.ack.packet none
        exact hread.write (hserver.read t.clientIv o.ack.packet none) (by decide) _ _

/-! ### Packets -/

theorem quiet_dispatch (payload : Bytes) (closed : Bool) :
    Quiet k { record k (.dispatch payload) with reqShutdown := closed } :=
  ⟨⟨[.dispatch payload], rfl, by simp [isQuiet, serverIv?, clientIv?, isSend]⟩, rfl, rfl⟩

theorem turn_counted {m r : ℕ} (o : TurnOutcome) (hreuse : NoReuse k.log)
    (hserver : ServerCounted k m) (hclient : ClientCounted k r) (hr : r < 2 ^ 64 - 1) :
    NoReuse (protocolReadDecodeAndDispatchPacket E o k).1.log ∧
      ServerCounted (protocolReadDecodeAndDispatchPacket E o k).1 m ∧
      ((protocolReadDecodeAndDispatchPacket E o k).2 = none →
        ClientCounted (protocolReadDecodeAndDispatchPacket E o k).1 (r + 1)) := by
  have hread := fun payload => hreuse.read hclient hr o.read.packet payload
  have hserver' := fun payload => hserver.read k.clientIv o.read.packet payload
  have hclient' := fun payload => hclient.read hr o.read.packet payload
  rcases turn_cases (E := E) o k with ⟨e, heq⟩ | ⟨payload, e, _, heq⟩ | ⟨payload, retval, _, heq⟩
  · rw [heq]
    exact ⟨hread none, hserver' none, fun hnone => by cases hnone⟩
  · rw [heq]
    exact ⟨hread _, (hserver' _).advance, fun hnone => by cases hnone⟩
  · rw [heq]
    have hquiet := quiet_dispatch (k := advanceClientIv (record k (.readAuthed k.clientIv
      k.sharedSecret o.read.packet (some payload)))) payload (k.reqShutdown || o.closes)
    have hread' : NoReuse (advanceClientIv (record k (.readAuthed k.clientIv k.sharedSecret
        o.read.packet (some payload)))).log := hread _
    exact ⟨hread'.quiet hquiet, (hserver' _).advance.quiet hquiet,
      fun _ => (hclient' _).quiet hquiet⟩

/-! ### Runs -/

structure Invariant (s : Connection) : Prop where
  noReuse : NoReuse s.context.log
  unused : s.stage = .handshake → s.context.log = [] ∧ s.writing = false
  server : inSession s.stage = true ∨ s.writing = true → ∃ m, ServerCounted s.context m
  client : inSession s.stage = true → ∃ r, ClientCounted s.context r

theorem start_invariant : Invariant start where
  noReuse := ⟨List.nodup_nil, List.Pairwise.nil⟩
  unused _ := ⟨rfl, rfl⟩
  server h := by simp [start, inSession] at h
  client h := by simp [start, inSession] at h

theorem stageAfter_ne_handshake {stage : Stage} (h : stage ≠ .handshake) (retval : Retval) :
    stageAfter stage retval ≠ .handshake := by
  cases retval with
  | none => exact h
  | some e => exact Stage.noConfusion

theorem recordOpen_quiet (opened : Bool) : Quiet k (recordOpen k opened) := by
  cases opened with
  | true => exact quiet_record rfl
  | false => exact Quiet.refl k

theorem openContext_quiet (o : OpenOutcome) : Quiet k (requestDataServiceContext k o).1 := by
  cases o with
  | notSent e => exact Quiet.refl k
  | notReceived opened e => exact recordOpen_quiet opened
  | received opened release =>
    obtain ⟨hlog, hserver, hclient⟩ := recordOpen_quiet (k := k) opened
    exact ⟨hlog, hserver, hclient⟩

theorem closeContext_quiet (o : CloseOutcome) : Quiet k (closeDataServiceContext k o).1 := by
  cases o with
  | notSent e => exact Quiet.refl k
  | notReceived e => exact quiet_record rfl
  | received release =>
    exact ⟨⟨[.contextClose], rfl, by simp [isQuiet, serverIv?, clientIv?,
      isSend]⟩, rfl, rfl⟩

theorem next_invariant (hs : Invariant s) (henabled : Enabled s a) (hfresh : Fresh s a) :
    Invariant (next E s a) := by
  obtain ⟨hreuse, hunused, hserver, hclient⟩ := hs
  cases a with
  | handshake o =>
    obtain ⟨hlog, hwriting⟩ := hunused henabled
    obtain ⟨hreuse', hcounted⟩ := handshake_counted (E := E) (k := s.context) hlog hfresh
    cases hretval : (protocolHandleHandshake E o s.context).2 with
    | none =>
      have hafter := hcounted hretval
      refine ⟨hreuse', ?_, fun _ => hafter.server, fun _ => hafter.client⟩
      simp [next, hretval, stageAfter]
    | some e =>
      refine ⟨hreuse', ?_, ?_, ?_⟩
      · simp [next, hretval, stageAfter]
      · simp [next, hretval, stageAfter, inSession, hwriting]
      · simp [next, hretval, stageAfter, inSession]
  | openContext o =>
    have hopening : inSession s.stage = true := by rw [show s.stage = .opening from henabled]; rfl
    obtain ⟨m, hm⟩ := hserver (Or.inl hopening)
    obtain ⟨r, hr⟩ := hclient hopening
    have hquiet := openContext_quiet (k := s.context) o
    refine ⟨hreuse.quiet hquiet, ?_, fun _ => ⟨m, hm.quiet hquiet⟩, fun _ => ⟨r, hr.quiet hquiet⟩⟩
    intro hstage
    exact absurd hstage (stageAfter_ne_handshake (by decide) _)
  | addWriter retval =>
    have hadding : inSession s.stage = true := by rw [show s.stage = .adding from henabled]; rfl
    refine ⟨hreuse, ?_, fun _ => hserver (Or.inl hadding), fun _ => hclient hadding⟩
    intro hstage
    exact absurd hstage (stageAfter_ne_handshake (by decide) _)
  | turn o =>
    have hreading : inSession s.stage = true := by rw [show s.stage = .reading from henabled]; rfl
    obtain ⟨m, hm⟩ := hserver (Or.inl hreading)
    obtain ⟨r, hr⟩ := hclient hreading
    have hbound : r < 2 ^ 64 - 1 := by
      rw [← hr.reads]
      exact hfresh
    obtain ⟨hreuse', hserver', hclient'⟩ := turn_counted (E := E) o hreuse hm hr hbound
    cases hretval : (protocolReadDecodeAndDispatchPacket E o s.context).2 with
    | none =>
      refine ⟨hreuse', ?_, fun _ => ⟨m, hserver'⟩, fun _ => ⟨r + 1, hclient' hretval⟩⟩
      simp only [next, hretval]
      split
      · simp
      · simp
    | some e =>
      refine ⟨hreuse', ?_, fun _ => ⟨m, hserver'⟩, ?_⟩
      · simp [next, hretval]
      · simp [next, hretval, inSession]
  | shutdownWriter retval =>
    refine ⟨hreuse, ?_, ?_, ?_⟩
    · simp [next]
    · intro h
      refine hserver (Or.inr ?_)
      simpa [next, inSession] using h
    · simp [next, inSession]
  | write payload w =>
    obtain ⟨m, hm⟩ := hserver (Or.inr henabled)
    have hbound : m < 2 ^ 64 := Nat.lt_of_le_of_lt hm.sends hfresh
    refine ⟨hreuse.write hm hbound payload w, ?_,
      fun _ => ⟨m + 1, (hm.write hreuse.1 hbound payload w).1⟩, ?_⟩
    · intro hstage
      obtain ⟨_, hwriting⟩ := hunused hstage
      exact absurd (show s.writing = true from henabled) (by rw [hwriting]; decide)
    · intro hsession
      obtain ⟨r, hr⟩ := hclient hsession
      exact ⟨r, hr.write payload w⟩
  | writerFails =>
    refine ⟨hreuse, fun hstage => ⟨(hunused hstage).1, rfl⟩, ?_, hclient⟩
    intro h
    rcases h with hsession | hwriting
    · exact hserver (Or.inl hsession)
    · cases hwriting
  | writerStops =>
    refine ⟨hreuse, fun hstage => ⟨(hunused hstage).1, rfl⟩, ?_, hclient⟩
    intro h
    rcases h with hsession | hwriting
    · exact hserver (Or.inl hsession)
    · cases hwriting
  | release o =>
    have hquiet : Quiet s.context (if s.context.dataserviceContextOpened then
        (closeDataServiceContext s.context o).1 else s.context) := by
      split
      · exact closeContext_quiet o
      · exact Quiet.refl _
    obtain ⟨hgone, hwriting, _⟩ := henabled
    refine ⟨hreuse.quiet hquiet, ?_, ?_, ?_⟩
    · simp [next, hgone]
    · simp [next, hgone, inSession, hwriting]
    · simp [next, hgone, inSession]

theorem run_invariant (hrun : Run E Fresh s) : Invariant s := by
  induction hrun with
  | start => exact start_invariant
  | tail before enabled meets ih => exact next_invariant ih enabled meets

/-- No vector is used twice, as long as no step leaves a counter where it was. -/
theorem ivs_are_not_reused (hrun : Run E Fresh s) : NoReuse s.context.log :=
  (run_invariant hrun).noReuse

def servedActions : List Action :=
  [.handshake clientHandshake, .openContext (.received true none), .addWriter none,
    .turn (clientTurn 2 [0, 0, 0, 2, 0, 0, 0, 0]), .write [1] written]

def served : Connection := servedActions.foldl (next plainEnv) start

theorem served_ivs_are_not_reused :
    (serverIvs served.context.log = [initialServerIv, initialServerIv + 1] ∧
      clientIvs served.context.log = [1, 2]) ∧ NoReuse served.context.log := by
  have hallowed : Allowed plainEnv Fresh start servedActions := by
    refine ⟨rfl, ⟨Or.inl rfl, fun hfail => absurd rfl hfail⟩, ?_, trivial, ?_, trivial, ?_, ?_, ?_,
      ?_, trivial⟩
    · decide +kernel
    · decide +kernel
    · decide +kernel
    · show (clientIvs _).length < _
      decide +kernel
    · decide +kernel
    · show sends _ < _
      decide +kernel
  exact ⟨by decide +kernel, ivs_are_not_reused (run_of_allowed .start hallowed)⟩

/-- The answer to the acknowledgement is encrypted and not written, and so is the error response. -/
def answeredTwice : Connection :=
  next plainEnv start (.handshake { clientHandshake with ackRespWrite := encryptedOnly })

theorem failed_ack_response_reuses_its_iv :
    ¬ ∀ s : Connection, Run plainEnv (fun _ _ => True) s → NoReuse s.context.log := by
  intro hall
  have hrun : Run plainEnv (fun _ _ => True) answeredTwice := .tail .start rfl trivial
  have hivs : serverIvs answeredTwice.context.log = [initialServerIv, initialServerIv] := by
    decide +kernel
  have hnodup := (hall answeredTwice hrun).1
  rw [hivs] at hnodup
  revert hnodup
  decide

end SessionIvs
