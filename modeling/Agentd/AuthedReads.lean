import Agentd.AuthedPackets

/-! # Authenticated packets that arrive in fragments

What repeated calls of the reader for a socket that does not block return while a packet comes
in. -/
namespace AuthedReads

open ByteString
open IpcPackets
open TypedIpc
open AuthedPackets

variable {Key : Type} {S : CryptoSuite Key} {key : Key} {iv : BitVec 64}
  {s t u : ReadState} {sock sock' : Socket} {c : Bytes} {n : ℕ}

/-! ### Sockets -/

def arriving (sock : Socket) : Bytes := sock.flatMap EvbufferRead.bytes

/-- What it brings before anything else happens. -/
def flowing : Socket → Bytes
  | .data c :: rest => c ++ flowing rest
  | _ => []

/-- A socket that is open and works: it has data, or it would block. -/
def OnlyWaits (sock : Socket) : Prop := ∀ r ∈ sock, r = .wouldBlock ∨ ∃ c, r = .data c

/-- The stream that is not yet read: what is buffered and what arrives. -/
def unread (s : ReadState) : Bytes := s.readbuf ++ arriving s.sock

/-- What can be buffered before anything else happens. -/
def reach (s : ReadState) : ℕ := s.readbuf.length + (flowing s.sock).length

structure Brings (sock : Socket) (c : Bytes) (sock' : Socket) : Prop where
  ne_nil : c ≠ []
  flowing : flowing sock = c ++ flowing sock'
  arriving : arriving sock = c ++ arriving sock'
  waits : OnlyWaits sock → OnlyWaits sock'

theorem arriving_cons (r : EvbufferRead) (sock : Socket) :
    arriving (r :: sock) = r.bytes ++ arriving sock := List.flatMap_cons

theorem OnlyWaits.tail {r : EvbufferRead} (h : OnlyWaits (r :: sock)) : OnlyWaits sock :=
  fun r hr => h r (List.mem_cons_of_mem _ hr)

/-- One read brings at most what it asks for, or the socket has nothing to bring just then. -/
theorem evbufferRead_cases (hn : 0 < n) (sock : Socket) :
    (∃ c sock', evbufferRead n sock = (.data c, sock') ∧ c.length ≤ n ∧ Brings sock c sock') ∨
      (∃ r sock', evbufferRead n sock = (r, sock') ∧ (∀ c, r ≠ .data c) ∧ flowing sock = [] ∧
        arriving sock' = arriving sock ∧ (OnlyWaits sock → r = .wouldBlock ∧ OnlyWaits sock')) := by
  induction sock with
  | nil =>
    refine Or.inr ⟨.wouldBlock, [], rfl, ?_, rfl, rfl, fun h => ⟨rfl, h⟩⟩
    intro c h
    cases h
  | cons r rest ih =>
    cases r with
    | wouldBlock =>
      refine Or.inr ⟨.wouldBlock, rest, rfl, ?_, rfl, rfl, fun h => ⟨rfl, h.tail⟩⟩
      intro c h
      cases h
    | failed =>
      refine Or.inr ⟨.failed, rest, rfl, ?_, rfl, rfl, fun h => ?_⟩
      · intro c h
        cases h
      · rcases h _ List.mem_cons_self with heq | ⟨c, heq⟩
        · cases heq
        · cases heq
    | eof =>
      refine Or.inr ⟨.eof, .eof :: rest, rfl, ?_, rfl, rfl, fun h => ?_⟩
      · intro c h
        cases h
      · rcases h _ List.mem_cons_self with heq | ⟨c, heq⟩
        · cases heq
        · cases heq
    | data c =>
      cases c with
      | nil =>
        rcases ih with ⟨c, sock', hread, hle, hbrings⟩ | ⟨r, sock', hread, hr, hflow, harr, hwaits⟩
        · exact Or.inl ⟨c, sock', hread, hle, hbrings.ne_nil, hbrings.flowing, hbrings.arriving,
            fun h => hbrings.waits h.tail⟩
        · exact Or.inr ⟨r, sock', hread, hr, hflow, harr, fun h => hwaits h.tail⟩
      | cons x c =>
        left
        rw [evbufferRead]
        by_cases hfits : (x :: c).length ≤ n
        · rw [if_pos hfits]
          exact ⟨x :: c, rest, rfl, hfits, List.cons_ne_nil _ _, rfl, arriving_cons _ _,
            fun h => h.tail⟩
        · rw [if_neg hfits]
          have hsplit := List.take_append_drop n (x :: c)
          refine ⟨(x :: c).take n, .data ((x :: c).drop n) :: rest, rfl,
            List.length_take_le _ _, ?_, ?_, ?_, ?_⟩
          · rw [ne_eq, List.take_eq_nil_iff]
            rintro (hzero | hnil)
            · omega
            · cases hnil
          · rw [flowing, flowing, ← List.append_assoc, hsplit]
          · rw [arriving_cons, arriving_cons, ← List.append_assoc]
            exact congrArg (· ++ arriving rest) hsplit.symm
          · intro h r hr
            rcases List.mem_cons.mp hr with rfl | hrest
            · exact Or.inr ⟨_, rfl⟩
            · exact h.tail r hrest

/-! ### Filling the buffer -/

structure Progress (s t : ReadState) : Prop where
  readbuf : ∃ c, t.readbuf = s.readbuf ++ c
  unread : unread t = unread s
  reach : reach t = reach s
  waits : OnlyWaits s.sock → OnlyWaits t.sock

theorem Progress.refl (s : ReadState) : Progress s s :=
  ⟨⟨[], (List.append_nil _).symm⟩, rfl, rfl, id⟩

theorem Progress.trans (h : Progress s t) (h' : Progress t u) : Progress s u where
  readbuf := by
    obtain ⟨c, hc⟩ := h.readbuf
    obtain ⟨d, hd⟩ := h'.readbuf
    exact ⟨c ++ d, by rw [hd, hc, List.append_assoc]⟩
  unread := h'.unread.trans h.unread
  reach := h'.reach.trans h.reach
  waits := fun hs => h'.waits (h.waits hs)

theorem Progress.length_le (h : Progress s t) : s.readbuf.length ≤ t.readbuf.length := by
  obtain ⟨c, hc⟩ := h.readbuf
  rw [hc, List.length_append]
  omega

theorem Brings.progress {b : Bytes} (h : Brings sock c sock') :
    Progress ⟨b, sock⟩ ⟨b ++ c, sock'⟩ where
  readbuf := ⟨c, rfl⟩
  unread := by rw [AuthedReads.unread, AuthedReads.unread, h.arriving, List.append_assoc]
  reach := by
    simp only [AuthedReads.reach, h.flowing, List.length_append]
    omega
  waits := h.waits

inductive Filled (size : ℕ) (s : ReadState) : Except AuthedError Unit × ReadState → Prop
  | filled (t : ReadState) (h : Progress s t) (hsize : size ≤ t.readbuf.length)
      (hmost : t.readbuf.length ≤ max size s.readbuf.length) : Filled size s (.ok (), t)
  | short (t : ReadState) (h : Progress s t) (hmore : s.readbuf.length < t.readbuf.length)
      (hsize : t.readbuf.length < size) : Filled size s (.error .wouldBlock, t)
  | stuck (e : AuthedError) (sock : Socket) (hsize : s.readbuf.length < size)
      (hflow : flowing s.sock = []) (harr : arriving sock = arriving s.sock)
      (he : OnlyWaits s.sock → e = .evbufferReadFailure) :
      Filled size s (.error e, ⟨s.readbuf, sock⟩)

theorem needBytes_filled (atEof : AuthedError) (size : ℕ) (s : ReadState) :
    Filled size s (needBytes atEof size s) := by
  rw [needBytes]
  split
  · rename_i hshort
    have hneed : 0 < size - s.readbuf.length := by omega
    rcases evbufferRead_cases hneed s.sock with ⟨c, sock', hread, hle, hbrings⟩ |
      ⟨r, sock', hread, hr, hflow, harr, hwaits⟩
    · have hpos : 0 < c.length := List.length_pos_iff.mpr hbrings.ne_nil
      simp only [hread]
      split
      · rename_i hless
        refine .short ⟨s.readbuf ++ c, sock'⟩ hbrings.progress ?_ ?_
        · rw [List.length_append]
          omega
        · rw [List.length_append]
          omega
      · rename_i hall
        refine .filled ⟨s.readbuf ++ c, sock'⟩ hbrings.progress ?_ ?_
        · rw [List.length_append]
          omega
        · rw [List.length_append]
          omega
    · rw [hread]
      cases r with
      | data c => exact absurd rfl (hr c)
      | wouldBlock => exact .stuck _ sock' hshort hflow harr fun _ => rfl
      | failed => exact .stuck _ sock' hshort hflow harr fun _ => rfl
      | eof =>
        refine .stuck _ sock' hshort hflow harr fun h => ?_
        cases (hwaits h).1
  · rename_i henough
    exact .filled s (Progress.refl s) (by omega) (by omega)

theorem Filled.unread_eq {size : ℕ} {x : Except AuthedError Unit × ReadState}
    (h : Filled size s x) : unread x.2 = unread s := by
  cases h with
  | filled t hprogress => exact hprogress.unread
  | short t hprogress => exact hprogress.unread
  | stuck e sock hsize hflow harr =>
    simp only [unread, harr]

/-- What stands at the front of the buffer stays there. -/
theorem Progress.slice_eq (h : Progress s t) (hn : n ≤ s.readbuf.length) :
    slice t.readbuf 0 n = slice s.readbuf 0 n := by
  obtain ⟨c, hc⟩ := h.readbuf
  rw [hc, slice, slice, List.drop_zero, List.drop_zero, List.take_append_of_le_length hn]

theorem length_slice {b : Bytes} {off : ℕ} (h : off + n ≤ b.length) :
    (slice b off n).length = n := by
  rw [slice, List.length_take, List.length_drop]
  omega

/-! ### One call -/

section Calls

variable {fails : Option AuthedStep}

/-- A call that fails leaves the stream as it is, whatever has failed. -/
theorem error_keeps {e : AuthedError}
    (h : ipcReadAuthedDataNoblock S fails key iv s = (.error e, t)) : unread t = unread s := by
  have hfirst := needBytes_filled .evbufferEof S.headerSize s
  rw [ipcReadAuthedDataNoblock] at h
  split at h
  · rename_i e₁ s₁ hneed
    obtain ⟨-, rfl⟩ := Prod.mk.inj h
    rw [hneed] at hfirst
    exact hfirst.unread_eq
  rename_i s₁ hneed
  rw [hneed] at hfirst
  split at h
  · obtain ⟨-, rfl⟩ := Prod.mk.inj h
    exact hfirst.unread_eq
  rename_i size offset hheader
  have hsecond := needBytes_filled .wouldBlock (S.headerSize + size) s₁
  split at h
  · rename_i e₂ s₂ hmore
    obtain ⟨-, rfl⟩ := Prod.mk.inj h
    rw [hmore] at hsecond
    exact hsecond.unread_eq.trans hfirst.unread_eq
  rename_i s₂ hmore
  rw [hmore] at hsecond
  split at h
  · obtain ⟨-, rfl⟩ := Prod.mk.inj h
    exact hsecond.unread_eq.trans hfirst.unread_eq
  · split at h
    · obtain ⟨-, rfl⟩ := Prod.mk.inj h
      exact hsecond.unread_eq.trans hfirst.unread_eq
    · cases h

/-- What a call returns is the payload of an authentic packet, and the rest of the stream stays. -/
theorem ipcReadAuthedDataNoblock_sound {val : Bytes}
    (h : ipcReadAuthedDataNoblock S fails key iv s = (.ok val, t)) :
    ∃ received, unread s = received ++ unread t ∧ Authentic S key iv received val := by
  have hfirst := needBytes_filled .evbufferEof S.headerSize s
  rw [ipcReadAuthedDataNoblock] at h
  split at h
  · cases h
  rename_i s₁ hneed
  rw [hneed] at hfirst
  split at h
  · cases h
  rename_i size offset hheader
  have hsecond := needBytes_filled .wouldBlock (S.headerSize + size) s₁
  split at h
  · cases h
  rename_i s₂ hmore
  rw [hmore] at hsecond
  split at h
  · cases h
  rename_i val' hpayload
  split at h
  · cases h
  obtain ⟨hval, rfl⟩ := Prod.mk.inj h
  obtain rfl := Except.ok.inj hval
  cases hfirst with
  | filled s₁ hprogress₁ hsize₁ =>
    cases hsecond with
    | filled s₂ hprogress₂ hsize₂ =>
      have hheader := openHeader_none (seqRight_ok hheader)
      have hpayload := openPayload_none (seqRight_ok hpayload)
      have hlen : (slice s₂.readbuf S.headerSize size).length = size := length_slice hsize₂
      rw [← hprogress₂.slice_eq hsize₁] at hheader
      rw [← hlen] at hheader
      have hauth := opened_authentic (length_slice (by omega)) hheader hpayload
      refine ⟨_, ?_, hauth⟩
      have hjoin := slice_append_slice s₂.readbuf 0 S.headerSize size
      rw [Nat.zero_add, slice, slice, slice, List.drop_zero] at hjoin
      rw [← hprogress₁.unread, ← hprogress₂.unread, unread, unread, ← List.append_assoc, slice,
        slice, List.drop_zero, hjoin, List.take_append_drop]

end Calls

/-! ### A call while a packet comes in -/

inductive Called (S : CryptoSuite Key) (key : Key) (iv : BitVec 64) (payload : Bytes)
    (s : ReadState) : Except AuthedError Bytes × ReadState → Prop
  | returned (t : ReadState) (h : Progress s t)
      (hsize : (authedPacket S key iv payload).length ≤ t.readbuf.length)
      (hleft : t.readbuf.drop (authedPacket S key iv payload).length =
        s.readbuf.drop (authedPacket S key iv payload).length) :
      Called S key iv payload s
        (.ok payload, { t with readbuf := t.readbuf.drop (authedPacket S key iv payload).length })
  | waits (t : ReadState) (h : Progress s t) (hmore : s.readbuf.length < t.readbuf.length)
      (hsize : t.readbuf.length < (authedPacket S key iv payload).length) :
      Called S key iv payload s (.error .wouldBlock, t)
  | stuck (e : AuthedError) (t : ReadState)
      (hreach : reach s < (authedPacket S key iv payload).length)
      (he : OnlyWaits s.sock → e = .evbufferReadFailure) : Called S key iv payload s (.error e, t)

/-- The bytes of the packet that are buffered. -/
theorem slice_of_unread (l m r : Bytes) (h : unread s = l ++ (m ++ r))
    (hn : l.length + m.length ≤ s.readbuf.length) : slice s.readbuf l.length m.length = m := by
  have hslice : slice (unread s) l.length m.length = slice s.readbuf l.length m.length := by
    rw [unread, slice, slice, List.drop_append_of_le_length (by omega),
      List.take_append_of_le_length (by rw [List.length_drop]; omega)]
  rw [← hslice, h, slice_append_skip _ _ _ le_rfl, Nat.sub_self, slice_append_self _ _ rfl]

theorem call_cases (p : AuthedPayload) {rest : Bytes}
    (h : unread s = authedPacket S key iv p.bytes ++ rest) :
    Called S key iv p.bytes s (ipcReadAuthedDataNoblock S none key iv s) := by
  have hlen : (authedPacket S key iv p.bytes).length = S.headerSize + p.bytes.length :=
    length_authedPacket p.bytes
  rw [authedPacket_eq, List.append_assoc] at h
  have hfirst := needBytes_filled .evbufferEof S.headerSize s
  rw [ipcReadAuthedDataNoblock]
  generalize needBytes .evbufferEof S.headerSize s = x at hfirst
  cases hfirst with
  | short t hprogress hmore hsize => exact .waits t hprogress hmore (by omega)
  | stuck e sock hsize hflow harr he =>
    refine .stuck e _ ?_ he
    rw [reach, hflow, List.length_nil]
    omega
  | filled s₁ hprogress₁ hsize₁ hmost₁ =>
    have hheader : slice s₁.readbuf 0 S.headerSize = sealedHeader S key iv p.bytes := by
      have hfront := slice_of_unread [] (sealedHeader S key iv p.bytes) _
        (hprogress₁.unread.trans h) (by simpa using hsize₁)
      rwa [List.length_nil, length_sealedHeader] at hfront
    have hsecond := needBytes_filled .wouldBlock (S.headerSize + p.bytes.length) s₁
    have hopen : (attempt none .dheaderInit *> attempt none .pullupHeader *>
        openHeader S none key iv (slice s₁.readbuf 0 S.headerSize)) = .ok (p.bytes.length, 8) := by
      rw [hheader, openHeader_sealed]
      rfl
    simp only [hopen]
    generalize needBytes .wouldBlock (S.headerSize + p.bytes.length) s₁ = y at hsecond
    cases hsecond with
    | short t hprogress hmore hsize =>
      have hle := hprogress₁.length_le
      exact .waits t (hprogress₁.trans hprogress) (by omega) (by omega)
    | stuck e sock hsize hflow harr he =>
      refine .stuck e _ ?_ fun hs => he (hprogress₁.waits hs)
      rw [← hprogress₁.reach, reach, hflow, List.length_nil]
      omega
    | filled s₂ hprogress₂ hsize₂ hmost₂ =>
      have hprogress := hprogress₁.trans hprogress₂
      have hbody : slice s₂.readbuf S.headerSize p.bytes.length = S.crypt key iv 8 p.bytes := by
        have hbehind := slice_of_unread (sealedHeader S key iv p.bytes) (S.crypt key iv 8 p.bytes)
          rest (hprogress.unread.trans h)
          (by rwa [length_sealedHeader, CryptoSuite.length_crypt])
        rwa [length_sealedHeader, CryptoSuite.length_crypt] at hbehind
      have hpayload : (attempt none .pullupPacket *> openPayload S none key iv 8
          (slice s₂.readbuf 0 S.headerSize) (slice s₂.readbuf S.headerSize p.bytes.length)) =
            .ok p.bytes := by
        rw [hprogress₂.slice_eq hsize₁, hheader, hbody, openPayload_sealed]
        rfl
      simp only [hpayload]
      have hleft : s₂.readbuf.drop (authedPacket S key iv p.bytes).length =
          s.readbuf.drop (authedPacket S key iv p.bytes).length := by
        obtain ⟨c, hc⟩ := hprogress.readbuf
        rw [hlen]
        by_cases hwhole : S.headerSize + p.bytes.length ≤ s.readbuf.length
        · -- nothing was read into the buffer
          have hnil : c = [] := by
            rw [hc, List.length_append] at hmost₂
            exact List.length_eq_zero_iff.mp (by omega)
          rw [hc, hnil, List.append_nil]
        · rw [List.drop_eq_nil_of_le (by omega), List.drop_eq_nil_of_le (by omega)]
      have hreturned : Called S key iv p.bytes s (.ok p.bytes,
          { s₂ with readbuf := s₂.readbuf.drop (authedPacket S key iv p.bytes).length }) :=
        .returned s₂ hprogress (by omega) hleft
      rwa [hlen] at hreturned

/-! ### Repeated calls -/

/-- The reader is called again while it would block, so many times at most. -/
def calls (S : CryptoSuite Key) (key : Key) (iv : BitVec 64) :
    ℕ → ReadState → List (Except AuthedError Bytes × ReadState)
  | 0, _ => []
  | n + 1, s =>
    let a := ipcReadAuthedDataNoblock S none key iv s
    a :: if a.1 = .error .wouldBlock then calls S key iv n a.2 else []

/-- The call would block, the packet is not complete in the buffer, and nothing of it is lost. -/
structure Waiting (packet rest : Bytes) (a : Except AuthedError Bytes × ReadState) : Prop where
  answer : a.1 = .error .wouldBlock
  incomplete : a.2.readbuf.length < packet.length
  unread : unread a.2 = packet ++ rest

/-- The call returns the payload. What was buffered behind the packet is still buffered, and all
that follows it is still to be read. -/
structure Delivered (packet payload rest : Bytes) (s : ReadState)
    (a : Except AuthedError Bytes × ReadState) : Prop where
  answer : a.1 = .ok payload
  buffered : a.2.readbuf = s.readbuf.drop packet.length
  unread : unread a.2 = rest

structure Independent (S : CryptoSuite Key) (key : Key) (iv : BitVec 64)
    (packet payload rest : Bytes) (s : ReadState) : Prop where
  answers : ∀ n, ∀ a ∈ calls S key iv n s,
    Waiting packet rest a ∨ Delivered packet payload rest s a
  returns : ∃ n, ∃ a ∈ calls S key iv n s, a.1 = .ok payload

theorem head_mem_calls (n : ℕ) (s : ReadState) :
    ipcReadAuthedDataNoblock S none key iv s ∈ calls S key iv (n + 1) s := List.mem_cons_self

/-- What is answered behind a call that would block. -/
theorem mem_calls_of_waits {a : Except AuthedError Bytes × ReadState}
    (hcall : ipcReadAuthedDataNoblock S none key iv s = (.error .wouldBlock, t))
    (ha : a ∈ calls S key iv n t) : a ∈ calls S key iv (n + 1) s := by
  rw [calls, hcall]
  exact List.mem_cons_of_mem _ ha

theorem mem_calls_succ {a : Except AuthedError Bytes × ReadState}
    (ha : a ∈ calls S key iv (n + 1) s) : a = ipcReadAuthedDataNoblock S none key iv s ∨
      ∃ t, ipcReadAuthedDataNoblock S none key iv s = (.error .wouldBlock, t) ∧
        a ∈ calls S key iv n t := by
  rw [calls] at ha
  rcases List.mem_cons.mp ha with heq | hrest
  · exact Or.inl heq
  · split at hrest
    · rename_i hwaits
      exact Or.inr ⟨_, Prod.ext hwaits rfl, hrest⟩
    · cases hrest

section Packet

variable {p : AuthedPayload} {rest : Bytes}

/-- Until the packet has come the calls wait, and then one returns it. -/
theorem answers_of_reach (h : unread s = authedPacket S key iv p.bytes ++ rest)
    (hreach : (authedPacket S key iv p.bytes).length ≤ reach s) (n : ℕ) :
    ∀ a ∈ calls S key iv n s, Waiting (authedPacket S key iv p.bytes) rest a ∨
      Delivered (authedPacket S key iv p.bytes) p.bytes rest s a := by
  induction n generalizing s with
  | zero =>
    intro a ha
    cases ha
  | succ n ih =>
    intro a ha
    have hcalled := call_cases p h
    rcases mem_calls_succ ha with rfl | ⟨t, hcall, hmem⟩
    · generalize ipcReadAuthedDataNoblock S none key iv s = x at hcalled
      cases hcalled with
      | returned t hprogress hsize hleft =>
        refine Or.inr ⟨rfl, hleft, ?_⟩
        have hunread := hprogress.unread.trans h
        rw [unread] at hunread ⊢
        have hdrop := congrArg (List.drop (authedPacket S key iv p.bytes).length) hunread
        rwa [List.drop_append_of_le_length hsize, List.drop_left] at hdrop
      | waits t hprogress hmore hsize => exact Or.inl ⟨rfl, hsize, hprogress.unread.trans h⟩
      | stuck e t hshort => omega
    · rw [hcall] at hcalled
      cases hcalled with
      | waits t hprogress hmore hsize =>
        rcases ih (hprogress.unread.trans h) (by rwa [hprogress.reach]) a hmem with hwait | hdone
        · exact Or.inl hwait
        · refine Or.inr ⟨hdone.answer, ?_, hdone.unread⟩
          rw [hdone.buffered, List.drop_eq_nil_of_le (by omega), List.drop_eq_nil_of_le (by omega)]
      | stuck e t hshort => omega

theorem returns_of_reach (h : unread s = authedPacket S key iv p.bytes ++ rest)
    (hreach : (authedPacket S key iv p.bytes).length ≤ reach s) :
    ∃ n, ∃ a ∈ calls S key iv n s, a.1 = .ok p.bytes := by
  induction hk : (authedPacket S key iv p.bytes).length - s.readbuf.length using
    Nat.strong_induction_on generalizing s with
  | _ k ih =>
    have hcalled := call_cases p h
    generalize hcall : ipcReadAuthedDataNoblock S none key iv s = x at hcalled
    cases hcalled with
    | returned t hprogress hsize hleft =>
      refine ⟨1, _, head_mem_calls 0 s, ?_⟩
      rw [hcall]
    | waits t hprogress hmore hsize =>
      obtain ⟨n, a, ha, hok⟩ := ih _ (by omega) (hprogress.unread.trans h)
        (by rwa [hprogress.reach]) rfl
      exact ⟨n + 1, a, mem_calls_of_waits hcall ha, hok⟩
    | stuck e t hshort => omega

/-- A would-block inside the packet becomes a failure of some call. -/
theorem fails_of_short (h : unread s = authedPacket S key iv p.bytes ++ rest)
    (hwaits : OnlyWaits s.sock) (hreach : reach s < (authedPacket S key iv p.bytes).length) :
    ∃ n, ∃ a ∈ calls S key iv n s, a.1 = .error .evbufferReadFailure := by
  induction hk : (authedPacket S key iv p.bytes).length - s.readbuf.length using
    Nat.strong_induction_on generalizing s with
  | _ k ih =>
    have hcalled := call_cases p h
    generalize hcall : ipcReadAuthedDataNoblock S none key iv s = x at hcalled
    cases hcalled with
    | returned t hprogress hsize hleft =>
      have hreach' := hprogress.reach
      rw [reach] at hreach'
      omega
    | waits t hprogress hmore hsize =>
      obtain ⟨n, a, ha, hfail⟩ := ih _ (by omega) (hprogress.unread.trans h)
        (hprogress.waits hwaits) (by rwa [hprogress.reach]) rfl
      exact ⟨n + 1, a, mem_calls_of_waits hcall ha, hfail⟩
    | stuck e t hshort he =>
      refine ⟨1, _, head_mem_calls 0 s, ?_⟩
      rw [hcall, he hwaits]

end Packet

/-- No call returns a payload that is above the limit. -/
theorem too_large_not_returned {payload rest : Bytes} (hlt : payload.length < 2 ^ 32)
    (hlarge : maxAuthedSize < payload.length)
    (h : unread s = authedPacket S key iv payload ++ rest) (n : ℕ) :
    ∀ a ∈ calls S key iv n s, ∀ val, a.1 ≠ .ok val := by
  induction n generalizing s with
  | zero =>
    intro a ha
    cases ha
  | succ n ih =>
    intro a ha val hok
    rcases mem_calls_succ ha with rfl | ⟨t, hcall, hmem⟩
    · obtain ⟨received, hfront, header, code, body, rfl, hlen, -, haccepts, -⟩ :=
        ipcReadAuthedDataNoblock_sound (Prod.ext hok rfl)
      have hsealed : header = slice (sealedHeader S key iv payload) 0 8 := by
        have hslice : slice (unread s) 0 8 = header := by
          rw [hfront, List.append_assoc]
          exact slice_append_self _ _ hlen
        rw [← hslice, h, authedPacket_eq, List.append_assoc, slice, slice, List.drop_zero,
          List.drop_zero, List.take_append_of_le_length]
        rw [length_sealedHeader, CryptoSuite.headerSize]
        omega
      have hopened : openedHeader S key iv header =
          openedHeader S key iv (sealedHeader S key iv payload) := by
        rw [hsealed, openedHeader, openedHeader, slice, slice, List.drop_zero, List.drop_zero,
          List.take_take, Nat.min_self]
      have hsealed' : AcceptsHeader S key iv (sealedHeader S key iv payload) := by
        rw [AcceptsHeader, ← hopened]
        exact haccepts
      have hle := (acceptsHeader_sealed payload hlt).mp hsealed'
      omega
    · exact ih ((error_keeps hcall).trans h) a hmem val hok

/-! ### Independence of the fragments -/

def written (S : CryptoSuite Key) (key : Key) (iv : BitVec 64) (payload : DataBlock) : Bytes :=
  (ipcWriteAuthedDataNoblock S none key iv [] payload).2

theorem written_eq (payload : DataBlock) :
    written S key iv payload = authedPacket S key iv payload.bytes := by
  rw [written, ipcWriteAuthedDataNoblock_eq, List.nil_append]

/-- A way in which a stream arrives: some of it is buffered, and the socket brings the rest, with
would-block results in between. -/
structure Arrival (stream : Bytes) where
  state : ReadState
  waits : OnlyWaits state.sock
  unread : unread state = stream

/-- Exactly the packets within the limit of the reader that come without a would-block are read. -/
theorem reads_independent_iff (S : CryptoSuite Key) (key : Key) (iv : BitVec 64)
    (payload : DataBlock) (rest : Bytes) (arrival : Arrival (written S key iv payload ++ rest)) :
    Independent S key iv (written S key iv payload) payload.bytes rest arrival.state ↔
      payload.bytes.length ≤ maxAuthedSize ∧
        (written S key iv payload).length ≤ reach arrival.state := by
  obtain ⟨s, hwaits, h⟩ := arrival
  change Independent S key iv (written S key iv payload) payload.bytes rest s ↔
    payload.bytes.length ≤ maxAuthedSize ∧ (written S key iv payload).length ≤ reach s
  rw [written_eq] at h ⊢
  constructor
  · intro hind
    obtain ⟨n, a, ha, hok⟩ := hind.returns
    have hsize : payload.bytes.length ≤ maxAuthedSize := by
      by_contra hlarge
      exact too_large_not_returned payload.size_lt (not_le.mp hlarge) h n a ha _ hok
    refine ⟨hsize, ?_⟩
    by_contra hshort
    let p : AuthedPayload := ⟨payload.bytes, hsize⟩
    obtain ⟨m, b, hb, hfail⟩ := fails_of_short (p := p) h hwaits (not_le.mp hshort)
    rcases hind.answers m b hb with hwait | hdone
    · have heq := hfail.symm.trans hwait.answer
      cases heq
    · have heq := hfail.symm.trans hdone.answer
      cases heq
  · rintro ⟨hsize, hreach⟩
    let p : AuthedPayload := ⟨payload.bytes, hsize⟩
    exact ⟨answers_of_reach (p := p) h hreach, returns_of_reach (p := p) h hreach⟩

def sumSuite : CryptoSuite Unit where
  keystream _ iv i := UInt8.ofNat (iv.toNat + 7 * i)
  macShort _ b := [b.foldl (· + ·) 0]
  macSize := 1
  length_macShort _ _ := rfl

def smallPayload : DataBlock := ⟨[0x2a, 0x2b], by decide⟩

/-- The header has come, and the socket would block before the payload comes. -/
def brokenArrival : Arrival (written sumSuite () 1 smallPayload ++ []) where
  state := ⟨[], [.data ((written sumSuite () 1 smallPayload).take 9), .wouldBlock,
    .data ((written sumSuite () 1 smallPayload).drop 9)]⟩
  waits := by
    intro r hr
    simp only [List.mem_cons, List.not_mem_nil, or_false] at hr
    rcases hr with rfl | rfl | rfl
    · exact Or.inr ⟨_, rfl⟩
    · exact Or.inl rfl
    · exact Or.inr ⟨_, rfl⟩
  unread := by decide +kernel

theorem would_block_is_a_failure :
    (calls sumSuite () 1 1 brokenArrival.state).map Prod.fst = [.error .evbufferReadFailure] ∧
      ¬ Independent sumSuite () 1 (written sumSuite () 1 smallPayload) smallPayload.bytes []
        brokenArrival.state := by
  have hfail : (calls sumSuite () 1 1 brokenArrival.state).map Prod.fst =
      [.error .evbufferReadFailure] := by
    decide +kernel
  refine ⟨hfail, fun hind => ?_⟩
  have hanswer : (ipcReadAuthedDataNoblock sumSuite none () 1 brokenArrival.state).1 =
      .error .evbufferReadFailure := by
    decide +kernel
  rcases hind.answers 1 (ipcReadAuthedDataNoblock sumSuite none () 1 brokenArrival.state)
    List.mem_cons_self with hwait | hdone
  · have heq := hanswer.symm.trans hwait.answer
    cases heq
  · have heq := hanswer.symm.trans hdone.answer
    cases heq

/-! ### The codec -/

/-- Both writers write the same bytes, and from these bytes both readers get the payload and leave
what follows it. The blocking reader needs the header and the payload each in one piece, however the
rest arrives; the other one needs one call when they are buffered and repeated calls when the socket
brings them without a would-block. -/
structure RoundTrips (S : CryptoSuite Key) (key : Key) (iv : BitVec 64) (p : AuthedPayload) :
    Prop where
  writers : ∀ out,
    ipcWriteAuthedDataBlock S none key iv none out p.block =
        (.ok (), out ++ written S key iv p.block) ∧
      ipcWriteAuthedDataNoblock S none key iv out p.block =
        (.ok (), out ++ written S key iv p.block)
  block : ∀ rest, ∃ left,
    ipcReadAuthedDataBlock S none key iv [written S key iv p.block ++ rest] = (.ok p.bytes, left) ∧
      left.flatten = rest
  fragmented : ∀ frags rest, frags.flatten = written S key iv p.block ++ rest →
    FragmentedStreams.FieldsWhole frags 0 [S.headerSize, p.bytes.length] →
      ∃ left, ipcReadAuthedDataBlock S none key iv frags = (.ok p.bytes, left) ∧
        left.flatten = rest
  buffered : ∀ rest sock, ∃ t,
    ipcReadAuthedDataNoblock S none key iv ⟨written S key iv p.block ++ rest, sock⟩ =
      (.ok p.bytes, t) ∧ t.readbuf = rest ∧ arriving t.sock = arriving sock
  noblock : ∀ rest s, unread s = written S key iv p.block ++ rest →
    (written S key iv p.block).length ≤ reach s →
      ∃ n, ∃ t, (.ok p.bytes, t) ∈ calls S key iv n s ∧ unread t = rest

/-- Whatever a reader is given and whatever fails, a payload that it returns is that of an authentic
packet at the front. -/
structure ReturnsAuthentic (S : CryptoSuite Key) (key : Key) (iv : BitVec 64) : Prop where
  block : ∀ fails frags val left,
    ipcReadAuthedDataBlock S fails key iv frags = (.ok val, left) →
      ∃ received, frags.flatten = received ++ left.flatten ∧ Authentic S key iv received val
  noblock : ∀ fails s val t,
    ipcReadAuthedDataNoblock S fails key iv s = (.ok val, t) →
      ∃ received, unread s = received ++ unread t ∧ Authentic S key iv received val

theorem authed_codec (S : CryptoSuite Key) (key : Key) (iv : BitVec 64) (p : AuthedPayload) :
    RoundTrips S key iv p ∧ ReturnsAuthentic S key iv := by
  have hwritten : written S key iv p.block = authedPacket S key iv p.bytes := written_eq p.block
  have hblock : ∀ frags rest, frags.flatten = written S key iv p.block ++ rest →
      FragmentedStreams.FieldsWhole frags 0 [S.headerSize, p.bytes.length] →
        ∃ left, ipcReadAuthedDataBlock S none key iv frags = (.ok p.bytes, left) ∧
          left.flatten = rest := by
    intro frags rest hfrags hwhole
    rw [hwritten] at hfrags
    exact ipcReadAuthedDataBlock_packet p hfrags hwhole
  refine ⟨⟨?_, ?_, hblock, ?_, ?_⟩, ⟨?_, ?_⟩⟩
  · intro out
    rw [hwritten]
    exact ⟨ipcWriteAuthedDataBlock_eq out p.block, ipcWriteAuthedDataNoblock_eq out p.block⟩
  · intro rest
    refine hblock _ rest List.flatten_singleton ?_
    refine (FragmentedStreams.unbroken_singleton _).fieldsWhole ?_
    rw [List.flatten_singleton, hwritten, List.length_append, length_authedPacket]
    simp
  · intro rest sock
    rw [hwritten]
    have hunread : unread ⟨authedPacket S key iv p.bytes ++ rest, sock⟩ =
        authedPacket S key iv p.bytes ++ (rest ++ arriving sock) := List.append_assoc _ _ _
    have hcalled := call_cases p hunread
    generalize ipcReadAuthedDataNoblock S none key iv ⟨authedPacket S key iv p.bytes ++ rest,
      sock⟩ =
      x at hcalled
    cases hcalled with
    | returned t hprogress hsize hleft =>
      rw [List.drop_left] at hleft
      have hstream := hprogress.unread.trans hunread
      rw [unread, ← List.take_append_drop (authedPacket S key iv p.bytes).length t.readbuf, hleft,
        List.append_assoc] at hstream
      have htake : (t.readbuf.take (authedPacket S key iv p.bytes).length).length =
          (authedPacket S key iv p.bytes).length := by
        rw [List.length_take]
        omega
      have hrest := (List.append_inj hstream htake).2
      exact ⟨_, rfl, hleft, List.append_cancel_left hrest⟩
    | waits t hprogress hmore hsize =>
      simp only [List.length_append] at hmore
      omega
    | stuck e t hreach =>
      simp only [reach, List.length_append] at hreach
      omega
  · intro rest s h hreach
    rw [hwritten] at h hreach
    obtain ⟨n, a, ha, hok⟩ := returns_of_reach h hreach
    rcases answers_of_reach h hreach n a ha with hwait | hdone
    · have heq := hok.symm.trans hwait.answer
      cases heq
    · refine ⟨n, a.2, ?_, hdone.unread⟩
      rwa [← hok]
  · intro fails frags val left h
    exact ipcReadAuthedDataBlock_sound h
  · intro fails s val t h
    exact ipcReadAuthedDataNoblock_sound h

end AuthedReads
