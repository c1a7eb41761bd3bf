import Agentd.AssertionTrips

/-! # The flag of a connection and its assertion

The protocol fiber sets the flag when its assertion was passed on, and the write fiber clears it
when it has written what came of the assertion. The flag agrees with the maps and the mailbox of the
write fiber as long as the write fiber is not the faster one. -/
namespace AssertionBookkeeping

open DataserviceRecords
open DataEndpoint
open NotificationEndpoint
open AssertionTrips
open NotificationFibers (noFaults)

variable {n : ℕ} {home : Fin n} {s t : System n} {c : ℕ}

/-! ### The property -/

/-- A notification is in the mailbox of the write fiber of a connection, or it is being written. -/
def NoticeQueued (s : System n) (c : ℕ) : Prop :=
  (∃ box m, s.returnBox c = some box ∧ m ∈ box ∧ isNotice m = true) ∨
    ∃ m, (s.connection c).hand = some m ∧ isNotice m = true

structure Agrees (s : System n) : Prop where
  sameEntries : ∀ e, (∃ c, s.clientXlatMap c = some e) ↔ ∃ offset, s.serverXlatMap offset = some e
  ownKeys : ∀ c e, s.clientXlatMap c = some e → e.clientAddr = c
  flag : ∀ c, (s.connection c).protocol = .reading →
    ((s.connection c).latestBlockIdAssertionSet = true ↔
      (s.clientXlatMap c).isSome = true ∨ NoticeQueued s c)

/-- An assertion of the connection is passed on to an endpoint fiber that is in its loop. -/
def CanAssert (home : Fin n) (s : System n) (c : ℕ) : Prop :=
  ∀ offset blockId, Enabled home s (.assertLatestBlockId c offset blockId) ∧
    (next home s (.assertLatestBlockId c offset blockId)).inbox =
      s.inbox ++ [⟨false, offset, blockId, c⟩]

/-! ### The invariant -/

/-- The write fiber does not write what came of an assertion before the protocol fiber has heard
that it was passed on. -/
def Timely (home : Fin n) (s : System n) (a : Action n) : Prop :=
  Safe home s a ∧
    match a with
    | .finish c => ∀ m, (s.connection c).hand = some m → isNotice m = true →
      asserts (s.connection c).protocol = 0
    | .writeFails _ => False
    | _ => True

instance (home : Fin n) (s : System n) : DecidablePred (Timely home s)
  | .finish c =>
    match hhand : (s.connection c).hand with
    | none => isTrue ⟨trivial, by simp [hhand]⟩
    | some m => decidable_of_iff (isNotice m = true → asserts (s.connection c).protocol = 0)
        (by simp [Timely, Safe, hhand])
  | .writeFails _ => isFalse fun h => h.2
  | .connect c => inferInstanceAs (Decidable (Safe home s (.connect c) ∧ True))
  | .assertLatestBlockId c o b =>
    inferInstanceAs (Decidable (Safe home s (.assertLatestBlockId c o b) ∧ True))
  | .assertLatestBlockIdCancel c o =>
    inferInstanceAs (Decidable (Safe home s (.assertLatestBlockIdCancel c o) ∧ True))
  | .resume c => inferInstanceAs (Decidable (Safe home s (.resume c) ∧ True))
  | .respond c p => inferInstanceAs (Decidable (Safe home s (.respond c p) ∧ True))
  | .leave c => inferInstanceAs (Decidable (Safe home s (.leave c) ∧ True))
  | .receive c => inferInstanceAs (Decidable (Safe home s (.receive c) ∧ True))
  | .closeMailboxes c => inferInstanceAs (Decidable (Safe home s (.closeMailboxes c) ∧ True))
  | .take => inferInstanceAs (Decidable (Safe home s .take ∧ True))
  | .reply => inferInstanceAs (Decidable (Safe home s .reply ∧ True))
  | .serve f => inferInstanceAs (Decidable (Safe home s (.serve f) ∧ True))
  | .service a => inferInstanceAs (Decidable (Safe home s (.service a) ∧ True))
  | .receiveResponse => inferInstanceAs (Decidable (Safe home s .receiveResponse ∧ True))

/-- An assertion that the endpoint has taken is in the maps or on its way to the client, also before
the flag says so. -/
structure Told (v : View) : Prop where
  set : live v.protocol = true → v.flag = true → v.entry + v.notices = 1
  taken : asserts v.protocol = 1 → v.asks = 0 → v.entry + v.notices = 1

theorem told_start (n : ℕ) (c : ℕ) : Told (view (start n) c) := by
  constructor
  · intro hlive
    cases hlive
  · intro hasserts
    cases hasserts

theorem Told.change {a : Action n} {v w : View} (h : Told v) (hfits : Fits v)
    (hchange : Change a c v w) (hfinish : a = .finish c → asserts v.protocol = 0)
    (hfails : a ≠ .writeFails c) : Told w := by
  obtain ⟨hset, htaken⟩ := h
  cases hchange with
  | idle => exact ⟨hset, htaken⟩
  | connects hprotocol =>
    constructor
    · intro _ hflag
      cases hflag
    · intro hasserts
      cases hasserts
  | asserts hprotocol hflag =>
    constructor
    · intro _ hflag'
      rw [hflag] at hflag'
      cases hflag'
    · intro _ hasks
      simp only at hasks
      omega
  | cancels hprotocol hflag =>
    have hone := hset (by rw [hprotocol]; rfl) hflag
    constructor
    · intro _ _
      exact hone
    · intro hasserts
      cases hasserts
  | acknowledged hprotocol hacks =>
    -- The request has left the inbox, or it could not have been answered.
    have htrip := hfits.trip
    rw [hprotocol] at htrip htaken
    simp only [waits] at htrip
    have hone := htaken rfl (by omega)
    constructor
    · intro _ _
      exact hone
    · intro hasserts
      cases hasserts
  | passedOn hprotocol hacks =>
    constructor
    · intro _ hflag
      exact hset (by rw [hprotocol]; rfl) hflag
    · intro hasserts
      cases hasserts
  | leaves hprotocol =>
    constructor
    · intro hlive
      cases hlive
    · intro hasserts
      cases hasserts
  | told hnotices =>
    have hquiet := hfinish rfl
    constructor
    · intro _ hflag
      cases hflag
    · intro hasserts
      simp only at hasserts
      omega
  | drops hnotices => exact absurd rfl hfails
  | closes hprotocol hnotices =>
    rw [hprotocol] at hset htaken
    constructor
    · intro hlive
      simp [hprotocol, live] at hlive
    · intro hasserts
      simp [hprotocol, asserts] at hasserts
  | assertionTaken hasks hentry hreplies =>
    have hle := hfits.asks
    have hfresh := hfits.fresh (by have := hfits.cancels; omega)
    have hnone := hfresh.2 (by have := hfits.cancels; omega)
    constructor
    · intro _ hflag
      rw [hfresh.1] at hflag
      cases hflag
    · intro _ _
      simp only
      omega
  | cancelTaken hcancels hreplies => exact ⟨hset, htaken⟩
  | replied hreplies => exact ⟨hset, htaken⟩
  | answered hentry =>
    constructor
    · intro hlive hflag
      have hone := hset hlive hflag
      simp only
      omega
    · intro hasserts hasks
      have hone := htaken hasserts hasks
      simp only
      omega

/-! ### Runs -/

theorem told_step {a : Action n} (h : Inv s) (htold : ∀ c, Told (view s c))
    (henabled : Enabled home s a) (htimely : Timely home s a) (d : ℕ) :
    Told (view (next home s a) d) := by
  obtain ⟨c, hchange, hother⟩ := (step_moves h henabled htimely.1).change
  by_cases hd : d = c
  · rw [hd]
    by_cases hquiet : view (next home s a) c = view s c
    · rw [hquiet]
      exact htold c
    · refine (htold c).change (h.fits c) hchange ?_ ?_
      · rintro rfl
        obtain ⟨m, hhand⟩ := Option.ne_none_iff_exists'.mp henabled.2.2.2
        apply htimely.2 m hhand
        by_contra hm
        apply hquiet
        rw [next, hhand]
        exact view_finishMessage hhand (Bool.not_eq_true _ ▸ hm) c
      · rintro rfl
        exact htimely.2
  · rw [hother d hd]
    exact htold d

theorem told_of_run (h : Run home (Timely home) s) : Inv s ∧ ∀ c, Told (view s c) := by
  induction h with
  | start => exact ⟨inv_start n, told_start n⟩
  | tail before henabled hmeets ih =>
    obtain ⟨hinv, htold⟩ := ih
    exact ⟨hinv.moves (step_moves hinv henabled hmeets.1), told_step hinv htold henabled hmeets⟩

theorem noticeQueued_iff : NoticeQueued s c ↔ 0 < (view s c).notices := by
  have hbox : 0 < ((s.returnBox c).getD []).countP isNotice ↔
      ∃ box m, s.returnBox c = some box ∧ m ∈ box ∧ isNotice m = true := by
    rw [List.countP_pos_iff]
    cases s.returnBox c with
    | none => simp
    | some box => simp
  have hhand : 0 < (s.connection c).hand.toList.countP isNotice ↔
      ∃ m, (s.connection c).hand = some m ∧ isNotice m = true := by
    rw [List.countP_pos_iff]
    simp [Option.mem_toList]
  rw [NoticeQueued, ← hbox, ← hhand]
  simp only [view, noticesIn]
  omega

theorem flag_iff (hfits : Fits (view s c)) (htold : Told (view s c))
    (hreading : (s.connection c).protocol = .reading) :
    (s.connection c).latestBlockIdAssertionSet = true ↔
      (s.clientXlatMap c).isSome = true ∨ NoticeQueued s c := by
  have hentry : (s.clientXlatMap c).isSome = true ↔ 0 < (view s c).entry := by
    simp only [view, entryCount]
    cases s.clientXlatMap c with
    | none => simp
    | some e => simp
  rw [hentry, noticeQueued_iff]
  have hprotocol : (view s c).protocol = .reading := hreading
  constructor
  · intro hflag
    have hone := htold.set (by rw [hprotocol]; rfl) hflag
    omega
  · intro hsome
    by_contra hflag
    have hnone := hfits.unset (Bool.not_eq_true _ ▸ hflag) (by rw [hprotocol]; rfl)
    omega

/-- In every run in which the write fibers are not too fast and the endpoint fibers do not meet what
stops them, the bookkeeping agrees, and a connection without a live assertion can assert. -/
theorem bookkeeping_agrees (home : Fin n) (s : System n) (h : Run home (Timely home) s) :
    Agrees s ∧ ∀ c, (s.connection c).protocol = .reading → s.clientXlatMap c = none →
      ¬ NoticeQueued s c → CanAssert home s c := by
  obtain ⟨hinv, htold⟩ := told_of_run h
  have hflag : ∀ c, (s.connection c).protocol = .reading → _ :=
    fun c hreading => flag_iff (hinv.fits c) (htold c) hreading
  refine ⟨⟨hinv.twin.same_entries, ?_, hflag⟩, ?_⟩
  · intro c e he
    exact (hinv.twin.left he).1
  · intro c hreading hentry hnotice offset blockId
    have hunset : (s.connection c).latestBlockIdAssertionSet = false := by
      by_contra hset
      rcases (hflag c hreading).mp (Bool.not_eq_false _ ▸ hset) with hsome | hqueued
      · rw [hentry] at hsome
        cases hsome
      · exact hnotice hqueued
    refine ⟨⟨hinv.endpoint, hinv.writeEndpoint, hreading⟩, ?_⟩
    simp only [next, dndAssertLatestBlockId, hunset, Bool.false_eq_true, if_false]
    rfl

/-- A client that was told may assert again, also while another client waits. -/
theorem told_client_asserts_again : ∃ s : System 2, Run 0 (Timely 0) s ∧ s.received = 1 ∧
    (s.connection 8).latestBlockIdAssertionSet = true ∧ (s.clientXlatMap 8).isSome = true ∧
    CanAssert 0 s 7 := by
  have hplay : ((play 0 (Timely 0) (start 2) (toldOnce ++ [.connect 8,
      .assertLatestBlockId 8 1 (ByteString.bits 128 (List.replicate 16 1)), .take, .reply,
      .resume 8])).map fun s => decide (s.received = 1 ∧
        (s.connection 8).latestBlockIdAssertionSet = true ∧ (s.connection 8).protocol = .reading ∧
        (s.connection 7).protocol = .reading ∧ s.clientXlatMap 7 = none ∧
        (view s 7).notices = 0 ∧ (view s 8).notices = 0)) = some true := by
    decide +kernel
  obtain ⟨s, hs, hfacts⟩ := Option.map_eq_some_iff.mp hplay
  obtain ⟨hreceived, hflag, hreading', hreading, hentry, hnotices, hnotices'⟩ :=
    of_decide_eq_true hfacts
  have hrun := run_of_play Run.start hs
  obtain ⟨hagrees, hcan⟩ := bookkeeping_agrees 0 s hrun
  refine ⟨s, hrun, hreceived, hflag, ?_, hcan 7 hreading hentry ?_⟩
  · rcases (hagrees.flag 8 hreading').mp hflag with hsome | hqueued
    · exact hsome
    · have hpos := noticeQueued_iff.mp hqueued
      omega
  · intro hqueued
    have hpos := noticeQueued_iff.mp hqueued
    omega

/-- The answer to an assertion is written while the protocol fiber still waits for the endpoint. -/
def overtaken : List (Action 2) :=
  [.connect 7, .assertLatestBlockId 7 1 1, .take, .serve noFaults, .receiveResponse, .receive 7,
    .finish 7, .reply, .resume 7]

theorem overtaken_client_is_locked_out : ∃ s : System 2, Run 0 (Safe 0) s ∧
    (s.connection 7).protocol = .reading ∧ (s.connection 7).latestBlockIdAssertionSet = true ∧
    s.clientXlatMap 7 = none ∧ ¬ NoticeQueued s 7 ∧ ¬ CanAssert 0 s 7 := by
  have hplay : ((play 0 (Safe 0) (start 2) overtaken).map fun s =>
      decide ((s.connection 7).protocol = .reading ∧
        (s.connection 7).latestBlockIdAssertionSet = true ∧ s.clientXlatMap 7 = none ∧
        (view s 7).notices = 0 ∧ (next 0 s (.assertLatestBlockId 7 2 1)).inbox = [] ∧
        s.inbox = [])) = some true := by
    decide +kernel
  obtain ⟨s, hs, hfacts⟩ := Option.map_eq_some_iff.mp hplay
  obtain ⟨hreading, hflag, hentry, hnotices, hnext, hinbox⟩ := of_decide_eq_true hfacts
  refine ⟨s, run_of_play Run.start hs, hreading, hflag, hentry, ?_, ?_⟩
  · intro hqueued
    have hpos := noticeQueued_iff.mp hqueued
    omega
  · intro hcan
    have hasked := (hcan 2 1).2
    rw [hnext, hinbox] at hasked
    cases hasked

end AssertionBookkeeping
