import Agentd.PublishedBlocks
import Mathlib.Data.List.Sort

/-! # Assertions on the latest block

A client of the notification service asserts that a block is the latest one. While that is what the
service believes the assertion waits in a tree, and the next block update answers it. An answer that
comes without a new block is a spurious one: it is sent when the canonization service announces the
same block twice, or one that was not written. -/
namespace BlockAssertions

open ByteString
open CertificateFields
open FaultyTransactions
open DataserviceRecords
open DataserviceStore
open DataserviceBlocks
open DataserviceRequests
open DataserviceEffects
open DataserviceDispatch
open DataserviceClient
open BlockchainInvariant
open CanonizationService
open CanonizationSystem
open PublishedBlocks

/-! ### Waiting assertions -/

/-- An entry in the tree of an instance. The service keeps the offset; the block id is what was
asserted. -/
structure Assertion where
  client : ℕ
  offset : BitVec 64
  blockId : Uuid
  deriving DecidableEq

def Assertion.upTo (a b : Assertion) : Prop :=
  a.client < b.client ∨ (a.client = b.client ∧ a.offset.toNat ≤ b.offset.toNat)

instance : DecidableRel Assertion.upTo :=
  fun a b => inferInstanceAs (Decidable (a.client < b.client ∨
    (a.client = b.client ∧ a.offset.toNat ≤ b.offset.toNat)))

structure AssertionRequest where
  client : ℕ
  allowed : Bool
  offset : BitVec 64
  payload : Bytes
  allocFails : Bool
  deriving DecidableEq

inductive AssertionStatus where
  | success
  | notAuthorized
  | malformedRequest
  | outOfMemory
  | duplicate
  deriving DecidableEq, Repr

def entryOf (r : AssertionRequest) (assertions : List Assertion) : Option Assertion :=
  assertions.find? fun a => a.client = r.client ∧ a.offset = r.offset

/-- An assertion that waits is not answered. Success is an invalidation. -/
def dispatchBlockAssertion (n : NotificationService) (assertions : List Assertion)
    (r : AssertionRequest) : List Assertion × Option AssertionStatus :=
  if r.allowed = false then (assertions, some .notAuthorized)
  else if r.payload.length ≠ 16 then (assertions, some .malformedRequest)
  else if bits 128 r.payload ≠ n.latestBlockId then (assertions, some .success)
  else if r.allocFails then (assertions, some .outOfMemory)
  else if (entryOf r assertions).isSome then (assertions, some .duplicate)
  else (assertions.orderedInsert Assertion.upTo ⟨r.client, r.offset, bits 128 r.payload⟩, none)

/-- A missing entry is no error. -/
def dispatchBlockAssertionCancel (assertions : List Assertion) (r : AssertionRequest) :
    List Assertion × AssertionStatus :=
  if r.allowed = false then (assertions, .notAuthorized)
  else if r.payload.length ≠ 0 then (assertions, .malformedRequest)
  else (assertions.filter fun a => ¬ (a.client = r.client ∧ a.offset = r.offset), .success)

/-- Where a block update stops: at its list of trees, at the new tree of an instance, when the old
one is put in the list, or at a response. -/
inductive UpdateFault where
  | none
  | listCreate
  | treeCreate (client : ℕ)
  | listAppend (client : ℕ)
  | send (count : ℕ)
  deriving DecidableEq

def keptAssertions (assertions : List Assertion) : UpdateFault → List Assertion
  | .none => []
  | .listCreate => assertions
  | .treeCreate client => assertions.filter fun a => client ≤ a.client
  | .listAppend client => assertions.filter fun a => client < a.client
  | .send _ => []

def answeredAssertions (assertions : List Assertion) : UpdateFault → List Assertion
  | .none => assertions
  | .send count => assertions.take count
  | _ => []

/-! ### The system with its clients -/

structure WatchedSystem where
  system : System
  assertions : List Assertion

inductive WatchedAction where
  | internal (a : Action)
  | update (status : BitVec 32) (fault : UpdateFault)
  | assertion (r : AssertionRequest)
  | cancel (r : AssertionRequest)

/-- The next state, and the waiting assertions that are answered on the way. -/
def watchedStep (E : Env) (B : CertBuilder) (dir : Bytes) (s : WatchedSystem) :
    WatchedAction → Option (WatchedSystem × List Assertion)
  | .internal (.update _) => none
  | .internal a => (step E B dir s.system a).map fun t => (⟨t, s.assertions⟩, [])
  | .update status fault =>
    if status = 0 ↔ fault = .none then
      (step E B dir s.system (.update status)).map fun t =>
        if s.system.notification.blockUpdateAllowed then
          (⟨t, keptAssertions s.assertions fault⟩, answeredAssertions s.assertions fault)
        else (⟨t, s.assertions⟩, [])
    else none
  | .assertion r =>
    some (⟨s.system, (dispatchBlockAssertion s.system.notification s.assertions r).1⟩, [])
  | .cancel r => some (⟨s.system, (dispatchBlockAssertionCancel s.assertions r).1⟩, [])

inductive WatchedExecution (E : Env) (B : CertBuilder) (dir : Bytes)
    (allowed : WatchedSystem → WatchedAction → Prop) (start : WatchedSystem) :
    WatchedSystem → Prop
  | refl : WatchedExecution E B dir allowed start start
  | tail {s t : WatchedSystem} {a : WatchedAction} {answered : List Assertion}
      (before : WatchedExecution E B dir allowed start s) (meets : allowed s a)
      (taken : watchedStep E B dir s a = some (t, answered)) :
      WatchedExecution E B dir allowed start t

/-- A new notification service knows no block and has no assertions. -/
structure WatchedStart (E : Env) (dir : Bytes) (s : WatchedSystem) : Prop where
  start : Start E dir s.system
  unknown : s.system.notification.latestBlockId = zeroUuid
  assertions : s.assertions = []

/-- Block writes are committed and reported as success, and none is reported before the first
announcement was made. -/
def Timely (s : WatchedSystem) : WatchedAction → Prop
  | .internal a => Committed s.system a ∧ ∀ o, a = .dataRead o → ∀ resp,
      Message.dataResponse resp ∈ s.system.net → resp.method = Method.appBlockWrite.code →
      s.system.canon.firstTime = false
  | _ => True

/-! ### What a callback announces -/

/-- A callback other than the one for a block write announces a block the first time through
only. -/
structure Announces (inst : CanonizationService.Instance) (e : Effect) : Prop where
  noResponse : ∀ resp, Message.dataResponse resp ∉ e.2
  firstTime : e.1.firstTime = true → inst.firstTime = true
  update : ∀ u, Message.blockUpdate u ∈ e.2 → inst.firstTime = true ∧ e.1.firstTime = false

section Callbacks

variable {E : Env} {B : CertBuilder} {o : Outside} {inst inst' : CanonizationService.Instance}
  {e : Effect}

theorem announces_nothing (h : inst'.firstTime = inst.firstTime) : Announces inst (inst', []) :=
  ⟨by simp, fun ht => h.symm.trans ht, by simp⟩

theorem announces_exit (h : inst'.firstTime = inst.firstTime) :
    Announces inst (exitEventLoop inst', []) :=
  announces_nothing h

theorem announces_one {m : Message} (h : inst'.firstTime = inst.firstTime)
    (hresp : ∀ resp, m ≠ .dataResponse resp) (hupdate : ∀ u, m ≠ .blockUpdate u) :
    Announces inst (inst', [m]) :=
  ⟨by simpa using fun resp => (hresp resp).symm, fun ht => h.symm.trans ht,
    by simpa using fun u heq => (hupdate u heq.symm).elim⟩

theorem sendreq_announces {packet : Bytes} (h : inst'.firstTime = inst.firstTime) :
    Announces inst (sendreq o inst' packet) := by
  unfold sendreq
  split
  · exact announces_exit h
  · exact announces_one h (by simp) (by simp)

theorem childContextClose_announces (h : inst'.firstTime = inst.firstTime) :
    Announces inst (CanonizationService.childContextClose o inst') := by
  unfold CanonizationService.childContextClose
  split
  · exact announces_exit h
  · exact announces_one h (by simp) (by simp)

theorem completeUpdate_announces (h : inst'.firstTime = inst.firstTime) :
    Announces inst (completeUpdate o inst') := by
  unfold completeUpdate
  split
  · rename_i hfirst
    unfold notifyBlockUpdate
    split
    · exact ⟨by simp, by simp [exitEventLoop], by simp⟩
    · exact ⟨by simp, by simp, fun _ _ => ⟨h.symm.trans hfirst, rfl⟩⟩
  · exact childContextClose_announces h

theorem blockMake_announces (h : inst'.firstTime = inst.firstTime)
    (he : CanonizationService.blockMake B o inst' = some e) : Announces inst e := by
  unfold CanonizationService.blockMake at he
  split at he
  · cases he
  · cases he
    exact completeUpdate_announces h
  · split at he
    · cases he
      exact announces_exit h
    · split at he
      · cases he
      · split at he
        · cases he
          exact announces_exit h
        · split at he
          · cases he
            exact announces_exit h
          · cases he
            exact announces_one h (by simp) (by simp)

theorem collectTransaction_announces {txn : Transaction} (h : inst'.firstTime = inst.firstTime)
    (he : collectTransaction B o inst' txn = some e) : Announces inst e := by
  unfold collectTransaction at he
  split at he
  · cases he
    exact announces_exit h
  · split at he
    · cases he
    · split at he
      · cases he
        exact announces_exit h
      · simp only at he
        split at he
        · exact blockMake_announces (by exact h) he
        · split at he
          · exact blockMake_announces (by exact h) he
          · cases he
            exact sendreq_announces h

theorem timerCb_announces (h : inst'.firstTime = inst.firstTime) :
    Announces inst (timerCb o inst') := by
  unfold timerCb
  split
  · exact announces_nothing h
  · split
    · exact announces_exit h
    · exact announces_one h (by simp) (by simp)

theorem responseChildContextClose_announces
    (he : responseChildContextClose o inst = some e) : Announces inst e := by
  obtain ⟨txns, -, rfl⟩ := Option.map_eq_some_iff.mp he
  unfold reset
  simp only
  split
  · split
    · exact announces_exit rfl
    · exact announces_one rfl (by simp) (by simp)
  · exact timerCb_announces rfl

theorem randomRead_announces {packet : Bytes} :
    Announces inst (CanonizationService.randomRead o inst packet) := by
  unfold CanonizationService.randomRead
  split
  · exact announces_nothing rfl
  · split
    · exact announces_exit rfl
    · split
      · exact announces_exit rfl
      · split
        · exact announces_exit rfl
        · exact sendreq_announces rfl

theorem notifyRead_announces {packet : Bytes} :
    Announces inst (CanonizationService.notifyRead o inst packet) := by
  unfold CanonizationService.notifyRead
  split
  · exact announces_nothing rfl
  · split
    · exact announces_exit rfl
    · split
      · exact announces_exit rfl
      · split
        · exact announces_exit rfl
        · exact childContextClose_announces rfl

theorem responseLatestBlockIdRead_announces {resp : Response} :
    Announces inst (responseLatestBlockIdRead E o inst resp) := by
  unfold responseLatestBlockIdRead
  split
  · simp only
    split
    · exact sendreq_announces rfl
    · exact sendreq_announces rfl
  · exact announces_exit rfl

theorem parseBlock_keeps_firstTime {cert : Bytes} (h : parseBlock E o inst cert = some inst') :
    inst'.firstTime = inst.firstTime := by
  unfold parseBlock at h
  split at h
  · cases h
  · split at h
    · cases h
    · split at h
      · cases h
      · split at h
        · cases h
        · split at h
          · cases h
            rfl
          · cases h
            rfl

theorem responseBlockRead_announces {resp : Response} :
    Announces inst (responseBlockRead E o inst resp) := by
  unfold responseBlockRead
  split
  · simp only
    split
    · exact announces_exit rfl
    · rename_i inst' hparse
      have hkeep := parseBlock_keeps_firstTime hparse
      exact sendreq_announces hkeep
  · exact announces_exit rfl

theorem responseTransactionFirstRead_announces {resp : Response}
    (he : responseTransactionFirstRead B o inst resp = some e) : Announces inst e := by
  unfold responseTransactionFirstRead at he
  split at he
  · split at he
    · cases he
      exact completeUpdate_announces rfl
    · exact collectTransaction_announces rfl he
  · cases he
    exact completeUpdate_announces rfl
  · cases he
    exact announces_exit rfl

theorem responseTransactionRead_announces {resp : Response}
    (he : responseTransactionRead B o inst resp = some e) : Announces inst e := by
  unfold responseTransactionRead at he
  split at he
  · split at he
    · exact blockMake_announces rfl he
    · exact collectTransaction_announces rfl he
  · exact blockMake_announces rfl he
  · cases he
    exact announces_exit rfl

theorem dataRead_announces {resp : Response} (hm : resp.method ≠ Method.appBlockWrite.code)
    (he : CanonizationService.dataRead E B o inst resp = some e) : Announces inst e := by
  unfold CanonizationService.dataRead at he
  split at he
  · cases he
    exact announces_nothing rfl
  split at he
  · cases he
    unfold responseChildContextCreate
    split
    · exact sendreq_announces rfl
    · exact announces_exit rfl
  split at he
  · exact responseChildContextClose_announces he
  split at he
  · exact responseTransactionFirstRead_announces he
  split at he
  · exact responseTransactionRead_announces he
  split at he
  · cases he
    exact responseLatestBlockIdRead_announces
  split at he
  · cases he
    exact responseBlockRead_announces
  cases he
  exact announces_exit rfl

/-- The response to a block write is announced as it is. -/
theorem blockWrite_announces {resp : Response} (hm : resp.method = Method.appBlockWrite.code)
    (he : CanonizationService.dataRead E B o inst resp = some e) :
    e.1.firstTime = inst.firstTime ∧ (∀ r, Message.dataResponse r ∉ e.2) ∧
      ∀ u, Message.blockUpdate u ∈ e.2 → u = inst.blockId := by
  cases hrun : inst.forceExit with
  | true =>
    rw [dataRead_exiting E B hrun] at he
    cases he
    exact ⟨rfl, by simp, by simp⟩
  | false =>
    rw [dataRead_of_blockWrite E B hrun hm] at he
    cases he
    unfold responseBlockWrite notifyBlockUpdate
    split
    · exact ⟨rfl, by simp, by simp⟩
    · exact ⟨rfl, by simp, by simp⟩

end Callbacks

/-! ### Blocks the store knows -/

def Known (E : Env) (d : Store) (id : Uuid) : Prop :=
  id = zeroUuid ∨ id = E.rootBlock ∨ (d.blockDb id).isSome = true

section Store

variable {E : Env} {d : Store} {i : Invocation}

theorem known_of_keys {d' : Store} {id : Uuid} (h : Known E d id)
    (hkeys : ∀ k, (d.blockDb k).isSome = true → (d'.blockDb k).isSome = true) : Known E d' id := by
  rcases h with h | h | h
  · exact Or.inl h
  · exact Or.inr (Or.inl h)
  · exact Or.inr (Or.inr (hkeys id h))

theorem known_latestBlock {dir : Bytes} {s : Service} (h : Chained E dir s) :
    Known E (s.disk dir) (latestBlock E (s.disk dir)) ∧
      latestBlock E (s.disk dir) ≠ zeroUuid := by
  obtain ⟨bs, hc⟩ := h.chain
  rw [latestBlock, hc.expectedPrevBlockId_eq]
  by_cases hne : bs = []
  · subst hne
    exact ⟨Or.inr (Or.inl rfl), E.rootBlock_ne_zero⟩
  · obtain ⟨n, last, hn, hlast, hat⟩ := LinkedKeys.exists_last Block.id E.rootBlock ffUuid hne
    obtain ⟨firstId, hrec⟩ := hc.block n last hlast
    have hid : blockAt E bs bs.length = last.id := hat
    rw [hid]
    exact ⟨Or.inr (Or.inr (by rw [hrec]; rfl)),
      (hc.not_reserved last (List.mem_of_getElem? hlast)).2.1⟩

theorem isSome_update {blk : Uuid → Option Bytes} {key k : Uuid} {b : Bytes}
    (h : (blk k).isSome = true) : (Function.update blk key (some b) k).isSome = true := by
  by_cases hk : k = key
  · rw [hk, Function.update_self]
    rfl
  · rw [Function.update_of_ne hk]
    exact h

theorem blockLinked_keys {blockId : Uuid} {height : BitVec 64} {record : Bytes}
    {endNode : Option Bytes} {blk blk' : Uuid → Option Bytes}
    (h : BlockLinked blockId height record endNode blk blk') {k : Uuid}
    (hk : (blk k).isSome = true) : (blk' k).isSome = true := by
  obtain ⟨-, h⟩ := h
  cases endNode with
  | none =>
    rw [h]
    exact isSome_update (isSome_update (isSome_update hk))
  | some e =>
    obtain ⟨b, -, -, -, rfl⟩ := h
    exact isSome_update (isSome_update (isSome_update hk))

/-- A block that was written had a free id that is not reserved. -/
theorem perform_blockMake_fresh {blockId : Uuid} {blockData : Bytes} {a : Reply}
    (hi : i.request = .blockMake blockId blockData) (hok : (perform E d i).1 = .ok a) {id : Uuid}
    (hid : Known E d id) : id ≠ blockId := by
  obtain ⟨w, -, heff, -⟩ := perform_ok hok
  rw [hi] at heff
  obtain ⟨-, fs, -, hends⟩ := heff
  obtain ⟨first, rest, firstId, blk, cs, -, -, hins, -, -⟩ := blockMakeBody_ends hends
  obtain ⟨hroot, hzero, -⟩ := hins.checked.not_reserved
  rintro rfl
  rcases hid with h | h | h
  · exact hzero h
  · exact hroot h
  · rw [hins.linked.1] at h
    cases h

/-- No block is ever deleted. -/
theorem perform_keys {k : Uuid} (hk : (d.blockDb k).isSome = true) :
    ((perform E d i).2.blockDb k).isSome = true := by
  apply perform_preserves (P := fun w => (w.blockDb k).isSome = true) hk
  intro a w _ heff
  rcases effect_cases heff with ⟨blockId, blockData, fs, -, -, hends⟩ | ⟨-, hsame⟩
  · obtain ⟨first, rest, firstId, blk, cs, -, -, hins, hcs, -⟩ := blockMakeBody_ends hends
    rw [(canonized_blocks hcs).1]
    exact blockLinked_keys hins.linked hk
  · rw [hsame.block]
    exact hk

end Store

/-! ### Serving a request -/

section Serve

variable {E : Env} {s s' : Service} {d : Delivery} {dir : Bytes} {resp : Option Response}
  {st : Except AgentdError Unit} {inst : CanonizationService.Instance}

structure BlocksServed (E : Env) (dir : Bytes) (inst : CanonizationService.Instance)
    (s s' : Service) (resp : Option Response) : Prop where
  keys : ∀ k, ((s.disk dir).blockDb k).isSome = true → ((s'.disk dir).blockDb k).isSome = true
  made : ∀ q, resp = some q → q.method = Method.appBlockWrite.code → q.status = .ok () →
    ∀ id, Known E (s.disk dir) id → id ≠ inst.blockId

theorem blocksServed_context {m : Method} (hm : m.code ≠ Method.appBlockWrite.code)
    (h : KeepsStore s s' m resp) : BlocksServed E dir inst s s' resp := by
  obtain ⟨hdisk, -, hq⟩ := h
  refine ⟨by rw [hdisk]; exact fun _ hk => hk, ?_⟩
  intro q hresp hmethod
  exact absurd ((hq q hresp).symm.trans hmethod) hm

theorem operation_keys {m : Method} {r : DecodedRequest} (he : Encodes d.packet m r)
    (hdir : s.inst.details = .opened dir) (h : decodeAndDispatch E s d = some (s', resp, st))
    (k : Uuid) (hk : ((s.disk dir).blockDb k).isSome = true) :
    ((s'.disk dir).blockDb k).isSome = true := by
  rcases served_operation he hdir h with ⟨rfl, -⟩ | ⟨caps, a, store, hok, rfl, -⟩
  · exact hk
  · have hkeys := perform_keys (E := E) (i := ⟨r.request, caps, d.faults, d.commitFails⟩) hk
    rw [hok] at hkeys
    simpa using hkeys

theorem blocksServed_reading {m : Method} {r : DecodedRequest} (he : Encodes d.packet m r)
    (hm : m.code ≠ Method.appBlockWrite.code) (hdir : s.inst.details = .opened dir)
    (h : decodeAndDispatch E s d = some (s', resp, st)) : BlocksServed E dir inst s s' resp := by
  refine ⟨operation_keys he hdir h, ?_⟩
  intro q hresp hmethod
  have hq : q.method = m.code := by
    rcases served_operation he hdir h with ⟨-, hq⟩ | ⟨_, _, _, -, -, hq⟩
    · exact (hq q hresp).1
    · exact (hq q hresp).1
  exact absurd (hq.symm.trans hmethod) hm

theorem blocksServed_make {child : BitVec 32} {cert : Bytes}
    (hd : d.packet = encodeRequestBlockMake child inst.blockId cert)
    (hdir : s.inst.details = .opened dir) (h : decodeAndDispatch E s d = some (s', resp, st)) :
    BlocksServed E dir inst s s' resp := by
  have he := encodes_blockMake child inst.blockId cert
  rw [← hd] at he
  refine ⟨operation_keys he hdir h, ?_⟩
  rintro q hresp - hstatus id hid
  rcases served_operation he hdir h with ⟨-, hq⟩ | ⟨caps, a, store, hok, -, -⟩
  · obtain ⟨-, e, he⟩ := hq q hresp
    rw [he] at hstatus
    cases hstatus
  · have hfirst := congrArg Prod.fst hok
    exact perform_blockMake_fresh rfl hfirst hid

theorem blocksServed_flight {latest : Uuid} (hdir : s.inst.details = .opened dir)
    (hf : RequestFlight latest inst d.packet)
    (h : decodeAndDispatch E s d = some (s', resp, st)) : BlocksServed E dir inst s s' resp := by
  generalize hpacket : d.packet = packet at hf
  cases hf with
  | create => exact blocksServed_context (by decide) (served_childContextCreate hpacket h)
  | close child => exact blocksServed_context (by decide) (served_childContextClose hpacket h)
  | latest child =>
    have he := encodes_latestBlockIdGet child
    rw [← hpacket] at he
    exact blocksServed_reading he (by decide) hdir h
  | block child _ =>
    have he := encodes_blockGet child inst.previousBlockId true
    rw [← hpacket] at he
    exact blocksServed_reading he (by decide) hdir h
  | first child _ =>
    have he := encodes_transactionGetFirst child
    rw [← hpacket] at he
    exact blocksServed_reading he (by decide) hdir h
  | next child txnId _ =>
    have he := encodes_transactionGet child txnId
    rw [← hpacket] at he
    exact blocksServed_reading he (by decide) hdir h
  | make child cert => exact blocksServed_make hpacket hdir h

end Serve

/-! ### Runs -/

/-- What the notification service holds on to: its latest block and the asserted ones. -/
def remembered (s : WatchedSystem) : List Uuid :=
  s.system.notification.latestBlockId :: s.assertions.map Assertion.blockId

/-- Nothing that is remembered is new: before the first announcement it is the zero id, and a block
on its way to the notification service is none of it. -/
structure Fresh (E : Env) (dir : Bytes) (s : WatchedSystem) : Prop where
  known : ∀ id ∈ remembered s, Known E (s.system.store dir) id
  early : s.system.canon.running = false ∨ s.system.canon.firstTime = true →
    ∀ id ∈ remembered s, id = zeroUuid
  update : ∀ u, Message.blockUpdate u ∈ s.system.net → s.system.canon.firstTime = false ∧
    ∀ id ∈ remembered s, id ≠ u
  made : ∀ resp, Message.dataResponse resp ∈ s.system.net →
    resp.method = Method.appBlockWrite.code → resp.status = .ok () →
    ∀ id ∈ remembered s, id ≠ s.system.canon.blockId

section Runs

variable {E : Env} {B : CertBuilder} {dir : Bytes} {s t : WatchedSystem} {u : System}

/-- A block on its way is the latest one, so it is new as long as nothing was announced. -/
theorem Fresh.ne_of_early (h : Fresh E dir s) (hinv : Invariant E dir u)
    (hfirst : s.system.canon.firstTime = true) {b : Uuid} (hb : Message.blockUpdate b ∈ u.net)
    {id : Uuid} (hid : id ∈ remembered s) : id ≠ b := by
  have hlatest : b = latestBlock E (u.store dir) := hinv.flight _ hb
  rw [h.early (Or.inr hfirst) id hid, hlatest]
  exact (known_latestBlock hinv.chained).2.symm

theorem Fresh.afterCallback {e : Option Effect} (h : Fresh E dir s)
    (hrun : s.system.canon.running = true) (hinv : Invariant E dir u)
    (hann : ∀ e', e = some e' → Announces s.system.canon e')
    (hsends : ∀ e', e = some e' → e'.1.running = s.system.canon.running)
    (hstep : callback s.system [] e = some u) : Fresh E dir ⟨u, s.assertions⟩ := by
  have hu := hstep
  unfold callback at hu
  split at hu
  · cases hu
  · obtain ⟨e', he, rfl⟩ := Option.map_eq_some_iff.mp hu
    have ha := hann e' he
    refine ⟨h.known, ?_, ?_, ?_⟩
    · rintro (hidle | hfirst)
      · have hrun' : e'.1.running = true := (hsends e' he).trans hrun
        exact absurd (hrun'.symm.trans hidle) (by decide)
      · exact h.early (Or.inr (ha.firstTime hfirst))
    · intro b hb
      have hb' : Message.blockUpdate b ∈ e'.2 := by simpa using hb
      obtain ⟨hfirst, hcleared⟩ := ha.update b hb'
      exact ⟨hcleared, fun id hid => h.ne_of_early hinv hfirst hb hid⟩
    · intro resp hresp
      exact (ha.noResponse resp (by simpa using hresp)).elim

/-- The announcement of a block that was written. -/
theorem Fresh.afterBlockWrite {o : Outside} {resp : Response} (h : Fresh E dir s)
    (hrun : s.system.canon.running = true) (hresp : Message.dataResponse resp ∈ s.system.net)
    (hm : resp.method = Method.appBlockWrite.code) (hok : resp.status = .ok ())
    (hfirst : s.system.canon.firstTime = false)
    (hsends : ∀ e, CanonizationService.dataRead E B o s.system.canon resp = some e →
      e.1.running = s.system.canon.running)
    (hstep : callback s.system [] (CanonizationService.dataRead E B o s.system.canon resp) =
      some u) : Fresh E dir ⟨u, s.assertions⟩ := by
  unfold callback at hstep
  split at hstep
  · cases hstep
  · obtain ⟨e, he, rfl⟩ := Option.map_eq_some_iff.mp hstep
    obtain ⟨hsame, hnone, hupdate⟩ := blockWrite_announces hm he
    refine ⟨h.known, ?_, ?_, ?_⟩
    · rintro (hidle | hagain)
      · have hrun' : e.1.running = true := (hsends e he).trans hrun
        exact absurd (hrun'.symm.trans hidle) (by decide)
      · have hset : e.1.firstTime = true := hagain
        rw [hsame, hfirst] at hset
        cases hset
    · intro b hb
      have hb' : Message.blockUpdate b ∈ e.2 := by simpa using hb
      refine ⟨hsame.trans hfirst, ?_⟩
      rw [hupdate b hb']
      exact h.made resp hresp hm hok
    · intro q hq
      exact (hnone q (by simpa using hq)).elim

/-- The first-time flag is set by the start of the service only. -/
theorem controlRead_firstTime (o : Outside) (inst : CanonizationService.Instance)
    (c : ControlCommand) : inst.running = false ∨
      ((controlRead o inst c).1.firstTime = inst.firstTime ∧
        (controlRead o inst c).1.running = inst.running) := by
  cases hrun : inst.running with
  | false => exact Or.inl rfl
  | true =>
    right
    cases c with
    | configure maxMilliseconds maxTransactions =>
      rw [controlRead]
      split
      · exact ⟨rfl, hrun⟩
      · exact ⟨rfl, hrun⟩
    | privateKeySet key =>
      rw [controlRead]
      split
      · exact ⟨rfl, hrun⟩
      · split
        · exact ⟨rfl, hrun⟩
        · exact ⟨rfl, hrun⟩
    | start =>
      rw [controlRead]
      simp only
      split
      · exact ⟨rfl, hrun⟩
      · rw [if_pos (by simp [hrun])]
        split
        · exact ⟨rfl, hrun⟩
        · exact ⟨rfl, hrun⟩
    | bad =>
      rw [controlRead]
      split
      · exact ⟨rfl, hrun⟩
      · exact ⟨rfl, hrun⟩

theorem Fresh.afterControl {o : Outside} {c : ControlCommand} (h : Fresh E dir s)
    (hinv : Invariant E dir s.system)
    (hstep : callback s.system s.system.net (some (controlRead o s.system.canon c)) = some u) :
    Fresh E dir ⟨u, s.assertions⟩ := by
  unfold callback at hstep
  split at hstep
  · cases hstep
  · cases hstep
    obtain ⟨hid, -, hsent⟩ := controlRead_cases o s.system.canon c
    have hnew : ∀ m ∈ (controlRead o s.system.canon c).2, m = Message.timer := by
      rcases hsent with ⟨hsent, -⟩ | ⟨hsent, -⟩
      · simp [hsent]
      · simp [hsent]
    have hold : ∀ m, m ≠ Message.timer →
        m ∈ s.system.net ++ (controlRead o s.system.canon c).2 → m ∈ s.system.net := by
      intro m hne hmem
      rcases List.mem_append.mp hmem with hmem | hmem
      · exact hmem
      · exact absurd (hnew m hmem) hne
    rcases controlRead_firstTime o s.system.canon c with hidle | ⟨hfirst, hrun⟩
    · have hnet := hinv.idle hidle
      refine ⟨h.known, fun _ => h.early (Or.inl hidle), ?_, ?_⟩
      · intro b hb
        have hb' := hold _ (by simp) hb
        rw [hnet] at hb'
        cases hb'
      · intro resp hresp
        have hresp' := hold _ (by simp) hresp
        rw [hnet] at hresp'
        cases hresp'
    · refine ⟨h.known, ?_, ?_, ?_⟩
      · rintro (hidle | hset)
        · exact h.early (Or.inl (hrun.symm.trans hidle))
        · exact h.early (Or.inr (hfirst.symm.trans hset))
      · intro b hb
        obtain ⟨hcleared, hne⟩ := h.update b (hold _ (by simp) hb)
        exact ⟨hfirst.trans hcleared, hne⟩
      · intro resp hresp hm hok
        show ∀ id ∈ remembered s, id ≠ (controlRead o s.system.canon c).1.blockId
        rw [hid]
        exact h.made resp (hold _ (by simp) hresp) hm hok

theorem Fresh.afterServe {d : Delivery} {packet : Bytes} {net : List Message} (h : Fresh E dir s)
    (hinv : Invariant E dir s.system)
    (ht : takeMessage isDataRequest s.system.net = some (packet, net))
    (hstep : serveData E s.system d packet net = some u) : Fresh E dir ⟨u, s.assertions⟩ := by
  obtain ⟨m, hnet, hk, rfl, hrun⟩ := hinv.take ht
  obtain rfl := eq_of_isDataRequest hk
  unfold serveData at hstep
  split at hstep
  · cases hstep
  · split at hstep
    · cases hstep
      exact ⟨h.known, h.early, by simp, by simp⟩
    · obtain ⟨⟨data, resp, st⟩, hserved, rfl⟩ := Option.map_eq_some_iff.mp hstep
      have hflight : RequestFlight (latestBlock E (s.system.store dir)) s.system.canon packet :=
        hinv.flight (.dataRequest packet) (by simp [hnet])
      have hblocks := blocksServed_flight hinv.chained.opened
        (by exact hflight) hserved
      refine ⟨fun id hid => known_of_keys (h.known id hid) hblocks.keys, h.early, ?_, ?_⟩
      · intro b hb
        simp at hb
      · intro q hq hmethod hok id hid
        have hresp : resp = some q := by simpa using hq
        exact hblocks.made q hresp hmethod hok id (h.known id hid)

theorem Fresh.afterClient {i : Invocation} (h : Fresh E dir s)
    (hcap : bitcapIsset i.caps .appBlockWrite = false) :
    Fresh E dir ⟨{ s.system with data := { s.system.data with
      disk := Function.update s.system.data.disk dir
        (perform E (s.system.data.disk dir) i).2 } }, s.assertions⟩ := by
  have hblock := (perform_uncapped_keeps_blocks (E := E) (d := s.system.data.disk dir) hcap).1
  refine ⟨?_, h.early, h.update, h.made⟩
  intro id hid
  apply known_of_keys (h.known id hid)
  intro k hk
  simp only [System.store, Function.update_self, hblock]
  exact hk

theorem latestBlockId_dispatchBlockUpdate (n : NotificationService) (status : BitVec 32)
    (b : Uuid) :
    (dispatchBlockUpdate n status b).1.latestBlockId = n.latestBlockId ∨
      (dispatchBlockUpdate n status b).1.latestBlockId = b := by
  unfold dispatchBlockUpdate
  simp only
  split
  · exact Or.inl rfl
  · exact Or.inr rfl

/-- What was remembered, or the block that was just announced. -/
theorem Fresh.afterUpdate {status : BitVec 32} {assertions : List Assertion}
    (h : Fresh E dir s) (hinv : Invariant E dir s.system)
    (hstep : step E B dir s.system (.update status) = some u)
    (hkept : assertions ⊆ s.assertions) : Fresh E dir ⟨u, assertions⟩ := by
  obtain ⟨⟨b, net⟩, ht, hstep⟩ := Option.bind_eq_some_iff.mp hstep
  obtain ⟨m, hnet, hk, rfl, hrun⟩ := hinv.take ht
  obtain rfl := eq_of_isBlockUpdate hk
  rw [← Option.some.inj hstep]
  have hmem : Message.blockUpdate b ∈ s.system.net := by simp [hnet]
  have hlatest : b = latestBlock E (s.system.store dir) := hinv.flight _ hmem
  obtain ⟨hcleared, -⟩ := h.update b hmem
  refine ⟨?_, ?_, by simp, by simp⟩
  · intro id hid
    rcases List.mem_cons.mp hid with rfl | hid
    · rcases latestBlockId_dispatchBlockUpdate s.system.notification status b with heq | heq
      · exact heq ▸ h.known _ (List.mem_cons_self ..)
      · have hknown := (known_latestBlock hinv.chained).1
        have hid : (dispatchBlockUpdate s.system.notification status b).1.latestBlockId =
            latestBlock E (s.system.store dir) := heq.trans hlatest
        exact hid ▸ hknown
    · exact h.known id (List.mem_cons_of_mem _ (List.map_subset _ hkept hid))
  · rintro (hidle | hset)
    · exact absurd (hrun.symm.trans hidle) (by decide)
    · exact absurd (hcleared.symm.trans hset) (by decide)

theorem keptAssertions_subset (assertions : List Assertion) (fault : UpdateFault) :
    keptAssertions assertions fault ⊆ assertions := by
  cases fault with
  | none => exact List.nil_subset _
  | listCreate => exact List.Subset.refl _
  | treeCreate client => exact fun a ha => List.mem_of_mem_filter ha
  | listAppend client => exact fun a ha => List.mem_of_mem_filter ha
  | send count => exact List.nil_subset _

theorem answeredAssertions_subset (assertions : List Assertion) (fault : UpdateFault) :
    answeredAssertions assertions fault ⊆ assertions := by
  cases fault with
  | none => exact List.Subset.refl _
  | send count => exact List.take_subset _ _
  | _ => exact List.nil_subset _

/-- Only asserted ids that are the latest known one are added. -/
theorem Fresh.of_remembered {assertions : List Assertion} (h : Fresh E dir s)
    (hsub : ∀ a ∈ assertions, a.blockId ∈ remembered s) : Fresh E dir ⟨s.system, assertions⟩ := by
  have hmem : ∀ id ∈ remembered ⟨s.system, assertions⟩, id ∈ remembered s := by
    intro id hid
    rcases List.mem_cons.mp hid with rfl | hid
    · exact List.mem_cons_self ..
    · obtain ⟨a, ha, rfl⟩ := List.mem_map.mp hid
      exact hsub a ha
  exact ⟨fun id hid => h.known id (hmem id hid),
    fun hearly id hid => h.early hearly id (hmem id hid),
    fun b hb => ⟨(h.update b hb).1, fun id hid => (h.update b hb).2 id (hmem id hid)⟩,
    fun resp hresp hm hok id hid => h.made resp hresp hm hok id (hmem id hid)⟩

theorem mem_remembered {a : Assertion} (ha : a ∈ s.assertions) : a.blockId ∈ remembered s :=
  List.mem_cons_of_mem _ (List.mem_map_of_mem ha)

theorem Fresh.afterAssertion {r : AssertionRequest} (h : Fresh E dir s) :
    Fresh E dir ⟨s.system,
      (dispatchBlockAssertion s.system.notification s.assertions r).1⟩ := by
  apply h.of_remembered
  intro a ha
  unfold dispatchBlockAssertion at ha
  split at ha
  · exact mem_remembered ha
  split at ha
  · exact mem_remembered ha
  split at ha
  · exact mem_remembered ha
  rename_i hlatest
  split at ha
  · exact mem_remembered ha
  split at ha
  · exact mem_remembered ha
  rcases (List.mem_orderedInsert _).mp ha with rfl | ha
  · rw [not_not.mp hlatest]
    exact List.mem_cons_self ..
  · exact mem_remembered ha

theorem Fresh.afterCancel {r : AssertionRequest} (h : Fresh E dir s) :
    Fresh E dir ⟨s.system, (dispatchBlockAssertionCancel s.assertions r).1⟩ := by
  apply h.of_remembered
  intro a ha
  unfold dispatchBlockAssertionCancel at ha
  split at ha
  · exact mem_remembered ha
  split at ha
  · exact mem_remembered ha
  · exact mem_remembered (List.mem_of_mem_filter ha)

/-- What the steps other than a block update keep. -/
theorem fresh_internal {a : Action} (h : Fresh E dir s) (hinv : Invariant E dir s.system)
    (hok : Timely s (.internal a)) (hne : ∀ status, a ≠ .update status)
    (hstep : step E B dir s.system a = some u) : Fresh E dir ⟨u, s.assertions⟩ := by
  have hinv' := step_preserves_invariant hinv hok.1 hstep
  cases a with
  | control o c => exact h.afterControl hinv hstep
  | timer o =>
    obtain ⟨⟨_, net⟩, ht, hstep⟩ := Option.bind_eq_some_iff.mp hstep
    obtain ⟨m, -, -, rfl, hrun⟩ := hinv.take ht
    have hsends : Sends zeroUuid s.system.canon (timerCb o s.system.canon) := timerCb_sends rfl
    exact h.afterCallback hrun hinv' (fun e he => Option.some.inj he ▸ timerCb_announces rfl)
      (fun e he => Option.some.inj he ▸ hsends.running) hstep
  | random packet =>
    obtain ⟨⟨_, net⟩, ht, hstep⟩ := Option.bind_eq_some_iff.mp hstep
    obtain ⟨m, -, -, rfl, -⟩ := hinv.take ht
    cases hstep
    exact ⟨h.known, h.early, by simp, by simp⟩
  | randomRead o =>
    obtain ⟨⟨packet, net⟩, ht, hstep⟩ := Option.bind_eq_some_iff.mp hstep
    obtain ⟨m, -, -, rfl, hrun⟩ := hinv.take ht
    have hsends : Sends zeroUuid s.system.canon
        (CanonizationService.randomRead o s.system.canon packet) := randomRead_sends
    exact h.afterCallback hrun hinv' (fun e he => Option.some.inj he ▸ randomRead_announces)
      (fun e he => Option.some.inj he ▸ hsends.running) hstep
  | serve d =>
    obtain ⟨⟨packet, net⟩, ht, hstep⟩ := Option.bind_eq_some_iff.mp hstep
    exact h.afterServe hinv ht hstep
  | dataRead o =>
    obtain ⟨⟨resp, net⟩, ht, hstep⟩ := Option.bind_eq_some_iff.mp hstep
    obtain ⟨m, hnet, hk, rfl, hrun⟩ := hinv.take ht
    obtain rfl := eq_of_isDataResponse hk
    have hmem : Message.dataResponse resp ∈ s.system.net := by simp [hnet]
    have hsends : ∀ e, CanonizationService.dataRead E B o s.system.canon resp = some e →
        e.1.running = s.system.canon.running := fun e he =>
      (dataRead_sends (hinv.flight _ hmem) (hok.1 resp hmem) he).running
    by_cases hwrite : resp.method = Method.appBlockWrite.code
    · exact h.afterBlockWrite hrun hmem hwrite (hok.1 resp hmem hwrite)
        (hok.2 o rfl resp hmem hwrite) hsends hstep
    · exact h.afterCallback hrun hinv' (fun e he => dataRead_announces hwrite he) hsends hstep
  | update status => exact (hne status rfl).elim
  | notifyRead o =>
    obtain ⟨⟨packet, net⟩, ht, hstep⟩ := Option.bind_eq_some_iff.mp hstep
    obtain ⟨m, -, -, rfl, hrun⟩ := hinv.take ht
    have hsends : Sends zeroUuid s.system.canon
        (CanonizationService.notifyRead o s.system.canon packet) := notifyRead_sends
    exact h.afterCallback hrun hinv' (fun e he => Option.some.inj he ▸ notifyRead_announces)
      (fun e he => Option.some.inj he ▸ hsends.running) hstep
  | client i =>
    rw [step] at hstep
    split at hstep
    · cases hstep
    · rename_i hcap
      cases hstep
      exact h.afterClient (by simpa using hcap)

/-- A step is one of the services among themselves, a block update, or a request of a client. -/
theorem watchedStep_cases {a : WatchedAction} {answered : List Assertion}
    (h : watchedStep E B dir s a = some (t, answered)) :
    (∃ a' u, a = .internal a' ∧ (∀ status, a' ≠ .update status) ∧
      step E B dir s.system a' = some u ∧ t = ⟨u, s.assertions⟩ ∧ answered = []) ∨
    (∃ status u assertions, step E B dir s.system (.update status) = some u ∧
      assertions ⊆ s.assertions ∧ t = ⟨u, assertions⟩ ∧ answered ⊆ s.assertions) ∨
    ((∃ r, t = ⟨s.system, (dispatchBlockAssertion s.system.notification s.assertions r).1⟩ ∨
      t = ⟨s.system, (dispatchBlockAssertionCancel s.assertions r).1⟩) ∧ answered = []) := by
  cases a with
  | internal a' =>
    by_cases hne : ∀ status, a' ≠ .update status
    · have hmap : (step E B dir s.system a').map (fun u => (⟨u, s.assertions⟩, [])) =
          some (t, answered) := by
        cases a' with
        | update status => exact absurd rfl (hne status)
        | _ => exact h
      obtain ⟨u, hu, heq⟩ := Option.map_eq_some_iff.mp hmap
      obtain ⟨ht, hanswered⟩ := Prod.mk.inj heq
      exact Or.inl ⟨a', u, rfl, hne, hu, ht.symm, hanswered.symm⟩
    · push Not at hne
      obtain ⟨status, rfl⟩ := hne
      cases h
  | update status fault =>
    rw [watchedStep] at h
    split at h
    · obtain ⟨u, hu, heq⟩ := Option.map_eq_some_iff.mp h
      split at heq
      · obtain ⟨ht, hanswered⟩ := Prod.mk.inj heq
        exact Or.inr (Or.inl ⟨status, u, _, hu, keptAssertions_subset _ fault, ht.symm,
          hanswered ▸ answeredAssertions_subset _ fault⟩)
      · obtain ⟨ht, hanswered⟩ := Prod.mk.inj heq
        exact Or.inr (Or.inl ⟨status, u, _, hu, List.Subset.refl _, ht.symm,
          hanswered ▸ List.nil_subset _⟩)
    · cases h
  | assertion r =>
    obtain ⟨ht, hanswered⟩ := Prod.mk.inj (Option.some.inj h)
    exact Or.inr (Or.inr ⟨⟨r, Or.inl ht.symm⟩, hanswered.symm⟩)
  | cancel r =>
    obtain ⟨ht, hanswered⟩ := Prod.mk.inj (Option.some.inj h)
    exact Or.inr (Or.inr ⟨⟨r, Or.inr ht.symm⟩, hanswered.symm⟩)

theorem watchedStep_preserves {a : WatchedAction} {answered : List Assertion}
    (hinv : Invariant E dir s.system) (h : Fresh E dir s) (hok : Timely s a)
    (hstep : watchedStep E B dir s a = some (t, answered)) :
    Invariant E dir t.system ∧ Fresh E dir t := by
  rcases watchedStep_cases hstep with ⟨a', u, rfl, hne, hu, rfl, -⟩ |
    ⟨status, u, assertions, hu, hkept, rfl, -⟩ | ⟨⟨r, rfl | rfl⟩, -⟩
  · exact ⟨step_preserves_invariant hinv hok.1 hu, fresh_internal h hinv hok hne hu⟩
  · have hcommitted : Committed s.system (.update status) := trivial
    exact ⟨step_preserves_invariant hinv hcommitted hu, h.afterUpdate hinv hu hkept⟩
  · exact ⟨hinv, h.afterAssertion⟩
  · exact ⟨hinv, h.afterCancel⟩

theorem watched_execution_preserves {s₀ : WatchedSystem} (h₀ : WatchedStart E dir s₀)
    (h : WatchedExecution E B dir Timely s₀ s) : Invariant E dir s.system ∧ Fresh E dir s := by
  induction h with
  | refl =>
    have hzero : ∀ id ∈ remembered s₀, id = zeroUuid := by
      simp [remembered, h₀.assertions, h₀.unknown]
    refine ⟨invariant_start h₀.start, fun id hid => Or.inl (hzero id hid), fun _ => hzero, ?_, ?_⟩
    · simp [h₀.start.net]
    · simp [h₀.start.net]
  | tail before meets taken ih => exact watchedStep_preserves ih.1 ih.2 meets taken

/-- While block writes succeed and none is reported before the first announcement, an assertion is
answered only when another block has become the latest, and an announced block is not the one that
was announced before. -/
theorem invalidations_have_a_new_block {s₀ : WatchedSystem} (h₀ : WatchedStart E dir s₀)
    (h : WatchedExecution E B dir Timely s₀ s) :
    (∀ a answered t, watchedStep E B dir s a = some (t, answered) → ∃ b,
      (perform E (s.system.store dir) (workingCall .latestBlockIdGet)).1 = .ok (.blockId b) ∧
        ∀ x ∈ answered, x.blockId ≠ b) ∧
    ∀ u, Message.blockUpdate u ∈ s.system.net → u ≠ s.system.notification.latestBlockId := by
  obtain ⟨hinv, hfresh⟩ := watched_execution_preserves h₀ h
  refine ⟨?_, fun u hu => ((hfresh.update u hu).2 _ (List.mem_cons_self ..)).symm⟩
  intro a answered t hstep
  obtain ⟨bs, hc⟩ := hinv.chained.chain
  have hread := perform_latestBlockIdGet hc (i := workingCall .latestBlockIdGet) rfl
    (workingCall_works _).lmdb (workingCall_permitted _)
  rw [← hc.expectedPrevBlockId_eq] at hread
  refine ⟨_, congrArg Prod.fst hread, ?_⟩
  rcases watchedStep_cases hstep with ⟨-, -, -, -, -, -, rfl⟩ |
    ⟨status, u, -, hu, -, -, hanswered⟩ | ⟨-, rfl⟩
  · simp
  · obtain ⟨⟨b, net⟩, ht, -⟩ := Option.bind_eq_some_iff.mp hu
    obtain ⟨m, hnet, hk, -, -⟩ := hinv.take ht
    have hmem : Message.blockUpdate b ∈ s.system.net := by
      cases m with
      | blockUpdate b' =>
        cases hk
        simp [hnet]
      | _ => cases hk
    have hlatest : b = latestBlock E (s.system.store dir) := hinv.flight _ hmem
    intro x hx
    have hne := (hfresh.update b hmem).2 _ (mem_remembered (hanswered hx))
    rw [hlatest] at hne
    exact hne
  · simp

end Runs

/-! A run along a list of actions. -/

def watchedExecute (E : Env) (B : CertBuilder) (dir : Bytes)
    (check : WatchedSystem → WatchedAction → Bool) (s : WatchedSystem) (as : List WatchedAction) :
    Option WatchedSystem :=
  as.foldlM (fun s a => if check s a then (watchedStep E B dir s a).map Prod.fst else none) s

theorem watchedExecution_of_execute {E : Env} {B : CertBuilder} {dir : Bytes}
    {check : WatchedSystem → WatchedAction → Bool}
    {allowed : WatchedSystem → WatchedAction → Prop}
    (hcheck : ∀ s a, check s a = true → allowed s a) {start s t : WatchedSystem}
    {as : List WatchedAction} (hs : WatchedExecution E B dir allowed start s)
    (h : watchedExecute E B dir check s as = some t) :
    WatchedExecution E B dir allowed start t := by
  induction as generalizing s with
  | nil =>
    cases h
    exact hs
  | cons a as ih =>
    rw [watchedExecute, List.foldlM_cons] at h
    obtain ⟨u, hu, hrest⟩ := Option.bind_eq_some_iff.mp h
    split at hu
    · rename_i hc
      obtain ⟨⟨u', answered⟩, hstep, rfl⟩ := Option.map_eq_some_iff.mp hu
      exact ih (hs.tail (hcheck _ _ hc) hstep) hrest
    · cases hu

def watchedStartSystem (d : Store) : WatchedSystem := ⟨startSystem d, []⟩

theorem watchedStart_queuedStore {cert : Bytes} (hne : cert ≠ [])
    (hlen : cert.length < maxPayload) :
    WatchedStart (codecEnv false) [47] (watchedStartSystem (queuedStore cert)) :=
  ⟨start_queuedStore cert hne hlen, rfl, rfl⟩

def announceActions : List WatchedAction :=
  [.update 0 .none] ++ ([Action.notifyRead (allWorks 0)] ++ exchanges 1).map .internal

def roundActions (blockId : Uuid) (n : ℕ) : List WatchedAction :=
  ([Action.timer (allWorks 0), .random (randomPacket blockId), .randomRead (allWorks 0)] ++
    exchanges n).map .internal

def assertBlock (blockId : Uuid) : WatchedAction := .assertion ⟨0, true, 5, be 16 blockId, false⟩

def timelyCheck (s : WatchedSystem) : WatchedAction → Bool
  | .internal (.dataRead o) => committedCheck s.system (.dataRead o) && s.system.net.all fun m =>
      match m with
      | .dataResponse resp =>
        resp.method != Method.appBlockWrite.code || !s.system.canon.firstTime
      | _ => true
  | .internal a => committedCheck s.system a
  | _ => true

theorem timely_of_check (s : WatchedSystem) (a : WatchedAction) (h : timelyCheck s a = true) :
    Timely s a := by
  cases a with
  | internal a =>
    cases a with
    | dataRead o =>
      obtain ⟨hcommitted, hall⟩ := Bool.and_eq_true_iff.mp h
      refine ⟨committed_of_check _ _ hcommitted, ?_⟩
      intro _ _ resp hmem hmethod
      have hresp := List.all_eq_true.mp hall _ hmem
      simpa [hmethod] using hresp
    | _ => exact ⟨committed_of_check _ _ h, by rintro _ ⟨⟩⟩
  | _ => trivial

def submitCall (cert : Bytes) : Invocation :=
  ⟨.transactionSubmit 5 7 cert, bitcapSetTrue 0 .appPqTransactionSubmit, noFaults, false⟩

/-- The root block is announced and asserted, then a transaction arrives and its block answers the
assertion. -/
theorem assertion_waits_for_a_block :
    ∃ s t b, WatchedExecution (codecEnv false) codecBuilder [47] Timely
        (watchedStartSystem emptyStore) s ∧
      watchedStep (codecEnv false) codecBuilder [47] s (.update 0 .none) =
        some (t, [⟨0, 5, 1⟩]) ∧
      (perform (codecEnv false) (s.system.store [47]) (workingCall .latestBlockIdGet)).1 =
        .ok (.blockId b) ∧ b ≠ 1 ∧ .blockUpdate 9 ∈ s.system.net ∧
      s.system.notification.latestBlockId ≠ 9 := by
  have hstart : WatchedStart (codecEnv false) [47] (watchedStartSystem emptyStore) :=
    ⟨start_startSystem .nil, rfl, rfl⟩
  have hrun : ((watchedExecute (codecEnv false) codecBuilder [47] timelyCheck
      (watchedStartSystem emptyStore)
      ((startActions 10 8 ++ exchanges 3).map .internal ++ announceActions ++ [assertBlock 1] ++
        [.internal (.client (submitCall (transactionCert 5 0 7 1)))] ++ roundActions 9 4)).bind
        fun s => (watchedStep (codecEnv false) codecBuilder [47] s (.update 0 .none)).map fun r =>
          (r.2, s.system.net)) = some ([⟨0, 5, 1⟩], [.blockUpdate 9]) := by
    decide +kernel
  obtain ⟨s, hs, hrest⟩ := Option.bind_eq_some_iff.mp hrun
  obtain ⟨⟨t, answered⟩, hstep, heq⟩ := Option.map_eq_some_iff.mp hrest
  obtain ⟨rfl, hnet⟩ := Prod.mk.inj heq
  have hexec := watchedExecution_of_execute timely_of_check .refl hs
  obtain ⟨hanswers, hupdates⟩ := invalidations_have_a_new_block hstart hexec
  obtain ⟨b, hb, hne⟩ := hanswers _ _ _ hstep
  have hmem : Message.blockUpdate 9 ∈ s.system.net := by simp [hnet]
  exact ⟨s, t, b, hexec, hstep, hb, (hne _ (List.mem_singleton_self _)).symm, hmem,
    (hupdates 9 hmem).symm⟩

/-- The first round makes block 9 and announces it; the second one has nothing to do and announces
it again, which answers an assertion that block 9 is the latest. -/
theorem first_block_is_announced_twice :
    WatchedStart (codecEnv false) [47]
      (watchedStartSystem (queuedStore (transactionCert 5 0 7 1))) ∧
    ∃ s t, WatchedExecution (codecEnv false) codecBuilder [47] (fun _ _ => True)
        (watchedStartSystem (queuedStore (transactionCert 5 0 7 1))) s ∧
      watchedStep (codecEnv false) codecBuilder [47] s (.update 0 .none) =
        some (t, [⟨0, 5, 9⟩]) ∧
      (perform (codecEnv false) (s.system.store [47]) (workingCall .latestBlockIdGet)).1 =
        .ok (.blockId 9) := by
  refine ⟨watchedStart_queuedStore (by decide) (by decide), ?_⟩
  have hrun : ((watchedExecute (codecEnv false) codecBuilder [47] (fun _ _ => true)
      (watchedStartSystem (queuedStore (transactionCert 5 0 7 1)))
      ((startActions 10 9 ++ exchanges 4).map .internal ++ announceActions ++ [assertBlock 9] ++
        roundActions 8 4)).bind fun s =>
        (watchedStep (codecEnv false) codecBuilder [47] s (.update 0 .none)).map fun r =>
          (r.2, (perform (codecEnv false) (s.system.store [47])
            (workingCall .latestBlockIdGet)).1)) = some ([⟨0, 5, 9⟩], .ok (.blockId 9)) := by
    decide +kernel
  obtain ⟨s, hs, hrest⟩ := Option.bind_eq_some_iff.mp hrun
  obtain ⟨⟨t, answered⟩, hstep, heq⟩ := Option.map_eq_some_iff.mp hrest
  obtain ⟨rfl, hlatest⟩ := Prod.mk.inj heq
  exact ⟨s, t, watchedExecution_of_execute (fun _ _ _ => trivial) .refl hs, hstep, hlatest⟩

end BlockAssertions
