import Agentd.BlockContents

/-! # Reachable stores

What every sequence of calls leaves behind, whatever ids clients choose and whatever fails on the
way. A transaction may carry the id of a sentinel: the first submit then writes the sentinels over
its record. With the id of the start sentinel the start record names itself until the next submit;
with that of the end sentinel it names the end record for ever. Otherwise `pq.db` represents a
queue. -/
namespace ReachableStores

open ByteString
open CertificateFields
open FaultyTransactions
open DataserviceRecords
open DataserviceStore
open DataserviceQueue
open DataserviceBlocks
open DataserviceRequests
open DataserviceEffects
open DataserviceClient (maxTransactionCertificateSize)
open ProcessQueueRefinement
open ProcessQueueRuns
open BlockchainInvariant
open CanonizedRecords
open BlockAcceptance
open CanonizationRounds
open BlockContents

/-! ### Sentinel ids -/

structure Looped (pq : Uuid → Option Bytes) : Prop where
  start : pq zeroUuid = some (startEntry.record zeroUuid zeroUuid)
  finish : pq ffUuid = some (endEntry.record zeroUuid ffUuid)
  only : ∀ k, k ≠ zeroUuid → k ≠ ffUuid → pq k = none

structure Apart (k : Uuid) (b : Bytes) : Prop where
  key_ne : k ≠ zeroUuid
  prev : (DataTransactionNode.decode b).prev ≠ zeroUuid
  next : (DataTransactionNode.decode b).next ≠ zeroUuid
  key : k = ffUuid → (DataTransactionNode.decode b).key = ffUuid

structure Headless (pq : Uuid → Option Bytes) : Prop where
  start : pq zeroUuid = some (startEntry.record zeroUuid ffUuid)
  finish : pq ffUuid ≠ none
  apart : ∀ k b, k ≠ zeroUuid → pq k = some b → Apart k b

section Sentinels

variable {E : Env} {pq pq' : Uuid → Option Bytes} {k txnId artifactId : Uuid} {b txnBytes : Bytes}

theorem Headless.put (h : Headless pq) (hb : Apart k b) :
    Headless (Function.update pq k (some b)) := by
  refine ⟨?_, ?_, ?_⟩
  · rw [Function.update_of_ne hb.key_ne.symm]
    exact h.start
  · by_cases hk : ffUuid = k
    · rw [hk, Function.update_self]
      exact Option.some_ne_none b
    · rw [Function.update_of_ne hk]
      exact h.finish
  · intro k' b' hne hb'
    by_cases hk : k' = k
    · subst hk
      rw [Function.update_self] at hb'
      rw [← Option.some.inj hb']
      exact hb
    · rw [Function.update_of_ne hk] at hb'
      exact h.apart k' b' hne hb'

theorem Headless.erase (h : Headless pq) (hz : k ≠ zeroUuid) (hf : k ≠ ffUuid) :
    Headless (Function.update pq k none) := by
  refine ⟨?_, ?_, ?_⟩
  · rw [Function.update_of_ne hz.symm]
    exact h.start
  · rw [Function.update_of_ne hf.symm]
    exact h.finish
  · intro k' b' hne hb'
    by_cases hk : k' = k
    · rw [hk, Function.update_self] at hb'
      cases hb'
    · rw [Function.update_of_ne hk] at hb'
      exact h.apart k' b' hne hb'

theorem Apart.setNext {id : Uuid} (h : Apart k b) (hl : sizeofTransactionNode ≤ b.length)
    (hid : id ≠ zeroUuid) : Apart k (setNext b id) := by
  have hdecode := DataTransactionNode.decode_setNext hl id
  refine ⟨h.key_ne, ?_, ?_, ?_⟩
  · rw [hdecode]
    exact h.prev
  · rw [hdecode]
    exact hid
  · rw [hdecode]
    exact h.key

theorem Apart.setPrev {id : Uuid} (h : Apart k b) (hl : sizeofTransactionNode ≤ b.length)
    (hid : id ≠ zeroUuid) : Apart k (setPrev b id) := by
  have hdecode := DataTransactionNode.decode_setPrev hl id
  refine ⟨h.key_ne, ?_, ?_, ?_⟩
  · rw [hdecode]
    exact hid
  · rw [hdecode]
    exact h.next
  · rw [hdecode]
    exact h.key

theorem Apart.setTxnState (h : Apart k b) (hl : sizeofTransactionNode ≤ b.length)
    (state : BitVec 32) : Apart k (setTxnState b state) := by
  have hdecode := DataTransactionNode.decode_setTxnState hl state
  refine ⟨h.key_ne, ?_, ?_, ?_⟩
  · rw [hdecode]
    exact h.prev
  · rw [hdecode]
    exact h.next
  · rw [hdecode]
    exact h.key

theorem Apart.take {n : ℕ} (h : Apart k b) (hn : sizeofTransactionNode ≤ n) :
    Apart k (b.take n) := by
  have hdecode := DataTransactionNode.decode_take hn b
  refine ⟨h.key_ne, ?_, ?_, ?_⟩
  · rw [hdecode]
    exact h.prev
  · rw [hdecode]
    exact h.next
  · rw [hdecode]
    exact h.key

theorem Headless.submit (h : Headless pq) (hs : Submitted E txnId artifactId txnBytes pq pq') :
    Headless pq' := by
  obtain ⟨hnone, ⟨hff, -⟩ | ⟨e, b, he, hel, hb, hsize, hlen, rfl⟩⟩ := hs
  · exact (h.finish hff).elim
  · have hz : txnId ≠ zeroUuid := by
      rintro rfl
      rw [h.start] at hnone
      cases hnone
    have hf : txnId ≠ ffUuid := by
      rintro rfl
      exact h.finish hnone
    have hend := h.apart ffUuid e zeroUuid_ne_ffUuid.symm he
    have hnew : Apart txnId (submittedRecord E txnId artifactId txnBytes (some e)) := by
      have hdecode : DataTransactionNode.decode
          (submittedRecord E txnId artifactId txnBytes (some e)) =
          transactionSubmitNewnode E txnId artifactId txnBytes (some e) :=
        DataTransactionNode.decode_encode _ _
      refine ⟨hz, ?_, ?_, fun heq => (hf heq).elim⟩
      · rw [hdecode]
        exact hend.prev
      · rw [hdecode]
        exact zeroUuid_ne_ffUuid.symm
    have h₁ := h.put hnew
    have hlast := h₁.apart _ b hend.prev hb
    have h₂ := h₁.put ((hlast.take hsize).setNext (by rw [List.length_take]; omega) hz)
    have hend' : Apart ffUuid (setPrev (e.take sizeofTransactionNode) txnId) :=
      (hend.take le_rfl).setPrev (by rw [List.length_take]; omega) hz
    rw [hend'.key rfl]
    exact h₂.put hend'

theorem Headless.drop (h : Headless pq) (hz : txnId ≠ zeroUuid) (hf : txnId ≠ ffUuid)
    (hs : Dropped txnId pq pq') : Headless pq' := by
  obtain ⟨x, p, n, hx, -, hp, hpl, hn, hnl, rfl⟩ := hs
  have hnode := h.apart txnId x hz hx
  have h₁ := h.erase hz hf
  have h₂ := h₁.put ((h₁.apart _ p hnode.prev hp).setNext hpl hnode.next)
  exact h₂.put ((h₂.apart _ n hnode.next hn).setPrev hnl hnode.prev)

theorem Headless.promote (h : Headless pq) (hz : txnId ≠ zeroUuid) (hs : Promoted txnId pq pq') :
    Headless pq' := by
  obtain ⟨x, hx, hxl, rfl⟩ := hs
  exact h.put ((h.apart txnId x hz hx).setTxnState hxl _)

/-- The next submit overwrites the loop. -/
theorem Looped.submit (h : Looped pq) (hne : txnBytes ≠ []) (hsmall : txnBytes.length < maxPayload)
    (hs : Submitted E txnId artifactId txnBytes pq pq') :
    Represents pq' [submittedEntry E txnId artifactId txnBytes] := by
  obtain ⟨hnone, ⟨hff, -⟩ | ⟨e, b, he, -, hb, -, -, hpq'⟩⟩ := hs
  · exact absurd (hff.symm.trans h.finish) (by simp)
  · have hz : txnId ≠ zeroUuid := by
      rintro rfl
      exact absurd (hnone.symm.trans h.start) (by simp)
    have hf : txnId ≠ ffUuid := by
      rintro rfl
      exact absurd (hnone.symm.trans h.finish) (by simp)
    have he' : e = endEntry.record zeroUuid ffUuid := Option.some.inj (he.symm.trans h.finish)
    have hprev : (DataTransactionNode.decode e).prev = zeroUuid := by
      rw [he', Entry.decode_record, Entry.node]
    rw [hprev, Function.update_of_ne hz.symm] at hb
    have hb' : b = startEntry.record zeroUuid zeroUuid := Option.some.inj (hb.symm.trans h.start)
    have hcreated : pq' = createdQueue (fun _ => none) txnId
        ((submittedEntry E txnId artifactId txnBytes).record zeroUuid ffUuid) := by
      rw [hprev, he', hb', storedSize_record (by decide), List.take_length, Entry.setNext_record,
        take_endEntry_record, Entry.setPrev_record, submittedEntry_record] at hpq'
      simp only [Entry.decode_record] at hpq'
      funext k
      rw [hpq', createdQueue, startNode_encode, endNode_encode]
      by_cases hkf : k = ffUuid
      · rw [hkf]
        simp [Entry.node, endEntry]
      · by_cases hkz : k = zeroUuid
        · rw [hkz]
          simp [Entry.node, endEntry, zeroUuid_ne_ffUuid]
        · by_cases hk : k = txnId
          · rw [hk]
            simp [Entry.node, endEntry, hf, hz]
          · simp [Entry.node, endEntry, hkf, hkz, hk, h.only k hkz hkf]
    refine .used ?_ (by simpa [submittedEntry] using hne)
    rw [hcreated]
    exact holds_createdQueue (fun _ => rfl) (x := submittedEntry E txnId artifactId txnBytes) hz hf
      hsmall

/-- A client has chosen the id of a sentinel for the first transaction. -/
theorem shape_of_sentinel (hpq : ∀ k, pq k = none) (hid : txnId = zeroUuid ∨ txnId = ffUuid)
    (hs : Submitted E txnId artifactId txnBytes pq pq') : Looped pq' ∨ Headless pq' := by
  obtain ⟨-, ⟨-, rfl⟩ | ⟨e, b, he, -⟩⟩ := hs
  · rcases hid with rfl | rfl
    · refine Or.inl ⟨?_, ?_, ?_⟩
      · simp [createdQueue, startNode_encode, zeroUuid_ne_ffUuid]
      · simp [createdQueue, endNode_encode]
      · intro k hz hf
        simp [createdQueue, hz, hf, hpq]
    · refine Or.inr ⟨?_, ?_, ?_⟩
      · simp [createdQueue, startNode_encode, zeroUuid_ne_ffUuid]
      · simp [createdQueue]
      · intro k b hz hb
        have hk : k = ffUuid := by
          by_contra hf
          simp [createdQueue, hz, hf, hpq] at hb
        subst hk
        have hb' : b = endEntry.record ffUuid ffUuid := by
          simpa [createdQueue, endNode_encode] using hb.symm
        have hdecode : DataTransactionNode.decode b = endEntry.node ffUuid ffUuid := by
          rw [hb', Entry.decode_record]
        refine ⟨hz, ?_, ?_, fun _ => ?_⟩
        · rw [hdecode]
          exact hz
        · rw [hdecode]
          exact hz
        · rw [hdecode]
          rfl
  · rw [hpq] at he
    cases he

end Sentinels

/-! ### The shape of the queue -/

/-- A queue of certificates that passed the protocol service, or what a sentinel id leaves. -/
inductive QueueShape (pq : Uuid → Option Bytes) : Prop
  | queue (q : List Entry) (holds : Represents pq q)
      (certs : ∀ e ∈ q, e.cert.length ≤ maxTransactionCertificateSize)
  | looped (h : Looped pq)
  | headless (h : Headless pq)

namespace QueueShape

variable {E : Env} {pq pq' : Uuid → Option Bytes} {txnId artifactId : Uuid} {txnBytes : Bytes}

theorem submit (h : QueueShape pq) (hne : txnBytes ≠ []) (hsmall : txnBytes.length < maxPayload)
    (hcert : txnBytes.length ≤ maxTransactionCertificateSize)
    (hs : Submitted E txnId artifactId txnBytes pq pq') : QueueShape pq' := by
  cases h with
  | looped h =>
    refine .queue _ (h.submit hne hsmall hs) ?_
    intro e he
    rw [List.mem_singleton.mp he]
    exact hcert
  | headless h => exact .headless (h.submit hs)
  | queue q holds certs =>
    by_cases hid : txnId = zeroUuid ∨ txnId = ffUuid
    · cases holds with
      | unused hq hpq =>
        rcases shape_of_sentinel hpq hid hs with h | h
        · exact .looped h
        · exact .headless h
      | used holds hne' =>
        -- the sentinels are there, so their ids are taken
        obtain ⟨_, _, hstart⟩ := holds.records startEntry (by simp [framed])
        obtain ⟨_, _, hend⟩ := holds.records endEntry (by simp [framed])
        rcases hid with rfl | rfl
        · exact absurd (hs.1.symm.trans hstart) (by simp)
        · exact absurd (hs.1.symm.trans hend) (by simp)
    · obtain ⟨hz, hf⟩ := not_or.mp hid
      refine .queue _ (holds.submit hz hf hne hsmall hs).2 ?_
      intro e he
      rcases List.mem_append.mp he with he | he
      · exact certs e he
      · rw [List.mem_singleton.mp he]
        exact hcert

theorem drop (h : QueueShape pq) (hz : txnId ≠ zeroUuid) (hf : txnId ≠ ffUuid)
    (hs : Dropped txnId pq pq') : QueueShape pq' := by
  cases h with
  | queue q holds certs =>
    refine .queue _ (holds.drop hz hf hs).2 ?_
    intro e he
    exact certs e (List.mem_of_mem_filter he)
  | looped h =>
    obtain ⟨x, -, -, hx, -⟩ := hs
    exact absurd (hx.symm.trans (h.only txnId hz hf)) (by simp)
  | headless h => exact .headless (h.drop hz hf hs)

theorem promote (h : QueueShape pq) (hz : txnId ≠ zeroUuid) (hf : txnId ≠ ffUuid)
    (hs : Promoted txnId pq pq') : QueueShape pq' := by
  cases h with
  | queue q holds certs =>
    refine .queue _ (holds.promote hz hf hs).2 ?_
    intro e he
    obtain ⟨x, hx, rfl⟩ := List.mem_map.mp he
    split
    · exact certs x hx
    · exact certs x hx
  | looped h =>
    obtain ⟨x, hx, -⟩ := hs
    exact absurd (hx.symm.trans (h.only txnId hz hf)) (by simp)
  | headless h => exact .headless (h.promote hz hs)

theorem canonized {height : BitVec 64} {blockId : Uuid} {cs : List (Bytes × ChildFields)}
    {v w : Store} (hcs : Canonized E height blockId cs v w) (h : QueueShape v.pqDb) :
    QueueShape w.pqDb := by
  induction hcs with
  | nil v => exact h
  | cons first rest ih => exact ih (h.drop first.not_sentinel.1 first.not_sentinel.2 first.pq)

end QueueShape

/-! ### Runs -/

/-- A call as the services make it: a submitted certificate has passed the protocol service, and a
block comes signed and can be read back in one packet. Anything outside may fail. -/
structure ClientCall (E : Env) (i : Invocation) : Prop where
  decoded : i.request.Decoded
  certificate : ∀ txnId artifactId txnBytes,
    i.request = .transactionSubmit txnId artifactId txnBytes →
      txnBytes.length ≤ maxTransactionCertificateSize
  block : ∀ blockId blockData fs, i.request = .blockMake blockId blockData →
    E.fields blockData = some fs →
      blockData.length + 84 < maxPayload ∧ fieldValues fs .signature ≠ []

structure Kept (E : Env) (d : Store) : Prop where
  queue : QueueShape d.pqDb
  chain : ∃ bs, Chain E d.blockDb d.heightDb bs ∧ Signed E bs
  txns : TxnRecords d.txnDb
  artifacts : ArtifactRecords d.artifactDb

section Runs

variable {E : Env} {d w : Store} {i : Invocation} {a : Reply}

theorem effect_shape (hq : QueueShape d.pqDb) (hi : ClientCall E i)
    (h : i.request.Effect E i.faults d a w) : QueueShape w.pqDb := by
  obtain ⟨r, caps, f, b⟩ := i
  rcases effect_queue_cases h with ⟨blockId, blockData, fs, rfl, -, hends⟩ | ⟨-, hqueue⟩
  · obtain ⟨_, _, _, blk, cs, -, -, -, hcs, -⟩ := blockMakeBody_ends hends
    have hq' : QueueShape (withBlock blockId blk d).pqDb := hq
    exact hq'.canonized hcs
  · cases hqueue with
    | submit hs => exact hq.submit hi.decoded.1 hi.decoded.2 (hi.certificate _ _ _ rfl) hs
    | drop hz hf hs => exact hq.drop hz hf hs
    | promote hz hf hs => exact hq.promote hz hf hs
    | other hr hsame =>
      rw [hsame]
      exact hq

theorem canonized_artifacts {height : BitVec 64} {blockId : Uuid} {cs : List (Bytes × ChildFields)}
    {v : Store} (hcs : Canonized E height blockId cs v w) (h : ArtifactRecords v.artifactDb) :
    ArtifactRecords w.artifactDb := by
  induction hcs with
  | nil v => exact h
  | cons first rest ih => exact ih (h.updated first.artifact)

theorem signed_append {bs : List Block} {blockId : Uuid} {blockData : Bytes}
    {fs : List (CertField × Bytes)} (hlen : blockData.length + 84 < maxPayload)
    (hfs : E.fields blockData = some fs) (hsig : fieldValues fs .signature ≠ []) :
    Signed E (bs ++ [⟨blockId, blockData⟩]) := by
  intro b hb
  rw [List.getLast?_append, List.getLast?_singleton, Option.some_or] at hb
  obtain rfl := Option.some.inj hb
  exact ⟨hlen, fs, hfs, hsig⟩

theorem effect_kept (hd : Kept E d) (hi : ClientCall E i) (hcommit : i.commitFails = false)
    (h : i.request.Effect E i.faults d a w) : Kept E w := by
  have hq := effect_shape hd.queue hi h
  obtain ⟨bs, hc, hsigned⟩ := hd.chain
  have hc' := effect_chain hc ⟨hcommit, hi.decoded⟩ h
  rcases effect_cases h with ⟨blockId, blockData, fs, hreq, hfs, hends⟩ | ⟨hreq, hsame⟩
  · obtain ⟨_, _, _, blk, cs, -, -, -, hcs, -⟩ := blockMakeBody_ends hends
    obtain ⟨hlen, hsig⟩ := hi.block blockId blockData fs hreq hfs
    rw [blocksMade_blockMake hreq] at hc'
    exact ⟨hq, ⟨_, hc', signed_append hlen hfs hsig⟩, canonized_records hcs hd.txns,
      canonized_artifacts hcs hd.artifacts⟩
  · rw [blocksMade_eq_nil hreq, List.append_nil] at hc'
    refine ⟨hq, ⟨bs, hc', hsigned⟩, ?_, ?_⟩
    · rw [hsame.txn]
      exact hd.txns
    · rw [hsame.artifact]
      exact hd.artifacts

theorem kept_empty (E : Env) : Kept E emptyStore := by
  refine ⟨.queue [] (.unused rfl fun _ => rfl) (by simp), ⟨[], chain_empty E, ?_⟩, ?_, ?_⟩
  · intro b hb
    cases hb
  · exact run_records (Run.nil : Run E (fun _ _ => True) [] emptyStore)
  · intro k b hb
    cases hb

/-- Every run keeps what a round relies on, whatever fails on the way. -/
theorem run_kept {log : List (Invocation × Outcome)} (h : Run E (fun _ i => ClientCall E i) log d) :
    Kept E d := by
  induction h with
  | nil => exact kept_empty E
  | snoc before call ih =>
    exact perform_preserves ih fun a w hcommit heff => effect_kept ih call hcommit heff

end Runs

end ReachableStores
