import Agentd.ReachableStores

/-! # Progress of the process queue

A round shortens the queue exactly when `block_make` accepts the block of what it gathered. The
protocol service and `transaction_submit` look at nothing of what `block_make` asks for, so one
submitted transaction can be the reason that no later round makes a block. -/
namespace QueueProgress

open ByteString
open CertificateFields
open FaultyTransactions
open TransitionRuns.Deterministic
open DataserviceRecords
open DataserviceStore
open DataserviceQueue
open DataserviceBlocks
open DataserviceRequests
open DataserviceEffects
open DataserviceClient (maxTransactionCertificateSize)
open ProcessQueueRefinement
open ProcessQueueRuns
open BlockchainInvariant
open BlockAcceptance
open PublishedBlocks
open CanonizationService
open CanonizationSystem
open CanonizationRounds
open BlockContents
open ReachableStores

/-! ### The head of the queue -/

def HeadAttested (E : Env) (d : Store) : Prop :=
  ∃ node cert, (perform E d (workingCall .transactionGetFirst)).1 = .ok (.transaction node cert) ∧
    node.netTxnState = TransactionNodeState.attested.code

section Head

variable {E : Env} {d : Store}

/-- Where there is a first entry, there is a queue. -/
theorem queue_of_headAttested (h : QueueShape d.pqDb) (hhead : HeadAttested E d) : ∃ e rest,
    Represents d.pqDb (e :: rest) ∧
    (∀ x ∈ e :: rest, x.cert.length ≤ maxTransactionCertificateSize) ∧ attested e = true := by
  obtain ⟨node, cert, hok, hstate⟩ := hhead
  have heff := perform_ok hok
  obtain ⟨w, -, ⟨-, key, node', cert', u, u', -, hfirst, hends⟩, -⟩ := heff
  obtain ⟨b, hb, hkey, hne⟩ := firstKey_ends hfirst
  cases h with
  | queue q holds certs =>
    obtain ⟨e, node', cert', hhead, heq, hshows⟩ :=
      (getFirst_answers holds rfl (workingCall_works _).lmdb).1 _ hok
    cases q with
    | nil => cases hhead
    | cons x rest =>
      obtain rfl := Option.some.inj hhead
      obtain ⟨rfl, rfl⟩ := Reply.transaction.inj heq
      have holds' : Represents d.pqDb ([] ++ x :: rest) := holds
      obtain ⟨-, hstate', -⟩ := shows_entry holds' hshows
      refine ⟨x, rest, holds, certs, ?_⟩
      rw [attested, ← hstate', hstate]
      exact decide_eq_true rfl
  | looped h =>
    -- the start record has no certificate, so it is not returned as an entry
    obtain ⟨b', hb', hlen, -⟩ := nodeGetBody_ends hends
    rw [← Option.some.inj (h.start.symm.trans hb), Entry.decode_record] at hkey
    have hzero : key = zeroUuid := hkey
    rw [hzero] at hb'
    rw [← Option.some.inj (h.start.symm.trans hb'), Entry.length_record] at hlen
    exact absurd hlen (lt_irrefl _)
  | headless h =>
    rw [← Option.some.inj (h.start.symm.trans hb), Entry.decode_record] at hkey
    exact (hne hkey).elim

/-- A round over a queue with an attested head can read what it needs. -/
theorem reads_of_headAttested (h : Kept E d) (hhead : HeadAttested E d) : ∃ e rest bs,
    Reads E d (e :: rest) bs ∧ attested e = true := by
  obtain ⟨e, rest, hq, hcerts, hatt⟩ := queue_of_headAttested h.queue hhead
  obtain ⟨bs, hc, hsigned⟩ := h.chain
  exact ⟨e, rest, bs, ⟨hq, hcerts, hc, hsigned⟩, hatt⟩

theorem headAttested_of_queue {e : Entry} {rest : List Entry}
    (hq : Represents d.pqDb (e :: rest)) (h : attested e = true) : HeadAttested E d := by
  obtain ⟨node, hget, -, hstate⟩ := perform_first E hq (i := workingCall .transactionGetFirst) rfl
    (workingCall_works _).lmdb (workingCall_permitted _)
  refine ⟨node, e.cert, congrArg Prod.fst hget, ?_⟩
  rw [hstate]
  exact of_decide_eq_true h

end Head

/-! ### What a block takes out of the queue -/

section Shorter

variable {E : Env} {d : Store} {q : List Entry} {i : Invocation} {blockId : Uuid}
  {blockData : Bytes} {a : Reply}

theorem length_withoutIds_lt {gone : List Uuid} {t : Uuid} (hgone : t ∈ gone) (ht : t ∈ ids q) :
    (withoutIds gone q).length < q.length := by
  obtain ⟨e, he, rfl⟩ := List.mem_map.mp ht
  rw [withoutIds, List.length_filter_lt_length_iff_exists]
  exact ⟨e, he, by simpa using hgone⟩

/-- A block that is made takes its first wrapped transaction along. -/
theorem block_shortens (hq : Represents d.pqDb q) (hi : i.request = .blockMake blockId blockData)
    (hw : i.Works) (hok : (perform E d i).1 = .ok a) :
    ∃ q', Represents (perform E d i).2.pqDb q' ∧ q'.length < q.length := by
  obtain ⟨w, -, heff, hstore⟩ := perform_ok hok
  rw [hi] at heff
  obtain ⟨-, fs, hfs, hends⟩ := heff
  obtain ⟨first, rest, firstId, blk, cs, -, -, -, hcs, -, hall⟩ := blockMakeBody_ends hends
  have hq' : Represents (withBlock blockId blk d).pqDb q := hq
  obtain ⟨hmem, hrest⟩ := canonized_queue hcs hq'
  have hfirst : ∃ t, t ∈ childIds cs := by
    cases cs with
    | nil => cases hall hw.find
    | cons c cs => exact ⟨c.2.transactionId, by simp [childIds]⟩
  obtain ⟨t, ht⟩ := hfirst
  rw [hstore, hw.commit]
  exact ⟨_, hrest, length_withoutIds_lt ht (hmem t ht)⟩

end Shorter

/-! ### What `block_make` asks for -/

/-- A block under this id can be made of what a round gathers from `q`. -/
structure Canonizable (E : Env) (d : Store) (q : List Entry) (max : BitVec 64) (blockId : Uuid) :
    Prop where
  not_reserved : blockId ≠ E.rootBlock ∧ blockId ≠ zeroUuid ∧ blockId ≠ ffUuid
  free : d.blockDb blockId = none
  height_free : d.heightDb (expectedBlockHeight (d.blockDb ffUuid)) = none
  fits : fits (gathered max 0 q)
  accepts : accepts E (ids q) (keys d.txnDb) ((gathered max 0 q).map Entry.cert) = true

section Checks

variable {E : Env} {B : CertBuilder} {now : BitVec 64} {inst : CanonizationService.Instance}
  {txns : List Transaction} {cert : Bytes} {d : Store} {q : List Entry} {max : BitVec 64}
  {blockId : Uuid} {bs : List Block}

/-- The certificate that a round makes says what the data service expects of the next block. -/
theorem checked_of_certificate (h : BlockCertificate E B now inst txns cert)
    (hk : Knows E d blockId max inst) (hc : Chain E d.blockDb d.heightDb bs)
    (hres : blockId ≠ E.rootBlock ∧ blockId ≠ zeroUuid ∧ blockId ≠ ffUuid) :
    ∃ fs, E.fields cert = some fs ∧ BlockChecked E fs blockId (d.blockDb ffUuid) ∧
      fieldValues fs .wrappedTransactionTuple = txns.map Transaction.cert := by
  obtain ⟨id, sig, -, hfs⟩ := h.fields
  obtain ⟨fs, hfs', hwrapped⟩ := h.wrapped
  obtain rfl := Option.some.inj (hfs.symm.trans hfs')
  refine ⟨_, hfs, ⟨hc.end_length, ?_, ?_, ?_, hres⟩, hwrapped⟩
  · rw [← hk.height]
    simp [blockCertificateFields, sizedField, fieldValues, bits_be]
  · rw [← hk.previous]
    simp [blockCertificateFields, sizedField, fieldValues, bits_be]
  · rw [← hk.blockId]
    simp [blockCertificateFields, sizedField, fieldValues, bits_be]

/-- The block of a round is accepted exactly when its contents are. -/
theorem made_iff (hd : Sound E d q) (hk : Knows E d blockId max inst)
    (hcert : BlockCertificate E B now inst txns cert) (hne : txns ≠ [])
    (htxns : txns.map Transaction.cert = (gathered max 0 q).map Entry.cert)
    (hfits : fits (gathered max 0 q)) :
    (∃ a, (perform E d (canonCall (.blockMake inst.blockId cert))).1 = .ok a) ↔
      Canonizable E d q max blockId := by
  obtain ⟨bs, hc⟩ := hd.chain
  rw [hk.blockId]
  constructor
  · rintro ⟨a, hok⟩
    obtain ⟨fs, hfs, hwrapped⟩ := hcert.wrapped
    have hacc := accepted_of_ok hd rfl hfs (canonCall_works _).find hok
    have haccepts := hacc.accepts
    rw [hwrapped, htxns] at haccepts
    exact ⟨hacc.checked.not_reserved, hacc.free, hacc.height_free, hfits, haccepts⟩
  · intro h
    obtain ⟨fs, hfs, hchecked, hwrapped⟩ := checked_of_certificate hcert hk hc h.not_reserved
    refine ⟨_, ok_of_accepted hd rfl hfs (canonCall_works _)
      (canonCall_permitted (by simp only [Request.capability]; decide)) ?_⟩
    refine ⟨hchecked, h.free, h.height_free, ?_, ?_⟩
    · rw [hwrapped]
      exact fun hnil => hne (List.map_eq_nil_iff.mp hnil)
    · rw [hwrapped, htxns]
      exact h.accepts

end Checks

/-! ### Rounds -/

def Shorter (d d' : Store) : Prop :=
  ∃ q q', Represents d.pqDb q ∧ Represents d'.pqDb q' ∧ q'.length < q.length

theorem not_shorter_self (d : Store) : ¬ Shorter d d := by
  rintro ⟨q, q', hq, hq', hlt⟩
  rw [hq.unique hq'] at hlt
  exact lt_irrefl _ hlt

def EndsShorter (E : Env) (B : CertBuilder) (dir : Bytes) (now : BitVec 64) (blockId : Uuid)
    (s : System) : Prop :=
  (∃ ms u, Round E B dir now blockId s ms u) ∧
    ∀ ms u, Round E B dir now blockId s ms u → Shorter (s.store dir) (u.store dir)

section Rounds

variable {E : Env} {B : CertBuilder} {dir : Bytes} {now : BitVec 64} {blockId : Uuid} {s : System}

theorem gathered_cons (max : BitVec 64) (n : ℕ) {e : Entry} (rest : List Entry)
    (h : attested e = true) : ∃ more, gathered max n (e :: rest) = e :: more := by
  rw [gathered, if_pos h]
  by_cases hfull : BitVec.ofNat 64 (n + 1) = max
  · exact ⟨[], if_pos hfull⟩
  · exact ⟨_, if_neg hfull⟩

variable (now blockId) in
/-- What a round does to a queue with an attested head: it ends when its request fits a packet, and
then it has made its block or left everything as it was. -/
theorem attested_round {q : List Entry} (hkept : Kept E (s.store dir)) (h : Ready dir s)
    (hB : Builds E B) (hhead : HeadAttested E (s.store dir))
    (hq : Represents (s.store dir).pqDb q) :
    (fits (gathered s.canon.blockMaxTransactions 0 q) →
      ∃ ms u, Round E B dir now blockId s ms u) ∧
    ∀ ms u, Round E B dir now blockId s ms u →
      fits (gathered s.canon.blockMaxTransactions 0 q) ∧ ∃ full d', Over E B dir full d' u ∧
        (Canonizable E (s.store dir) q s.canon.blockMaxTransactions blockId →
          Shorter (s.store dir) d') ∧
        (¬ Canonizable E (s.store dir) q s.canon.blockMaxTransactions blockId →
          d' = s.store dir) := by
  obtain ⟨e, rest, bs, hr, hatt⟩ := reads_of_headAttested hkept hhead
  obtain rfl := hr.queue.unique hq
  have hsound : Sound E (s.store dir) (e :: rest) :=
    ⟨hq, ⟨bs, hr.chain⟩, hkept.txns, hkept.artifacts⟩
  obtain ⟨t, ms, u, inst, gs, hstep, hsteps, hknows, hgs, hend⟩ := Ready.round now blockId h hB hr
  have hne : gs ≠ [] := by
    obtain ⟨more, hmore⟩ := gathered_cons s.canon.blockMaxTransactions 0 rest hatt
    intro hnil
    rw [hnil, hmore] at hgs
    cases hgs
  constructor
  · intro hfits
    obtain ⟨cert, -, hover⟩ := hend.made hne ((request_size hgs).mpr hfits)
    exact ⟨ms, u, h.net, t, hstep, hsteps, hover.ends⟩
  · intro ns v hround
    obtain ⟨rfl, rfl⟩ := Round.unique blockId hstep hsteps (hend.halted blockId) hround
    have hfits : fits (gathered s.canon.blockMaxTransactions 0 (e :: rest)) := by
      by_contra hlong
      obtain ⟨-, -, -, -, hlast⟩ := hround
      obtain ⟨hlost, -⟩ := hend.lost hne (not_lt.mp fun hlt => hlong ((request_size hgs).mp hlt))
      rw [hlost] at hlast
      rcases hlast with hlast | hlast
      · cases hlast
      · cases hlast
    obtain ⟨cert, hcert, hover⟩ := hend.made hne ((request_size hgs).mpr hfits)
    have hmade := made_iff hsound hknows hcert hne hgs hfits
    refine ⟨hfits, _, _, hover, ?_, ?_⟩
    · intro hcan
      obtain ⟨a, hok⟩ := hmade.mpr hcan
      obtain ⟨q', hq', hlt⟩ := block_shortens hq rfl (canonCall_works _) hok
      exact ⟨_, q', hq, hq', hlt⟩
    · intro hnot
      exact perform_error fun a hok => hnot (hmade.mp ⟨a, hok⟩)

/-- A round that finds an attested transaction at the head of the queue shortens the queue exactly
when a block can be made of what it gathers. -/
theorem round_shortens_queue_iff {log : List (Invocation × Outcome)}
    (hrun : Run E (fun _ i => ClientCall E i) log (s.store dir)) (h : Ready dir s)
    (hB : Builds E B) (hhead : HeadAttested E (s.store dir)) :
    EndsShorter E B dir now blockId s ↔ ∃ q, Represents (s.store dir).pqDb q ∧
      Canonizable E (s.store dir) q s.canon.blockMaxTransactions blockId := by
  have hkept := run_kept hrun
  constructor
  · rintro ⟨⟨ms, u, hround⟩, hall⟩
    obtain ⟨q, -, hq, -, -⟩ := hall ms u hround
    obtain ⟨-, full, d', hover, -, hsame⟩ :=
      (attested_round now blockId hkept h hB hhead hq).2 ms u hround
    refine ⟨q, hq, ?_⟩
    by_contra hnot
    have hshorter := hall ms u hround
    rw [hover.store, hsame hnot] at hshorter
    exact not_shorter_self _ hshorter
  · rintro ⟨q, hq, hcan⟩
    obtain ⟨hends, hround⟩ := attested_round now blockId hkept h hB hhead hq
    refine ⟨hends hcan.fits, ?_⟩
    intro ms u hr
    obtain ⟨-, full, d', hover, hshorter, -⟩ := hround ms u hr
    rw [hover.store]
    exact hshorter hcan

/-- Rounds one after the other, with the timer in between unless a block was full. -/
inductive Rounds (E : Env) (B : CertBuilder) (dir : Bytes) (s : System) : System → Prop
  | start : Rounds E B dir s s
  | again {t u : System} {now : BitVec 64} {blockId : Uuid} {ms : List Message}
      (before : Rounds E B dir s t) (round : Round E B dir now blockId t ms u)
      (full : u.net = [.randomRequest]) : Rounds E B dir s u
  | slept {t u v : System} {now now' : BitVec 64} {blockId : Uuid} {ms : List Message}
      (before : Rounds E B dir s t) (round : Round E B dir now blockId t ms u)
      (woken : step E B dir u (.timer (allWorks now')) = some v) : Rounds E B dir s v

def Rejected (E : Env) (d : Store) (q : List Entry) : Prop :=
  ∀ e, q.head? = some e → ∀ certs, accepts E (ids q) (keys d.txnDb) (e.cert :: certs) = false

theorem not_canonizable_of_rejected {d : Store} {q : List Entry} (max : BitVec 64)
    (hq : Represents d.pqDb q) (hkept : Kept E d) (hhead : HeadAttested E d)
    (hbad : Rejected E d q) : ¬ Canonizable E d q max blockId := by
  obtain ⟨e, rest, bs, hr, hatt⟩ := reads_of_headAttested hkept hhead
  obtain rfl := hr.queue.unique hq
  intro hcan
  obtain ⟨more, hmore⟩ := gathered_cons max 0 rest hatt
  have haccepts := hcan.accepts
  rw [hmore, List.map_cons, hbad e rfl] at haccepts
  cases haccepts

/-- Behind a rejected entry the queue stays as it is for ever. -/
theorem rejected_entry_stays {q : List Entry} (hkept : Kept E (s.store dir)) (h : Ready dir s)
    (hB : Builds E B) (hhead : HeadAttested E (s.store dir)) (hq : Represents (s.store dir).pqDb q)
    (hbad : Rejected E (s.store dir) q) {u : System} (hu : Rounds E B dir s u) :
    u.store dir = s.store dir ∧ Ready dir u := by
  have hround : ∀ {t u : System} {now : BitVec 64} {blockId : Uuid} {ms : List Message},
      t.store dir = s.store dir → Ready dir t → Round E B dir now blockId t ms u →
      ∃ full, Over E B dir full (s.store dir) u := by
    intro t u now blockId ms hstore ht hr
    rw [← hstore] at hkept hhead hq hbad ⊢
    obtain ⟨-, full, d', hover, -, hsame⟩ :=
      (attested_round now blockId hkept ht hB hhead hq).2 ms u hr
    rw [hsame (not_canonizable_of_rejected _ hq hkept hhead hbad)] at hover
    exact ⟨full, hover⟩
  induction hu with
  | start => exact ⟨rfl, h⟩
  | again before round hfull ih =>
    obtain ⟨full, hover⟩ := hround ih.1 ih.2 round
    exact ⟨hover.store, hover.again (hover.net_iff.mp hfull)⟩
  | slept before round woken ih =>
    obtain ⟨full, hover⟩ := hround ih.1 ih.2 round
    have hnot : ¬ full := by
      intro hfull
      have hnet := hover.net_iff.mpr hfull
      simp [step, hnet, takeMessage, isTimer] at woken
    obtain ⟨v, hv, hstore, hready⟩ := (hover.sleeps hnot).2 _
    obtain rfl := Option.some.inj (hv.symm.trans woken)
    exact ⟨hstore, hready⟩

end Rounds

/-! ### Sample queues -/

theorem client_queuedStore (cert : Bytes) (hne : cert ≠ [])
    (hlen : cert.length ≤ maxTransactionCertificateSize) :
    Run (codecEnv false) (fun _ i => ClientCall (codecEnv false) i)
      (runCalls (codecEnv false) [workingCall (.transactionSubmit 5 7 cert)]).1
      (queuedStore cert) := by
  have hall : ∀ i ∈ [workingCall (.transactionSubmit 5 7 cert)], ClientCall (codecEnv false) i := by
    intro i hi
    rw [List.mem_singleton.mp hi]
    refine ⟨⟨hne, lt_of_le_of_lt hlen (by decide)⟩, ?_, ?_⟩
    · rintro txnId artifactId txnBytes heq
      injection heq with _ _ hcert
      rw [← hcert]
      exact hlen
    · rintro blockId blockData fs heq
      cases heq
  exact run_runCalls (allowedFrom_of_forall hall _)

theorem represents_queuedStore (cert : Bytes) (hne : cert ≠ [])
    (hlen : cert.length ≤ maxTransactionCertificateSize) :
    Represents (queuedStore cert).pqDb (submittedQueue cert) :=
  run_represents (run_queuedStore cert hne (lt_of_le_of_lt hlen (by decide)))

theorem submitted_transaction_leaves_queue :
    EndsShorter (codecEnv false) codecBuilder [47] 0 9
      (readySystem (queuedStore (transactionCert 5 0 7 1)) 10) := by
  have hq := represents_queuedStore (transactionCert 5 0 7 1) (by decide) (by decide)
  have hhead : HeadAttested (codecEnv false) (queuedStore (transactionCert 5 0 7 1)) :=
    headAttested_of_queue hq (by decide +kernel)
  refine (round_shortens_queue_iff (client_queuedStore _ (by decide) (by decide))
    (ready_readySystem _ 10) (builds_codec false) hhead).mpr ⟨_, hq, ?_⟩
  refine ⟨by decide, by decide +kernel, by decide +kernel, ?_, by decide +kernel⟩
  decide +kernel

/-- One byte that is no certificate, submitted as transaction 5: the round leaves it in the queue,
and so do all later ones. -/
theorem malformed_certificate_stays :
    HeadAttested (codecEnv false) (queuedStore [1]) ∧
      (∃ ms u, Round (codecEnv false) codecBuilder [47] 0 9 (readySystem (queuedStore [1]) 10)
        ms u ∧ u.store [47] = queuedStore [1]) ∧
      ¬ EndsShorter (codecEnv false) codecBuilder [47] 0 9 (readySystem (queuedStore [1]) 10) ∧
      ∀ u, Rounds (codecEnv false) codecBuilder [47] (readySystem (queuedStore [1]) 10) u →
        u.store [47] = queuedStore [1] := by
  have hq := represents_queuedStore [1] (by decide) (by decide)
  have hkept := run_kept (client_queuedStore [1] (by decide) (by decide))
  have hready := ready_readySystem (queuedStore [1]) 10
  have hhead : HeadAttested (codecEnv false) (queuedStore [1]) :=
    headAttested_of_queue hq (by decide +kernel)
  have hbad : Rejected (codecEnv false) (queuedStore [1]) (submittedQueue [1]) := by
    intro e he certs
    have hcert : e.cert = [1] := by
      have hall : ∀ x ∈ submittedQueue [1], x.cert = [1] := by decide +kernel
      exact hall e (List.mem_of_mem_head? he)
    have hnone : certChild (codecEnv false) [1] = none := by decide
    rw [hcert, accepts, hnone]
  obtain ⟨hends, hround⟩ := attested_round 0 9 hkept hready (builds_codec false) hhead hq
  have hfits : fits (gathered 10 0 (submittedQueue [1])) := by
    decide +kernel
  obtain ⟨ms, u, hr⟩ := hends hfits
  obtain ⟨-, full, d', hover, -, hsame⟩ := hround ms u hr
  have hstore : u.store [47] = queuedStore [1] :=
    hover.store.trans (hsame (not_canonizable_of_rejected _ hq hkept hhead hbad))
  refine ⟨hhead, ⟨ms, u, hr, hstore⟩, ?_, ?_⟩
  · rintro ⟨-, hall⟩
    have hshorter := hall ms u hr
    rw [hstore] at hshorter
    exact not_shorter_self _ hshorter
  · intro v hv
    exact (rejected_entry_stays hkept hready (builds_codec false) hhead hq hbad hv).1

end QueueProgress
