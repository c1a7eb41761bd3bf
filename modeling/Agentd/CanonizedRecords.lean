import Agentd.BlockchainInvariant
import Agentd.PendingOrCanonized

/-! # Records of canonized transactions

A block may only point a canonized transaction at its one successor. `block_make` takes the
transaction to point from the wrapped certificate and overwrites its `next` without looking at it,
so history is kept exactly when the certificates of the block name nothing but open ends. -/
namespace CanonizedRecords

open ByteString
open CertificateFields
open FaultyTransactions
open DataserviceRecords
open DataserviceStore
open DataserviceQueue
open DataserviceBlocks
open DataserviceRequests
open DataserviceEffects
open BlockchainInvariant

structure TxnRecords (txn : Uuid → Option Bytes) : Prop where
  sized : ∀ k b, txn k = some b → sizeofTransactionNode ≤ b.length
  no_sentinel : txn zeroUuid = none ∧ txn ffUuid = none
  next_known : ∀ k b, txn k = some b →
    (DataTransactionNode.decode b).next = ffUuid ∨ txn (DataTransactionNode.decode b).next ≠ none

/-- The transactions canonized before are what they were, but for a `next` that was open and now
names the one new transaction with this predecessor, of the same artifact. -/
def HistoryKept (txn txn' : Uuid → Option Bytes) : Prop :=
  ∀ k b, txn k = some b → txn' k = some b ∨
    ((DataTransactionNode.decode b).next = ffUuid ∧ ∃ id r, txn' k = some (setNext b id) ∧
      txn' id = some r ∧ (DataTransactionNode.decode r).prev = k ∧
      (DataTransactionNode.decode r).artifactId = (DataTransactionNode.decode b).artifactId ∧
      ∀ id' r', txn id' = none → txn' id' = some r' →
        (DataTransactionNode.decode r').prev = k → id' = id)

/-- The wrapped transactions that name `k` as previous. -/
def namers (k : Uuid) (cs : List (Bytes × ChildFields)) : List ChildFields :=
  (cs.map Prod.snd).filter fun c => c.prevTransactionId = k

/-- Whatever transaction a block names as previous is open, and named once and by its artifact. -/
def NamesOpenEnds (txn : Uuid → Option Bytes) (cs : List (Bytes × ChildFields)) : Prop :=
  ∀ k b c, txn k = some b → c ∈ namers k cs →
    (DataTransactionNode.decode b).next = ffUuid ∧ namers k cs = [c] ∧
      c.artifactId = (DataTransactionNode.decode b).artifactId

/-! ### One wrapped transaction -/

section Child

variable {blockId : Uuid} {cert : Bytes} {c : ChildFields} {txn txn' : Uuid → Option Bytes}
  {k : Uuid} {b : Bytes}

structure Describes (r : Bytes) (c : ChildFields) : Prop where
  sized : sizeofTransactionNode ≤ r.length
  prev : (DataTransactionNode.decode r).prev = c.prevTransactionId
  artifactId : (DataTransactionNode.decode r).artifactId = c.artifactId

theorem describes_entered :
    Describes ((canonizedNode blockId cert c).encode ++ cert) c := by
  refine ⟨by simp, ?_, ?_⟩
  · rw [DataTransactionNode.decode_encode]
    rfl
  · rw [DataTransactionNode.decode_encode]
    rfl

theorem Describes.setNext {r : Bytes} (h : Describes r c) (id : Uuid) :
    Describes (setNext r id) c := by
  refine ⟨?_, ?_, ?_⟩
  · rw [length_setNext h.sized]
    exact h.sized
  · rw [DataTransactionNode.decode_setNext h.sized]
    exact h.prev
  · rw [DataTransactionNode.decode_setNext h.sized]
    exact h.artifactId

/-- A record that was there keeps its bytes unless the child names it. -/
theorem txnEntered_existing (h : TxnEntered blockId cert c txn txn') (hk : k ≠ zeroUuid)
    (hb : txn k = some b) :
    txn' k = some (if c.prevTransactionId = k then setNext b c.transactionId else b) := by
  obtain ⟨hfree, hlink⟩ := h
  have hkc : k ≠ c.transactionId := by
    rintro rfl
    rw [hfree] at hb
    cases hb
  have hentered : entered blockId cert c txn k = some b := by
    rw [entered, Function.update_of_ne hkc, hb]
  rcases hlink with ⟨hz, rfl⟩ | ⟨-, p, hp, -, rfl⟩
  · rw [if_neg (by rw [hz]; exact hk.symm), hentered]
  · by_cases hpk : c.prevTransactionId = k
    · rw [if_pos hpk, hpk, Function.update_self]
      rw [hpk, hentered] at hp
      rw [Option.some.inj hp]
    · rw [if_neg hpk, Function.update_of_ne (Ne.symm hpk), hentered]

/-- The child's own record; a child that names itself is pointed at itself. -/
theorem txnEntered_new (h : TxnEntered blockId cert c txn txn') :
    ∃ r, txn' c.transactionId = some r ∧ Describes r c ∧
      ((DataTransactionNode.decode r).next = ffUuid ∨
        (DataTransactionNode.decode r).next = c.transactionId) := by
  have hrec : entered blockId cert c txn c.transactionId =
      some ((canonizedNode blockId cert c).encode ++ cert) := Function.update_self _ _ _
  have hnext : (DataTransactionNode.decode
      ((canonizedNode blockId cert c).encode ++ cert)).next = ffUuid := by
    rw [DataTransactionNode.decode_encode]
    rfl
  obtain ⟨-, ⟨-, rfl⟩ | ⟨-, p, hp, -, rfl⟩⟩ := h
  · exact ⟨_, hrec, describes_entered, Or.inl hnext⟩
  · by_cases hself : c.transactionId = c.prevTransactionId
    · rw [← hself, hrec] at hp
      have hd : Describes p c := Option.some.inj hp ▸ describes_entered
      refine ⟨setNext p c.transactionId, ?_, hd.setNext _, Or.inr ?_⟩
      · rw [hself, Function.update_self]
      · rw [DataTransactionNode.decode_setNext hd.sized]
    · exact ⟨_, (Function.update_of_ne hself _ _).trans hrec, describes_entered, Or.inl hnext⟩

theorem TxnRecords.child (h : TxnRecords txn)
    (hc : c.transactionId ≠ zeroUuid ∧ c.transactionId ≠ ffUuid)
    (he : TxnEntered blockId cert c txn txn') : TxnRecords txn' := by
  have hnone : ∀ s, (s = zeroUuid ∨ s = ffUuid) → txn' s = none := by
    intro s hs
    have hsc : s ≠ c.transactionId := by
      rintro rfl
      exact hs.elim hc.1 hc.2
    have hold : txn s = none := by
      rcases hs with rfl | rfl
      · exact h.no_sentinel.1
      · exact h.no_sentinel.2
    exact PendingOrCanonized.txnEntered_keys he s hsc hold
  have hnotzero : ∀ k b, txn k = some b → k ≠ zeroUuid := by
    rintro k b hb rfl
    rw [h.no_sentinel.1] at hb
    cases hb
  have hcases : ∀ k b, txn' k = some b → sizeofTransactionNode ≤ b.length ∧
      ((DataTransactionNode.decode b).next = ffUuid ∨
        txn' (DataTransactionNode.decode b).next ≠ none) := by
    intro k b hb
    obtain ⟨r, hr, hd, hnext⟩ := txnEntered_new he
    by_cases hkc : k = c.transactionId
    · rw [hkc, hr] at hb
      have hbr := Option.some.inj hb
      subst hbr
      refine ⟨hd.sized, hnext.imp_right fun hself => ?_⟩
      rw [hself, hr]
      simp
    · have hold : txn k ≠ none := fun hnone' =>
        absurd (PendingOrCanonized.txnEntered_keys he k hkc hnone') (by rw [hb]; simp)
      obtain ⟨b₀, hb₀⟩ := Option.ne_none_iff_exists'.mp hold
      have hsized := h.sized k b₀ hb₀
      rw [txnEntered_existing he (hnotzero k b₀ hb₀) hb₀] at hb
      have hbb := Option.some.inj hb
      subst hbb
      by_cases hp : c.prevTransactionId = k
      · rw [if_pos hp, length_setNext hsized, DataTransactionNode.decode_setNext hsized]
        refine ⟨hsized, Or.inr ?_⟩
        rw [hr]
        simp
      · rw [if_neg hp]
        refine ⟨hsized, (h.next_known k b₀ hb₀).imp_right fun hknown => ?_⟩
        obtain ⟨b₁, hb₁⟩ := Option.ne_none_iff_exists'.mp hknown
        rw [txnEntered_existing he (hnotzero _ b₁ hb₁) hb₁]
        simp
  exact ⟨fun k b hb => (hcases k b hb).1, ⟨hnone _ (Or.inl rfl), hnone _ (Or.inr rfl)⟩,
    fun k b hb => (hcases k b hb).2⟩

end Child

/-! ### The wrapped transactions of a block -/

section Block

variable {E : Env} {height : BitVec 64} {blockId : Uuid} {cs : List (Bytes × ChildFields)}
  {v w : Store} {k : Uuid} {b : Bytes}

theorem canonized_records (h : Canonized E height blockId cs v w) (hv : TxnRecords v.txnDb) :
    TxnRecords w.txnDb := by
  induction h with
  | nil v => exact hv
  | cons first rest ih => exact ih (hv.child first.not_sentinel first.txn)

/-- The last wrapped transaction that names a record is the one it is left pointing at. -/
def pointed (b : Bytes) (ns : List ChildFields) : Bytes :=
  match ns.getLast? with
  | none => b
  | some c => setNext b c.transactionId

theorem pointed_cons (hl : sizeofTransactionNode ≤ b.length) (c : ChildFields)
    (ns : List ChildFields) : pointed (setNext b c.transactionId) ns = pointed b (c :: ns) := by
  cases ns using List.reverseRecOn with
  | nil => rfl
  | append_singleton ns c' =>
    simp only [pointed, List.getLast?_concat, ← List.cons_append]
    exact setNext_setNext hl _ _

theorem canonized_existing (h : Canonized E height blockId cs v w) (hk : k ≠ zeroUuid)
    (hl : sizeofTransactionNode ≤ b.length) (hb : v.txnDb k = some b) :
    w.txnDb k = some (pointed b (namers k cs)) := by
  induction h generalizing b with
  | nil v => exact hb
  | @cons v u w cert c cs first rest ih =>
    have hu := txnEntered_existing first.txn hk hb
    by_cases hp : c.prevTransactionId = k
    · rw [if_pos hp] at hu
      have hcons : namers k ((cert, c) :: cs) = c :: namers k cs := by simp [namers, hp]
      rw [ih (by rw [length_setNext hl]; exact hl) hu, hcons, pointed_cons hl]
    · rw [if_neg hp] at hu
      have hskip : namers k ((cert, c) :: cs) = namers k cs := by simp [namers, hp]
      rw [ih hl hu, hskip]

theorem canonized_not_sentinel (h : Canonized E height blockId cs v w) :
    ∀ id ∈ childIds cs, id ≠ zeroUuid ∧ id ≠ ffUuid := by
  induction h with
  | nil v => simp [childIds]
  | cons first rest ih =>
    intro id hid
    rcases List.mem_cons.mp hid with rfl | hid
    · exact first.not_sentinel
    · exact ih id hid

/-- The wrapped transactions are new, and told apart by their ids. -/
theorem canonized_fresh (h : Canonized E height blockId cs v w) :
    (childIds cs).Nodup ∧ ∀ id ∈ childIds cs, v.txnDb id = none := by
  induction h with
  | nil v => exact ⟨List.nodup_nil, by simp [childIds]⟩
  | @cons v u w cert c cs first rest ih =>
    obtain ⟨hnd, hfresh⟩ := ih
    obtain ⟨r, hr, -⟩ := txnEntered_new first.txn
    have hold : ∀ id, u.txnDb id = none → id ≠ zeroUuid → v.txnDb id = none := by
      intro id hid hz
      by_contra hknown
      obtain ⟨b, hb⟩ := Option.ne_none_iff_exists'.mp hknown
      rw [txnEntered_existing first.txn hz hb] at hid
      cases hid
    constructor
    · refine List.nodup_cons.mpr ⟨fun hmem => ?_, hnd⟩
      have hnone := hfresh _ hmem
      rw [hr] at hnone
      cases hnone
    · intro id hid
      rcases List.mem_cons.mp hid with rfl | hid
      · exact first.txn.1
      · exact hold id (hfresh id hid) (canonized_not_sentinel rest id hid).1

theorem canonized_new (h : Canonized E height blockId cs v w) {c : ChildFields}
    (hc : c ∈ cs.map Prod.snd) : ∃ r, w.txnDb c.transactionId = some r ∧ Describes r c := by
  induction h with
  | nil v => cases hc
  | @cons v u w cert c' cs first rest ih =>
    rcases List.mem_cons.mp hc with rfl | hc
    · obtain ⟨r, hr, hd, -⟩ := txnEntered_new first.txn
      refine ⟨_, canonized_existing rest first.not_sentinel.1 hd.sized hr, ?_⟩
      unfold pointed
      split
      · exact hd
      · exact hd.setNext _
    · exact ih hc

theorem canonized_known (h : Canonized E height blockId cs v w) (hk : w.txnDb k ≠ none) :
    v.txnDb k ≠ none ∨ k ∈ childIds cs := by
  induction h with
  | nil v => exact Or.inl hk
  | @cons v u w cert c cs first rest ih =>
    rcases ih hk with hu | hmem
    · by_cases hkc : k = c.transactionId
      · exact Or.inr (by simp [childIds, hkc])
      · exact Or.inl fun hnone => hu (PendingOrCanonized.txnEntered_keys first.txn k hkc hnone)
    · exact Or.inr (List.mem_cons_of_mem _ hmem)

theorem mem_namers {c : ChildFields} (hc : c ∈ namers k cs) :
    c ∈ cs.map Prod.snd ∧ c.prevTransactionId = k := by
  simpa [namers] using hc

theorem mem_childIds {c : ChildFields} (hc : c ∈ cs.map Prod.snd) :
    c.transactionId ∈ childIds cs := by
  obtain ⟨p, hp, rfl⟩ := List.mem_map.mp hc
  exact List.mem_map_of_mem hp

/-- Children of one id are one child. -/
theorem namers_eq_singleton (hnd : (childIds cs).Nodup) {c : ChildFields} (hc : c ∈ namers k cs)
    (hall : ∀ n ∈ namers k cs, n.transactionId = c.transactionId) : namers k cs = [c] := by
  have hsub : ((namers k cs).map ChildFields.transactionId).Sublist (childIds cs) := by
    have hids : childIds cs = (cs.map Prod.snd).map ChildFields.transactionId := by
      simp [childIds]
    rw [hids]
    exact List.filter_sublist.map _
  have hnd' := hnd.sublist hsub
  cases hns : namers k cs with
  | nil =>
    rw [hns] at hc
    cases hc
  | cons n ns =>
    rw [hns] at hc hall hnd'
    cases ns with
    | nil => rw [List.mem_singleton.mp hc]
    | cons n' ns =>
      exfalso
      have h₁ := hall n (by simp)
      have h₂ := hall n' (by simp)
      simp [h₁, h₂] at hnd'

theorem namesOpenEnds_of_historyKept (h : Canonized E height blockId cs v w)
    (hv : TxnRecords v.txnDb) (hkept : HistoryKept v.txnDb w.txnDb) :
    NamesOpenEnds v.txnDb cs := by
  intro k b c hb hc
  have hk : k ≠ zeroUuid := by
    rintro rfl
    rw [hv.no_sentinel.1] at hb
    cases hb
  have hl := hv.sized k b hb
  obtain ⟨hnd, hfresh⟩ := canonized_fresh h
  obtain ⟨c', hlast⟩ : ∃ c', (namers k cs).getLast? = some c' := by
    cases hg : (namers k cs).getLast? with
    | none =>
      rw [List.getLast?_eq_none_iff.mp hg] at hc
      cases hc
    | some c' => exact ⟨c', rfl⟩
  have hmem' := mem_childIds (mem_namers (List.mem_of_getLast? hlast)).1
  have hwk := canonized_existing h hk hl hb
  rw [pointed, hlast] at hwk
  rcases hkept k b hb with hsame | ⟨hopen, id, r, hid, hr, hprev, hart, huniq⟩
  · -- the record points at the new transaction now and did not before
    exfalso
    rw [hwk] at hsame
    have hnext := congrArg (fun b => (DataTransactionNode.decode b).next) (Option.some.inj hsame)
    simp only [DataTransactionNode.decode_setNext hl] at hnext
    rcases hv.next_known k b hb with hff | hknown
    · rw [← hnext] at hff
      exact (canonized_not_sentinel h _ hmem').2 hff
    · rw [← hnext] at hknown
      exact hknown (hfresh _ hmem')
  · rw [hwk] at hid
    have hidc := setNext_injective hl (Option.some.inj hid)
    have hall : ∀ n ∈ namers k cs, n.transactionId = id := by
      intro n hn
      obtain ⟨hnm, hnk⟩ := mem_namers hn
      obtain ⟨r', hr', hd'⟩ := canonized_new h hnm
      exact huniq _ r' (hfresh _ (mem_childIds hnm)) hr' (hd'.prev.trans hnk)
    refine ⟨hopen, namers_eq_singleton hnd hc fun n hn => (hall n hn).trans (hall c hc).symm, ?_⟩
    obtain ⟨r', hr', hd'⟩ := canonized_new h (mem_namers hc).1
    rw [hall c hc, hr] at hr'
    have hrr := Option.some.inj hr'
    rw [← hd'.artifactId, ← hrr, hart]

theorem historyKept_of_namesOpenEnds (h : Canonized E height blockId cs v w)
    (hv : TxnRecords v.txnDb) (hopen : NamesOpenEnds v.txnDb cs) :
    HistoryKept v.txnDb w.txnDb := by
  intro k b hb
  have hk : k ≠ zeroUuid := by
    rintro rfl
    rw [hv.no_sentinel.1] at hb
    cases hb
  have hwk := canonized_existing h hk (hv.sized k b hb) hb
  cases hns : namers k cs with
  | nil =>
    rw [hns] at hwk
    exact Or.inl hwk
  | cons c ns =>
    have hc : c ∈ namers k cs := by simp [hns]
    obtain ⟨hff, hone, hart⟩ := hopen k b c hb hc
    rw [hone] at hwk
    obtain ⟨hcm, hck⟩ := mem_namers hc
    obtain ⟨r, hr, hd⟩ := canonized_new h hcm
    refine Or.inr ⟨hff, c.transactionId, r, hwk, hr, hd.prev.trans hck, hd.artifactId.trans hart,
      ?_⟩
    intro id' r' hnew hr' hprev'
    rcases canonized_known h (k := id') (by rw [hr']; simp) with hold | hmem
    · exact (hold hnew).elim
    · obtain ⟨p, hp, rfl⟩ := List.mem_map.mp hmem
      have hpm : p.2 ∈ cs.map Prod.snd := List.mem_map_of_mem hp
      obtain ⟨r'', hr'', hd''⟩ := canonized_new h hpm
      rw [hr'] at hr''
      have hrr := Option.some.inj hr''
      have hnamer : p.2 ∈ namers k cs := by
        rw [namers, List.mem_filter]
        exact ⟨hpm, by simpa [← hd''.prev, ← hrr] using hprev'⟩
      rw [hone, List.mem_singleton] at hnamer
      rw [hnamer]

end Block

/-! ### Runs -/

theorem run_records {E : Env} {allowed : Store → Invocation → Prop}
    {log : List (Invocation × Outcome)} {d : Store} (h : Run E allowed log d) :
    TxnRecords d.txnDb := by
  induction h with
  | nil =>
    refine ⟨?_, ⟨rfl, rfl⟩, ?_⟩
    · intro k b hb
      cases hb
    · intro k b hb
      cases hb
  | snoc before call ih =>
    apply perform_preserves (P := fun w => TxnRecords w.txnDb) ih
    intro a w _ heff
    rcases effect_cases heff with ⟨blockId, blockData, fs, -, -, hends⟩ | ⟨-, hframe⟩
    · obtain ⟨_, _, _, blk, cs, -, -, -, hcs, -, -⟩ := blockMakeBody_ends hends
      exact canonized_records hcs ih
    · rw [hframe.txn]
      exact ih

/-- In every reachable store, a block that is refused keeps the canonized history, and a block that
is accepted keeps it exactly when its transactions name only open ends of their own artifact, each
once. -/
theorem history_kept_iff_open_ends {E : Env} {allowed : Store → Invocation → Prop}
    {log : List (Invocation × Outcome)} {d : Store} (h : Run E allowed log d) {i : Invocation}
    {blockId : Uuid} {blockData : Bytes} (hi : i.request = .blockMake blockId blockData)
    (hfind : FindWorks i.faults) (hcommit : i.commitFails = false) :
    ((∀ a, (perform E d i).1 ≠ .ok a) → HistoryKept d.txnDb (perform E d i).2.txnDb) ∧
    ∀ a, (perform E d i).1 = .ok a →
      (HistoryKept d.txnDb (perform E d i).2.txnDb ↔
        NamesOpenEnds d.txnDb (wrappedChildren E blockData)) := by
  constructor
  · intro hrefused k b hb
    rw [perform_error hrefused]
    exact Or.inl hb
  · intro a hok
    have hrecords := run_records h
    obtain ⟨w, -, heff, hw⟩ := perform_ok hok
    have hw' : (perform E d i).2 = w := by simpa [hcommit] using hw
    rw [hi] at heff
    obtain ⟨-, fs, hfs, hends⟩ := heff
    obtain ⟨_, _, _, blk, cs, hwrap, -, -, hcs, -, hall⟩ := blockMakeBody_ends hends
    have hchildren := hcs.eq_wrappedChildren hfs ((hall hfind).trans hwrap.symm)
    subst hchildren
    have hbefore : TxnRecords (withBlock blockId blk d).txnDb := hrecords
    have hiff : HistoryKept (withBlock blockId blk d).txnDb w.txnDb ↔
        NamesOpenEnds (withBlock blockId blk d).txnDb (wrappedChildren E blockData) :=
      ⟨namesOpenEnds_of_historyKept hcs hbefore, historyKept_of_namesOpenEnds hcs hbefore⟩
    rw [hw']
    exact hiff

def nextOf (txn : Uuid → Option Bytes) (k : Uuid) : Option Uuid :=
  (txn k).map fun b => (DataTransactionNode.decode b).next

/-- A first block of artifact 7, and a transaction that continues it. -/
def continuedCalls : List Invocation :=
  [workingCall (.transactionSubmit 5 7 (transactionCert 5 0 7 1)),
    workingCall (.blockMake 9 (blockCert 9 1 1 [transactionCert 5 0 7 1])),
    workingCall (.transactionSubmit 6 7 (transactionCert 6 5 7 2))]

def continuation : Invocation :=
  workingCall (.blockMake 10 (blockCert 10 9 2 [transactionCert 6 5 7 2]))

theorem continuation_keeps_history :
    nextOf (perform (codecEnv false) (runCalls (codecEnv false) continuedCalls).2
      continuation).2.txnDb 5 = some 6 ∧
    HistoryKept (runCalls (codecEnv false) continuedCalls).2.txnDb
      (perform (codecEnv false) (runCalls (codecEnv false) continuedCalls).2
        continuation).2.txnDb := by
  have hrun : Run (codecEnv false) (fun _ _ => True) (runCalls (codecEnv false) continuedCalls).1
      (runCalls (codecEnv false) continuedCalls).2 :=
    run_runCalls (allowedFrom_of_forall (fun _ _ => trivial) emptyStore)
  have heval : ((perform (codecEnv false) (runCalls (codecEnv false) continuedCalls).2
      continuation).1, nextOf (perform (codecEnv false)
        (runCalls (codecEnv false) continuedCalls).2 continuation).2.txnDb 5) =
      (.ok .done, some 6) := by decide +kernel
  obtain ⟨hok, hnext⟩ := Prod.mk.inj heval
  have hchildren : wrappedChildren (codecEnv false)
      (blockCert 10 9 2 [transactionCert 6 5 7 2]) =
      [(transactionCert 6 5 7 2, ⟨6, 5, 7, 2⟩)] := by decide +kernel
  have hrecord : ((runCalls (codecEnv false) continuedCalls).2.txnDb 5).map (fun b =>
      ((DataTransactionNode.decode b).next, (DataTransactionNode.decode b).artifactId)) =
      some (ffUuid, 7) := by decide +kernel
  refine ⟨hnext, ((history_kept_iff_open_ends (i := continuation) hrun rfl
    (fun _ => rfl) rfl).2 _ hok).mpr ?_⟩
  rw [hchildren]
  intro k b c hb hc
  obtain ⟨hcm, hck⟩ := mem_namers hc
  have hc6 : c = ⟨6, 5, 7, 2⟩ := by simpa using hcm
  have hk5 : k = 5 := by rw [← hck, hc6]
  subst hc6 hk5
  obtain ⟨b', hb', hfields⟩ := Option.map_eq_some_iff.mp hrecord
  have hbb : b' = b := Option.some.inj (hb'.symm.trans hb)
  subst hbb
  exact ⟨(Prod.mk.inj hfields).1, by decide, (Prod.mk.inj hfields).2.symm⟩

/-- The same two blocks, and a second transaction with the predecessor the first one continued. -/
def forkedCalls : List Invocation :=
  continuedCalls ++
    [continuation, workingCall (.transactionSubmit 8 7 (transactionCert 8 5 7 2))]

def fork : Invocation := workingCall (.blockMake 11 (blockCert 11 10 3 [transactionCert 8 5 7 2]))

theorem fork_rewrites_history :
    Run (codecEnv false) (fun _ _ => True) (runCalls (codecEnv false) forkedCalls).1
      (runCalls (codecEnv false) forkedCalls).2 ∧
    ¬ HistoryKept (runCalls (codecEnv false) forkedCalls).2.txnDb
      (perform (codecEnv false) (runCalls (codecEnv false) forkedCalls).2 fork).2.txnDb := by
  refine ⟨run_runCalls (allowedFrom_of_forall (fun _ _ => trivial) emptyStore), ?_⟩
  have heval : (nextOf (runCalls (codecEnv false) forkedCalls).2.txnDb 5,
      nextOf (perform (codecEnv false) (runCalls (codecEnv false) forkedCalls).2 fork).2.txnDb 5) =
      (some 6, some 8) := by decide +kernel
  obtain ⟨hbefore, hafter⟩ := Prod.mk.inj heval
  intro hkept
  obtain ⟨b, hb, hnext⟩ := Option.map_eq_some_iff.mp hbefore
  rcases hkept 5 b hb with hsame | ⟨hopen, -⟩
  · rw [nextOf, hsame, Option.map_some, hnext] at hafter
    exact absurd hafter (by decide)
  · rw [hnext] at hopen
    exact absurd hopen (by decide)

end CanonizedRecords
