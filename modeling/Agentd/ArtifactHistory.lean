import Agentd.BlockchainInvariant

/-! # Artifact histories

The abstract history is the list of canonized transactions in canonization order; an artifact's
history is its part of that list. As long as every transaction names the latest one of its artifact
as previous, `txn.db` keeps each artifact's history as a doubly linked list and `artifact.db` its
two ends. Nothing in the code checks the assumption. -/
namespace ArtifactHistory

open ByteString
open CertificateFields
open FaultyTransactions
open DataserviceRecords
open DataserviceStore
open DataserviceQueue
open DataserviceBlocks
open DataserviceRequests
open DataserviceEffects
open LinkedKeys
open BlockchainInvariant

structure Canonical where
  fields : ChildFields
  cert : Bytes
  height : BitVec 64
  blockId : Uuid
  deriving DecidableEq

def Canonical.id (t : Canonical) : Uuid := t.fields.transactionId

def ofArtifact (a : Uuid) (hist : List Canonical) : List Canonical :=
  hist.filter fun t => t.fields.artifactId = a

/-- The transaction at a position of an artifact's history: the zero uuid before the first, the end
uuid after the last. -/
def txnAt (l : List Canonical) (j : ℕ) : Uuid := keyAt Canonical.id zeroUuid ffUuid l j

def txnRecord (l : List Canonical) (j : ℕ) (t : Canonical) : Bytes :=
  (⟨t.id, txnAt l j, txnAt l (j + 2), t.fields.artifactId, t.blockId,
    BitVec.ofNat 64 t.cert.length, TransactionNodeState.canonized.code⟩ :
    DataTransactionNode).encode ++ t.cert

def artifactRecord (a : Uuid) (l : List Canonical) : Option Bytes :=
  match l.head?, l.getLast? with
  | some first, some latest => some (⟨a, first.id, latest.id, first.height, latest.height,
      latest.fields.state⟩ : DataArtifactRecord).encode
  | _, _ => none

structure History (txn art : Uuid → Option Bytes) (hist : List Canonical) : Prop where
  nodup : (hist.map Canonical.id).Nodup
  not_sentinel : ∀ t ∈ hist, t.id ≠ zeroUuid ∧ t.id ≠ ffUuid
  certs : ∀ t ∈ hist, t.cert ≠ [] ∧ t.cert.length < maxPayload
  domain : ∀ k, txn k ≠ none → k ∈ hist.map Canonical.id
  records : ∀ a j t, (ofArtifact a hist)[j]? = some t →
    txn t.id = some (txnRecord (ofArtifact a hist) j t)
  artifacts : ∀ a, art a = artifactRecord a (ofArtifact a hist)

/-- Every transaction names the latest one of its artifact before it, or the zero uuid. -/
def NamesLatest (hist : List Canonical) : Prop :=
  ∀ pre t post, hist = pre ++ t :: post →
    t.fields.prevTransactionId =
      txnAt (ofArtifact t.fields.artifactId pre) (ofArtifact t.fields.artifactId pre).length

/-! ### One more transaction -/

section Snoc

variable {txn txn' art art' : Uuid → Option Bytes} {hist l : List Canonical} {t : Canonical}

theorem ofArtifact_snoc_self {a : Uuid} (h : t.fields.artifactId = a) :
    ofArtifact a (hist ++ [t]) = ofArtifact a hist ++ [t] := by
  simp [ofArtifact, h]

theorem ofArtifact_snoc_of_ne {a : Uuid} (h : t.fields.artifactId ≠ a) :
    ofArtifact a (hist ++ [t]) = ofArtifact a hist := by
  simp [ofArtifact, h]

theorem mem_of_ofArtifact {a : Uuid} (h : t ∈ ofArtifact a hist) :
    t ∈ hist ∧ t.fields.artifactId = a := by
  simpa [ofArtifact] using h

theorem txnRecord_append {j : ℕ} (hj : j + 2 ≤ l.length) (u : Canonical) :
    txnRecord (l ++ [t]) j u = txnRecord l j u := by
  rw [txnRecord, txnRecord, txnAt, keyAt_append (by omega), txnAt, keyAt_append hj]
  rfl

/-- The latest transaction is pointed at the new one. -/
theorem setNext_txnRecord {j : ℕ} (hj : j + 1 = l.length) (u : Canonical) :
    setNext (txnRecord l j u) t.id = txnRecord (l ++ [t]) j u := by
  have hlast : txnAt (l ++ [t]) (j + 2) = t.id := by
    rw [show j + 2 = l.length + 1 by omega]
    exact keyAt_append_last
  have hprev : txnAt (l ++ [t]) j = txnAt l j := keyAt_append (by omega)
  rw [txnRecord, DataTransactionNode.setNext_encode, txnRecord, hprev, hlast]

/-- The record a child enters with. -/
theorem txnRecord_new (hp : t.fields.prevTransactionId = txnAt l l.length) :
    (canonizedNode t.blockId t.cert t.fields).encode ++ t.cert =
      txnRecord (l ++ [t]) l.length t := by
  have hprev : txnAt (l ++ [t]) l.length = txnAt l l.length := keyAt_append le_rfl
  have hnext : txnAt (l ++ [t]) (l.length + 2) = ffUuid := keyAt_above (by simp)
  rw [txnRecord, hprev, hnext, ← hp]
  rfl

theorem artifactRecord_snoc (a : Uuid) :
    artifactRecord a (l ++ [t]) =
      some (⟨a, ((l ++ [t]).head (by simp)).id, t.id, ((l ++ [t]).head (by simp)).height, t.height,
        t.fields.state⟩ : DataArtifactRecord).encode := by
  simp [artifactRecord, List.head?_eq_some_head]

/-- What `txn.db` holds once a transaction is linked behind the latest one of its artifact. -/
structure EnteredBehind (l : List Canonical) (t : Canonical) (txn txn' : Uuid → Option Bytes) :
    Prop where
  new : txn' t.id = some (txnRecord (l ++ [t]) l.length t)
  old : ∀ j u, l[j]? = some u → txn' u.id = some (txnRecord (l ++ [t]) j u)
  others : ∀ k, k ≠ t.id → k ∉ l.map Canonical.id → txn' k = txn k

theorem enteredBehind_first (hp : t.fields.prevTransactionId = zeroUuid)
    (htxn : txn' = entered t.blockId t.cert t.fields txn) : EnteredBehind [] t txn txn' := by
  have hrec : (canonizedNode t.blockId t.cert t.fields).encode ++ t.cert =
      txnRecord ([] ++ [t]) 0 t := txnRecord_new hp
  subst htxn
  refine ⟨?_, ?_, ?_⟩
  · exact (Function.update_self _ _ _).trans (congrArg some hrec)
  · intro j u hu
    cases hu
  · intro k hk _
    exact Function.update_of_ne hk _ _

theorem enteredBehind_latest {b : Bytes} (hne : l ≠ []) (hnd : (l.map Canonical.id).Nodup)
    (hrec : ∀ j u, l[j]? = some u → txn u.id = some (txnRecord l j u)) (hfree : txn t.id = none)
    (hp : t.fields.prevTransactionId = txnAt l l.length)
    (hb : entered t.blockId t.cert t.fields txn t.fields.prevTransactionId = some b)
    (htxn : txn' = Function.update (entered t.blockId t.cert t.fields txn)
      t.fields.prevTransactionId (some (setNext b t.id))) : EnteredBehind l t txn txn' := by
  obtain ⟨n, latest, hn, hlatest, hat⟩ := exists_last Canonical.id zeroUuid ffUuid hne
  have hprev : t.fields.prevTransactionId = latest.id := hp.trans hat
  have hfresh : ∀ (j : ℕ) (u : Canonical), l[j]? = some u → u.id ≠ t.id := by
    intro j u hu heq
    have hstored := hrec j u hu
    rw [heq, hfree] at hstored
    cases hstored
  have hentered : ∀ k, k ≠ t.id → entered t.blockId t.cert t.fields txn k = txn k := by
    intro k hk
    exact Function.update_of_ne hk _ _
  have hpt := hfresh n latest hlatest
  rw [hprev, hentered _ hpt, hrec n latest hlatest] at hb
  have hb' := Option.some.inj hb
  rw [hprev, ← hb', setNext_txnRecord hn] at htxn
  subst htxn
  refine ⟨?_, ?_, ?_⟩
  · rw [Function.update_of_ne hpt.symm]
    exact (Function.update_self _ _ _).trans (congrArg some (txnRecord_new hp))
  · intro j u hu
    by_cases hul : u.id = latest.id
    · have hjn := position_unique hnd hu hlatest hul
      subst hjn
      rw [hlatest] at hu
      cases hu
      exact Function.update_self _ _ _
    · have hjn : j ≠ n := by
        rintro rfl
        rw [hlatest] at hu
        cases hu
        exact hul rfl
      have hlt := (List.getElem?_eq_some_iff.mp hu).1
      rw [Function.update_of_ne hul, hentered _ (hfresh j u hu), hrec j u hu,
        txnRecord_append (by omega)]
  · intro k hk hkl
    have hkp : k ≠ latest.id := by
      rintro rfl
      exact hkl (List.mem_map_of_mem (List.mem_of_getElem? hlatest))
    rw [Function.update_of_ne hkp, hentered k hk]

theorem enteredBehind_of_txnEntered (hnd : (l.map Canonical.id).Nodup)
    (hnz : ∀ u ∈ l, u.id ≠ zeroUuid)
    (hrec : ∀ j u, l[j]? = some u → txn u.id = some (txnRecord l j u))
    (hp : t.fields.prevTransactionId = txnAt l l.length)
    (h : TxnEntered t.blockId t.cert t.fields txn txn') : EnteredBehind l t txn txn' := by
  by_cases hne : l = []
  · subst hne
    have hzero : t.fields.prevTransactionId = zeroUuid := hp
    obtain ⟨-, ⟨-, htxn⟩ | ⟨hnotzero, -⟩⟩ := h
    · exact enteredBehind_first hzero htxn
    · exact (hnotzero hzero).elim
  · obtain ⟨n, latest, hn, hlatest, hat⟩ := exists_last Canonical.id zeroUuid ffUuid hne
    have hprev : t.fields.prevTransactionId = latest.id := hp.trans hat
    obtain ⟨hfree, ⟨hzero, -⟩ | ⟨-, b, hb, -, htxn⟩⟩ := h
    · rw [hprev] at hzero
      exact (hnz latest (List.mem_of_getElem? hlatest) hzero).elim
    · exact enteredBehind_latest hne hnd hrec hfree hp hb htxn

theorem artifactUpdated_history (hart : ∀ a, art a = artifactRecord a (ofArtifact a hist))
    (h : ArtifactUpdated t.height t.fields art art') (a : Uuid) :
    art' a = artifactRecord a (ofArtifact a (hist ++ [t])) := by
  have hold := hart t.fields.artifactId
  have hkey : ∃ record, art' = Function.update art t.fields.artifactId (some record) ∧
      artifactRecord t.fields.artifactId (ofArtifact t.fields.artifactId (hist ++ [t])) =
        some record := by
    rw [ofArtifact_snoc_self rfl, artifactRecord_snoc]
    rcases h with ⟨hnone, hart'⟩ | ⟨b, hb, -, hart'⟩
    · have hnil : ofArtifact t.fields.artifactId hist = [] := by
        rw [hnone] at hold
        cases hl : ofArtifact t.fields.artifactId hist with
        | nil => rfl
        | cons first rest =>
          rw [hl] at hold
          simp [artifactRecord, List.getLast?_cons] at hold
      refine ⟨_, hart', ?_⟩
      simp only [hnil]
      rfl
    · cases hl : ofArtifact t.fields.artifactId hist with
      | nil =>
        rw [hl, hb] at hold
        cases hold
      | cons first rest =>
        rw [hl, hb] at hold
        simp only [artifactRecord, List.head?_cons, List.getLast?_cons] at hold
        have hb' := Option.some.inj hold
        rw [hb', DataArtifactRecord.setArtifactLatest_encode] at hart'
        simp only [DataArtifactRecord.decode_encode_header] at hart'
        exact ⟨_, hart', rfl⟩
  obtain ⟨record, rfl, hrecord⟩ := hkey
  by_cases ha : a = t.fields.artifactId
  · rw [ha, Function.update_self, hrecord]
  · rw [Function.update_of_ne ha, ofArtifact_snoc_of_ne (Ne.symm ha)]
    exact hart a

end Snoc

/-! ### Blocks of transactions -/

theorem NamesLatest.of_append {hist more : List Canonical} (h : NamesLatest (hist ++ more)) :
    NamesLatest hist := by
  intro pre t post heq
  apply h pre t (post ++ more)
  rw [heq]
  simp

theorem NamesLatest.last {hist more : List Canonical} {t : Canonical}
    (h : NamesLatest (hist ++ t :: more)) : t.fields.prevTransactionId =
      txnAt (ofArtifact t.fields.artifactId hist) (ofArtifact t.fields.artifactId hist).length :=
  h hist t more rfl

section Blocks

variable {E : Env} {v w : Store} {hist : List Canonical} {height : BitVec 64} {blockId : Uuid}
  {cert : Bytes} {c : ChildFields} {cs : List (Bytes × ChildFields)}

theorem nodup_ofArtifact (hnd : (hist.map Canonical.id).Nodup) (a : Uuid) :
    ((ofArtifact a hist).map Canonical.id).Nodup :=
  hnd.sublist (List.Sublist.map _ List.filter_sublist)

/-- One wrapped transaction that names the latest one of its artifact. -/
theorem History.child (h : History v.txnDb v.artifactDb hist)
    (hcert : cert ≠ [] ∧ cert.length < maxPayload)
    (hprev : c.prevTransactionId =
      txnAt (ofArtifact c.artifactId hist) (ofArtifact c.artifactId hist).length)
    (hc : ChildEffect E height blockId cert c v w) :
    History w.txnDb w.artifactDb (hist ++ [⟨c, cert, height, blockId⟩]) := by
  have hnew : c.transactionId ∉ hist.map Canonical.id := by
    intro hmem
    obtain ⟨u, hu, hid⟩ := List.mem_map.mp hmem
    have hua : u ∈ ofArtifact u.fields.artifactId hist := by simpa [ofArtifact] using hu
    obtain ⟨j, hj⟩ := List.mem_iff_getElem?.mp hua
    have hstored := h.records _ j u hj
    rw [hid, hc.txn.1] at hstored
    cases hstored
  have hbehind : EnteredBehind (ofArtifact c.artifactId hist) ⟨c, cert, height, blockId⟩
      v.txnDb w.txnDb :=
    enteredBehind_of_txnEntered (nodup_ofArtifact h.nodup _)
      (fun u hu => (h.not_sentinel u (mem_of_ofArtifact hu).1).1) (h.records _) hprev hc.txn
  constructor
  · rw [List.map_append, List.nodup_append]
    refine ⟨h.nodup, by simp, ?_⟩
    rintro x hx y hy rfl
    have hy' : x = c.transactionId := by simpa [Canonical.id] using hy
    exact hnew (hy' ▸ hx)
  · intro u hu
    rcases List.mem_append.mp hu with hu | hu
    · exact h.not_sentinel u hu
    · rw [List.mem_singleton.mp hu]
      exact hc.not_sentinel
  · intro u hu
    rcases List.mem_append.mp hu with hu | hu
    · exact h.certs u hu
    · rw [List.mem_singleton.mp hu]
      exact hcert
  · intro k hk
    by_cases hkc : k = c.transactionId
    · simp [hkc, Canonical.id]
    · by_cases hkl : k ∈ (ofArtifact c.artifactId hist).map Canonical.id
      · obtain ⟨u, hu, rfl⟩ := List.mem_map.mp hkl
        rw [List.map_append]
        exact List.mem_append_left _ (List.mem_map_of_mem (mem_of_ofArtifact hu).1)
      · rw [hbehind.others k hkc hkl] at hk
        rw [List.map_append]
        exact List.mem_append_left _ (h.domain k hk)
  · intro a j u hu
    by_cases ha : c.artifactId = a
    · subst ha
      have hsnoc : ofArtifact c.artifactId (hist ++ [⟨c, cert, height, blockId⟩]) =
          ofArtifact c.artifactId hist ++ [⟨c, cert, height, blockId⟩] := ofArtifact_snoc_self rfl
      rw [hsnoc] at hu ⊢
      rcases getElem?_snoc hu with ⟨-, hold⟩ | ⟨rfl, rfl⟩
      · exact hbehind.old j u hold
      · exact hbehind.new
    · -- the other artifacts' transactions are neither the new one nor the one it names
      rw [ofArtifact_snoc_of_ne ha] at hu ⊢
      obtain ⟨hum, hua⟩ := mem_of_ofArtifact (List.mem_of_getElem? hu)
      have huc : u.id ≠ c.transactionId := fun heq => hnew (heq ▸ List.mem_map_of_mem hum)
      have hul : u.id ∉ (ofArtifact c.artifactId hist).map Canonical.id := by
        intro hmem
        obtain ⟨u', hu', hid⟩ := List.mem_map.mp hmem
        obtain ⟨hum', hua'⟩ := mem_of_ofArtifact hu'
        have heq := List.inj_on_of_nodup_map h.nodup hum' hum hid
        rw [heq, hua] at hua'
        exact ha hua'.symm
      rw [hbehind.others u.id huc hul]
      exact h.records a j u hu
  · exact artifactUpdated_history (t := ⟨c, cert, height, blockId⟩) h.artifacts hc.artifact

def canonicals (height : BitVec 64) (blockId : Uuid) (cs : List (Bytes × ChildFields)) :
    List Canonical :=
  cs.map fun p => ⟨p.2, p.1, height, blockId⟩

theorem History.canonized (hcs : Canonized E height blockId cs v w)
    (h : History v.txnDb v.artifactDb hist)
    (hcerts : ∀ p ∈ cs, p.1 ≠ [] ∧ p.1.length < maxPayload)
    (hn : NamesLatest (hist ++ canonicals height blockId cs)) :
    History w.txnDb w.artifactDb (hist ++ canonicals height blockId cs) := by
  induction hcs generalizing hist with
  | nil v => simpa [canonicals] using h
  | @cons v u w cert c cs first rest ih =>
    have hfirst := h.child (hcerts (cert, c) (by simp)) hn.last first
    have hsplit : hist ++ canonicals height blockId ((cert, c) :: cs) =
        (hist ++ [⟨c, cert, height, blockId⟩]) ++ canonicals height blockId cs := by
      simp [canonicals]
    rw [hsplit] at hn ⊢
    exact ih hfirst (fun p hp => hcerts p (List.mem_cons_of_mem _ hp)) hn

end Blocks

/-! ### Runs -/

def history (E : Env) (bs : List Block) : List Canonical :=
  bs.zipIdx.flatMap fun p =>
    canonicals (heightKey (p.2 + 1)) p.1.id (wrappedChildren E p.1.data)

theorem history_snoc (E : Env) (bs : List Block) (b : Block) :
    history E (bs ++ [b]) =
      history E bs ++ canonicals (heightKey (bs.length + 1)) b.id (wrappedChildren E b.data) := by
  simp [history, List.zipIdx_append]

theorem history_mono (E : Env) {bs bs' : List Block} (h : bs <+: bs') :
    history E bs <+: history E bs' := by
  obtain ⟨more, rfl⟩ := h
  induction more using List.reverseRecOn with
  | nil => simp
  | append_singleton more b ih =>
    rw [← List.append_assoc, history_snoc]
    exact ih.trans (List.prefix_append _ _)

structure HistoryCall (i : Invocation) : Prop extends ChainCall i where
  find : FindWorks i.faults

theorem certChild_ne_nil {E : Env} {cert : Bytes} {c : ChildFields}
    (h : certChild E cert = some c) : cert ≠ [] := by
  obtain ⟨fs, hfs, hc⟩ := Option.bind_eq_some_iff.mp h
  obtain ⟨raw, hraw, -⟩ := Option.bind_eq_some_iff.mp hc
  have hmem := mem_of_mem_fieldValues (List.mem_of_mem_head? (sizedField_eq_some.mp hraw).1)
  have hlt := E.value_length_lt hfs hmem
  rintro rfl
  exact absurd hlt (by simp)

theorem wrapped_certs_fit {E : Env} {blockData : Bytes} (hb : blockData.length < maxPayload) :
    ∀ p ∈ wrappedChildren E blockData, p.1 ≠ [] ∧ p.1.length < maxPayload := by
  intro p hp
  cases hfs : E.fields blockData with
  | none => simp [wrappedChildren, hfs] at hp
  | some fs =>
    simp only [wrappedChildren, hfs, List.mem_filterMap] at hp
    obtain ⟨cert, hcert, hmap⟩ := hp
    obtain ⟨c, hc, rfl⟩ := Option.map_eq_some_iff.mp hmap
    have hlt := E.value_length_lt hfs (mem_of_mem_fieldValues hcert)
    exact ⟨certChild_ne_nil hc, hlt.trans hb⟩

theorem effect_history {E : Env} {d w : Store} {i : Invocation} {a : Reply} {bs : List Block}
    (hc : Chain E d.blockDb d.heightDb bs) (h : History d.txnDb d.artifactDb (history E bs))
    (hi : HistoryCall i) (heff : i.request.Effect E i.faults d a w)
    (hn : NamesLatest (history E (bs ++ blocksMade [(i, .ok a)]))) :
    History w.txnDb w.artifactDb (history E (bs ++ blocksMade [(i, .ok a)])) := by
  rcases effect_cases heff with ⟨blockId, blockData, fs, hreq, hfs, hends⟩ | ⟨hreq, hframe⟩
  · obtain ⟨_, _, firstId, blk, cs, hwrap, -, -, hcs, -, hall⟩ := blockMakeBody_ends hends
    have hchildren := hcs.eq_wrappedChildren hfs ((hall hi.find).trans hwrap.symm)
    subst hchildren
    have hdecoded : blockData.length < maxPayload := by
      have := hi.decoded
      rw [hreq] at this
      exact this
    rw [hc.expectedBlockHeight_eq] at hcs
    rw [blocksMade_blockMake hreq, history_snoc] at hn ⊢
    exact History.canonized hcs h (wrapped_certs_fit hdecoded) hn
  · rw [blocksMade_eq_nil hreq, List.append_nil, hframe.txn, hframe.artifact]
    exact h

theorem history_empty : History emptyStore.txnDb emptyStore.artifactDb [] where
  nodup := List.nodup_nil
  not_sentinel := by simp
  certs := by simp
  domain k hk := (hk rfl).elim
  records a j t ht := by simp [ofArtifact] at ht
  artifacts a := rfl

theorem run_history {E : Env} {log : List (Invocation × Outcome)} {d : Store}
    (h : Run E (fun _ i => HistoryCall i) log d)
    (hn : NamesLatest (history E (blocksMade log))) :
    History d.txnDb d.artifactDb (history E (blocksMade log)) := by
  induction h with
  | nil => exact history_empty
  | @snoc log d i before call ih =>
    rw [blocksMade_snoc] at hn ⊢
    have hchain := run_chain (before.mono fun _ _ hi => hi.toChainCall)
    obtain ⟨more, hmore⟩ := history_mono E (List.prefix_append (blocksMade log)
      (blocksMade [(i, (perform E d i).1)]))
    have hold := ih (NamesLatest.of_append (hmore ▸ hn))
    rcases perform_cases E d i with ⟨-, he⟩ | ⟨e, he⟩ | ⟨a, w, -, heff, ha⟩
    · rw [he]
      simpa [blocksMade] using hold
    · rw [he]
      simpa [blocksMade] using hold
    · rw [ha] at hn ⊢
      rw [call.commit]
      exact effect_history hchain hold call heff hn

/-! ### Reads -/

def gotTransaction : Outcome → Option (DataTransactionNode × Bytes)
  | .ok (.transaction node cert) => some (node, cert)
  | _ => none

/-- The replies to `canonized_transaction_get`, from a transaction on along `next`. -/
def transactionsFrom (E : Env) (d : Store) (fuel : ℕ) (id : Uuid) :
    List (DataTransactionNode × Bytes) :=
  walk (fun id => gotTransaction (perform E d (workingCall (.canonizedTransactionGet id))).1)
    (fun r => r.1.next) ffUuid fuel id

/-- What the reads say of the artifact `a` with history `l`: its record has the ends of `l`, and
from the first transaction `next` leads through `l` to the latest. -/
structure Traces (E : Env) (d : Store) (a : Uuid) (l : List Canonical) : Prop where
  node : ∀ j t, l[j]? = some t →
    perform E d (workingCall (.canonizedTransactionGet t.id)) =
      (.ok (.transaction ⟨t.id, txnAt l j, txnAt l (j + 2), a, t.blockId,
        BitVec.ofNat 64 t.cert.length, TransactionNodeState.canonized.code⟩ t.cert), d)
  artifact : ∀ first latest, l.head? = some first → l.getLast? = some latest →
    perform E d (workingCall (.artifactGet a)) =
      (.ok (.artifact ⟨a, first.id, latest.id, first.height, latest.height,
        latest.fields.state⟩), d)
  walk : ∀ first fuel, l.head? = some first → l.length ≤ fuel →
    (transactionsFrom E d fuel first.id).map (fun r => (r.1.key, r.2)) =
      l.map fun t => (t.id, t.cert)

section Reads

variable {E : Env} {d : Store} {hist : List Canonical}

theorem perform_canonizedTransactionGet (h : History d.txnDb d.artifactDb hist) {a : Uuid} {j : ℕ}
    {t : Canonical} (ht : (ofArtifact a hist)[j]? = some t) {i : Invocation}
    (hi : i.request = .canonizedTransactionGet t.id) (hw : LmdbWorks i.faults) (hp : i.Permitted) :
    perform E d i =
      (.ok (.transaction ⟨t.id, txnAt (ofArtifact a hist) j, txnAt (ofArtifact a hist) (j + 2), a,
        t.blockId, BitVec.ofNat 64 t.cert.length, TransactionNodeState.canonized.code⟩ t.cert),
        d) := by
  obtain ⟨r, caps, f, b⟩ := i
  cases hi
  obtain ⟨hmem, hart⟩ := mem_of_ofArtifact (List.mem_of_getElem? ht)
  obtain ⟨hne, hlt⟩ := h.certs t hmem
  have hpos : 0 < t.cert.length := List.length_pos_iff.mpr hne
  have hsize : (BitVec.ofNat 64 t.cert.length).toNat = t.cert.length := by
    rw [BitVec.toNat_ofNat, Nat.mod_eq_of_lt (hlt.trans (by decide))]
  have hlen : (txnRecord (ofArtifact a hist) j t).length =
      sizeofTransactionNode + t.cert.length := by
    simp [txnRecord]
  have hy := nodeGetBody_yields txnDb hw hp.alloc (h.records a j t ht) (by omega) (by
    rw [hlen, txnRecord, DataTransactionNode.decode_encode, hsize, Nat.add_sub_cancel_left])
  rw [txnRecord, DataTransactionNode.decode_encode, List.drop_left' (by simp), hart] at hy
  have hget : Delivers (canonizedTransactionGet caps t.id) f d [] _ d :=
    authorize_delivers hp.capability (nodeGet_delivers hw hy)
  have hd : Delivers (Request.run E caps (.canonizedTransactionGet t.id)) f d [] _ d :=
    hget.bind_pure fun r => Reply.transaction r.1 r.2
  rw [perform_of_delivers hd, ite_self]

theorem perform_artifactGet {a : Uuid} {record : DataArtifactRecord}
    (h : d.artifactDb a = some record.encode) :
    perform E d (workingCall (.artifactGet a)) = (.ok (.artifact record), d) := by
  have hw := (workingCall_works (.artifactGet a)).lmdb
  have hp := workingCall_permitted (.artifactGet a)
  have hy := artifactGetBody_yields hw h (by simp)
  rw [DataArtifactRecord.decode_encode_header] at hy
  have hget : Delivers (artifactGet (BitVec.allOnes 32) a) noFaults d [] record d :=
    authorize_delivers hp.capability (inReadTxn_delivers hw hy)
  have hd : Delivers (Request.run E (BitVec.allOnes 32) (.artifactGet a)) noFaults d []
      (.artifact record) d := hget.bind_pure Reply.artifact
  rw [perform_of_delivers (i := workingCall (.artifactGet a)) hd, ite_self]

theorem History.traces (h : History d.txnDb d.artifactDb hist) (a : Uuid) :
    Traces E d a (ofArtifact a hist) where
  node j t ht := perform_canonizedTransactionGet h ht rfl (workingCall_works _).lmdb
    (workingCall_permitted _)
  artifact first latest hfirst hlatest := by
    apply perform_artifactGet
    rw [h.artifacts a, artifactRecord, hfirst, hlatest]
  walk first fuel hfirst hfuel := by
    rw [List.head?_eq_getElem?] at hfirst
    have hwalk : (transactionsFrom E d fuel first.id).map (fun r => (r.1.key, r.2)) =
        ((ofArtifact a hist).drop 0).map fun t => (t.id, t.cert) := by
      apply map_walk_eq_drop zeroUuid _ _ hfirst (by omega)
      · intro j t ht
        rw [perform_canonizedTransactionGet h ht rfl (workingCall_works _).lmdb
          (workingCall_permitted _)]
        exact ⟨_, rfl, rfl, rfl⟩
      · intro t ht
        exact (h.not_sentinel t (mem_of_ofArtifact ht).1).2
    exact hwalk

end Reads

/-- The first transaction of an artifact and its height, as an artifact record has them. -/
def firstFields (b : Bytes) : Uuid × BitVec 64 :=
  ((DataArtifactRecord.decode b).txnFirst, (DataArtifactRecord.decode b).netHeightFirst)

theorem ofArtifact_mono {hist hist' : List Canonical} (h : hist <+: hist') (a : Uuid) :
    ofArtifact a hist <+: ofArtifact a hist' :=
  h.filter _

theorem firstFields_artifactRecord {a : Uuid} {l : List Canonical} {b : Bytes}
    (h : artifactRecord a l = some b) :
    ∃ first rest, l = first :: rest ∧ firstFields b = (first.id, first.height) := by
  cases l with
  | nil => cases h
  | cons first rest =>
    simp only [artifactRecord, List.head?_cons, List.getLast?_cons] at h
    rw [← Option.some.inj h]
    exact ⟨first, rest, rfl, by simp [firstFields]⟩

/-- A longer history keeps the first fields of every artifact it already had. -/
theorem firstFields_stable {txn txn' art art' : Uuid → Option Bytes} {hist hist' : List Canonical}
    (h : History txn art hist) (h' : History txn' art' hist') (hpre : hist <+: hist') {a : Uuid}
    {b : Bytes} (hb : art a = some b) :
    ∃ b', art' a = some b' ∧ firstFields b' = firstFields b := by
  rw [h.artifacts a] at hb
  obtain ⟨first, rest, hl, hfirst⟩ := firstFields_artifactRecord hb
  obtain ⟨more, hmore⟩ := ofArtifact_mono hpre a
  have hart' := h'.artifacts a
  rw [← hmore, hl] at hart'
  simp only [artifactRecord, List.cons_append, List.head?_cons, List.getLast?_cons] at hart'
  refine ⟨_, hart', ?_⟩
  rw [hfirst]
  simp [firstFields]

/-- In every run whose blocks' transactions each name the latest one of their artifact, every
artifact's history is a doubly linked list with the ends its record gives, and the first end stays
what it was in every earlier store of the run. -/
theorem artifact_histories_are_linked {E : Env} {log : List (Invocation × Outcome)} {d : Store}
    (h : Run E (fun _ i => HistoryCall i) log d)
    (hn : NamesLatest (history E (blocksMade log))) :
    History d.txnDb d.artifactDb (history E (blocksMade log)) ∧
    (∀ a, Traces E d a (ofArtifact a (history E (blocksMade log)))) ∧
    ∀ log₀ d₀, log₀ <+: log → Run E (fun _ i => HistoryCall i) log₀ d₀ →
      ∀ a b₀, d₀.artifactDb a = some b₀ →
        ∃ b, d.artifactDb a = some b ∧ firstFields b = firstFields b₀ := by
  have hhist := run_history h hn
  refine ⟨hhist, fun a => hhist.traces a, ?_⟩
  intro log₀ d₀ hpre h₀ a b₀ hb₀
  have hblocks : blocksMade log₀ <+: blocksMade log := hpre.filterMap _
  obtain ⟨more, hmore⟩ := history_mono E hblocks
  have hhist₀ := run_history h₀ (NamesLatest.of_append (hmore ▸ hn))
  exact firstFields_stable hhist₀ hhist (history_mono E hblocks) hb₀

/-- Two blocks with three transactions of one artifact and one of another between them. -/
def interleavedCalls : List Invocation :=
  [workingCall (.transactionSubmit 5 7 (transactionCert 5 0 7 1)),
    workingCall (.transactionSubmit 6 8 (transactionCert 6 0 8 1)),
    workingCall (.transactionSubmit 11 7 (transactionCert 11 5 7 2)),
    workingCall (.blockMake 9 (blockCert 9 1 1 [transactionCert 5 0 7 1,
      transactionCert 6 0 8 1, transactionCert 11 5 7 2])),
    workingCall (.transactionSubmit 12 7 (transactionCert 12 11 7 3)),
    workingCall (.blockMake 10 (blockCert 10 9 2 [transactionCert 12 11 7 3]))]

theorem historyCall_of_mem : ∀ i ∈ interleavedCalls, HistoryCall i := by
  simp only [interleavedCalls, List.mem_cons, List.not_mem_nil, or_false]
  rintro i (rfl | rfl | rfl | rfl | rfl | rfl)
  · exact ⟨⟨rfl, by decide, by decide⟩, fun _ => rfl⟩
  · exact ⟨⟨rfl, by decide, by decide⟩, fun _ => rfl⟩
  · exact ⟨⟨rfl, by decide, by decide⟩, fun _ => rfl⟩
  · exact ⟨⟨rfl, show (blockCert _ _ _ _).length < maxPayload by decide +kernel⟩, fun _ => rfl⟩
  · exact ⟨⟨rfl, by decide, by decide⟩, fun _ => rfl⟩
  · exact ⟨⟨rfl, show (blockCert _ _ _ _).length < maxPayload by decide +kernel⟩, fun _ => rfl⟩

instance (hist : List Canonical) : Decidable (NamesLatest hist) :=
  decidable_of_iff (∀ n, ∀ hn : n < hist.length, hist[n].fields.prevTransactionId =
      txnAt (ofArtifact hist[n].fields.artifactId (hist.take n))
        (ofArtifact hist[n].fields.artifactId (hist.take n)).length) (by
    constructor
    · rintro h pre t post rfl
      have hlt : pre.length < (pre ++ t :: post).length := by simp
      have hat := h pre.length hlt
      simpa using hat
    · intro h n hn
      have hsplit : hist = hist.take n ++ hist[n] :: hist.drop (n + 1) := by simp
      exact h _ _ _ hsplit)

theorem interleaved_histories_are_linked :
    (ofArtifact 7 (history (codecEnv true)
      (blocksMade (runCalls (codecEnv true) interleavedCalls).1))).map Canonical.id = [5, 11, 12] ∧
    ∀ a, Traces (codecEnv true) (runCalls (codecEnv true) interleavedCalls).2 a
      (ofArtifact a (history (codecEnv true)
        (blocksMade (runCalls (codecEnv true) interleavedCalls).1))) := by
  have hrun : Run (codecEnv true) (fun _ i => HistoryCall i)
      (runCalls (codecEnv true) interleavedCalls).1 (runCalls (codecEnv true) interleavedCalls).2 :=
    run_runCalls (allowedFrom_of_forall historyCall_of_mem emptyStore)
  exact ⟨by decide +kernel, (artifact_histories_are_linked hrun (by decide +kernel)).2.1⟩

end ArtifactHistory
