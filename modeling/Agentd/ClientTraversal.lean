import Agentd.ArtifactHistory
import Agentd.ClientAnswers

/-! # What clients can walk

A client that asks again and again for the next or the previous id is led along the chain of blocks,
and along the history of an artifact when every transaction names the latest one before it. -/
namespace ClientTraversal

open ByteString
open CertificateFields
open FaultyTransactions
open DataserviceRecords
open DataserviceStore
open DataserviceQueue
open DataserviceBlocks
open DataserviceRequests
open DataserviceEffects
open DataserviceDispatch (Service)
open LinkedKeys
open BlockchainInvariant
open ArtifactHistory
open ClientProtocol
open ClientAnswers

/-! ### Asking again and again -/

section Traversal

variable {K : Type*} {answers : K → Option K → Prop} {ks : List K} {k : K}

/-- From a key on the answers are the keys of the list, and then that there is none. -/
def Traverses (answers : K → Option K → Prop) : K → List K → Prop
  | k, [] => answers k none
  | k, a :: l => answers k (some a) ∧ Traverses answers a l

/-- Every key is answered with the one behind it. -/
theorem traverses_following
    (h : ∀ pre x post, ks = pre ++ x :: post → answers x post.head?) {pre post : List K}
    (hks : ks = pre ++ k :: post) : Traverses answers k post := by
  induction post generalizing pre k with
  | nil => exact h pre k [] hks
  | cons a post ih =>
    have hstep : ks = (pre ++ [k]) ++ a :: post := by
      rw [hks, List.append_assoc]
      rfl
    exact ⟨h pre k (a :: post) hks, ih hstep⟩

/-- Every key is answered with the one before it. -/
theorem traverses_preceding
    (h : ∀ pre x post, ks = pre ++ x :: post → answers x pre.getLast?) {pre post : List K}
    (hks : ks = pre ++ k :: post) : Traverses answers k pre.reverse := by
  induction pre using List.reverseRecOn generalizing k post with
  | nil => exact h [] k post hks
  | append_singleton pre a ih =>
    have hstep : ks = pre ++ a :: k :: post := by
      rw [hks, List.append_assoc]
      rfl
    have hlast := h (pre ++ [a]) k post hks
    rw [List.getLast?_concat] at hlast
    rw [List.reverse_append, List.reverse_singleton, List.singleton_append]
    exact ⟨hlast, ih hstep⟩

theorem getElem?_behind (pre post : List K) (k : K) :
    (pre ++ k :: post)[pre.length + 1]? = post.head? := by
  rw [List.getElem?_append_right (by omega), Nat.add_sub_cancel_left, List.getElem?_cons_succ,
    List.head?_eq_getElem?]

theorem getElem?_before (base : K) (pre post : List K) :
    ((base :: (pre ++ post))[pre.length]?).getD base = pre.getLast?.getD base := by
  induction pre using List.reverseRecOn with
  | nil => rfl
  | append_singleton pre a ih => simp

end Traversal

section Walks

variable (L : Library) (E : Env) (s : Service) (child : BitVec 32)

def toldId : Option Uuid → Told
  | none => .error errorDataserviceNotFound
  | some id => .ok (.id id)

def Leads (r : ProtocolRequest) (id : Uuid) (o : Option Uuid) : Prop :=
  Tells L E s child r id (toldId o)

def Readable (get : ProtocolRequest) (id : Uuid) : Prop :=
  id ≠ zeroUuid ∧ id ≠ ffUuid ∧ ∃ body, Tells L E s child get id (.ok body)

/-- The requests `next` and `prev` lead along the ids in both directions, and each can be read. -/
structure Walked (next prev get : ProtocolRequest) (ids : List Uuid) : Prop where
  following : ∀ pre x post, ids = pre ++ x :: post → Traverses (Leads L E s child next) x post
  preceding : ∀ pre x post, ids = pre ++ x :: post →
    Traverses (Leads L E s child prev) x pre.reverse
  readable : ∀ x ∈ ids, Readable L E s child get x

/-- For every id there is an error, or an id that can be read. -/
def LeadsToReadable (r get : ProtocolRequest) : Prop :=
  ∀ id, Refuses L E s child r id ∨ ∃ id', Leads L E s child r id (some id') ∧
    Readable L E s child get id'

variable {L E s child} {next prev get : ProtocolRequest} {ids pre post : List Uuid} {x : Uuid}

theorem neighbour_getD {absent : Uuid} {o : Option Uuid} (h : ∀ id, o = some id → id ≠ absent) :
    neighbour absent (o.getD absent) = toldId o := by
  cases o with
  | none => exact if_pos rfl
  | some id => exact if_neg (h id rfl)

/-- The walks, from what the requests make of the links of each record. -/
theorem walked_of_links (hread : ∀ x ∈ ids, Readable L E s child get x)
    (hnext : ∀ pre x post, ids = pre ++ x :: post →
      Tells L E s child next x (neighbour ffUuid (post.head?.getD ffUuid)))
    (hprev : ∀ pre x post, ids = pre ++ x :: post →
      Tells L E s child prev x (neighbour zeroUuid (pre.getLast?.getD zeroUuid))) :
    Walked L E s child next prev get ids where
  following pre x post hids := by
    refine traverses_following (fun pre x post hids => ?_) hids
    have htells := hnext pre x post hids
    rw [neighbour_getD] at htells
    · exact htells
    · intro id hid
      have hmem : id ∈ ids := by simp [hids, List.mem_of_mem_head? hid]
      exact (hread id hmem).2.1
  preceding pre x post hids := by
    refine traverses_preceding (fun pre x post hids => ?_) hids
    have htells := hprev pre x post hids
    rw [neighbour_getD] at htells
    · exact htells
    · intro id hid
      have hmem : id ∈ ids := by simp [hids, List.mem_of_getLast? hid]
      exact (hread id hmem).1
  readable := hread

theorem refuses_of_leads_none {r : ProtocolRequest} {id : Uuid} (h : Leads L E s child r id none) :
    Refuses L E s child r id :=
  fun d p hd hasks => ⟨errorDataserviceNotFound, by decide, h d p hd hasks⟩

/-- In a walk nothing leads out of the list. -/
theorem Walked.sound (h : Walked L E s child next prev get ids) (hx : x ∈ ids) :
    ∀ r ∈ [next, prev], Refuses L E s child r x ∨
      ∃ id', Leads L E s child r x (some id') ∧ Readable L E s child get id' := by
  obtain ⟨pre, post, hids⟩ := List.append_of_mem hx
  have hstep : ∀ r l, Traverses (Leads L E s child r) x l → (∀ id ∈ l, id ∈ ids) →
      Refuses L E s child r x ∨
        ∃ id', Leads L E s child r x (some id') ∧ Readable L E s child get id' := by
    intro r l ht hl
    cases l with
    | nil => exact Or.inl (refuses_of_leads_none ht)
    | cons a l => exact Or.inr ⟨a, ht.1, h.readable a (hl a (by simp))⟩
  intro r hr
  simp only [List.mem_cons, List.not_mem_nil, or_false] at hr
  rcases hr with rfl | rfl
  · apply hstep _ _ (h.following pre x post hids)
    intro id hid
    simp [hids, hid]
  · apply hstep _ _ (h.preceding pre x post hids)
    intro id hid
    simp [hids, List.mem_reverse.mp hid]

end Walks

/-! ### The chain of blocks -/

section Blocks

variable {L : Library} {E : Env} {s : Service} {child : BitVec 32} {dir : Bytes} {d : Store}
  {bs : List Block} {id : Uuid}

def chainIds (E : Env) (bs : List Block) : List Uuid := E.rootBlock :: bs.map Block.id

theorem getElem?_chainIds (h : ℕ) : ((chainIds E bs)[h]?).getD ffUuid = blockAt E bs h := by
  cases h with
  | zero => rfl
  | succ h =>
    rw [chainIds, List.getElem?_cons_succ, List.getElem?_map]
    rfl

/-- What a look-up of an element of the chain returns. -/
theorem performs_chain (hc : Chain E d.blockDb d.heightDb bs) (hne : bs ≠ []) {h : ℕ}
    (hid : (chainIds E bs)[h]? = some id) :
    ∃ node cert, Performs E d (.blockGet id) (.ok (.block node cert)) ∧ cert.length < 2 ^ 32 ∧
      node.next = blockAt E bs (h + 1) ∧
      node.prev = (zeroUuid :: chainIds E bs)[h]?.getD zeroUuid := by
  cases h with
  | zero =>
    obtain rfl := Option.some.inj hid
    refine ⟨_, _, fun i hi hw hp => perform_blockGet_root hc hne hi hw hp, ?_, rfl, rfl⟩
    decide
  | succ h =>
    rw [chainIds, List.getElem?_cons_succ, List.getElem?_map] at hid
    obtain ⟨c, hget, rfl⟩ := Option.map_eq_some_iff.mp hid
    obtain ⟨firstId, hy⟩ := blockGetBody_chain_yields hc hget
    have hlt := (hc.data c (List.mem_of_getElem? hget)).2
    have hprev : blockAt E bs h = ((zeroUuid :: chainIds E bs)[h + 1]?).getD zeroUuid := by
      have hlen : h < (chainIds E bs).length := by
        have := (List.getElem?_eq_some_iff.mp hget).1
        simp only [chainIds, List.length_cons, List.length_map]
        omega
      rw [← getElem?_chainIds, List.getElem?_cons_succ, List.getElem?_eq_getElem hlen]
      rfl
    refine ⟨⟨c.id, blockAt E bs h, blockAt E bs (h + 2), firstId, heightKey (h + 1),
      BitVec.ofNat 64 c.data.length⟩, c.data, fun i hi hw hp => ?_,
      hlt.trans (by decide), rfl, hprev⟩
    exact perform_blockGet_of_yields hi hw hp (hy i.faults hw hp.alloc)

theorem not_reserved_chainIds (hc : Chain E d.blockDb d.heightDb bs) (hid : id ∈ chainIds E bs) :
    id ≠ zeroUuid ∧ id ≠ ffUuid := by
  rcases List.mem_cons.mp hid with rfl | hmem
  · exact ⟨E.rootBlock_ne_zero, E.rootBlock_ne_ff⟩
  · obtain ⟨c, hcm, rfl⟩ := List.mem_map.mp hmem
    exact (hc.not_reserved c hcm).2

/-- A record that is not longer than its header is not the record of a block. -/
theorem blockGetBody_long {f : FaultPattern} {v w : Store} {nested : Bool} {b : Bytes}
    {r : DataBlockNode × Bytes} (h : Ends (blockGetBody E nested id) f v r w)
    (hb : v.blockDb id = some b) : sizeofBlockNode < b.length := by
  obtain ⟨g, u, hget, hrest⟩ := h.of_bind
  obtain ⟨rfl, hg⟩ := mdbGet_ends hget
  have hkey : blockDb.read u id = some b := hb
  rcases hg with ⟨b', rfl, hb'⟩ | ⟨rfl, hnone⟩ | rfl
  · obtain rfl := Option.some.inj (hkey.symm.trans hb')
    rw [if_neg (by simp)] at hrest
    obtain ⟨_, u₁, hlong, -⟩ := hrest.of_bind
    obtain ⟨hlong, -⟩ := hlong.of_reject
    simp only [true_and, Bool.false_eq_true, false_and, or_false] at hlong
    omega
  · rw [hkey] at hnone
    cases hnone
  · rw [if_neg (by simp)] at hrest
    exact hrest.not_fail.elim

theorem fails_outside_chain (hc : Chain E d.blockDb d.heightDb bs) (hid : id ∉ chainIds E bs) :
    Fails E d (.blockGet id) := by
  intro i hi
  rcases perform_cases E d i with ⟨hhazard | ⟨hcommit, -⟩, -⟩ | he | ⟨a, w, -, heff, -⟩
  · rw [hi] at hhazard
    exact hhazard.elim
  · rw [hi] at hcommit
    cases hcommit
  · exact he
  · rw [hi] at heff
    obtain ⟨-, node, cert, u, -, hends⟩ := heff
    simp only [chainIds, List.mem_cons, not_or] at hid
    obtain ⟨b, hb | ⟨hroot, -⟩, -⟩ := blockGetBody_ends hends
    · have hlong := blockGetBody_long hends hb
      rcases hc.block_domain id (by rw [hb]; simp) with rfl | rfl | hmem
      · rcases hc.sentinels with ⟨-, hz, -⟩ | ⟨-, hz, -⟩
        · rw [hz] at hb
          cases hb
        · rw [hz] at hb
          rw [← Option.some.inj hb] at hlong
          simp [startRecord] at hlong
      · rcases hc.sentinels with ⟨-, -, hf⟩ | ⟨-, -, hf⟩
        · rw [hf] at hb
          cases hb
        · rw [hf] at hb
          rw [← Option.some.inj hb] at hlong
          simp [endRecord] at hlong
      · exact (hid.2 hmem).elim
    · exact (hid.1 hroot).elim

structure ChainTraversed (L : Library) (E : Env) (s : Service) (child : BitVec 32)
    (bs : List Block) : Prop where
  walked : Walked L E s child .blockIdGetNext .blockIdGetPrev .blockByIdGet (chainIds E bs)
  refused : ∀ id, id ∉ chainIds E bs → Refuses L E s child .blockIdGetNext id ∧
    Refuses L E s child .blockIdGetPrev id
  readable : LeadsToReadable L E s child .blockIdGetNext .blockByIdGet ∧
    LeadsToReadable L E s child .blockIdGetPrev .blockByIdGet

theorem chainTraversed (hL : L.Documented)
    (hc : Chain E (s.disk dir).blockDb (s.disk dir).heightDb bs)
    (hne : bs ≠ []) (hs : Holds s child dir .appBlockRead) : ChainTraversed L E s child bs := by
  have hlook : ∀ h id, (chainIds E bs)[h]? = some id → ∀ r, methodOf r = some .appBlockRead →
      ∃ node data, node.next = blockAt E bs (h + 1) ∧
        node.prev = ((zeroUuid :: chainIds E bs)[h]?).getD zeroUuid ∧
        Tells L E s child r id (toldOfBlock node data r) := by
    intro h id hid r hr
    obtain ⟨node, cert, hperforms, hfits, hnext, hprev⟩ := performs_chain hc hne hid
    obtain ⟨size, data, htells⟩ := tells_block hL hr hs hperforms hfits
    exact ⟨{ node with netBlockCertSize := size }, data, hnext, hprev, htells⟩
  have hat : ∀ pre x post, chainIds E bs = pre ++ x :: post →
      (chainIds E bs)[pre.length]? = some x := by
    intro pre x post hids
    simp [hids]
  have hwalked : Walked L E s child .blockIdGetNext .blockIdGetPrev .blockByIdGet
      (chainIds E bs) := by
    apply walked_of_links
    · intro x hx
      obtain ⟨h, hid⟩ := List.mem_iff_getElem?.mp hx
      obtain ⟨node, data, -, -, htells⟩ := hlook h x hid .blockByIdGet rfl
      obtain ⟨hz, hf⟩ := not_reserved_chainIds hc hx
      exact ⟨hz, hf, _, htells⟩
    · intro pre x post hids
      obtain ⟨node, data, hnext, -, htells⟩ := hlook _ x (hat pre x post hids) .blockIdGetNext rfl
      have hhead : node.next = post.head?.getD ffUuid := by
        rw [hnext, ← getElem?_chainIds, hids, getElem?_behind]
      rw [← hhead]
      exact htells
    · intro pre x post hids
      obtain ⟨node, data, -, hprev, htells⟩ := hlook _ x (hat pre x post hids) .blockIdGetPrev rfl
      have hlast : node.prev = pre.getLast?.getD zeroUuid := by
        rw [hprev, hids, getElem?_before]
      rw [← hlast]
      exact htells
  have hrefused : ∀ id, id ∉ chainIds E bs → Refuses L E s child .blockIdGetNext id ∧
      Refuses L E s child .blockIdGetPrev id := fun id hid =>
    ⟨refuses_block hL rfl hs (fails_outside_chain hc hid),
      refuses_block hL rfl hs (fails_outside_chain hc hid)⟩
  refine ⟨hwalked, hrefused, ?_, ?_⟩
  · intro id
    by_cases hid : id ∈ chainIds E bs
    · exact hwalked.sound hid _ (by simp)
    · exact Or.inl (hrefused id hid).1
  · intro id
    by_cases hid : id ∈ chainIds E bs
    · exact hwalked.sound hid _ (by simp)
    · exact Or.inl (hrefused id hid).2

end Blocks

/-! ### What a run has canonized -/

/-- The transactions that a call canonizes, in the order of its block; the parser or the commit may
have failed, so they need not be all of the block. -/
inductive Canonizes (E : Env) (d : Store) (i : Invocation) : List Canonical → Prop
  | block {blockId : Uuid} {blockData : Bytes} {fs : List (CertField × Bytes)}
      {blk : Uuid → Option Bytes} {cs : List (Bytes × ChildFields)}
      (request : i.request = .blockMake blockId blockData) (fields : E.fields blockData = some fs)
      (wrapped : cs.map Prod.fst <+: fieldValues fs .wrappedTransactionTuple)
      (canonized : Canonized E (expectedBlockHeight (d.blockDb ffUuid)) blockId cs
        (withBlock blockId blk d) (perform E d i).2) :
      Canonizes E d i (canonicals (expectedBlockHeight (d.blockDb ffUuid)) blockId cs)
  | none (txn : (perform E d i).2.txnDb = d.txnDb)
      (artifact : (perform E d i).2.artifactDb = d.artifactDb) : Canonizes E d i []

inductive Recorded (E : Env) : List (Invocation × Outcome) → List Canonical → Store → Prop
  | nil : Recorded E [] [] emptyStore
  | snoc {log : List (Invocation × Outcome)} {hist new : List Canonical} {d : Store}
      {i : Invocation} (before : Recorded E log hist d) (call : i.request.Decoded)
      (canonizes : Canonizes E d i new) :
      Recorded E (log ++ [(i, (perform E d i).1)]) (hist ++ new) (perform E d i).2

section Recording

variable {E : Env} {log : List (Invocation × Outcome)} {hist : List Canonical} {d : Store}
  {i : Invocation}

theorem exists_canonizes (E : Env) (d : Store) (i : Invocation) : ∃ new, Canonizes E d i new := by
  have hnone : (perform E d i).2 = d → ∃ new, Canonizes E d i new :=
    fun h => ⟨[], .none (by rw [h]) (by rw [h])⟩
  rcases perform_cases E d i with ⟨-, he⟩ | ⟨e, he⟩ | ⟨a, w, -, heff, ha⟩
  · exact hnone (by rw [he])
  · exact hnone (by rw [he])
  · cases hcommit : i.commitFails with
    | true =>
      rw [hcommit] at ha
      exact hnone (by rw [ha]; rfl)
    | false =>
      have hw : (perform E d i).2 = w := by
        rw [ha, hcommit]
        rfl
      rcases effect_cases heff with ⟨blockId, blockData, fs, hreq, hfs, hends⟩ | ⟨-, hframe⟩
      · obtain ⟨first, rest, firstId, blk, cs, hwrap, -, -, hcs, hpre, -⟩ :=
          blockMakeBody_ends hends
        exact ⟨_, .block hreq hfs (hwrap ▸ hpre) (hw.symm ▸ hcs)⟩
      · exact ⟨[], .none (hw ▸ hframe.txn) (hw ▸ hframe.artifact)⟩

/-- Every run has such a list. -/
theorem exists_recorded (h : Run E (fun _ i => i.request.Decoded) log d) :
    ∃ hist, Recorded E log hist d := by
  induction h with
  | nil => exact ⟨[], .nil⟩
  | @snoc log d i before call ih =>
    obtain ⟨hist, hrecorded⟩ := ih
    obtain ⟨new, hnew⟩ := exists_canonizes E d i
    exact ⟨hist ++ new, .snoc hrecorded call hnew⟩

theorem canonized_certs_fit {height : BitVec 64} {blockId : Uuid} {blockData : Bytes}
    {fs : List (CertField × Bytes)} {cs : List (Bytes × ChildFields)} {v w : Store}
    (hdata : blockData.length < maxPayload) (hfs : E.fields blockData = some fs)
    (hwrapped : cs.map Prod.fst <+: fieldValues fs .wrappedTransactionTuple)
    (hcs : Canonized E height blockId cs v w) :
    ∀ p ∈ cs, p.1 ≠ [] ∧ p.1.length < maxPayload := by
  intro p hp
  have hmem : p.1 ∈ fieldValues fs .wrappedTransactionTuple :=
    hwrapped.subset (List.mem_map_of_mem hp)
  exact ⟨certChild_ne_nil (hcs.certChild_eq p hp),
    (E.value_length_lt hfs (mem_of_mem_fieldValues hmem)).trans hdata⟩

/-- Where every transaction names the latest one before it, the databases hold the history. -/
theorem Recorded.history (h : Recorded E log hist d) (hn : NamesLatest hist) :
    History d.txnDb d.artifactDb hist := by
  induction h with
  | nil => exact history_empty
  | @snoc log hist new d i before call canonizes ih =>
    have hold := ih (NamesLatest.of_append hn)
    cases canonizes with
    | none htxn hart =>
      rw [List.append_nil, htxn, hart]
      exact hold
    | block hreq hfs hwrapped hcs =>
      rw [hreq] at call
      exact History.canonized hcs hold (canonized_certs_fit call hfs hwrapped hcs) hn

/-- When the parser and the commits work, these are the wrapped transactions of the blocks made. -/
theorem recorded_history (h : Run E (fun _ i => HistoryCall i) log d) :
    Recorded E log (history E (blocksMade log)) d := by
  induction h with
  | nil => exact .nil
  | @snoc log d i before call ih =>
    have hchain := run_chain (before.mono fun _ _ hi => hi.toChainCall)
    have hsame : blocksMade [(i, (perform E d i).1)] = [] →
        Canonizes E d i [] → Recorded E (log ++ [(i, (perform E d i).1)])
          (history E (blocksMade (log ++ [(i, (perform E d i).1)]))) (perform E d i).2 := by
      intro hnone hcanonizes
      have hstep := Recorded.snoc ih call.decoded hcanonizes
      rw [List.append_nil] at hstep
      rw [blocksMade_snoc, hnone, List.append_nil]
      exact hstep
    rcases perform_cases E d i with ⟨-, he⟩ | ⟨e, he⟩ | ⟨a, w, -, heff, ha⟩
    · exact hsame (by rw [he]; simp [blocksMade]) (.none (by rw [he]) (by rw [he]))
    · exact hsame (by rw [he]; simp [blocksMade]) (.none (by rw [he]) (by rw [he]))
    · have hw : (perform E d i).2 = w := by
        rw [ha, call.commit]
        rfl
      rcases effect_cases heff with ⟨blockId, blockData, fs, hreq, hfs, hends⟩ | ⟨hreq, hframe⟩
      · obtain ⟨_, _, firstId, blk, cs, hwrap, -, -, hcs, hpre, hall⟩ := blockMakeBody_ends hends
        have hchildren := hcs.eq_wrappedChildren hfs ((hall call.find).trans hwrap.symm)
        have hstep := Recorded.snoc ih call.decoded
          (.block hreq hfs (hwrap ▸ hpre) (hw.symm ▸ hcs))
        rw [hchain.expectedBlockHeight_eq, hchildren] at hstep
        rw [blocksMade_snoc, ha, blocksMade_blockMake hreq, history_snoc]
        rw [ha] at hstep
        exact hstep
      · exact hsame (by rw [ha]; exact blocksMade_eq_nil hreq)
          (.none (hw ▸ hframe.txn) (hw ▸ hframe.artifact))

end Recording

/-! ### The histories of the artifacts -/

section Histories

variable {L : Library} {E : Env} {s : Service} {child : BitVec 32} {dir : Bytes} {d : Store}
  {hist : List Canonical} {id : Uuid}

theorem fails_outside_history (h : History d.txnDb d.artifactDb hist)
    (hid : id ∉ hist.map Canonical.id) : Fails E d (.canonizedTransactionGet id) := by
  intro i hi
  rcases perform_cases E d i with ⟨hhazard | ⟨hcommit, -⟩, -⟩ | he | ⟨a, w, -, heff, -⟩
  · rw [hi] at hhazard
    exact hhazard.elim
  · rw [hi] at hcommit
    cases hcommit
  · exact he
  · rw [hi] at heff
    obtain ⟨-, node, cert, u, -, hends⟩ := heff
    obtain ⟨b, hb, -⟩ := nodeGetBody_ends hends
    have hkey : d.txnDb id = some b := hb
    exact (hid (h.domain id (by rw [hkey]; simp))).elim

def artifactIds (hist : List Canonical) (a : Uuid) : List Uuid :=
  (ofArtifact a hist).map Canonical.id

theorem getElem?_artifactIds (a : Uuid) (j : ℕ) :
    ((artifactIds hist a)[j]?).getD ffUuid = txnAt (ofArtifact a hist) (j + 1) := by
  rw [artifactIds, List.getElem?_map]
  rfl

structure HistoriesTraversed (L : Library) (E : Env) (s : Service) (child : BitVec 32)
    (hist : List Canonical) : Prop where
  once : ∀ a, (artifactIds hist a).Nodup
  walked : ∀ a, Walked L E s child .transactionIdGetNext .transactionIdGetPrev .transactionByIdGet
    (artifactIds hist a)
  refused : ∀ id, id ∉ hist.map Canonical.id → Refuses L E s child .transactionIdGetNext id ∧
    Refuses L E s child .transactionIdGetPrev id
  readable : LeadsToReadable L E s child .transactionIdGetNext .transactionByIdGet ∧
    LeadsToReadable L E s child .transactionIdGetPrev .transactionByIdGet

theorem walked_artifact (hL : L.Documented)
    (h : History (s.disk dir).txnDb (s.disk dir).artifactDb hist)
    (hs : Holds s child dir .appTransactionRead) (a : Uuid) :
    Walked L E s child .transactionIdGetNext .transactionIdGetPrev .transactionByIdGet
      (artifactIds hist a) := by
  have hlook : ∀ j x, (artifactIds hist a)[j]? = some x → ∀ r,
      methodOf r = some .appTransactionRead →
      ∃ node data, node.next = txnAt (ofArtifact a hist) (j + 2) ∧
        node.prev = txnAt (ofArtifact a hist) j ∧
        Tells L E s child r x (toldOfTransaction node data r) := by
    intro j x hx r hr
    rw [artifactIds, List.getElem?_map] at hx
    obtain ⟨t, ht, rfl⟩ := Option.map_eq_some_iff.mp hx
    have hlt := (h.certs t (mem_of_ofArtifact (List.mem_of_getElem? ht)).1).2
    obtain ⟨size, data, htells⟩ := tells_transaction hL hr hs
      (fun i hi hw hp => perform_canonizedTransactionGet h ht hi hw hp) (hlt.trans (by decide))
    exact ⟨⟨t.id, txnAt (ofArtifact a hist) j, txnAt (ofArtifact a hist) (j + 2), a,
      t.blockId, size, TransactionNodeState.canonized.code⟩, data, rfl, rfl, htells⟩
  have hat : ∀ pre x post, artifactIds hist a = pre ++ x :: post →
      (artifactIds hist a)[pre.length]? = some x := by
    intro pre x post hids
    simp [hids]
  apply walked_of_links
  · intro x hx
    obtain ⟨j, hid⟩ := List.mem_iff_getElem?.mp hx
    obtain ⟨node, data, -, -, htells⟩ := hlook j x hid .transactionByIdGet rfl
    obtain ⟨t, ht, rfl⟩ := List.mem_map.mp hx
    obtain ⟨hz, hf⟩ := h.not_sentinel t (mem_of_ofArtifact ht).1
    exact ⟨hz, hf, _, htells⟩
  · intro pre x post hids
    obtain ⟨node, data, hnext, -, htells⟩ :=
      hlook _ x (hat pre x post hids) .transactionIdGetNext rfl
    have hhead : node.next = post.head?.getD ffUuid := by
      rw [hnext, ← getElem?_artifactIds, hids, getElem?_behind]
    rw [← hhead]
    exact htells
  · intro pre x post hids
    obtain ⟨node, data, -, hprev, htells⟩ :=
      hlook _ x (hat pre x post hids) .transactionIdGetPrev rfl
    have hlast : node.prev = pre.getLast?.getD zeroUuid := by
      rw [hprev, ← getElem?_before zeroUuid pre (x :: post), ← hids]
      cases pre with
      | nil => rfl
      | cons b pre =>
        have hbefore : pre.length < (artifactIds hist a).length := by
          rw [hids, List.length_append, List.length_cons, List.length_cons]
          omega
        have hy := List.getElem?_eq_getElem hbefore
        rw [List.length_cons, ← getElem?_artifactIds, List.getElem?_cons_succ, hy]
        rfl
    rw [← hlast]
    exact htells

theorem historiesTraversed (hL : L.Documented)
    (h : History (s.disk dir).txnDb (s.disk dir).artifactDb hist)
    (hs : Holds s child dir .appTransactionRead) : HistoriesTraversed L E s child hist := by
  have hrefused : ∀ id, id ∉ hist.map Canonical.id →
      Refuses L E s child .transactionIdGetNext id ∧
        Refuses L E s child .transactionIdGetPrev id := fun id hid =>
    ⟨refuses_transaction hL rfl hs (fails_outside_history h hid),
      refuses_transaction hL rfl hs (fails_outside_history h hid)⟩
  have hof : ∀ id, id ∈ hist.map Canonical.id → ∃ a, id ∈ artifactIds hist a := by
    intro id hid
    obtain ⟨t, ht, rfl⟩ := List.mem_map.mp hid
    exact ⟨t.fields.artifactId, List.mem_map_of_mem (by simp [ofArtifact, ht])⟩
  refine ⟨nodup_ofArtifact h.nodup, walked_artifact hL h hs, hrefused, ?_, ?_⟩
  · intro id
    by_cases hid : id ∈ hist.map Canonical.id
    · obtain ⟨a, ha⟩ := hof id hid
      exact (walked_artifact hL h hs a).sound ha _ (by simp)
    · exact Or.inl (hrefused id hid).1
  · intro id
    by_cases hid : id ∈ hist.map Canonical.id
    · obtain ⟨a, ha⟩ := hof id hid
      exact (walked_artifact hL h hs a).sound ha _ (by simp)
    · exact Or.inl (hrefused id hid).2

end Histories

/-- In the store of any run, whatever has failed in it. -/
theorem clients_walk_chain_and_histories {L : Library} {E : Env} {s : Service} {child : BitVec 32}
    {dir : Bytes} {log : List (Invocation × Outcome)} (hL : L.Documented)
    (hrun : Run E (fun _ i => i.request.Decoded) log (s.disk dir)) :
    (Holds s child dir .appBlockRead →
      (∃ bs, Chain E (s.disk dir).blockDb (s.disk dir).heightDb bs) ∧
      ∀ bs, Chain E (s.disk dir).blockDb (s.disk dir).heightDb bs → bs ≠ [] →
        ChainTraversed L E s child bs) ∧
    (Holds s child dir .appTransactionRead →
      (∃ hist, Recorded E log hist (s.disk dir)) ∧
      ∀ hist, Recorded E log hist (s.disk dir) → NamesLatest hist →
        HistoriesTraversed L E s child hist) := by
  refine ⟨fun hs => ⟨run_exists_chain hrun, ?_⟩, fun hs => ⟨exists_recorded hrun, ?_⟩⟩
  · intro bs hc hne
    exact chainTraversed hL hc hne hs
  · intro hist hrecorded hn
    exact historiesTraversed hL (hrecorded.history hn) hs

/-- The packets of a library that writes the body of a response behind its header. -/
def encodeBody : ResponseBody → Bytes
  | .empty => []
  | .id id => be 16 id
  | .block node data => node.encode ++ data
  | .transaction node data => node.encode ++ data
  | .data data => data

def bodyLibrary : Library :=
  { AnsweredOnce.sampleLibrary with
    encodeResp := fun r offset status body =>
      AnsweredOnce.responseBytes r.code offset status ++ encodeBody body }

theorem bodyLibrary_documented : bodyLibrary.Documented :=
  { AnsweredOnce.sampleLibrary_documented with
    encodeResp := fun r offset status body => by
      have hfirst : slice (be 4 r.code ++ be 4 status ++ be 4 offset ++ encodeBody body) 0 4 =
          be 4 r.code := by
        rw [List.append_assoc, List.append_assoc]
        exact slice_append_self _ _ (by simp)
      have hlast : slice (be 4 r.code ++ be 4 status ++ be 4 offset ++ encodeBody body) 8 4 =
          be 4 offset := by
        rw [List.append_assoc, slice_append_skip _ _ _ (by simp)]
        exact slice_append_self _ _ (by simp)
      simp only [responseHeader, wordAt, bodyLibrary, AnsweredOnce.responseBytes, hfirst, hlast,
        bits_be] }

def openService (store : Store) : Service :=
  ⟨⟨BitVec.allOnes 32, .opened [], fun _ => ⟨true, none, true, BitVec.allOnes 32⟩, none⟩,
    fun _ => store⟩

theorem holds_openService (store : Store) (cap : ApiCap) : Holds (openService store) 0 [] cap :=
  ⟨rfl, ⟨0, by decide⟩, (ChildContextSlots.childContextLookup_iff _ _).mpr ⟨rfl, rfl⟩, rfl,
    bitcapIsset_allOnes cap⟩

/-- Two blocks, and three transactions of the artifact 7 in them. -/
theorem two_blocks_are_walked :
    Walked bodyLibrary (codecEnv true)
        (openService (runCalls (codecEnv true) interleavedCalls).2) 0 .blockIdGetNext
        .blockIdGetPrev .blockByIdGet [(codecEnv true).rootBlock, 9, 10] ∧
      Walked bodyLibrary (codecEnv true)
        (openService (runCalls (codecEnv true) interleavedCalls).2) 0 .transactionIdGetNext
        .transactionIdGetPrev .transactionByIdGet [5, 11, 12] := by
  have hrun : Run (codecEnv true) (fun _ i => HistoryCall i)
      (runCalls (codecEnv true) interleavedCalls).1 (runCalls (codecEnv true) interleavedCalls).2 :=
    run_runCalls (allowedFrom_of_forall historyCall_of_mem emptyStore)
  have hchain := run_chain (hrun.mono fun _ _ hi => hi.toChainCall)
  have hrecorded := recorded_history hrun
  generalize (runCalls (codecEnv true) interleavedCalls).2 = store at hrun hchain hrecorded ⊢
  obtain ⟨hblocks, htransactions⟩ := clients_walk_chain_and_histories
    (s := openService store) bodyLibrary_documented (hrun.mono fun _ _ hi => hi.decoded)
  obtain ⟨hids, hartifact, hlatest⟩ :
      (blocksMade (runCalls (codecEnv true) interleavedCalls).1).map Block.id = [9, 10] ∧
      artifactIds (history (codecEnv true)
        (blocksMade (runCalls (codecEnv true) interleavedCalls).1)) 7 = [5, 11, 12] ∧
      NamesLatest (history (codecEnv true)
        (blocksMade (runCalls (codecEnv true) interleavedCalls).1)) := by
    decide +kernel
  have hne : blocksMade (runCalls (codecEnv true) interleavedCalls).1 ≠ [] := by
    intro hnil
    rw [hnil] at hids
    cases hids
  have hwalked := ((hblocks (holds_openService store _)).2 _ hchain hne).walked
  have hhistory := ((htransactions (holds_openService store _)).2 _ hrecorded
    hlatest).walked 7
  rw [chainIds, hids] at hwalked
  rw [hartifact] at hhistory
  exact ⟨hwalked, hhistory⟩

end ClientTraversal
