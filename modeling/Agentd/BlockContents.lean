import Agentd.CanonizationRounds

/-! # What a block contains

The queue is read from its head, one entry with each response, until the list is full, an entry is
not attested or the queue ends. `gathered` is what this leaves in the list; where the configured
maximum is not zero it is the longest attested prefix of at most that length. -/
namespace BlockContents

open ByteString
open CertificateFields
open FaultyTransactions
open DataserviceRecords
open DataserviceStore
open DataserviceQueue
open DataserviceBlocks
open DataserviceRequests
open DataserviceEffects
open DataserviceDispatch
open DataserviceClient
open TransitionRuns.Deterministic
open ProcessQueueRefinement
open ProcessQueueRuns
open BlockchainInvariant
open BlockAcceptance
open PublishedBlocks
open CanonizationService
open CanonizationSystem
open CanonizationRounds

/-! ### Reading the queue -/

def nextId (rest : List Entry) : Uuid := (rest.head?.map Entry.id).getD ffUuid

section Reading

variable {E : Env} {d : Store} {pre rest : List Entry} {e : Entry} {node : DataTransactionNode}
  {cert : Bytes}

theorem nodup_of_represents (hq : Represents d.pqDb (pre ++ e :: rest)) :
    (ids (framed (pre ++ e :: rest))).Nodup := by
  cases hq with
  | unused hq hpq => simp at hq
  | used holds certs => exact holds.nodup

/-- An entry is shown with the one behind it. -/
theorem shows_entry (hq : Represents d.pqDb (pre ++ e :: rest))
    (h : Shows (pre ++ e :: rest) e.id node cert) :
    node.next = nextId rest ∧ node.netTxnState = e.state ∧ cert = e.cert := by
  obtain ⟨l, p, x, n, r, hframed, -, hid, rfl, rfl⟩ := h
  have hnd := nodup_of_represents hq
  have hsplit : framed (pre ++ e :: rest) = (startEntry :: pre) ++ e :: (rest ++ [endEntry]) := by
    simp [framed]
  have hsplit' : framed (pre ++ e :: rest) = (l ++ [p]) ++ x :: (n :: r) := by simp [hframed]
  have hxe : x = e := by
    refine List.inj_on_of_nodup_map hnd ?_ ?_ hid
    · simp [hsplit']
    · simp [hsplit]
  subst hxe
  have hnot : ∀ {as bs : List Entry}, framed (pre ++ x :: rest) = as ++ x :: bs →
      x ∉ as ∧ x ∉ bs := by
    intro as bs has
    have hnd' : (as ++ x :: bs).Nodup := has ▸ List.Nodup.of_map _ hnd
    have hcons := List.nodup_cons.mp (List.nodup_middle.mp hnd')
    exact ⟨fun hx => hcons.1 (List.mem_append_left _ hx),
      fun hx => hcons.1 (List.mem_append_right _ hx)⟩
  have heq := hsplit.symm.trans hsplit'
  rw [List.append_cons_inj_of_notMem (hnot hsplit).1 (hnot hsplit).2] at heq
  obtain ⟨-, -, hrest⟩ := heq
  have hn : n.id = nextId rest := by
    cases rest with
    | nil =>
      obtain ⟨rfl, -⟩ := List.cons.inj hrest
      rfl
    | cons f rest =>
      obtain ⟨rfl, -⟩ := List.cons.inj hrest
      rfl
  exact ⟨hn, rfl, rfl⟩

theorem perform_next (E : Env) (hq : Represents d.pqDb (pre ++ e :: rest)) : ∃ node,
    perform E d (canonCall (.transactionGet e.id)) = (.ok (.transaction node e.cert), d) ∧
      node.next = nextId rest ∧ node.netTxnState = e.state := by
  obtain ⟨hsound, hcomplete⟩ := get_answers (E := E) hq (i := canonCall (.transactionGet e.id)) rfl
    (canonCall_works _).lmdb
  obtain ⟨a, ha⟩ := hcomplete (canonCall_permitted (by simp only [Request.capability]; decide))
    (by simp [ids])
  obtain ⟨node, cert, rfl, hshows⟩ := hsound a ha
  obtain ⟨hnext, hstate, rfl⟩ := shows_entry hq hshows
  obtain ⟨w, -, ⟨rfl, -⟩, hw⟩ := perform_ok ha
  exact ⟨node, Prod.ext ha hw, hnext, hstate⟩

theorem perform_first (E : Env) (hq : Represents d.pqDb (e :: rest)) {i : Invocation}
    (hi : i.request = .transactionGetFirst) (hw : LmdbWorks i.faults) (hp : i.Permitted) :
    ∃ node, perform E d i = (.ok (.transaction node e.cert), d) ∧
      node.next = nextId rest ∧ node.netTxnState = e.state := by
  obtain ⟨hsound, hcomplete⟩ := getFirst_answers (E := E) hq hi hw
  obtain ⟨a, ha⟩ := hcomplete hp (by simp)
  obtain ⟨e', node, cert, hhead, rfl, hshows⟩ := hsound a ha
  obtain rfl := Option.some.inj hhead
  have hq' : Represents d.pqDb ([] ++ e :: rest) := hq
  obtain ⟨hnext, hstate, rfl⟩ := shows_entry hq' hshows
  obtain ⟨w, -, heff, hstore⟩ := perform_ok ha
  rw [hi] at heff
  obtain ⟨rfl, -⟩ := heff
  rw [ite_self] at hstore
  exact ⟨node, Prod.ext ha hstore, hnext, hstate⟩

theorem firstKey_empty (hq : Represents d.pqDb []) (m : Meter Event) :
    ∃ m', firstKey.run noFaults ⟨d, m⟩ = .stop (.fail .notFound) ⟨d, m'⟩ := by
  have hworks : LmdbWorks noFaults := (canonCall_works .transactionGetFirst).lmdb
  cases hstart : d.pqDb zeroUuid with
  | none =>
    have hg := mdbGet_yields hworks pqDb zeroUuid d
    simp only [show pqDb.read d zeroUuid = none from hstart] at hg
    obtain ⟨m', hm⟩ := hg m
    have hget : (getOrFail pqDb zeroUuid .notFound .mdbGetFailure).run noFaults ⟨d, m⟩ =
        .stop (.fail .notFound) ⟨d, m'⟩ := by
      rw [getOrFail, Prog.run_bind_ok _ hm]
      rfl
    exact ⟨m', Prog.run_bind_stop _ hget⟩
  | some b =>
    obtain ⟨hlen, hnext⟩ := firstKey_eq hq hstart
    have hg : Yields (getOrFail pqDb zeroUuid .notFound .mdbGetFailure) noFaults d b d :=
      getOrFail_yields hworks hstart
    obtain ⟨m', hm⟩ := hg m
    refine ⟨m', ?_⟩
    rw [firstKey, Prog.run_bind_ok _ hm]
    have hshort : ¬ b.length < sizeofTransactionNode := not_lt.mpr hlen
    have hend : (DataTransactionNode.decode b).next = ffUuid := hnext
    simp [Prog.reject, hshort, hend, Prog.run_bind, Prog.fail]

/-- Without an entry there is no first one, whether or not there are sentinels. -/
theorem perform_first_empty (E : Env) (hq : Represents d.pqDb []) :
    perform E d (canonCall .transactionGetFirst) = (.error (.fail .notFound), d) := by
  obtain ⟨m, hkey⟩ := firstKey_empty hq ⟨1, [.begun]⟩
  obtain ⟨m', habort⟩ := mdbTxnAbort_ends noFaults d m
  have hcap : ¬ bitcapIsset canonizationCaps .appPqTransactionFirstRead = false := by decide
  have hbegin : mdbTxnBegin.run noFaults ⟨d, [], ⟨0, []⟩, false⟩ =
      .ok () ⟨d, [d], ⟨1, [.begun]⟩, false⟩ := rfl
  have hfirst : ((Prog.inTxn firstKey).finally' mdbTxnAbort).run noFaults
      ⟨d, [d], ⟨1, [.begun]⟩, false⟩ = .stop (.fail .notFound) ⟨d, [], m', false⟩ := by
    simp [Prog.finally', Prog.run_bind, Prog.onFail, Prog.inTxn, hkey, habort]
  have hget : (transactionGetFirst canonizationCaps).run noFaults ⟨d, [], ⟨0, []⟩, false⟩ =
      .stop (.fail .notFound) ⟨d, [], m', false⟩ := by
    rw [transactionGetFirst, authorize, Prog.reject, if_neg hcap]
    exact (Prog.run_bind_ok _ hbegin).trans (Prog.run_bind_stop _ hfirst)
  have hrun : (Request.run E canonizationCaps .transactionGetFirst).run noFaults
      ⟨d, [], ⟨0, []⟩, false⟩ = .stop (.fail .notFound) ⟨d, [], m', false⟩ :=
    Prog.run_bind_stop _ hget
  simp only [perform, canonCall, hrun]

end Reading

/-! ### Gathering -/

def attested (e : Entry) : Bool := e.state = TransactionNodeState.attested.code

/-- What the two handlers put into the list, behind `n` transactions that are in it already. -/
def gathered (max : BitVec 64) : ℕ → List Entry → List Entry
  | _, [] => []
  | n, e :: rest =>
    if attested e then
      if BitVec.ofNat 64 (n + 1) = max then [e] else e :: gathered max (n + 1) rest
    else []

def withList (inst : CanonizationService.Instance) (txns : List Transaction) :
    CanonizationService.Instance :=
  { inst with transactionList := some txns }

section Gathering

variable {E : Env} (B : CertBuilder) {dir : Bytes} (now : BitVec 64) (blockId : Uuid)
  {i : Fin maxChildContexts} (inst : CanonizationService.Instance) {d : Store}
  (txns : List Transaction)

/-- The handlers of a response that shows an entry: an attested one is collected, another one ends
the list. -/
def Shown (E : Env) (e : Entry) (rest : List Entry) (resp : Response) : Prop :=
  ∃ got : DataTransactionNode, got.next = nextId rest ∧
    CanonizationService.dataRead E B (allWorks now) (withList inst txns) resp =
      if attested e then collectTransaction B (allWorks now) (withList inst txns) ⟨got, e.cert⟩
      else CanonizationService.blockMake B (allWorks now) (withList inst txns)

theorem transactionOfPayload_encode (node : DataTransactionNode) (cert : Bytes) :
    ∃ got : DataTransactionNode,
      transactionOfPayload (encodeResponseTransactionGet node cert) = (got, cert) ∧
      got.next = node.next ∧ got.netTxnState = node.netTxnState := by
  have hdrop : (encodeResponseTransactionGet node cert).drop 68 = cert :=
    List.drop_left' (by simp)
  have hnext : uuidAt (encodeResponseTransactionGet node cert) 32 = node.next := by
    simp [uuidAt, encodeResponseTransactionGet, slice_append_skip, slice_append_self, bits_be]
  have hstate : bits 32 (slice (encodeResponseTransactionGet node cert) 64 4) =
      node.netTxnState := by
    simp [encodeResponseTransactionGet, slice_append_skip, slice_append_self, bits_be]
  have hgot : transactionOfPayload (encodeResponseTransactionGet node cert) =
      (⟨uuidAt (encodeResponseTransactionGet node cert) 0,
        uuidAt (encodeResponseTransactionGet node cert) 16, node.next,
        uuidAt (encodeResponseTransactionGet node cert) 48, zeroUuid,
        BitVec.ofNat 64 cert.length, node.netTxnState⟩, cert) := by
    rw [transactionOfPayload, hdrop, hnext, hstate]
  exact ⟨_, hgot, rfl, rfl⟩

theorem length_encodeResponseTransactionGet (node : DataTransactionNode) (cert : Bytes) :
    ¬ (encodeResponseTransactionGet node cert).length < 68 := by
  simp [encodeResponseTransactionGet]
  omega

variable {inst} in
theorem shown_next {e : Entry} {rest : List Entry} {node : DataTransactionNode}
    (child : BitVec 32) (txnId : Uuid) (hrun : inst.forceExit = false)
    (hnext : node.next = nextId rest) (hstate : node.netTxnState = e.state) :
    Shown B now inst txns E e rest (respondTo .appPqTransactionRead
      ⟨child, .transactionGet txnId, false⟩ (.ok (.transaction node e.cert))) := by
  obtain ⟨got, hgot, hgnext, hgstate⟩ := transactionOfPayload_encode node e.cert
  have hdecode : decodeResponseTransactionGet (respondTo .appPqTransactionRead
      ⟨child, .transactionGet txnId, false⟩ (.ok (.transaction node e.cert))) =
      some (.ok (got, e.cert)) := by
    rw [decodeResponseTransactionGet, decodeResponse, if_neg (by simp [respondTo])]
    simp only [respondTo, encodeReply, Bool.false_eq_true, if_false, Except.toOption,
      Option.getD_some, if_neg (length_encodeResponseTransactionGet node e.cert), hgot]
  refine ⟨got, hgnext.trans hnext, ?_⟩
  have hlist : (withList inst txns).forceExit = false := hrun
  rw [dataRead_of_next E B hlist rfl, responseTransactionRead, hdecode]
  simp only [hgstate, hstate, attested]
  by_cases ha : e.state = TransactionNodeState.attested.code
  · simp [ha]
  · simp [ha]

variable {inst} in
/-- Without transactions there is no block to make: the first response ends the list in the same
way. -/
theorem shown_first {e : Entry} {rest : List Entry} {node : DataTransactionNode}
    (child : BitVec 32) (hrun : inst.forceExit = false)
    (hnext : node.next = nextId rest) (hstate : node.netTxnState = e.state) :
    Shown B now inst [] E e rest (respondTo .appPqTransactionFirstRead
      ⟨child, .transactionGetFirst, false⟩ (.ok (.transaction node e.cert))) := by
  obtain ⟨got, hgot, hgnext, hgstate⟩ := transactionOfPayload_encode node e.cert
  have hdecode : decodeResponseTransactionGetFirst (respondTo .appPqTransactionFirstRead
      ⟨child, .transactionGetFirst, false⟩ (.ok (.transaction node e.cert))) =
      some (.ok (got, e.cert)) := by
    rw [decodeResponseTransactionGetFirst, decodeResponse, if_neg (by simp [respondTo])]
    simp only [respondTo, encodeReply, Bool.false_eq_true, if_false, Except.toOption,
      Option.getD_some, if_neg (length_encodeResponseTransactionGet node e.cert), hgot]
  refine ⟨got, hgnext.trans hnext, ?_⟩
  have hlist : (withList inst []).forceExit = false := hrun
  rw [dataRead_of_first E B hlist rfl, responseTransactionFirstRead, hdecode]
  simp only [hgstate, hstate, attested]
  by_cases ha : e.state = TransactionNodeState.attested.code
  · simp [ha]
  · simp [ha, CanonizationService.blockMake, withList]

theorem collectTransaction_allWorks (txn : Transaction) :
    collectTransaction B (allWorks now) (withList inst txns) txn =
      if BitVec.ofNat 64 (txns.length + 1) = inst.blockMaxTransactions ∨ txn.node.next = ffUuid then
        CanonizationService.blockMake B (allWorks now) (withList inst (txns ++ [txn]))
      else some (withList inst (txns ++ [txn]),
        [.dataRequest (encodeRequestTransactionGet inst.dataChildContext txn.node.next)]) := by
  have hlen : (txns ++ [txn]).length = txns.length + 1 := by simp
  simp only [collectTransaction, allWorks, Bool.false_eq_true, if_false, withList, hlen]
  by_cases hfull : BitVec.ofNat 64 (txns.length + 1) = inst.blockMaxTransactions
  · simp [hfull]
  · by_cases hlast : txn.node.next = ffUuid
    · simp [hfull, hlast]
    · simp [hfull, hlast, sendreq]

theorem nextId_eq_ff {pre rest : List Entry} {e : Entry}
    (hq : Represents d.pqDb (pre ++ e :: rest)) : nextId rest = ffUuid ↔ rest = [] := by
  cases rest with
  | nil => exact ⟨fun _ => rfl, fun _ => rfl⟩
  | cons f rest =>
    refine ⟨fun hff => ?_, fun h => by cases h⟩
    exact absurd hff (mem_ids_ne hq (by simp [ids, nextId])).2

/-- From a response that shows an entry to the one that ends the list: the response that is read
then makes a block of what was gathered. -/
theorem At.gather {pre rest : List Entry} {e : Entry} {resp : Response} {s : System}
    (h : At dir i (withList inst txns) d (.dataResponse resp) s)
    (hq : Represents d.pqDb (pre ++ e :: rest)) (hrun : inst.forceExit = false)
    (hchild : inst.dataChildContext = BitVec.ofNat 32 i)
    (hshown : Shown B now inst txns E e rest resp) :
    ∃ ms t ys resp' gs, Steps (advance E B dir now blockId) s ms t ∧ blockMakes E ms = [] ∧
      At dir i (withList inst ys) d (.dataResponse resp') t ∧
      gs.map Transaction.cert =
        (gathered inst.blockMaxTransactions txns.length (e :: rest)).map Entry.cert ∧
      CanonizationService.dataRead E B (allWorks now) (withList inst ys) resp' =
        CanonizationService.blockMake B (allWorks now) (withList inst (txns ++ gs)) := by
  induction rest generalizing pre e txns resp s with
  | nil =>
    obtain ⟨got, hnext, hread⟩ := hshown
    by_cases ha : attested e = true
    · refine ⟨[], s, txns, resp, [⟨got, e.cert⟩], .refl s, rfl, h, ?_, ?_⟩
      · simp [gathered, ha]
      · have hlast : got.next = ffUuid := hnext
        rw [hread, if_pos ha, collectTransaction_allWorks, if_pos (Or.inr hlast)]
    · refine ⟨[], s, txns, resp, [], .refl s, rfl, h, ?_, ?_⟩
      · simp [gathered, ha]
      · rw [hread, if_neg ha, List.append_nil]
  | cons f rest ih =>
    obtain ⟨got, hnext, hread⟩ := hshown
    by_cases ha : attested e = true
    · by_cases hfull : BitVec.ofNat 64 (txns.length + 1) = inst.blockMaxTransactions
      · refine ⟨[], s, txns, resp, [⟨got, e.cert⟩], .refl s, rfl, h, ?_, ?_⟩
        · simp [gathered, ha, hfull]
        · rw [hread, if_pos ha, collectTransaction_allWorks, if_pos (Or.inl hfull)]
      · have hgoes : ¬ (BitVec.ofNat 64 (txns.length + 1) = inst.blockMaxTransactions ∨
            got.next = ffUuid) := by
          rw [hnext, nextId_eq_ff hq]
          simp [hfull]
        rw [if_pos ha, collectTransaction_allWorks, if_neg hgoes] at hread
        obtain ⟨t, hs, ht⟩ := At.read B now blockId h hrun hread
        have hid : got.next = f.id := hnext
        simp only [hid] at ht
        have hq' : Represents d.pqDb ((pre ++ [e]) ++ f :: rest) := by simpa using hq
        obtain ⟨node, hget, hnode, hstate⟩ := perform_next E hq'
        have hget' : perform E d (canonCall (.transactionGet f.id)) =
            ((Except.ok (.transaction node f.cert)).mapError Stop.fail, d) := hget
        obtain ⟨u, ht', hu⟩ := At.serve B now blockId ht (encodes_transactionGet _ f.id) hchild
          (requestPacket_short (by simp)) hget'
        obtain ⟨ms, v, ys, resp', gs, hsteps, hmakes, hv, hgs, hlast⟩ :=
          ih (txns ++ [⟨got, e.cert⟩])
          hu hq' (shown_next B now _ _ f.id hrun hnode hstate)
        refine ⟨_, v, ys, resp', ⟨got, e.cert⟩ :: gs, .head hs (.head ht' hsteps), ?_, hv, ?_, ?_⟩
        · have hget := blockMakes_request E (m := .appPqTransactionRead) (by decide)
            (be 4 inst.dataChildContext ++ be 16 f.id) ms
          exact hget.trans hmakes
        · rw [List.length_append, List.length_singleton] at hgs
          simp [gathered, ha, hfull, hgs]
        · rw [hlast, List.append_assoc]
          rfl
    · refine ⟨[], s, txns, resp, [], .refl s, rfl, h, ?_, ?_⟩
      · simp [gathered, ha]
      · rw [hread, if_neg ha, List.append_nil]

end Gathering

/-! ### Making the block -/

def fieldsSize (fs : List (CertField × Bytes)) : ℕ := (fs.map fun p => fieldSize p.2.length).sum

/-- What the certificate builder of the library does with fields whose types and sizes are 16-bit
numbers and for which its buffer has room: it emits them in order, with the id of the signer and the
signature behind them, and the parser reads back what it emitted. -/
def Builds (E : Env) (B : CertBuilder) : Prop :=
  ∀ (size : ℕ) (fs : List (CertField × Bytes)) (key : PrivateKey),
    (∀ p ∈ fs, p.1.code < 65536 ∧ p.2.length < 65536) →
    fieldsSize fs + fieldSize 16 + fieldSize signatureSize ≤ size →
    ∃ cert sig, B.build size fs key = some cert ∧ sig.length = signatureSize ∧
      E.fields cert = some (fs ++ [(.signerId, be 16 key.id), (.signature, sig)]) ∧
      cert.length = fieldsSize fs + fieldSize 16 + fieldSize signatureSize

section Making

variable {E : Env} {B : CertBuilder} {now : BitVec 64} {i : Fin maxChildContexts}
  {inst : CanonizationService.Instance} {txns : List Transaction}

theorem blockCertificateSize_eq (txns : List Transaction) :
    blockCertificateSize txns = 254 + (txns.map fun t => fieldSize t.cert.length).sum := by
  have hfold : ∀ (l : List Transaction) (n : ℕ),
      l.foldl (fun size t => size + fieldSize t.cert.length) n =
        n + (l.map fun t => fieldSize t.cert.length).sum := by
    intro l
    induction l with
    | nil => simp
    | cons t l ih =>
      intro n
      rw [List.foldl_cons, ih, List.map_cons, List.sum_cons]
      omega
  exact hfold txns 254

theorem fieldsSize_append (fs gs : List (CertField × Bytes)) :
    fieldsSize (fs ++ gs) = fieldsSize fs + fieldsSize gs := by
  simp [fieldsSize]

/-- The buffer of the builder has the size that is needed. -/
theorem fieldsSize_block (B : CertBuilder) (now : BitVec 64)
    (hsig : inst.previousBlockSignature.length = signatureSize) (txns : List Transaction) :
    fieldsSize (blockCertificateFields B now inst txns) + fieldSize 16 + fieldSize signatureSize =
      blockCertificateSize txns := by
  have htxns : fieldsSize (txns.map fun t => (CertField.wrappedTransactionTuple, t.cert)) =
      (txns.map fun t => fieldSize t.cert.length).sum := by
    rw [fieldsSize, List.map_map]
    rfl
  rw [blockCertificateSize_eq, blockCertificateFields, fieldsSize_append, htxns]
  simp [fieldsSize, fieldSize, hsig, signatureSize]
  omega

theorem blockCertificateFields_small (B : CertBuilder) (now : BitVec 64)
    (hsig : inst.previousBlockSignature.length = signatureSize)
    (hcerts : ∀ t ∈ txns, t.cert.length < 65536) :
    ∀ p ∈ blockCertificateFields B now inst txns, p.1.code < 65536 ∧ p.2.length < 65536 := by
  intro p hp
  rcases List.mem_append.mp hp with hp | hp
  · simp only [List.mem_cons, List.not_mem_nil, or_false] at hp
    rcases hp with rfl | rfl | rfl | rfl | rfl | rfl | rfl | rfl <;>
    simp [CertField.code, hsig, signatureSize]
  · obtain ⟨t, ht, rfl⟩ := List.mem_map.mp hp
    exact ⟨by simp [CertField.code], hcerts t ht⟩

structure BlockCertificate (E : Env) (B : CertBuilder) (now : BitVec 64)
    (inst : CanonizationService.Instance) (txns : List Transaction) (cert : Bytes) : Prop where
  fields : ∃ id sig : Bytes, sig.length = signatureSize ∧ E.fields cert =
    some (blockCertificateFields B now inst txns ++ [(.signerId, id), (.signature, sig)])
  size : cert.length = blockCertificateSize txns

variable (now) in
theorem blockMake_sends (hB : Builds E B) (hg : Gathering i inst txns) (hne : txns ≠ [])
    (hcerts : ∀ t ∈ txns, t.cert.length < 65536) :
    ∃ cert, BlockCertificate E B now inst txns cert ∧
      CanonizationService.blockMake B (allWorks now) inst =
        some ({ inst with state := .waitrespBlockMake },
          [.dataRequest (encodeRequestBlockMake inst.dataChildContext inst.blockId cert)]) := by
  obtain ⟨key, hkey⟩ := Option.ne_none_iff_exists'.mp hg.key
  have hsize := fieldsSize_block B now hg.signature txns
  obtain ⟨cert, sig, hbuild, hsig, hfields, hlen⟩ := hB (blockCertificateSize txns) _ key
    (blockCertificateFields_small B now hg.signature hcerts) hsize.le
  refine ⟨cert, ⟨⟨_, sig, hsig, hfields⟩, hlen.trans hsize⟩, ?_⟩
  obtain ⟨t, rest, rfl⟩ := List.exists_cons_of_ne_nil hne
  rw [CanonizationService.blockMake, hg.list]
  simp only [hkey]
  rw [show (allWorks now).now = now from rfl, hbuild]
  rfl

theorem BlockCertificate.wrapped {cert : Bytes} (h : BlockCertificate E B now inst txns cert) :
    ∃ fs, E.fields cert = some fs ∧
      fieldValues fs .wrappedTransactionTuple = txns.map Transaction.cert := by
  obtain ⟨id, sig, -, hfields⟩ := h.fields
  refine ⟨_, hfields, ?_⟩
  simp [blockCertificateFields, fieldValues, List.filterMap_map]

end Making

/-! ### The whole round -/

/-- The request for a block with these transactions is shorter than 1 GiB. -/
def fits (es : List Entry) : Prop :=
  278 + (es.map fun e => fieldSize e.cert.length).sum < maxPayload

instance (es : List Entry) : Decidable (fits es) := inferInstanceAs (Decidable (_ < _))

structure RoundEnd (E : Env) (B : CertBuilder) (dir : Bytes) (now : BitVec 64)
    (inst : CanonizationService.Instance) (d : Store) (txns : List Transaction) (ms : List Message)
    (u : System) : Prop where
  makes : blockMakes E ms = if txns = [] then [] else [txns.map Transaction.cert]
  halted : ∀ blockId, Halted (advance E B dir now blockId) u
  idle : txns = [] →
    Over E B dir (BitVec.ofNat 64 txns.length = inst.blockMaxTransactions) d u
  made : txns ≠ [] → 24 + blockCertificateSize txns < maxPayload →
    ∃ cert, BlockCertificate E B now inst txns cert ∧
      Over E B dir (BitVec.ofNat 64 txns.length = inst.blockMaxTransactions)
        (perform E d (canonCall (.blockMake inst.blockId cert))).2 u
  lost : txns ≠ [] → maxPayload ≤ 24 + blockCertificateSize txns → u.net = [] ∧ u.store dir = d

section Round

variable {E : Env} {B : CertBuilder} {dir : Bytes} {now : BitVec 64} (blockId : Uuid)
  {i : Fin maxChildContexts} {inst : CanonizationService.Instance} {d : Store} {s : System}
  {txns : List Transaction} {q : List Entry} {bs : List Block}

theorem length_encodeRequestBlockMake (child : BitVec 32) (id : Uuid) (cert : Bytes) :
    (encodeRequestBlockMake child id cert).length = 24 + cert.length := by
  rw [encodeRequestBlockMake, length_requestPacket, List.length_append, length_be]
  omega

/-- A request for a block is answered, and the block announced whatever the answer says. -/
theorem At.make {cert : Bytes}
    (h : At dir i inst d (.dataRequest
      (encodeRequestBlockMake inst.dataChildContext inst.blockId cert)) s)
    (hg : Gathering i inst txns) (hc : Chain E d.blockDb d.heightDb bs)
    (hfs : E.fields cert ≠ none) (hlen : 24 + cert.length < maxPayload) : ∃ ms u,
      Steps (advance E B dir now blockId) s
        (.dataRequest (encodeRequestBlockMake inst.dataChildContext inst.blockId cert) :: ms) u ∧
      blockMakes E ms = [] ∧
      Over E B dir (BitVec.ofNat 64 txns.length = inst.blockMaxTransactions)
        (perform E d (canonCall (.blockMake inst.blockId cert))).2 u := by
  obtain ⟨result, hresult⟩ := perform_blockMake_defined hc
    (i := canonCall (.blockMake inst.blockId cert)) rfl hfs fun _ => rfl
  have hp : perform E d (canonCall (.blockMake inst.blockId cert)) = (result.mapError Stop.fail,
      (perform E d (canonCall (.blockMake inst.blockId cert))).2) := Prod.ext hresult rfl
  rw [← length_encodeRequestBlockMake inst.dataChildContext inst.blockId] at hlen
  obtain ⟨t, hs, ht⟩ := At.serve B now blockId h (encodes_blockMake _ inst.blockId cert) hg.child
    hlen hp
  have hm : ∀ r, (respondTo .appBlockWrite r result).method = Method.appBlockWrite.code := by
    intro r
    cases result with
    | error e => rfl
    | ok a => rfl
  have hread := dataRead_of_blockWrite E B (o := allWorks now) hg.running
    (hm ⟨inst.dataChildContext, .blockMake inst.blockId cert, false⟩)
  obtain ⟨u, ht', hu⟩ := At.read B now blockId ht hg.running hread
  obtain ⟨ms, v, hsteps, hmakes, hover⟩ := At.announced E B now blockId hu
    ⟨hg.running, hg.key, hg.signature, hg.child, hg.list⟩ rfl
  exact ⟨_, v, .head hs (.head ht' hsteps), hmakes, hover⟩

variable (E B now) in
/-- A request that is too long ends the data service. -/
theorem At.lost {packet : Bytes} (h : At dir i inst d (.dataRequest packet) s)
    (hlen : maxPayload ≤ packet.length) :
    ∃ u, advance E B dir now blockId s = some (.dataRequest packet, u) ∧ u.net = [] ∧
      u.store dir = d := by
  refine ⟨{ s with dataExited := true, net := [] }, advance_eq h.net rfl ?_, rfl, h.store⟩
  simp only [answer, step, h.net, takeMessage, isDataRequest, Option.bind_eq_bind, Option.bind_some,
    serveData, h.serving, Bool.false_eq_true, if_false, if_pos hlen]

/-- The response that ends the list decides the rest of the round. -/
theorem At.finish {inst₀ : CanonizationService.Instance} {resp : Response}
    (h : At dir i inst₀ d (.dataResponse resp) s) (hrun : inst₀.forceExit = false)
    (hB : Builds E B) (hg : Gathering i inst txns) (hc : Chain E d.blockDb d.heightDb bs)
    (hcerts : ∀ t ∈ txns, t.cert.length < 65536)
    (hread : CanonizationService.dataRead E B (allWorks now) inst₀ resp =
      CanonizationService.blockMake B (allWorks now) inst) :
    ∃ ms u, Steps (advance E B dir now blockId) s ms u ∧ RoundEnd E B dir now inst d txns ms u := by
  by_cases hne : txns = []
  · have hcomplete : CanonizationService.blockMake B (allWorks now) inst =
        some (completeUpdate (allWorks now) inst) := by
      rw [CanonizationService.blockMake, hg.list, hne]
    rw [hcomplete] at hread
    obtain ⟨ms, u, hsteps, hmakes, hover⟩ := At.complete B blockId h hrun hg hread
    refine ⟨ms, u, hsteps, ?_, fun b => hover.halted E B now b, fun _ => hover, ?_, ?_⟩
    · rw [if_pos hne, hmakes]
    · exact fun hnot => (hnot hne).elim
    · exact fun hnot => (hnot hne).elim
  · obtain ⟨cert, hcert, hsends⟩ := blockMake_sends now hB hg hne hcerts
    rw [hsends] at hread
    obtain ⟨t, hs, ht⟩ := At.read B now blockId h hrun hread
    obtain ⟨fs, hfs, hwrapped⟩ := hcert.wrapped
    have hmake := wrappedIn_blockMake E inst.dataChildContext inst.blockId hfs
    have hmakes : ∀ ms, blockMakes E ms = [] → blockMakes E (.dataResponse resp ::
        .dataRequest (encodeRequestBlockMake inst.dataChildContext inst.blockId cert) :: ms) =
        if txns = [] then [] else [txns.map Transaction.cert] := by
      intro ms hms
      rw [if_neg hne, ← hwrapped, blockMakes, List.filterMap_cons_none rfl,
        List.filterMap_cons_some hmake]
      exact congrArg _ hms
    by_cases hlen : 24 + cert.length < maxPayload
    · obtain ⟨ms, u, hsteps, hms, hover⟩ := At.make blockId ht
        ⟨hg.running, hg.key, hg.signature, hg.child, hg.list⟩ hc (by simp [hfs]) hlen
      refine ⟨_, u, .head hs hsteps, hmakes ms hms, fun b => hover.halted E B now b,
        fun hnil => (hne hnil).elim, fun _ _ => ⟨cert, hcert, hover⟩, fun _ hlong => ?_⟩
      rw [hcert.size] at hlen
      exact absurd hlen (not_lt.mpr hlong)
    · have hlong := not_lt.mp hlen
      rw [← length_encodeRequestBlockMake inst.dataChildContext inst.blockId] at hlong
      obtain ⟨u, ht', hnet, hstore⟩ := At.lost E B now blockId ht hlong
      refine ⟨_, u, .head hs (.single ht'), hmakes [] rfl, fun b => halted_of_nothing hnet,
        fun hnil => (hne hnil).elim, fun _ hshort => ?_, fun _ _ => ⟨hnet, hstore⟩⟩
      rw [hcert.size] at hlen
      exact absurd hshort hlen

theorem gathered_subset (max : BitVec 64) (n : ℕ) (q : List Entry) : gathered max n q ⊆ q := by
  induction q generalizing n with
  | nil => simp [gathered]
  | cons e rest ih =>
    rw [gathered]
    by_cases ha : attested e = true
    · rw [if_pos ha]
      by_cases hfull : BitVec.ofNat 64 (n + 1) = max
      · rw [if_pos hfull]
        simp
      · rw [if_neg hfull]
        exact List.cons_subset_cons e (ih (n + 1))
    · rw [if_neg ha]
      simp

theorem withList_eq (h : inst.transactionList = some txns) : withList inst txns = inst := by
  obtain ⟨_, _, _, _, _, _, _, _, _, _, _, _, _, _⟩ := inst
  simp only [withList] at h ⊢
  rw [h]

variable (B now) in
/-- From the request for the first entry to the response that ends the list. -/
theorem At.first
    (h : At dir i inst d (.dataRequest (encodeRequestTransactionGetFirst inst.dataChildContext)) s)
    (hg : Gathering i inst []) (hq : Represents d.pqDb q) : ∃ ms t ys resp gs,
      Steps (advance E B dir now blockId) s ms t ∧ blockMakes E ms = [] ∧
      At dir i (withList inst ys) d (.dataResponse resp) t ∧
      gs.map Transaction.cert =
        (gathered inst.blockMaxTransactions 0 q).map Entry.cert ∧
      CanonizationService.dataRead E B (allWorks now) (withList inst ys) resp =
        CanonizationService.blockMake B (allWorks now) (withList inst gs) := by
  have hnil : withList inst [] = inst := withList_eq hg.list
  have hrequest : ∀ ms, blockMakes E
      (.dataRequest (encodeRequestTransactionGetFirst inst.dataChildContext) :: ms) =
        blockMakes E ms :=
    blockMakes_request E (m := .appPqTransactionFirstRead) (by decide) _
  cases q with
  | nil =>
    have hp : perform E d (canonCall .transactionGetFirst) =
        ((Except.error .notFound).mapError Stop.fail, d) := perform_first_empty E hq
    obtain ⟨t, hs, ht⟩ := At.serve B now blockId h (encodes_transactionGetFirst _) hg.child
      (requestPacket_short (by simp)) hp
    rw [← hnil] at ht
    refine ⟨_, t, [], _, [], .single hs, hrequest [], ht, rfl, ?_⟩
    have hlist : (withList inst []).forceExit = false := hg.running
    rw [dataRead_of_first E B hlist rfl]
    rfl
  | cons e rest =>
    obtain ⟨node, hget, hnext, hstate⟩ := perform_first E hq
      (i := canonCall .transactionGetFirst) rfl (canonCall_works _).lmdb
      (canonCall_permitted (by decide))
    have hp : perform E d (canonCall .transactionGetFirst) =
        ((Except.ok (.transaction node e.cert)).mapError Stop.fail, d) := hget
    obtain ⟨t, hs, ht⟩ := At.serve B now blockId h (encodes_transactionGetFirst _) hg.child
      (requestPacket_short (by simp)) hp
    rw [← hnil] at ht
    have hq' : Represents d.pqDb ([] ++ e :: rest) := hq
    obtain ⟨ms, u, ys, resp, gs, hsteps, hmakes, hu, hgs, hread⟩ := At.gather B now blockId inst []
      ht hq' hg.running hg.child (shown_first B now _ hg.running hnext hstate)
    exact ⟨_, u, ys, resp, gs, .head hs hsteps, (hrequest ms).trans hmakes, hu, hgs, hread⟩

/-- What was sent before the block request does not count. -/
theorem RoundEnd.prepend {ms ns : List Message} {u : System}
    (h : RoundEnd E B dir now inst d txns ns u) (hms : blockMakes E ms = []) :
    RoundEnd E B dir now inst d txns (ms ++ ns) u := by
  refine ⟨?_, h.halted, h.idle, h.made, h.lost⟩
  rw [blockMakes_append, hms, List.nil_append, h.makes]

structure Knows (E : Env) (d : Store) (blockId : Uuid) (max : BitVec 64)
    (inst : CanonizationService.Instance) : Prop where
  blockId : inst.blockId = blockId
  previous : inst.previousBlockId = expectedPrevBlockId E (d.blockDb ffUuid)
  height : inst.blockHeight = expectedBlockHeight (d.blockDb ffUuid)
  max : inst.blockMaxTransactions = max

/-- What a round reads: the queue `q`, whose certificates came through the protocol service, and a
chain of blocks the last of which is signed. -/
structure Reads (E : Env) (d : Store) (q : List Entry) (bs : List Block) : Prop where
  queue : Represents d.pqDb q
  certs : ∀ e ∈ q, e.cert.length ≤ maxTransactionCertificateSize
  chain : Chain E d.blockDb d.heightDb bs
  signed : Signed E bs

variable (now) in
/-- Every round goes the same way: it gathers, makes its block and is over, or its request is too
long. -/
theorem Ready.round (h : Ready dir s) (hB : Builds E B) (hr : Reads E (s.store dir) q bs) :
    ∃ t ms u inst gs,
      step E B dir s (answer now blockId .randomRequest) = some t ∧
      Steps (advance E B dir now blockId) t ms u ∧
      Knows E (s.store dir) blockId s.canon.blockMaxTransactions inst ∧
      gs.map Transaction.cert =
        (gathered s.canon.blockMaxTransactions 0 q).map Entry.cert ∧
      RoundEnd E B dir now inst (s.store dir) gs ms u := by
  obtain ⟨i, t, ms₁, s₁, hstep, hsteps₁, hmakes₁, hat₁⟩ := Ready.begins E B now blockId h
  obtain ⟨sig, ms₂, s₂, hsig, hsteps₂, hmakes₂, hat₂⟩ := At.latest B now blockId hat₁ h.running rfl
    h.signature hr.chain hr.signed
  obtain ⟨ms₃, s₃, ys, resp, gs, hsteps₃, hmakes₃, hat₃, hgs, hread⟩ := At.first B now blockId hat₂
    ⟨h.running, h.key, hsig, rfl, h.list⟩ hr.queue
  have hsmall : ∀ t ∈ gs, t.cert.length < 65536 := by
    intro t ht
    have hmem : t.cert ∈ gs.map Transaction.cert := List.mem_map_of_mem ht
    rw [hgs] at hmem
    obtain ⟨e, he, heq⟩ := List.mem_map.mp hmem
    rw [← heq]
    exact lt_of_le_of_lt (hr.certs e (gathered_subset _ _ _ he)) (by decide)
  let inst : CanonizationService.Instance :=
    withList (behindLatest E (s.store dir) { s.canon with
      blockId := blockId
      dataChildContext := BitVec.ofNat 32 i
      state := .waitrespLatestBlockIdGet } sig) gs
  have hg : Gathering i inst gs := ⟨h.running, h.key, hsig, rfl, rfl⟩
  obtain ⟨ms₄, u, hsteps₄, hend⟩ := At.finish blockId hat₃ h.running hB hg hr.chain hsmall
    hread
  refine ⟨t, _, u, inst, gs, hstep, hsteps₁.trans (hsteps₂.trans (hsteps₃.trans hsteps₄)),
    ⟨rfl, rfl, rfl, rfl⟩, hgs, ?_⟩
  exact ((hend.prepend hmakes₃).prepend hmakes₂).prepend hmakes₁

theorem Round.unique {t u v : System} {ms ns : List Message}
    (hstep : step E B dir s (answer now blockId .randomRequest) = some t)
    (hsteps : Steps (advance E B dir now blockId) t ms u)
    (hu : Halted (advance E B dir now blockId) u) (h : Round E B dir now blockId s ns v) :
    ms = ns ∧ u = v := by
  obtain ⟨-, t', hstep', hsteps', hv⟩ := h
  rw [hstep] at hstep'
  obtain rfl := Option.some.inj hstep'
  exact hsteps.halted_unique hu hsteps' (halted_of_end hv)

end Round

/-! ### The longest attested prefix -/

/-- The longest prefix of attested entries that has at most `max` of them. -/
def attestedPrefix (max : BitVec 64) (q : List Entry) : List Entry :=
  (q.takeWhile attested).take max.toNat

/-- The list stops at the maximum as long as it starts below it. -/
theorem gathered_eq_take {max : BitVec 64} {n : ℕ} (hn : n < max.toNat) (q : List Entry) :
    gathered max n q = (q.takeWhile attested).take (max.toNat - n) := by
  induction q generalizing n with
  | nil => simp [gathered]
  | cons e rest ih =>
    rw [gathered]
    by_cases ha : attested e = true
    · obtain ⟨k, hk⟩ : ∃ k, max.toNat - n = k + 1 := ⟨max.toNat - n - 1, by omega⟩
      rw [if_pos ha, List.takeWhile_cons_of_pos ha, hk, List.take_succ_cons]
      have hlt := max.isLt
      by_cases hfull : BitVec.ofNat 64 (n + 1) = max
      · have hnat : n + 1 = max.toNat := by
          rw [← hfull, BitVec.toNat_ofNat]
          omega
        have hzero : k = 0 := by omega
        rw [if_pos hfull, hzero, List.take_zero]
      · have hne : n + 1 ≠ max.toNat := by
          intro heq
          apply hfull
          rw [heq, BitVec.ofNat_toNat, BitVec.setWidth_eq]
        rw [if_neg hfull, ih (by omega), show max.toNat - (n + 1) = k by omega]
    · rw [if_neg ha, List.takeWhile_cons_of_neg ha, List.take_nil]

theorem gathered_eq_attestedPrefix {max : BitVec 64} (hmax : max ≠ 0) (q : List Entry) :
    gathered max 0 q = attestedPrefix max q := by
  have hpos : 0 < max.toNat := by
    apply Nat.pos_of_ne_zero
    intro hzero
    exact hmax (BitVec.eq_of_toNat_eq hzero)
  rw [gathered_eq_take hpos, Nat.sub_zero]
  rfl

/-- The count in 64 bits reaches the maximum when the prefix does. -/
theorem full_iff {max : BitVec 64} (hmax : max ≠ 0) (q : List Entry) :
    BitVec.ofNat 64 (attestedPrefix max q).length = max ↔
      attestedPrefix max q ≠ [] ∧ (attestedPrefix max q).length = max.toNat := by
  have hle : (attestedPrefix max q).length ≤ max.toNat := List.length_take_le _ _
  have hlt := max.isLt
  constructor
  · intro hfull
    have hlen : (attestedPrefix max q).length = max.toNat := by
      have hnat := congrArg BitVec.toNat hfull
      rw [BitVec.toNat_ofNat] at hnat
      omega
    refine ⟨?_, hlen⟩
    intro hnil
    rw [hnil, List.length_nil] at hlen
    exact hmax (BitVec.eq_of_toNat_eq hlen.symm)
  · rintro ⟨-, hlen⟩
    rw [hlen, BitVec.ofNat_toNat, BitVec.setWidth_eq]

/-- The round comes to its end, asks for a block with exactly the longest attested prefix, or for
none when that is empty, and begins the next round at once exactly when there was a block and it was
full. -/
def SendsPrefix (E : Env) (B : CertBuilder) (dir : Bytes) (now : BitVec 64) (blockId : Uuid)
    (q : List Entry) (s : System) : Prop :=
  (∃ ms u, Round E B dir now blockId s ms u) ∧ ∀ ms u, Round E B dir now blockId s ms u →
    blockMakes E ms = (if attestedPrefix s.canon.blockMaxTransactions q = [] then []
      else [(attestedPrefix s.canon.blockMaxTransactions q).map Entry.cert]) ∧
    (u.net = [.randomRequest] ↔ attestedPrefix s.canon.blockMaxTransactions q ≠ [] ∧
      (attestedPrefix s.canon.blockMaxTransactions q).length =
        s.canon.blockMaxTransactions.toNat)

section Contents

variable {E : Env} {B : CertBuilder} {dir : Bytes} {now : BitVec 64} {blockId : Uuid} {s : System}
  {q : List Entry} {bs : List Block}

theorem request_size {gs : List Transaction} {es : List Entry}
    (h : gs.map Transaction.cert = es.map Entry.cert) :
    24 + blockCertificateSize gs < maxPayload ↔ fits es := by
  have hsum : (gs.map fun t => fieldSize t.cert.length).sum =
      (es.map fun e => fieldSize e.cert.length).sum := by
    have hmap := congrArg (List.map fun c : Bytes => fieldSize c.length) h
    rw [List.map_map, List.map_map] at hmap
    exact congrArg List.sum hmap
  rw [blockCertificateSize_eq, hsum, fits]
  omega

theorem nil_iff_of_certs {gs : List Transaction} {es : List Entry}
    (h : gs.map Transaction.cert = es.map Entry.cert) : gs = [] ↔ es = [] := by
  rw [← List.map_eq_nil_iff (f := Transaction.cert), h, List.map_eq_nil_iff]

/-- A round asks for the block it should, and sleeps when it should, exactly when the configured
maximum is not zero and the request is shorter than 1 GiB. -/
theorem round_sends_longest_attested (h : Ready dir s) (hB : Builds E B)
    (hr : Reads E (s.store dir) q bs) : SendsPrefix E B dir now blockId q s ↔
      s.canon.blockMaxTransactions ≠ 0 ∧ fits (attestedPrefix s.canon.blockMaxTransactions q) := by
  obtain ⟨t, ms, u, inst, gs, hstep, hsteps, hknows, hgs, hend⟩ := Ready.round now blockId h hB hr
  have hunique : ∀ ns v, Round E B dir now blockId s ns v → ms = ns ∧ u = v :=
    fun ns v hround => Round.unique blockId hstep hsteps (hend.halted blockId) hround
  have hmax := hknows.max
  constructor
  · rintro ⟨⟨ns, v, hround⟩, hall⟩
    obtain ⟨rfl, rfl⟩ := hunique ns v hround
    obtain ⟨hmakes, hnet⟩ := hall ms u hround
    have hzero : s.canon.blockMaxTransactions ≠ 0 := by
      intro hzero
      have hnil : attestedPrefix s.canon.blockMaxTransactions q = [] := by
        rw [hzero]
        exact List.take_zero
      have hgnil : gs = [] := by
        by_contra hne
        rw [hend.makes, if_neg hne, if_pos hnil] at hmakes
        cases hmakes
      -- an empty list is as long as the maximum, so there is no sleep
      have hfull : BitVec.ofNat 64 gs.length = inst.blockMaxTransactions := by
        rw [hknows.max, hzero, hgnil]
        rfl
      exact (hnet.mp ((hend.idle hgnil).net_iff.mpr hfull)).1 hnil
    rw [gathered_eq_attestedPrefix hzero] at hgs
    refine ⟨hzero, ?_⟩
    rw [← request_size hgs]
    by_contra hlong
    by_cases hne : gs = []
    · rw [hne] at hlong
      exact hlong (by decide)
    · obtain ⟨-, -, -, -, hlast⟩ := hround
      obtain ⟨hlost, -⟩ := hend.lost hne (not_lt.mp hlong)
      rw [hlost] at hlast
      rcases hlast with hlast | hlast
      · cases hlast
      · cases hlast
  · rintro ⟨hzero, hfits⟩
    rw [gathered_eq_attestedPrefix hzero] at hgs
    obtain ⟨d', hover⟩ : ∃ d', Over E B dir
        (BitVec.ofNat 64 gs.length = inst.blockMaxTransactions) d' u := by
      by_cases hne : gs = []
      · exact ⟨_, hend.idle hne⟩
      · obtain ⟨cert, -, hover⟩ := hend.made hne ((request_size hgs).mpr hfits)
        exact ⟨_, hover⟩
    refine ⟨⟨ms, u, h.net, t, hstep, hsteps, hover.ends⟩, ?_⟩
    intro ns v hround
    obtain ⟨rfl, rfl⟩ := hunique ns v hround
    constructor
    · rw [hend.makes, hgs]
      simp only [nil_iff_of_certs hgs]
    · have hlen : gs.length = (attestedPrefix s.canon.blockMaxTransactions q).length := by
        have hmap := congrArg List.length hgs
        rwa [List.length_map, List.length_map] at hmap
      rw [hover.net_iff, hknows.max, hlen]
      exact full_iff hzero q

end Contents

/-! ### Sample rounds -/

theorem length_encodeFields (fs : List (CertField × Bytes)) :
    (encodeFields fs).length = fieldsSize fs := by
  induction fs with
  | nil => rfl
  | cons p fs ih =>
    have hcons : encodeFields (p :: fs) = encodeField p ++ encodeFields fs := rfl
    rw [hcons, List.length_append, ih, fieldsSize, fieldsSize, List.map_cons, List.sum_cons]
    simp [encodeField, fieldSize]
    omega

theorem builds_codec (attestation : Bool) : Builds (codecEnv attestation) codecBuilder := by
  intro size fs key hfs _
  refine ⟨_, List.replicate signatureSize 0, rfl, List.length_replicate, ?_, ?_⟩
  · apply certFields_encodeFields
    intro p hp
    rcases List.mem_append.mp hp with hp | hp
    · exact hfs p hp
    · simp only [List.mem_cons, List.not_mem_nil, or_false] at hp
      rcases hp with rfl | rfl
      · simp [CertField.code]
      · simp [CertField.code, signatureSize]
  · rw [length_encodeFields, fieldsSize_append]
    simp [fieldsSize, fieldSize]
    omega

/-- Configured with a maximum and a key, started, and woken by the timer. -/
def readySystem (d : Store) (max : BitVec 64) : System :=
  { startSystem d with
    canon := awake { CanonizationService.instanceCreate with
      configured := true
      running := true
      firstTime := true
      blockMaxMilliseconds := 1000
      blockMaxTransactions := max
      privateKey := some ⟨3, []⟩ }
    net := [.randomRequest] }

theorem store_readySystem (d : Store) (max : BitVec 64) : (readySystem d max).store [47] = d := rfl

theorem ready_readySystem (d : Store) (max : BitVec 64) : Ready [47] (readySystem d max) := by
  obtain ⟨i, hnew⟩ := ChildContexts.instanceCreate_eq
  have hhead : DataserviceDispatch.instanceCreate.childHead = some i :=
    congrArg DataserviceDispatch.Instance.childHead hnew
  have hcap : ¬ bitcapIsset DataserviceDispatch.instanceCreate.apicaps .llRootContextCreate =
      false := by
    rw [ChildContexts.apicaps_instanceCreate]
    decide
  have hinst : (readySystem d max).data.inst = { DataserviceDispatch.instanceCreate with
      apicaps := bitcapSetFalse (BitVec.allOnes 32) .llRootContextCreate
      details := .opened [47] } := by
    simp only [readySystem, startSystem, rootContextInit, if_neg hcap]
    rfl
  refine ⟨rfl, rfl, rfl, rfl, Option.some_ne_none _, rfl, rfl, ?_, ?_, ?_, ?_, rfl⟩
  · rw [hinst]
  · rw [hinst]
    show bitcapIsset (bitcapSetFalse (BitVec.allOnes 32) .llRootContextCreate) _ = true
    decide
  · rw [hinst]
    show canonizationCaps &&& bitcapSetFalse (BitVec.allOnes 32) .llRootContextCreate =
      canonizationCaps
    decide
  · rw [hinst]
    simp only [hhead]
    exact Option.some_ne_none _

def submittedQueue (cert : Bytes) : List Entry :=
  queueAfter (codecEnv false)
    (runCalls (codecEnv false) [workingCall (.transactionSubmit 5 7 cert)]).1

theorem run_queuedStore (cert : Bytes) (hne : cert ≠ []) (hlen : cert.length < maxPayload) :
    Run (codecEnv false) (fun _ i => QueueCall i)
      (runCalls (codecEnv false) [workingCall (.transactionSubmit 5 7 cert)]).1
      (queuedStore cert) := by
  have hall : ∀ i ∈ [workingCall (.transactionSubmit 5 7 cert)], QueueCall i := by
    intro i hi
    rw [List.mem_singleton.mp hi]
    exact queueCall_submit (by decide) hne hlen
  exact run_runCalls (allowedFrom_of_forall hall _)

/-- Calls that made no block leave behind what a round reads. -/
theorem reads_runCalls {E : Env} {is : List Invocation} (hall : ∀ i ∈ is, QueueCall i)
    (hcerts : ∀ e ∈ queueAfter E (runCalls E is).1, e.cert.length ≤ maxTransactionCertificateSize)
    (hmade : blocksMade (runCalls E is).1 = []) :
    Reads E (runCalls E is).2 (queueAfter E (runCalls E is).1) [] := by
  have hrun : Run E (fun _ i => QueueCall i) (runCalls E is).1 (runCalls E is).2 :=
    run_runCalls (allowedFrom_of_forall hall _)
  have hchain := run_chain (hrun.mono fun _ _ h => ⟨h.works.commit, h.decoded⟩)
  rw [hmade] at hchain
  refine ⟨run_represents hrun, hcerts, hchain, ?_⟩
  intro b hb
  cases hb

theorem reads_queuedStore :
    Reads (codecEnv false) (queuedStore (transactionCert 5 0 7 1))
      (submittedQueue (transactionCert 5 0 7 1)) [] := by
  apply reads_runCalls
  · intro i hi
    rw [List.mem_singleton.mp hi]
    exact queueCall_submit (by decide) (by decide) (by decide)
  · decide +kernel
  · decide +kernel

/-- Four transactions are submitted, and all of them but the third are promoted. -/
def promotedCalls : List Invocation :=
  [workingCall (.transactionSubmit 5 7 (transactionCert 5 0 7 1)),
    workingCall (.transactionSubmit 6 8 (transactionCert 6 0 8 1)),
    workingCall (.transactionSubmit 10 7 (transactionCert 10 5 7 2)),
    workingCall (.transactionSubmit 11 8 (transactionCert 11 6 8 2)),
    workingCall (.transactionPromote 6),
    workingCall (.transactionPromote 5),
    workingCall (.transactionPromote 11)]

def promotedQueue : List Entry :=
  queueAfter (codecEnv true) (runCalls (codecEnv true) promotedCalls).1

def promotedStore : Store := (runCalls (codecEnv true) promotedCalls).2

theorem queueCall_of_mem : ∀ i ∈ promotedCalls, QueueCall i := by
  simp only [promotedCalls, List.forall_mem_cons, List.not_mem_nil, false_implies, implies_true,
    and_true]
  have hpromote : ∀ txnId, QueueCall (workingCall (.transactionPromote txnId)) :=
    fun txnId => ⟨workingCall_works _, trivial, fun _ _ _ heq => by cases heq⟩
  exact ⟨queueCall_submit (by decide) (by decide) (by decide),
    queueCall_submit (by decide) (by decide) (by decide),
    queueCall_submit (by decide) (by decide) (by decide),
    queueCall_submit (by decide) (by decide) (by decide), hpromote 6, hpromote 5, hpromote 11⟩

theorem reads_promotedStore (max : BitVec 64) : Reads (codecEnv true)
    ((readySystem promotedStore max).store [47]) promotedQueue [] := by
  rw [store_readySystem]
  exact reads_runCalls queueCall_of_mem (by decide +kernel) (by decide +kernel)

/-- Of the attested entries the maximum of one leaves the second out and the maximum of ten the
last, which stands behind one that is only submitted. -/
theorem promoted_transactions_are_sent :
    promotedQueue.map (fun e => (e.id, attested e)) =
        [(5, true), (6, true), (10, false), (11, true)] ∧
      (attestedPrefix 1 promotedQueue).map Entry.id = [5] ∧
      SendsPrefix (codecEnv true) codecBuilder [47] 0 9 promotedQueue
        (readySystem promotedStore 1) ∧
      (attestedPrefix 10 promotedQueue).map Entry.id = [5, 6] ∧
      SendsPrefix (codecEnv true) codecBuilder [47] 0 9 promotedQueue
        (readySystem promotedStore 10) := by
  have hone : fits (attestedPrefix 1 promotedQueue) := by decide +kernel
  have hten : fits (attestedPrefix 10 promotedQueue) := by decide +kernel
  refine ⟨by decide +kernel, by decide +kernel, ?_, by decide +kernel, ?_⟩
  · exact (round_sends_longest_attested (ready_readySystem promotedStore 1) (builds_codec true)
      (reads_promotedStore 1)).mpr ⟨by decide, hone⟩
  · exact (round_sends_longest_attested (ready_readySystem promotedStore 10) (builds_codec true)
      (reads_promotedStore 10)).mpr ⟨by decide, hten⟩

/-- A maximum of zero does not stop the list: the transaction is sent all the same. -/
theorem zero_maximum_is_passed : ∃ ms u,
    Round (codecEnv false) codecBuilder [47] 0 9
        (readySystem (queuedStore (transactionCert 5 0 7 1)) 0) ms u ∧
      blockMakes (codecEnv false) ms = [[transactionCert 5 0 7 1]] ∧
      ¬ SendsPrefix (codecEnv false) codecBuilder [47] 0 9
        (submittedQueue (transactionCert 5 0 7 1))
        (readySystem (queuedStore (transactionCert 5 0 7 1)) 0) := by
  have hready := ready_readySystem (queuedStore (transactionCert 5 0 7 1)) 0
  obtain ⟨t, ms, u, inst, gs, hstep, hsteps, hknows, hgs, hend⟩ :=
    Ready.round 0 9 hready (builds_codec false) reads_queuedStore
  have hcerts : gs.map Transaction.cert = [transactionCert 5 0 7 1] :=
    hgs.trans (by decide +kernel)
  have hne : gs ≠ [] := by
    rintro rfl
    cases hcerts
  have hsize : 24 + blockCertificateSize gs < maxPayload := by
    rw [request_size hgs]
    decide +kernel
  obtain ⟨cert, -, hover⟩ := hend.made hne hsize
  have hround : Round (codecEnv false) codecBuilder [47] 0 9 _ ms u :=
    ⟨hready.net, t, hstep, hsteps, hover.ends⟩
  have hmakes : blockMakes (codecEnv false) ms = [[transactionCert 5 0 7 1]] := by
    rw [hend.makes, if_neg hne, hcerts]
  refine ⟨ms, u, hround, hmakes, ?_⟩
  rintro ⟨-, hall⟩
  obtain ⟨hempty, -⟩ := hall ms u hround
  have hnil : attestedPrefix 0 (submittedQueue (transactionCert 5 0 7 1)) = [] := List.take_zero
  rw [hmakes] at hempty
  change _ = if attestedPrefix 0 (submittedQueue (transactionCert 5 0 7 1)) = [] then _ else _
    at hempty
  rw [if_pos hnil] at hempty
  cases hempty

end BlockContents
