import Agentd.ChainTip

/-! # Blocks chained by signature

A round copies the signature of the latest block into the instance and from there into the block it
makes. A signature of another size than the instance has room for is skipped, and what an earlier
round left in the instance goes into the block instead. -/
namespace SignedBlocks

open ByteString
open CertificateFields
open FaultyTransactions
open DataserviceRecords
open DataserviceStore
open DataserviceBlocks
open DataserviceRequests
open DataserviceEffects
open DataserviceDispatch
open DataserviceClient
open CapabilityConfinement
open BlockchainInvariant
open CanonizationService
open CanonizationSystem
open PublishedBlocks
open RoundTurns
open ChainTip

/-! ### Signatures -/

def noSignature : Bytes := List.replicate signatureSize 0

def signatureField (E : Env) (cert : Bytes) : Option Bytes :=
  (E.fields cert).bind fun fs => (fieldValues fs .signature).head?

def blockCertificate (d : Store) (id : Uuid) : Option Bytes :=
  (d.blockDb id).map fun record => record.drop sizeofBlockNode

/-- What a block behind `prev` is to carry: zeros when it is the first one. -/
def hashBehind (E : Env) (d : Store) (prev : Uuid) : Option Bytes :=
  if prev = E.rootBlock then some noSignature
  else (blockCertificate d prev).bind (signatureField E)

def ChainedBySignature (E : Env) (d : Store) (cert : Bytes) : Prop :=
  ∃ fs prev hash, E.fields cert = some fs ∧
    (sizedField fs .previousBlockUuid 16).map (bits 128) = some prev ∧
    fieldValues fs .previousBlockHash = [hash] ∧ hashBehind E d prev = some hash

/-- The signature of the latest block has the size the instance has room for. -/
def SignatureFits (E : Env) (d : Store) : Prop :=
  ∃ hash, hashBehind E d (latestBlock E d) = some hash ∧ hash.length = signatureSize

structure Copied (E : Env) (d : Store) (inst : CanonizationService.Instance) : Prop where
  previous : inst.previousBlockId = latestBlock E d
  sized : inst.previousBlockSignature.length = signatureSize
  hash : ∃ hash, hashBehind E d (latestBlock E d) = some hash ∧
    (hash.length = signatureSize → inst.previousBlockSignature = hash)

section Chain

variable {E : Env} {d d' : Store} {inst : CanonizationService.Instance} {bs : List Block}

theorem latestBlock_congr (h : d'.blockDb = d.blockDb) : latestBlock E d' = latestBlock E d := by
  rw [latestBlock, latestBlock, h]

theorem hashBehind_congr (h : d'.blockDb = d.blockDb) (prev : Uuid) :
    hashBehind E d' prev = hashBehind E d prev := by
  rw [hashBehind, hashBehind, blockCertificate, blockCertificate, h]

theorem Copied.congr {inst' : CanonizationService.Instance} (h : Copied E d inst)
    (hblk : d'.blockDb = d.blockDb) (hprev : inst'.previousBlockId = inst.previousBlockId)
    (hsig : inst'.previousBlockSignature = inst.previousBlockSignature) : Copied E d' inst' := by
  constructor
  · rw [hprev, latestBlock_congr hblk]
    exact h.previous
  · rw [hsig]
    exact h.sized
  · rw [latestBlock_congr hblk, hashBehind_congr hblk, hsig]
    exact h.hash

/-- Of the blocks of a chain none is the root block. -/
theorem latestBlock_ne_root (hc : Chain E d.blockDb d.heightDb bs) (hne : bs ≠ []) :
    latestBlock E d ≠ E.rootBlock := by
  rw [latestBlock, hc.expectedPrevBlockId_eq]
  rcases List.eq_nil_or_concat bs with rfl | ⟨init, b, rfl⟩
  · exact absurd rfl hne
  · rw [List.concat_eq_append] at hc ⊢
    rw [List.length_append, List.length_singleton,
      blockAt_succ (h := init.length) (c := b) (by simp)]
    exact (hc.not_reserved b (by simp)).1

/-- A block that carries what the instance holds is chained exactly when the signature fits. -/
theorem Copied.chained_iff (h : Copied E d inst) {B : CertBuilder} {now : BitVec 64}
    {txns : List Transaction} {id sig cert : Bytes}
    (hfs : E.fields cert = some (blockCertificateFields B now inst txns ++
      [(.signerId, id), (.signature, sig)])) :
    ChainedBySignature E d cert ↔ SignatureFits E d := by
  have hprev : (sizedField (blockCertificateFields B now inst txns ++
      [(.signerId, id), (.signature, sig)]) .previousBlockUuid 16).map (bits 128) =
      some (latestBlock E d) := by
    rw [← h.previous]
    simp [blockCertificateFields, sizedField, fieldValues, bits_be]
  have hhash : fieldValues (blockCertificateFields B now inst txns ++
      [(.signerId, id), (.signature, sig)]) .previousBlockHash =
      [inst.previousBlockSignature] := by
    simp [blockCertificateFields, fieldValues]
  obtain ⟨hash, hbehind, hcopied⟩ := h.hash
  constructor
  · rintro ⟨fs, prev, found, hfs', hprev', hhash', hfound⟩
    obtain rfl := Option.some.inj (hfs.symm.trans hfs')
    obtain rfl := Option.some.inj (hprev.symm.trans hprev')
    obtain ⟨rfl, -⟩ := List.cons.inj (hhash.symm.trans hhash')
    exact ⟨_, hfound, h.sized⟩
  · rintro ⟨hash', hbehind', hsize⟩
    obtain rfl := Option.some.inj (hbehind.symm.trans hbehind')
    refine ⟨_, _, _, hfs, hprev, hhash, ?_⟩
    rw [hcopied hsize]
    exact hbehind

end Chain

/-! ### What is in flight -/

section Flight

variable (E : Env) (B : CertBuilder) (d : Store) (inst : CanonizationService.Instance)

inductive SignedRequest : Bytes → Prop
  | create : SignedRequest (encodeRequestChildContextCreate canonizationCaps)
  | latest (child : BitVec 32) : SignedRequest (encodeRequestLatestBlockIdGet child)
  | block (child : BitVec 32) (hprev : inst.previousBlockId = latestBlock E d)
      (hne : inst.previousBlockId ≠ E.rootBlock) :
    SignedRequest (encodeRequestBlockGet child inst.previousBlockId true)
  | first (child : BitVec 32) (h : Copied E d inst) :
    SignedRequest (encodeRequestTransactionGetFirst child)
  | next (child : BitVec 32) (txnId : Uuid) (h : Copied E d inst) :
    SignedRequest (encodeRequestTransactionGet child txnId)
  | make (child : BitVec 32) {size : ℕ} {now : BitVec 64} {txns : List Transaction}
      {key : PrivateKey} {cert : Bytes} (h : Copied E d inst)
      (hbuild : B.build size (blockCertificateFields B now inst txns) key = some cert) :
    SignedRequest (encodeRequestBlockMake child inst.blockId cert)
  | close (child : BitVec 32) : SignedRequest (encodeRequestChildContextClose child)

inductive SignedResponse : Response → Prop
  | latest {resp : Response} (hm : resp.method = Method.appBlockIdLatestRead.code)
      (hid : resp.status = .ok () → resp.payload = some (be 16 (latestBlock E d))) :
    SignedResponse resp
  | block {resp : Response} (hm : resp.method = Method.appBlockRead.code)
      (hprev : inst.previousBlockId = latestBlock E d) (hne : inst.previousBlockId ≠ E.rootBlock)
      (hcert : ∀ node cert, decodeResponseBlockGet resp = some (.ok (node, cert)) →
        blockCertificate d (latestBlock E d) = some cert) : SignedResponse resp
  | entry {resp : Response} (hm : ReadsEntry resp) (h : Copied E d inst) : SignedResponse resp
  | other {resp : Response} (m : Method)
      (hm : m = .llChildContextCreate ∨ m = .appBlockWrite ∨ m = .llChildContextClose)
      (h : resp.method = m.code) : SignedResponse resp

def InFlight : Message → Prop
  | .dataRequest packet => SignedRequest E B d inst packet
  | .dataResponse resp => SignedResponse E d inst resp
  | _ => True

end Flight

/-! ### Callbacks -/

section Callbacks

variable {E : Env} {B : CertBuilder} {d : Store} {o : Outside}
  {inst inst' : CanonizationService.Instance} {m : Message} {e : Effect} {resp : Response}

/-- The signature is copied if it fits, and skipped without an error if it does not. -/
theorem parseBlock_signature {cert : Bytes} (h : parseBlock E o inst cert = some inst') :
    ∃ sig, signatureField E cert = some sig ∧
      inst' = { inst with previousBlockSignature :=
        if sig.length = signatureSize then sig else inst.previousBlockSignature } := by
  unfold parseBlock at h
  split at h
  · cases h
  · split at h
    · cases h
    · rename_i fs hfs
      split at h
      · cases h
      · split at h
        · cases h
        · rename_i sig hsig
          refine ⟨sig, by rw [signatureField, hfs]; exact hsig, ?_⟩
          by_cases hfit : sig.length = signatureSize
          · rw [if_neg (not_not.mpr hfit)] at h
            rw [if_pos hfit]
            exact (Option.some.inj h).symm
          · rw [if_pos hfit] at h
            rw [if_neg hfit]
            exact (Option.some.inj h).symm

theorem SignedResponse.of_latest (h : SignedResponse E d inst resp)
    (hm : resp.method = Method.appBlockIdLatestRead.code) :
    resp.status = .ok () → resp.payload = some (be 16 (latestBlock E d)) := by
  cases h with
  | latest _ hid => exact hid
  | block hm' _ _ _ => exact absurd (hm.symm.trans hm') (by decide)
  | entry hm' _ => exact absurd hm' (not_readsEntry hm (by decide) (by decide))
  | other m hother h =>
    rw [h] at hm
    rcases hother with rfl | rfl | rfl
    · exact absurd hm (by decide)
    · exact absurd hm (by decide)
    · exact absurd hm (by decide)

theorem SignedResponse.of_block (h : SignedResponse E d inst resp)
    (hm : resp.method = Method.appBlockRead.code) :
    inst.previousBlockId = latestBlock E d ∧ inst.previousBlockId ≠ E.rootBlock ∧
      ∀ node cert, decodeResponseBlockGet resp = some (.ok (node, cert)) →
        blockCertificate d (latestBlock E d) = some cert := by
  cases h with
  | block _ hprev hne hcert => exact ⟨hprev, hne, hcert⟩
  | latest hm' _ => exact absurd (hm.symm.trans hm') (by decide)
  | entry hm' _ => exact absurd hm' (not_readsEntry hm (by decide) (by decide))
  | other m hother h =>
    rw [h] at hm
    rcases hother with rfl | rfl | rfl
    · exact absurd hm (by decide)
    · exact absurd hm (by decide)
    · exact absurd hm (by decide)

theorem SignedResponse.of_entry (h : SignedResponse E d inst resp) (hm : ReadsEntry resp) :
    Copied E d inst := by
  cases h with
  | entry _ h => exact h
  | latest hm' _ => exact absurd hm (not_readsEntry hm' (by decide) (by decide))
  | block hm' _ _ _ => exact absurd hm (not_readsEntry hm' (by decide) (by decide))
  | other m hother h =>
    rcases hother with rfl | rfl | rfl
    · exact absurd hm (not_readsEntry h (by decide) (by decide))
    · exact absurd hm (not_readsEntry h (by decide) (by decide))
    · exact absurd hm (not_readsEntry h (by decide) (by decide))

structure Room (E : Env) (d : Store) (inst : CanonizationService.Instance) : Prop where
  sized : inst.previousBlockSignature.length = signatureSize
  unset : latestBlock E d = E.rootBlock → inst.previousBlockSignature = noSignature

structure Passes (E : Env) (B : CertBuilder) (d : Store) (inst : CanonizationService.Instance)
    (e : Effect) : Prop where
  single : e.2.length ≤ 1
  running : e.2 ≠ [] → e.1.running = inst.running
  room : e.1.forceExit = false → Room E d e.1
  flight : ∀ m ∈ e.2, InFlight E B d e.1 m

theorem passes_one {packet : Message} (hrun : inst'.running = inst.running)
    (hroom : Room E d inst') (h : InFlight E B d inst' packet) :
    Passes E B d inst (inst', [packet]) :=
  ⟨le_rfl, fun _ => hrun, fun _ => hroom, fun _ hm => List.mem_singleton.mp hm ▸ h⟩

theorem passes_exit (h : inst'.forceExit = true) : Passes E B d inst (inst', []) := by
  refine ⟨by simp, by simp, fun hrun => ?_, by simp⟩
  rw [h] at hrun
  cases hrun

/-- The latest block is read. -/
theorem responseBlockRead_passes (hroom : Room E d inst) (h : SignedResponse E d inst resp)
    (hm : resp.method = Method.appBlockRead.code) :
    Passes E B d inst (responseBlockRead E o inst resp) := by
  obtain ⟨hprev, hne, hcert⟩ := h.of_block hm
  unfold responseBlockRead
  split
  · rename_i node cert hdec
    simp only
    split
    · exact passes_exit rfl
    · rename_i inst' hparse
      obtain ⟨sig, hsig, rfl⟩ := parseBlock_signature hparse
      have hbehind : hashBehind E d (latestBlock E d) = some sig := by
        rw [hashBehind, if_neg (hprev ▸ hne), hcert node cert hdec]
        exact hsig
      have hsized : (if sig.length = signatureSize then sig
          else inst.previousBlockSignature).length = signatureSize := by
        split
        · assumption
        · exact hroom.sized
      unfold sendreqTransactionGetFirst sendreq
      split
      · exact passes_exit rfl
      · refine passes_one rfl ⟨hsized, fun hroot => (hne (hprev.trans hroot)).elim⟩ ?_
        exact SignedRequest.first _ ⟨hprev, hsized, sig, hbehind, fun hfit => if_pos hfit⟩
  · exact passes_exit rfl

/-- Every other callback leaves the signature alone. -/
theorem turn_passes (hroom : Room E d inst) (h : InFlight E B d inst m) (hturn : Turn E B inst m e)
    (hother : ∀ resp, m = .dataResponse resp → resp.method ≠ Method.appBlockRead.code) :
    Passes E B d inst e := by
  have hroom' : ∀ {inst' : CanonizationService.Instance},
      inst'.previousBlockSignature = inst.previousBlockSignature → Room E d inst' := by
    intro inst' hsig
    constructor
    · rw [hsig]
      exact hroom.sized
    · rw [hsig]
      exact hroom.unset
  cases hturn with
  | exits hexit => exact passes_exit hexit
  | begins | announcesLatest _ _ | announces _ | sleeps _ | beginsAgain _ =>
    exact passes_one rfl (hroom' rfl) trivial
  | drew _ => exact passes_one rfl (hroom' rfl) SignedRequest.create
  | created _ _ => exact passes_one rfl (hroom' rfl) (SignedRequest.latest _)
  | emptyChain hm hdec =>
    have hlatest := decodeResponseLatestBlockIdGet_eq hdec (SignedResponse.of_latest h hm)
    refine passes_one rfl (hroom' rfl) (SignedRequest.first _ ⟨hlatest, hroom.sized, ?_⟩)
    refine ⟨noSignature, ?_, fun _ => hroom.unset hlatest.symm⟩
    rw [hashBehind, if_pos hlatest.symm]
  | latest hm hdec hne =>
    have hlatest := decodeResponseLatestBlockIdGet_eq hdec (SignedResponse.of_latest h hm)
    exact passes_one rfl (hroom' rfl) (SignedRequest.block _ hlatest hne)
  | block hm _ _ => exact (hother _ rfl hm).elim
  | collects hm _ txn =>
    have hcopied := SignedResponse.of_entry h hm
    exact passes_one rfl (hroom' rfl) (SignedRequest.next _ _ (hcopied.congr rfl rfl rfl))
  | makes hm _ _ _ hbuild =>
    have hcopied := SignedResponse.of_entry h hm
    exact passes_one rfl (hroom' rfl) (SignedRequest.make _ (hcopied.congr rfl rfl rfl) hbuild)
  | finishes _ | announced _ => exact passes_one rfl (hroom' rfl) (SignedRequest.close _)

theorem dataRead_passes (hrun : inst.forceExit = false) (hroom : Room E d inst)
    (h : SignedResponse E d inst resp) (he : dataRead E B o inst resp = some e) :
    Passes E B d inst e := by
  by_cases hm : resp.method = Method.appBlockRead.code
  · rw [dataRead_of_block E B hrun hm] at he
    obtain rfl := Option.some.inj he
    exact responseBlockRead_passes hroom h hm
  · have hflight : InFlight E B d inst (.dataResponse resp) := h
    refine turn_passes hroom hflight (dataRead_turn hrun he) ?_
    rintro resp' heq
    rw [← Message.dataResponse.inj heq]
    exact hm

end Callbacks

/-! ### Serving a request -/

section Serve

variable {E : Env} {B : CertBuilder} {s s' : Service} {v : Delivery} {dir : Bytes}
  {resp : Option Response} {st : Except AgentdError Unit} {inst : CanonizationService.Instance}
  {d : Store}

/-- A chain that has a block keeps one. -/
theorem performed_latest {bs : List Block} {i : Invocation} {a : Reply} {store : Store}
    (hc : Chain E d.blockDb d.heightDb bs) (hi : i.request.Decoded)
    (h : perform E d i = (.ok a, store)) (hroot : latestBlock E store = E.rootBlock) :
    latestBlock E d = E.rootBlock := by
  obtain ⟨w, -, heff, hstore⟩ := perform_ok (congrArg Prod.fst h)
  rw [h] at hstore
  simp only at hstore
  cases hcommit : i.commitFails with
  | true =>
    rw [hcommit, if_pos rfl] at hstore
    rw [← hstore]
    exact hroot
  | false =>
    rw [hcommit, if_neg (by decide)] at hstore
    rw [hstore] at hroot
    have hchain := effect_chain hc ⟨hcommit, hi⟩ heff
    cases bs with
    | nil => rw [latestBlock, hc.expectedPrevBlockId_eq]; rfl
    | cons b bs => exact absurd hroot (latestBlock_ne_root hchain (by simp))

theorem decoded_cert {q : Response} {node got : DataBlockNode} {cert data : Bytes}
    (hpayload : q.payload = some (encodeResponseBlockRead node true cert))
    (hdec : decodeResponseBlockGet q = some (.ok (got, data))) : data = cert := by
  have hdrop : (encodeResponseBlockRead node true cert).drop 72 = cert := by
    rw [encodeResponseBlockRead, if_pos rfl, List.drop_left' (by simp)]
  unfold decodeResponseBlockGet decodeResponse at hdec
  split at hdec
  · cases hdec
  · split at hdec
    · cases hdec
    · simp only [hpayload, Option.getD_some] at hdec
      split at hdec
      · cases hdec
      · obtain ⟨-, rfl⟩ := Prod.mk.inj (Except.ok.inj (Option.some.inj hdec))
        exact hdrop

theorem served_signed (hs : Chained E dir s) (hf : SignedRequest E B (s.disk dir) inst v.packet)
    (hlen : v.packet.length < maxPayload) (h : decodeAndDispatch E s v = some (s', resp, st)) :
    Chained E dir s' ∧
      (latestBlock E (s'.disk dir) = E.rootBlock → latestBlock E (s.disk dir) = E.rootBlock) ∧
      ∀ q, resp = some q → SignedResponse E (s'.disk dir) inst q := by
  generalize hpacket : v.packet = packet at hf
  cases hf with
  | create =>
    have hkeep := served_childContextCreate hpacket h
    obtain ⟨hs', hlatest⟩ := hs.keepsStore hkeep
    exact ⟨hs', fun hroot => hlatest ▸ hroot, fun q hresp =>
      .other _ (Or.inl rfl) (hkeep.2.2 q hresp)⟩
  | close child =>
    have hkeep := served_childContextClose hpacket h
    obtain ⟨hs', hlatest⟩ := hs.keepsStore hkeep
    exact ⟨hs', fun hroot => hlatest ▸ hroot, fun q hresp =>
      .other _ (Or.inr (Or.inr rfl)) (hkeep.2.2 q hresp)⟩
  | latest child =>
    have he := encodes_latestBlockIdGet child
    rw [← hpacket] at he
    obtain ⟨hs', hblk, hq⟩ := served_reads he (by simp) trivial hs h
    have hlatest := latestBlock_congr (E := E) hblk
    refine ⟨hs', fun hroot => hlatest ▸ hroot, fun q hresp => .latest (hq q hresp) ?_⟩
    rw [hlatest]
    exact served_latest hpacket hs h q hresp
  | block child hprev hne =>
    have he := encodes_blockGet child inst.previousBlockId true
    rw [← hpacket] at he
    obtain ⟨hs', hblk, hq⟩ := served_reads he (by simp) trivial hs h
    have hlatest := latestBlock_congr (E := E) hblk
    refine ⟨hs', fun hroot => hlatest ▸ hroot, fun q hresp =>
      .block (hq q hresp) (hprev.trans hlatest.symm) hne ?_⟩
    intro node cert hdec
    obtain ⟨record, hrecord, hpayload⟩ := served_record hpacket hs hne h q hresp _ hdec
    rw [hlatest, ← hprev, blockCertificate, hblk, hrecord, decoded_cert hpayload hdec]
    rfl
  | first child hcopied =>
    have he := encodes_transactionGetFirst child
    rw [← hpacket] at he
    obtain ⟨hs', hblk, hq⟩ := served_reads he (by simp) trivial hs h
    have hlatest := latestBlock_congr (E := E) hblk
    exact ⟨hs', fun hroot => hlatest ▸ hroot, fun q hresp =>
      .entry (Or.inl (hq q hresp)) (hcopied.congr hblk rfl rfl)⟩
  | next child txnId hcopied =>
    have he := encodes_transactionGet child txnId
    rw [← hpacket] at he
    obtain ⟨hs', hblk, hq⟩ := served_reads he (by simp) trivial hs h
    have hlatest := latestBlock_congr (E := E) hblk
    exact ⟨hs', fun hroot => hlatest ▸ hroot, fun q hresp =>
      .entry (Or.inr (hq q hresp)) (hcopied.congr hblk rfl rfl)⟩
  | @make child _ _ _ _ cert _ _ =>
    obtain ⟨hs', hq, -⟩ := served_write hpacket hlen hs h
    refine ⟨hs', ?_, fun q hresp => .other _ (Or.inr (Or.inl rfl)) (hq q hresp)⟩
    have he := encodes_blockMake child inst.blockId cert
    rw [← hpacket] at he
    have hcert : cert.length < maxPayload := by
      rw [hpacket, encodeRequestBlockMake, requestPacket] at hlen
      simp only [List.length_append] at hlen
      omega
    obtain ⟨bs, hc⟩ := hs.chain
    rcases served_operation he hs.opened h with ⟨rfl, -⟩ | ⟨caps, a, store, hok, rfl, -⟩
    · exact id
    · intro hroot
      simp only [Function.update_self] at hroot
      exact performed_latest hc (by exact hcert) hok hroot

end Serve

/-! ### Runs -/

structure Invariant (E : Env) (B : CertBuilder) (dir : Bytes) (s : System) : Prop where
  chained : Chained E dir s.data
  single : s.net.length ≤ 1
  idle : s.canon.running = false → s.net = []
  room : s.canon.forceExit = false → Room E (s.store dir) s.canon
  flight : ∀ m ∈ s.net, InFlight E B (s.store dir) s.canon m

section Runs

variable {E : Env} {B : CertBuilder} {dir : Bytes} {s t : System} {a : Action}

theorem InFlight.congr {d d' : Store} {inst inst' : CanonizationService.Instance} {m : Message}
    (h : InFlight E B d inst m) (hblk : d'.blockDb = d.blockDb) (hid : inst'.blockId = inst.blockId)
    (hprev : inst'.previousBlockId = inst.previousBlockId)
    (hsig : inst'.previousBlockSignature = inst.previousBlockSignature)
    (hheight : inst'.blockHeight = inst.blockHeight) : InFlight E B d' inst' m := by
  have hlatest := latestBlock_congr (E := E) hblk
  cases m with
  | dataRequest packet =>
    replace h : SignedRequest E B d inst packet := h
    show SignedRequest E B d' inst' packet
    cases h with
    | create => exact .create
    | latest child => exact .latest child
    | block child hp hne =>
      rw [← hprev] at hp hne ⊢
      exact .block child (hp.trans hlatest.symm) hne
    | first child hc => exact .first child (hc.congr hblk hprev hsig)
    | next child txnId hc => exact .next child txnId (hc.congr hblk hprev hsig)
    | make child hc hbuild =>
      rw [← blockCertificateFields_congr hid hprev hsig hheight] at hbuild
      rw [← hid]
      exact .make child (hc.congr hblk hprev hsig) hbuild
    | close child => exact .close child
  | dataResponse resp =>
    replace h : SignedResponse E d inst resp := h
    show SignedResponse E d' inst' resp
    cases h with
    | latest hm hpayload => exact .latest hm (by rwa [hlatest])
    | block hm hp hne hcert =>
      rw [← hprev] at hp hne
      refine .block hm (hp.trans hlatest.symm) hne ?_
      rw [hlatest, blockCertificate, hblk]
      exact hcert
    | entry hm hc => exact .entry hm (hc.congr hblk hprev hsig)
    | other m hm h => exact .other m hm h
  | _ => trivial

theorem Room.congr {d d' : Store} {inst inst' : CanonizationService.Instance} (h : Room E d inst)
    (hlatest : latestBlock E d' = E.rootBlock → latestBlock E d = E.rootBlock)
    (hsig : inst'.previousBlockSignature = inst.previousBlockSignature) : Room E d' inst' := by
  constructor
  · rw [hsig]
    exact h.sized
  · rw [hsig]
    exact fun hroot => h.unset (hlatest hroot)

theorem Invariant.take {α : Type} {kind : Message → Option α} {x : α} {net : List Message}
    (h : Invariant E B dir s) (ht : takeMessage kind s.net = some (x, net)) :
    ∃ m, s.net = [m] ∧ kind m = some x ∧ net = [] ∧ s.canon.running = true := by
  obtain ⟨m, hnet, hk, hrest⟩ := takeMessage_single h.single ht
  refine ⟨m, hnet, hk, hrest, ?_⟩
  by_contra hrun
  rw [Bool.not_eq_true] at hrun
  rw [h.idle hrun] at hnet
  cases hnet

theorem Invariant.afterCallback {m : Message} {e : Option Effect} (h : Invariant E B dir s)
    (hnet : s.net = [m]) (hrun : s.canon.running = true)
    (hpasses : s.canon.forceExit = false → Room E (s.store dir) s.canon →
      InFlight E B (s.store dir) s.canon m → ∀ e', e = some e' →
        Passes E B (s.store dir) s.canon e')
    (hstep : callback s [] e = some t) : Invariant E B dir t := by
  unfold CanonizationSystem.callback at hstep
  split at hstep
  · cases hstep
  · rename_i hexit
    rw [Bool.not_eq_true] at hexit
    obtain ⟨e', he, rfl⟩ := Option.map_eq_some_iff.mp hstep
    have hp := hpasses hexit (h.room hexit) (h.flight m (by simp [hnet])) e' he
    refine ⟨h.chained, by simpa using hp.single, ?_, hp.room, ?_⟩
    · intro hidle
      by_contra hne
      have hrun' := hp.running (by simpa using hne)
      rw [hrun] at hrun'
      exact absurd (hrun'.symm.trans hidle) (by decide)
    · intro next hnext
      exact hp.flight next (by simpa using hnext)

theorem Invariant.afterControl {o : Outside} {c : ControlCommand} (h : Invariant E B dir s)
    (hstep : callback s s.net (some (controlRead o s.canon c)) = some t) :
    Invariant E B dir t := by
  unfold callback at hstep
  split at hstep
  · cases hstep
  · rename_i hexit
    rw [Bool.not_eq_true] at hexit
    cases hstep
    obtain ⟨hid, hprev, hsent⟩ := controlRead_cases o s.canon c
    obtain ⟨hsig, hheight⟩ := controlRead_keeps o s.canon c
    have hroom : Room E (s.store dir) (controlRead o s.canon c).1 := (h.room hexit).congr id hsig
    rcases hsent with ⟨hsent, hrun⟩ | ⟨hsent, hrun, hnow⟩
    · simp only [hsent, List.append_nil]
      refine ⟨h.chained, h.single, ?_, fun _ => hroom, fun m hm =>
        (h.flight m hm).congr rfl hid hprev hsig hheight⟩
      intro hidle
      rcases hrun with hrun | hrun
      · exact h.idle (hrun.symm.trans hidle)
      · exact h.idle hrun
    · simp only [hsent, h.idle hrun]
      refine ⟨h.chained, by simp, ?_, fun _ => hroom, by simp [InFlight]⟩
      intro hidle
      exact absurd (hnow.symm.trans hidle) (by decide)

theorem Invariant.afterServe {v : Delivery} {packet : Bytes} {net : List Message}
    (h : Invariant E B dir s) (ht : takeMessage isDataRequest s.net = some (packet, net))
    (hstep : serveData E s v packet net = some t) : Invariant E B dir t := by
  obtain ⟨m, hnet, hk, rfl, hrun⟩ := h.take ht
  obtain rfl := eq_of_isDataRequest hk
  unfold serveData at hstep
  split at hstep
  · cases hstep
  · split at hstep
    · cases hstep
      exact ⟨h.chained, by simp, fun _ => rfl, h.room, by simp⟩
    · rename_i hlen
      obtain ⟨⟨data, resp, st⟩, hserved, rfl⟩ := Option.map_eq_some_iff.mp hstep
      have hflight : SignedRequest E B (s.data.disk dir) s.canon packet :=
        h.flight (.dataRequest packet) (by simp [hnet])
      obtain ⟨hchained, hlatest, hresp⟩ := served_signed h.chained (by exact hflight)
        (not_le.mp hlen) hserved
      refine ⟨hchained, ?_, ?_, fun hexit => (h.room hexit).congr hlatest rfl, ?_⟩
      · cases resp with
        | none => simp
        | some q => simp
      · intro hidle
        exact absurd (hrun.symm.trans hidle) (by decide)
      · intro m hm
        simp only [List.nil_append, List.mem_map, Option.mem_toList] at hm
        obtain ⟨q, hq, rfl⟩ := hm
        exact hresp q hq

theorem Invariant.afterClient {i : Invocation} (h : Invariant E B dir s)
    (hcap : bitcapIsset i.caps .appBlockWrite = false) :
    Invariant E B dir { s with data := { s.data with
      disk := Function.update s.data.disk dir (perform E (s.data.disk dir) i).2 } } := by
  obtain ⟨hblock, hheight⟩ := perform_uncapped_keeps_blocks (E := E) (d := s.data.disk dir) hcap
  have hstore : (({ s with data := { s.data with
      disk := Function.update s.data.disk dir (perform E (s.data.disk dir) i).2 } } : System).store
        dir).blockDb = (s.store dir).blockDb := by
    simp only [System.store, Function.update_self, hblock]
  refine ⟨⟨h.chained.opened, ?_⟩, h.single, h.idle, ?_, fun m hm =>
    (h.flight m hm).congr hstore rfl rfl rfl rfl⟩
  · simp only [Function.update_self, hblock, hheight]
    exact h.chained.chain
  · intro hexit
    exact (h.room hexit).congr (fun hroot => latestBlock_congr hstore ▸ hroot) rfl

theorem Invariant.step (h : Invariant E B dir s) (hstep : step E B dir s a = some t) :
    Invariant E B dir t := by
  cases a with
  | control o c => exact h.afterControl hstep
  | timer o =>
    obtain ⟨⟨_, net⟩, ht, hstep⟩ := Option.bind_eq_some_iff.mp hstep
    obtain ⟨m, hnet, hk, rfl, hrun⟩ := h.take ht
    cases m with
    | timer =>
      refine h.afterCallback hnet hrun (fun _ hroom hf e he => ?_) hstep
      exact turn_passes hroom hf (Option.some.inj he ▸ timerCb_turn) (by simp)
    | _ => cases hk
  | random packet =>
    obtain ⟨⟨_, net⟩, ht, hstep⟩ := Option.bind_eq_some_iff.mp hstep
    obtain ⟨m, -, -, rfl, hrun⟩ := h.take ht
    cases hstep
    refine ⟨h.chained, by simp, ?_, h.room, by simp [InFlight]⟩
    intro hidle
    exact absurd (hrun.symm.trans hidle) (by decide)
  | randomRead o =>
    obtain ⟨⟨packet, net⟩, ht, hstep⟩ := Option.bind_eq_some_iff.mp hstep
    obtain ⟨m, hnet, hk, rfl, hrun⟩ := h.take ht
    cases m with
    | randomResponse p =>
      cases hk
      refine h.afterCallback hnet hrun (fun _ hroom hf e he => ?_) hstep
      exact turn_passes hroom hf (Option.some.inj he ▸ randomRead_turn) (by simp)
    | _ => cases hk
  | serve v =>
    obtain ⟨⟨packet, net⟩, ht, hstep⟩ := Option.bind_eq_some_iff.mp hstep
    exact h.afterServe ht hstep
  | dataRead o =>
    obtain ⟨⟨resp, net⟩, ht, hstep⟩ := Option.bind_eq_some_iff.mp hstep
    obtain ⟨m, hnet, hk, rfl, hrun⟩ := h.take ht
    obtain rfl := eq_of_isDataResponse hk
    exact h.afterCallback hnet hrun (fun hexit hroom hf e he => dataRead_passes hexit hroom hf he)
      hstep
  | update status =>
    obtain ⟨⟨blockId, net⟩, ht, hstep⟩ := Option.bind_eq_some_iff.mp hstep
    obtain ⟨m, -, -, rfl, hrun⟩ := h.take ht
    cases hstep
    refine ⟨h.chained, by simp, ?_, h.room, by simp [InFlight]⟩
    intro hidle
    exact absurd (hrun.symm.trans hidle) (by decide)
  | notifyRead o =>
    obtain ⟨⟨packet, net⟩, ht, hstep⟩ := Option.bind_eq_some_iff.mp hstep
    obtain ⟨m, hnet, hk, rfl, hrun⟩ := h.take ht
    cases m with
    | notifyResponse p =>
      cases hk
      refine h.afterCallback hnet hrun (fun _ hroom hf e he => ?_) hstep
      exact turn_passes hroom hf (Option.some.inj he ▸ notifyRead_turn) (by simp)
    | _ => cases hk
  | client i =>
    rw [CanonizationSystem.step] at hstep
    split at hstep
    · cases hstep
    · rename_i hcap
      cases hstep
      exact h.afterClient (by simpa using hcap)

theorem execution_invariant {s₀ : System} (h₀ : Start E dir s₀)
    (h : Execution E B dir (fun _ _ => True) s₀ s) : Invariant E B dir s := by
  induction h with
  | refl =>
    obtain ⟨log, hrun⟩ := h₀.store
    refine ⟨⟨h₀.opened, run_exists_chain hrun⟩, by simp [h₀.net], fun _ => h₀.net, ?_,
      by simp [h₀.net]⟩
    rw [h₀.canon]
    exact fun _ => ⟨rfl, fun _ => rfl⟩
  | tail before meets taken ih => exact ih.step taken

theorem SignedRequest.of_make {d : Store} {inst : CanonizationService.Instance} {child : BitVec 32}
    {blockId : Uuid} {cert : Bytes}
    (h : SignedRequest E B d inst (encodeRequestBlockMake child blockId cert)) :
    Copied E d inst ∧ ∃ size now txns key,
      B.build size (blockCertificateFields B now inst txns) key = some cert := by
  have hother : ∀ {m : Method} {rest : Bytes}, m.code ≠ Method.appBlockWrite.code →
      encodeRequestBlockMake child blockId cert ≠ be 4 m.code ++ rest := by
    intro m rest hm heq
    exact hm (be_append_inj (by decide) heq).1.symm
  generalize hp : encodeRequestBlockMake child blockId cert = packet at h
  cases h with
  | create => exact absurd hp (hother (by decide))
  | latest _ => exact absurd hp (hother (by decide))
  | block _ _ _ => exact absurd hp (hother (by decide))
  | first _ _ => exact absurd hp (hother (by decide))
  | next _ _ _ => exact absurd hp (hother (by decide))
  | close _ => exact absurd hp (hother (by decide))
  | make child' hcopied hbuild =>
    obtain ⟨-, hargs⟩ := be_append_inj (by decide) hp
    obtain ⟨-, hargs⟩ := be_append_inj (by decide) hargs
    obtain ⟨-, rfl⟩ := be_append_inj (by decide) hargs
    exact ⟨hcopied, _, _, _, _, hbuild⟩

/-- A block that is sent carries what the instance holds. -/
theorem sent_block_fields {s₀ : System} {child : BitVec 32} {blockId : Uuid} {cert : Bytes}
    (hB : ReadsBack E B) (h₀ : Start E dir s₀) (h : Execution E B dir (fun _ _ => True) s₀ s)
    (hm : Message.dataRequest (encodeRequestBlockMake child blockId cert) ∈ s.net) :
    Copied E (s.store dir) s.canon ∧ ∃ now txns id sig, E.fields cert =
      some (blockCertificateFields B now s.canon txns ++ [(.signerId, id), (.signature, sig)]) := by
  have hrequest : SignedRequest E B (s.store dir) s.canon
      (encodeRequestBlockMake child blockId cert) := (execution_invariant h₀ h).flight _ hm
  obtain ⟨hcopied, size, now, txns, key, hbuild⟩ := hrequest.of_make
  obtain ⟨id, sig, hfs⟩ := hB _ _ _ _ hbuild
  exact ⟨hcopied, now, txns, id, sig, hfs⟩

/-- In every run, a block that is sent carries the signature of the block it names as previous
exactly when the signature of the latest block fits. -/
theorem sent_block_chained_iff {s₀ : System} {child : BitVec 32} {blockId : Uuid} {cert : Bytes}
    (hB : ReadsBack E B) (h₀ : Start E dir s₀) (h : Execution E B dir (fun _ _ => True) s₀ s)
    (hm : Message.dataRequest (encodeRequestBlockMake child blockId cert) ∈ s.net) :
    ChainedBySignature E (s.store dir) cert ↔ SignatureFits E (s.store dir) := by
  obtain ⟨hcopied, now, txns, id, sig, hfs⟩ := sent_block_fields hB h₀ h hm
  exact hcopied.chained_iff hfs

end Runs

/-! ### A second block -/

def signedBlock (sig : Bytes) : Bytes :=
  encodeFields [(.blockUuid, be 16 9#128), (.previousBlockUuid, be 16 1#128),
    (.blockHeight, be 8 1#64), (.wrappedTransactionTuple, transactionCert 5 0 7 1),
    (.signature, sig)]

def signedCalls (sig : Bytes) : List Invocation :=
  [workingCall (.transactionSubmit 5 7 (transactionCert 5 0 7 1)),
    workingCall (.blockMake 9 (signedBlock sig)),
    workingCall (.transactionSubmit 6 7 (transactionCert 6 5 7 2))]

def signedStore (sig : Bytes) : Store := (runCalls (codecEnv false) (signedCalls sig)).2

def secondRound (sig : Bytes) : Option System :=
  execute (codecEnv false) sizedBuilder [47] (fun _ _ => true) (startSystem (signedStore sig))
    (startActions 10 11 ++ exchanges 4)

theorem start_signedStore {sig : Bytes} (hsig : (signedBlock sig).length < maxPayload) :
    Start (codecEnv false) [47] (startSystem (signedStore sig)) := by
  have hcalls : ∀ i ∈ signedCalls sig, i.request.Decoded := by
    simp only [signedCalls, List.mem_cons, List.not_mem_nil, or_false]
    rintro i (rfl | rfl | rfl)
    · exact ⟨by decide, by decide⟩
    · exact hsig
    · exact ⟨by decide, by decide⟩
  have hrun : Run (codecEnv false) (fun _ i => i.request.Decoded)
      (runCalls (codecEnv false) (signedCalls sig)).1 (signedStore sig) :=
    run_runCalls (allowedFrom_of_forall hcalls emptyStore)
  exact start_startSystem hrun

/-- What the second round sends behind a signature. -/
theorem second_round_sends {sig : Bytes} {packet : Bytes} {hash : Option Bytes}
    (hrun : (secondRound sig).map (fun s => (s.net, hashBehind (codecEnv false) (s.store [47])
      (latestBlock (codecEnv false) (s.store [47])))) = some ([.dataRequest packet], hash)) :
    ∃ s, Execution (codecEnv false) sizedBuilder [47] (fun _ _ => True)
        (startSystem (signedStore sig)) s ∧ Message.dataRequest packet ∈ s.net ∧
      hashBehind (codecEnv false) (s.store [47])
        (latestBlock (codecEnv false) (s.store [47])) = hash := by
  obtain ⟨s, hs, heq⟩ := Option.map_eq_some_iff.mp hrun
  obtain ⟨hnet, hhash⟩ := Prod.mk.inj heq
  exact ⟨s, execution_of_execute (fun _ _ _ => trivial) .refl hs, by simp [hnet], hhash⟩

theorem second_block_is_chained : ∃ s cert,
    Execution (codecEnv false) sizedBuilder [47] (fun _ _ => True)
      (startSystem (signedStore (List.replicate signatureSize 7))) s ∧
    Message.dataRequest (encodeRequestBlockMake 1023 11 cert) ∈ s.net ∧
    ChainedBySignature (codecEnv false) (s.store [47]) cert := by
  have hsize : (signedBlock (List.replicate signatureSize 7)).length < maxPayload := by
    decide +kernel
  obtain ⟨cert, hrun⟩ : ∃ cert, (secondRound (List.replicate signatureSize 7)).map (fun s =>
      (s.net, hashBehind (codecEnv false) (s.store [47])
        (latestBlock (codecEnv false) (s.store [47])))) =
      some ([.dataRequest (encodeRequestBlockMake 1023 11 cert)],
        some (List.replicate signatureSize 7)) :=
    ⟨(((secondRound (List.replicate signatureSize 7)).map fun s =>
      s.net.filterMap isDataRequest).getD []).flatten.drop 24, by decide +kernel⟩
  obtain ⟨s, hexec, hmem, hhash⟩ := second_round_sends hrun
  exact ⟨s, cert, hexec, hmem, (sent_block_chained_iff readsBack_sizedBuilder
    (start_signedStore hsize) hexec hmem).mpr ⟨_, hhash, by simp⟩⟩

/-- The latest block has a signature of one byte; the block behind it carries zeros. -/
theorem odd_signature_is_skipped : ∃ s cert,
    ReadsBack (codecEnv false) sizedBuilder ∧
    Start (codecEnv false) [47] (startSystem (signedStore [7])) ∧
    Execution (codecEnv false) sizedBuilder [47] (fun _ _ => True)
      (startSystem (signedStore [7])) s ∧
    Message.dataRequest (encodeRequestBlockMake 1023 11 cert) ∈ s.net ∧
    ¬ ChainedBySignature (codecEnv false) (s.store [47]) cert := by
  have hsize : (signedBlock [7]).length < maxPayload := by decide +kernel
  obtain ⟨cert, hrun⟩ : ∃ cert, (secondRound [7]).map (fun s =>
      (s.net, hashBehind (codecEnv false) (s.store [47])
        (latestBlock (codecEnv false) (s.store [47])))) =
      some ([.dataRequest (encodeRequestBlockMake 1023 11 cert)], some [7]) :=
    ⟨(((secondRound [7]).map fun s => s.net.filterMap isDataRequest).getD []).flatten.drop 24,
      by decide +kernel⟩
  obtain ⟨s, hexec, hmem, hhash⟩ := second_round_sends hrun
  have hstart := start_signedStore hsize
  obtain ⟨hcopied, now, txns, id, sig, hfs⟩ :=
    sent_block_fields readsBack_sizedBuilder hstart hexec hmem
  refine ⟨s, cert, readsBack_sizedBuilder, hstart, hexec, hmem, fun hchained => ?_⟩
  obtain ⟨hash, hbehind, hfits⟩ := (hcopied.chained_iff hfs).mp hchained
  obtain rfl := Option.some.inj (hhash.symm.trans hbehind)
  exact absurd hfits (by decide)

end SignedBlocks
