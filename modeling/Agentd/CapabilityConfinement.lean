import Agentd.ChildContexts

/-! # Capability confinement

Authority only shrinks: root context creation happens once, child contexts get a part of what the
root context has at that time, and every operation on the databases goes through an open child
context that holds the bit of the operation. `served_cases` says everything a packet can lead to. -/
namespace CapabilityConfinement

open ByteString
open FaultyTransactions
open DataserviceRecords
open DataserviceStore
open DataserviceRequests
open DataserviceDispatch
open ChildContexts

/-! ### Capability sets -/

def Within (a b : Bitcap) : Prop := a &&& b = a

theorem Within.refl (a : Bitcap) : Within a a := BitVec.and_self

theorem Within.trans {a b c : Bitcap} (h : Within a b) (h' : Within b c) : Within a c := by
  have hab : a &&& b = a := h
  have hbc : b &&& c = b := h'
  show a &&& c = a
  calc a &&& c = (a &&& b) &&& c := by rw [hab]
    _ = a &&& (b &&& c) := BitVec.and_assoc a b c
    _ = a := by rw [hbc, hab]

theorem within_intersect_left (a b : Bitcap) : Within (bitcapIntersect a b) a := by
  show a &&& b &&& a = a &&& b
  rw [BitVec.and_assoc, BitVec.and_comm b a, ← BitVec.and_assoc, BitVec.and_self]

theorem within_setFalse (a : Bitcap) (cap : ApiCap) : Within (bitcapSetFalse a cap) a :=
  within_intersect_left a _

theorem isset_setFalse (a : Bitcap) (cap : ApiCap) :
    bitcapIsset (bitcapSetFalse a cap) cap = false := by
  have hzero : a &&& ~~~bitcapMask cap &&& bitcapMask cap = 0 := by
    rw [BitVec.and_assoc, BitVec.and_comm (~~~bitcapMask cap), BitVec.and_not_self]
    exact BitVec.and_zero
  simp [bitcapIsset, bitcapSetFalse, hzero]

theorem Within.isset {a b : Bitcap} {cap : ApiCap} (h : Within a b)
    (hb : bitcapIsset b cap = false) : bitcapIsset a cap = false := by
  have hab : a &&& b = a := h
  have hzero : b &&& bitcapMask cap = 0 := by simpa [bitcapIsset] using hb
  have hmask : a &&& bitcapMask cap = 0 := by
    rw [← hab, BitVec.and_assoc, hzero]
    exact BitVec.and_zero
  simp [bitcapIsset, hmask]

/-! ### What a packet can lead to -/

/-- A response without data that reports an error, or none. -/
def Refused (resp : Option Response) : Prop :=
  ∀ r, resp = some r → (∃ e, r.status = .error e) ∧ r.payload = none

def NoData (resp : Option Response) : Prop := ∀ r, resp = some r → r.payload = none

/-- A response whose only data is the index of a child context. -/
def Announced (i : Fin maxChildContexts) (resp : Option Response) : Prop :=
  ∀ r, resp = some r → r.method = Method.llChildContextCreate.code ∧
    r.payload = some (be 4 (BitVec.ofNat 32 i))

def Names (d : Delivery) (method : BitVec 32) (req : Bytes) : Prop :=
  4 ≤ d.packet.length ∧ bits 32 (d.packet.take 4) = method ∧ d.packet.drop 4 = req

structure RootCreated (s : Service) (d : Delivery) (s' : Service) : Prop where
  request : ∃ req datadir, Names d Method.llRootContextCreate.code req ∧
    decodeRequestRootContextInit d.datadirAllocFails req = .ok datadir
  authorized : bitcapIsset s.inst.apicaps .llRootContextCreate = true
  caps : s'.inst.apicaps = bitcapSetFalse (BitVec.allOnes 32) .llRootContextCreate
  children : s'.inst.children = s.inst.children ∧ s'.inst.childHead = s.inst.childHead
  disk : s'.disk = s.disk

structure RootReduced (s : Service) (d : Delivery) (s' : Service) : Prop where
  authorized : bitcapIsset s.inst.apicaps .llRootContextReduceCaps = true
  caps : ∃ req caps, Names d Method.llRootContextReduceCaps.code req ∧ decodeCaps req = .ok caps ∧
    s'.inst = { s.inst with apicaps := bitcapIntersect s.inst.apicaps caps }
  disk : s'.disk = s.disk

structure ChildCreated (s : Service) (d : Delivery) (caps : Bitcap) (i : Fin maxChildContexts)
    (s' : Service) : Prop where
  request : ∃ req, Names d Method.llChildContextCreate.code req ∧ decodeCaps req = .ok caps
  authorized : bitcapIsset s.inst.apicaps .llChildContextCreate = true
  slot : s.inst.childHead = some i
  instance_eq : s'.inst = { s.inst with
    childHead := (s.inst.children i).next
    children := Function.update s.inst.children i ⟨true, none, true,
      bitcapSetFalse (bitcapIntersect s.inst.apicaps caps) .llChildContextCreate⟩ }
  disk : s'.disk = s.disk

structure ChildClosed (s : Service) (d : Delivery) (i : Fin maxChildContexts) (s' : Service) :
    Prop where
  request : ∃ req rest, Names d Method.llChildContextClose.code req ∧
    requestInit req = .ok (BitVec.ofNat 32 i, rest)
  isOpen : (s.inst.children i).dispose = true
  authorized : bitcapIsset (s.inst.children i).childcaps .llChildContextClose = true
  instance_eq : s'.inst = childDetailsDelete { s.inst with
    children := Function.update s.inst.children i
      { s.inst.children i with root := false, childcaps := 0 } } i
  disk : s'.disk = s.disk

/-- A packet for an operation on the databases that names the open child context `i`, which holds
the bit with the number of the method. -/
structure Authorized (s : Service) (d : Delivery) (i : Fin maxChildContexts) : Prop where
  request : ∃ p ∈ childOperations, ∃ req r, Names d p.1.code req ∧ p.2 req = .ok r ∧
    r.childIndex = BitVec.ofNat 32 i ∧ r.request.capability.ctorIdx = p.1.ctorIdx ∧
    bitcapIsset (s.inst.children i).childcaps r.request.capability = true
  isOpen : (s.inst.children i).dispose = true

section Handlers

variable {E : Env} {s s' : Service} {d : Delivery} {req : Bytes} {resp : Option Response}
  {st : Except AgentdError Unit}

theorem writeStatus_ne_none {m off : BitVec 32} {status : Except AgentdError Unit}
    {payload : Option Bytes} : writeStatus d s m off status payload ≠ none := by
  unfold writeStatus
  split
  · simp
  · simp
  · simp

theorem writeStatus_cases {m off : BitVec 32} {status : Except AgentdError Unit}
    {payload : Option Bytes} (h : writeStatus d s m off status payload = some (s', resp, st)) :
    s' = s ∧ ∀ r, resp = some r → r.method = m ∧ r.status = status ∧ r.payload = payload := by
  unfold writeStatus at h
  split at h
  · cases h
    refine ⟨rfl, ?_⟩
    rintro r ⟨⟩
    exact ⟨rfl, rfl, rfl⟩
  · cases h
    exact ⟨rfl, by simp⟩
  · cases h
    exact ⟨rfl, by simp⟩

theorem writeStatus_refused {m off : BitVec 32} {e : AgentdError}
    (h : writeStatus d s m off (.error e) none = some (s', resp, st)) : s' = s ∧ Refused resp := by
  obtain ⟨hs, hr⟩ := writeStatus_cases h
  exact ⟨hs, fun r hresp => ⟨⟨e, (hr r hresp).2.1⟩, (hr r hresp).2.2⟩⟩

theorem writeStatus_noData {m off : BitVec 32} {status : Except AgentdError Unit}
    (h : writeStatus d s m off status none = some (s', resp, st)) : s' = s ∧ NoData resp := by
  obtain ⟨hs, hr⟩ := writeStatus_cases h
  exact ⟨hs, fun r hresp => (hr r hresp).2.2⟩

theorem dispatchRootContextCreate_cases (hn : Names d Method.llRootContextCreate.code req)
    (h : dispatchRootContextCreate s d req = some (s', resp, st)) :
    (s' = s ∧ Refused resp) ∨ (RootCreated s d s' ∧ NoData resp) := by
  unfold dispatchRootContextCreate at h
  split at h
  · cases h
    exact Or.inl ⟨rfl, by rintro r ⟨⟩⟩
  · rename_i datadir hdir
    by_cases hcap : bitcapIsset s.inst.apicaps .llRootContextCreate = false
    · rw [rootContextInit, if_pos hcap] at h
      exact Or.inl (writeStatus_refused h)
    · rw [rootContextInit, if_neg hcap] at h
      obtain ⟨rfl, hdata⟩ := writeStatus_noData h
      exact Or.inr ⟨⟨⟨req, datadir, hn, hdir⟩, by simpa using hcap, rfl, ⟨rfl, rfl⟩, rfl⟩, hdata⟩

theorem dispatchRootContextReduceCaps_cases (hn : Names d Method.llRootContextReduceCaps.code req)
    (h : dispatchRootContextReduceCaps s d req = some (s', resp, st)) :
    (s' = s ∧ Refused resp) ∨ (RootReduced s d s' ∧ NoData resp) := by
  unfold dispatchRootContextReduceCaps at h
  split at h
  · exact Or.inl (writeStatus_refused h)
  · rename_i caps hcaps
    by_cases hcap : bitcapIsset s.inst.apicaps .llRootContextReduceCaps = false
    · rw [rootContextReduceCapabilities, if_pos hcap] at h
      exact Or.inl (writeStatus_refused h)
    · rw [rootContextReduceCapabilities, if_neg hcap] at h
      obtain ⟨rfl, hdata⟩ := writeStatus_noData h
      exact Or.inr ⟨⟨by simpa using hcap, ⟨req, caps, hn, hcaps, rfl⟩, rfl⟩, hdata⟩

theorem childContextLookup_ok {inst : Instance} {offset : BitVec 32} {i : Fin maxChildContexts}
    (h : childContextLookup inst offset = .ok i) :
    offset = BitVec.ofNat 32 i ∧ (inst.children i).dispose = true := by
  unfold childContextLookup at h
  split at h
  · split at h
    · cases h
    · rename_i hlt hopen
      cases h
      exact ⟨by simp, by simpa using hopen⟩
  · cases h

theorem dispatchChildContextClose_cases (hn : Names d Method.llChildContextClose.code req)
    (h : dispatchChildContextClose s d req = some (s', resp, st)) :
    (s' = s ∧ Refused resp) ∨ ((∃ i, ChildClosed s d i s') ∧ NoData resp) := by
  unfold dispatchChildContextClose at h
  simp only at h
  split at h
  · exact Or.inl (writeStatus_refused h)
  · rename_i childIndex rest hinit
    split at h
    · exact Or.inl (writeStatus_refused h)
    · rename_i i hi
      obtain ⟨hindex, hopen⟩ := childContextLookup_ok hi
      by_cases hcap : bitcapIsset (s.inst.children i).childcaps .llChildContextClose = false
      · rw [childContextClose, if_pos hcap] at h
        exact Or.inl (writeStatus_refused h)
      · rw [childContextClose, if_neg hcap] at h
        obtain ⟨rfl, hdata⟩ := writeStatus_noData h
        refine Or.inr ⟨⟨i, ⟨req, rest, hn, ?_⟩, hopen, by simpa using hcap, rfl, rfl⟩, hdata⟩
        rw [hinit, hindex]

/-- A child context that is not kept is returned to the free list as it was. -/
theorem dispatchChildContextCreate_cases {free : List (Fin maxChildContexts)}
    (hfree : Slots s.inst free) (hn : Names d Method.llChildContextCreate.code req)
    (h : dispatchChildContextCreate s d req = some (s', resp, st)) :
    (s' = s ∧ Refused resp) ∨
      ∃ caps i, ChildCreated s d caps i s' ∧ Announced i resp := by
  unfold dispatchChildContextCreate at h
  simp only at h
  split at h
  · exact Or.inl (writeStatus_refused h)
  · rename_i caps hcaps
    split at h
    · exact Or.inl (writeStatus_refused h)
    · rename_i inst i hcreate
      obtain ⟨rest, rfl, hhead, rfl⟩ := hfree.create hcreate
      by_cases hcap : bitcapIsset s.inst.apicaps .llChildContextCreate = false
      · rw [childContextCreate, if_pos hcap] at h
        simp only [hfree.giveBack] at h
        exact Or.inl (writeStatus_refused h)
      · have hself : ¬ bitcapIsset (bitcapSetTrue clearedChild.childcaps .llChildContextCreate)
            .llChildContextCreate = false := by decide
        rw [childContextCreate, if_neg hcap] at h
        simp only [Function.update_self, if_neg hself, hfree.giveBack] at h
        split at h
        · exact Or.inl (writeStatus_refused h)
        · obtain ⟨rfl, hresp⟩ := writeStatus_cases h
          refine Or.inr ⟨caps, i, ⟨⟨req, hn, hcaps⟩, by simpa using hcap, hhead, ?_, rfl⟩,
            fun r hr => ⟨(hresp r hr).1, (hresp r hr).2.2⟩⟩
          simp only [Function.update_idem]
          rfl

/-- Without an open environment no operation ends well. -/
theorem performUnopened_error (E : Env) (i : Invocation) (a : Reply) :
    performUnopened E i ≠ .ok a := by
  unfold performUnopened
  split
  · simp
  · simp
  · split
    · simp
    · simp

/-- A call without its capability is refused at once. -/
theorem run_unauthorized {caps : Bitcap} {r : Request} {f : FaultPattern} {t : OpState}
    (h : bitcapIsset caps r.capability = false) :
    (r.run E caps).run f t = .stop (.fail .notAuthorized) t := by
  have hstop : (authorize caps r.capability).run f t = .stop (.fail .notAuthorized) t := by
    rw [authorize, Prog.reject, if_pos h]
    rfl
  cases r <;> exact Prog.run_bind_stop _ (Prog.run_bind_stop _ hstop)

theorem performChild_undefined {i : Fin maxChildContexts} {r : Request}
    (h : performChild E s i d r = (.error .undefined, s')) :
    bitcapIsset (s.inst.children i).childcaps r.capability = true := by
  by_contra hcap
  rw [Bool.not_eq_true] at hcap
  unfold performChild at h
  simp only at h
  split at h
  · have hout := (Prod.mk.inj h).1
    rw [perform, run_unauthorized hcap] at hout
    cases hout
  · have hout := (Prod.mk.inj h).1
    rw [performUnopened, run_unauthorized hcap] at hout
    simp at hout

theorem performChild_fail {i : Fin maxChildContexts} {r : Request} {e : AgentdError}
    (h : performChild E s i d r = (.error (.fail e), s')) : s' = s := by
  unfold performChild at h
  simp only at h
  split at h
  · rename_i datadir _ hdetails
    obtain ⟨hout, rfl⟩ := Prod.mk.inj h
    have hstore := perform_error (E := E) (d := s.disk datadir)
      (i := ⟨r, (s.inst.children i).childcaps, d.faults, d.commitFails⟩)
      (fun a hok => by rw [hok] at hout; cases hout)
    rw [hstore, Function.update_eq_self]
  · exact (Prod.mk.inj h).2.symm

theorem performChild_ok {i : Fin maxChildContexts} {r : Request} {a : Reply}
    (h : performChild E s i d r = (.ok a, s')) :
    bitcapIsset (s.inst.children i).childcaps r.capability = true ∧ s'.inst = s.inst := by
  unfold performChild at h
  simp only at h
  split at h
  · obtain ⟨hout, rfl⟩ := Prod.mk.inj h
    obtain ⟨_, hcap, -, -⟩ := perform_ok hout
    exact ⟨hcap, rfl⟩
  · exact (performUnopened_error E _ a (Prod.mk.inj h).1).elim

theorem decodeRequest_ok {sizeOk : ℕ → Bool} {request : Bytes → Request} {readCert : Bytes → Bool}
    {r : DecodedRequest} (h : decodeRequest sizeOk request readCert req = .ok r) :
    ∃ args, requestInit req = .ok (r.childIndex, args) ∧ sizeOk args.length = true ∧
      r.request = request args ∧ r.readCert = readCert args := by
  unfold decodeRequest at h
  cases hinit : requestInit req with
  | error e =>
    rw [hinit] at h
    cases h
  | ok p =>
    rw [hinit] at h
    by_cases hs : sizeOk p.2.length = true
    · simp only [bind, Except.bind, if_pos hs] at h
      cases h
      exact ⟨p.2, rfl, hs, rfl, rfl⟩
    · simp only [bind, Except.bind, if_neg hs] at h
      cases h

/-- A method code outside the four management methods is looked up in the table of operations. -/
theorem handlerOf_cases {code : BitVec 32} {handler : Handler} (h : handlerOf code = some handler) :
    (handler = .rootContextCreate ∧ code = Method.llRootContextCreate.code) ∨
      (handler = .rootContextReduceCaps ∧ code = Method.llRootContextReduceCaps.code) ∨
      (handler = .childContextCreate ∧ code = Method.llChildContextCreate.code) ∨
      (handler = .childContextClose ∧ code = Method.llChildContextClose.code) ∨
      ∃ p ∈ childOperations, handler = .childRequest p.1 p.2 ∧ code = p.1.code := by
  unfold handlerOf at h
  split at h
  · cases h
    exact Or.inl ⟨rfl, by assumption⟩
  split at h
  · cases h
    exact Or.inr (Or.inl ⟨rfl, by assumption⟩)
  split at h
  · cases h
    exact Or.inr (Or.inr (Or.inl ⟨rfl, by assumption⟩))
  split at h
  · cases h
    exact Or.inr (Or.inr (Or.inr (Or.inl ⟨rfl, by assumption⟩)))
  obtain ⟨p, hp, rfl⟩ := Option.map_eq_some_iff.mp h
  have hcode := List.find?_some hp
  exact Or.inr (Or.inr (Or.inr (Or.inr
    ⟨p, List.mem_of_find?_eq_some hp, rfl, by simpa using hcode⟩)))

/-- The decoders of the table differ in their sizes and fields only. Each asks for an operation that
checks the capability bit with the number of its method. -/
theorem childOperations_decode {p : Method × (Bytes → Except AgentdError DecodedRequest)}
    (hp : p ∈ childOperations) : ∃ sizeOk request readCert,
      p.2 = decodeRequest sizeOk request readCert ∧
      ∀ args, (request args).capability.ctorIdx = p.1.ctorIdx := by
  simp only [childOperations, List.mem_cons, List.not_mem_nil, or_false] at hp
  rcases hp with rfl | rfl | rfl | rfl | rfl | rfl | rfl | rfl | rfl | rfl | rfl | rfl | rfl <;>
  · simp only [decodeRequestGlobalSettingGet, decodeRequestGlobalSettingSet,
      decodeRequestTransactionSubmit, decodeRequestTransactionGetFirst, decodeRequestTransactionGet,
      decodeRequestTransactionDrop, decodeRequestTransactionPromote, decodeRequestArtifactRead,
      decodeRequestBlockMake, decodeRequestBlockRead, decodeRequestBlockIdByHeightRead,
      decodeRequestBlockIdLatestRead, decodeRequestCanonizedTransactionGet]
    refine ⟨_, _, _, rfl, ?_⟩
    intro args
    rfl

theorem childOperations_capability {p : Method × (Bytes → Except AgentdError DecodedRequest)}
    (hp : p ∈ childOperations) {r : DecodedRequest} (hr : p.2 req = .ok r) :
    r.request.capability.ctorIdx = p.1.ctorIdx := by
  obtain ⟨sizeOk, request, readCert, hdec, hcap⟩ := childOperations_decode hp
  rw [hdec] at hr
  obtain ⟨args, -, -, hreq, -⟩ := decodeRequest_ok hr
  rw [hreq]
  exact hcap args

theorem dispatchChildRequest_cases {p : Method × (Bytes → Except AgentdError DecodedRequest)}
    (hp : p ∈ childOperations) (hn : Names d p.1.code req)
    (h : dispatchChildRequest p.1 p.2 E s d req = some (s', resp, st)) :
    (s' = s ∧ Refused resp) ∨ ∃ i, Authorized s d i ∧ s'.inst = s.inst := by
  unfold dispatchChildRequest at h
  split at h
  · exact Or.inl (writeStatus_refused h)
  · rename_i r hr
    split at h
    · exact Or.inl (writeStatus_refused h)
    · rename_i i hi
      obtain ⟨hindex, hopen⟩ := childContextLookup_ok hi
      split at h
      · cases h
      · rename_i e s₁ hfail
        rw [performChild_fail hfail] at h
        exact Or.inl (writeStatus_refused h)
      · rename_i a s₁ hok
        obtain ⟨hcap, hinst⟩ := performChild_ok hok
        have hs : s' = s₁ := by
          split at h
          · exact (writeStatus_cases h).1
          · exact (writeStatus_cases h).1
        subst hs
        exact Or.inr ⟨i, ⟨⟨p, hp, req, r, hn, hr, hindex, childOperations_capability hp hr, hcap⟩,
          hopen⟩, hinst⟩

theorem dispatchChildRequest_undefined
    {p : Method × (Bytes → Except AgentdError DecodedRequest)}
    (hp : p ∈ childOperations) (hn : Names d p.1.code req)
    (h : dispatchChildRequest p.1 p.2 E s d req = none) : ∃ i, Authorized s d i := by
  unfold dispatchChildRequest at h
  split at h
  · exact (writeStatus_ne_none h).elim
  · rename_i r hr
    split at h
    · exact (writeStatus_ne_none h).elim
    · rename_i i hi
      obtain ⟨hindex, hopen⟩ := childContextLookup_ok hi
      split at h
      · rename_i hundef
        have hcap := performChild_undefined hundef
        exact ⟨i, ⟨p, hp, req, r, hn, hr, hindex, childOperations_capability hp hr, hcap⟩, hopen⟩
      · exact (writeStatus_ne_none h).elim
      · split at h
        · exact (writeStatus_ne_none h).elim
        · exact (writeStatus_ne_none h).elim

/-- Everything a packet can lead to. -/
theorem served_cases {free : List (Fin maxChildContexts)} (hfree : Slots s.inst free)
    (h : decodeAndDispatch E s d = some (s', resp, st)) :
    (s' = s ∧ Refused resp) ∨ (RootCreated s d s' ∧ NoData resp) ∨
      (RootReduced s d s' ∧ NoData resp) ∨
      (∃ caps i, ChildCreated s d caps i s' ∧ Announced i resp) ∨
      ((∃ i, ChildClosed s d i s') ∧ NoData resp) ∨
      ∃ i, Authorized s d i ∧ s'.inst = s.inst := by
  unfold decodeAndDispatch at h
  split at h
  · cases h
    exact Or.inl ⟨rfl, by rintro r ⟨⟩⟩
  · rename_i hlen
    have hnames : ∀ code, bits 32 (d.packet.take 4) = code →
        Names d code (d.packet.drop 4) := fun code hcode => ⟨not_lt.mp hlen, hcode, rfl⟩
    simp only at h
    split at h
    · rename_i handler hhandler
      rcases handlerOf_cases hhandler with ⟨rfl, hcode⟩ | ⟨rfl, hcode⟩ | ⟨rfl, hcode⟩ |
        ⟨rfl, hcode⟩ |
        ⟨p, hp, rfl, hcode⟩
      · rcases dispatchRootContextCreate_cases (hnames _ hcode) h with hr | hr
        · exact Or.inl hr
        · exact Or.inr (Or.inl hr)
      · rcases dispatchRootContextReduceCaps_cases (hnames _ hcode) h with hr | hr
        · exact Or.inl hr
        · exact Or.inr (Or.inr (Or.inl hr))
      · rcases dispatchChildContextCreate_cases hfree (hnames _ hcode) h with hr | hr
        · exact Or.inl hr
        · exact Or.inr (Or.inr (Or.inr (Or.inl hr)))
      · rcases dispatchChildContextClose_cases (hnames _ hcode) h with hr | hr
        · exact Or.inl hr
        · exact Or.inr (Or.inr (Or.inr (Or.inr (Or.inl hr))))
      · rcases dispatchChildRequest_cases hp (hnames _ hcode) h with hr | hr
        · exact Or.inl hr
        · exact Or.inr (Or.inr (Or.inr (Or.inr (Or.inr hr))))
    · obtain ⟨r, hr, heq⟩ := Option.map_eq_some_iff.mp h
      cases heq
      exact Or.inl (writeStatus_refused hr)

/-- Only an operation on the databases can fall into undefined behaviour, and only with its
capability. -/
theorem served_undefined (h : decodeAndDispatch E s d = none) : ∃ i, Authorized s d i := by
  unfold decodeAndDispatch at h
  split at h
  · cases h
  · rename_i hlen
    simp only at h
    split at h
    · rename_i handler hhandler
      rcases handlerOf_cases hhandler with ⟨rfl, hcode⟩ | ⟨rfl, hcode⟩ | ⟨rfl, hcode⟩ |
        ⟨rfl, hcode⟩ |
        ⟨p, hp, rfl, hcode⟩
      · simp only [Handler.serve, dispatchRootContextCreate] at h
        split at h
        · cases h
        · exact (writeStatus_ne_none h).elim
      · simp only [Handler.serve, dispatchRootContextReduceCaps] at h
        split at h
        · exact (writeStatus_ne_none h).elim
        · exact (writeStatus_ne_none h).elim
      · simp only [Handler.serve, dispatchChildContextCreate] at h
        split at h
        · exact (writeStatus_ne_none h).elim
        · split at h
          · exact (writeStatus_ne_none h).elim
          · split at h
            · exact (writeStatus_ne_none h).elim
            · split at h
              · exact (writeStatus_ne_none h).elim
              · exact (writeStatus_ne_none h).elim
      · simp only [Handler.serve, dispatchChildContextClose] at h
        split at h
        · exact (writeStatus_ne_none h).elim
        · split at h
          · exact (writeStatus_ne_none h).elim
          · split at h
            · exact (writeStatus_ne_none h).elim
            · exact (writeStatus_ne_none h).elim
      · exact dispatchChildRequest_undefined hp ⟨not_lt.mp hlen, hcode, rfl⟩ h
    · exact (writeStatus_ne_none (Option.map_eq_none_iff.mp h)).elim

end Handlers

/-! ### Whole runs -/

structure Step where
  before : Service
  delivery : Delivery
  after : Service
  response : Option Response
  status : Except AgentdError Unit

/-- Packets served one after the other by a new instance over some data directories. A packet that
leads to undefined behaviour has no next state. -/
inductive Serving (E : Env) (disk : Bytes → Store) : List Step → Service → Prop
  | nil : Serving E disk [] ⟨instanceCreate, disk⟩
  | snoc {log : List Step} {s s' : Service} {d : Delivery} {resp : Option Response}
      {st : Except AgentdError Unit} (earlier : Serving E disk log s)
      (served : decodeAndDispatch E s d = some (s', resp, st)) :
      Serving E disk (log ++ [⟨s, d, s', resp, st⟩]) s'

/-- The entry of child context `i` is the one its creation made, and none of the later steps touched
it. -/
def MadeBy (log : List Step) (s : Service) (i : Fin maxChildContexts) : Prop :=
  ∃ l₁ t l₂ caps, log = l₁ ++ t :: l₂ ∧ ChildCreated t.before t.delivery caps i t.after ∧
    (∀ u ∈ l₂, u.after.inst.children i = t.after.inst.children i) ∧
    s.inst.children i = t.after.inst.children i

structure Confined (log : List Step) (s : Service) : Prop where
  slots : ∃ free, Slots s.inst free
  /-- Nothing happens before the root context is created. -/
  uncreated : (∀ t ∈ log, ¬ RootCreated t.before t.delivery t.after) → s.inst = instanceCreate
  root : ∀ t ∈ log, RootCreated t.before t.delivery t.after →
    Within s.inst.apicaps t.after.inst.apicaps
  children : ∀ i, (s.inst.children i).dispose = true → MadeBy log s i

section Runs

variable {E : Env} {disk : Bytes → Store} {log : List Step} {s s' : Service} {d : Delivery}
  {resp : Option Response} {st : Except AgentdError Unit}

theorem RootCreated.uncapped (h : RootCreated s d s') :
    bitcapIsset s'.inst.apicaps .llRootContextCreate = false := by
  rw [h.caps]
  exact isset_setFalse _ _

/-- The root context is not created a second time. -/
theorem Confined.rootOnce (h : Confined log s) {t : Step} (ht : t ∈ log)
    (hroot : RootCreated t.before t.delivery t.after) :
    bitcapIsset s.inst.apicaps .llRootContextCreate = false :=
  (h.root t ht hroot).isset hroot.uncapped

theorem MadeBy.snoc {i : Fin maxChildContexts} (h : MadeBy log s i)
    (hkeep : s'.inst.children i = s.inst.children i) :
    MadeBy (log ++ [⟨s, d, s', resp, st⟩]) s' i := by
  obtain ⟨l₁, t, l₂, caps, rfl, hmade, hsince, hnow⟩ := h
  refine ⟨l₁, t, l₂ ++ [⟨s, d, s', resp, st⟩], caps, by simp, hmade, ?_, hkeep.trans hnow⟩
  intro u hu
  rcases List.mem_append.mp hu with hu | hu
  · exact hsince u hu
  · rw [List.mem_singleton.mp hu]
    exact hkeep.trans hnow

theorem confined_nil (hnew : s.inst = instanceCreate) : Confined [] s := by
  have hslots := slots_instanceCreate
  rw [← hnew] at hslots
  refine ⟨⟨_, hslots⟩, fun _ => hnew, fun t ht => absurd ht List.not_mem_nil, ?_⟩
  intro i hopen
  have hfree := not_open_instanceCreate i
  rw [← hnew] at hfree
  exact absurd (hopen.symm.trans hfree) (by decide)

/-- One packet keeps the free list in order. -/
theorem served_slots {free : List (Fin maxChildContexts)} (hfree : Slots s.inst free)
    (h : decodeAndDispatch E s d = some (s', resp, st)) : ∃ free', Slots s'.inst free' := by
  rcases served_cases hfree h with ⟨rfl, -⟩ | ⟨hr, -⟩ | ⟨hr, -⟩ | ⟨caps, i, hc, -⟩ | ⟨⟨i, hc⟩, -⟩ |
    ⟨i, -, hinst⟩
  · exact ⟨free, hfree⟩
  · exact ⟨free, hfree.congr hr.children.1 hr.children.2⟩
  · obtain ⟨req, caps, -, -, hinst⟩ := hr.caps
    exact ⟨free, hfree.congr (by rw [hinst]) (by rw [hinst])⟩
  · obtain ⟨rest, rfl⟩ := hfree.head hc.slot
    rw [hc.instance_eq]
    exact ⟨rest, hfree.keep rfl⟩
  · rw [hc.instance_eq]
    exact ⟨i :: free, hfree.delete hc.isOpen⟩
  · rw [hinst]
    exact ⟨free, hfree⟩

/-- One packet creates the root context, or the root capabilities gain nothing. -/
theorem served_within {free : List (Fin maxChildContexts)} (hfree : Slots s.inst free)
    (h : decodeAndDispatch E s d = some (s', resp, st)) :
    RootCreated s d s' ∨ Within s'.inst.apicaps s.inst.apicaps := by
  rcases served_cases hfree h with ⟨rfl, -⟩ | ⟨hr, -⟩ | ⟨hr, -⟩ | ⟨caps, i, hc, -⟩ | ⟨⟨i, hc⟩, -⟩ |
    ⟨i, -, hinst⟩
  · exact Or.inr (Within.refl _)
  · exact Or.inl hr
  · obtain ⟨req, caps, -, -, hinst⟩ := hr.caps
    rw [hinst]
    exact Or.inr (within_intersect_left _ _)
  · rw [hc.instance_eq]
    exact Or.inr (Within.refl _)
  · rw [hc.instance_eq]
    exact Or.inr (Within.refl _)
  · rw [hinst]
    exact Or.inr (Within.refl _)

/-- The only packet with an effect on a new instance is the one that creates the root context. -/
theorem served_new (hnew : s.inst = instanceCreate)
    (h : decodeAndDispatch E s d = some (s', resp, st)) :
    RootCreated s d s' ∨ s'.inst = instanceCreate := by
  have hcaps : s.inst.apicaps = bitcapSetTrue 0 .llRootContextCreate := by
    rw [hnew, apicaps_instanceCreate]
  have hclosed : ∀ i, (s.inst.children i).dispose ≠ true := by
    intro i
    rw [hnew, not_open_instanceCreate i]
    decide
  rcases served_cases (hnew ▸ slots_instanceCreate) h with ⟨rfl, -⟩ | ⟨hr, -⟩ | ⟨hr, -⟩ |
    ⟨caps, i, hc, -⟩ | ⟨⟨i, hc⟩, -⟩ | ⟨i, -, hinst⟩
  · exact Or.inr hnew
  · exact Or.inl hr
  · have hbit := hr.authorized
    rw [hcaps] at hbit
    exact absurd hbit (by decide)
  · have hbit := hc.authorized
    rw [hcaps] at hbit
    exact absurd hbit (by decide)
  · exact absurd hc.isOpen (hclosed i)
  · exact Or.inr (hinst.trans hnew)

/-- One packet creates or closes child context `i`, or leaves its entry alone. -/
theorem served_child {free : List (Fin maxChildContexts)} (hfree : Slots s.inst free)
    (h : decodeAndDispatch E s d = some (s', resp, st)) (i : Fin maxChildContexts) :
    (∃ caps, ChildCreated s d caps i s') ∨ (s'.inst.children i).dispose = false ∨
      s'.inst.children i = s.inst.children i := by
  rcases served_cases hfree h with ⟨rfl, -⟩ | ⟨hr, -⟩ | ⟨hr, -⟩ | ⟨caps, j, hc, -⟩ | ⟨⟨j, hc⟩, -⟩ |
    ⟨j, -, hinst⟩
  · exact Or.inr (Or.inr rfl)
  · exact Or.inr (Or.inr (congrFun hr.children.1 i))
  · obtain ⟨req, caps, -, -, hinst⟩ := hr.caps
    exact Or.inr (Or.inr (by rw [hinst]))
  · by_cases hij : i = j
    · subst hij
      exact Or.inl ⟨caps, hc⟩
    · rw [hc.instance_eq]
      exact Or.inr (Or.inr (Function.update_of_ne hij _ _))
  · rw [hc.instance_eq]
    by_cases hij : i = j
    · subst hij
      simp [childDetailsDelete, clearedChild]
    · simp [childDetailsDelete, Function.update_of_ne hij]
  · exact Or.inr (Or.inr (by rw [hinst]))

theorem Confined.snoc (h : Confined log s)
    (hserved : decodeAndDispatch E s d = some (s', resp, st)) :
    Confined (log ++ [⟨s, d, s', resp, st⟩]) s' := by
  obtain ⟨free, hfree⟩ := h.slots
  refine ⟨served_slots hfree hserved, ?_, ?_, ?_⟩
  · intro hnone
    have hnew : s.inst = instanceCreate :=
      h.uncreated fun t ht => hnone t (List.mem_append_left _ ht)
    rcases served_new hnew hserved with hr | hr
    · exact absurd hr (hnone ⟨s, d, s', resp, st⟩ (by simp))
    · exact hr
  · intro t ht hroot
    rcases List.mem_append.mp ht with ht | ht
    · rcases served_within hfree hserved with hr | hr
      · have hbit := h.rootOnce ht hroot
        exact absurd (hr.authorized.symm.trans hbit) (by decide)
      · exact hr.trans (h.root t ht hroot)
    · rw [List.mem_singleton.mp ht]
      exact Within.refl _
  · intro i hopen
    rcases served_child hfree hserved i with ⟨caps, hc⟩ | hclosed | hkeep
    · exact ⟨log, _, [], caps, rfl, hc, by simp, rfl⟩
    · exact absurd (hopen.symm.trans hclosed) (by decide)
    · rw [hkeep] at hopen
      exact (h.children i hopen).snoc hkeep

theorem Serving.confined (h : Serving E disk log s) : Confined log s := by
  induction h with
  | nil => exact confined_nil (by dsimp only)
  | snoc earlier served ih => exact ih.snoc served

/-- The run up to a step, and the step. -/
theorem Serving.split (h : Serving E disk log s) {l₁ l₂ : List Step} {t : Step}
    (hlog : log = l₁ ++ t :: l₂) : Serving E disk l₁ t.before ∧
      decodeAndDispatch E t.before t.delivery = some (t.after, t.response, t.status) := by
  induction h generalizing l₂ with
  | nil => exact absurd hlog (by simp)
  | snoc earlier served ih =>
    rcases List.eq_nil_or_concat l₂ with rfl | ⟨l, u, rfl⟩
    · obtain ⟨rfl, heq⟩ := List.append_inj' hlog rfl
      cases heq
      exact ⟨earlier, served⟩
    · rw [List.concat_eq_append, ← List.cons_append, ← List.append_assoc] at hlog
      exact ih (List.append_inj' hlog rfl).1

theorem Names.eq {m m' : BitVec 32} {req req' : Bytes} (h : Names d m req)
    (h' : Names d m' req') : m = m' :=
  h.2.1.symm.trans h'.2.1

theorem childOperations_code :
    ∀ p ∈ childOperations, p.1.code ≠ Method.llRootContextCreate.code := by
  simp only [childOperations, List.mem_cons, List.not_mem_nil, or_false, forall_eq_or_imp,
    forall_eq]
  decide

/-- Without the root bit a packet that asks for the root context is refused. -/
theorem served_rootContextCreate {free : List (Fin maxChildContexts)} {req : Bytes}
    (hfree : Slots s.inst free) (h : decodeAndDispatch E s d = some (s', resp, st))
    (hcap : bitcapIsset s.inst.apicaps .llRootContextCreate = false)
    (hn : Names d Method.llRootContextCreate.code req) : s' = s ∧ Refused resp := by
  rcases served_cases hfree h with hr | ⟨hr, -⟩ | ⟨hr, -⟩ | ⟨caps, i, hc, -⟩ | ⟨⟨i, hc⟩, -⟩ |
    ⟨i, ha, -⟩
  · exact hr
  · exact absurd (hr.authorized.symm.trans hcap) (by decide)
  · obtain ⟨_, _, hn', -, -⟩ := hr.caps
    exact absurd (hn.eq hn') (by decide)
  · obtain ⟨_, hn', -⟩ := hc.request
    exact absurd (hn.eq hn') (by decide)
  · obtain ⟨_, _, hn', -⟩ := hc.request
    exact absurd (hn.eq hn') (by decide)
  · obtain ⟨p, hp, _, _, hn', -⟩ := ha.request
    exact absurd (hn'.eq hn) (childOperations_code p hp)

theorem ChildCreated.within {caps : Bitcap} {i : Fin maxChildContexts}
    (h : ChildCreated s d caps i s') :
    Within (s'.inst.children i).childcaps (bitcapIntersect s.inst.apicaps caps) ∧
      bitcapIsset (s'.inst.children i).childcaps .llChildContextCreate = false := by
  rw [h.instance_eq]
  simp only [Function.update_self]
  exact ⟨within_setFalse _ _, isset_setFalse _ _⟩

/-- A packet that changes a database or is answered with stored data is authorized. -/
theorem served_data {free : List (Fin maxChildContexts)} (hfree : Slots s.inst free)
    (h : decodeAndDispatch E s d = some (s', resp, st))
    (hdata : s'.disk ≠ s.disk ∨ ∃ r, resp = some r ∧ r.payload ≠ none ∧
      r.method ≠ Method.llChildContextCreate.code) : ∃ i, Authorized s d i := by
  rcases served_cases hfree h with ⟨rfl, hr⟩ | ⟨hr, hno⟩ | ⟨hr, hno⟩ | ⟨caps, i, hc, han⟩ |
    ⟨⟨i, hc⟩, hno⟩ | ⟨i, ha, -⟩
  · rcases hdata with hdisk | ⟨r, hresp, hpay, -⟩
    · exact absurd rfl hdisk
    · exact absurd (hr r hresp).2 hpay
  · rcases hdata with hdisk | ⟨r, hresp, hpay, -⟩
    · exact absurd hr.disk hdisk
    · exact absurd (hno r hresp) hpay
  · rcases hdata with hdisk | ⟨r, hresp, hpay, -⟩
    · exact absurd hr.disk hdisk
    · exact absurd (hno r hresp) hpay
  · rcases hdata with hdisk | ⟨r, hresp, -, hm⟩
    · exact absurd hc.disk hdisk
    · exact absurd (han r hresp).1 hm
  · rcases hdata with hdisk | ⟨r, hresp, hpay, -⟩
    · exact absurd hc.disk hdisk
    · exact absurd (hno r hresp) hpay
  · exact ⟨i, ha⟩

/-- In every run: until the root context is created the instance stays as new; from then on its
capabilities only shrink and it is not created again; an open child context has a part of what was
asked for and of what the root context had when it was created; packets that touch stored data, or
lead to undefined behaviour, are authorized; and a packet that is neither one of these nor an
authorized change of the contexts is refused without effect. -/
theorem capabilities_are_confined (h : Serving E disk log s) :
    (∀ l₁ t l₂, log = l₁ ++ t :: l₂ → RootCreated t.before t.delivery t.after →
      ∀ u ∈ l₂, Within u.after.inst.apicaps u.before.inst.apicaps ∧
        ∀ req, Names u.delivery Method.llRootContextCreate.code req →
          u.after = u.before ∧ Refused u.response) ∧
    ((∀ t ∈ log, ¬ RootCreated t.before t.delivery t.after) → s.inst = instanceCreate) ∧
    (∀ i, (s.inst.children i).dispose = true → ∃ l₁ t l₂ caps, log = l₁ ++ t :: l₂ ∧
      ChildCreated t.before t.delivery caps i t.after ∧
      (∀ u ∈ l₂, u.after.inst.children i = t.after.inst.children i) ∧
      Within (s.inst.children i).childcaps (bitcapIntersect t.before.inst.apicaps caps) ∧
      bitcapIsset (s.inst.children i).childcaps .llChildContextCreate = false) ∧
    (∀ t ∈ log, (t.after.disk ≠ t.before.disk ∨ ∃ r, t.response = some r ∧ r.payload ≠ none ∧
      r.method ≠ Method.llChildContextCreate.code) → ∃ i, Authorized t.before t.delivery i) ∧
    (∀ t ∈ log, (t.after = t.before ∧ Refused t.response) ∨
      RootCreated t.before t.delivery t.after ∨ RootReduced t.before t.delivery t.after ∨
      (∃ caps i, ChildCreated t.before t.delivery caps i t.after) ∨
      (∃ i, ChildClosed t.before t.delivery i t.after) ∨
      ∃ i, Authorized t.before t.delivery i ∧ t.after.inst = t.before.inst) ∧
    ∀ d, decodeAndDispatch E s d = none → ∃ i, Authorized s d i := by
  refine ⟨?_, h.confined.uncreated, ?_, ?_, ?_, ?_⟩
  · intro l₁ t l₂ hlog hroot u hu
    obtain ⟨a, b, rfl⟩ := List.append_of_mem hu
    rw [← List.cons_append, ← List.append_assoc] at hlog
    obtain ⟨hrun, hserved⟩ := h.split hlog
    obtain ⟨free, hfree⟩ := hrun.confined.slots
    have hcap := hrun.confined.rootOnce (by simp) hroot
    refine ⟨?_, fun req hn => served_rootContextCreate hfree hserved hcap hn⟩
    rcases served_within hfree hserved with hr | hw
    · exact absurd (hr.authorized.symm.trans hcap) (by decide)
    · exact hw
  · intro i hopen
    obtain ⟨l₁, t, l₂, caps, hlog, hmade, hsince, hnow⟩ := h.confined.children i hopen
    refine ⟨l₁, t, l₂, caps, hlog, hmade, hsince, ?_⟩
    rw [hnow]
    exact hmade.within
  · intro t ht hdata
    obtain ⟨l₁, l₂, hlog⟩ := List.append_of_mem ht
    obtain ⟨hrun, hserved⟩ := h.split hlog
    obtain ⟨free, hfree⟩ := hrun.confined.slots
    exact served_data hfree hserved hdata
  · intro t ht
    obtain ⟨l₁, l₂, hlog⟩ := List.append_of_mem ht
    obtain ⟨hrun, hserved⟩ := h.split hlog
    obtain ⟨free, hfree⟩ := hrun.confined.slots
    rcases served_cases hfree hserved with hr | ⟨hr, -⟩ | ⟨hr, -⟩ | ⟨caps, i, hc, -⟩ |
      ⟨hc, -⟩ | ha
    · exact Or.inl hr
    · exact Or.inr (Or.inl hr)
    · exact Or.inr (Or.inr (Or.inl hr))
    · exact Or.inr (Or.inr (Or.inr (Or.inl ⟨caps, i, hc⟩)))
    · exact Or.inr (Or.inr (Or.inr (Or.inr (Or.inl hc))))
    · exact Or.inr (Or.inr (Or.inr (Or.inr (Or.inr ha))))
  · intro d hd
    exact served_undefined hd

/-! A root context and a child context that asks for everything. -/

def openingPacket : Bytes := List.replicate 12 0 ++ [47]

def joiningPacket : Bytes := [0, 0, 0, 2] ++ List.replicate 4 255

theorem served_opening (fails : Option OpenStep) (children : Fin maxChildContexts → ChildDetails)
    (head : Option (Fin maxChildContexts)) : decodeAndDispatch E
      ⟨⟨bitcapSetTrue 0 .llRootContextCreate, .null, children, head⟩, disk⟩
      { workingDelivery openingPacket with openFails := fails } =
    some (⟨⟨bitcapSetFalse (BitVec.allOnes 32) .llRootContextCreate, (databaseOpen fails [47]).1,
      children, head⟩, disk⟩, some ⟨0, 0, (databaseOpen fails [47]).2, none⟩, .ok ()) := by
  have hlen : ¬ openingPacket.length < 4 := by decide
  have hmethod : handlerOf (bits 32 (openingPacket.take 4)) = some .rootContextCreate := rfl
  have hdir : decodeRequestRootContextInit false (openingPacket.drop 4) = .ok [47] := by decide
  have hcap : ¬ bitcapIsset (bitcapSetTrue 0 .llRootContextCreate) .llRootContextCreate =
      false := by
    decide
  simp only [decodeAndDispatch, workingDelivery, if_neg hlen, hmethod, Handler.serve,
    dispatchRootContextCreate, hdir, rootContextInit, if_neg hcap]
  rfl

theorem served_joining (details : Details) (children : Fin maxChildContexts → ChildDetails)
    (i : Fin maxChildContexts) : decodeAndDispatch E
      ⟨⟨bitcapSetFalse (BitVec.allOnes 32) .llRootContextCreate, details, children, some i⟩,
        disk⟩ (workingDelivery joiningPacket) =
    some (⟨⟨bitcapSetFalse (BitVec.allOnes 32) .llRootContextCreate, details,
      Function.update children i ⟨true, none, true, 0xFFFFFFFA#32⟩, (children i).next⟩, disk⟩,
      some ⟨2, 0, .ok (), some (be 4 (BitVec.ofNat 32 i))⟩, .ok ()) := by
  have hlen : ¬ joiningPacket.length < 4 := by decide
  have hmethod : handlerOf (bits 32 (joiningPacket.take 4)) = some .childContextCreate := rfl
  have hcaps : decodeCaps (joiningPacket.drop 4) = .ok (BitVec.allOnes 32) := by decide
  have hcap : ¬ bitcapIsset (bitcapSetFalse (BitVec.allOnes 32) .llRootContextCreate)
      .llChildContextCreate = false := by decide
  have hself : ¬ bitcapIsset (bitcapSetTrue clearedChild.childcaps .llChildContextCreate)
      .llChildContextCreate = false := by decide
  simp only [decodeAndDispatch, workingDelivery, if_neg hlen, hmethod, Handler.serve,
    dispatchChildContextCreate, hcaps, childDetailsCreate, Option.map_some, childContextCreate,
    if_neg hcap, if_neg hself, Function.update_self, Function.update_idem]
  rfl

theorem first_child_is_confined :
    ∃ log s i, Serving (codecEnv false) (fun _ => emptyStore) log s ∧
      log.map (fun t => t.delivery.packet) = [openingPacket, joiningPacket] ∧
      (s.inst.children i).dispose = true ∧ (s.inst.children i).childcaps = 0xFFFFFFFA#32 ∧
      bitcapIsset (s.inst.children i).childcaps .llChildContextCreate = false := by
  obtain ⟨i, hnew⟩ := instanceCreate_eq
  have hnil : Serving (codecEnv false) (fun _ => emptyStore) [] ⟨instanceCreate, fun _ =>
      emptyStore⟩ :=
    .nil
  rw [hnew] at hnil
  have hrun := (hnil.snoc (served_opening none instanceCreate.children (some i))).snoc
    (served_joining _ instanceCreate.children i)
  obtain ⟨-, -, hchildren, -⟩ := capabilities_are_confined hrun
  have hopen : (Function.update instanceCreate.children i
      ⟨true, none, true, 0xFFFFFFFA#32⟩ i).dispose = true := by
    rw [Function.update_self]
  obtain ⟨l₁, t, l₂, caps, -, -, -, -, hbit⟩ := hchildren i hopen
  refine ⟨_, _, i, hrun, rfl, hopen, ?_, hbit⟩
  simp only [Function.update_self]

end Runs

end CapabilityConfinement
