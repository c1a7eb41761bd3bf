import Agentd.CapabilityConfinement

/-! # Responses and their requests

The client matches a response to its request by method and child index. A request whose arguments do
not decode loses its child index on the way to the response, and a root context request that does
not decode gets no response at all. -/
namespace ResponseCorrelation

open ByteString
open FaultyTransactions
open DataserviceRecords
open DataserviceStore
open DataserviceRequests
open DataserviceDispatch
open ChildContexts
open CapabilityConfinement

/-! ### What is asked of a response -/

def method (d : Delivery) : BitVec 32 := bits 32 (d.packet.take 4)

def arguments (d : Delivery) : Bytes := d.packet.drop 4

def namesChild : Handler → Bool
  | .childContextClose => true
  | .childRequest _ _ => true
  | _ => false

/-- One response goes out, with method `m` and child index `offset`. -/
def Responds (r : Served) (m offset : BitVec 32) : Prop :=
  ∃ s' status payload st, r = some (s', some ⟨m, offset, status, payload⟩, st)

/-- One response goes out with the method of the request, and with its child index where the method
has one that was decoded. -/
def Answered (E : Env) (s : Service) (d : Delivery) : Prop :=
  ∃ offset, Responds (decodeAndDispatch E s d) (method d) offset ∧
    ∀ h, handlerOf (method d) = some h → namesChild h = true →
      ∀ childIndex rest, requestInit (arguments d) = .ok (childIndex, rest) → offset = childIndex

/-- The operation the request asks of an open child context does not run into undefined
behaviour. -/
def Defined (E : Env) (s : Service) (d : Delivery)
    (decode : Bytes → Except AgentdError DecodedRequest) : Prop :=
  ∀ r i, decode (arguments d) = .ok r → childContextLookup s.inst r.childIndex = .ok i →
    (performChild E s i d r.request).1 ≠ .error .undefined

/-- The arguments decode, or the child index in front of them is zero or missing. -/
def Indexed (d : Delivery) (decode : Bytes → Except AgentdError DecodedRequest) : Prop :=
  ∀ childIndex rest, requestInit (arguments d) = .ok (childIndex, rest) →
    childIndex = 0 ∨ ∃ r, decode (arguments d) = .ok r

def Answerable (E : Env) (s : Service) (d : Delivery) : Handler → Prop
  | .rootContextCreate =>
    ∃ datadir, decodeRequestRootContextInit d.datadirAllocFails (arguments d) = .ok datadir
  | .childRequest _ decode => Indexed d decode ∧ Defined E s d decode
  | _ => True

/-! ### The handlers -/

section Handlers

variable {E : Env} {s : Service} {d : Delivery} {req : Bytes}

theorem responds_writeStatus (hw : d.writeFails = none) (s : Service) (m offset : BitVec 32)
    (status : Except AgentdError Unit) (payload : Option Bytes) :
    Responds (writeStatus d s m offset status payload) m offset :=
  ⟨s, status, payload, .ok (), by rw [writeStatus, hw]⟩

theorem Responds.offset_eq {r : Served} {m m' offset offset' : BitVec 32} (h : Responds r m offset)
    (h' : Responds r m' offset') : offset = offset' := by
  obtain ⟨_, _, _, _, h⟩ := h
  obtain ⟨_, _, _, _, h'⟩ := h'
  have heq := Option.some.inj (h.symm.trans h')
  have hresp := Option.some.inj (congrArg (fun t => t.2.1) heq)
  exact congrArg Response.offset hresp

theorem responds_ne_none {m offset : BitVec 32} (h : Responds none m offset) : False := by
  obtain ⟨_, _, _, _, h⟩ := h
  cases h

/-- The decoders take the child index from the header. -/
theorem childOperations_childIndex {p : Method × (Bytes → Except AgentdError DecodedRequest)}
    (hp : p ∈ childOperations) {r : DecodedRequest} (hr : p.2 req = .ok r) :
    ∃ rest, requestInit req = .ok (r.childIndex, rest) := by
  obtain ⟨sizeOk, request, readCert, hdec, -⟩ := childOperations_decode hp
  rw [hdec] at hr
  obtain ⟨args, hinit, -⟩ := decodeRequest_ok hr
  exact ⟨args, hinit⟩

theorem responds_rootContextReduceCaps (hw : d.writeFails = none) :
    Responds (dispatchRootContextReduceCaps s d req) Method.llRootContextReduceCaps.code 0 := by
  unfold dispatchRootContextReduceCaps
  split
  · exact responds_writeStatus hw _ _ _ _ _
  · exact responds_writeStatus hw _ _ _ _ _

theorem responds_childContextCreate (hw : d.writeFails = none) :
    Responds (dispatchChildContextCreate s d req) Method.llChildContextCreate.code 0 := by
  unfold dispatchChildContextCreate
  simp only
  split
  · exact responds_writeStatus hw _ _ _ _ _
  · split
    · exact responds_writeStatus hw _ _ _ _ _
    · split
      · exact responds_writeStatus hw _ _ _ _ _
      · split
        · exact responds_writeStatus hw _ _ _ _ _
        · exact responds_writeStatus hw _ _ _ _ _

theorem responds_childContextClose (hw : d.writeFails = none) :
    ∃ offset, Responds (dispatchChildContextClose s d req) Method.llChildContextClose.code offset ∧
      ∀ childIndex rest, requestInit req = .ok (childIndex, rest) → offset = childIndex := by
  unfold dispatchChildContextClose
  cases hinit : requestInit req with
  | error e => exact ⟨0, responds_writeStatus hw _ _ _ _ _, by rintro _ _ ⟨⟩⟩
  | ok p =>
    obtain ⟨childIndex, rest⟩ := p
    refine ⟨childIndex, ?_, ?_⟩
    · simp only
      split
      · exact responds_writeStatus hw _ _ _ _ _
      · split
        · exact responds_writeStatus hw _ _ _ _ _
        · exact responds_writeStatus hw _ _ _ _ _
    · rintro _ _ ⟨⟩
      rfl

theorem responds_rootContextCreate (hw : d.writeFails = none) :
    (∃ offset, Responds (dispatchRootContextCreate s d req)
      Method.llRootContextCreate.code offset) ↔
      ∃ datadir, decodeRequestRootContextInit d.datadirAllocFails req = .ok datadir := by
  unfold dispatchRootContextCreate
  cases hdir : decodeRequestRootContextInit d.datadirAllocFails req with
  | error e =>
    constructor
    · rintro ⟨offset, s', status, payload, st, h⟩
      have hresp := congrArg (fun t => t.2.1) (Option.some.inj h)
      cases hresp
    · rintro ⟨datadir, ⟨⟩⟩
  | ok datadir => exact ⟨fun _ => ⟨datadir, rfl⟩, fun _ => ⟨0, responds_writeStatus hw _ _ _ _ _⟩⟩

/-- An operation is answered unless it is undefined; if the arguments do not decode, the response
carries the child index of the cleared request. -/
theorem responds_childRequest (hw : d.writeFails = none) {m : Method}
    {decode : Bytes → Except AgentdError DecodedRequest} (hdef : Defined E s d decode) :
    (∃ r, decode (arguments d) = .ok r ∧
      Responds (dispatchChildRequest m decode E s d (arguments d)) m.code r.childIndex) ∨
    ((∃ e, decode (arguments d) = .error e) ∧
      Responds (dispatchChildRequest m decode E s d (arguments d)) m.code 0) := by
  unfold dispatchChildRequest
  cases hdec : decode (arguments d) with
  | error e => exact Or.inr ⟨⟨e, rfl⟩, responds_writeStatus hw _ _ _ _ _⟩
  | ok r =>
    refine Or.inl ⟨r, rfl, ?_⟩
    simp only
    cases hlook : childContextLookup s.inst r.childIndex with
    | error e => exact responds_writeStatus hw _ _ _ _ _
    | ok i =>
      have hne := hdef r i hdec hlook
      simp only
      split
      · rename_i hundef
        rw [hundef] at hne
        exact absurd rfl hne
      · exact responds_writeStatus hw _ _ _ _ _
      · split
        · exact responds_writeStatus hw _ _ _ _ _
        · exact responds_writeStatus hw _ _ _ _ _

theorem not_responds_childRequest {m : Method}
    {decode : Bytes → Except AgentdError DecodedRequest} {r : DecodedRequest}
    {i : Fin maxChildContexts} (hdec : decode req = .ok r)
    (hlook : childContextLookup s.inst r.childIndex = .ok i)
    (hundef : (performChild E s i d r.request).1 = .error .undefined) :
    dispatchChildRequest m decode E s d req = none := by
  have hpair : performChild E s i d r.request =
      (.error .undefined, (performChild E s i d r.request).2) := Prod.ext hundef rfl
  simp only [dispatchChildRequest, hdec, hlook]
  rw [hpair]

theorem childRequest_answered_iff (hw : d.writeFails = none)
    {p : Method × (Bytes → Except AgentdError DecodedRequest)} (hp : p ∈ childOperations) :
    (∃ offset, Responds (dispatchChildRequest p.1 p.2 E s d (arguments d)) p.1.code offset ∧
      ∀ childIndex rest, requestInit (arguments d) = .ok (childIndex, rest) → offset = childIndex) ↔
    Indexed d p.2 ∧ Defined E s d p.2 := by
  constructor
  · rintro ⟨offset, hresp, hoffset⟩
    have hdef : Defined E s d p.2 := by
      intro r i hdec hlook hundef
      rw [not_responds_childRequest hdec hlook hundef] at hresp
      exact responds_ne_none hresp
    refine ⟨fun childIndex rest hinit => ?_, hdef⟩
    rcases responds_childRequest hw (m := p.1) hdef with ⟨r, hr, -⟩ | ⟨-, hzero⟩
    · exact Or.inr ⟨r, hr⟩
    · exact Or.inl ((hoffset childIndex rest hinit).symm.trans (hresp.offset_eq hzero))
  · rintro ⟨hindex, hdef⟩
    rcases responds_childRequest hw (m := p.1) hdef with ⟨r, hr, hresp⟩ | ⟨⟨e, he⟩, hzero⟩
    · refine ⟨r.childIndex, hresp, fun childIndex rest hinit => ?_⟩
      obtain ⟨rest', hinit'⟩ := childOperations_childIndex hp hr
      rw [hinit'] at hinit
      exact congrArg Prod.fst (Except.ok.inj hinit)
    · refine ⟨0, hzero, fun childIndex rest hinit => ?_⟩
      rcases hindex childIndex rest hinit with h0 | ⟨r, hr⟩
      · exact h0.symm
      · rw [he] at hr
        cases hr

end Handlers

/-! ### Every packet -/

/-- With working writes, a packet that holds a method is answered as it should be exactly when its
handler can do so: a root context request decodes, the arguments of an operation on a child context
decode or the index in front of them is zero, and the operation is defined. -/
theorem answered_iff_answerable (E : Env) (s : Service) (d : Delivery) (hlen : 4 ≤ d.packet.length)
    (hw : d.writeFails = none) :
    Answered E s d ↔ ∀ h, handlerOf (method d) = some h → Answerable E s d h := by
  have hdispatch : ∀ h, handlerOf (method d) = some h →
      decodeAndDispatch E s d = h.serve E s d (arguments d) := by
    intro h hh
    rw [decodeAndDispatch, if_neg (not_lt.mpr hlen)]
    replace hh : handlerOf (bits 32 (d.packet.take 4)) = some h := hh
    simp only [hh]
    rfl
  unfold Answered
  cases hh : handlerOf (method d) with
  | none =>
    refine ⟨by rintro _ h ⟨⟩, fun _ => ⟨0, ?_, by rintro h ⟨⟩⟩⟩
    replace hh : handlerOf (bits 32 (d.packet.take 4)) = none := hh
    rw [decodeAndDispatch, if_neg (not_lt.mpr hlen)]
    simp only [hh, writeStatus, hw]
    exact ⟨_, _, _, _, rfl⟩
  | some h =>
    rw [hdispatch h hh]
    simp only [Option.some.injEq, forall_eq']
    rcases handlerOf_cases hh with ⟨rfl, hcode⟩ | ⟨rfl, hcode⟩ | ⟨rfl, hcode⟩ | ⟨rfl, hcode⟩ |
      ⟨p, hp, rfl, hcode⟩
    · rw [hcode]
      refine Iff.trans (exists_congr fun offset => and_iff_left ?_) (responds_rootContextCreate hw)
      rintro ⟨⟩
    · rw [hcode]
      refine iff_of_true ⟨0, responds_rootContextReduceCaps hw, ?_⟩ trivial
      rintro ⟨⟩
    · rw [hcode]
      refine iff_of_true ⟨0, responds_childContextCreate hw, ?_⟩ trivial
      rintro ⟨⟩
    · rw [hcode]
      obtain ⟨offset, hresp, hoffset⟩ := responds_childContextClose (s := s) hw
      exact iff_of_true ⟨offset, hresp, fun _ => hoffset⟩ trivial
    · rw [hcode]
      refine Iff.trans (exists_congr fun offset => and_congr_right fun _ => ?_)
        (childRequest_answered_iff hw hp)
      exact ⟨fun hall => hall rfl, fun hall _ => hall⟩

def newService : Service := ⟨instanceCreate, fun _ => emptyStore⟩

def latestReadPacket : Bytes := [0, 0, 0, 9] ++ [0, 0, 0, 7]

theorem latest_read_is_answered :
    Answered (codecEnv false) newService (workingDelivery latestReadPacket) := by
  have hhandler : handlerOf (method (workingDelivery latestReadPacket)) =
      some (.childRequest .appBlockIdLatestRead decodeRequestBlockIdLatestRead) := rfl
  apply (answered_iff_answerable _ newService (workingDelivery latestReadPacket)
    (by decide) rfl).mpr
  intro h hh
  obtain rfl := Option.some.inj (hhandler.symm.trans hh)
  refine ⟨fun _ _ _ => Or.inr ⟨⟨7, .latestBlockIdGet, false⟩, by rfl⟩, fun r i _ hlook => ?_⟩
  obtain ⟨-, hopen⟩ := childContextLookup_ok hlook
  simp only [newService, not_open_instanceCreate, Bool.false_eq_true] at hopen

/-- A root context request without arguments, and a read of a transaction through child context five
without the transaction's id. -/
theorem truncated_requests_are_not_answered :
    ¬ Answered (codecEnv false) newService (workingDelivery [0, 0, 0, 0]) ∧
    ¬ Answered (codecEnv false) newService
      (workingDelivery ([0, 0, 0, 18] ++ [0, 0, 0, 5])) := by
  constructor
  · rintro ⟨offset, ⟨s', status, payload, st, h⟩, -⟩
    have hresp := congrArg (fun t => t.2.1) (Option.some.inj h)
    cases hresp
  · rintro ⟨offset, hresp, hoffset⟩
    have hzero : ∀ s, Responds (decodeAndDispatch (codecEnv false) s
        (workingDelivery ([0, 0, 0, 18] ++ [0, 0, 0, 5]))) 18 0 :=
      fun s => ⟨s, .error .requestPacketInvalidSize, none, .ok (), rfl⟩
    have hindex := hoffset _ (by rfl) (by rfl) 5 [] (by rfl)
    rw [hresp.offset_eq (hzero newService)] at hindex
    exact absurd hindex (by decide)

end ResponseCorrelation
