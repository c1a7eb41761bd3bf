import Agentd.DataEndpoint

/-! # Connections and their child contexts

As long as no open fails after its child context was opened, the trees of the endpoint are twins,
the open slots of the data service are those of the entries, and every request goes out with the
child context of its own connection. -/
namespace ContextBijection

open ByteString
open DataserviceStore
open DataserviceDispatch
open ChildContexts
open ChildContextSlots
open DataserviceClient
open TwinTrees
open DataEndpoint

structure Agree (s : Endpoint) : Prop where
  sameEntries : ∀ e, (∃ a, s.mailboxContextTree a = some e) ↔ ∃ c, s.contextMailboxTree c = some e
  inverse : ∀ a c, (∃ e, s.mailboxContextTree a = some e ∧ e.context = c) ↔
    ∃ e, s.contextMailboxTree c = some e ∧ e.addr = a
  confined : ∀ m ∈ s.sent, m.holder = some m.connection
  held : ∀ i ∈ openSlots s.inst, ∃ e, s.contextMailboxTree (BitVec.ofNat 32 i) = some e

/-- What is asked of one turn of the loop: an open that is not answered has changed no tree. -/
structure Kept (s : Endpoint) (a : Action) : Prop where
  agree : Agree (step s a)
  undone : ∀ data caps, a.request = .contextOpen data caps →
    (∀ m, (decodeAndDispatchReq s a).2 ≠ .replied m) →
    (step s a).mailboxContextTree = s.mailboxContextTree ∧
      (step s a).contextMailboxTree = s.contextMailboxTree

/-- The data service opens a child context and the open fails nevertheless: its response is lost, an
insertion fails, also because the mailbox has an entry, or the reply cannot be made. -/
def LateFailure (s : Endpoint) (a : Action) : Prop :=
  s.running = true ∧ ∃ data caps, a.request = .contextOpen data caps ∧
    a.fault ≠ .entryAlloc ∧ a.fault ≠ .send ∧
    (createChild s.inst caps (a.fault = .childAlloc)).isSome ∧
    (a.fault ≠ .none ∨ (s.mailboxContextTree data).isSome)

def Along (meets : Endpoint → Action → Prop) : Endpoint → List Action → Prop
  | _, [] => True
  | s, a :: as => meets s a ∧ Along meets (step s a) as

structure Inv (s : Endpoint) : Prop where
  slots : ∃ free, Slots s.inst free
  twin : Twin MailboxContextEntry.addr MailboxContextEntry.context s.mailboxContextTree
    s.contextMailboxTree
  owned : ∀ {a e}, s.mailboxContextTree a = some e →
    ∃ i ∈ openSlots s.inst, e.context = BitVec.ofNat 32 i ∧ s.owner i = a
  held : ∀ i ∈ openSlots s.inst, ∃ e, s.contextMailboxTree (BitVec.ofNat 32 i) = some e
  confined : ∀ m ∈ s.sent, m.holder = some m.connection

variable {s : Endpoint} {a : Action} {data returnAddress : Address} {caps : Bitcap} {f : OpenFault}
  {i : Fin maxChildContexts} {inst : Instance}

theorem Inv.agree (h : Inv s) : Agree s :=
  ⟨h.twin.same_entries, h.twin.inverse, h.confined, h.held⟩

theorem slots_reduced {free : List (Fin maxChildContexts)} (h : Slots inst free) (apicaps : Bitcap)
    (details : Details) : Slots { inst with apicaps := apicaps, details := details } free :=
  h.congr rfl rfl

theorem openSlots_reduced (inst : Instance) (apicaps : Bitcap) (details : Details) :
    openSlots { inst with apicaps := apicaps, details := details } = openSlots inst := rfl

theorem inv_endpointAdd (apicaps : Bitcap) (datadir : Bytes) :
    Inv (endpointAdd apicaps datadir) := by
  refine ⟨⟨_, slots_reduced slots_instanceCreate _ _⟩, Twin.empty, ?_, ?_, ?_⟩
  · intro a e h
    cases h
  · intro i hi
    rw [endpointAdd, openSlots_reduced] at hi
    exact absurd hi (not_mem_openSlots.mpr (not_open_instanceCreate i))
  · intro m hm
    cases hm

theorem ofNat_inj {i j : Fin maxChildContexts} (h : BitVec.ofNat 32 i = BitVec.ofNat 32 j) :
    i = j := by
  have hi : i.val < 2 ^ 32 := i.isLt.trans (by decide)
  have hj : j.val < 2 ^ 32 := j.isLt.trans (by decide)
  have hval := congrArg BitVec.toNat h
  rw [BitVec.toNat_ofNat, BitVec.toNat_ofNat, Nat.mod_eq_of_lt hi, Nat.mod_eq_of_lt hj] at hval
  exact Fin.ext hval

/-! ### Open -/

def withContext (s : Endpoint) (data : Address) (inst : Instance) (i : Fin maxChildContexts) :
    Endpoint :=
  { s with
    inst := inst
    owner := Function.update s.owner i data
    mailboxContextTree :=
      Function.update s.mailboxContextTree data (some ⟨data, BitVec.ofNat 32 i⟩)
    contextMailboxTree :=
      Function.update s.contextMailboxTree (BitVec.ofNat 32 i) (some ⟨data, BitVec.ofNat 32 i⟩) }

theorem Inv.context_free (h : Inv s) (hi : i ∉ openSlots s.inst) :
    s.contextMailboxTree (BitVec.ofNat 32 i) = none := by
  cases hfound : s.contextMailboxTree (BitVec.ofNat 32 i) with
  | none => rfl
  | some e =>
    obtain ⟨hkey, hmailbox⟩ := h.twin.right hfound
    obtain ⟨j, hj, hcontext, -⟩ := h.owned hmailbox
    rw [ofNat_inj (hkey.symm.trans hcontext)] at hi
    exact absurd hj hi

theorem inv_withContext (h : Inv s) (hfree : s.mailboxContextTree data = none) {allocFails : Bool}
    (hcreate : createChild s.inst caps allocFails = some (inst, i)) :
    Inv (withContext s data inst i) := by
  obtain ⟨free, hslots⟩ := h.slots
  obtain ⟨hnot, hopen, hslots'⟩ := createChild_some hslots hcreate
  refine ⟨hslots', ?_, ?_, ?_, h.confined⟩
  · have hfree' := h.context_free hnot
    exact Twin.insert (e := ⟨data, BitVec.ofNat 32 i⟩) h.twin hfree hfree'
  · intro b e he
    by_cases hb : b = data
    · subst hb
      simp only [withContext, Function.update_self] at he
      cases he
      refine ⟨i, ?_, rfl, ?_⟩
      · simp only [withContext, hopen, Set.mem_insert_iff, true_or]
      · simp only [withContext, Function.update_self]
    · simp only [withContext, Function.update_of_ne hb] at he
      obtain ⟨j, hj, hcontext, howner⟩ := h.owned he
      have hji : j ≠ i := fun heq => hnot (heq ▸ hj)
      refine ⟨j, ?_, hcontext, ?_⟩
      · simp only [withContext, hopen, Set.mem_insert_iff, hj, or_true]
      · simp only [withContext, Function.update_of_ne hji, howner]
  · intro j hj
    simp only [withContext, hopen, Set.mem_insert_iff] at hj
    simp only [withContext]
    by_cases hji : j = i
    · subst hji
      exact ⟨_, Function.update_self ..⟩
    · obtain ⟨e, he⟩ := h.held j (hj.resolve_left hji)
      have hne : BitVec.ofNat 32 j.val ≠ BitVec.ofNat 32 i.val := fun heq => hji (ofNat_inj heq)
      exact ⟨e, (Function.update_of_ne hne ..).trans he⟩

theorem reqContextOpen_early
    (h : f = .entryAlloc ∨ f = .send ∨ createChild s.inst caps (f = .childAlloc) = none) :
    (reqContextOpen s returnAddress data caps f).1 = s := by
  by_cases hearly : f = .entryAlloc ∨ f = .send
  · rw [reqContextOpen, if_pos hearly]
  · have hnone : createChild s.inst caps (f = .childAlloc) = none := by
      rcases h with h | h | h
      · exact absurd (Or.inl h) hearly
      · exact absurd (Or.inr h) hearly
      · exact h
    rw [reqContextOpen, if_neg hearly, hnone]

theorem reqContextOpen_ok (h : Inv s) (hfree : s.mailboxContextTree data = none)
    (hcreate : createChild s.inst caps (OpenFault.none = .childAlloc) = some (inst, i)) :
    reqContextOpen s returnAddress data caps .none =
      (withContext s data inst i, contextReply 0) := by
  obtain ⟨free, hslots⟩ := h.slots
  have hfree' := h.context_free (createChild_some hslots hcreate).1
  simp only [reqContextOpen, hcreate, hfree, hfree']
  rfl

/-- The child context stays open, and it is not in the tree of contexts. -/
theorem reqContextOpen_late (returnAddress : Address) (h : Inv s) (halloc : f ≠ .entryAlloc)
    (hsend : f ≠ .send)
    (hcreate : createChild s.inst caps (f = .childAlloc) = some (inst, i))
    (hlate : f ≠ .none ∨ (s.mailboxContextTree data).isSome) :
    (reqContextOpen s returnAddress data caps f).1.inst = inst ∧
      (reqContextOpen s returnAddress data caps f).1.contextMailboxTree (BitVec.ofNat 32 i) = none ∧
      (reqContextOpen s returnAddress data caps f).2 = .failed := by
  obtain ⟨free, hslots⟩ := h.slots
  have hfree' := h.context_free (createChild_some hslots hcreate).1
  have hearly : ¬ (f = .entryAlloc ∨ f = .send) := by simp [halloc, hsend]
  simp only [reqContextOpen, if_neg hearly, hcreate]
  by_cases hreceive : f = .receive
  · simp [hreceive, hfree']
  by_cases hmailbox : f = .mailboxInsert ∨ (s.mailboxContextTree data).isSome
  · simp only [if_neg hreceive, if_pos hmailbox, hfree', and_self]
  by_cases hcontext : f = .contextInsert
  · have hpos : f = .contextInsert ∨
        (s.contextMailboxTree (BitVec.ofNat 32 i)).isSome = true := Or.inl hcontext
    simp only [if_neg hreceive, if_neg hmailbox, if_pos hpos]
    exact ⟨trivial, hfree', trivial⟩
  · have hneg : ¬ (f = .contextInsert ∨
        (s.contextMailboxTree (BitVec.ofNat 32 i)).isSome = true) := by
      simp [hcontext, hfree']
    have hreply : f = .reply := by
      cases f with
      | none =>
        rcases hlate with hlate | hlate
        · exact absurd rfl hlate
        · exact absurd (Or.inr hlate) hmailbox
      | childAlloc =>
        rw [decide_eq_true rfl, createChild_allocFails] at hcreate
        cases hcreate
      | entryAlloc => exact absurd rfl halloc
      | send => exact absurd rfl hsend
      | receive => exact absurd rfl hreceive
      | mailboxInsert => exact absurd (Or.inl rfl) hmailbox
      | contextInsert => exact absurd rfl hcontext
      | reply => rfl
    simp only [if_neg hreceive, if_neg hmailbox, if_neg hneg, if_pos hreply, Function.update_self,
      and_self]

/-! ### Close and data requests -/

theorem Inv.lookup (h : Inv s) {e : MailboxContextEntry} (he : s.mailboxContextTree data = some e) :
    ∃ i ∈ openSlots s.inst, e.context = BitVec.ofNat 32 i ∧ s.owner i = data ∧
      childContextLookup s.inst e.context = .ok i := by
  obtain ⟨i, hi, hcontext, howner⟩ := h.owned he
  refine ⟨i, hi, hcontext, howner, ?_⟩
  exact (childContextLookup_iff _ i).mpr ⟨hcontext, hi⟩

/-- A packet with the child context of a connection at its place. -/
theorem Inv.writePacket (h : Inv s) {e : MailboxContextEntry} {packet rest : Bytes}
    (he : s.mailboxContextTree data = some e)
    (hinit : requestInit (packet.drop 4) = .ok (e.context, rest)) :
    Inv (writePacket s data packet) := by
  obtain ⟨i, -, -, howner, hlook⟩ := h.lookup he
  refine ⟨h.slots, h.twin, h.owned, h.held, ?_⟩
  intro m hm
  rcases List.mem_append.mp hm with hm | hm
  · exact h.confined m hm
  · obtain rfl := List.mem_singleton.mp hm
    simp only [holderOf, hinit, hlook, howner]

/-- The child context that an entry names was closed, and the entry goes from both trees. -/
theorem inv_closed (h : Inv s) {e : MailboxContextEntry} (he : s.mailboxContextTree data = some e)
    (hclose : closeChild s.inst e.context = some inst) :
    Inv { s with
      inst := inst
      mailboxContextTree := Function.update s.mailboxContextTree e.addr none
      contextMailboxTree := Function.update s.contextMailboxTree e.context none } := by
  obtain ⟨free, hslots⟩ := h.slots
  obtain ⟨i, hi, hcontext, -⟩ := h.owned he
  have haddr : e.addr = data := (h.twin.left he).1
  rw [hcontext] at hclose
  obtain ⟨hopen, hslots'⟩ := closeChild_some hslots hi hclose
  refine ⟨hslots', h.twin.delete (haddr ▸ he), ?_, ?_, h.confined⟩
  · intro b d hd
    by_cases hb : b = e.addr
    · simp only [hb, Function.update_self] at hd
      cases hd
    · simp only [Function.update_of_ne hb] at hd
      obtain ⟨j, hj, hcontext', howner⟩ := h.owned hd
      have hji : j ≠ i := by
        intro heq
        apply hb
        rw [← (h.twin.left hd).1, h.twin.eq_of_key hd he (by rw [hcontext', hcontext, heq])]
      exact ⟨j, hopen ▸ ⟨hj, hji⟩, hcontext', howner⟩
  · intro j hj
    have hj' : j ∈ openSlots s.inst \ {i} := hopen ▸ hj
    obtain ⟨d, hd⟩ := h.held j hj'.1
    have hne : BitVec.ofNat 32 j.val ≠ e.context := by
      rw [hcontext]
      intro heq
      exact hj'.2 (ofNat_inj heq)
    exact ⟨d, (Function.update_of_ne hne ..).trans hd⟩

theorem drop_overwrite {b : Bytes} (h : 8 ≤ b.length) (context : BitVec 32) :
    (overwrite b 4 (be 4 context)).drop 4 = be 4 context ++ b.drop 8 := by
  have htake : (b.take 4).length = 4 := by
    rw [List.length_take]
    omega
  rw [overwrite, length_be, List.append_assoc, List.drop_left' htake]

theorem reqContextClose_inv (h : Inv s) (offset : BitVec 32) (data : Address) :
    Inv (reqContextClose s offset data).1 := by
  cases he : s.mailboxContextTree data with
  | none => simpa only [reqContextClose, he] using h
  | some e =>
    have hsent : Inv (writePacket s data (encodeRequestChildContextClose e.context)) := by
      apply h.writePacket he (e := e)
      rw [encodeRequestChildContextClose, requestPacket, List.drop_left' (length_be 4 _),
        requestInit_append]
    simp only [reqContextClose, he]
    cases hclose : closeChild s.inst e.context with
    | none =>
      simp only [writePacket, hclose] at hsent ⊢
      exact hsent
    | some inst =>
      simp only [writePacket, hclose] at hsent ⊢
      exact inv_closed hsent he hclose

/-- A close takes at most the entry of its own mailbox, and it is always answered. -/
theorem reqContextClose_frame (s : Endpoint) (offset : BitVec 32) (data : Address) (h : Inv s) :
    (∀ b, b ≠ data → (reqContextClose s offset data).1.mailboxContextTree b =
      s.mailboxContextTree b) ∧
    (reqContextClose s offset data).2 = contextReply offset ∧
    (reqContextClose s offset data).1.running = s.running := by
  cases he : s.mailboxContextTree data with
  | none => simp [reqContextClose, he]
  | some e =>
    have haddr : e.addr = data := (h.twin.left he).1
    cases hclose : closeChild s.inst e.context with
    | none => simp [reqContextClose, he, writePacket, hclose]
    | some inst =>
      simp only [reqContextClose, he, writePacket, hclose, haddr, and_true]
      intro b hb
      rw [Function.update_of_ne hb]

theorem reqDataserviceReq_inv (h : Inv s) (returnAddress : Address)
    (protocolRequestId offset : BitVec 32) (payload : RequestBuffer) (answer : Bytes) :
    Inv (reqDataserviceReq s returnAddress protocolRequestId offset payload answer).1 := by
  cases he : s.mailboxContextTree returnAddress with
  | none => simpa only [reqDataserviceReq, he] using h
  | some e =>
    simp only [reqDataserviceReq, he]
    apply h.writePacket he (e := e)
    rw [drop_overwrite payload.long, requestInit_append]

/-! ### Turns -/

theorem step_of_not_running (h : s.running = false) : step s a = s := by
  rw [step, if_pos h]

/-- A turn does to the trees what its dispatch did. -/
theorem step_eq (h : s.running = true) :
    ∃ b, step s a = { (decodeAndDispatchReq s a).1 with running := b } := by
  have hrun : ¬ s.running = false := by simp [h]
  rw [step, if_neg hrun]
  split
  · rename_i t hd
    exact ⟨false, by rw [hd]⟩
  · rename_i t o _ hd
    exact ⟨t.running, by rw [hd]⟩

theorem Inv.stopped (h : Inv s) (b : Bool) : Inv { s with running := b } :=
  ⟨h.slots, h.twin, h.owned, h.held, h.confined⟩

/-- An open that is no late failure changes nothing or goes well. -/
theorem dispatch_open (h : Inv s) (hrun : s.running = true) (hlate : ¬ LateFailure s a)
    (hrequest : a.request = .contextOpen data caps) :
    (decodeAndDispatchReq s a).1 = s ∨
      Inv (decodeAndDispatchReq s a).1 ∧ (decodeAndDispatchReq s a).2 = contextReply 0 := by
  simp only [decodeAndDispatchReq, hrequest]
  by_cases hearly : a.fault = .entryAlloc ∨ a.fault = .send ∨
      createChild s.inst caps (a.fault = .childAlloc) = none
  · exact Or.inl (reqContextOpen_early hearly)
  · right
    simp only [not_or] at hearly
    obtain ⟨halloc, hsend, hsome⟩ := hearly
    obtain ⟨⟨inst, i⟩, hcreate⟩ := Option.ne_none_iff_exists'.mp hsome
    have hnot : ¬ (a.fault ≠ .none ∨ (s.mailboxContextTree data).isSome = true) := by
      intro hfault
      exact hlate ⟨hrun, data, caps, hrequest, halloc, hsend, by simp [hcreate], hfault⟩
    simp only [not_or, not_not, Option.not_isSome_iff_eq_none] at hnot
    obtain ⟨hnone, hfree⟩ := hnot
    rw [hnone] at hcreate ⊢
    rw [reqContextOpen_ok h hfree hcreate]
    exact ⟨inv_withContext h hfree hcreate, rfl⟩

theorem decodeAndDispatchReq_inv (h : Inv s) (hrun : s.running = true) (hlate : ¬ LateFailure s a) :
    Inv (decodeAndDispatchReq s a).1 := by
  cases hrequest : a.request with
  | contextOpen data caps =>
    rcases dispatch_open h hrun hlate hrequest with hsame | ⟨hinv, -⟩
    · rw [hsame]
      exact h
    · exact hinv
  | contextClose offset data =>
    simp only [decodeAndDispatchReq, hrequest]
    exact reqContextClose_inv h offset data
  | dataserviceReq protocolRequestId offset payload =>
    simp only [decodeAndDispatchReq, hrequest]
    exact reqDataserviceReq_inv h a.returnAddress protocolRequestId offset payload a.answer
  | other offset =>
    simp only [decodeAndDispatchReq, hrequest]
    exact h

theorem step_inv (h : Inv s) (hlate : ¬ LateFailure s a) : Inv (step s a) := by
  cases hrun : s.running with
  | false =>
    rw [step_of_not_running hrun]
    exact h
  | true =>
    obtain ⟨b, hb⟩ := step_eq hrun (a := a)
    rw [hb]
    exact (decodeAndDispatchReq_inv h hrun hlate).stopped b

theorem kept_of_not_late (h : Inv s) (hlate : ¬ LateFailure s a) : Kept s a := by
  refine ⟨(step_inv h hlate).agree, ?_⟩
  intro data caps hrequest hfailed
  cases hrun : s.running with
  | false =>
    rw [step_of_not_running hrun]
    exact ⟨rfl, rfl⟩
  | true =>
    have hsame : (decodeAndDispatchReq s a).1 = s := by
      rcases dispatch_open h hrun hlate hrequest with hsame | ⟨-, hreply⟩
      · exact hsame
      · exact absurd hreply (hfailed _)
    obtain ⟨b, hb⟩ := step_eq hrun (a := a)
    rw [hb, hsame]
    exact ⟨rfl, rfl⟩

theorem not_kept_of_late (h : Inv s) (hlate : LateFailure s a) : ¬ Kept s a := by
  obtain ⟨hrun, data, caps, hrequest, halloc, hsend, hsome, hfault⟩ := hlate
  obtain ⟨⟨inst, i⟩, hcreate⟩ := Option.isSome_iff_exists.mp hsome
  obtain ⟨free, hslots⟩ := h.slots
  obtain ⟨-, hopen, -⟩ := createChild_some hslots hcreate
  obtain ⟨hinst, hnone, -⟩ := reqContextOpen_late a.returnAddress h halloc hsend hcreate hfault
  obtain ⟨b, hb⟩ := step_eq hrun (a := a)
  intro hkept
  have hheld := hkept.agree.held i
  simp only [hb, decodeAndDispatchReq, hrequest, hinst, hnone, hopen] at hheld
  obtain ⟨e, he⟩ := hheld (Set.mem_insert i _)
  cases he

/-- Along every sequence of messages: the trees stay inverse to each other with the same entries, an
open that is not answered leaves them as they were, every request goes out with the child context of
its connection and every open child context has an entry, exactly when no open fails after the data
service has opened its child context. -/
theorem contexts_stay_in_bijection (apicaps : Bitcap) (datadir : Bytes) (messages : List Action) :
    Along Kept (endpointAdd apicaps datadir) messages ↔
      Along (fun s a => ¬ LateFailure s a) (endpointAdd apicaps datadir) messages := by
  have hstart := inv_endpointAdd apicaps datadir
  generalize endpointAdd apicaps datadir = s at hstart
  induction messages generalizing s with
  | nil => exact Iff.rfl
  | cons a messages ih =>
    constructor
    · rintro ⟨hkept, hrest⟩
      have hlate : ¬ LateFailure s a := fun hlate => not_kept_of_late hstart hlate hkept
      exact ⟨hlate, (ih _ (step_inv hstart hlate)).mp hrest⟩
    · rintro ⟨hlate, hrest⟩
      exact ⟨kept_of_not_late hstart hlate, (ih _ (step_inv hstart hlate)).mpr hrest⟩

/-! ### An open that fails late -/

theorem createChild_of_head {caps apicaps : Bitcap} {details : Details}
    (hhead : inst.childHead = some i) (hcap : bitcapIsset apicaps .llChildContextCreate = true) :
    (createChild { inst with apicaps := apicaps, details := details } caps false).isSome =
    true := by
  have hself : ¬ bitcapIsset (bitcapSetTrue clearedChild.childcaps .llChildContextCreate)
      .llChildContextCreate = false := by decide
  have hroot : ¬ bitcapIsset apicaps .llChildContextCreate = false := by simp [hcap]
  simp only [createChild, childDetailsCreate, hhead, Option.map_some, childContextCreate,
    if_neg hroot, Function.update_self, if_neg hself]
  rfl

theorem createChild_endpointAdd (datadir : Bytes) (caps : Bitcap) :
    (createChild (endpointAdd (BitVec.allOnes 32) datadir).inst caps false).isSome = true := by
  obtain ⟨i, hi⟩ := instanceCreate_eq
  have hhead : instanceCreate.childHead = some i := by rw [hi]
  rw [endpointAdd]
  exact createChild_of_head hhead (by decide)

/-- With no memory for the reply, the entry stays in the tree of mailboxes, where the return address
is looked for, and the child context stays open. -/
theorem open_without_reply (h : Inv s) (hrun : s.running = true)
    (hfree : s.mailboxContextTree data = none) (hne : data ≠ returnAddress)
    (hsome : (createChild s.inst caps false).isSome = true) (answer : Bytes) :
    ∃ i ∈ openSlots (step s ⟨returnAddress, .contextOpen data caps, .reply, answer⟩).inst,
      (step s ⟨returnAddress, .contextOpen data caps, .reply, answer⟩).mailboxContextTree data =
        some ⟨data, BitVec.ofNat 32 i⟩ ∧
      (step s ⟨returnAddress, .contextOpen data caps, .reply, answer⟩).contextMailboxTree
        (BitVec.ofNat 32 i) = none := by
  obtain ⟨⟨inst, i⟩, hcreate⟩ := Option.isSome_iff_exists.mp hsome
  obtain ⟨free, hslots⟩ := h.slots
  obtain ⟨hnot, hopen, -⟩ := createChild_some hslots hcreate
  have hfree' := h.context_free hnot
  obtain ⟨b, hb⟩ := step_eq hrun (a := ⟨returnAddress, .contextOpen data caps, .reply, answer⟩)
  have hdispatch : (reqContextOpen s returnAddress data caps .reply).1 = { s with
      inst := inst
      owner := Function.update s.owner i data
      mailboxContextTree := Function.update
        (Function.update s.mailboxContextTree data (some ⟨data, BitVec.ofNat 32 i⟩))
        returnAddress none
      contextMailboxTree := Function.update (Function.update s.contextMailboxTree
        (BitVec.ofNat 32 i) (some ⟨data, BitVec.ofNat 32 i⟩)) (BitVec.ofNat 32 i) none } := by
    simp [reqContextOpen, hcreate, hfree, hfree']
  simp only [decodeAndDispatchReq, hdispatch] at hb
  rw [hb]
  refine ⟨i, ?_, ?_, ?_⟩
  · simp only [hopen, Set.mem_insert_iff, true_or]
  · simp only [Function.update_of_ne hne, Function.update_self]
  · simp only [Function.update_self]

/-- The first open of all, from the mailbox 2 for the mailbox 1. -/
theorem failed_open_strands_context :
    (∃ i ∈ openSlots (step (endpointAdd (BitVec.allOnes 32) [])
        ⟨2, .contextOpen 1 (BitVec.allOnes 32), .reply, []⟩).inst,
      (step (endpointAdd (BitVec.allOnes 32) [])
        ⟨2, .contextOpen 1 (BitVec.allOnes 32), .reply, []⟩).mailboxContextTree 1 =
          some ⟨1, BitVec.ofNat 32 i⟩ ∧
      (step (endpointAdd (BitVec.allOnes 32) [])
        ⟨2, .contextOpen 1 (BitVec.allOnes 32), .reply, []⟩).contextMailboxTree
          (BitVec.ofNat 32 i) = none) ∧
    ¬ Along Kept (endpointAdd (BitVec.allOnes 32) [])
      [⟨2, .contextOpen 1 (BitVec.allOnes 32), .reply, []⟩] := by
  have h := inv_endpointAdd (BitVec.allOnes 32) []
  have hsome := createChild_endpointAdd [] (BitVec.allOnes 32)
  constructor
  · exact open_without_reply h rfl rfl (by decide) hsome []
  · rintro ⟨hkept, -⟩
    apply not_kept_of_late h _ hkept
    exact ⟨rfl, 1, _, rfl, by decide, by decide, hsome, Or.inl (by decide)⟩

end ContextBijection
