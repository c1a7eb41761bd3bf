import Agentd.PacketDelivery
import Agentd.RequestCodec
import Agentd.CapabilityConfinement

/-! # Fatal requests

The dispatcher of the data service reports an error that should not be recovered from, and the read
callback then asks to leave the event loop. It looks at that only when it starts: its loop goes on
with what is in the buffer. -/
namespace FatalRequests

open ByteString
open DataserviceRecords
open DataserviceStore
open DataserviceRequests
open DataserviceDispatch
open RequestCodec
open IpcPackets
open PacketDelivery
open CapabilityConfinement

variable {σ : Type} {dispatch : Dispatch σ}

/-! ### Logs of a dispatcher -/

/-- A packet that was dispatched, the service after it and whether that was a success. -/
structure Dispatched (σ : Type) where
  payload : Bytes
  after : σ
  ok : Bool

def logged (dispatch : Dispatch σ) : Dispatch (σ × List (Dispatched σ)) := fun s p =>
  (((dispatch s.1 p).1, s.2 ++ [⟨p, (dispatch s.1 p).1, (dispatch s.1 p).2⟩]), (dispatch s.1 p).2)

def outcomes (dispatch : Dispatch σ) : σ → List Bytes → List (Dispatched σ)
  | _, [] => []
  | s, p :: ps => ⟨p, (dispatch s p).1, (dispatch s p).2⟩ :: outcomes dispatch (dispatch s p).1 ps

/-- Nothing is dispatched after a failure, and the service stays as that left it. -/
def StopsWhenFatal (log : List (Dispatched σ)) (s : σ) : Prop :=
  ∀ earlier e later, log = earlier ++ e :: later → e.ok = false → later = [] ∧ e.after = s

def FatalIsLast (dispatch : Dispatch σ) (s : σ) (packets : List Bytes) : Prop :=
  ∀ earlier p later, packets = earlier ++ p :: later →
    (dispatch (dispatchAll dispatch s earlier) p).2 = false → later = []

theorem stopsWhenFatal_cons {e : Dispatched σ} {log : List (Dispatched σ)} {s : σ} :
    StopsWhenFatal (e :: log) s ↔
      (e.ok = false → log = [] ∧ e.after = s) ∧ StopsWhenFatal log s := by
  constructor
  · intro h
    refine ⟨h [] e log rfl, fun earlier f later heq hfail => ?_⟩
    exact h (e :: earlier) f later (by rw [heq, List.cons_append]) hfail
  · rintro ⟨hhead, htail⟩ earlier f later heq hfail
    cases earlier with
    | nil =>
      obtain ⟨rfl, rfl⟩ := List.cons.inj heq
      exact hhead hfail
    | cons g earlier =>
      obtain ⟨-, htl⟩ := List.cons.inj heq
      exact htail earlier f later htl hfail

theorem fatalIsLast_cons {s : σ} {p : Bytes} {ps : List Bytes} :
    FatalIsLast dispatch s (p :: ps) ↔
      ((dispatch s p).2 = false → ps = []) ∧ FatalIsLast dispatch (dispatch s p).1 ps := by
  constructor
  · intro h
    refine ⟨h [] p ps rfl, fun earlier q later heq hfail => ?_⟩
    exact h (p :: earlier) q later (by rw [heq, List.cons_append]) hfail
  · rintro ⟨hhead, htail⟩ earlier q later heq hfail
    cases earlier with
    | nil =>
      obtain ⟨rfl, rfl⟩ := List.cons.inj heq
      exact hhead hfail
    | cons g earlier =>
      obtain ⟨rfl, htl⟩ := List.cons.inj heq
      exact htail earlier q later htl hfail

/-- Entries in front that are successes do not matter. -/
theorem stopsWhenFatal_append {log log' : List (Dispatched σ)} {s : σ}
    (hok : ∀ e ∈ log, e.ok = true) : StopsWhenFatal (log ++ log') s ↔ StopsWhenFatal log' s := by
  induction log with
  | nil => rfl
  | cons e log ih =>
    have he := hok e List.mem_cons_self
    rw [List.cons_append, stopsWhenFatal_cons,
      ih (fun f hf => hok f (List.mem_cons_of_mem e hf))]
    constructor
    · exact fun h => h.2
    · intro h
      refine ⟨fun hfail => ?_, h⟩
      rw [he] at hfail
      cases hfail

theorem stopsWhenFatal_outcomes (s : σ) (packets : List Bytes) :
    StopsWhenFatal (outcomes dispatch s packets) (dispatchAll dispatch s packets) ↔
      FatalIsLast dispatch s packets := by
  induction packets generalizing s with
  | nil =>
    refine iff_of_true ?_ ?_
    · intro earlier e later heq
      simp [outcomes] at heq
    · intro earlier p later heq
      simp at heq
  | cons p ps ih =>
    have hall : dispatchAll dispatch s (p :: ps) = dispatchAll dispatch (dispatch s p).1 ps := rfl
    rw [outcomes, hall, stopsWhenFatal_cons, fatalIsLast_cons, ih]
    refine and_congr_left fun _ => ?_
    constructor
    · intro h hfail
      have hnil := (h hfail).1
      cases ps with
      | nil => rfl
      | cons q qs => simp [outcomes] at hnil
    · intro h hfail
      rw [h hfail]
      exact ⟨rfl, rfl⟩

/-! ### One callback -/

/-- The packets that the reader takes, up to a read that does not succeed or an empty buffer. -/
def takenPackets (calls : List ReadCall) (buf : Bytes) : List Bytes :=
  match _h : ipcReadDataNoblock (nextCall calls).1 buf with
  | (.ok payload, rest) =>
    payload :: if 0 < rest.length then takenPackets (nextCall calls).2 rest else []
  | (.error _, _) => []
  termination_by buf.length + (received calls).length
  decreasing_by
    have hshrink := ipcReadDataNoblock_shrinks _h
    have hbytes := congrArg List.length (received_nextCall calls)
    rw [List.length_append] at hbytes
    omega

theorem takenPackets_ok {calls : List ReadCall} {buf payload rest : Bytes}
    (h : ipcReadDataNoblock (nextCall calls).1 buf = (.ok payload, rest)) :
    takenPackets calls buf =
      payload :: if 0 < rest.length then takenPackets (nextCall calls).2 rest else [] := by
  rw [takenPackets]
  split
  · rename_i payload' rest' h'
    obtain ⟨hp, rfl⟩ := Prod.mk.inj (h.symm.trans h')
    rw [Except.ok.inj hp]
  · rename_i e rest' h'
    rw [h] at h'
    cases h'

theorem takenPackets_error {calls : List ReadCall} {buf rest : Bytes} {e : IpcError}
    (h : ipcReadDataNoblock (nextCall calls).1 buf = (.error e, rest)) :
    takenPackets calls buf = [] := by
  rw [takenPackets]
  split
  · rename_i payload' rest' h'
    rw [h] at h'
    cases h'
  · rfl

/-- Everything that is taken is dispatched, whatever the dispatcher reports; a failure is kept for
the next callback. -/
theorem readLoop_logged (dispatch : Dispatch σ) (calls : List ReadCall)
    (c : Connection (σ × List (Dispatched σ))) :
    (readLoop (logged dispatch) calls c).1.service =
      (dispatchAll dispatch c.service.1 (takenPackets calls c.readbuf),
        c.service.2 ++ outcomes dispatch c.service.1 (takenPackets calls c.readbuf)) ∧
    ((c.forceExit = true ∨
        ∃ e ∈ outcomes dispatch c.service.1 (takenPackets calls c.readbuf), e.ok = false) →
      (readLoop (logged dispatch) calls c).1.forceExit = true) := by
  induction calls, c using readLoop.induct (logged dispatch) with
  | case1 calls c hgo ih =>
    rw [readLoop, if_pos hgo]
    cases hread : ipcReadDataNoblock (nextCall calls).1 c.readbuf with
    | mk r rest =>
      cases r with
      | error e => cases e <;> simp [readAndDispatch, hread] at hgo
      | ok payload =>
        have hstep : readAndDispatch (logged dispatch) (nextCall calls).1 c =
            (true, ⟨rest, (logged dispatch c.service payload).1,
              c.forceExit || !(logged dispatch c.service payload).2⟩) := by
          simp [readAndDispatch, hread]
        rw [hstep] at hgo ih ⊢
        obtain ⟨hservice, hexit⟩ := ih
        rw [takenPackets_ok hread, if_pos hgo.2]
        refine ⟨?_, ?_⟩
        · rw [hservice]
          simp [logged, outcomes, dispatchAll]
        · intro hbad
          refine hexit ?_
          rcases hbad with hforce | ⟨e, he, hfail⟩
          · exact Or.inl (by rw [hforce, Bool.true_or])
          · rcases List.mem_cons.mp he with rfl | he
            · exact Or.inl (by simpa [logged] using Or.inr hfail)
            · exact Or.inr ⟨e, he, hfail⟩
  | case2 calls c hstop =>
    rw [readLoop, if_neg hstop]
    cases hread : ipcReadDataNoblock (nextCall calls).1 c.readbuf with
    | mk r rest =>
      cases r with
      | error e =>
        rw [takenPackets_error hread]
        cases e <;> simp [readAndDispatch, hread, outcomes, dispatchAll]
      | ok payload =>
        have hempty : ¬ 0 < rest.length := fun hpos =>
          hstop (by simpa [readAndDispatch, hread] using hpos)
        rw [takenPackets_ok hread, if_neg hempty]
        refine ⟨by simp [readAndDispatch, hread, logged, outcomes, dispatchAll], ?_⟩
        rintro (hforce | ⟨e, he, hfail⟩)
        · simp [readAndDispatch, hread, hforce]
        · rw [outcomes, outcomes, List.mem_singleton] at he
          subst he
          simpa [readAndDispatch, hread, logged] using Or.inr hfail

/-! ### Callbacks one after the other -/

/-- The read callbacks of the socket, each with the connection it finds and what it reads, as long
as the packets are fine for the dispatcher. Between two of them the write callback may ask to leave
the event loop as well. -/
inductive SocketRun (dispatch : Dispatch σ) (fine : σ → List Bytes → Prop) (s : σ) :
    List (Connection (σ × List (Dispatched σ)) × List ReadCall) →
      Connection (σ × List (Dispatched σ)) → Prop
  | nil : SocketRun dispatch fine s [] ⟨[], (s, []), false⟩
  | read {steps : List (Connection (σ × List (Dispatched σ)) × List ReadCall)}
      {c : Connection (σ × List (Dispatched σ))} (earlier : SocketRun dispatch fine s steps c)
      (calls : List ReadCall)
      (hfine : c.forceExit = false → fine c.service.1 (takenPackets calls c.readbuf)) :
      SocketRun dispatch fine s (steps ++ [(c, calls)])
        (dataserviceIpcRead (logged dispatch) calls c).1
  | writeFails {steps : List (Connection (σ × List (Dispatched σ)) × List ReadCall)}
      {c : Connection (σ × List (Dispatched σ))} (earlier : SocketRun dispatch fine s steps c) :
      SocketRun dispatch fine s steps { c with forceExit := true }

/-- A callback that is not turned away takes nothing behind a packet whose dispatch fails. -/
def TakesNothingBehind (dispatch : Dispatch σ)
    (t : Connection (σ × List (Dispatched σ)) × List ReadCall) : Prop :=
  t.1.forceExit = false →
    FatalIsLast dispatch t.1.service.1 (takenPackets t.2 t.1.readbuf)

variable {fine : σ → List Bytes → Prop} {s : σ}
    {steps : List (Connection (σ × List (Dispatched σ)) × List ReadCall)}
  {c : Connection (σ × List (Dispatched σ))}

/-- Once a dispatch has failed, the callbacks are turned away. -/
theorem SocketRun.forceExit_of_fatal (h : SocketRun dispatch fine s steps c) :
    ∀ e ∈ c.service.2, e.ok = false → c.forceExit = true := by
  induction h with
  | nil => simp
  | @read steps c earlier calls hfine ih =>
    intro e he hfail
    cases hforce : c.forceExit with
    | true => rw [dataserviceIpcRead, if_pos hforce, hforce]
    | false =>
      rw [dataserviceIpcRead, if_neg (by simp [hforce])] at he ⊢
      obtain ⟨hservice, hexit⟩ := readLoop_logged dispatch calls c
      rw [hservice] at he
      refine hexit (Or.inr ?_)
      rcases List.mem_append.mp he with he | he
      · rw [ih e he hfail] at hforce
        cases hforce
      · exact ⟨e, he, hfail⟩
  | writeFails earlier ih => exact fun _ _ _ => rfl

theorem SocketRun.fine_of_mem (h : SocketRun dispatch fine s steps c) :
    ∀ t ∈ steps, t.1.forceExit = false → fine t.1.service.1 (takenPackets t.2 t.1.readbuf) := by
  induction h with
  | nil => simp
  | read earlier calls hfine ih =>
    intro t ht
    rcases List.mem_append.mp ht with ht | ht
    · exact ih t ht
    · rw [List.mem_singleton.mp ht]
      exact hfine
  | writeFails earlier ih => exact ih

/-- No packet is dispatched after one whose dispatch fails if and only if no callback takes one from
behind it. -/
theorem stopsWhenFatal_iff (hrun : SocketRun dispatch fine s steps c) :
    StopsWhenFatal c.service.2 c.service.1 ↔ ∀ t ∈ steps, TakesNothingBehind dispatch t := by
  induction hrun with
  | nil =>
    refine iff_of_true ?_ (by simp)
    intro earlier e later heq
    simp at heq
  | @read steps c earlier calls hfine ih =>
    rw [List.forall_mem_append, List.forall_mem_singleton]
    cases hforce : c.forceExit with
    | true =>
      rw [dataserviceIpcRead, if_pos hforce, ih]
      refine (and_iff_left ?_).symm
      intro hrunning
      rw [hforce] at hrunning
      cases hrunning
    | false =>
      have hok : ∀ e ∈ c.service.2, e.ok = true := fun e he => by
        by_contra hfail
        rw [earlier.forceExit_of_fatal e he (Bool.eq_false_of_not_eq_true hfail)] at hforce
        cases hforce
      have hearlier : StopsWhenFatal c.service.2 c.service.1 := by
        intro before e later heq hfail
        rw [hok e (by simp [heq])] at hfail
        cases hfail
      rw [dataserviceIpcRead, if_neg (by simp [hforce]), (readLoop_logged dispatch calls c).1,
        stopsWhenFatal_append hok, stopsWhenFatal_outcomes]
      constructor
      · exact fun h => ⟨ih.mp hearlier, fun _ => h⟩
      · exact fun h => h.2 hforce
  | writeFails earlier ih => exact ih

/-! ### The dispatcher of the data service -/

/-- The packet cannot be served, or not be answered: it holds no method or one that the data service
does not know, it opens a database without naming a directory that can be copied, or the response is
not written. -/
def Fatal (d : Delivery) : Prop :=
  d.packet.length < 4 ∨ handlerOf (bits 32 (d.packet.take 4)) = none ∨
    (bits 32 (d.packet.take 4) = Method.llRootContextCreate.code ∧
      ((d.packet.drop 4).length ≤ 8 ∨ d.datadirAllocFails = true)) ∨ d.writeFails ≠ none

/-- What happens outside while the `n`th packet is dispatched is given by `outside n`. -/
def delivery (outside : ℕ → Delivery) (n : ℕ) (p : Bytes) : Delivery :=
  { outside n with packet := p }

def serving (E : Env) (outside : ℕ → Delivery) : Dispatch (Service × ℕ) := fun s p =>
  match decodeAndDispatch E s.1 (delivery outside s.2 p) with
  | some (s', _, status) => ((s', s.2 + 1), status.isOk)
  | none => ((s.1, s.2 + 1), true)

/-- None of the operations on a child context opens a database. -/
theorem opens_none :
    ∀ m ∈ childOperations.map Prod.fst, m.code ≠ Method.llRootContextCreate.code := by
  decide

section Statuses

variable {E : Env} {d : Delivery} {st : Except AgentdError Unit}

/-- Reports an error exactly when the response is not written. -/
def FailsUnwritten (d : Delivery) (r : Served) : Prop :=
  ∀ s resp st, r = some (s, resp, st) → (st.isOk = false ↔ d.writeFails ≠ none)

theorem failsUnwritten_writeStatus (s : Service) (method offset : BitVec 32)
    (status : Except AgentdError Unit) (payload : Option Bytes) :
    FailsUnwritten d (writeStatus d s method offset status payload) := by
  intro s' resp st h
  rw [writeStatus] at h
  split at h
  · rename_i hw
    cases h
    simp [hw, Except.isOk, Except.toBool]
  · rename_i hw
    cases h
    simp [hw, Except.isOk, Except.toBool]
  · rename_i hw
    cases h
    simp [hw, Except.isOk, Except.toBool]

theorem failsUnwritten_reduceCaps (s : Service) (req : Bytes) :
    FailsUnwritten d (dispatchRootContextReduceCaps s d req) := by
  unfold dispatchRootContextReduceCaps
  split
  · exact failsUnwritten_writeStatus _ _ _ _ _
  · exact failsUnwritten_writeStatus _ _ _ _ _

theorem failsUnwritten_childCreate (s : Service) (req : Bytes) :
    FailsUnwritten d (dispatchChildContextCreate s d req) := by
  unfold dispatchChildContextCreate
  simp only
  split
  · exact failsUnwritten_writeStatus _ _ _ _ _
  · split
    · exact failsUnwritten_writeStatus _ _ _ _ _
    · split
      · exact failsUnwritten_writeStatus _ _ _ _ _
      · split
        · exact failsUnwritten_writeStatus _ _ _ _ _
        · exact failsUnwritten_writeStatus _ _ _ _ _

theorem failsUnwritten_childClose (s : Service) (req : Bytes) :
    FailsUnwritten d (dispatchChildContextClose s d req) := by
  unfold dispatchChildContextClose
  simp only
  split
  · exact failsUnwritten_writeStatus _ _ _ _ _
  · split
    · exact failsUnwritten_writeStatus _ _ _ _ _
    · split
      · exact failsUnwritten_writeStatus _ _ _ _ _
      · exact failsUnwritten_writeStatus _ _ _ _ _

theorem failsUnwritten_childRequest (m : Method)
    (decode : Bytes → Except AgentdError DecodedRequest) (s : Service) (req : Bytes) :
    FailsUnwritten d (dispatchChildRequest m decode E s d req) := by
  unfold dispatchChildRequest
  split
  · exact failsUnwritten_writeStatus _ _ _ _ _
  · split
    · exact failsUnwritten_writeStatus _ _ _ _ _
    · split
      · rintro _ _ _ ⟨⟩
      · exact failsUnwritten_writeStatus _ _ _ _ _
      · split
        · exact failsUnwritten_writeStatus _ _ _ _ _
        · exact failsUnwritten_writeStatus _ _ _ _ _

theorem rootContextCreate_fails_iff {s s' : Service} {resp : Option Response} {req : Bytes}
    (h : dispatchRootContextCreate s d req = some (s', resp, st)) :
    st.isOk = false ↔ (req.length ≤ 8 ∨ d.datadirAllocFails = true) ∨ d.writeFails ≠ none := by
  unfold dispatchRootContextCreate at h
  cases hdir : decodeRequestRootContextInit d.datadirAllocFails req with
  | error e =>
    rw [hdir] at h
    cases h
    refine iff_of_true rfl (Or.inl ?_)
    by_contra hn
    rw [not_or] at hn
    simp [decodeRequestRootContextInit, hn] at hdir
  | ok datadir =>
    rw [hdir] at h
    have hgood : ¬ (req.length ≤ 8 ∨ d.datadirAllocFails = true) := by
      rintro (hshort | halloc)
      · simp [decodeRequestRootContextInit, hshort] at hdir
      · rw [decodeRequestRootContextInit, halloc] at hdir
        split at hdir <;> cases hdir
    rw [or_iff_right hgood]
    exact failsUnwritten_writeStatus _ _ _ _ _ _ _ _ h

/-- The errors the dispatcher reports can be told from the packet and from what fails outside. -/
theorem dispatch_fails_iff {s s' : Service} {resp : Option Response}
    (h : decodeAndDispatch E s d = some (s', resp, st)) : st.isOk = false ↔ Fatal d := by
  unfold decodeAndDispatch at h
  by_cases hlen : d.packet.length < 4
  · rw [if_pos hlen] at h
    cases h
    exact iff_of_true rfl (Or.inl hlen)
  · rw [if_neg hlen] at h
    rw [Fatal, or_iff_right hlen]
    cases hh : handlerOf (bits 32 (d.packet.take 4)) with
    | none =>
      simp only [hh] at h
      obtain ⟨r, -, hr⟩ := Option.map_eq_some_iff.mp h
      cases hr
      exact iff_of_true rfl (Or.inl rfl)
    | some handler =>
      simp only [hh] at h
      rw [or_iff_right (by simp)]
      rcases handlerOf_cases hh with ⟨rfl, hcode⟩ | ⟨rfl, hcode⟩ | ⟨rfl, hcode⟩ | ⟨rfl, hcode⟩ |
        ⟨p, hp, rfl, hcode⟩
      · rw [hcode]
        simpa using rootContextCreate_fails_iff h
      · rw [hcode, or_iff_right (by rintro ⟨⟨⟩, -⟩)]
        exact failsUnwritten_reduceCaps _ _ _ _ _ h
      · rw [hcode, or_iff_right (by rintro ⟨⟨⟩, -⟩)]
        exact failsUnwritten_childCreate _ _ _ _ _ h
      · rw [hcode, or_iff_right (by rintro ⟨⟨⟩, -⟩)]
        exact failsUnwritten_childClose _ _ _ _ _ h
      · rw [hcode, or_iff_right ?_]
        · exact failsUnwritten_childRequest _ _ _ _ _ _ _ h
        · exact fun hopens => opens_none p.1 (List.mem_map_of_mem hp) hopens.1

end Statuses

/-- No operation the packets ask for, one after the other, is undefined. -/
def Defined (E : Env) (outside : ℕ → Delivery) : Service × ℕ → List Bytes → Prop
  | _, [] => True
  | s, p :: ps => decodeAndDispatch E s.1 (delivery outside s.2 p) ≠ none ∧
      Defined E outside (serving E outside s p).1 ps

/-- No packet stands behind a fatal one; `n` packets have been dispatched before. -/
def FatalComesLast (outside : ℕ → Delivery) (n : ℕ) (packets : List Bytes) : Prop :=
  ∀ earlier p later, packets = earlier ++ p :: later →
    Fatal (delivery outside (n + earlier.length) p) → later = []

section Serving

variable {E : Env} {outside : ℕ → Delivery}

theorem fatalComesLast_cons {n : ℕ} {p : Bytes} {ps : List Bytes} :
    FatalComesLast outside n (p :: ps) ↔
      (Fatal (delivery outside n p) → ps = []) ∧ FatalComesLast outside (n + 1) ps := by
  constructor
  · intro h
    refine ⟨h [] p ps rfl, fun earlier q later heq hfatal => ?_⟩
    refine h (p :: earlier) q later (by rw [heq, List.cons_append]) ?_
    rwa [List.length_cons, Nat.add_comm earlier.length, ← Nat.add_assoc]
  · rintro ⟨hhead, htail⟩ earlier q later heq hfatal
    cases earlier with
    | nil =>
      obtain ⟨rfl, rfl⟩ := List.cons.inj heq
      exact hhead hfatal
    | cons r earlier =>
      obtain ⟨rfl, htl⟩ := List.cons.inj heq
      rw [List.length_cons, Nat.add_comm earlier.length, ← Nat.add_assoc] at hfatal
      exact htail earlier q later htl hfatal

theorem serving_fails_iff {s : Service × ℕ} {p : Bytes}
    (hdef : decodeAndDispatch E s.1 (delivery outside s.2 p) ≠ none) :
    ((serving E outside s p).2 = false ↔ Fatal (delivery outside s.2 p)) ∧
      (serving E outside s p).1.2 = s.2 + 1 := by
  obtain ⟨⟨s', resp, st⟩, h⟩ := Option.ne_none_iff_exists'.mp hdef
  rw [← dispatch_fails_iff h]
  simp only [serving, h, and_self]

/-- Whose dispatch fails can be told from the packets. -/
theorem fatalIsLast_iff {s : Service × ℕ} {packets : List Bytes}
    (hdef : Defined E outside s packets) :
    FatalIsLast (serving E outside) s packets ↔ FatalComesLast outside s.2 packets := by
  induction packets generalizing s with
  | nil =>
    refine iff_of_true ?_ ?_
    · intro earlier p later heq
      simp at heq
    · intro earlier p later heq
      simp at heq
  | cons p ps ih =>
    obtain ⟨hhead, htail⟩ := hdef
    obtain ⟨hfails, hcount⟩ := serving_fails_iff hhead
    rw [fatalIsLast_cons, fatalComesLast_cons, ih htail, hfails, hcount]

/-- A callback that is not turned away takes nothing behind a fatal packet. -/
def FatalTakenLast (outside : ℕ → Delivery)
    (t : Connection ((Service × ℕ) × List (Dispatched (Service × ℕ))) × List ReadCall) : Prop :=
  t.1.forceExit = false →
    FatalComesLast outside t.1.service.1.2 (takenPackets t.2 t.1.readbuf)

/-- In every run of the callbacks of the data service, up to undefined behaviour in an operation, no
packet is dispatched after one whose dispatch fails, and the service stays as that left it, if and
only if no callback takes a packet from behind a fatal one. -/
theorem fatal_request_stops_iff {s : Service}
    {steps : List (Connection ((Service × ℕ) × List (Dispatched (Service × ℕ))) × List ReadCall)}
    {c : Connection ((Service × ℕ) × List (Dispatched (Service × ℕ)))}
    (hrun : SocketRun (serving E outside) (Defined E outside) (s, 0) steps c) :
    StopsWhenFatal c.service.2 c.service.1 ↔ ∀ t ∈ steps, FatalTakenLast outside t := by
  rw [stopsWhenFatal_iff hrun]
  refine forall₂_congr fun t ht => imp_congr_right fun hopen => ?_
  exact fatalIsLast_iff (hrun.fine_of_mem t ht hopen)

end Serving

def nothingFails : ℕ → Delivery := fun _ => workingDelivery []

def startService : Service := ⟨instanceCreate, fun _ => emptyStore⟩

def unknownRequest : Bytes := [0, 0, 0, 0xff]

def openingRequest : Bytes := encodeRequestRootContextInit 0 [0x2f]


theorem takenPackets_pair {p q : Bytes} (hp : Sendable p) (hq : Sendable q) :
    takenPackets [workingRead (.data (packet p ++ packet q))] [] = [p, q] := by
  have hfirst : ipcReadDataNoblock (nextCall [workingRead (.data (packet p ++ packet q))]).1 [] =
      (.ok p, packet q) :=
    takePacket_ok_iff.mpr ⟨firstPacket_packet hp (packet q), rfl, rfl, rfl⟩
  have hsecond : ipcReadDataNoblock (nextCall []).1 (packet q) = (.ok q, []) := by
    have hfront := firstPacket_packet hq []
    rw [List.append_nil] at hfront
    exact takePacket_ok_iff.mpr ⟨hfront, rfl, rfl, rfl⟩
  have hpos : 0 < (packet q).length := by
    rw [length_packet, headerSize]
    omega
  rw [takenPackets_ok hfirst, if_pos hpos]
  exact congrArg (p :: ·) (takenPackets_ok hsecond)

/-- The dispatcher of a fresh data service next to which nothing fails. -/
def freshServing : Dispatch (Service × ℕ) := serving (codecEnv true) nothingFails

theorem unknown_is_refused (s : Service × ℕ) :
    freshServing s unknownRequest = ((s.1, s.2 + 1), false) := rfl

theorem opening_is_served :
    decodeAndDispatch (codecEnv true) startService (workingDelivery openingRequest) ≠ none ∧
      (freshServing (startService, 0) openingRequest).1.1.inst.details = .opened [0x2f] ∧
      (freshServing (startService, 1) openingRequest).1.1.inst.details = .opened [0x2f] :=
  ⟨by decide +kernel, by decide +kernel, by decide +kernel⟩

theorem opening_not_fatal : ¬ Fatal (workingDelivery openingRequest) := by
  rintro (hshort | hnone | ⟨-, hshort | halloc⟩ | hwrite)
  · exact absurd hshort (by decide)
  · cases hnone
  · exact absurd hshort (by decide)
  · cases halloc
  · exact hwrite rfl

def coalesced (p q : Bytes) : List ReadCall := [workingRead (.data (packet p ++ packet q))]

def firstCallback (calls : List ReadCall) :
    Connection ((Service × ℕ) × List (Dispatched (Service × ℕ))) :=
  (dataserviceIpcRead (logged freshServing) calls ⟨[], ((startService, 0), []), false⟩).1

theorem firstCallback_run {calls : List ReadCall}
    (hdef : Defined (codecEnv true) nothingFails (startService, 0) (takenPackets calls [])) :
    SocketRun freshServing (Defined (codecEnv true) nothingFails) (startService, 0)
      [(⟨[], ((startService, 0), []), false⟩, calls)] (firstCallback calls) :=
  SocketRun.nil.read calls fun _ => hdef

theorem firstCallback_service (calls : List ReadCall) : (firstCallback calls).service =
    (dispatchAll freshServing (startService, 0) (takenPackets calls []),
      outcomes freshServing (startService, 0) (takenPackets calls [])) :=
  (readLoop_logged freshServing calls ⟨[], ((startService, 0), []), false⟩).1

/-- A fatal request behind one that is served. -/
theorem fatal_behind_opening_stops :
    StopsWhenFatal (firstCallback (coalesced openingRequest unknownRequest)).service.2
      (firstCallback (coalesced openingRequest unknownRequest)).service.1 := by
  have hpair : takenPackets (coalesced openingRequest unknownRequest) [] =
      [openingRequest, unknownRequest] := takenPackets_pair (by decide) (by decide)
  have hdef : Defined (codecEnv true) nothingFails (startService, 0)
      (takenPackets (coalesced openingRequest unknownRequest) []) := by
    rw [hpair]
    exact ⟨opening_is_served.1, by rintro ⟨⟩, trivial⟩
  apply (fatal_request_stops_iff (firstCallback_run hdef)).mpr
  intro t ht _
  rw [List.mem_singleton.mp ht]
  dsimp only
  rw [hpair, fatalComesLast_cons, fatalComesLast_cons]
  refine ⟨fun hfatal => (opening_not_fatal hfatal).elim, fun _ => rfl, ?_⟩
  intro earlier p later heq
  simp at heq

/-- The other way round, the request behind the fatal one is served all the same and opens the
database. -/
theorem request_behind_fatal_is_served :
    SocketRun freshServing (Defined (codecEnv true) nothingFails) (startService, 0)
      [(⟨[], ((startService, 0), []), false⟩, coalesced unknownRequest openingRequest)]
      (firstCallback (coalesced unknownRequest openingRequest)) ∧
    ¬ StopsWhenFatal (firstCallback (coalesced unknownRequest openingRequest)).service.2
      (firstCallback (coalesced unknownRequest openingRequest)).service.1 ∧
    (firstCallback (coalesced unknownRequest openingRequest)).service.1.1.inst.details =
      .opened [0x2f] := by
  have hpair : takenPackets (coalesced unknownRequest openingRequest) [] =
      [unknownRequest, openingRequest] := takenPackets_pair (by decide) (by decide)
  have hservice := firstCallback_service (coalesced unknownRequest openingRequest)
  rw [hpair] at hservice
  refine ⟨firstCallback_run ?_, fun hstops => ?_, ?_⟩
  · rw [hpair]
    exact ⟨by rintro ⟨⟩, opening_is_served.1, trivial⟩
  · rw [hservice] at hstops
    obtain ⟨hnil, -⟩ := hstops [] _ _ rfl rfl
    cases hnil
  · rw [hservice]
    simp only [dispatchAll, List.foldl_cons, List.foldl_nil, unknown_is_refused, Nat.zero_add]
    exact opening_is_served.2.2

end FatalRequests
