import Agentd.DescriptorTables

/-! # Descriptors of a child

Before a child of the supervisor executes its command it moves the descriptors it needs out of the
way, closes the standard ones, moves those it needs to the places where the command expects them and
closes the rest. -/
namespace DescriptorHandoff

open DescriptorTables

variable {φ : Type*}

inductive FdStatus where
  | success
  | dup2Failure
  | badArgument
  /-- The arguments end without a negative one; what is read then is undefined. -/
  | unterminated
  | listenFailure
  deriving DecidableEq

/-! ### The functions of the child -/

/-- The first of the places that descriptors are moved out of the way to. -/
def highDesc : ℤ := 500

def protectFrom (high : ℤ) : List ℤ → Table φ → FdStatus × Table φ × List ℤ
  | [], t => (.success, t, [])
  | desc :: rest, t =>
    match t.dup2 desc high with
    | none => (.dup2Failure, t, desc :: rest)
    | some t =>
      let (status, t, descs) := protectFrom (high + 1) rest (t.close desc)
      (status, t, high :: descs)

/-- `privsep_protect_descriptors`, with the descriptors as they are afterwards. -/
def privsepProtectDescriptors (descs : List ℤ) (t : Table φ) : FdStatus × Table φ × List ℤ :=
  protectFrom highDesc descs t

def privsepCloseStandardFds (t : Table φ) : Table φ := ((t.close 0).close 1).close 2

def privsepSetfds : List ℤ → Table φ → FdStatus × Table φ
  | curr :: mapped :: rest, t =>
    match t.dup2 curr mapped with
    | none => (.dup2Failure, t)
    | some t =>
      match rest with
      | [] => (.unterminated, t.close curr)
      | next :: rest' =>
        if next < 0 then (.success, t.close curr)
        else
          match rest' with
          | [] => (.unterminated, t.close curr)
          | next' :: _ =>
            if next' < 0 then (.badArgument, t.close curr) else privsepSetfds rest (t.close curr)
  | _, t => (.unterminated, t)

def fdSetsize : ℕ := 1024

def privsepCloseOtherFds (fd : ℤ) (t : Table φ) : Table φ :=
  (((List.range fdSetsize).map Int.ofNat).filter (fd < ·)).foldl Table.close t

/-! ### The children -/

inductive Child where
  | readconfig (configFd serversock : ℤ)
  | reader (serversock : ℤ)
  | randomService (random randomProto logsock : ℤ)
  | listenservice (logsock acceptsock : ℤ)
  | dataservice (serversock logsock : ℤ)
  | notificationService (logsock consensussock protocolsock : ℤ)
  | protocolService (randomsock acceptsock controlsock logsock datasock notifysock : ℤ)
  | canonizationService (logsock datasock randomsock controlsock notifysock : ℤ)
  | attestationService (logsock datasock controlsock : ℤ)

/-- The descriptors in the order in which they are moved, each with the place that it is for. -/
def Child.fds : Child → List (ℤ × ℤ)
  | .readconfig configFd serversock => [(configFd, 0), (serversock, 1)]
  | .reader serversock => [(serversock, 0)]
  | .randomService random randomProto logsock => [(random, 0), (randomProto, 1), (logsock, 2)]
  | .listenservice logsock acceptsock => [(logsock, 0), (acceptsock, 1)]
  | .dataservice serversock logsock => [(serversock, 0), (logsock, 1)]
  | .notificationService logsock consensussock protocolsock =>
    [(logsock, 0), (consensussock, 1), (protocolsock, 2)]
  | .protocolService randomsock acceptsock controlsock logsock datasock notifysock =>
    [(randomsock, 3), (acceptsock, 0), (controlsock, 4), (logsock, 1), (datasock, 2),
    (notifysock, 5)]
  | .canonizationService logsock datasock randomsock controlsock notifysock =>
    [(logsock, 0), (datasock, 1), (randomsock, 2), (controlsock, 3), (notifysock, 4)]
  | .attestationService logsock datasock controlsock =>
    [(logsock, 0), (datasock, 1), (controlsock, 2)]

def Child.top : Child → ℤ
  | .readconfig .. => 1
  | .reader .. => 0
  | .randomService .. => 2
  | .listenservice .. => 1
  | .dataservice .. => 1
  | .notificationService .. => 2
  | .protocolService .. => 5
  | .canonizationService .. => 4
  | .attestationService .. => 2

/-- What each child does with its descriptors before it executes its command. -/
def handOff (c : Child) (t : Table φ) : FdStatus × Table φ :=
  match privsepProtectDescriptors (c.fds.map Prod.fst) t with
  | (.success, t, descs) =>
    let args := (descs.zip (c.fds.map Prod.snd)).flatMap fun m => [m.1, m.2]
    match privsepSetfds (args ++ [-1]) (privsepCloseStandardFds t) with
    | (.success, t) => (.success, privsepCloseOtherFds c.top t)
    | r => r
  | (status, t, _) => (status, t)

/-! ### Sockets of the listener -/

def lowestFree (t : Table φ) : Option ℤ :=
  ((List.range t.limit.toNat).map Int.ofNat).find? fun d => (t.entry d).isNone

structure ListenOutcome (φ : Type*) where
  socket : φ
  bound : Bool
  listening : Bool

/-- `socket`, which takes the lowest descriptor there is. -/
def socketCall (t : Table φ) (f : φ) : Option (ℤ × Table φ) :=
  match lowestFree t with
  | none => none
  | some d => if h : 0 ≤ d ∧ d < t.limit then some (d, t.put d f h) else none

def openListenSockets (setsock : ℤ) : List (ListenOutcome φ) → Table φ → FdStatus × Table φ
  | [], t => (.success, t)
  | a :: rest, t =>
    match socketCall t a.socket with
    | none => (.listenFailure, t)
    | some (sock, t) =>
      if a.bound = false then (.listenFailure, t)
      else if a.listening = false then (.listenFailure, t)
      else if sock ≠ setsock then
        match t.dup2 sock setsock with
        | none => (.listenFailure, t)
        | some t => openListenSockets (setsock + 1) rest (t.close sock)
      else openListenSockets (setsock + 1) rest t

def listenserviceSockStart : ℤ := 2

def listenserviceProcOpenListenSockets (l : List (ListenOutcome φ)) (t : Table φ) :
    FdStatus × Table φ := openListenSockets listenserviceSockStart l t

/-- `inet_count_sockets`: the descriptors that are open from the given one on. -/
def inetCountSockets (t : Table φ) (start : ℤ) : ℕ :=
  if h : (t.entry start).isSome = true then inetCountSockets t (start + 1) + 1 else 0
  termination_by (t.limit - start).toNat
  decreasing_by
    obtain ⟨f, hf⟩ := Option.isSome_iff_exists.mp h
    have hstart := t.bounded start f hf
    omega

/-! ### Moving out of the way and into place -/

def places (first : ℤ) (n : ℕ) : List ℤ := (List.range n).map fun i : ℕ => first + (i : ℤ)

theorem places_succ (first : ℤ) (n : ℕ) : places first (n + 1) = first :: places (first + 1) n := by
  rw [places, List.range_succ_eq_map, List.map_cons, List.map_map, places]
  refine List.cons_eq_cons.mpr ⟨by omega, ?_⟩
  refine List.map_congr_left fun i _ => ?_
  rw [Function.comp_apply]
  omega

theorem mem_places {first d : ℤ} {n : ℕ} : d ∈ places first n ↔ first ≤ d ∧ d < first + n := by
  simp only [places, List.mem_map, List.mem_range]
  refine ⟨?_, fun ⟨hle, hlt⟩ => ⟨(d - first).toNat, by omega, by omega⟩⟩
  rintro ⟨i, hi, rfl⟩
  omega

theorem places_nodup (first : ℤ) (n : ℕ) : (places first n).Nodup := by
  refine List.Nodup.map ?_ List.nodup_range
  intro i j hij
  have hcast : (i : ℤ) = j := by simpa using hij
  omega

/-- Descriptors are protected by moves to consecutive places. -/
theorem protectFrom_eq (high : ℤ) (descs : List ℤ) (t : Table φ) :
    match t.moves (descs.zip (places high descs.length)) with
    | some t' => protectFrom high descs t = (.success, t', places high descs.length)
    | none => (protectFrom high descs t).1 = .dup2Failure := by
  induction descs generalizing high t with
  | nil => rfl
  | cons desc rest ih =>
    rw [List.length_cons, places_succ, List.zip_cons_cons, Table.moves]
    cases hdup : t.dup2 desc high with
    | none => simp only [Option.bind_none, protectFrom, hdup]
    | some t₁ =>
      have hrest := ih (high + 1) (t₁.close desc)
      simp only [Option.bind_some, protectFrom, hdup]
      cases hmoves : (t₁.close desc).moves (rest.zip (places (high + 1) rest.length)) with
      | none => simpa only [hmoves] using hrest
      | some t₂ =>
        rw [hmoves] at hrest
        simp only at hrest ⊢
        rw [hrest]

theorem privsepSetfds_eq {l : List (ℤ × ℤ)} (hl : l ≠ []) (hpos : ∀ m ∈ l, 0 ≤ m.1 ∧ 0 ≤ m.2)
    (t : Table φ) :
    match t.moves l with
    | some t' => privsepSetfds ((l.flatMap fun m => [m.1, m.2]) ++ [-1]) t = (.success, t')
    | none => (privsepSetfds ((l.flatMap fun m => [m.1, m.2]) ++ [-1]) t).1 = .dup2Failure := by
  induction l generalizing t with
  | nil => exact absurd rfl hl
  | cons m l ih =>
    obtain ⟨a, b⟩ := m
    rw [Table.moves]
    cases hdup : t.dup2 a b with
    | none => simp [privsepSetfds, hdup]
    | some t₁ =>
      cases l with
      | nil => simp [privsepSetfds, hdup, Table.moves]
      | cons m' l =>
        obtain ⟨a', b'⟩ := m'
        have ha' : ¬ a' < 0 := Int.not_lt.mpr (hpos (a', b') (by simp)).1
        have hb' : ¬ b' < 0 := Int.not_lt.mpr (hpos (a', b') (by simp)).2
        have hrest := ih (by simp) (fun m hm => hpos m (List.mem_cons_of_mem _ hm)) (t₁.close a)
        simp only [List.flatMap_cons, List.cons_append, List.nil_append,
          Option.bind_some] at hrest ⊢
        rw [privsepSetfds]
        simp only [hdup, if_neg ha', if_neg hb']
        exact hrest

/-! ### The hand-off -/

/-- What a child can be left with: its own descriptors in their places, none besides them that
`select` can watch. -/
structure HandedOff (c : Child) (t t' : Table φ) : Prop where
  limit : t'.limit = t.limit
  placed : ∀ m ∈ c.fds, t'.entry m.2 = t.entry m.1
  rest : ∀ d < (fdSetsize : ℤ), d ∉ c.fds.map Prod.snd → t'.entry d = none
  beyond : ∀ d, (fdSetsize : ℤ) ≤ d →
    t'.entry d = if d ∈ c.fds.map Prod.fst then none else t.entry d

/-- The descriptors of a child are its own, none of them where they are moved out of the way to, and
there is room for that. -/
structure Roomy (c : Child) (t : Table φ) : Prop where
  distinct : (c.fds.map Prod.fst).Nodup
  outside : ∀ a ∈ c.fds.map Prod.fst, a ∉ places highDesc c.fds.length
  room : highDesc + c.fds.length ≤ t.limit

theorem fds_targets (c : Child) : (c.fds.map Prod.snd).Nodup := by
  cases c <;> simp [Child.fds]

theorem mem_targets (c : Child) (d : ℤ) : d ∈ c.fds.map Prod.snd ↔ 0 ≤ d ∧ d ≤ c.top := by
  cases c <;> simp [Child.fds, Child.top] <;> omega

theorem top_lt (c : Child) : 0 ≤ c.top ∧ c.top ≤ 5 := by
  cases c <;> simp [Child.top]

theorem fds_ne_nil (c : Child) : c.fds ≠ [] := by
  cases c <;> simp [Child.fds]

theorem closeOtherFds_entry (fd d : ℤ) (hfd : 0 ≤ fd) (t : Table φ) :
    (privsepCloseOtherFds fd t).entry d =
      if fd < d ∧ d < (fdSetsize : ℤ) then none else t.entry d := by
  rw [privsepCloseOtherFds, foldl_close_entry]
  refine if_congr ?_ rfl rfl
  simp only [List.mem_filter, List.mem_map, List.mem_range, decide_eq_true_eq, Int.ofNat_eq_natCast]
  refine ⟨?_, fun ⟨hlt, hd⟩ => ⟨⟨d.toNat, by omega, by omega⟩, hlt⟩⟩
  rintro ⟨⟨i, hi, rfl⟩, hlt⟩
  exact ⟨hlt, by omega⟩

theorem closeStandardFds_entry (d : ℤ) (t : Table φ) :
    (privsepCloseStandardFds t).entry d = if 0 ≤ d ∧ d ≤ 2 then none else t.entry d := by
  simp only [privsepCloseStandardFds, close_entry]
  by_cases h : 0 ≤ d ∧ d ≤ 2
  · obtain rfl | rfl | rfl : d = 0 ∨ d = 1 ∨ d = 2 := by omega
    all_goals simp
  · rw [if_neg h, if_neg (by omega), if_neg (by omega), if_neg (by omega)]

/-- Out of the way: each descriptor is at a place of its own above all that the children use. -/
theorem protect_moves {c : Child} {t : Table φ} (h : Roomy c t)
    (hopen : ∀ a ∈ c.fds.map Prod.fst, ∃ f, t.entry a = some f) :
    Movable t ((c.fds.map Prod.fst).zip (places highDesc c.fds.length)) := by
  have hlength : (c.fds.map Prod.fst).length = (places highDesc c.fds.length).length := by
    simp [places]
  have hsources := List.map_fst_zip (Nat.le_of_eq hlength)
  have htargets := List.map_snd_zip (Nat.le_of_eq hlength.symm)
  refine ⟨hsources.symm ▸ h.distinct, htargets.symm ▸ places_nodup .., ?_, ?_, ?_⟩
  · intro m hm m' hm' heq
    exact h.outside m.1 (List.of_mem_zip hm).1 (heq ▸ (List.of_mem_zip hm').2)
  · exact fun m hm => hopen m.1 (List.of_mem_zip hm).1
  · intro m hm
    have hplace := mem_places.mp (List.of_mem_zip hm).2
    have hroom := h.room
    rw [highDesc] at hplace hroom
    omega

/-- Into place: from where they are out of the way, over what was closed. -/
theorem setfds_moves {c : Child} {t : Table φ} (hroom : highDesc + c.fds.length ≤ t.limit)
    (hopen : ∀ p ∈ places highDesc c.fds.length, ∃ f, t.entry p = some f) :
    Movable t ((places highDesc c.fds.length).zip (c.fds.map Prod.snd)) := by
  have hlength : (places highDesc c.fds.length).length = (c.fds.map Prod.snd).length := by
    simp [places]
  have hsources := List.map_fst_zip (Nat.le_of_eq hlength)
  have htargets := List.map_snd_zip (Nat.le_of_eq hlength.symm)
  have htop := top_lt c
  refine ⟨hsources.symm ▸ places_nodup .., htargets.symm ▸ fds_targets c, ?_, ?_, ?_⟩
  · intro m hm m' hm' heq
    have hplace := mem_places.mp (List.of_mem_zip hm).1
    have htarget := (mem_targets c m'.2).mp (List.of_mem_zip hm').2
    rw [highDesc] at hplace
    omega
  · exact fun m hm => hopen m.1 (List.of_mem_zip hm).1
  · intro m hm
    have htarget := (mem_targets c m.2).mp (List.of_mem_zip hm).2
    rw [highDesc] at hroom
    omega

theorem length_fds_le (c : Child) : c.fds.length ≤ 6 := by
  cases c <;> simp [Child.fds]

theorem setfds_sources (c : Child) :
    ((places highDesc c.fds.length).zip (c.fds.map Prod.snd)).map Prod.fst =
      places highDesc c.fds.length := List.map_fst_zip (by simp [places])

theorem setfds_targets (c : Child) :
    ((places highDesc c.fds.length).zip (c.fds.map Prod.snd)).map Prod.snd = c.fds.map Prod.snd :=
  List.map_snd_zip (by simp [places])

theorem setfds_ne_nil (c : Child) :
    (places highDesc c.fds.length).zip (c.fds.map Prod.snd) ≠ [] := by
  intro hnil
  have hsources := setfds_sources c
  rw [hnil] at hsources
  have hlength := congrArg List.length hsources
  simp only [places, List.map_nil, List.length_nil, List.length_map, List.length_range] at hlength
  exact fds_ne_nil c (List.eq_nil_of_length_eq_zero hlength.symm)

theorem setfds_nonneg (c : Child) :
    ∀ m ∈ (places highDesc c.fds.length).zip (c.fds.map Prod.snd), 0 ≤ m.1 ∧ 0 ≤ m.2 := by
  intro m hm
  have hplace := mem_places.mp (List.of_mem_zip hm).1
  have htarget := (mem_targets c m.2).mp (List.of_mem_zip hm).2
  rw [highDesc] at hplace
  exact ⟨by omega, htarget.1⟩

/-- Nothing below the places out of the way is among them. -/
theorem low_not_mem_places {d : ℤ} (h : d < highDesc ∨ (fdSetsize : ℤ) ≤ d) (c : Child) :
    d ∉ places highDesc c.fds.length := by
  have hlength := length_fds_le c
  rw [mem_places]
  rw [highDesc, fdSetsize] at *
  omega

/-- With all its descriptors open a child gets them where its command expects them. -/
theorem handOff_succeeds {c : Child} {t : Table φ} (h : Roomy c t)
    (hopen : ∀ a ∈ c.fds.map Prod.fst, ∃ f, t.entry a = some f) :
    ∃ t', handOff c t = (.success, t') ∧ HandedOff c t t' := by
  have hlength : (places highDesc c.fds.length).length = c.fds.length := by simp [places]
  obtain ⟨t₁, hmoves₁, hlimit₁, hentry₁⟩ := moves_eq (protect_moves h hopen)
  have htargets₁ : ((c.fds.map Prod.fst).zip (places highDesc c.fds.length)).map Prod.snd =
      places highDesc c.fds.length := List.map_snd_zip (by simp [places])
  have hsources₁ : ((c.fds.map Prod.fst).zip (places highDesc c.fds.length)).map Prod.fst =
      c.fds.map Prod.fst := List.map_fst_zip (by simp [places])
  -- what is out of the way is what was given
  have hhigh : ∀ a p, (a, p) ∈ (c.fds.map Prod.fst).zip (places highDesc c.fds.length) →
      (privsepCloseStandardFds t₁).entry p = t.entry a := by
    intro a p hmem
    have hp := mem_places.mp (List.of_mem_zip hmem).2
    rw [highDesc] at hp
    rw [closeStandardFds_entry, if_neg (by omega), hentry₁,
      moved_of_mem (htargets₁.symm ▸ places_nodup ..) hmem]
  have hopen₂ : ∀ p ∈ places highDesc c.fds.length,
      ∃ f, (privsepCloseStandardFds t₁).entry p = some f := by
    intro p hp
    obtain ⟨m, hm, rfl⟩ := List.mem_map.mp (htargets₁.symm ▸ hp)
    obtain ⟨f, hf⟩ := hopen m.1 (List.of_mem_zip hm).1
    exact ⟨f, (hhigh m.1 m.2 hm).trans hf⟩
  have hlimit₂ : (privsepCloseStandardFds t₁).limit = t.limit := hlimit₁
  obtain ⟨t₃, hmoves₃, hlimit₃, hentry₃⟩ :=
    moves_eq (setfds_moves (c := c) (hlimit₂.symm ▸ h.room) hopen₂)
  have hprotect : privsepProtectDescriptors (c.fds.map Prod.fst) t =
      (.success, t₁, places highDesc c.fds.length) := by
    have heq := protectFrom_eq highDesc (c.fds.map Prod.fst) t
    rw [List.length_map, hmoves₁] at heq
    exact heq
  have hsetfds := privsepSetfds_eq (setfds_ne_nil c) (setfds_nonneg c) (privsepCloseStandardFds t₁)
  rw [hmoves₃] at hsetfds
  refine ⟨privsepCloseOtherFds c.top t₃, by simp only [handOff, hprotect, hsetfds], ?_, ?_, ?_, ?_⟩
  · rw [privsepCloseOtherFds, foldl_close_limit, hlimit₃, hlimit₂]
  · intro m hm
    obtain ⟨p, -, hfrom, hto⟩ := mem_zip_through hlength hm
    have htarget := (mem_targets c m.2).mp (List.mem_map_of_mem hm)
    rw [closeOtherFds_entry _ _ (top_lt c).1, if_neg (by omega), hentry₃,
      moved_of_mem ((setfds_targets c).symm ▸ fds_targets c) hto, hhigh m.1 p hfrom]
  · intro d hd hnot
    rw [closeOtherFds_entry _ _ (top_lt c).1]
    by_cases htop : c.top < d
    · rw [if_pos ⟨htop, hd⟩]
    · have hneg : ¬ 0 ≤ d := fun h0 => hnot ((mem_targets c d).mpr ⟨h0, by omega⟩)
      rw [if_neg (by omega)]
      exact Option.eq_none_iff_forall_ne_some.mpr fun f hf => hneg (t₃.bounded d f hf).1
  · intro d hd
    have htop := top_lt c
    have hnot : d ∉ c.fds.map Prod.snd := fun hmem => by
      have htarget := (mem_targets c d).mp hmem
      rw [fdSetsize] at hd
      omega
    have hplaces := low_not_mem_places (.inr hd) c
    rw [closeOtherFds_entry _ _ htop.1, if_neg (by omega), hentry₃,
      moved_of_not_mem ((setfds_targets c).symm ▸ hnot), setfds_sources, if_neg hplaces,
      closeStandardFds_entry, if_neg (by rw [fdSetsize] at hd; omega), hentry₁,
      moved_of_not_mem (htargets₁.symm ▸ hplaces), hsources₁]

/-- A descriptor that is not open is found out before anything is in its place. -/
theorem handOff_fails {c : Child} {t : Table φ} (h : Roomy c t) {a : ℤ}
    (ha : a ∈ c.fds.map Prod.fst) (hclosed : t.entry a = none) :
    (handOff c t).1 = .dup2Failure := by
  obtain ⟨m, hm, rfl⟩ := List.mem_map.mp ha
  obtain ⟨p, -, hfrom, -⟩ :=
    mem_zip_through (p := places highDesc c.fds.length) (by simp [places]) hm
  have hnone : t.moves ((c.fds.map Prod.fst).zip (places highDesc c.fds.length)) = none := by
    refine moves_none ?_ hfrom hclosed
    intro x hx y hy heq
    exact h.outside x.1 (List.of_mem_zip hx).1 (heq ▸ (List.of_mem_zip hy).2)
  have hprotect := protectFrom_eq highDesc (c.fds.map Prod.fst) t
  rw [List.length_map, hnone] at hprotect
  rw [handOff, privsepProtectDescriptors]
  generalize protectFrom highDesc (c.fds.map Prod.fst) t = r at hprotect ⊢
  obtain ⟨status, t', descs⟩ := r
  obtain rfl : status = .dup2Failure := hprotect
  rfl

/-- A child gets exactly what it is given, in the places where its command expects it, or it does
not execute its command. -/
theorem children_get_their_descriptors (c : Child) (t : Table φ) (h : Roomy c t) :
    (∀ a ∈ c.fds.map Prod.fst, ∃ f, t.entry a = some f) ∧
        (∃ t', handOff c t = (.success, t') ∧ HandedOff c t t') ∨
      (∃ a ∈ c.fds.map Prod.fst, t.entry a = none) ∧ (handOff c t).1 = .dup2Failure := by
  by_cases hopen : ∀ a ∈ c.fds.map Prod.fst, ∃ f, t.entry a = some f
  · exact .inl ⟨hopen, handOff_succeeds h hopen⟩
  · obtain ⟨a, hclosed⟩ := not_forall.mp hopen
    obtain ⟨ha, hclosed⟩ := Classical.not_imp.mp hclosed
    have hnone : t.entry a = none :=
      Option.eq_none_iff_forall_ne_some.mpr fun f hf => hclosed ⟨f, hf⟩
    exact .inr ⟨⟨a, ha, hnone⟩, handOff_fails h ha hnone⟩

def firstOpen (n : ℤ) (hn : n ≤ fdSetsize) : Table ℤ where
  entry d := if 0 ≤ d ∧ d < n then some d else none
  limit := fdSetsize
  bounded d f hf := by
    split at hf
    · omega
    · cases hf

theorem roomy_firstOpen : Roomy (.protocolService 3 4 5 6 7 8) (firstOpen 9 (by decide)) where
  distinct := by decide
  outside := by simp [Child.fds, mem_places, highDesc]
  room := by decide

theorem protocol_service_gets_its_descriptors :
    Roomy (.protocolService 3 4 5 6 7 8) (firstOpen 9 (by decide)) ∧
      ((handOff (.protocolService 3 4 5 6 7 8) (firstOpen 9 (by decide))).2).entry 2 = some 7 := by
  refine ⟨roomy_firstOpen, ?_⟩
  rcases children_get_their_descriptors (.protocolService 3 4 5 6 7 8) (firstOpen 9 (by decide))
    roomy_firstOpen with ⟨-, t', heq, hhanded⟩ | ⟨⟨a, ha, hnone⟩, -⟩
  · rw [heq]
    exact (hhanded.placed (7, 2) (by decide)).trans (by decide)
  · revert a
    decide

/-! ### The sockets that the listener finds -/

theorem lowestFree_eq {t : Table φ} {d : ℤ} (hd : 0 ≤ d ∧ d < t.limit)
    (hfilled : ∀ e, 0 ≤ e → e < d → (t.entry e).isSome) (hfree : t.entry d = none) :
    lowestFree t = some d := by
  rw [lowestFree, List.find?_map, Option.map_eq_some_iff]
  refine ⟨d.toNat, ?_, by simp only [Int.ofNat_eq_natCast]; omega⟩
  rw [List.find?_range_eq_some]
  refine ⟨?_, ?_, ?_⟩
  · have hcast : Int.ofNat d.toNat = d := by simp only [Int.ofNat_eq_natCast]; omega
    simp only [Function.comp_apply, hcast, hfree, Option.isNone_none]
  · rw [List.mem_range]
    omega
  · intro e he
    have hsome := hfilled (e : ℤ) (by omega) (by omega)
    simp only [Function.comp_apply, Int.ofNat_eq_natCast, Bool.not_eq_true',
      Option.isNone_eq_false_iff]
    exact hsome

/-- `setsock` is the lowest descriptor that is free before each round. -/
structure Filled (setsock bound : ℤ) (t : Table φ) : Prop where
  nonneg : 0 ≤ setsock
  below : ∀ d, 0 ≤ d → d < setsock → (t.entry d).isSome
  free : ∀ d, setsock ≤ d → d < bound → t.entry d = none

theorem socketCall_filled {setsock bound : ℤ} {t : Table φ} (h : Filled setsock bound t)
    (hbound : setsock < bound) (hlimit : setsock < t.limit) (f : φ) :
    ∃ t', socketCall t f = some (setsock, t') ∧ t'.limit = t.limit ∧
      (∀ d, t'.entry d = if d = setsock then some f else t.entry d) ∧
      Filled (setsock + 1) bound t' := by
  have hlowest := lowestFree_eq ⟨h.nonneg, hlimit⟩ h.below
    (h.free setsock (Int.le_refl setsock) hbound)
  have hentry : ∀ d, (t.put setsock f ⟨h.nonneg, hlimit⟩).entry d =
      if d = setsock then some f else t.entry d := fun d => Function.update_apply ..
  refine ⟨t.put setsock f ⟨h.nonneg, hlimit⟩, ?_, rfl, hentry, ?_, ?_, ?_⟩
  · rw [socketCall, hlowest]
    exact dif_pos ⟨h.nonneg, hlimit⟩
  · have hnonneg := h.nonneg
    omega
  · intro d h0 hd
    rw [hentry]
    by_cases heq : d = setsock
    · rw [if_pos heq, Option.isSome_some]
    · rw [if_neg heq]
      exact h.below d h0 (by omega)
  · intro d hle hlt
    rw [hentry, if_neg (by omega)]
    exact h.free d (by omega) hlt

/-- The sockets are in the order of the addresses from `setsock` on, and nothing else changes. -/
theorem openListenSockets_filled (l : List (ListenOutcome φ)) {setsock bound : ℤ} {t : Table φ}
    (h : Filled setsock bound t) (hbound : setsock + l.length ≤ bound)
    (hlimit : setsock + l.length ≤ t.limit) :
    if ∀ a ∈ l, a.bound = true ∧ a.listening = true then
      ∃ t', openListenSockets setsock l t = (.success, t') ∧
        ∀ d, t'.entry d =
          if setsock ≤ d ∧ d < setsock + l.length then
            (l[(d - setsock).toNat]?).map ListenOutcome.socket
          else t.entry d
    else (openListenSockets setsock l t).1 = .listenFailure := by
  induction l generalizing setsock t with
  | nil =>
    rw [if_pos (by simp)]
    refine ⟨t, rfl, fun d => ?_⟩
    rw [if_neg (by simp)]
  | cons a rest ih =>
    simp only [List.length_cons, Int.natCast_add, Int.natCast_one] at hbound hlimit
    obtain ⟨t₁, hsocket, hlimit₁, hentry₁, hfilled⟩ :=
      socketCall_filled h (by omega) (by omega) a.socket
    have hrest := ih hfilled (by omega) (by omega)
    simp only [openListenSockets, hsocket, List.forall_mem_cons]
    by_cases hbind : a.bound = false
    · rw [if_neg (by simp [hbind]), if_pos hbind]
    · rw [if_neg hbind]
      by_cases hlisten : a.listening = false
      · rw [if_neg (by simp [hlisten]), if_pos hlisten]
      · simp only [if_neg hlisten, ne_eq, not_true_eq_false, if_false]
        have hhead : a.bound = true ∧ a.listening = true := by simp_all
        by_cases hall : ∀ a ∈ rest, a.bound = true ∧ a.listening = true
        · rw [if_pos hall] at hrest
          rw [if_pos ⟨hhead, hall⟩]
          obtain ⟨t', hrun, hentry⟩ := hrest
          refine ⟨t', hrun, fun d => ?_⟩
          simp only [hentry, hentry₁, List.length_cons, Int.natCast_add, Int.natCast_one]
          by_cases heq : d = setsock
          · subst heq
            rw [if_neg (by omega), if_pos rfl, if_pos (by omega), Int.sub_self]
            rfl
          · rw [if_neg heq]
            refine if_ctx_congr (by omega) (fun hd => ?_) fun _ => rfl
            have hnat : (d - setsock).toNat = (d - (setsock + 1)).toNat + 1 := by omega
            rw [hnat, List.getElem?_cons_succ]
        · rw [if_neg hall] at hrest
          rw [if_neg fun hboth => hall hboth.2]
          exact hrest

theorem inetCountSockets_eq {t : Table φ} (n : ℕ) {start : ℤ}
    (hopen : ∀ d, start ≤ d → d < start + n → (t.entry d).isSome)
    (hclosed : t.entry (start + n) = none) : inetCountSockets t start = n := by
  induction n generalizing start with
  | zero =>
    rw [Int.natCast_zero, Int.add_zero] at hclosed
    rw [inetCountSockets, dif_neg (by simp [hclosed])]
  | succ n ih =>
    have hfirst := hopen start (Int.le_refl start) (by omega)
    rw [inetCountSockets, dif_pos hfirst]
    have hnext : start + 1 + (n : ℤ) = start + ((n + 1 : ℕ) : ℤ) := by omega
    rw [ih (fun d hle hlt => hopen d (by omega) (by omega)) (hnext.symm ▸ hclosed)]

/-- The listener finds the sockets of the configured addresses, in their order, and no other
descriptors; it is not started without all of them. -/
theorem listener_finds_its_sockets (logsock acceptsock : ℤ) (t : Table φ)
    (h : Roomy (.listenservice logsock acceptsock) t)
    (hopen : ∀ a ∈ [logsock, acceptsock], ∃ f, t.entry a = some f) (l : List (ListenOutcome φ))
    (hlength : 2 + l.length < fdSetsize) (hlimit : 2 + (l.length : ℤ) ≤ t.limit) :
    ∃ t₁, handOff (.listenservice logsock acceptsock) t = (.success, t₁) ∧
      if ∀ a ∈ l, a.bound = true ∧ a.listening = true then
        ∃ t', listenserviceProcOpenListenSockets l t₁ = (.success, t') ∧
          t'.entry 0 = t.entry logsock ∧ t'.entry 1 = t.entry acceptsock ∧
          (∀ d, 2 ≤ d → d < (fdSetsize : ℤ) →
            t'.entry d = (l[(d - 2).toNat]?).map ListenOutcome.socket) ∧
          inetCountSockets t' listenserviceSockStart = l.length
      else (listenserviceProcOpenListenSockets l t₁).1 = .listenFailure := by
  obtain ⟨t₁, hhandoff, hhanded⟩ := handOff_succeeds h hopen
  have hlog : t₁.entry 0 = t.entry logsock := hhanded.placed (logsock, 0) (by simp [Child.fds])
  have haccept : t₁.entry 1 = t.entry acceptsock :=
    hhanded.placed (acceptsock, 1) (by simp [Child.fds])
  have hfree : ∀ d, 2 ≤ d → d < (fdSetsize : ℤ) → t₁.entry d = none := by
    intro d hle hlt
    refine hhanded.rest d hlt fun hmem => ?_
    have htarget := (mem_targets (.listenservice logsock acceptsock) d).mp hmem
    rw [Child.top] at htarget
    omega
  have hfilled : Filled 2 fdSetsize t₁ := by
    refine ⟨by decide, fun d h0 hlt => ?_, hfree⟩
    obtain rfl | rfl : d = 0 ∨ d = 1 := by omega
    · obtain ⟨f, hf⟩ := hopen logsock (by simp)
      rw [hlog, hf, Option.isSome_some]
    · obtain ⟨f, hf⟩ := hopen acceptsock (by simp)
      rw [haccept, hf, Option.isSome_some]
  have hsockets := openListenSockets_filled l hfilled (by omega) (hhanded.limit.symm ▸ hlimit)
  refine ⟨t₁, hhandoff, ?_⟩
  rw [listenserviceProcOpenListenSockets, listenserviceSockStart]
  by_cases hall : ∀ a ∈ l, a.bound = true ∧ a.listening = true
  · rw [if_pos hall] at hsockets ⊢
    obtain ⟨t', hrun, hentry⟩ := hsockets
    have hplaces : ∀ d, 2 ≤ d → d < (fdSetsize : ℤ) →
        t'.entry d = (l[(d - 2).toNat]?).map ListenOutcome.socket := by
      intro d hle hlt
      rw [hentry]
      by_cases hd : d < 2 + l.length
      · rw [if_pos ⟨hle, hd⟩]
      · have hpast : l.length ≤ (d - 2).toNat := by omega
        rw [if_neg (by omega), hfree d hle hlt, List.getElem?_eq_none hpast, Option.map_none]
    refine ⟨t', hrun, ?_, ?_, hplaces, ?_⟩
    · rw [hentry, if_neg (by omega), hlog]
    · rw [hentry, if_neg (by omega), haccept]
    · refine inetCountSockets_eq l.length (fun d hle hlt => ?_) ?_
      · have hd : (d - 2).toNat < l.length := by omega
        rw [hplaces d hle (by omega), List.getElem?_eq_getElem hd, Option.map_some,
          Option.isSome_some]
      · rw [hplaces _ (by omega) (by omega), List.getElem?_eq_none (by omega), Option.map_none]
  · rw [if_neg hall] at hsockets ⊢
    exact hsockets

/-- Two addresses, the sockets of which are numbered. -/
theorem listener_finds_two_sockets :
    ∃ t₁, handOff (.listenservice 3 4) (firstOpen 5 (by decide)) = (.success, t₁) ∧
      ∃ t', listenserviceProcOpenListenSockets [⟨70, true, true⟩, ⟨71, true, true⟩] t₁ =
          (.success, t') ∧ t'.entry 3 = some 71 ∧ inetCountSockets t' 2 = 2 := by
  have hroomy : Roomy (.listenservice 3 4) (firstOpen 5 (by decide)) :=
    ⟨by decide, by simp [Child.fds, mem_places, highDesc], by decide⟩
  obtain ⟨t₁, hhandoff, hsockets⟩ := listener_finds_its_sockets 3 4 (firstOpen 5 (by decide)) hroomy
    (by simp [firstOpen]) [⟨70, true, true⟩, ⟨71, true, true⟩] (by decide) (by decide)
  rw [if_pos (by simp)] at hsockets
  obtain ⟨t', hrun, -, -, hplaces, hcount⟩ := hsockets
  exact ⟨t₁, hhandoff, t', hrun, hplaces 3 (by decide) (by decide), hcount⟩

end DescriptorHandoff
