import Agentd.EntityReader
import Agentd.StreamFronts

/-! # The stream of the entity reader

An entity on the stream is a begin mark, an id, two keys, its capabilities where there are some, and
an end mark. What the supervisor takes for an entity is either that, or a record that is cut short
by a field of a wrong size. -/
namespace EntityStreams

open ByteString
open DataserviceRecords (Uuid)
open FragmentedStreams
open TypedIpc
open StreamFronts
open ConfigBlock
open EntityReader

variable {fails : ℕ → Bool} {frags mid left : List Bytes} {rest : Bytes} {h h' : Heap} {w : Bool}

/-! ### Records -/

def markPieces (type : BitVec 8) : List Bytes := integerPieces .uint8 1 type

def dataPieces (b : Bytes) : List Bytes := sizedPieces .dataPacket b

def countPieces (count : BitVec 64) : List Bytes := integerPieces .uint64 8 count

def uuidPieces (id : Uuid) : List Bytes := dataPieces (be 16 id)

def capPieces (c : Capability) : List Bytes :=
  markPieces streamTypeBom ++ (uuidPieces c.subject ++ (uuidPieces c.verb ++
    (uuidPieces c.object ++ markPieces streamTypeEom)))

inductive CutCapability where
  | subject (b : Bytes)
  | verb (subject : Uuid) (b : Bytes)
  | object (subject verb : Uuid) (b : Bytes)
  deriving DecidableEq

namespace CutCapability

def pieces : CutCapability → List Bytes
  | subject b => markPieces streamTypeBom ++ dataPieces b
  | verb s b => markPieces streamTypeBom ++ (uuidPieces s ++ dataPieces b)
  | object s v b => markPieces streamTypeBom ++ (uuidPieces s ++ (uuidPieces v ++ dataPieces b))

def WrongSize : CutCapability → Prop
  | subject b => b.length ≠ 16 ∧ b.length < 2 ^ 32
  | verb _ b => b.length ≠ 16 ∧ b.length < 2 ^ 32
  | object _ _ b => b.length ≠ 16 ∧ b.length < 2 ^ 32

end CutCapability

/-- What is taken for an entity; where a capability is cut, with the number of capabilities that was
announced. -/
structure Record where
  entity : PublicEntity
  cut : Option (BitVec 64 × CutCapability)
  deriving DecidableEq

/-- The capabilities that were read, the last one at the head. -/
def capsPieces (caps : List Capability) (cut : Option (BitVec 64 × CutCapability)) : List Bytes :=
  match cut with
  | none => countPieces (BitVec.ofNat 64 caps.length) ++ caps.reverse.flatMap capPieces
  | some (count, c) => countPieces count ++ (caps.reverse.flatMap capPieces ++ c.pieces)

def CapsOk (caps : List Capability) (cut : Option (BitVec 64 × CutCapability)) : Prop :=
  match cut with
  | none => caps.length < 2 ^ 64
  | some (count, c) => caps.length < count.toNat ∧ c.WrongSize

def headerPieces (id enc sign : Bytes) : List Bytes :=
  markPieces streamTypeBom ++ (dataPieces id ++ (dataPieces enc ++ dataPieces sign))

namespace Record

def pieces (withCaps : Bool) (r : Record) : List Bytes :=
  headerPieces (be 16 r.entity.id) r.entity.encPubkey r.entity.signPubkey ++
    ((if withCaps then capsPieces r.entity.capHead r.cut else []) ++ markPieces streamTypeEom)

structure Ok (withCaps : Bool) (r : Record) : Prop where
  enc : r.entity.encPubkey.length < 2 ^ 32
  sign : r.entity.signPubkey.length < 2 ^ 32
  noCaps : withCaps = false → r.entity.capHead = [] ∧ r.cut = none
  caps : CapsOk r.entity.capHead r.cut

end Record

/-! ### Buffers -/

/-- What happened to the buffers since: those that were released have been read since, and none of
them twice. -/
def Clean (h h' : Heap) : Prop :=
  h.allocs ≤ h'.allocs ∧ h.buffers ⊆ h'.buffers ∧
    ∃ ps : List ℕ, h'.released = h.released ++ ps.map some ∧ ps.Nodup ∧
      ∀ p ∈ ps, h.allocs ≤ p ∧ p < h'.allocs ∧ p ∈ h'.buffers

theorem Clean.refl (h : Heap) : Clean h h :=
  ⟨Nat.le_refl _, List.Subset.refl _, [], by simp, List.nodup_nil, by simp⟩

theorem Clean.trans {h₁ h₂ h₃ : Heap} (h₁₂ : Clean h₁ h₂) (h₂₃ : Clean h₂ h₃) : Clean h₁ h₃ := by
  obtain ⟨hle, hsub, ps, hps, hnodup, hin⟩ := h₁₂
  obtain ⟨hle', hsub', qs, hqs, hnodup', hin'⟩ := h₂₃
  refine ⟨hle.trans hle', List.Subset.trans hsub hsub', ps ++ qs, ?_, ?_, ?_⟩
  · rw [hqs, hps, List.map_append, List.append_assoc]
  · rw [List.nodup_append]
    refine ⟨hnodup, hnodup', fun p hp q hq heq => ?_⟩
    obtain ⟨-, hlt, -⟩ := hin p hp
    obtain ⟨hge, -, -⟩ := hin' q hq
    omega
  · intro p hp
    rcases List.mem_append.mp hp with hfirst | hsecond
    · obtain ⟨hge, hlt, hbuf⟩ := hin p hfirst
      exact ⟨hge, by omega, hsub' hbuf⟩
    · obtain ⟨hge, hlt, hbuf⟩ := hin' p hsecond
      exact ⟨by omega, hlt, hbuf⟩

theorem clean_alloc (h : Heap) : Clean h h.alloc :=
  ⟨Nat.le_succ _, List.Subset.refl _, [], by simp [Heap.alloc], List.nodup_nil, by simp⟩

/-- A buffer that was read and released, with clean steps between. -/
theorem Clean.release (hc : Clean h.allocBuffer h') : Clean h (h'.free [some h.allocs]) := by
  obtain ⟨hle, hsub, ps, hps, hnodup, hin⟩ := hc
  have hallocs : h.allocBuffer.allocs = h.allocs + 1 := rfl
  have hbuffers : h.allocBuffer.buffers = h.buffers ++ [h.allocs] := rfl
  have hreleased : h.allocBuffer.released = h.released := rfl
  rw [hallocs] at hle hin
  rw [hbuffers] at hsub
  refine ⟨by simp only [Heap.free]; omega, fun p hp => hsub (List.mem_append_left _ hp),
    ps ++ [h.allocs], ?_, ?_, ?_⟩
  · rw [Heap.free, hps, hreleased, List.map_append, List.append_assoc]
    rfl
  · rw [List.nodup_append]
    refine ⟨hnodup, by simp, fun p hp q hq heq => ?_⟩
    obtain ⟨hge, -, -⟩ := hin p hp
    rw [List.mem_singleton.mp hq] at heq
    omega
  · intro p hp
    simp only [Heap.free]
    rcases List.mem_append.mp hp with hfirst | hsecond
    · obtain ⟨hge, hlt, hbuf⟩ := hin p hfirst
      exact ⟨by omega, hlt, hbuf⟩
    · rw [List.mem_singleton.mp hsecond]
      exact ⟨Nat.le_refl _, by omega, hsub (List.mem_append_right _ List.mem_cons_self)⟩

theorem free_free (h : Heap) (ps qs : List Pointer) : (h.free ps).free qs = h.free (ps ++ qs) := by
  simp only [Heap.free, List.append_assoc]

theorem clean_free_one (h : Heap) : Clean h (h.allocBuffer.free [some h.allocs]) :=
  (Clean.refl _).release

theorem clean_free_two (h : Heap) (hc : Clean h.allocBuffer.allocBuffer h') :
    Clean h (h'.free [some h.allocBuffer.allocs, some h.allocs]) := by
  have hinner := (Clean.release hc).release
  rwa [free_free] at hinner

theorem clean_free_three (h : Heap) (hc : Clean h.allocBuffer.allocBuffer.allocBuffer h') :
    Clean h (h'.free [some h.allocBuffer.allocBuffer.allocs, some h.allocBuffer.allocs,
      some h.allocs]) := by
  have hinner := clean_free_two h (Clean.release hc)
  rwa [free_free] at hinner

/-! ### One block of data -/

theorem ipcReadDataBlock_ok {m : Bool} {b : Bytes} (hb : ipcReadDataBlock m frags = (.ok b, left)) :
    ipcReadDataBlock false frags = (.ok b, left) := by
  cases m with
  | false => exact hb
  | true =>
    rw [ipcReadDataBlock, readTyped] at hb
    split at hb
    · cases hb
    · split_ifs at hb
      · rw [readSized] at hb
        split at hb
        · cases hb
        · simp at hb
      · cases hb

/-- What a read of data did: an allocation, and the buffer if there is one. -/
theorem readData_cases (fails : ℕ → Bool) (frags : List Bytes) (h : Heap) :
    (∃ e left, readData fails frags h = (.error e, left, h.alloc)) ∨
      ∃ b left, readData fails frags h = (.ok (b, h.allocs), left, h.allocBuffer) ∧
        b.length < 2 ^ 32 ∧ Front (dataPieces b) frags left := by
  rw [readData]
  cases hread : ipcReadDataBlock (fails h.allocs) frags with
  | mk x left =>
    cases x with
    | error e => exact Or.inl ⟨e, left, rfl⟩
    | ok b =>
      obtain ⟨hlt, hfront⟩ := decodes_dataPacket.sound (ipcReadDataBlock_ok hread)
      exact Or.inr ⟨b, left, rfl, hlt, hfront⟩

def noFailure : ℕ → Bool := fun _ => false

theorem readData_complete {b : Bytes} (hb : b.length < 2 ^ 32)
    (ha : Arrives (dataPieces b) frags rest)
    (h : Heap) : ∃ left, readData noFailure frags h = (.ok (b, h.allocs), left, h.allocBuffer) ∧
      Front (dataPieces b) frags left := by
  obtain ⟨left, hread, hfront⟩ := decodes_dataPacket.complete hb ha
  refine ⟨left, ?_, hfront⟩
  rw [readData, noFailure, hread]

theorem be_16 {b : Bytes} (hb : b.length = 16) : be 16 (bits 128 b) = b := be_bits (by decide) hb

theorem length_uuid (id : Uuid) : (be 16 id).length = 16 := length_be 16 id

/-! ### One capability -/

def turnLocals (h : Heap) : Locals :=
  ⟨some h.allocs, some h.allocBuffer.allocs, some h.allocBuffer.allocBuffer.allocs⟩

def TurnDoes (frags : List Bytes) (h : Heap) (x : Turn × List Bytes × Heap) : Prop :=
  match x with
  | (.next cap l, left, h') => Front (capPieces cap) frags left ∧
      l = turnLocals h ∧
      h' = h.allocBuffer.allocBuffer.allocBuffer.alloc
  | (.stopped (.ok ()), left, h') =>
      Clean h h' ∧ ∃ c : CutCapability, c.WrongSize ∧ Front c.pieces frags left
  | (.stopped (.error _), _, h') => Clean h h'

theorem readCapability_does (fails : ℕ → Bool) (frags : List Bytes) (h : Heap) :
    TurnDoes frags h (readCapability fails frags h) := by
  rw [readCapability]
  split
  · exact Clean.refl h
  rename_i type frags₁ hbom
  obtain ⟨-, hf₁⟩ := decodes_uint8.sound hbom
  split_ifs with hne
  · exact Clean.refl h
  obtain rfl := not_not.mp hne
  rcases readData_cases fails frags₁ h with ⟨e, left, hs⟩ | ⟨subject, frags₂, hs, hlt, hf₂⟩
  · rw [hs]
    exact clean_alloc h
  rw [hs]
  simp only
  split_ifs with hsize
  · exact ⟨clean_free_one h, .subject subject, ⟨hsize, hlt⟩, hf₁.append hf₂⟩
  rcases readData_cases fails frags₂ h.allocBuffer with ⟨e, left, hv⟩ |
    ⟨verb, frags₃, hv, hlt', hf₃⟩
  · rw [hv]
    exact (clean_alloc _).release
  rw [hv]
  simp only
  rw [← be_16 (not_not.mp hsize)] at hf₂
  split_ifs with hsize'
  · exact ⟨clean_free_two h (Clean.refl _), .verb (bits 128 subject) verb, ⟨hsize', hlt'⟩,
      hf₁.append (hf₂.append hf₃)⟩
  rcases readData_cases fails frags₃ h.allocBuffer.allocBuffer with
    ⟨e, left, ho⟩ | ⟨object, frags₄, ho, hlt'', hf₄⟩
  · rw [ho]
    exact clean_free_two h (clean_alloc _)
  rw [ho]
  simp only
  rw [← be_16 (not_not.mp hsize')] at hf₃
  by_cases hsize'' : object.length ≠ 16
  · rw [if_pos hsize'']
    exact ⟨clean_free_three h (Clean.refl _), .object (bits 128 subject) (bits 128 verb) object,
      ⟨hsize'', hlt''⟩, hf₁.append (hf₂.append (hf₃.append hf₄))⟩
  rw [if_neg hsize'']
  rw [← be_16 (not_not.mp hsize'')] at hf₄
  split
  · exact clean_free_three h (Clean.refl _)
  rename_i type frags₅ heom
  obtain ⟨-, hf₅⟩ := decodes_uint8.sound heom
  split_ifs with hne'
  · exact clean_free_three h (Clean.refl _)
  · exact clean_free_three h (clean_alloc _)
  obtain rfl := not_not.mp hne'
  exact ⟨hf₁.append (hf₂.append (hf₃.append (hf₄.append hf₅))), rfl, rfl⟩

theorem readCapability_complete {c : Capability} (ha : Arrives (capPieces c) frags rest)
    (h : Heap) :
    ∃ left, readCapability noFailure frags h =
      (.next c (turnLocals h), left, h.allocBuffer.allocBuffer.allocBuffer.alloc) ∧
        Front (capPieces c) frags left := by
  have hsize : ∀ id : Uuid, (be 16 id).length < 2 ^ 32 := by simp
  obtain ⟨frags₁, hbom, hf₁⟩ := decodes_uint8.complete trivial ha.front
  have ha₁ := hf₁.arrives_append ha
  obtain ⟨frags₂, hs, hf₂⟩ := readData_complete (hsize _) ha₁.front h
  have ha₂ := hf₂.arrives_append ha₁
  obtain ⟨frags₃, hv, hf₃⟩ := readData_complete (hsize _) ha₂.front h.allocBuffer
  have ha₃ := hf₃.arrives_append ha₂
  obtain ⟨frags₄, ho, hf₄⟩ := readData_complete (hsize _) ha₃.front h.allocBuffer.allocBuffer
  obtain ⟨left, heom, hf₅⟩ := decodes_uint8.complete trivial (hf₄.arrives_append ha₃)
  refine ⟨left, ?_, hf₁.append (hf₂.append (hf₃.append (hf₄.append hf₅)))⟩
  rw [readCapability, hbom]
  simp only [ne_eq, not_true_eq_false, if_false, hs, length_uuid, hv, ho, heom, noFailure,
    Bool.false_eq_true, bits_be (show 128 = 8 * 16 from rfl), turnLocals]

theorem readCapability_cut {c : CutCapability} (hc : c.WrongSize) (ha : Arrives c.pieces frags rest)
    (h : Heap) : ∃ left h', readCapability noFailure frags h = (.stopped (.ok ()), left, h') ∧
      Front c.pieces frags left := by
  have hsize : ∀ id : Uuid, (be 16 id).length < 2 ^ 32 := by simp
  cases c with
  | subject b =>
    obtain ⟨frags₁, hbom, hf₁⟩ := decodes_uint8.complete trivial ha.front
    obtain ⟨left, hs, hf₂⟩ := readData_complete hc.2 (hf₁.arrives_append ha) h
    refine ⟨left, h.allocBuffer.free [some h.allocs], ?_, hf₁.append hf₂⟩
    rw [readCapability, hbom]
    simp only [ne_eq, not_true_eq_false, if_false, hs, hc.1, not_false_eq_true, if_true]
  | verb s b =>
    obtain ⟨frags₁, hbom, hf₁⟩ := decodes_uint8.complete trivial ha.front
    have ha₁ := hf₁.arrives_append ha
    obtain ⟨frags₂, hs, hf₂⟩ := readData_complete (hsize _) ha₁.front h
    obtain ⟨left, hv, hf₃⟩ := readData_complete hc.2 (hf₂.arrives_append ha₁) h.allocBuffer
    refine ⟨left, h.allocBuffer.allocBuffer.free [some h.allocBuffer.allocs, some h.allocs], ?_,
      hf₁.append (hf₂.append hf₃)⟩
    rw [readCapability, hbom]
    simp only [ne_eq, not_true_eq_false, if_false, hs, length_uuid, hv, hc.1, not_false_eq_true,
      if_true]
  | object s v b =>
    obtain ⟨frags₁, hbom, hf₁⟩ := decodes_uint8.complete trivial ha.front
    have ha₁ := hf₁.arrives_append ha
    obtain ⟨frags₂, hs, hf₂⟩ := readData_complete (hsize _) ha₁.front h
    have ha₂ := hf₂.arrives_append ha₁
    obtain ⟨frags₃, hv, hf₃⟩ := readData_complete (hsize _) ha₂.front h.allocBuffer
    obtain ⟨left, ho, hf₄⟩ :=
      readData_complete hc.2 (hf₃.arrives_append ha₂) h.allocBuffer.allocBuffer
    refine ⟨left, h.allocBuffer.allocBuffer.allocBuffer.free
      [some h.allocBuffer.allocBuffer.allocs, some h.allocBuffer.allocs, some h.allocs], ?_,
      hf₁.append (hf₂.append (hf₃.append hf₄))⟩
    rw [readCapability, hbom]
    simp only [ne_eq, not_true_eq_false, if_false, hs, length_uuid, hv, ho, hc.1,
      not_false_eq_true, if_true]

/-! ### The loop -/

theorem clean_allocBuffer (h : Heap) : Clean h h.allocBuffer :=
  ⟨Nat.le_succ _, List.subset_append_left _ _, [], by simp [Heap.allocBuffer], List.nodup_nil,
    by simp⟩

theorem clean_turn (h : Heap) : Clean h h.allocBuffer.allocBuffer.allocBuffer.alloc :=
  (clean_allocBuffer h).trans ((clean_allocBuffer _).trans
    ((clean_allocBuffer _).trans (clean_alloc _)))

/-- A loop that ends without an error has read all capabilities, or some and a cut one. -/
theorem readCapabilities_sound {count : ℕ} {l : Locals} {caps caps' : List Capability}
    (hread : readCapabilities fails count l caps frags h = (.ok (), caps', left, h')) :
    ∃ cs : List Capability, caps' = cs.reverse ++ caps ∧
      ((cs.length = count ∧ Front (cs.flatMap capPieces) frags left) ∨
        ∃ c : CutCapability, c.WrongSize ∧ cs.length < count ∧
          Front (cs.flatMap capPieces ++ c.pieces) frags left) := by
  induction count generalizing l caps frags h with
  | zero =>
    simp only [readCapabilities, Prod.mk.injEq, true_and] at hread
    obtain ⟨rfl, rfl, -⟩ := hread
    exact ⟨[], rfl, Or.inl ⟨rfl, Front.nil _⟩⟩
  | succ count ih =>
    have hturn := readCapability_does fails frags h
    rw [readCapabilities] at hread
    split at hread
    · rename_i result frags₁ h₁ hstop
      rw [hstop] at hturn
      simp only [Prod.mk.injEq] at hread
      obtain ⟨rfl, rfl, rfl, rfl⟩ := hread
      obtain ⟨-, c, hc, hfront⟩ := hturn
      exact ⟨[], rfl, Or.inr ⟨c, hc, Nat.succ_pos _, hfront⟩⟩
    · rename_i cap l₁ frags₁ h₁ hnext
      rw [hnext] at hturn
      obtain ⟨hfront, -, -⟩ := hturn
      obtain ⟨cs, rfl, hcs⟩ := ih hread
      refine ⟨cap :: cs, by simp, ?_⟩
      rcases hcs with ⟨hlen, hrest⟩ | ⟨c, hc, hlen, hrest⟩
      · exact Or.inl ⟨by rw [List.length_cons, hlen], hfront.append hrest⟩
      · refine Or.inr ⟨c, hc, by rw [List.length_cons]; omega, ?_⟩
        rw [List.flatMap_cons, List.append_assoc]
        exact hfront.append hrest

/-- A loop with at least one turn releases what it has read. -/
theorem readCapabilities_clean {count : ℕ} (hcount : count ≠ 0) (l : Locals)
    (caps : List Capability) (frags : List Bytes) (h : Heap) :
    Clean h (readCapabilities fails count l caps frags h).2.2.2 := by
  induction count generalizing l caps frags h with
  | zero => exact absurd rfl hcount
  | succ count ih =>
    have hturn := readCapability_does fails frags h
    rw [readCapabilities]
    split
    · rename_i result frags₁ h₁ hstop
      rw [hstop] at hturn
      cases result with
      | error e => exact hturn
      | ok u => exact hturn.1
    · rename_i cap l₁ frags₁ h₁ hnext
      rw [hnext] at hturn
      obtain ⟨-, rfl, rfl⟩ := hturn
      by_cases hlast : count = 0
      · subst hlast
        exact clean_free_three h (clean_alloc _)
      · exact (clean_turn h).trans (ih hlast _ _ _ _)

theorem readCapabilities_complete {cs : List Capability}
    (ha : Arrives (cs.flatMap capPieces) frags rest) (l : Locals) (caps : List Capability)
    (h : Heap) :
    ∃ left h', readCapabilities noFailure cs.length l caps frags h =
      (.ok (), cs.reverse ++ caps, left, h') ∧ Front (cs.flatMap capPieces) frags left := by
  induction cs generalizing l caps frags h with
  | nil => exact ⟨frags, _, rfl, Front.nil _⟩
  | cons c cs ih =>
    obtain ⟨mid, hturn, hfront⟩ := readCapability_complete ha.front h
    obtain ⟨left, h', hread, hrest⟩ := ih (hfront.arrives_append ha) (turnLocals h) (c :: caps)
      h.allocBuffer.allocBuffer.allocBuffer.alloc
    refine ⟨left, h', ?_, hfront.append hrest⟩
    rw [List.length_cons, readCapabilities, hturn]
    simp only [hread, List.reverse_cons, List.append_assoc, List.singleton_append]

theorem readCapabilities_cut {cs : List Capability} {c : CutCapability} {count : ℕ}
    (hc : c.WrongSize) (hcount : cs.length < count)
    (ha : Arrives (cs.flatMap capPieces ++ c.pieces) frags rest) (l : Locals)
    (caps : List Capability) (h : Heap) :
    ∃ left h', readCapabilities noFailure count l caps frags h =
      (.ok (), cs.reverse ++ caps, left, h') ∧
        Front (cs.flatMap capPieces ++ c.pieces) frags left := by
  induction cs generalizing count l caps frags h with
  | nil =>
    obtain ⟨count, rfl⟩ := Nat.exists_eq_add_of_lt hcount
    obtain ⟨left, h', hturn, hfront⟩ := readCapability_cut hc ha h
    refine ⟨left, h', ?_, hfront⟩
    rw [readCapabilities, hturn]
    rfl
  | cons c' cs ih =>
    obtain ⟨count, rfl⟩ := Nat.exists_eq_add_of_lt hcount
    rw [List.flatMap_cons, List.append_assoc] at ha ⊢
    obtain ⟨mid, hturn, hfront⟩ := readCapability_complete ha.front h
    have hlt : cs.length < (c' :: cs).length + count := by
      rw [List.length_cons]
      omega
    obtain ⟨left, h', hread, hrest⟩ := ih hlt (hfront.arrives_append ha) (turnLocals h) (c' :: caps)
      h.allocBuffer.allocBuffer.allocBuffer.alloc
    refine ⟨left, h', ?_, hfront.append hrest⟩
    rw [readCapabilities, hturn]
    simp only [hread, List.reverse_cons, List.append_assoc, List.singleton_append]

/-! ### Entities -/

/-- What a read of an entity does: the entity and what is left when it succeeds, and what becomes of
the buffers, unless something is released that was not read. -/
structure Does (P : PublicEntity → List Bytes → Prop) (Z : Prop) (h : Heap)
    (x : Except ReaderError PublicEntity × List Bytes × Heap) : Prop where
  sound : ∀ {e left h'}, x = (.ok e, left, h') → P e left
  grows : h.released ⊆ x.2.2.released
  clean : ¬ Z → Clean h x.2.2

theorem Clean.grows (hc : Clean h h') : h.released ⊆ h'.released := by
  obtain ⟨-, -, ps, hps, -⟩ := hc
  rw [hps]
  exact List.subset_append_left _ _

section Does

variable {P Q : PublicEntity → List Bytes → Prop} {Z Y : Prop}
  {x : Except ReaderError PublicEntity × List Bytes × Heap}

theorem does_error {e : ReaderError} (hc : Clean h h') : Does P Z h (.error e, left, h') where
  sound := fun heq => by cases heq
  grows := hc.grows
  clean := fun _ => hc

theorem Does.mono (hx : Does P Z h x) (hP : ∀ e left, P e left → Q e left) (hZ : Z → Y) :
    Does Q Y h x where
  sound := fun heq => hP _ _ (hx.sound heq)
  grows := hx.grows
  clean := fun hY => hx.clean fun hz => hY (hZ hz)

theorem Does.releasing (hx : Does P Z h.allocBuffer x) : Does P Z h (releasing h.allocs x) where
  sound := by
    intro e left h' heq
    simp only [EntityReader.releasing, Prod.mk.injEq] at heq
    exact hx.sound (Prod.ext heq.1 (Prod.ext heq.2.1 rfl))
  grows := List.Subset.trans hx.grows (List.subset_append_left _ _)
  clean := fun hz => (hx.clean hz).release

end Does

theorem finishEntity_does (fails : ℕ → Bool) (uuid enc sign : Bytes) (caps : List Capability)
    (frags : List Bytes) (h : Heap) :
    Does (fun e left => uuid.length = 16 ∧ e = ⟨bits 128 uuid, caps, enc, sign⟩ ∧
      Front (markPieces streamTypeEom) frags left) False h
      (finishEntity fails uuid enc sign caps frags h) := by
  have htwo : Clean h h.alloc.alloc := (clean_alloc h).trans (clean_alloc _)
  rw [finishEntity]
  split
  · exact does_error (Clean.refl h)
  rename_i type left heom
  obtain ⟨-, hfront⟩ := decodes_uint8.sound heom
  split_ifs with hne hsize hentry henc hsign
  · exact does_error (Clean.refl h)
  · exact does_error (Clean.refl h)
  · exact does_error (clean_alloc h)
  · exact does_error htwo
  · exact does_error (htwo.trans (clean_alloc _))
  · have hthree : Clean h h.alloc.alloc.alloc := htwo.trans (clean_alloc _)
    refine ⟨fun heq => ?_, hthree.grows, fun _ => hthree⟩
    simp only [Prod.mk.injEq, Except.ok.injEq] at heq
    obtain ⟨rfl, rfl, -⟩ := heq
    rw [not_not.mp hne] at hfront
    exact ⟨(not_not.mp hsize).symm, rfl, hfront⟩

theorem readCapsAndFinish_does (fails : ℕ → Bool) (w : Bool) (uuid enc sign : Bytes)
    (frags : List Bytes) (h : Heap) :
    Does (fun e left => ∃ caps cut, CapsOk caps cut ∧ (w = false → caps = [] ∧ cut = none) ∧
        uuid.length = 16 ∧ e = ⟨bits 128 uuid, caps, enc, sign⟩ ∧
        Front ((if w then capsPieces caps cut else []) ++ markPieces streamTypeEom) frags left)
      (w = true ∧ ∃ left, Front (countPieces 0) frags left) h
      (readCapsAndFinish fails w uuid enc sign frags h) := by
  rw [readCapsAndFinish]
  cases w with
  | false =>
    refine (finishEntity_does fails uuid enc sign [] frags h).mono ?_ False.elim
    rintro e left ⟨hsize, rfl, hfront⟩
    exact ⟨[], none, by simp [CapsOk], fun _ => ⟨rfl, rfl⟩, hsize, rfl, hfront⟩
  | true =>
    rw [if_pos rfl, configEntityReadCapabilities]
    cases hcount : ipcReadUint64Block frags with
    | mk y frags₁ =>
      cases y with
      | error e => exact does_error (Clean.refl h)
      | ok count =>
        obtain ⟨-, hf₁⟩ := decodes_uint64.sound hcount
        dsimp only
        have hgrows : h.released ⊆ (readCapabilities fails count.toNat ⟨none, none, none⟩ [] frags₁
            h).2.2.2.released := by
          by_cases hzero : count.toNat = 0
          · rw [hzero]
            exact List.subset_append_left _ _
          · exact (readCapabilities_clean hzero _ _ _ _).grows
        have hclean : ¬ (true = true ∧ ∃ left, Front (countPieces 0) frags left) →
            Clean h (readCapabilities fails count.toNat ⟨none, none, none⟩ [] frags₁ h).2.2.2 := by
          intro hz
          refine readCapabilities_clean (fun hzero => hz ⟨rfl, frags₁, ?_⟩) _ _ _ _
          rwa [BitVec.eq_of_toNat_eq (show count.toNat = (0 : BitVec 64).toNat from hzero)] at hf₁
        cases hloop : readCapabilities fails count.toNat ⟨none, none, none⟩ [] frags₁ h with
        | mk result y =>
          obtain ⟨caps, frags₂, h₂⟩ := y
          rw [hloop] at hgrows hclean
          cases result with
          | error e => exact ⟨fun heq => (by cases heq), hgrows, hclean⟩
          | ok u =>
            have hfinish := finishEntity_does fails uuid enc sign caps frags₂ h₂
            refine ⟨fun heq => ?_, List.Subset.trans hgrows hfinish.grows,
              fun hz => (hclean hz).trans (hfinish.clean id)⟩
            obtain ⟨hsize, rfl, heom⟩ := hfinish.sound heq
            obtain ⟨cs, rfl, hcs⟩ := readCapabilities_sound hloop
            rw [List.append_nil]
            rcases hcs with ⟨hlen, hf₂⟩ | ⟨c, hc, hlen, hf₂⟩
            · have hlt := count.isLt
              have hpieces : capsPieces cs.reverse none =
                  countPieces count ++ cs.flatMap capPieces := by
                rw [capsPieces, List.length_reverse, hlen, List.reverse_reverse, BitVec.ofNat_toNat,
                  BitVec.setWidth_eq]
              refine ⟨cs.reverse, none, ?_, fun hw => (by cases hw), hsize, rfl, ?_⟩
              · rw [CapsOk, List.length_reverse]
                omega
              · rw [if_pos rfl, hpieces]
                exact (hf₁.append hf₂).append heom
            · have hpieces : capsPieces cs.reverse (some (count, c)) =
                  countPieces count ++ (cs.flatMap capPieces ++ c.pieces) := by
                rw [capsPieces, List.reverse_reverse]
              refine ⟨cs.reverse, some (count, c), ⟨?_, hc⟩, fun hw =>
                (by cases hw), hsize, rfl, ?_⟩
              · rw [List.length_reverse]
                exact hlen
              · rw [if_pos rfl, hpieces]
                exact (hf₁.append hf₂).append heom

def AnnouncesNone (frags : List Bytes) : Prop :=
  ∃ id enc sign rest, id.length < 2 ^ 32 ∧ enc.length < 2 ^ 32 ∧ sign.length < 2 ^ 32 ∧
    Arrives (headerPieces id enc sign ++ countPieces 0) frags rest

theorem configEntityRead_does (fails : ℕ → Bool) (w : Bool) (frags : List Bytes) (h : Heap) :
    Does (fun e left => ∃ r : Record, r.entity = e ∧ r.Ok w ∧ Front (r.pieces w) frags left)
      (w = true ∧ AnnouncesNone frags) h (configEntityRead fails w frags h) := by
  rw [configEntityRead]
  split
  · exact does_error (Clean.refl h)
  rename_i type frags₁ hbom
  obtain ⟨-, hf₁⟩ := decodes_uint8.sound hbom
  split_ifs with hne
  · exact does_error (Clean.refl h)
  obtain rfl := not_not.mp hne
  rcases readData_cases fails frags₁ h with ⟨e, left, hid⟩ | ⟨uuid, frags₂, hid, hlt, hf₂⟩
  · rw [hid]
    exact does_error (clean_alloc h)
  rw [hid]
  refine Does.releasing ?_
  rcases readData_cases fails frags₂ h.allocBuffer with ⟨e, left, he⟩ | ⟨enc, frags₃, he, hlt', hf₃⟩
  · rw [he]
    exact does_error (clean_alloc _)
  rw [he]
  refine Does.releasing ?_
  rcases readData_cases fails frags₃ h.allocBuffer.allocBuffer with
    ⟨e, left, hs⟩ | ⟨sign, frags₄, hs, hlt'', hf₄⟩
  · rw [hs]
    exact does_error (clean_alloc _)
  rw [hs]
  refine Does.releasing ?_
  have hheader : Front (headerPieces uuid enc sign) frags frags₄ :=
    hf₁.append (hf₂.append (hf₃.append hf₄))
  refine (readCapsAndFinish_does fails w uuid enc sign frags₄ _).mono ?_ ?_
  · rintro e left ⟨caps, cut, hok, hnone, hsize, rfl, hfront⟩
    refine ⟨⟨_, cut⟩, rfl, ⟨hlt', hlt'', hnone, hok⟩, ?_⟩
    rw [Record.pieces, be_16 hsize]
    exact hheader.append hfront
  · rintro ⟨hw, left, hzero⟩
    exact ⟨hw, uuid, enc, sign, _, hlt, hlt', hlt'', (hheader.append hzero).arrives⟩

theorem finishEntity_complete {uuid : Bytes} (hsize : uuid.length = 16)
    (ha : Arrives (markPieces streamTypeEom) frags rest) (enc sign : Bytes) (caps : List Capability)
    (h : Heap) : ∃ left h', finishEntity noFailure uuid enc sign caps frags h =
      (.ok ⟨bits 128 uuid, caps, enc, sign⟩, left, h') ∧
        Front (markPieces streamTypeEom) frags left := by
  obtain ⟨left, heom, hfront⟩ := decodes_uint8.complete trivial ha
  refine ⟨left, h.alloc.alloc.alloc, ?_, hfront⟩
  rw [finishEntity, heom]
  simp only [ne_eq, not_true_eq_false, if_false, hsize, noFailure, Bool.false_eq_true]

theorem readCapsAndFinish_complete {uuid : Bytes} {caps : List Capability}
    {cut : Option (BitVec 64 × CutCapability)} (hok : CapsOk caps cut)
    (hnone : w = false → caps = [] ∧ cut = none) (hsize : uuid.length = 16)
    (ha : Arrives ((if w then capsPieces caps cut else []) ++ markPieces streamTypeEom) frags rest)
    (enc sign : Bytes) (h : Heap) :
    ∃ left h', readCapsAndFinish noFailure w uuid enc sign frags h =
      (.ok ⟨bits 128 uuid, caps, enc, sign⟩, left, h') ∧
        Front ((if w then capsPieces caps cut else []) ++ markPieces streamTypeEom) frags left := by
  cases w with
  | false =>
    obtain ⟨rfl, rfl⟩ := hnone rfl
    exact finishEntity_complete hsize ha enc sign [] h
  | true =>
    simp only [if_true] at ha ⊢
    have hloop : ∃ count frags₁ frags₂ h₂, ipcReadUint64Block frags = (.ok count, frags₁) ∧
        readCapabilities noFailure count.toNat ⟨none, none, none⟩ [] frags₁ h =
          (.ok (), caps, frags₂, h₂) ∧ Front (capsPieces caps cut) frags frags₂ := by
      cases cut with
      | none =>
        rw [capsPieces] at ha ⊢
        obtain ⟨frags₁, hcount, hf₁⟩ := decodes_uint64.complete trivial ha.front.front
        obtain ⟨frags₂, h₂, hread, hf₂⟩ := readCapabilities_complete
          (hf₁.arrives_append ha.front) ⟨none, none, none⟩ [] h
        have hlen : (BitVec.ofNat 64 caps.length).toNat = caps.reverse.length := by
          rw [BitVec.toNat_ofNat, Nat.mod_eq_of_lt hok, List.length_reverse]
        refine ⟨_, frags₁, frags₂, h₂, hcount, ?_, hf₁.append hf₂⟩
        rw [hlen, hread, List.reverse_reverse, List.append_nil]
      | some x =>
        obtain ⟨count, c⟩ := x
        obtain ⟨hlen, hc⟩ := hok
        rw [capsPieces] at ha ⊢
        obtain ⟨frags₁, hcount, hf₁⟩ := decodes_uint64.complete trivial ha.front.front
        obtain ⟨frags₂, h₂, hread, hf₂⟩ := readCapabilities_cut hc
          (by rw [List.length_reverse]; exact hlen) (hf₁.arrives_append ha.front)
          ⟨none, none, none⟩ [] h
        refine ⟨_, frags₁, frags₂, h₂, hcount, ?_, hf₁.append hf₂⟩
        rw [hread, List.reverse_reverse, List.append_nil]
    obtain ⟨count, frags₁, frags₂, h₂, hcount, hread, hf⟩ := hloop
    obtain ⟨left, h', hfinish, heom⟩ :=
      finishEntity_complete hsize (hf.arrives_append ha) enc sign caps h₂
    refine ⟨left, h', ?_, hf.append heom⟩
    rw [readCapsAndFinish, if_pos rfl, configEntityReadCapabilities, hcount]
    simp only [hread, hfinish]

/-- The data in front of the capabilities. -/
theorem configEntityRead_header {id enc sign : Bytes} {qs : List Bytes} (hid : id.length < 2 ^ 32)
    (henc : enc.length < 2 ^ 32) (hsign : sign.length < 2 ^ 32)
    (ha : Arrives (headerPieces id enc sign ++ qs) frags rest) (w : Bool) (h : Heap) :
    ∃ mid, configEntityRead noFailure w frags h = releasing h.allocs (releasing h.allocBuffer.allocs
        (releasing h.allocBuffer.allocBuffer.allocs (readCapsAndFinish noFailure w id enc sign mid
          h.allocBuffer.allocBuffer.allocBuffer))) ∧
      Front (headerPieces id enc sign) frags mid := by
  have ha₀ := ha.front
  obtain ⟨frags₁, hbom, hf₁⟩ := decodes_uint8.complete trivial ha₀.front
  have ha₁ := hf₁.arrives_append ha₀
  obtain ⟨frags₂, hi, hf₂⟩ := readData_complete hid ha₁.front h
  have ha₂ := hf₂.arrives_append ha₁
  obtain ⟨frags₃, he, hf₃⟩ := readData_complete henc ha₂.front h.allocBuffer
  obtain ⟨mid, hs, hf₄⟩ :=
    readData_complete hsign (hf₃.arrives_append ha₂) h.allocBuffer.allocBuffer
  refine ⟨mid, ?_, hf₁.append (hf₂.append (hf₃.append hf₄))⟩
  rw [configEntityRead, hbom]
  simp only [ne_eq, not_true_eq_false, if_false, hi, he, hs]

/-- Whatever has the form of a record is taken for an entity. -/
theorem configEntityRead_complete {r : Record} (hok : r.Ok w) (ha : Arrives (r.pieces w) frags rest)
    (h : Heap) : ∃ left h', configEntityRead noFailure w frags h = (.ok r.entity, left, h') ∧
      Front (r.pieces w) frags left := by
  obtain ⟨mid, hread, hheader⟩ := configEntityRead_header (by simp) hok.enc hok.sign ha w h
  obtain ⟨left, h', hrest, hfront⟩ := readCapsAndFinish_complete hok.caps hok.noCaps (length_uuid _)
    (hheader.arrives_append ha) r.entity.encPubkey r.entity.signPubkey
    h.allocBuffer.allocBuffer.allocBuffer
  rw [hrest, bits_be (show 128 = 8 * 16 from rfl)] at hread
  exact ⟨left, _, hread, hheader.append hfront⟩

/-- Pointers that were never set are released when no capability is announced. -/
theorem configEntityRead_announcesNone (hzero : AnnouncesNone frags) (h : Heap) :
    none ∈ (configEntityRead noFailure true frags h).2.2.released := by
  obtain ⟨id, enc, sign, rest, hid, henc, hsign, harrives⟩ := hzero
  obtain ⟨mid, hread, hheader⟩ := configEntityRead_header hid henc hsign harrives true h
  have ha := hheader.arrives_append harrives
  obtain ⟨frags₁, hcount, -⟩ := decodes_uint64.complete trivial ha
  rw [hread]
  simp only [releasing, Heap.free, List.mem_append]
  refine Or.inl (Or.inl (Or.inl ?_))
  rw [readCapsAndFinish, if_pos rfl, configEntityReadCapabilities, hcount]
  have hloop : readCapabilities noFailure (0 : BitVec 64).toNat ⟨none, none, none⟩ [] frags₁
      h.allocBuffer.allocBuffer.allocBuffer = (.ok (), [], frags₁,
        h.allocBuffer.allocBuffer.allocBuffer.free [none, none, none]) := rfl
  simp only [hloop]
  exact (finishEntity_does _ _ _ _ _ _ _).grows (List.mem_append_right _ List.mem_cons_self)

end EntityStreams
