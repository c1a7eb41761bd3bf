import Agentd.CStrings
import Agentd.TypedIpc

/-! # The directory of a path

The components of a path are copied to a buffer one behind, so that the last one is left out. A path
with one component gives the current directory, also an absolute one. -/
namespace PathDirname

open ByteString
open CStrings
open TypedIpc (CString)

def slash : UInt8 := 47

def dot : UInt8 := 46

/-! ### Paths -/

def components (path : Bytes) : List Bytes := tokens slash path

def Absolute (path : Bytes) : Prop := path.head? = some slash

instance (path : Bytes) : Decidable (Absolute path) :=
  inferInstanceAs (Decidable (path.head? = some slash))

structure SameFile (p q : Bytes) : Prop where
  absolute : Absolute p ↔ Absolute q
  components : components p = components q

/-- The directory and the last component are the path; a relative path with one component is in the
current directory. -/
structure NamesParent (path dir : Bytes) : Prop where
  current : ¬ Absolute path → (components path).length = 1 → dir = [dot]
  parent : Absolute path ∨ (components path).length ≠ 1 →
    ∀ base, (components path).getLast? = some base → SameFile (dir ++ slash :: base) path

/-! ### The function -/

/-- What the allocator does: whether it copies a string, and the bytes that are in a new buffer. -/
structure Allocator where
  strdup : Bool
  malloc : ℕ → Option Bytes
  length_malloc : ∀ {n buf}, malloc n = some buf → buf.length = n

inductive PathError where
  | outOfMemory
  deriving DecidableEq, Repr

/-- The variables of the loop; a separator is set once there is a directory. -/
structure DirState where
  dirname : Bytes
  pathrem : ℕ
  dirpath : Option Bytes
  dirsep : Option Bytes
  deriving DecidableEq

/-- A string is appended and subtracted from what remains, which may not get below zero. -/
def append (st : DirState) (s : Bytes) : Option DirState := do
  let dirname ← strncat st.dirname s st.pathrem
  if s.length ≤ st.pathrem then some { st with dirname, pathrem := st.pathrem - s.length } else none

def appendSeparator (filename : Bytes) (st : DirState) : Option DirState :=
  match st.dirsep with
  | some dirsep => append st dirsep
  | none => do
    let st ← if filename.head? = some slash then append st [slash] else some st
    some { st with dirsep := some [slash] }

def appendDirpath (filename : Bytes) (st : DirState) : Option DirState :=
  match st.dirpath with
  | none => some st
  | some dirpath => do
    let st ← appendSeparator filename st
    append st dirpath

def dirLoop (filename : Bytes) : ℕ → Option (Bytes × Bytes) → DirState → Option DirState
  | _, none, st => some st
  | 0, some _, _ => none
  | n + 1, some (pathent, rest), st => do
    let st ← appendDirpath filename st
    dirLoop filename n (strtokR slash rest) { st with dirpath := some pathent }

def currentDirectory (mem : Allocator) : Except PathError Bytes :=
  if mem.strdup then .ok [dot, 0] else .error .outOfMemory

/-- The buffer that is returned; `none` when there is an access outside of a buffer. -/
def pathDirname (mem : Allocator) : Option CString → Option (Except PathError Bytes)
  | none => some (currentDirectory mem)
  | some filename =>
    if filename.bytes = [] then some (currentDirectory mem)
    else if mem.strdup = false then some (.error .outOfMemory)
    else
      let pathmax := filename.bytes.length
      match mem.malloc (pathmax + 1) with
      | none => some (.error .outOfMemory)
      | some buf => do
        let dirname ← write buf 0 [0]
        let st ← dirLoop filename.bytes (pathmax + 1) (strtokR slash filename.bytes)
          ⟨dirname, pathmax, none, none⟩
        let dirname ← if st.dirsep = none then strncpy st.dirname [dot] st.pathrem
          else some st.dirname
        let dirname ← write dirname pathmax [0]
        some (.ok dirname)

/-! ### The text of a directory -/

def lead (isAbsolute : Bool) : Bytes := if isAbsolute then [slash] else []

/-- Components with separators between them, and one in front of an absolute path. -/
def dirText (isAbsolute : Bool) : List Bytes → Bytes
  | [] => []
  | d :: ds => lead isAbsolute ++ (d ++ ds.flatMap fun e => slash :: e)

variable {isAbsolute : Bool} {d : Bytes} {ds es : List Bytes} {f : Bytes} {st st' : DirState}

theorem dirText_concat (isAbsolute : Bool) (d : Bytes) (hds : ds ≠ []) :
    dirText isAbsolute (ds ++ [d]) = dirText isAbsolute ds ++ ([slash] ++ d) := by
  obtain ⟨e, es, rfl⟩ := List.exists_cons_of_ne_nil hds
  rw [List.cons_append, dirText, dirText, List.flatMap_append, List.flatMap_singleton]
  simp only [List.append_assoc, List.singleton_append]

theorem length_dirText (isAbsolute : Bool) (hds : ds ≠ []) :
    (dirText isAbsolute ds).length + 1 = (lead isAbsolute).length + weight ds := by
  obtain ⟨e, es, rfl⟩ := List.exists_cons_of_ne_nil hds
  have hrest : (es.flatMap fun e => slash :: e).length = weight es := by
    induction es with
    | nil => rfl
    | cons e es ih =>
      rw [List.flatMap_cons, List.length_append, List.length_cons, weight_cons,
        ih (List.cons_ne_nil _ _)]
  rw [dirText, List.length_append, List.length_append, hrest, weight_cons]
  omega

theorem length_dirText_append_le :
    (dirText isAbsolute ds).length ≤ (dirText isAbsolute (ds ++ es)).length := by
  by_cases hds : ds = []
  · rw [hds]
    exact Nat.zero_le _
  · have hshort := length_dirText isAbsolute hds
    have hlong := length_dirText isAbsolute (List.append_ne_nil_of_left_ne_nil hds es)
    rw [weight_append] at hlong
    omega

/-- The components of a path fit into it. -/
theorem length_dirText_components (f : Bytes) :
    (dirText (decide (Absolute f)) (components f)).length ≤ f.length := by
  by_cases hnil : components f = []
  · rw [hnil]
    exact Nat.zero_le _
  · have hlen := length_dirText (decide (Absolute f)) hnil
    by_cases habs : Absolute f
    · obtain ⟨rest, rfl⟩ := List.head?_eq_some_iff.mp habs
      have hle := weight_tokens_le slash rest
      rw [components, tokens_sep] at hlen
      rw [components, tokens_sep, List.length_cons]
      have hlead : (lead (decide (Absolute (slash :: rest)))).length ≤ 1 := by
        rw [lead]
        split <;> decide
      omega
    · have hle := weight_tokens_le slash f
      have hlead : lead (decide (Absolute f)) = [] := by
        rw [decide_eq_false habs]
        rfl
      rw [hlead, List.length_nil] at hlen
      rw [components] at hlen ⊢
      omega

/-! ### The loop -/

structure Wrote (f text : Bytes) (st : DirState) : Prop where
  holds : Holds st.dirname text
  length : st.dirname.length = f.length + 1
  pathrem : st.pathrem + text.length = f.length

theorem append_spec {text s : Bytes} (h : Wrote f text st) (hs : 0 ∉ s)
    (hfit : text.length + s.length ≤ f.length) :
    ∃ st', append st s = some st' ∧ Wrote f (text ++ s) st' ∧ st'.dirsep = st.dirsep := by
  have hrem := h.pathrem
  have hlen := h.length
  obtain ⟨buf, hcat, hholds, hbuf⟩ :=
    strncat_spec h.holds hs (show s.length ≤ st.pathrem by omega) (by omega)
  refine ⟨{ st with dirname := buf, pathrem := st.pathrem - s.length }, ?_,
    ⟨hholds, hbuf.trans hlen, ?_⟩, rfl⟩
  · rw [append, hcat]
    exact if_pos (by omega)
  · rw [List.length_append]
    simp only
    omega

structure Appended (f : Bytes) (ds : List Bytes) (st : DirState) : Prop where
  wrote : Wrote f (dirText (decide (Absolute f)) ds) st
  dirsep : st.dirsep = if ds = [] then none else some [slash]

theorem slash_noNul : (0 : UInt8) ∉ [slash] := by decide

theorem appendSeparator_spec (h : Appended f ds st)
    (hfit : (dirText (decide (Absolute f)) (ds ++ [d])).length ≤ f.length) :
    ∃ st' text, appendSeparator f st = some st' ∧ Wrote f text st' ∧ st'.dirsep = some [slash] ∧
      dirText (decide (Absolute f)) (ds ++ [d]) = text ++ d := by
  by_cases hds : ds = []
  · -- the first directory, behind the slash of an absolute path
    have hsep : st.dirsep = none := by rw [h.dirsep, if_pos hds]
    have htext : dirText (decide (Absolute f)) (ds ++ [d]) = lead (decide (Absolute f)) ++ d := by
      rw [hds, List.nil_append, dirText, List.flatMap_nil, List.append_nil]
    have hempty : dirText (decide (Absolute f)) ds = [] := by rw [hds, dirText]
    have hwrote := h.wrote
    rw [hempty] at hwrote
    rw [htext, List.length_append] at hfit
    rw [appendSeparator, hsep]
    by_cases habs : Absolute f
    · have hlead : lead (decide (Absolute f)) = [slash] := by
        rw [decide_eq_true habs]
        rfl
      rw [hlead] at hfit htext
      obtain ⟨st', happend, hwrote', -⟩ := append_spec hwrote slash_noNul (by
        rw [List.length_nil]
        omega)
      refine ⟨{ st' with dirsep := some [slash] }, [slash], ?_, ?_, rfl, htext⟩
      · have hhead : f.head? = some slash := habs
        simp only [if_pos hhead, happend]
        rfl
      · exact ⟨hwrote'.holds, hwrote'.length, hwrote'.pathrem⟩
    · have hlead : lead (decide (Absolute f)) = [] := by
        rw [decide_eq_false habs]
        rfl
      rw [hlead] at htext
      refine ⟨{ st with dirsep := some [slash] }, [], ?_, ?_, rfl, htext⟩
      · have hhead : ¬ f.head? = some slash := habs
        simp only [if_neg hhead]
        rfl
      · exact ⟨hwrote.holds, hwrote.length, hwrote.pathrem⟩
  · have hsep : st.dirsep = some [slash] := by rw [h.dirsep, if_neg hds]
    have htext := dirText_concat (decide (Absolute f)) d hds
    rw [← List.append_assoc] at htext
    rw [htext, List.length_append, List.length_append] at hfit
    obtain ⟨st', happend, hwrote, hdirsep⟩ := append_spec h.wrote slash_noNul (by omega)
    refine ⟨st', _, ?_, hwrote, hdirsep.trans hsep, htext⟩
    rw [appendSeparator, hsep]
    exact happend

theorem appendDirpath_spec (h : Appended f ds st) (hpath : st.dirpath = some d) (hd : 0 ∉ d)
    (hfit : (dirText (decide (Absolute f)) (ds ++ [d])).length ≤ f.length) :
    ∃ st', appendDirpath f st = some st' ∧ Appended f (ds ++ [d]) st' := by
  obtain ⟨mid, text, hseparator, hwrote, hsep, htext⟩ := appendSeparator_spec h hfit
  rw [htext, List.length_append] at hfit
  obtain ⟨st', happend, hwrote', hdirsep⟩ := append_spec hwrote hd hfit
  refine ⟨st', ?_, ?_, ?_⟩
  · rw [appendDirpath, hpath]
    simp only [hseparator]
    exact happend
  · rw [htext]
    exact hwrote'
  · rw [if_neg (List.append_ne_nil_of_right_ne_nil ds (List.cons_ne_nil d [])), hdirsep, hsep]

/-- All entries but the last one are appended; the invariant has one entry that waits. -/
theorem dirLoop_spec {n : ℕ} {s : Bytes} (h : Appended f ds st) (hn : s.length < n)
    (hnul : ∀ t ∈ st.dirpath.toList ++ tokens slash s, 0 ∉ t)
    (hfit : (dirText (decide (Absolute f)) (ds ++ (st.dirpath.toList ++ tokens slash s))).length ≤
      f.length) :
    ∃ st', dirLoop f n (strtokR slash s) st = some st' ∧
      Appended f (ds ++ (st.dirpath.toList ++ tokens slash s).dropLast) st' := by
  induction n generalizing s st ds with
  | zero => omega
  | succ n ih =>
    cases hnext : strtokR slash s with
    | none =>
      refine ⟨st, rfl, ?_⟩
      rw [strtokR_none hnext, List.append_nil]
      cases st.dirpath with
      | none => simpa using h
      | some d => simpa using h
    | some next =>
      obtain ⟨pathent, rest⟩ := next
      obtain ⟨htokens, hshort⟩ := strtokR_some hnext
      rw [htokens] at hnul hfit ⊢
      have hrest : rest.length < n := by omega
      rw [dirLoop]
      cases hpath : st.dirpath with
      | none =>
        rw [hpath, Option.toList_none, List.nil_append] at hnul hfit
        rw [appendDirpath, hpath, Option.toList_none, List.nil_append]
        have hwaits : Appended f ds { st with dirpath := some pathent } :=
          ⟨⟨h.wrote.holds, h.wrote.length, h.wrote.pathrem⟩, h.dirsep⟩
        exact ih hwaits hrest hnul hfit
      | some d =>
        rw [hpath, Option.toList_some, List.singleton_append] at hnul hfit
        rw [Option.toList_some, List.singleton_append, List.dropLast_cons_of_ne_nil
          (List.cons_ne_nil _ _)]
        obtain ⟨hd, hnul'⟩ := List.forall_mem_cons.mp hnul
        rw [List.append_cons] at hfit ⊢
        have hfirst : (dirText (decide (Absolute f)) (ds ++ [d])).length ≤ f.length :=
          le_trans length_dirText_append_le hfit
        obtain ⟨mid, happend, hmid⟩ := appendDirpath_spec h hpath hd hfirst
        have hwaits : Appended f (ds ++ [d]) { mid with dirpath := some pathent } :=
          ⟨⟨hmid.wrote.holds, hmid.wrote.length, hmid.wrote.pathrem⟩, hmid.dirsep⟩
        rw [happend]
        exact ih hwaits hrest hnul' hfit

/-! ### The result -/

def Allocator.Succeeds (mem : Allocator) (n : ℕ) : Prop :=
  mem.strdup = true ∧ (mem.malloc n).isSome = true

/-- What is returned for a path that is not empty. -/
def dirnameText (f : Bytes) : Bytes :=
  if (components f).dropLast = [] then [dot]
  else dirText (decide (Absolute f)) (components f).dropLast

/-- The buffer at the end of the function. -/
theorem finish_spec (h : Appended f ds st) (hf : f ≠ []) :
    ∃ buf, (do
        let dirname ← if st.dirsep =
            none then strncpy st.dirname [dot] st.pathrem else some st.dirname
        let dirname ← write dirname f.length [0]
        some (Except.ok dirname : Except PathError Bytes)) = some (.ok buf) ∧
      buf.length = f.length + 1 ∧
        Holds buf (if ds = [] then [dot] else dirText (decide (Absolute f)) ds) := by
  have hlen := h.wrote.length
  have hrem := h.wrote.pathrem
  by_cases hds : ds = []
  · have hsep : st.dirsep = none := by rw [h.dirsep, if_pos hds]
    have hall : st.pathrem = f.length := by
      rw [hds, dirText, List.length_nil] at hrem
      exact hrem
    have hpos : [dot].length ≤ f.length := List.length_pos_iff.mpr hf
    obtain ⟨mid, buf, hcopy, hwrite, hholds, hbuf⟩ := strncpy_write_zero
      (show (0 : UInt8) ∉ [dot] by decide) hpos (show f.length < st.dirname.length by omega)
    refine ⟨buf, ?_, hbuf.trans hlen, ?_⟩
    · simp only [if_pos hsep, hall, hcopy, hwrite, Option.bind_eq_bind, Option.bind_some]
    · rw [if_pos hds]
      exact hholds
  · have hsep : st.dirsep ≠ none := by
      rw [h.dirsep, if_neg hds]
      exact Option.some_ne_none _
    obtain ⟨buf, hwrite, hholds, hbuf⟩ := write_zero_spec h.wrote.holds
      (show f.length < st.dirname.length by omega) (by omega)
    refine ⟨buf, ?_, hbuf.trans hlen, ?_⟩
    · simp only [if_neg hsep, hwrite, Option.bind_eq_bind, Option.bind_some]
    · rw [if_neg hds]
      exact hholds

theorem pathDirname_spec {mem : Allocator} {filename : CString} (hf : filename.bytes ≠ [])
    (hmem : mem.Succeeds (filename.bytes.length + 1)) :
    ∃ buf, pathDirname mem (some filename) = some (.ok buf) ∧
      buf.length = filename.bytes.length + 1 ∧ Holds buf (dirnameText filename.bytes) := by
  obtain ⟨hstrdup, hmalloc⟩ := hmem
  obtain ⟨junk, hjunk⟩ := Option.isSome_iff_exists.mp hmalloc
  have hlen := mem.length_malloc hjunk
  have hne : junk ≠ [] := by
    rintro rfl
    rw [List.length_nil] at hlen
    omega
  obtain ⟨cleared, hclear, hholds, hcleared⟩ :=
    write_zero_holds (show (0 : UInt8) ∉ [] by decide) hne
  have hstart : Appended filename.bytes [] ⟨cleared, filename.bytes.length, none, none⟩ :=
    ⟨⟨hholds, hcleared.trans hlen, rfl⟩, rfl⟩
  obtain ⟨st, hloop, hst⟩ := dirLoop_spec hstart (Nat.lt_succ_self _)
    (fun t ht hzero => filename.noNul ((mem_tokens ht).2.2 hzero))
    (length_dirText_components filename.bytes)
  obtain ⟨buf, hfinish, hbuf, htext⟩ := finish_spec hst hf
  refine ⟨buf, ?_, hbuf, htext⟩
  rw [pathDirname, if_neg hf, if_neg (by rw [hstrdup]; decide)]
  simp only [hjunk]
  rw [List.nil_append, List.length_nil] at hclear
  rw [hclear, Option.bind_eq_bind, Option.bind_some, hloop]
  exact hfinish

/-! ### The same file -/

theorem absolute_append {x : Bytes} (hx : x ≠ []) (y : Bytes) : Absolute (x ++ y) ↔ Absolute x := by
  obtain ⟨c, cs, rfl⟩ := List.exists_cons_of_ne_nil hx
  exact Iff.rfl

theorem dirText_ne_nil (hds : ds ≠ []) (hne : ∀ d ∈ ds, d ≠ []) : dirText isAbsolute ds ≠ [] := by
  obtain ⟨d, ds, rfl⟩ := List.exists_cons_of_ne_nil hds
  rw [dirText]
  refine List.append_ne_nil_of_right_ne_nil _ (List.append_ne_nil_of_left_ne_nil ?_ _)
  exact hne d List.mem_cons_self

theorem absolute_dirText (hds : ds ≠ []) (h : ∀ d ∈ ds, d ≠ [] ∧ slash ∉ d) :
    Absolute (dirText isAbsolute ds) ↔ isAbsolute = true := by
  obtain ⟨d, ds, rfl⟩ := List.exists_cons_of_ne_nil hds
  obtain ⟨hd, hslash⟩ := h d List.mem_cons_self
  obtain ⟨c, cs, rfl⟩ := List.exists_cons_of_ne_nil hd
  cases isAbsolute with
  | true => exact iff_of_true rfl rfl
  | false =>
    refine iff_of_false (fun habs => hslash ?_) Bool.false_ne_true
    obtain rfl : c = slash := Option.some.inj habs
    exact List.mem_cons_self

theorem components_dirText (h : ∀ d ∈ ds, d ≠ [] ∧ slash ∉ d) :
    components (dirText isAbsolute ds) = ds := by
  induction ds using List.reverseRecOn with
  | nil => rfl
  | append_singleton ds d ih =>
    have hprev : ∀ e ∈ ds, e ≠ [] ∧ slash ∉ e := fun e he => h e (List.mem_append_left _ he)
    obtain ⟨hd, hslash⟩ := h d (List.mem_append_right _ List.mem_cons_self)
    have hlast : components d = [d] := tokens_singleton hd hslash
    by_cases hds : ds = []
    · rw [hds, List.nil_append, dirText, List.flatMap_nil, List.append_nil]
      cases isAbsolute with
      | true => exact (tokens_sep slash d).trans hlast
      | false => exact hlast
    · rw [dirText_concat isAbsolute d hds, List.singleton_append, components, tokens_append]
      exact congrArg₂ (· ++ ·) (ih hprev) hlast

theorem mem_components {path : Bytes} : ∀ d ∈ components path, d ≠ [] ∧ slash ∉ d := by
  intro d hd
  obtain ⟨hne, hslash, -⟩ := mem_tokens hd
  exact ⟨hne, hslash⟩

/-- With several components the directory and the last component are the path. -/
theorem sameFile_dirText {base : Bytes} (hds : ds ≠ []) (hpath : components f = ds ++ [base]) :
    SameFile (dirText (decide (Absolute f)) ds ++ slash :: base) f := by
  have hall : ∀ d ∈ ds ++ [base], d ≠ [] ∧ slash ∉ d := by
    rw [← hpath]
    exact mem_components
  have hdirs : ∀ d ∈ ds, d ≠ [] ∧ slash ∉ d := fun d hd => hall d (List.mem_append_left _ hd)
  obtain ⟨hbase, hslash⟩ := hall base (List.mem_append_right _ List.mem_cons_self)
  constructor
  · rw [absolute_append (dirText_ne_nil hds fun d hd => (hdirs d hd).1), absolute_dirText hds hdirs,
      decide_eq_true_iff]
  · rw [hpath, components, tokens_append]
    exact congrArg₂ (· ++ ·) (components_dirText hdirs) (tokens_singleton hbase hslash)

theorem namesParent_iff (hcomponents : components f ≠ []) :
    NamesParent f (dirnameText f) ↔ ¬ (Absolute f ∧ (components f).length = 1) := by
  obtain ⟨ds, base, hpath⟩ : ∃ ds base, components f = ds ++ [base] :=
    ⟨_, _, (List.dropLast_append_getLast hcomponents).symm⟩
  have hlength : (components f).length = ds.length + 1 := by
    rw [hpath, List.length_append, List.length_singleton]
  have hlast : (components f).getLast? = some base := by rw [hpath, List.getLast?_concat]
  have htext : dirnameText f = if ds = [] then [dot] else dirText (decide (Absolute f)) ds := by
    rw [dirnameText, hpath, List.dropLast_concat]
  by_cases hds : ds = []
  · have hone : (components f).length = 1 := by
      rw [hlength, hds]
      rfl
    rw [htext, if_pos hds]
    constructor
    · rintro ⟨-, hparent⟩ ⟨habs, -⟩
      have hsame := (hparent (Or.inl habs) base hlast).absolute.mpr habs
      have hbyte : dot = slash := Option.some.inj hsame
      exact absurd hbyte (by decide)
    · intro hnot
      have hrelative : ¬ Absolute f := fun habs => hnot ⟨habs, hone⟩
      refine ⟨fun _ _ => rfl, ?_⟩
      rintro (habs | hmany)
      · exact absurd habs hrelative
      · exact absurd hone hmany
  · have hmany : (components f).length ≠ 1 := by
      have hpos := List.length_pos_iff.mpr hds
      omega
    rw [htext, if_neg hds]
    refine iff_of_true ⟨fun _ hone => absurd hone hmany, fun _ b hb => ?_⟩ fun h => hmany h.2
    rw [hlast] at hb
    obtain rfl := Option.some.inj hb
    exact sameFile_dirText hds hpath

/-- Without memory there is an error. With memory the directory and its zero are in the buffer,
which has a byte more than the path, and it is the parent directory exactly when the path is not
absolute with one component. -/
theorem names_parent_iff (mem : Allocator) (filename : CString)
    (hcomponents : components filename.bytes ≠ []) :
    (¬ mem.Succeeds (filename.bytes.length + 1) ∧
        pathDirname mem (some filename) = some (.error .outOfMemory)) ∨
      ∃ buf, pathDirname mem (some filename) = some (.ok buf) ∧
        buf.length = filename.bytes.length + 1 ∧ 0 ∈ buf ∧
          (NamesParent filename.bytes (string buf) ↔
            ¬ (Absolute filename.bytes ∧ (components filename.bytes).length = 1)) := by
  have hf : filename.bytes ≠ [] := by
    intro hnil
    rw [hnil] at hcomponents
    exact hcomponents rfl
  by_cases hmem : mem.Succeeds (filename.bytes.length + 1)
  · obtain ⟨buf, hok, hlen, hholds⟩ := pathDirname_spec hf hmem
    refine Or.inr ⟨buf, hok, hlen, hholds.mem, ?_⟩
    rw [hholds.string_eq]
    exact namesParent_iff hcomponents
  · refine Or.inl ⟨hmem, ?_⟩
    rw [pathDirname, if_neg hf]
    cases hstrdup : mem.strdup with
    | false => rfl
    | true =>
      rw [if_neg (by decide)]
      cases hmalloc : mem.malloc (filename.bytes.length + 1) with
      | none => simp only [hmalloc]
      | some buf => exact absurd ⟨hstrdup, by rw [hmalloc]; rfl⟩ hmem

def plenty : Allocator where
  strdup := true
  malloc n := some (List.replicate n 0xFF)
  length_malloc h := by
    rw [← Option.some.inj h]
    exact List.length_replicate

/-- `a/b` and `/a`. -/
def inDirectory : CString := ⟨[97, 47, 98], by decide⟩

def inRoot : CString := ⟨[47, 97], by decide⟩

theorem directory_is_named :
    ∃ buf, pathDirname plenty (some inDirectory) = some (.ok buf) ∧ string buf = [97] ∧
      NamesParent inDirectory.bytes (string buf) := by
  have hcomponents : components inDirectory.bytes ≠ [] := by decide
  rcases names_parent_iff plenty inDirectory hcomponents with ⟨hnone, -⟩ | ⟨buf, hok, -, -, hiff⟩
  · exact absurd ⟨rfl, rfl⟩ hnone
  · have hbuf : pathDirname plenty (some inDirectory) = some (.ok [97, 0, 0xFF, 0]) := by
      decide +kernel
    have heq := hok.symm.trans hbuf
    refine ⟨buf, hok, ?_, hiff.mpr (by decide)⟩
    rw [Except.ok.inj (Option.some.inj heq)]
    rfl

/-- The directory of a file in the root directory is the current directory. -/
theorem root_is_not_named :
    pathDirname plenty (some inRoot) = some (.ok [46, 0, 0]) ∧
      ¬ ∀ (mem : Allocator) (filename : CString) (buf : Bytes), components filename.bytes ≠ [] →
        pathDirname mem (some filename) = some (.ok buf) →
          NamesParent filename.bytes (string buf) := by
  have hbuf : pathDirname plenty (some inRoot) = some (.ok [46, 0, 0]) := by
    decide +kernel
  refine ⟨hbuf, fun hall => ?_⟩
  have hparent := (hall plenty inRoot _ (by decide) hbuf).parent (Or.inl (by decide)) [97]
    (by decide)
  exact absurd (hparent.absolute.mpr (by decide)) (by decide)

end PathDirname
