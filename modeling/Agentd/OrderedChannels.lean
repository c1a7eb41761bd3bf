import Mathlib.Data.List.Forall2

/-! # Channels that keep their order

A channel carries messages sealed with the numbers of the sender, one after the other. The receiver
opens each with a number of its own, and as long as both count alike what is received is what was
sent. Queues in a row pass on from the front of one to the back of the next: whatever is lost on the
way, the rest stays in its order. -/
namespace OrderedChannels

/-! ### Sealed messages -/

section Sealed

variable {ι α β : Type*} {next : ι → ι} {sealed : ι → α → β}

/-- The packets of the messages `l`, sealed from number `i` on, where the next number is `j`. -/
inductive InFlight (next : ι → ι) (sealed : ι → α → β) : ι → List α → List β → ι → Prop
  | nil (i : ι) : InFlight next sealed i [] [] i
  | cons {i j : ι} {a : α} {l : List α} {m : List β} (rest : InFlight next sealed (next i) l m j) :
      InFlight next sealed i (a :: l) (sealed i a :: m) j

variable {i j : ι} {a : α} {b : β} {l sent received : List α} {m : List β}

theorem InFlight.send (h : InFlight next sealed i l m j) (a : α) :
    InFlight next sealed i (l ++ [a]) (m ++ [sealed j a]) (next j) := by
  induction h with
  | nil i => exact .cons (.nil _)
  | cons rest ih => exact .cons ih

theorem InFlight.receive (h : InFlight next sealed i l (b :: m) j) :
    ∃ a l', l = a :: l' ∧ b = sealed i a ∧ InFlight next sealed (next i) l' m j := by
  cases h with
  | cons rest => exact ⟨_, _, rfl, rfl, rest⟩

theorem InFlight.empty (h : InFlight next sealed i l [] j) : l = [] ∧ i = j := by
  cases h with
  | nil => exact ⟨rfl, rfl⟩

/-- Of the messages sent, the first were received and the others are on their way. -/
def Delivers (next : ι → ι) (sealed : ι → α → β) (sent received : List α) (i : ι) (m : List β)
    (j : ι) : Prop :=
  ∃ l, sent = received ++ l ∧ InFlight next sealed i l m j

theorem Delivers.start (i : ι) : Delivers next sealed [] [] i [] i := ⟨[], rfl, .nil i⟩

theorem Delivers.send (h : Delivers next sealed sent received i m j) (a : α) :
    Delivers next sealed (sent ++ [a]) received i (m ++ [sealed j a]) (next j) := by
  obtain ⟨l, rfl, hl⟩ := h
  exact ⟨l ++ [a], List.append_assoc _ _ _, hl.send a⟩

/-- The packet at the front is the first message that was not received, sealed with the number of
the receiver. -/
theorem Delivers.receive (h : Delivers next sealed sent received i (b :: m) j) :
    ∃ a, sent[received.length]? = some a ∧ b = sealed i a ∧
      Delivers next sealed sent (received ++ [a]) (next i) m j := by
  obtain ⟨l, rfl, hl⟩ := h
  obtain ⟨a, l', rfl, hb, hrest⟩ := hl.receive
  refine ⟨a, ?_, hb, l', (List.append_cons _ _ _), hrest⟩
  rw [List.getElem?_append_right (Nat.le_refl _), Nat.sub_self, List.getElem?_cons_zero]

theorem Delivers.in_order (h : Delivers next sealed sent received i m j) : received <+: sent := by
  obtain ⟨l, rfl, -⟩ := h
  exact List.prefix_append _ _

/-- Once the channel is empty everything was received and both sides are at the same number. -/
theorem Delivers.all (h : Delivers next sealed sent received i [] j) : received = sent ∧ i = j := by
  obtain ⟨l, rfl, hl⟩ := h
  obtain ⟨rfl, hij⟩ := hl.empty
  exact ⟨(List.append_nil _).symm, hij⟩

end Sealed

/-! ### Queues in a row -/

section Rows

/-- All that ever came, and the queues, the first to be reached last. -/
structure Row (α : Type*) where
  entered : List α
  queues : List (List α)

variable {α : Type*}

def Row.held (r : Row α) : List α := r.queues.flatten

inductive Moves : Row α → Row α → Prop
  | enter (entered last : List α) (queues : List (List α)) (x : α) :
      Moves ⟨entered, queues ++ [last]⟩ ⟨entered ++ [x], queues ++ [last ++ [x]]⟩
  | pass (entered q rest : List α) (front back : List (List α)) (x : α) :
      Moves ⟨entered, front ++ q :: (x :: rest) :: back⟩ ⟨entered,
        front ++ (q ++ [x]) :: rest :: back⟩
  | stay (r : Row α) : Moves r r

/-- What can happen where something comes and is not taken in, or is lost from its queue. -/
inductive Loses : Row α → Row α → Prop
  | moves {r t : Row α} (h : Moves r t) : Loses r t
  | refuse (r : Row α) (x : α) : Loses r ⟨r.entered ++ [x], r.queues⟩
  | drop (entered : List α) {queues queues' : List (List α)}
      (h : List.Forall₂ List.Sublist queues' queues) : Loses ⟨entered, queues⟩ ⟨entered, queues'⟩
  | trans {r t u : Row α} (h : Loses r t) (h' : Loses t u) : Loses r u

variable {r t : Row α}

/-- Without losses all that came is there, in its order. -/
theorem Moves.held (h : Moves r t) (hr : r.held = r.entered) : t.held = t.entered := by
  cases h with
  | enter entered last queues x =>
    simp only [Row.held, List.flatten_append, List.flatten_singleton] at hr ⊢
    rw [← List.append_assoc, hr]
  | pass entered q rest front back x => simpa [Row.held] using hr
  | stay => exact hr

theorem Moves.sublist (h : Moves r t) (hr : List.Sublist r.held r.entered) :
    List.Sublist t.held t.entered := by
  cases h with
  | enter entered last queues x =>
    simp only [Row.held, List.flatten_append, List.flatten_singleton] at hr ⊢
    rw [← List.append_assoc]
    exact hr.append_right [x]
  | pass entered q rest front back x => simpa [Row.held] using hr
  | stay => exact hr

theorem sublist_flatten {l l' : List (List α)} (h : List.Forall₂ List.Sublist l l') :
    List.Sublist l.flatten l'.flatten := by
  induction h with
  | nil => exact List.Sublist.refl _
  | cons head tail ih => exact head.append ih

/-- What is there is in the order in which it came. -/
theorem Loses.held (h : Loses r t) (hr : List.Sublist r.held r.entered) :
    List.Sublist t.held t.entered := by
  induction h with
  | moves h => exact h.sublist hr
  | refuse r x => exact hr.trans (List.sublist_append_left _ _)
  | drop entered h => exact (sublist_flatten h).trans hr
  | trans h h' ih ih' => exact ih' (ih hr)

end Rows

end OrderedChannels
