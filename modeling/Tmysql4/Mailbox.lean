import Mathlib.Data.List.Count
import Mathlib.Data.List.Nodup

/-! # Mailboxes

Elements are accepted, wait in an inbox, are handed out in batches and started one after the
other. A batch may be handed out while an earlier one is still in hand; then it is started first.
`Step` is parameterised by what may go wrong: with `lossy` elements may be dropped before they are
started, and with `nested` a batch may be handed out over elements still in hand.

In every run nothing is started more often than it was accepted (`Bounded`), without losses every
accepted element is in one of the three places (`Conserved`), and without nesting the elements are
started in the order of acceptance (`Ordered`). -/

structure Mailbox (α : Type*) where
  accepted : List α
  inbox : List α
  hand : List α
  started : List α

namespace Mailbox

variable {α : Type*}

inductive Step (lossy nested : Prop) (m : Mailbox α) : Mailbox α → Prop
  | stutter : Step lossy nested m m
  | accept (a : α) :
      Step lossy nested m { m with accepted := m.accepted ++ [a], inbox := m.inbox ++ [a] }
  | pop (batch rest : List α) (head : m.inbox = batch ++ rest)
      (free : m.hand = [] ∨ batch = [] ∨ nested) :
      Step lossy nested m { m with inbox := rest, hand := batch ++ m.hand }
  | start (a : α) (hand : List α) (top : m.hand = a :: hand) :
      Step lossy nested m { m with hand := hand, started := m.started ++ [a] }
  | drop (inbox hand : List α) (hinbox : List.Sublist inbox m.inbox)
      (hhand : List.Sublist hand m.hand) (loss : lossy) :
      Step lossy nested m { m with inbox := inbox, hand := hand }

theorem Step.of_eq {lossy nested : Prop} {m m' : Mailbox α} (h : m' = m) :
    Step lossy nested m m' := by
  rw [h]
  exact .stutter

theorem Step.mono {lossy nested lossy' nested' : Prop} {m m' : Mailbox α}
    (h : Step lossy nested m m') (hl : lossy → lossy') (hn : nested → nested') :
    Step lossy' nested' m m' := by
  cases h with
  | stutter => exact .stutter
  | accept a => exact .accept a
  | pop batch rest head free => exact .pop batch rest head (free.imp_right (·.imp_right hn))
  | start a hand top => exact .start a hand top
  | drop inbox hand hinbox hhand loss => exact .drop inbox hand hinbox hhand (hl loss)

/-- Everything that is or will be started, in the order in
which it would be without further pops. -/
def sequence (m : Mailbox α) : List α := m.started ++ (m.hand ++ m.inbox)

section Count

variable [DecidableEq α]

/-- Nothing is started, in hand or waiting more often than it was accepted. -/
def Bounded (m : Mailbox α) : Prop := ∀ a, m.sequence.count a ≤ m.accepted.count a

/-- Everything accepted is started, in hand or waiting. -/
def Conserved (m : Mailbox α) : Prop := ∀ a, m.sequence.count a = m.accepted.count a

theorem Bounded.step {lossy nested : Prop} {m m' : Mailbox α} (h : m.Bounded)
    (hs : Step lossy nested m m') : m'.Bounded := by
  intro x
  have hx := h x
  cases hs with
  | stutter => exact hx
  | accept a =>
      simp only [sequence, List.count_append] at hx ⊢
      omega
  | pop batch rest head free =>
      simp only [sequence, head, List.count_append] at hx ⊢
      omega
  | start a hand top =>
      simp only [sequence, top, List.count_append, List.count_cons, List.count_nil] at hx ⊢
      omega
  | drop inbox hand hinbox hhand loss =>
      have h₁ := hinbox.count_le x
      have h₂ := hhand.count_le x
      simp only [sequence, List.count_append] at hx ⊢
      omega

theorem Conserved.step {nested : Prop} {m m' : Mailbox α} (h : m.Conserved)
    (hs : Step False nested m m') : m'.Conserved := by
  intro x
  have hx := h x
  cases hs with
  | stutter => exact hx
  | accept a =>
      simp only [sequence, List.count_append] at hx ⊢
      omega
  | pop batch rest head free =>
      simp only [sequence, head, List.count_append] at hx ⊢
      omega
  | start a hand top =>
      simp only [sequence, top, List.count_append, List.count_cons, List.count_nil] at hx ⊢
      omega
  | drop inbox hand hinbox hhand loss => exact loss.elim

/-- Distinct elements are started at most once. -/
theorem Bounded.started_nodup {m : Mailbox α} (h : m.Bounded) (hnd : m.accepted.Nodup) :
    m.started.Nodup := by
  rw [List.nodup_iff_count_le_one] at hnd ⊢
  intro a
  have h₁ := h a
  have h₂ := hnd a
  simp only [sequence, List.count_append] at h₁
  omega

/-- Once nothing is in hand or waiting, every element has been started as often as accepted. -/
theorem Conserved.count_started {m : Mailbox α} (h : m.Conserved) (hhand : m.hand = [])
    (hinbox : m.inbox = []) (a : α) : m.started.count a = m.accepted.count a := by
  rw [← h a, sequence, hhand, hinbox, List.append_nil, List.append_nil]

end Count

/-- The elements are started in the order of acceptance. -/
def Ordered (m : Mailbox α) : Prop := List.Sublist m.sequence m.accepted

theorem Ordered.step {lossy : Prop} {m m' : Mailbox α} (h : m.Ordered)
    (hs : Step lossy False m m') : m'.Ordered := by
  unfold Ordered sequence at *
  cases hs with
  | stutter => exact h
  | accept a => simpa only [List.append_assoc] using h.append (List.Sublist.refl [a])
  | pop batch rest head free =>
      rcases free with hand | rfl | hn
      · simpa [hand, head] using h
      · simpa [head] using h
      · exact hn.elim
  | start a hand top => simpa [top] using h
  | drop inbox hand hinbox hhand loss =>
      exact ((List.Sublist.refl m.started).append (hhand.append hinbox)).trans h

theorem Ordered.started {m : Mailbox α} (h : m.Ordered) : List.Sublist m.started m.accepted :=
  (List.sublist_append_left _ _).trans h

end Mailbox
