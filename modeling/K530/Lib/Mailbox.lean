import Mathlib.Data.List.Basic

/-!
# A Mailbox of One Place

A writer puts messages into a single place and a reader takes what it finds
there, neither of them waiting for the other. A message put over one that has
not been taken destroys it. The reader may take the same message again, and if
it reads while the writer writes it may make out a message nobody put.

What goes wrong goes wrong in the writer. If it puts only into a free place, one
that is empty or has been taken, nothing is lost: every message but the one in
the place has been got, in the order of the putting. `Mailbox` carries that as
its invariant, and the demand on the writer is an argument of `put`.

The place may hold something that is no message to this reader; that is `none`,
and it is always free. `got` is everything the reader believes to have got, so
taking twice is there twice, and the messages nobody put are there as well.

## Main definitions

* `Mailbox`: The place, and what has been put and got.
* `Free`: Nothing would be lost.
* `put`, `take`, `stray`: The writer puts, the reader takes, or makes out a
  message nobody put.

## Theorems

* `sent_sublist`: When the place is free, everything has been got.
* `latest_of_free`: When the place is free, the last got is the last put.
-/

universe u

/-- A place for one message, and the messages put and got so far, oldest
    first. -/
structure Mailbox (α : Type u) where
  /-- what is in the place, if it is a message -/
  slot : Option α
  /-- it has been taken -/
  taken : Bool
  sent : List α
  got : List α
  /-- Every message but the one in the place has been got. -/
  delivered : ∃ done, sent = done ++ slot.toList ∧ done.Sublist got
  /-- When the place is free so has that one, and last. -/
  free : slot = none ∨ taken = true → sent.Sublist got ∧ got.getLast? = sent.getLast?

namespace Mailbox

variable {α : Type u}

/-- A message put now destroys none. -/
def Free (m : Mailbox α) : Prop :=
  m.slot = none ∨ m.taken = true

theorem sent_sublist (m : Mailbox α) (h : m.Free) : m.sent.Sublist m.got :=
  (m.free h).1

theorem latest_of_free (m : Mailbox α) (h : m.Free) : m.got.getLast? = m.sent.getLast? :=
  (m.free h).2

/-- Nothing put and nothing got. -/
def empty : Mailbox α where
  slot := none
  taken := false
  sent := []
  got := []
  delivered := ⟨[], rfl, List.Sublist.refl []⟩
  free := fun _ => ⟨List.Sublist.refl [], rfl⟩

/-- The writer puts a message, or something else, into a free place. -/
def put (m : Mailbox α) (x : Option α) (h : m.Free) : Mailbox α where
  slot := x
  taken := false
  sent := m.sent ++ x.toList
  got := m.got
  delivered := ⟨m.sent, rfl, m.sent_sublist h⟩
  free := by
    rintro (hnone | htaken)
    · rw [hnone, Option.toList_none, List.append_nil]
      exact m.free h
    · exact Bool.noConfusion htaken

/-- The reader takes what is in the place. It stays there. -/
def take (m : Mailbox α) : Mailbox α where
  slot := m.slot
  taken := true
  sent := m.sent
  got := m.got ++ m.slot.toList
  delivered := by
    obtain ⟨done, hsent, hdone⟩ := m.delivered
    exact ⟨done, hsent, hdone.trans (List.sublist_append_left _ _)⟩
  free := by
    intro _
    cases hslot : m.slot with
    | none =>
      rw [Option.toList_none, List.append_nil]
      exact m.free (Or.inl hslot)
    | some a =>
      obtain ⟨done, hsent, hdone⟩ := m.delivered
      rw [hsent, hslot]
      exact ⟨hdone.append_right _, by rw [Option.toList_some, List.getLast?_concat,
        List.getLast?_concat]⟩

/-- The reader makes out a message nobody put, while one it has not taken is
    in the place. -/
def stray (m : Mailbox α) (a : α) (h : ¬ m.Free) : Mailbox α where
  slot := m.slot
  taken := m.taken
  sent := m.sent
  got := m.got ++ [a]
  delivered := by
    obtain ⟨done, hsent, hdone⟩ := m.delivered
    exact ⟨done, hsent, hdone.trans (List.sublist_append_left _ _)⟩
  free := fun hfree => absurd hfree h

end Mailbox
