import K530.Lib.Checked

/-!
# Two Stacks in One Array

Two stacks share an array. One begins at the first entry and grows upwards, the
other begins at the last and grows downwards, and each may grow until it meets
the other.

A pointer to the top is a pointer to the entry the next element goes to. It may
be one beyond either end of the array, so it is an integer here, and an access
is checked. `place` is where the elements of a stack are: the entry of element
`k` of the one at the front is `k`, and of the one at the back it is the `k`-th
from the end. Both stacks are one definition and one proof.

## Main definitions

* `Side`: Which of the two.
* `place`: The entry of an element.
* `fetchAt`, `storeAt`: Read and write an entry.
* `Holds`: A stack is these elements.

## Theorems

* `full_iff`: The place before the top is the other top when nothing is left.
* `Holds.push`: Pushing onto a stack that is not full.
* `Holds.beside`: The other stack is as it was.
-/

namespace TwoStacks

universe u

variable {α : Type u} {n : Nat}

/-- The stack at the front of the array or the one at the back. -/
inductive Side where
  | front
  | back
  deriving DecidableEq

/-- The other stack. -/
def Side.other : Side → Side
  | .front => .back
  | .back => .front

/-- Which way the stack grows. -/
def Side.direction : Side → Int
  | .front => 1
  | .back => -1

/-- The entry of an element, counted from the bottom of the stack. -/
def Side.place (n : Nat) (k : Nat) : Side → Int
  | .front => k
  | .back => n - 1 - k

theorem Side.place_succ (n k : Nat) (s : Side) :
    s.place n (k + 1) = s.place n k + s.direction := by
  cases s <;> simp only [place, direction] <;> omega

theorem Side.place_pred (n k : Nat) (s : Side) :
    s.place n (k + 1) - s.direction = s.place n k := by
  cases s <;> simp only [place, direction] <;> omega

theorem Side.place_inj {n k k' : Nat} {s : Side} (h : s.place n k = s.place n k') : k = k' := by
  cases s <;> simp only [place] at h <;> omega

theorem Side.full_iff (n k l : Nat) (s : Side) :
    s.place n k - s.direction = s.other.place n l ↔ k + l = n := by
  cases s <;> simp only [place, direction, other] <;> omega

theorem Side.place_ne {n k l : Nat} {s : Side} (h : k + l + 1 ≠ n) :
    s.place n k ≠ s.other.place n l := by
  cases s <;> simp only [place, other] <;> omega

theorem Side.place_bounds {n k : Nat} (s : Side) (h : k < n) :
    0 ≤ s.place n k ∧ (s.place n k).toNat < n := by
  cases s <;> simp only [place] <;> omega

/-- Read an entry. -/
def fetchAt (v : Vector α n) (i : Int) : Option α :=
  if 0 ≤ i then Checked.fetch v i.toNat else none

/-- Write an entry. -/
def storeAt (v : Vector α n) (i : Int) (a : α) : Option (Vector α n) :=
  if 0 ≤ i then Checked.store v i.toNat a else none

/-- The elements of the stack are these, the first at the bottom. -/
def Holds (v : Vector α n) (s : Side) (l : List α) : Prop :=
  ∀ k (h : k < l.length), fetchAt v (s.place n k) = some l[k]

theorem holds_nil (v : Vector α n) (s : Side) : Holds v s [] :=
  fun _ h => absurd h (Nat.not_lt_zero _)

theorem Holds.take {v : Vector α n} {s : Side} {l : List α} (h : Holds v s l) (k : Nat) :
    Holds v s (l.take k) := by
  intro j hj
  rw [List.length_take] at hj
  rw [h j (by omega), List.getElem_take]

theorem storeAt_place (v : Vector α n) (s : Side) (k : Nat) (a : α) (h : k < n) :
    ∃ v', storeAt v (s.place n k) a = some v' ∧
      fetchAt v' (s.place n k) = some a ∧
      ∀ i, i ≠ s.place n k → fetchAt v' i = fetchAt v i := by
  obtain ⟨hpos, hlt⟩ := s.place_bounds h
  refine ⟨v.setIfInBounds (s.place n k).toNat a, ?_, ?_, fun i hi => ?_⟩
  · unfold storeAt
    rw [if_pos hpos, Checked.store_of_lt v _ a hlt]
  · unfold fetchAt
    rw [if_pos hpos, Checked.fetch_setIfInBounds v _ _ a hlt, if_pos rfl]
  · unfold fetchAt
    by_cases hneg : 0 ≤ i
    · rw [if_pos hneg, if_pos hneg, Checked.fetch_setIfInBounds v _ _ a hlt,
        if_neg (by omega)]
    · rw [if_neg hneg, if_neg hneg]

theorem Holds.push {v v' : Vector α n} {s : Side} {l : List α} (h : Holds v s l) (a : α)
    (htop : fetchAt v' (s.place n l.length) = some a)
    (hrest : ∀ i, i ≠ s.place n l.length → fetchAt v' i = fetchAt v i) :
    Holds v' s (l ++ [a]) := by
  intro k hk
  rw [List.length_append, List.length_singleton] at hk
  by_cases hlast : k = l.length
  · subst hlast
    rw [htop, List.getElem_concat_length rfl]
  · have hlt : k < l.length := by omega
    rw [hrest _ (fun hc => hlast (Side.place_inj hc)), h k hlt, List.getElem_append_left hlt]

theorem Holds.beside {v v' : Vector α n} {s : Side} {k : Nat} {l : List α}
    (h : Holds v s.other l) (hroom : k + l.length < n)
    (hrest : ∀ i, i ≠ s.place n k → fetchAt v' i = fetchAt v i) :
    Holds v' s.other l := by
  intro j hj
  rw [hrest _ ?_, h j hj]
  exact (Side.place_ne (by omega)).symm

end TwoStacks
