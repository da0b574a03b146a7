import Mathlib

/-!
# A Ring of Slots

A queue in a fixed number of slots, with a position to read and a position to
write. It is empty when the two are the same, and so a queue that is written once
more than it has room for looks empty.

Slots that have never been written hold nothing.

## Main definitions

* `positions`: The slots from one position up to another.
* `contents`: What is in them.

## Theorems

* `positions_cons`: The first slot and the rest.
* `contents_push`: Writing one, with and without room for it.
* `positions_last`: The slot to write is not one that is read.
-/

namespace Ring

universe u

variable {α : Type u} {n : Nat} [NeZero n]

/-- A number of slots, from a position on. -/
def walk : Nat → Fin n → List (Fin n)
  | 0, _ => []
  | k + 1, read => read :: walk k (read + 1)

/-- The slots a loop from `read` up to `write` comes to. -/
def positions (read write : Fin n) : List (Fin n) :=
  walk (write - read).val read

/-- What the slots from `read` up to `write` hold. -/
def contents (slots : Fin n → Option α) (read write : Fin n) : List α :=
  (positions read write).filterMap slots

@[simp] theorem positions_self (read : Fin n) : positions read read = [] := by
  unfold positions
  rw [sub_self]
  rfl

theorem positions_cons (read write : Fin n) (h : read ≠ write) :
    positions read write = read :: positions (read + 1) write := by
  have hne : write - read ≠ 0 := fun hc => h (sub_eq_zero.mp hc).symm
  have hval := Fin.val_sub_one_of_ne_zero hne
  have hpos : (write - read).val ≠ 0 := fun hc => hne (Fin.ext hc)
  unfold positions
  rw [← sub_sub, hval, ← Nat.succ_pred_eq_of_ne_zero hpos]
  rfl

theorem walk_concat (k : Nat) (read : Fin n) :
    walk (k + 1) read = walk k read ++ [read + Fin.ofNat n k] := by
  induction k generalizing read with
  | zero =>
    have hzero : Fin.ofNat n 0 = 0 := rfl
    rw [hzero, add_zero]
    rfl
  | succ k ih =>
    have hnext : Fin.ofNat n (k + 1) = 1 + Fin.ofNat n k := by
      apply Fin.ext
      rw [Fin.val_add]
      simp [Fin.ofNat, Nat.add_comm]
    rw [walk, ih (read + 1), hnext, ← add_assoc]
    rfl

theorem positions_push (read write : Fin n) :
    positions read (write + 1) =
      if write + 1 = read then [] else positions read write ++ [write] := by
  by_cases hfull : write + 1 = read
  · rw [if_pos hfull, hfull, positions_self]
  · rw [if_neg hfull]
    have hne : write + 1 - read ≠ 0 := fun hc => hfull (sub_eq_zero.mp hc)
    have hval := Fin.val_sub_one_of_ne_zero hne
    have hpos : (write + 1 - read).val ≠ 0 := fun hc => hne (Fin.ext hc)
    have hsame : write + 1 - read - 1 = write - read := by
      rw [sub_right_comm, add_sub_cancel_right]
    rw [hsame] at hval
    have hsucc : (write + 1 - read).val = (write - read).val + 1 := by omega
    have hlast : read + Fin.ofNat n (write - read).val = write := by
      have hof : Fin.ofNat n (write - read).val = write - read := by
        apply Fin.ext
        exact Nat.mod_eq_of_lt (write - read).isLt
      rw [hof, add_sub_cancel]
    unfold positions
    rw [hsucc, walk_concat, hlast]

theorem positions_last (read write : Fin n) : ∀ p ∈ positions read write, p ≠ write := by
  generalize hk : (write - read).val = k
  induction k generalizing read with
  | zero =>
    have hzero : write - read = 0 := Fin.ext hk
    rw [sub_eq_zero.mp hzero, positions_self]
    exact fun p hp => absurd hp List.not_mem_nil
  | succ k ih =>
    have hne : read ≠ write := by
      rintro rfl
      rw [sub_self] at hk
      exact absurd hk.symm (Nat.succ_ne_zero k)
    rw [positions_cons read write hne]
    intro p hp
    rcases List.mem_cons.mp hp with rfl | hp
    · exact hne
    · refine ih (read + 1) ?_ p hp
      have hval := Fin.val_sub_one_of_ne_zero (fun hc => hne (sub_eq_zero.mp hc).symm)
      rw [← sub_sub, hval, hk, Nat.add_sub_cancel]

@[simp] theorem contents_self (slots : Fin n → Option α) (read : Fin n) :
    contents slots read read = [] := by
  unfold contents
  rw [positions_self]
  rfl

theorem contents_push (slots : Fin n → Option α) (read write : Fin n) (a : α) :
    contents (Function.update slots write (some a)) read (write + 1) =
      if write + 1 = read then [] else contents slots read write ++ [a] := by
  unfold contents
  rw [positions_push]
  split_ifs with hfull
  · rfl
  · rw [List.filterMap_append]
    congr 1
    · refine List.filterMap_congr (fun p hp => ?_)
      exact Function.update_of_ne (positions_last read write p hp) _ _
    · rw [List.filterMap_cons, Function.update_self, List.filterMap_nil]

end Ring
