import Mathlib.Data.Nat.Bitwise
import Mathlib.Logic.Function.Basic
import Mathlib.Tactic.Common

/-!
# Paged Memory

An array of values over the natural numbers, read and written in runs, and a
device that is such an array except that what it writes at once stays within one
page: a run that goes beyond the end of the page goes on at its beginning.

A device keeps what has been asked of it, so that it can be said that nothing has
been asked of it that crosses a page. A run is split at the ends of the pages by
`pieceLength`.

## Main definitions

* `get`, `put`: Reading and writing a run.
* `pagePut`: Writing within a page.
* `Device`: The values, and the writes so far.
* `InPage`: A write that does not cross a page.
* `Device.InPages`: None that does, between two states.
* `pieceLength`: How much of a run there is up to the end of the page.

## Theorems

* `put_append`: A run in two parts.
* `put_get`: What is there already changes nothing.
* `pagePut_eq_put`: A write that does not cross a page.
-/

namespace Paged

universe u

variable {α : Type u}

/-- A run of values. -/
def get (m : Nat → α) (place : Nat) : Nat → List α
  | 0 => []
  | n + 1 => m place :: get m (place + 1) n

/-- The array with a run of values written into it. -/
def put (m : Nat → α) (place : Nat) : List α → Nat → α
  | [] => m
  | x :: xs => put (Function.update m place x) (place + 1) xs

theorem put_append (xs ys : List α) :
    ∀ (m : Nat → α) (place : Nat),
      put m place (xs ++ ys) = put (put m place xs) (place + xs.length) ys := by
  induction xs with
  | nil => intro m place; rfl
  | cons x xs ih =>
    intro m place
    simp only [List.cons_append, put, List.length_cons, ih]
    congr 1
    omega

theorem put_get (n : Nat) : ∀ (m : Nat → α) (place : Nat), put m place (get m place n) = m := by
  induction n with
  | zero => intro m place; rfl
  | succ n ih =>
    intro m place
    simp only [get, put, Function.update_eq_self, ih]

/-- The array with a run of values written into the page at `base` from `offset` on,
    and round to its beginning. -/
def pagePut (page base : Nat) (m : Nat → α) (offset : Nat) : List α → Nat → α
  | [] => m
  | x :: xs => pagePut page base (Function.update m (base + offset % page) x) (offset + 1) xs

theorem pagePut_eq_put (page base : Nat) (xs : List α) :
    ∀ (m : Nat → α) (offset : Nat), offset + xs.length ≤ page →
      pagePut page base m offset xs = put m (base + offset) xs := by
  induction xs with
  | nil => intro m offset _; rfl
  | cons x xs ih =>
    intro m offset h
    simp only [List.length_cons] at h
    simp only [pagePut, put]
    rw [Nat.mod_eq_of_lt (by omega), ih _ _ (by omega), Nat.add_assoc]

/-- The values, and the writes so far, oldest first. Nothing reads these. -/
structure Device (α : Type u) where
  values : Nat → α
  issued : List (Nat × List α)

/-- A write that does not cross a page. -/
def InPage (page : Nat) (write : Nat × List α) : Prop :=
  write.1 % page + write.2.length ≤ page

/-- A write to the device. -/
def Device.write (page place : Nat) (xs : List α) (d : Device α) : Device α :=
  { values := pagePut page (place - place % page) d.values (place % page) xs
    issued := d.issued ++ [(place, xs)] }

@[simp] theorem Device.write_issued (page place : Nat) (xs : List α) (d : Device α) :
    (d.write page place xs).issued = d.issued ++ [(place, xs)] := rfl

theorem Device.write_values {page place : Nat} {xs : List α} (h : InPage page (place, xs))
    (d : Device α) : (d.write page place xs).values = put d.values place xs := by
  unfold Device.write
  rw [pagePut_eq_put page _ xs d.values (place % page) h,
    Nat.sub_add_cancel (Nat.mod_le place page)]

/-- Between one state of a device and another no write crosses a page. -/
def Device.InPages (page : Nat) (d d' : Device α) : Prop :=
  ∃ writes, d'.issued = d.issued ++ writes ∧ ∀ write ∈ writes, InPage page write

theorem Device.InPages.refl (page : Nat) (d : Device α) : d.InPages page d :=
  ⟨[], (List.append_nil _).symm, by simp⟩

theorem Device.InPages.trans {page : Nat} {d d' d'' : Device α} (h : d.InPages page d')
    (h' : d'.InPages page d'') : d.InPages page d'' := by
  rcases h with ⟨writes, hissued, hpages⟩
  rcases h' with ⟨writes', hissued', hpages'⟩
  refine ⟨writes ++ writes', by rw [hissued', hissued, List.append_assoc], ?_⟩
  intro write hwrite
  exact (List.mem_append.mp hwrite).elim (hpages write) (hpages' write)

theorem Device.inPages_write {page place : Nat} {xs : List α} (h : InPage page (place, xs))
    (d : Device α) : d.InPages page (d.write page place xs) :=
  ⟨[(place, xs)], rfl, by simpa using h⟩

/-- How much of a run there is up to the end of the page. -/
def pieceLength (page place len : Nat) : Nat :=
  if len < page - place % page then len else page - place % page

variable {page place len : Nat}

theorem pieceLength_le : pieceLength page place len ≤ len := by
  unfold pieceLength
  split <;> omega

theorem pieceLength_le_page : pieceLength page place len ≤ page := by
  unfold pieceLength
  split <;> omega

theorem pieceLength_pos (hpage : 0 < page) (hlen : 0 < len) : 0 < pieceLength page place len := by
  have hlt := Nat.mod_lt place hpage
  unfold pieceLength
  split <;> omega

theorem inPage_piece (hpage : 0 < page) (xs : List α) :
    InPage page (place, xs.take (pieceLength page place xs.length)) := by
  have hlt := Nat.mod_lt place hpage
  unfold InPage pieceLength
  simp only [List.length_take]
  split <;> omega

theorem exists_piece (hpage : 0 < page) (place : Nat) (xs : List α) (hxs : 0 < xs.length) :
    ∃ w, pieceLength page place xs.length = w ∧ InPage page (place, xs.take w) ∧ 0 < w ∧
      w ≤ xs.length ∧ w ≤ page :=
  ⟨_, rfl, inPage_piece hpage xs, pieceLength_pos hpage hxs, pieceLength_le, pieceLength_le_page⟩

theorem mod_eq_zero_of_pieceLength_eq (hpage : 0 < page)
    (h : pieceLength page place len = page) : place % page = 0 ∧ page ≤ len := by
  have hlt := Nat.mod_lt place hpage
  unfold pieceLength at h
  split at h <;> omega

end Paged
