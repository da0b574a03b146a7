import Mathlib.Data.List.Basic
import Mathlib.Data.List.Perm.Basic

/-!
# Overtaking

A line in which one may go ahead of others. What is true of every two in the
line, the one before and the one behind, stays true if it is true of the one
that goes ahead and those it leaves behind. Those of a kind keep their order
among themselves if none of the kind goes ahead of another.

## Main definitions

* `Passes`: One goes ahead of some that it may leave behind.
* `Twice`: One stands in the line twice, one behind the other.

## Theorems

* `Passes.perm`: Nobody joins the line or leaves it.
* `Passes.pairwise`: What is true of every two.
* `Passes.filter`: Those of a kind.
* `Twice.pairwise`: What is true of every two, when one comes to stand twice.
-/

namespace Overtaking

universe u

variable {α : Type u}

/-- `x` goes ahead of some that it may leave behind. -/
inductive Passes (may : α → α → Prop) (x : α) : List α → List α → Prop where
  | passes (front passed back : List α) (hmay : ∀ y ∈ passed, may x y) :
      Passes may x (front ++ passed ++ x :: back) (front ++ x :: passed ++ back)

variable {may : α → α → Prop} {x : α} {before after : List α}

theorem Passes.perm (h : Passes may x before after) : after.Perm before := by
  cases h with
  | passes front passed back _ =>
    rw [List.append_assoc, List.append_assoc]
    refine List.Perm.append_left front ?_
    rw [List.cons_append]
    exact List.perm_middle.symm

theorem Passes.pairwise (h : Passes may x before after) (r : α → α → Prop)
    (hr : ∀ y, may x y → r x y) (hbefore : before.Pairwise r) : after.Pairwise r := by
  cases h with
  | passes front passed back hmay =>
    rw [List.append_assoc, List.pairwise_append, List.pairwise_append, List.pairwise_cons]
      at hbefore
    rcases hbefore with ⟨hfront, ⟨hover, ⟨hx, hback⟩, hoverBack⟩, hacross⟩
    rw [List.append_assoc, List.cons_append, List.pairwise_append, List.pairwise_cons,
      List.pairwise_append]
    refine ⟨hfront, ⟨?_, hover, hback, ?_⟩, ?_⟩
    · intro y hy
      rcases List.mem_append.mp hy with hy | hy
      · exact hr y (hmay y hy)
      · exact hx y hy
    · intro y hy z hz
      exact hoverBack y hy z (List.mem_cons_of_mem x hz)
    · intro y hy z hz
      refine hacross y hy z ?_
      simp only [List.mem_cons, List.mem_append] at hz ⊢
      rcases hz with hz | hz | hz
      · exact Or.inr (Or.inl hz)
      · exact Or.inl hz
      · exact Or.inr (Or.inr hz)

theorem Passes.filter (h : Passes may x before after) (p : α → Bool)
    (hp : p x = true → ∀ y, may x y → p y = false) : after.filter p = before.filter p := by
  cases h with
  | passes front passed back hmay =>
    cases hx : p x with
    | false =>
      simp only [List.filter_append, List.filter_cons, hx, Bool.false_eq_true, if_false]
    | true =>
      have hover : passed.filter p = [] := by
        rw [List.filter_eq_nil_iff]
        intro y hy
        rw [hp hx y (hmay y hy)]
        exact Bool.false_ne_true
      simp only [List.filter_append, List.filter_cons, hx, if_true, hover, List.nil_append,
        List.append_assoc, List.cons_append]

/-- One stands in the line twice, one behind the other. -/
inductive Twice : List α → List α → Prop where
  | twice (x : α) (front back : List α) : Twice (front ++ x :: back) (front ++ x :: x :: back)

theorem Twice.pairwise {before after : List α} (h : Twice before after) (r : α → α → Prop)
    (hr : ∀ x, r x x) (hbefore : before.Pairwise r) : after.Pairwise r := by
  cases h with
  | twice x front back =>
    rw [List.pairwise_append, List.pairwise_cons] at hbefore ⊢
    rcases hbefore with ⟨hfront, ⟨hxback, hback⟩, hacross⟩
    refine ⟨hfront, ⟨?_, List.pairwise_cons.mpr ⟨hxback, hback⟩⟩, ?_⟩
    · intro y hy
      rcases List.mem_cons.mp hy with hy | hy
      · rw [hy]
        exact hr x
      · exact hxback y hy
    · intro y hy z hz
      refine hacross y hy z ?_
      rcases List.mem_cons.mp hz with hz | hz
      · rw [hz]
        exact List.mem_cons_self
      · exact hz

theorem Twice.mem_iff {before after : List α} (h : Twice before after) (y : α) :
    y ∈ after ↔ y ∈ before := by
  cases h with
  | twice x front back =>
    simp only [List.mem_append, List.mem_cons]
    constructor
    · rintro (h | h | h | h)
      · exact Or.inl h
      · exact Or.inr (Or.inl h)
      · exact Or.inr (Or.inl h)
      · exact Or.inr (Or.inr h)
    · rintro (h | h | h)
      · exact Or.inl h
      · exact Or.inr (Or.inl h)
      · exact Or.inr (Or.inr (Or.inr h))

end Overtaking
