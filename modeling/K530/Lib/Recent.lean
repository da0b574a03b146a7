import Mathlib.Data.List.DropRight
import Mathlib.Tactic.Common

/-!
# The End of a List

What is remembered of a list that has no bound is often the end of it, of some
length. These are the lemmas for such an end when the list grows, and when those of
its entries go that are too old.

In a list that is sorted by age, with the oldest first, what is young is at the end.
So if all of the end is young it is the end of what is young, and if none of it is,
nothing is.

## Main definitions

* `streak`: How many of the last entries of a list have a property.
* `LastAll`: The last so many entries have it.

## Theorems

* `rtake_append`: The list grows.
* `drop_rtake`: Of the end, the first are dropped.
* `filter_of_sorted`: What is young is at the end.
* `rtake_filter_of_all`, `rtake_filter_of_none`: All of the end is young, or none of it.
* `streak_concat`: One entry more.
* `streak_self`, `streak_other`: The streak of a value.
* `lastAll_iff`: The last entries have the property exactly when the streak is long
  enough.
-/

namespace Recent

universe u v

variable {α : Type u} {β : Type v}

theorem rtake_append (l m : List α) (n : Nat) (h : m.length ≤ n) :
    (l ++ m).rtake n = l.rtake (n - m.length) ++ m := by
  unfold List.rtake
  have hdrop : l.length + m.length - n = l.length - (n - m.length) := by omega
  rw [List.length_append, hdrop, List.drop_append_of_le_length (Nat.sub_le _ _)]

theorem rtake_of_length_le (l : List α) (n : Nat) (h : l.length ≤ n) :
    l.rtake n = l := by
  unfold List.rtake
  rw [Nat.sub_eq_zero_of_le h, List.drop_zero]

theorem length_rtake (l : List α) (n : Nat) :
    (l.rtake n).length = min n l.length := by
  unfold List.rtake
  rw [List.length_drop]
  omega

theorem map_rtake (f : α → β) (l : List α) (n : Nat) :
    (l.map f).rtake n = (l.rtake n).map f := by
  unfold List.rtake
  rw [List.length_map, List.map_drop]

theorem drop_rtake (l : List α) (n k : Nat) (hk : k ≤ n) (hn : n ≤ l.length) :
    (l.rtake n).drop k = l.rtake (n - k) := by
  unfold List.rtake
  rw [List.drop_drop]
  congr 1
  omega

theorem filter_of_sorted (age : α → Nat) (bound : Nat) (l : List α)
    (h : l.Pairwise (fun a b => age b ≤ age a)) :
    ∃ old, l = old ++ l.filter (fun a => age a ≤ bound) ∧ ∀ a ∈ old, bound < age a := by
  induction l with
  | nil => exact ⟨[], rfl, fun a ha => absurd ha List.not_mem_nil⟩
  | cons a l ih =>
    obtain ⟨hhead, hrest⟩ := List.pairwise_cons.mp h
    by_cases hage : age a ≤ bound
    · -- the rest is younger, and all of it passes
      have hall : ∀ b ∈ a :: l, decide (age b ≤ bound) = true := by
        intro b hb
        rcases List.mem_cons.mp hb with rfl | hb
        · exact decide_eq_true hage
        · exact decide_eq_true (Nat.le_trans (hhead b hb) hage)
      refine ⟨[], ?_, fun b hb => absurd hb List.not_mem_nil⟩
      rw [List.filter_eq_self.mpr hall, List.nil_append]
    · -- an old one stays in front of those that are
      obtain ⟨old, heq, hold⟩ := ih hrest
      refine ⟨a :: old, ?_, ?_⟩
      · rw [List.filter_cons_of_neg (by simpa using hage), List.cons_append, ← heq]
      · intro b hb
        rcases List.mem_cons.mp hb with rfl | hb
        · exact Nat.lt_of_not_le hage
        · exact hold b hb

theorem rtake_filter_of_all (p : α → Bool) (l : List α) (n : Nat)
    (h : ∀ a ∈ l.rtake n, p a = true) : (l.filter p).rtake n = l.rtake n := by
  have hsplit : l.take (l.length - n) ++ l.rtake n = l := List.take_append_drop _ l
  have hlen := length_rtake l n
  have hfilter : l.filter p = (l.take (l.length - n)).filter p ++ l.rtake n := by
    rw [← List.filter_eq_self.mpr h, ← List.filter_append, hsplit]
  rw [hfilter, rtake_append _ _ _ (by omega)]
  rcases Nat.lt_or_ge l.length n with hshort | hlong
  · have hnone : l.length - n = 0 := by omega
    rw [hnone, List.take_zero, List.filter_nil, List.rtake_nil, List.nil_append]
  · have hwhole : n - (l.rtake n).length = 0 := by omega
    rw [hwhole, List.rtake_zero, List.nil_append]

theorem rtake_filter_of_none (age : α → Nat) (bound : Nat) (l : List α) (n : Nat)
    (hsorted : l.Pairwise (fun a b => age b ≤ age a)) (h : ∀ a ∈ l.rtake n, bound < age a) :
    (l.filter (fun a => age a ≤ bound)).rtake n = [] := by
  obtain ⟨old, hsplit, -⟩ := filter_of_sorted age bound l hsorted
  rw [List.eq_nil_iff_forall_not_mem]
  intro a ha
  have hyoung : age a ≤ bound := by
    simpa using (List.mem_filter.mp (List.mem_of_mem_drop ha)).2
  -- what passes is at the end, and so is the end of it
  have hend : a ∈ l.rtake n := by
    rw [hsplit]
    unfold List.rtake at ha ⊢
    rw [List.drop_append, List.length_append]
    refine List.mem_append_right _ ?_
    convert ha using 2
    omega
  exact absurd hyoung (Nat.not_le_of_lt (h a hend))

end Recent

/-!
### Streaks

A machine that waits for so many readings in a row keeps a counter. What it waits
for is a property of the readings: the last so many of them, taken together. The
length of the streak at the end of the readings connects the two. It grows by one
with a reading that fits, and a reading that does not starts it over.
-/

namespace Streak

universe u

variable {α : Type u} (p : α → Bool)

/-- How many of the last entries have the property. -/
def streak (xs : List α) : Nat := (xs.rtakeWhile p).length

/-- There are so many entries at the end, and all of them have the property. -/
def LastAll (k : Nat) (xs : List α) : Prop :=
  k ≤ xs.length ∧ ∀ x ∈ xs.rtake k, p x = true

instance (k : Nat) (xs : List α) : Decidable (LastAll p k xs) :=
  inferInstanceAs (Decidable (_ ∧ _))

@[simp] theorem streak_nil : streak p [] = 0 := by
  unfold streak
  rw [List.rtakeWhile_nil, List.length_nil]

theorem streak_concat (xs : List α) (x : α) :
    streak p (xs ++ [x]) = if p x = true then streak p xs + 1 else 0 := by
  unfold streak
  rw [List.rtakeWhile_concat]
  by_cases hx : p x
  · rw [if_pos hx, if_pos hx, List.length_append, List.length_singleton]
  · rw [if_neg hx, if_neg hx, List.length_nil]

theorem streak_self [BEq α] [LawfulBEq α] (xs : List α) (x : α) :
    streak (· == x) (xs ++ [x]) = streak (· == x) xs + 1 := by
  rw [streak_concat, if_pos (beq_self_eq_true x)]

theorem streak_other [BEq α] [LawfulBEq α] (xs : List α) (x y : α) (h : x ≠ y) :
    streak (· == y) (xs ++ [x]) = 0 := by
  rw [streak_concat, if_neg]
  rw [beq_iff_eq]
  exact h

theorem streak_eq_zero (xs : List α) (h : ∀ x ∈ xs.getLast?, p x = false) : streak p xs = 0 := by
  induction xs using List.reverseRecOn with
  | nil => exact streak_nil p
  | append_singleton xs x _ =>
    have hx := h x (by simp)
    rw [streak_concat, if_neg (by rw [hx]; exact Bool.false_ne_true)]

theorem lastAll_zero (xs : List α) : LastAll p 0 xs := by
  refine ⟨Nat.zero_le _, fun x hx => ?_⟩
  rw [List.rtake_zero] at hx
  exact absurd hx List.not_mem_nil

theorem lastAll_concat (k : Nat) (xs : List α) (x : α) :
    LastAll p (k + 1) (xs ++ [x]) ↔ p x ∧ LastAll p k xs := by
  unfold LastAll
  rw [List.length_append, List.length_singleton, Nat.add_le_add_iff_right, List.rtake_concat_succ]
  constructor
  · rintro ⟨hlen, hall⟩
    refine ⟨hall x (by simp), hlen, fun y hy => hall y ?_⟩
    exact List.mem_append_left _ hy
  · rintro ⟨hx, hlen, hall⟩
    refine ⟨hlen, fun y hy => ?_⟩
    rcases List.mem_append.mp hy with hy | hy
    · exact hall y hy
    · rw [List.mem_singleton.mp hy]
      exact hx

theorem lastAll_iff (k : Nat) (xs : List α) : LastAll p k xs ↔ k ≤ streak p xs := by
  induction xs using List.reverseRecOn generalizing k with
  | nil =>
    rw [streak_nil, Nat.le_zero]
    constructor
    · exact fun h => Nat.le_zero.mp h.1
    · rintro rfl
      exact lastAll_zero p []
  | append_singleton xs x ih =>
    rw [streak_concat]
    cases k with
    | zero => simp [lastAll_zero]
    | succ k =>
      rw [lastAll_concat, ih]
      by_cases hx : p x
      · rw [if_pos hx, and_iff_right hx, Nat.add_le_add_iff_right]
      · rw [if_neg hx]
        simp [hx]

end Streak
