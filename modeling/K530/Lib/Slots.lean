import Mathlib.Data.List.FinRange
import Mathlib.Logic.Function.Basic
import Mathlib.Tactic.Common

/-!
# A Table of Slots

A fixed number of slots, of which some are live. A loop over the table looks for
the first slot from some index on that meets a condition.

What the table is for is the collection of its live entries, wherever they are.
`Lists` says that a list has the same entries. A live entry has a key that no
other live entry has, so a change of the slot with a key is the change of the
entry with that key, which `amend` is on the list.

## Main definitions

* `firstFrom`: The first slot that meets a condition.
* `Unique`: No two live entries have the same key.
* `Lists`: The live entries, as a list.
* `amend`: Change or remove the entries that are selected.

## Theorems

* `firstFrom_eq_some`, `firstFrom_eq_none`: What the loop has found.
* `Unique.update`: A change of one slot.
* `Lists.claim`: A new entry in a slot that is not live.
* `Lists.change`: A change of the slot that is selected.
* `Lists.unselected`: No slot is selected.
* `Lists.broken`: A change of a slot that is not.
-/

namespace Slots

universe u v

variable {α : Type u} {κ : Type v} {n : Nat}

/-- The first slot from an index on that meets a condition. -/
def firstFrom (p : α → Bool) (k : Nat) (table : Fin n → α) : Option (Fin n) :=
  (List.finRange n).find? (fun i => decide (k ≤ i) && p (table i))

theorem firstFrom_eq_some {p : α → Bool} {k : Nat} {table : Fin n → α} {i : Fin n}
    (h : firstFrom p k table = some i) : k ≤ i ∧ p (table i) := by
  have hi := List.find?_some h
  rwa [Bool.and_eq_true, decide_eq_true_iff] at hi

theorem firstFrom_eq_none {p : α → Bool} {table : Fin n → α} (h : firstFrom p 0 table = none)
    (i : Fin n) : p (table i) = false := by
  have hi := List.find?_eq_none.mp h i (List.mem_finRange i)
  simpa using hi

section Live

variable (live : α → Prop) (key : α → κ)

/-- No two live entries have the same key. -/
def Unique (table : Fin n → α) : Prop :=
  ∀ i j, live (table i) → live (table j) → key (table i) = key (table j) → i = j

theorem Unique.update {live : α → Prop} {key : α → κ} {table : Fin n → α}
    (h : Unique live key table) (i : Fin n) (a : α)
    (hnew : live a → ∀ j, j ≠ i → live (table j) → key (table j) ≠ key a) :
    Unique live key (Function.update table i a) := by
  intro j k hj hk hkey
  by_cases hji : j = i
  · by_cases hki : k = i
    · rw [hji, hki]
    · subst hji
      rw [Function.update_self] at hj hkey
      rw [Function.update_of_ne hki] at hk hkey
      exact absurd hkey.symm (hnew hj k hki hk)
  · by_cases hki : k = i
    · subst hki
      rw [Function.update_self] at hk hkey
      rw [Function.update_of_ne hji] at hj hkey
      exact absurd hkey (hnew hk j hji hj)
    · rw [Function.update_of_ne hji] at hj hkey
      rw [Function.update_of_ne hki] at hk hkey
      exact h j k hj hk hkey

/-- The list has the live entries. -/
def Lists (table : Fin n → α) (l : List α) : Prop :=
  ∀ a, a ∈ l ↔ live a ∧ ∃ i, table i = a

variable {live} {key}

theorem lists_nil {table : Fin n → α} (h : ∀ i, ¬ live (table i)) : Lists live table [] := by
  intro a
  refine ⟨fun ha => absurd ha List.not_mem_nil, ?_⟩
  rintro ⟨ha, i, rfl⟩
  exact absurd ha (h i)

theorem Lists.claim {table : Fin n → α} {l : List α} (h : Lists live table l) (i : Fin n)
    (hfree : ¬ live (table i)) {a : α} (ha : live a) :
    Lists live (Function.update table i a) (a :: l) := by
  intro b
  rw [List.mem_cons, h b]
  constructor
  · rintro (rfl | ⟨hb, j, rfl⟩)
    · exact ⟨ha, i, Function.update_self ..⟩
    · refine ⟨hb, j, Function.update_of_ne ?_ ..⟩
      rintro rfl
      exact hfree hb
  · rintro ⟨hb, j, hj⟩
    by_cases hji : j = i
    · subst hji
      rw [Function.update_self] at hj
      exact Or.inl hj.symm
    · rw [Function.update_of_ne hji] at hj
      exact Or.inr ⟨hb, j, hj⟩

end Live

/-- Change the entries that are selected, or remove them. -/
def amend (selected : α → Bool) (change : α → Option α) (l : List α) : List α :=
  l.filterMap (fun a => if selected a then change a else some a)

theorem mem_amend {selected : α → Bool} {change : α → Option α} {l : List α} {a : α} :
    a ∈ amend selected change l ↔
      (a ∈ l ∧ selected a = false) ∨ ∃ b ∈ l, selected b ∧ change b = some a := by
  unfold amend
  rw [List.mem_filterMap]
  constructor
  · rintro ⟨b, hb, hval⟩
    cases hs : selected b with
    | true =>
      rw [if_pos hs] at hval
      exact Or.inr ⟨b, hb, hs, hval⟩
    | false =>
      rw [if_neg (by simp [hs])] at hval
      cases hval
      exact Or.inl ⟨hb, hs⟩
  · rintro (⟨ha, hs⟩ | ⟨b, hb, hs, hval⟩)
    · exact ⟨a, ha, by rw [if_neg (by simp [hs])]⟩
    · exact ⟨b, hb, by rw [if_pos hs, hval]⟩

variable {live : α → Prop} {table : Fin n → α} {l : List α}

theorem Lists.change (h : Lists live table l) {selected : α → Bool} {change : α → Option α}
    (i : Fin n) (hlive : live (table i)) (hselected : selected (table i))
    (honly : ∀ j, live (table j) → selected (table j) → j = i) (a : α)
    (hchange : ∀ b, change (table i) = some b ↔ live a ∧ b = a) :
    Lists live (Function.update table i a) (amend selected change l) := by
  intro b
  rw [mem_amend]
  constructor
  · rintro (⟨hb, hs⟩ | ⟨c, hc, hs, hval⟩)
    · obtain ⟨hb, j, rfl⟩ := (h b).mp hb
      refine ⟨hb, j, Function.update_of_ne ?_ ..⟩
      rintro rfl
      exact Bool.noConfusion (hs.symm.trans hselected)
    · obtain ⟨hc, j, rfl⟩ := (h c).mp hc
      cases honly j hc hs
      obtain ⟨ha, rfl⟩ := (hchange b).mp hval
      exact ⟨ha, i, Function.update_self ..⟩
  · rintro ⟨hb, j, hj⟩
    by_cases hji : j = i
    · subst hji
      rw [Function.update_self] at hj
      subst hj
      refine Or.inr ⟨table j, (h _).mpr ⟨hlive, j, rfl⟩, hselected, (hchange a).mpr ⟨hb, rfl⟩⟩
    · rw [Function.update_of_ne hji] at hj
      subst hj
      refine Or.inl ⟨(h _).mpr ⟨hb, j, rfl⟩, Bool.eq_false_of_not_eq_true (fun hs => ?_)⟩
      exact hji (honly j hb hs)

theorem Lists.unselected (h : Lists live table l) {selected : α → Bool} {change : α → Option α}
    (hnone : ∀ j, live (table j) → selected (table j) = false) :
    Lists live table (amend selected change l) := by
  intro b
  rw [mem_amend]
  constructor
  · rintro (⟨hb, -⟩ | ⟨c, hc, hs, -⟩)
    · exact (h b).mp hb
    · obtain ⟨hc, j, rfl⟩ := (h c).mp hc
      exact Bool.noConfusion ((hnone j hc).symm.trans hs)
  · rintro ⟨hb, j, rfl⟩
    exact Or.inl ⟨(h _).mpr ⟨hb, j, rfl⟩, hnone j hb⟩

theorem Lists.idle (h : Lists live table l) (i : Fin n) (hfree : ¬ live (table i)) {a : α}
    (ha : ¬ live a) : Lists live (Function.update table i a) l := by
  intro b
  rw [h b]
  refine and_congr_right (fun hb => exists_congr (fun j => ?_))
  by_cases hji : j = i
  · subst hji
    rw [Function.update_self]
    exact ⟨fun hc => absurd (hc ▸ hb) hfree, fun hc => absurd (hc ▸ hb) ha⟩
  · rw [Function.update_of_ne hji]

theorem Lists.broken (h : Lists live table l) (key : α → κ) (hunique : Unique live key table)
    (i : Fin n) (hlive : live (table i)) {a : α} (ha : a ≠ table i) :
    ¬ Lists live (Function.update table i a) l := by
  intro hc
  obtain ⟨-, j, hj⟩ := (hc (table i)).mp ((h (table i)).mpr ⟨hlive, i, rfl⟩)
  by_cases hji : j = i
  · subst hji
    rw [Function.update_self] at hj
    exact ha hj
  · rw [Function.update_of_ne hji] at hj
    exact hji (hunique j i (hj ▸ hlive) hlive (congrArg key hj))

end Slots
