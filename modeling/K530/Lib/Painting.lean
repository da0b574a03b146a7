import Mathlib.Data.List.Induction
import Mathlib.Data.Vector.Basic
import Mathlib.Tactic.Common

/-!
# Painting an Array in Parts

Writes to the entries of an array, done one after the other, where a later write covers an
earlier one. What an entry is in the end depends on the writes to it alone, so writes that
have the same writes to every entry, in the same order, come to the same.

`Splits` is how a painting done at once compares with one done in two parts, a left one
and a right one. A part only writes to its own side, and every entry gets the same writes.
Paintings that split may be laid over one another, though the order of the writes is then
no longer the same.

## Main definitions

* `Write`: A value for an entry.
* `apply`: The array after some writes.
* `Splits`: A painting is the same done in two parts.

## Theorems

* `apply_congr`: The writes to each entry decide.
* `Splits.append`: One painting over another.
* `Splits.single`, `Splits.flatMap`, `Splits.concat`: What splits.
* `Splits.apply`: The two parts leave what the whole leaves.
-/

namespace Painting

universe u v

variable {α : Type u} {n : Nat}

/-- A value for an entry. -/
structure Write (α : Type u) where
  index : Nat
  value : α
  deriving DecidableEq

/-- The writes to an entry. -/
def writesTo (i : Nat) (writes : List (Write α)) : List (Write α) :=
  writes.filter (fun w => w.index == i)

/-- The array after some writes. -/
def apply (writes : List (Write α)) (v : Vector α n) : Vector α n :=
  writes.foldl (fun v w => v.setIfInBounds w.index w.value) v

theorem apply_append (ws ws' : List (Write α)) (v : Vector α n) :
    apply (ws ++ ws') v = apply ws' (apply ws v) :=
  List.foldl_append

theorem apply_getElem (ws : List (Write α)) (v : Vector α n) (i : Nat) (hi : i < n) :
    (apply ws v)[i] = ((writesTo i ws).getLast?.map Write.value).getD v[i] := by
  induction ws using List.reverseRecOn with
  | nil => rfl
  | append_singleton ws w ih =>
    have hlast : apply (ws ++ [w]) v = (apply ws v).setIfInBounds w.index w.value :=
      apply_append ws [w] v
    have hat : writesTo i (ws ++ [w]) = writesTo i ws ++ if w.index = i then [w] else [] := by
      unfold writesTo
      rw [List.filter_append, List.filter_cons, List.filter_nil]
      simp only [beq_iff_eq]
    rw [getElem_congr_coll hlast, Vector.getElem_setIfInBounds, hat]
    by_cases hw : w.index = i
    · rw [if_pos hw, if_pos hw, List.getLast?_concat]
      rfl
    · rw [if_neg hw, if_neg hw, List.append_nil, ih]

theorem apply_congr (ws ws' : List (Write α)) (h : ∀ i, writesTo i ws = writesTo i ws')
    (v : Vector α n) : apply ws v = apply ws' v := by
  ext i hi
  rw [apply_getElem, apply_getElem, h]

/-! ### Two parts -/

/-- The writes go to entries from `a` on and below `b`. -/
def Within (a b : Nat) (ws : List (Write α)) : Prop :=
  ∀ w ∈ ws, a ≤ w.index ∧ w.index < b

theorem Within.writesTo_eq_nil {a b i : Nat} {ws : List (Write α)} (h : Within a b ws)
    (hi : i < a ∨ b ≤ i) : writesTo i ws = [] := by
  refine List.filter_eq_nil_iff.mpr (fun w hw hwi => ?_)
  rw [beq_iff_eq] at hwi
  have := h w hw
  omega

/-- A painting from `a` to `c` is the same done from `a` to `b` and from `b` to `c`. -/
structure Splits (a b c : Nat) (whole left right : List (Write α)) : Prop where
  left_within : Within a b left
  right_within : Within b c right
  same : ∀ i, writesTo i whole = writesTo i left ++ writesTo i right

namespace Splits

variable {a b c : Nat}

theorem nil : Splits (α := α) a b c [] [] [] :=
  ⟨fun _ hw => absurd hw List.not_mem_nil, fun _ hw => absurd hw List.not_mem_nil, fun _ => rfl⟩

theorem concat {left right : List (Write α)} (hleft : Within a b left)
    (hright : Within b c right) : Splits a b c (left ++ right) left right :=
  ⟨hleft, hright, fun _ => List.filter_append ..⟩

theorem append {whole left right whole' left' right' : List (Write α)}
    (h : Splits a b c whole left right) (h' : Splits a b c whole' left' right') :
    Splits a b c (whole ++ whole') (left ++ left') (right ++ right') := by
  refine ⟨fun w hw => ?_, fun w hw => ?_, fun i => ?_⟩
  · rcases List.mem_append.mp hw with hw | hw
    · exact h.left_within w hw
    · exact h'.left_within w hw
  · rcases List.mem_append.mp hw with hw | hw
    · exact h.right_within w hw
    · exact h'.right_within w hw
  · have hwhole : writesTo i (whole ++ whole') =
        (writesTo i left ++ writesTo i right) ++ (writesTo i left' ++ writesTo i right') := by
      rw [← h.same, ← h'.same]
      exact List.filter_append ..
    have hparts : writesTo i (left ++ left') ++ writesTo i (right ++ right') =
        (writesTo i left ++ writesTo i left') ++ (writesTo i right ++ writesTo i right') :=
      congrArg₂ (· ++ ·) (List.filter_append ..) (List.filter_append ..)
    rw [hwhole, hparts]
    by_cases hi : i < b
    · rw [h.right_within.writesTo_eq_nil (Or.inl hi), h'.right_within.writesTo_eq_nil (Or.inl hi)]
      simp only [List.append_nil]
    · rw [h'.left_within.writesTo_eq_nil (Or.inr (Nat.not_lt.mp hi)),
        h.left_within.writesTo_eq_nil (Or.inr (Nat.not_lt.mp hi))]
      simp only [List.append_nil, List.nil_append]

theorem single (hab : a ≤ b) (hbc : b ≤ c) (i : Nat) (ws : List (Write α))
    (hws : ∀ w ∈ ws, w.index = i) :
    Splits a b c (if i < a ∨ i ≥ c then [] else ws) (if i < a ∨ i ≥ b then [] else ws)
      (if i < b ∨ i ≥ c then [] else ws) := by
  by_cases hout : i < a ∨ i ≥ c
  · rw [if_pos hout, if_pos (by omega), if_pos (by omega)]
    exact nil
  · by_cases hside : i < b
    · rw [if_neg hout, if_neg (by omega), if_pos (Or.inl hside)]
      refine ⟨fun w hw => ?_, fun _ hw => absurd hw List.not_mem_nil,
        fun _ => (List.append_nil _).symm⟩
      rw [hws w hw]
      omega
    · rw [if_neg hout, if_pos (by omega), if_neg (by omega)]
      refine ⟨fun _ hw => absurd hw List.not_mem_nil, fun w hw => ?_, fun _ => rfl⟩
      rw [hws w hw]
      omega

theorem flatMap {β : Type v} (as : List β) (whole left right : β → List (Write α))
    (h : ∀ x ∈ as, Splits a b c (whole x) (left x) (right x)) :
    Splits a b c (as.flatMap whole) (as.flatMap left) (as.flatMap right) := by
  induction as with
  | nil => exact nil
  | cons x as ih =>
    simp only [List.flatMap_cons]
    exact (h x List.mem_cons_self).append (ih (fun y hy => h y (List.mem_cons_of_mem x hy)))

theorem within {whole left right : List (Write α)} (hab : a ≤ b) (hbc : b ≤ c)
    (h : Splits a b c whole left right) : Within a c whole := by
  intro w hw
  have hmem : w ∈ writesTo w.index left ++ writesTo w.index right := by
    rw [← h.same]
    exact List.mem_filter.mpr ⟨hw, beq_self_eq_true _⟩
  rcases List.mem_append.mp hmem with hw | hw
  · have := h.left_within w (List.mem_of_mem_filter hw)
    omega
  · have := h.right_within w (List.mem_of_mem_filter hw)
    omega

theorem apply {whole left right : List (Write α)} (h : Splits a b c whole left right)
    (v : Vector α n) : Painting.apply right (Painting.apply left v) = Painting.apply whole v := by
  rw [← apply_append]
  refine apply_congr _ _ (fun i => ?_) v
  rw [h.same]
  exact List.filter_append ..

end Splits

end Painting
