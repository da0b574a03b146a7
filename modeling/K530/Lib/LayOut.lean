import K530.Lib.Ring
import Mathlib.Data.List.DropRight

/-!
# A List Laid Out in a Ring

A ring of places in which a list begins at one of them and goes on round the
ring, and all places it does not reach hold a filler. Writing a place changes the
list there, or makes it one longer, or, in a ring that is full, takes the first
away and adds one at the end.

## Main definitions

* `layOut`: The ring that holds a list from a place on.

## Theorems

* `ofNat_add`, `walk_eq`: The places from one on.
* `layOut_add`: What is in the ring.
* `layOut_set`, `layOut_concat`, `layOut_rotate`: Writing a place.
* `layOut_pad`, `layOut_rdropWhile`: Fillers at the end make no difference.
* `map_walk_layOut`: The list is what the ring holds.
* `find?_walk`: Looking for something on the way.
-/

namespace Ring

universe u

variable {α : Type u} {n : Nat} [NeZero n]

/-- The ring that holds a list from a place on. -/
def layOut (filler : α) (head : Fin n) (xs : List α) : Fin n → α :=
  fun i => xs.getD (i - head).val filler

theorem add_sub_val (head : Fin n) (j : Nat) (hj : j < n) :
    (head + Fin.ofNat n j - head).val = j := by
  rw [add_sub_cancel_left]
  exact Nat.mod_eq_of_lt hj

theorem add_ofNat_sub (head i : Fin n) : head + Fin.ofNat n (i - head).val = i := by
  have hval : Fin.ofNat n (i - head).val = i - head := by
    apply Fin.ext
    exact Nat.mod_eq_of_lt (i - head).isLt
  rw [hval, add_sub_cancel]

theorem eq_add_iff (head i : Fin n) (j : Nat) (hj : j < n) :
    i = head + Fin.ofNat n j ↔ (i - head).val = j := by
  constructor
  · rintro rfl
    exact add_sub_val head j hj
  · rintro rfl
    exact (add_ofNat_sub head i).symm

theorem ofNat_add (a b : Nat) : Fin.ofNat n (a + b) = Fin.ofNat n a + Fin.ofNat n b := by
  apply Fin.ext
  rw [Fin.val_add]
  exact Nat.add_mod a b n

theorem walk_eq (k : Nat) (head : Fin n) :
    walk k head = (List.range k).map (fun j => head + Fin.ofNat n j) := by
  induction k with
  | zero => rfl
  | succ k ih => rw [walk_concat, ih, List.range_succ, List.map_append, List.map_singleton]

variable (filler : α) (head : Fin n) (xs : List α)

theorem layOut_add (j : Nat) (hj : j < n) :
    layOut filler head xs (head + Fin.ofNat n j) = xs.getD j filler := by
  unfold layOut
  rw [add_sub_val head j hj]

theorem layOut_set (j : Nat) (a : α) (hj : j < xs.length) (hlength : xs.length ≤ n) :
    Function.update (layOut filler head xs) (head + Fin.ofNat n j) a =
      layOut filler head (xs.set j a) := by
  funext i
  -- Only one place is `j` after the head, the list being no longer than the ring.
  have hplace := eq_add_iff head i j (by omega)
  unfold layOut
  rw [Function.update_apply]
  by_cases hi : (i - head).val = j
  · rw [if_pos (hplace.mpr hi), hi, List.getD_eq_getElem?_getD, List.getElem?_set_self hj,
      Option.getD_some]
  · rw [if_neg (fun h => hi (hplace.mp h)), List.getD_eq_getElem?_getD,
      List.getD_eq_getElem?_getD, List.getElem?_set_ne (Ne.symm hi)]

theorem layOut_concat (a : α) (hlength : xs.length < n) :
    Function.update (layOut filler head xs) (head + Fin.ofNat n xs.length) a =
      layOut filler head (xs ++ [a]) := by
  funext i
  have hplace := eq_add_iff head i xs.length hlength
  unfold layOut
  rw [Function.update_apply]
  by_cases hi : (i - head).val = xs.length
  · rw [if_pos (hplace.mpr hi), hi, List.getD_append_right _ _ _ _ (Nat.le_refl _), Nat.sub_self]
    rfl
  · rw [if_neg (fun h => hi (hplace.mp h))]
    by_cases hlt : (i - head).val < xs.length
    · rw [List.getD_append _ _ _ _ hlt]
    · rw [List.getD_eq_default _ _ (by omega), List.getD_eq_default]
      rw [List.length_append, List.length_singleton]
      omega

theorem layOut_rotate (x a : α) (xs : List α) (hlength : xs.length + 1 = n) :
    Function.update (layOut filler head (x :: xs)) head a =
      layOut filler (head + 1) (xs ++ [a]) := by
  subst hlength
  funext i
  have hsub : i - (head + 1) = i - head - 1 := by rw [sub_sub]
  unfold layOut
  rw [Function.update_apply, hsub]
  by_cases hi : i = head
  · subst hi
    -- The old head is the last place of what begins after it.
    have hlast : (i - i - 1).val = xs.length := by
      rw [sub_self, zero_sub]
      exact Fin.coe_neg_one
    rw [if_pos rfl, hlast, List.getD_append_right _ _ _ _ (Nat.le_refl _), Nat.sub_self]
    rfl
  · -- Every other place is one less from the new head than from the old.
    have hne : i - head ≠ 0 := fun hc => hi (sub_eq_zero.mp hc)
    have hpos : (i - head).val ≠ 0 := fun hc => hne (Fin.ext hc)
    have hlt := (i - head).isLt
    rw [if_neg hi, Fin.val_sub_one_of_ne_zero hne, List.getD_append _ _ _ _ (by omega)]
    obtain ⟨d, hd⟩ := Nat.exists_eq_succ_of_ne_zero hpos
    rw [hd]
    rfl

omit [NeZero n] in
theorem layOut_pad (k : Nat) :
    layOut filler head (xs ++ List.replicate k filler) = layOut filler head xs := by
  funext i
  unfold layOut
  by_cases hlt : (i - head).val < xs.length
  · rw [List.getD_append _ _ _ _ hlt]
  · -- Beyond the list there is a filler, whether it is one of these or not.
    rw [List.getD_append_right _ _ _ _ (by omega), List.getD_eq_default xs _ (by omega)]
    rw [List.getD_eq_getElem?_getD, List.getElem?_replicate]
    by_cases hk : (i - head).val - xs.length < k
    · rw [if_pos hk]
      rfl
    · rw [if_neg hk]
      rfl

omit [NeZero n] in
theorem layOut_rdropWhile [DecidableEq α] (head : Fin n) (xs : List α) :
    layOut filler head (xs.rdropWhile (fun x => x == filler)) = layOut filler head xs := by
  induction xs using List.reverseRecOn with
  | nil => rfl
  | append_singleton xs a ih =>
    by_cases ha : (a == filler) = true
    · rw [List.rdropWhile_concat_pos (fun x => x == filler) xs a ha, ih, beq_iff_eq.mp ha]
      exact (layOut_pad filler head xs 1).symm
    · rw [List.rdropWhile_concat_neg (fun x => x == filler) xs a ha]

theorem map_walk_layOut (hlength : xs.length ≤ n) :
    (walk xs.length head).map (layOut filler head xs) = xs := by
  rw [walk_eq, List.map_map]
  refine List.ext_getElem (by simp) (fun j hj hj' => ?_)
  rw [List.getElem_map, List.getElem_range, Function.comp_apply,
    layOut_add filler head xs j (by omega), List.getD_eq_getElem _ _ hj']

theorem find?_walk [DecidableEq α] (head : Fin n) (xs : List α) (hlength : xs.length ≤ n) (x : α) :
    (walk xs.length head).find? (fun i => layOut filler head xs i == x) =
      if x ∈ xs then some (head + Fin.ofNat n (xs.idxOf x)) else none := by
  by_cases hx : x ∈ xs
  · rw [if_pos hx, walk_eq, List.find?_map]
    have hidx := List.idxOf_lt_length_of_mem hx
    have hfind : (List.range xs.length).find?
        ((fun i => layOut filler head xs i == x) ∘ fun j => head + Fin.ofNat n j) =
          some (xs.idxOf x) := by
      rw [List.find?_range_eq_some]
      refine ⟨?_, List.mem_range.mpr hidx, fun j hj => ?_⟩
      · rw [Function.comp_apply, layOut_add filler head xs _ (by omega),
          List.getD_eq_getElem _ _ hidx, List.getElem_idxOf, beq_self_eq_true]
      · -- No place before it holds the same.
        have hbefore := List.not_of_lt_findIdx hj
        rw [Function.comp_apply, layOut_add filler head xs _ (by omega),
          List.getD_eq_getElem _ _ (by omega)]
        simpa using hbefore
    rw [hfind]
    rfl
  · rw [if_neg hx, List.find?_eq_none]
    intro i hi heq
    rw [beq_iff_eq] at heq
    refine hx ?_
    rw [← map_walk_layOut filler head xs hlength, ← heq]
    exact List.mem_map_of_mem hi

end Ring
