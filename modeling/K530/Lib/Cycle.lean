import Mathlib.Data.BitVec
import Mathlib.Data.Nat.Periodic
import Mathlib.Tactic.Common

/-!
# What Goes Round

Something that goes round is observed for ever, and what is seen repeats. A
window as long as the round shows the same things however it is placed, only in
another order: what is counted in it is what is counted in the round.

## Theorems

* `countP_window`: What a window as long as the round counts.
* `card_eq_one`: A number the round meets in one place.
* `ofNat_sub_ofNat`: The difference of two times, the later one first.
* `toInt_sub_of_lt_half`: A time less than half a turn ahead.
-/

namespace Cycle

open Finset

universe u

variable {α : Type u}

theorem countP_range' (q : Nat → Prop) [DecidablePred q] (k n : Nat) :
    (List.range' k n).countP (fun i => decide (q i)) = #{i ∈ Ico k (k + n) | q i} := by
  induction n generalizing k with
  | zero => simp
  | succ n ih =>
    -- The first of the range comes on its own, the rest is one shorter.
    have hsplit : Ico k (k + (n + 1)) = insert k (Ico (k + 1) (k + 1 + n)) := by
      ext i
      simp only [mem_Ico, mem_insert]
      omega
    have hnot : k ∉ ({i ∈ Ico (k + 1) (k + 1 + n) | q i} : Finset Nat) := by simp
    rw [List.range'_succ, List.countP_cons, ih, hsplit, filter_insert]
    by_cases h : q k
    · rw [if_pos h, card_insert_of_notMem hnot]
      simp [h]
    · simp [h]

theorem countP_window (n d : Nat) (q : Nat → Prop) [DecidablePred q]
    (hq : Function.Periodic q n) (p : α → Bool) (l : List α)
    (hl : ∀ i (h : i < l.length), p l[i] ↔ q (i + d)) (k : Nat)
    (hk : k + n ≤ l.length) :
    ((l.drop k).take n).countP p = #{i ∈ range n | q i} := by
  -- The window shows what a stretch of the cycle has, place by place.
  have hmap : ((l.drop k).take n).map p = (List.range' (k + d) n).map (fun i => decide (q i)) := by
    refine List.ext_getElem ?_ (fun i h₁ h₂ => ?_)
    · simp only [List.length_map, List.length_take, List.length_drop, List.length_range']
      omega
    · simp only [List.length_map, List.length_range'] at h₂
      have hi := hl (k + i) (by omega)
      simp only [List.getElem_map, List.getElem_take, List.getElem_drop, List.getElem_range',
        Nat.one_mul]
      rw [Bool.eq_iff_iff, hi, decide_eq_true_iff, show k + d + i = k + i + d by omega]
  calc ((l.drop k).take n).countP p
      = (((l.drop k).take n).map p).countP id := by rw [List.countP_map, Function.id_comp]
    _ = (List.range' (k + d) n).countP (fun i => decide (q i)) := by
        rw [hmap, List.countP_map, Function.id_comp]
    _ = #{i ∈ Ico (k + d) (k + d + n) | q i} := countP_range' q (k + d) n
    _ = n.count q := Nat.filter_Ico_card_eq_of_periodic (k + d) n q hq
    _ = #{i ∈ range n | q i} := Nat.count_eq_card_filter_range q n

theorem card_eq_one (n m : Nat) (q : Nat → Prop) [DecidablePred q] (hm : m < n)
    (h : ∀ i < n, q i ↔ i = m) : #{i ∈ range n | q i} = 1 := by
  rw [Finset.card_eq_one]
  refine ⟨m, ?_⟩
  ext i
  simp only [mem_filter, mem_range, mem_singleton]
  constructor
  · intro hi
    exact (h i hi.1).mp hi.2
  · intro hi
    subst hi
    exact ⟨hm, (h i hm).mpr rfl⟩

end Cycle

/-!
### Times That Wrap

A clock of `w` bits counts modulo `2 ^ w`, and two of its times are compared by the sign of
their difference. That is right as long as they are less than half a turn apart. A time that
is half a turn ahead, or more, looks like one that has passed.
-/

namespace WrappedTime

variable {w : Nat}

theorem ofNat_sub_ofNat {earlier later : Nat} (h : earlier ≤ later) :
    BitVec.ofNat w later - BitVec.ofNat w earlier = BitVec.ofNat w (later - earlier) := by
  have hsum : BitVec.ofNat w later = BitVec.ofNat w (later - earlier) + BitVec.ofNat w earlier := by
    rw [← BitVec.ofNat_add, Nat.sub_add_cancel h]
  rw [hsum, add_sub_cancel_right]

theorem toInt_sub_of_lt_half {earlier later : Nat} (h : earlier ≤ later)
    (hhalf : 2 * (later - earlier) < 2 ^ w) :
    (BitVec.ofNat w later - BitVec.ofNat w earlier).toInt = later - earlier := by
  rw [ofNat_sub_ofNat h]
  have hnat : (BitVec.ofNat w (later - earlier)).toNat = later - earlier := by
    rw [BitVec.toNat_ofNat]
    exact Nat.mod_eq_of_lt (by omega)
  rw [BitVec.toInt_eq_toNat_of_lt (by omega), hnat]
  omega

end WrappedTime
