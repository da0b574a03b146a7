import Mathlib.Data.BitVec
import Mathlib.Logic.Function.Basic
import Mathlib.Tactic.Common

/-!
# Masks and Bits in Words

A bit vector is a set of bits, as registers of modifiers are. `Within` is its order.

## Main definitions

* `Within`: All bits of a mask are in another.
* `bit`: A word with one bit.
* `has`: A bit is there.
* `put`, `take`: One bit is set, or reset.

## Theorems

* `within_iff`: Bit by bit.
* `Within.trans`: It is transitive.
* `Within.or_right`, `Within.or`, `Within.andNot`, `Within.andNot_both`: How the operations on
  registers keep a mask within another.
* `or_bit_getLsbD`, `andNot_bit_getLsbD`, `and_bit_bne_zero`: One bit is set, reset, and tested.
* `has_put`, `has_take`: What is there after that.
-/

namespace Mask

variable {w : Nat} {a b c : BitVec w}

/-- All bits of a mask are in another. -/
def Within (a b : BitVec w) : Prop := a &&& ~~~b = 0

instance (a b : BitVec w) : Decidable (Within a b) := inferInstanceAs (Decidable (_ = _))

theorem within_iff : Within a b ↔ ∀ i, a.getLsbD i → b.getLsbD i := by
  unfold Within
  constructor
  · intro h i hi
    have hbit := congrArg (fun v => v.getLsbD i) h
    simp only [BitVec.getLsbD_and, BitVec.getLsbD_not, hi, Bool.true_and] at hbit
    simpa [BitVec.lt_of_getLsbD hi] using hbit
  · intro h
    apply BitVec.eq_of_getLsbD_eq
    intro i hi
    cases ha : a.getLsbD i with
    | true => simp [ha, h i ha]
    | false => simp [ha]

theorem within_zero (b : BitVec w) : Within 0 b := by
  rw [within_iff]
  intro i hi
  simp at hi

theorem Within.trans (hab : Within a b) (hbc : Within b c) : Within a c := by
  rw [within_iff] at *
  exact fun i hi => hbc i (hab i hi)

theorem Within.or_right (h : Within a b) (c : BitVec w) : Within a (b ||| c) := by
  rw [within_iff] at *
  intro i hi
  rw [BitVec.getLsbD_or, h i hi, Bool.true_or]

theorem Within.or (h : Within a b) (c : BitVec w) : Within (a ||| c) (b ||| c) := by
  rw [within_iff] at *
  intro i hi
  rw [BitVec.getLsbD_or, Bool.or_eq_true] at hi ⊢
  exact hi.imp_left (h i)

theorem Within.andNot (h : Within a b) (hc : a &&& c = 0) : Within a (b &&& ~~~c) := by
  rw [within_iff] at *
  intro i hi
  have hbit := congrArg (fun v => v.getLsbD i) hc
  simp only [BitVec.getLsbD_and, hi, Bool.true_and] at hbit
  rw [BitVec.getLsbD_and, BitVec.getLsbD_not, h i hi, hbit]
  simp [BitVec.lt_of_getLsbD hi]

theorem Within.andNot_both (h : Within a b) (c : BitVec w) :
    Within (a &&& ~~~c) (b &&& ~~~c) := by
  rw [within_iff] at *
  intro i hi
  rw [BitVec.getLsbD_and, Bool.and_eq_true] at hi ⊢
  exact ⟨h i hi.1, hi.2⟩

theorem andNot_and_self (a b : BitVec w) : (a &&& ~~~b) &&& b = 0 := by
  ext i hi
  simp

end Mask

/-!
### Bits in Words

A set of numbers that is kept as bits, in words of some width. A number is told by its word
and its bit. It is put in and taken out by masking one word, and looked for in the same way.
-/

namespace BitWords

variable {m w : Nat}

/-- A word with one bit. -/
def bit (w b : Nat) : BitVec w := 1#w <<< b

/-- A bit is there. -/
def has (words : Fin m → BitVec w) (i : Fin m) (b : Nat) : Bool :=
  words i &&& bit w b == bit w b

/-- A bit is set. -/
def put (i : Fin m) (b : Nat) (words : Fin m → BitVec w) : Fin m → BitVec w :=
  Function.update words i (words i ||| bit w b)

/-- A bit is reset. -/
def take (i : Fin m) (b : Nat) (words : Fin m → BitVec w) : Fin m → BitVec w :=
  Function.update words i (words i &&& ~~~bit w b)

theorem bit_getLsbD (b k : Nat) (h : b < w) : (bit w b).getLsbD k = decide (b = k) := by
  have htwo : (bit w b).getLsbD k = (decide (b < w) && decide (b = k)) :=
    BitVec.getLsbD_twoPow b k
  rw [htwo, decide_eq_true h, Bool.true_and]

theorem or_bit_getLsbD (v : BitVec w) (b k : Nat) (h : b < w) :
    (v ||| bit w b).getLsbD k = (v.getLsbD k || decide (b = k)) := by
  rw [BitVec.getLsbD_or, bit_getLsbD b k h]

theorem andNot_bit_getLsbD (v : BitVec w) (b k : Nat) (h : b < w) :
    (v &&& ~~~bit w b).getLsbD k = (v.getLsbD k && !decide (b = k)) := by
  rw [BitVec.getLsbD_and, BitVec.getLsbD_not, bit_getLsbD b k h]
  by_cases hk : k < w
  · rw [decide_eq_true hk, Bool.true_and]
  · rw [BitVec.getLsbD_of_ge v k (Nat.le_of_not_lt hk), Bool.false_and, Bool.false_and]

theorem and_bit_bne_zero (v : BitVec w) (b : Nat) (h : b < w) :
    (v &&& bit w b != 0) = v.getLsbD b := by
  cases hv : v.getLsbD b with
  | true =>
    rw [bne_iff_ne]
    intro hzero
    have hclear : (v &&& bit w b).getLsbD b = false := by
      rw [hzero]
      exact BitVec.getLsbD_zero
    rw [BitVec.getLsbD_and, hv, bit_getLsbD b b h, decide_eq_true rfl] at hclear
    cases hclear
  | false =>
    rw [bne_eq_false_iff_eq]
    apply BitVec.eq_of_getLsbD_eq
    intro k _
    have hclear : (0 : BitVec w).getLsbD k = false := BitVec.getLsbD_zero
    rw [BitVec.getLsbD_and, bit_getLsbD b k h, hclear]
    by_cases hk : b = k
    · rw [← hk, hv, Bool.false_and]
    · rw [decide_eq_false hk, Bool.and_false]

theorem has_eq (words : Fin m → BitVec w) (i : Fin m) (b : Nat) (h : b < w) :
    has words i b = (words i).getLsbD b := by
  unfold has
  cases hbit : (words i).getLsbD b with
  | true =>
    rw [beq_iff_eq]
    apply BitVec.eq_of_getLsbD_eq
    intro k _
    rw [BitVec.getLsbD_and, bit_getLsbD b k h]
    by_cases hk : b = k
    · rw [← hk, hbit, Bool.true_and]
    · rw [decide_eq_false hk, Bool.and_false]
  | false =>
    refine beq_false_of_ne (fun hc => ?_)
    have hthere := congrArg (fun v => v.getLsbD b) hc
    rw [BitVec.getLsbD_and, hbit, bit_getLsbD b b h, Bool.false_and, decide_eq_true rfl] at hthere
    exact Bool.false_ne_true hthere

theorem has_put (words : Fin m → BitVec w) (i j : Fin m) (b k : Nat) (hb : b < w) (hk : k < w) :
    has (put i b words) j k = (decide (i = j ∧ b = k) || has words j k) := by
  rw [has_eq _ _ _ hk, has_eq _ _ _ hk]
  unfold put
  by_cases hij : j = i
  · subst hij
    rw [Function.update_self, or_bit_getLsbD _ b k hb, Bool.or_comm]
    simp
  · rw [Function.update_of_ne hij, decide_eq_false (fun hc => hij hc.1.symm), Bool.false_or]

theorem has_take (words : Fin m → BitVec w) (i j : Fin m) (b k : Nat) (hb : b < w) (hk : k < w) :
    has (take i b words) j k = (!decide (i = j ∧ b = k) && has words j k) := by
  rw [has_eq _ _ _ hk, has_eq _ _ _ hk]
  unfold take
  by_cases hij : j = i
  · subst hij
    rw [Function.update_self, andNot_bit_getLsbD _ b k hb, Bool.and_comm]
    simp
  · rw [Function.update_of_ne hij, decide_eq_false (fun hc => hij hc.1.symm), Bool.not_false,
      Bool.true_and]

end BitWords
