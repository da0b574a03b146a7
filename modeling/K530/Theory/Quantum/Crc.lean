import K530.Lib.Crc
import K530.Split.Transactions

/-!
# Two Checksums of One Name

Both `crc8` are cyclic redundancy checks of a byte that start at `0xff`. The
table is the one of the generator `X ^ 8 + X ^ 2 + X + 1`, the loop reduces by
`X ^ 8 + X ^ 5 + X ^ 4 + 1`. So a half that looks its check values up refuses
almost everything a half without the table sends.

Which data the two agree on is a question about remainders. The generators
share the factor `X + 1`, and their least common multiple has degree fifteen;
`commonRemainder` is the register that reduces by it. The check values agree
exactly when that register ends on a byte: always for no data at all, and for
two values in two hundred and fifty-six of the last byte of any data.

For itself each of them notices every change that lies within eight bits, one behind
the other in the order in which the bits go in: the bytes in their order, and of each
the highest bit first. A byte that is another is such a change.

## Main definitions

* `commonRemainder`: The remainder by the least common multiple.

## Theorems

* `crc8_agree_iff`: The data both give the same check value.
* `crc8_agree_broken`: A zero byte is not among it.
* `crc8_detects`: Changes within eight bits are noticed.
-/

namespace K530

open Polynomial

/-- The check by the least common multiple of the two generators. -/
def commonRemainder (data : List Byte) : BitVec 15 :=
  Crc.remainder (0x6d8d : BitVec 15) 0xff data

theorem crcTable_toList : crcTable.toList =
    (List.range 256).map (fun i => (Crc.shift (0x07 : Byte))^[8] (BitVec.ofNat 8 i)) := by
  decide +kernel

theorem crcTable_get (i : Byte) :
    crcTable.get ⟨i.toNat, i.isLt⟩ &&& 0xff = (Crc.shift (0x07 : Byte))^[8] i := by
  have hget : crcTable.toList[i.toNat]? = some ((Crc.shift (0x07 : Byte))^[8] i) := by
    rw [crcTable_toList, List.getElem?_map, List.getElem?_range i.isLt, Option.map_some,
      BitVec.ofNat_toNat, BitVec.setWidth_eq]
  rw [Vector.getElem?_toList, Vector.getElem?_eq_getElem i.isLt, Option.some.injEq] at hget
  rw [← hget]
  exact BitVec.and_allOnes

theorem crc8Table_eq (data : List Byte) :
    crc8Table data = Crc.remainder (0x07 : Byte) 0xff data := by
  unfold crc8Table Crc.remainder
  refine List.foldl_ext _ _ _ (fun crc d _ => ?_)
  rw [crcTable_get]
  unfold Crc.feed
  rw [BitVec.setWidth_eq]

theorem crcShift_setWidth {extra : Nat} (crc : BitVec (8 + extra)) :
    (crcShift crc).setWidth 8 = Crc.shift 0x31 (crc.setWidth 8) := by
  have hone : ∀ i, (0x80 : BitVec (8 + extra)).getLsbD i = decide (i = 7) := by
    intro i
    rw [show (0x80 : BitVec (8 + extra)) = BitVec.twoPow (8 + extra) 7 by
      exact BitVec.eq_of_toNat_eq (by simp [BitVec.toNat_twoPow]), BitVec.getLsbD_twoPow]
    by_cases hi : i = 7
    · rw [hi]
      simp
      omega
    · simp [hi, eq_comm]
  have hbit : (crc &&& 0x80 ≠ 0) ↔ (crc.setWidth 8).msb = true := by
    rw [BitVec.msb_eq_getLsbD_last, BitVec.getLsbD_setWidth]
    constructor
    · intro h
      by_contra hc
      refine h (BitVec.eq_of_getLsbD_eq (fun i _ => ?_))
      rw [BitVec.getLsbD_and, hone]
      by_cases hi : i = 7
      · simp_all
      · simp [hi]
    · intro h hc
      have hseven := congrArg (fun x => x.getLsbD 7) hc
      simp at hseven h
      simp_all
  have hshift : (crc <<< 1).setWidth 8 = crc.setWidth 8 <<< 1 := by
    ext i hi
    simp [BitVec.getElem_shiftLeft]
  unfold crcShift Crc.shift
  by_cases h : crc &&& 0x80 ≠ 0
  · rw [if_pos h, if_pos (hbit.mp h), BitVec.setWidth_xor, hshift]
    refine congrArg _ (BitVec.eq_of_toNat_eq ?_)
    simp
  · rw [if_neg h, if_neg (fun hc => h (hbit.mpr hc)), hshift]

theorem iterate_crcShift_setWidth {extra : Nat} (n : Nat) :
    ∀ crc : BitVec (8 + extra),
      (crcShift^[n] crc).setWidth 8 = (Crc.shift 0x31)^[n] (crc.setWidth 8) := by
  induction n with
  | zero =>
    intro crc
    rfl
  | succ n ih =>
    intro crc
    rw [Function.iterate_succ_apply, Function.iterate_succ_apply, ih, crcShift_setWidth]

theorem crc8Bitwise_eq (extra : Nat) (data : List Byte) :
    crc8Bitwise extra data = Crc.remainder (0x31 : Byte) 0xff data := by
  have hfold : ∀ (crc : BitVec (8 + extra)),
      (data.foldl (fun crc d => crcShift^[8] (crc ^^^ d.setWidth (8 + extra))) crc).setWidth 8 =
        Crc.remainder 0x31 (crc.setWidth 8) data := by
    induction data with
    | nil =>
      intro crc
      rfl
    | cons d data ih =>
      intro crc
      rw [List.foldl_cons, ih, iterate_crcShift_setWidth, BitVec.setWidth_xor,
        BitVec.setWidth_setWidth_of_le d (Nat.le_add_right 8 extra)]
      rfl
  -- both begin with the lowest byte of what the register begins with
  unfold crc8Bitwise
  rw [hfold]
  refine congrArg (fun r => Crc.remainder 0x31 r data) (BitVec.eq_of_toNat_eq ?_)
  simp

theorem modulus_table : Crc.modulus (0x07 : Byte) =
    (X + 1) * (X ^ 7 + X ^ 6 + X ^ 5 + X ^ 4 + X ^ 3 + X ^ 2 + 1) := by
  unfold Crc.modulus Crc.toPoly
  have h2 := CharTwo.two_eq_zero (R := (ZMod 2)[X])
  simp [Finset.sum_range_succ]
  linear_combination (-(X ^ 7 + X ^ 6 + X ^ 5 + X ^ 4 + X ^ 3 : (ZMod 2)[X])) * h2

theorem modulus_bitwise : Crc.modulus (0x31 : Byte) =
    (X + 1) * (X ^ 7 + X ^ 6 + X ^ 5 + X ^ 3 + X ^ 2 + X + 1) := by
  unfold Crc.modulus Crc.toPoly
  have h2 := CharTwo.two_eq_zero (R := (ZMod 2)[X])
  simp [Finset.sum_range_succ]
  linear_combination (-(X ^ 7 + X ^ 6 + X ^ 3 + X ^ 2 + X : (ZMod 2)[X])) * h2

theorem modulus_common : Crc.modulus (0x6d8d : BitVec 15) =
    (X + 1) * ((X ^ 7 + X ^ 6 + X ^ 5 + X ^ 4 + X ^ 3 + X ^ 2 + 1) *
      (X ^ 7 + X ^ 6 + X ^ 5 + X ^ 3 + X ^ 2 + X + 1)) := by
  unfold Crc.modulus Crc.toPoly
  have h2 := CharTwo.two_eq_zero (R := (ZMod 2)[X])
  simp [Finset.sum_range_succ]
  linear_combination (-(X ^ 14 + 2 * X ^ 13 + 3 * X ^ 12 + 3 * X ^ 11 + 4 * X ^ 10 + 5 * X ^ 9 +
    5 * X ^ 8 + 5 * X ^ 7 + 5 * X ^ 6 + 4 * X ^ 5 + 3 * X ^ 4 + 2 * X ^ 3 + X ^ 2 +
    X : (ZMod 2)[X])) * h2

theorem cofactors_coprime :
    IsCoprime (X ^ 7 + X ^ 6 + X ^ 5 + X ^ 4 + X ^ 3 + X ^ 2 + 1 : (ZMod 2)[X])
      (X ^ 7 + X ^ 6 + X ^ 5 + X ^ 3 + X ^ 2 + X + 1) := by
  refine ⟨X ^ 3 + X ^ 2 + X + 1, X ^ 3 + X ^ 2 + X, ?_⟩
  have h2 := CharTwo.two_eq_zero (R := (ZMod 2)[X])
  linear_combination (X ^ 10 + 2 * X ^ 9 + 3 * X ^ 8 + 3 * X ^ 7 + 3 * X ^ 6 + 3 * X ^ 5 +
    3 * X ^ 4 + 3 * X ^ 3 + 2 * X ^ 2 + X : (ZMod 2)[X]) * h2

/-- The two checksums of some data agree exactly when the data leaves a byte as its
    remainder by the least common multiple of the two generators. -/
theorem crc8_agree_iff (extra : Nat) (data : List Byte) :
    crc8Table data = crc8Bitwise extra data ↔ (commonRemainder data).toNat < 2 ^ 8 := by
  rw [crc8Table_eq, crc8Bitwise_eq]
  refine Crc.remainder_eq_iff _ _ (0x6d8d : BitVec 15) le_rfl (by decide) ?_ ?_ ?_ 0xff data
  · rw [modulus_table, modulus_common]
    exact mul_dvd_mul_left _ (dvd_mul_right _ _)
  · rw [modulus_bitwise, modulus_common]
    exact mul_dvd_mul_left _ (dvd_mul_left _ _)
  · intro M htable hbitwise
    rw [modulus_table] at htable
    rw [modulus_bitwise] at hbitwise
    rw [modulus_common]
    have hfactor : (X + 1 : (ZMod 2)[X]) ≠ 0 := by
      simpa using X_add_C_ne_zero (1 : ZMod 2)
    exact Crc.dvd_of_coprime hfactor cofactors_coprime htable hbitwise

/-- A single zero byte has two check values. -/
theorem crc8_agree_broken :
    ¬ ∀ (extra : Nat) (data : List Byte), crc8Table data = crc8Bitwise extra data := by
  intro h
  exact absurd (h 0 [0]) (by decide +kernel)

/-- The bits in which two byte strings differ lie within eight consecutive ones. -/
def WithinEight (as bs : List Byte) : Prop :=
  ∃ s, ∀ k, Crc.bitAt as k ≠ Crc.bitAt bs k → s ≤ k ∧ k < s + 8

theorem crc8_ne_of_burst (build : Crc8Build) (as bs : List Byte) (hlen : as.length = bs.length)
    (hne : as ≠ bs) (hburst : WithinEight as bs) : crc8 build as ≠ crc8 build bs := by
  obtain ⟨s, hs⟩ := hburst
  cases build with
  | table =>
    change crc8Table as ≠ crc8Table bs
    rw [crc8Table_eq, crc8Table_eq]
    exact Crc.remainder_ne_of_burst 0x07 (by decide) rfl le_rfl 0xff as bs hlen hne s hs
  | bitwise extra =>
    change crc8Bitwise extra as ≠ crc8Bitwise extra bs
    rw [crc8Bitwise_eq, crc8Bitwise_eq]
    exact Crc.remainder_ne_of_burst 0x31 (by decide) rfl le_rfl 0xff as bs hlen hne s hs

theorem withinEight_set (data : List Byte) (i : Nat) (b : Byte) :
    WithinEight (data.set i b) data := by
  refine ⟨8 * i, fun k hk => ?_⟩
  by_contra hother
  have hplace : i ≠ k / 8 := by omega
  apply hk
  unfold Crc.bitAt
  rw [List.getD_eq_getElem?_getD, List.getElem?_set_ne hplace, ← List.getD_eq_getElem?_getD]

/-- Both checks notice every change within eight consecutive bits, and so every
    change of one byte. -/
theorem crc8_detects (build : Crc8Build) :
    (∀ as bs : List Byte, as.length = bs.length → as ≠ bs → WithinEight as bs →
      crc8 build as ≠ crc8 build bs) ∧
    (∀ (data : List Byte) (i : Nat) (b : Byte), data[i]? ≠ some b → i < data.length →
      crc8 build (data.set i b) ≠ crc8 build data) := by
  refine ⟨crc8_ne_of_burst build, fun data i b hb hi => ?_⟩
  refine crc8_ne_of_burst build _ data List.length_set ?_ (withinEight_set data i b)
  intro heq
  apply hb
  rw [← heq, List.getElem?_set_self hi]

/-- Four bits of one byte and four of the next. -/
theorem crc8_detects_two :
    crc8 .table [0x01, 0x2F, 0xF2] ≠ crc8 .table [0x01, 0x20, 0x02] ∧
      crc8 (.bitwise 24) ([0x01, 0x2F].set 1 0x20) ≠ crc8 (.bitwise 24) [0x01, 0x2F] := by
  refine ⟨(crc8_detects .table).1 _ _ rfl (by decide) ⟨12, fun k hk => ?_⟩,
    (crc8_detects (.bitwise 24)).2 _ 1 0x20 (by decide) (by decide)⟩
  by_contra hother
  apply hk
  rcases Nat.lt_or_ge k 24 with hin | hout
  · have hall : ∀ k < 24, ¬ (12 ≤ k ∧ k < 12 + 8) →
        Crc.bitAt ([0x01, 0x2F, 0xF2] : List Byte) k =
          Crc.bitAt ([0x01, 0x20, 0x02] : List Byte) k := by
      decide
    exact hall k hin hother
  · have hbehind : 3 ≤ k / 8 := by omega
    unfold Crc.bitAt
    rw [List.getD_eq_default _ _ hbehind, List.getD_eq_default _ _ hbehind]

end K530
