import K530.Lib.Mask
import Mathlib.Data.Vector.Basic

/-!
# Bit-Sliced Tables

A table of small numbers that keeps their bits apart. Eight slots share a row,
and a row has one byte for each bit a number can have: bit `s % 8` of byte `b`
of row `s / 8` is bit `b` of the number in slot `s`.

Writing a slot touches one bit in each byte of one row. That what is written is
read back, and that no other slot is disturbed, are the two facts anyone using
such a table needs, and both come from the same observation about one bit of
one byte, `bitAt_put`.

A slot outside the table is neither read nor written.

## Main definitions

* `Table`: The table.
* `mergeBit`: One bit of a byte replaced.
* `put`, `get`: Write a slot, and read it.

## Theorems

* `get_put_self`: What is written is read back.
* `get_put_other`: Other slots are left alone.
-/

namespace BitTable

/-- Numbers of so many bits, in so many rows of eight. -/
abbrev Table (rows bits : Nat) := Vector (Vector (BitVec 8) bits) rows

variable {rows bits : Nat}

/-- The row of a slot. -/
def row (table : Table rows bits) (slot : Nat) : Vector (BitVec 8) bits :=
  table.toList.getD (slot / 8) (Vector.replicate bits 0)

/-- A byte with one of its bits made to follow `on`. -/
def mergeBit (on : Bool) (bit : Nat) (byte : BitVec 8) : BitVec 8 :=
  byte ^^^ (((if on then 0xFF else 0x00) ^^^ byte) &&& 1#8 <<< bit)

/-- Write a slot. -/
def put (slot : Nat) (value : BitVec 8) (table : Table rows bits) : Table rows bits :=
  table.setIfInBounds (slot / 8)
    ((row table slot).mapIdx (fun b byte => mergeBit (value.getLsbD b) (slot % 8) byte))

/-- A slot's bit in one byte of its row. -/
def bitAt (table : Table rows bits) (slot b : Nat) : Bool :=
  ((row table slot).toList.getD b 0).getLsbD (slot % 8)

/-- Read a slot. -/
def get (slot : Nat) (table : Table rows bits) : BitVec 8 :=
  (List.range bits).foldl
    (fun value b => value ||| (if bitAt table slot b then 1#8 else 0#8) <<< b) 0

/-! ### One bit -/

theorem one_shiftLeft_getLsbD (k i : Nat) (h : k < 8) :
    (1#8 <<< k).getLsbD i = decide (k = i) :=
  BitWords.bit_getLsbD k i h

theorem mergeBit_getLsbD (on : Bool) (bit i : Nat) (byte : BitVec 8) (h : bit < 8) (hi : i < 8) :
    (mergeBit on bit byte).getLsbD i = if bit = i then on else byte.getLsbD i := by
  have hfill : (if on then 0xFF else 0x00 : BitVec 8).getLsbD i = on := by
    cases on with
    | true => exact (BitVec.getLsbD_allOnes).trans (decide_eq_true hi)
    | false => exact BitVec.getLsbD_zero
  simp only [mergeBit, BitVec.getLsbD_xor, BitVec.getLsbD_and, one_shiftLeft_getLsbD _ _ h, hfill]
  by_cases hsame : bit = i
  · simp only [hsame, decide_true, Bool.and_true, if_true]
    cases on <;> cases byte.getLsbD i <;> rfl
  · simp only [hsame, decide_false, Bool.and_false, Bool.xor_false, if_false]

theorem row_put_near (slot other : Nat) (value : BitVec 8) (table : Table rows bits)
    (hslot : slot / 8 < rows) (h : slot / 8 = other / 8) :
    row (put slot value table) other =
      (row table other).mapIdx (fun b byte => mergeBit (value.getLsbD b) (slot % 8) byte) := by
  have hlength : slot / 8 < table.toList.length := by
    simp only [Vector.length_toList, hslot]
  unfold put
  simp only [row, ← h]
  rw [Vector.toList_setIfInBounds, List.getD_eq_getElem?_getD, List.getElem?_set_self hlength]
  rfl

theorem row_put_far (slot other : Nat) (value : BitVec 8) (table : Table rows bits)
    (h : slot / 8 ≠ other / 8) : row (put slot value table) other = row table other := by
  unfold put row
  rw [Vector.toList_setIfInBounds, List.getD_eq_getElem?_getD, List.getElem?_set_ne h,
    ← List.getD_eq_getElem?_getD]

theorem bitAt_put (slot other b : Nat) (value : BitVec 8) (table : Table rows bits)
    (hslot : slot / 8 < rows) (hb : b < bits) :
    bitAt (put slot value table) other b =
      if slot = other then value.getLsbD b else bitAt table other b := by
  have hbit : slot % 8 < 8 := Nat.mod_lt _ (by omega)
  have hbit' : other % 8 < 8 := Nat.mod_lt _ (by omega)
  unfold bitAt
  by_cases hrow : slot / 8 = other / 8
  · have hbyte : ((row (put slot value table) other).toList.getD b 0) =
        mergeBit (value.getLsbD b) (slot % 8) ((row table other).toList.getD b 0) := by
      rw [row_put_near slot other value table hslot hrow]
      simp [List.getD_eq_getElem?_getD, hb]
    rw [hbyte, mergeBit_getLsbD _ _ _ _ hbit hbit']
    -- within a row the slots differ in their bit
    by_cases hsame : slot = other
    · simp only [hsame, if_true]
    · have hne : slot % 8 ≠ other % 8 := by omega
      simp only [hsame, hne, if_false]
  · have hne : slot ≠ other := by
      intro heq
      exact hrow (by rw [heq])
    rw [row_put_far slot other value table hrow, if_neg hne]

/-! ### Whole numbers -/

theorem gather_getLsbD (f : Nat → Bool) (n : Nat) (indices : List Nat)
    (hindices : ∀ b, b ∈ indices → b < 8) :
    ∀ value : BitVec 8,
      (indices.foldl (fun value b => value ||| (if f b then 1#8 else 0#8) <<< b) value).getLsbD n =
        (value.getLsbD n || indices.any (fun b => f b && decide (b = n))) := by
  induction indices with
  | nil =>
    intro value
    simp only [List.foldl_nil, List.any_nil, Bool.or_false]
  | cons b indices ih =>
    intro value
    have hbit : ((if f b then 1#8 else 0#8) <<< b).getLsbD n = (f b && decide (b = n)) := by
      cases f b with
      | true => exact one_shiftLeft_getLsbD b n (hindices b (List.mem_cons_self ..))
      | false => simp only [Bool.false_eq_true, if_false, BitVec.zero_shiftLeft,
          BitVec.getLsbD_zero, Bool.false_and]
    have hrest := ih (fun c hc => hindices c (List.mem_cons_of_mem b hc))
    simp only [List.foldl_cons, List.any_cons, hrest, BitVec.getLsbD_or, hbit, Bool.or_assoc]

theorem get_getLsbD (slot n : Nat) (table : Table rows bits) (hbits : bits ≤ 8) :
    (get slot table).getLsbD n = (decide (n < bits) && bitAt table slot n) := by
  have hzero : (0 : BitVec 8).getLsbD n = false := BitVec.getLsbD_zero
  have hindices : ∀ b, b ∈ List.range bits → b < 8 := by
    intro b hb
    exact Nat.lt_of_lt_of_le (List.mem_range.mp hb) hbits
  unfold get
  rw [gather_getLsbD (bitAt table slot) n (List.range bits) hindices, hzero, Bool.false_or,
    Bool.eq_iff_iff]
  simp only [List.any_eq_true, List.mem_range, Bool.and_eq_true, decide_eq_true_eq]
  constructor
  · intro h
    rcases h with ⟨b, hb, hon, rfl⟩
    exact ⟨hb, hon⟩
  · intro h
    exact ⟨n, h.1, h.2, rfl⟩

theorem get_put_self (slot : Nat) (value : BitVec 8) (table : Table rows bits)
    (hbits : bits ≤ 8) (hslot : slot / 8 < rows) (hvalue : value.toNat < 2 ^ bits) :
    get slot (put slot value table) = value := by
  refine BitVec.eq_of_getLsbD_eq (fun n _ => ?_)
  rw [get_getLsbD _ _ _ hbits]
  by_cases hn : n < bits
  · simp only [hn, decide_true, Bool.true_and, bitAt_put _ _ _ _ _ hslot hn, if_true]
  · have hpow : 2 ^ bits ≤ 2 ^ n := Nat.pow_le_pow_right (by omega) (Nat.not_lt.mp hn)
    have hhigh : value.getLsbD n = false := Nat.testBit_lt_two_pow (by omega)
    simp only [hn, decide_false, Bool.false_and, hhigh]

theorem get_put_other (slot other : Nat) (value : BitVec 8) (table : Table rows bits)
    (hbits : bits ≤ 8) (hslot : slot / 8 < rows) (h : slot ≠ other) :
    get other (put slot value table) = get other table := by
  refine BitVec.eq_of_getLsbD_eq (fun n _ => ?_)
  rw [get_getLsbD _ _ _ hbits, get_getLsbD _ _ _ hbits]
  by_cases hn : n < bits
  · simp only [hn, decide_true, Bool.true_and, bitAt_put _ _ _ _ _ hslot hn, h, if_false]
  · simp only [hn, decide_false, Bool.false_and]

end BitTable
