import K530.Platform.EepromSn32
import Mathlib.Tactic.IntervalCases

/-!
# The EEPROM of the SN32 Is a Byte Array

Reading the double word, changing a byte of it and programming it again leaves
the three other bytes as they were, so a write of a byte changes one byte of the
flash. A block is as many of these, at addresses cut down to sixteen bits.

A block that runs past the end of the EEPROM is written up to the end, since
what lies behind is refused. But an address from 65536 on is cut down to one
that may be inside again. So a block is written where it should be exactly when
no address of it is cut down to one inside.

## Main definitions

* `ProgramDWord.Replaces`: What the flash is taken to do.

## Theorems

* `writeDataByte_spec`: A byte is written, and nothing else.
* `eeprom_sn32_array`: Whatever is written, the flash is as an array would be.
-/

namespace K530

/-- The double word given, at the aligned address given, and nothing else. -/
def ProgramDWord.Replaces (program : ProgramDWord) : Prop :=
  ∀ a value m, a % 4 = 0 → ∀ x,
    (program a value m).1 x = if a ≤ x ∧ x < a + 4 then dwordByte value (x - a) else m x

/-! ### Double words -/

theorem getLsbD_mask (i : Nat) :
    (0xFFFFFFFC : BitVec 32).getLsbD i = decide (2 ≤ i ∧ i < 32) := by
  by_cases h : i < 32
  · have hall : ∀ j < 32, (0xFFFFFFFC : BitVec 32).getLsbD j = decide (2 ≤ j ∧ j < 32) := by decide
    exact hall i h
  · rw [BitVec.getLsbD_of_ge _ _ (Nat.not_lt.mp h)]
    exact (decide_eq_false (fun hi => h hi.2)).symm

theorem aligned_eq (addr : BitVec 32) :
    (addr &&& 0xFFFFFFFC).toNat = addr.toNat - addr.toNat % 4 := by
  -- The mask takes the two low bits away, as shifting there and back does.
  have hshift : addr &&& (0xFFFFFFFC : BitVec 32) = (addr >>> 2) <<< 2 := by
    refine BitVec.eq_of_getLsbD_eq (fun i hi => ?_)
    rw [BitVec.getLsbD_and, getLsbD_mask, BitVec.getLsbD_shiftLeft, BitVec.getLsbD_ushiftRight]
    by_cases h : i < 2
    · simp [h]
    · rw [show 2 + (i - 2) = i by omega]
      simp [h, hi, Nat.not_lt.mp h]
  have hlt := addr.isLt
  rw [hshift, BitVec.toNat_shiftLeft, BitVec.toNat_ushiftRight, Nat.shiftRight_eq_div_pow,
    Nat.shiftLeft_eq, Nat.mod_eq_of_lt (by omega)]
  omega

theorem offset_eq (addr : BitVec 32) : (addr &&& 3).toNat = addr.toNat % 4 := by
  rw [BitVec.toNat_and]
  exact Nat.and_two_pow_sub_one_eq_mod addr.toNat 2

theorem dwordByte_dwordAt (m : FlashMemory) (a k : Nat) (hk : k < 4) :
    dwordByte (dwordAt m a) k = m (a + k) := by
  refine BitVec.eq_of_getLsbD_eq (fun i hi => ?_)
  unfold dwordByte dwordAt
  rw [BitVec.getLsbD_extractLsb']
  simp only [hi, decide_true, Bool.true_and, BitVec.getLsbD_append]
  -- One case for each of the four bytes, by the two halves and their halves.
  interval_cases k
  · simp [show i < 16 by omega, hi]
  · rw [if_pos (by omega), if_neg (by omega), show 8 * 1 + i - 8 = i by omega]
  · rw [if_neg (by omega), if_pos (by omega), show 8 * 2 + i - 16 = i by omega]
  · rw [if_neg (by omega), if_neg (by omega), show 8 * 3 + i - 16 - 8 = i by omega]

theorem dwordByte_setDwordByte (value : BitVec 32) (j k : Nat) (byte : Byte) (hj : j < 4)
    (hk : k < 4) :
    dwordByte (setDwordByte value j byte) k = if k = j then byte else dwordByte value k := by
  refine BitVec.eq_of_getLsbD_eq (fun i hi => ?_)
  have hone : ∀ n < 8, (0xFF : BitVec 32).getLsbD n = true := by decide
  have hnone : ∀ n, 8 ≤ n → (0xFF : BitVec 32).getLsbD n = false := by
    intro n hn
    by_cases hn' : n < 32
    · have hall : ∀ n < 32, 8 ≤ n → (0xFF : BitVec 32).getLsbD n = false := by decide
      exact hall n hn' hn
    · exact BitVec.getLsbD_of_ge _ _ (Nat.not_lt.mp hn')
  rw [apply_ite (fun b : Byte => b.getLsbD i)]
  unfold dwordByte setDwordByte
  simp only [BitVec.getLsbD_extractLsb', BitVec.getLsbD_or, BitVec.getLsbD_and, BitVec.getLsbD_not,
    BitVec.getLsbD_shiftLeft, BitVec.getLsbD_setWidth, hi, decide_true, Bool.true_and,
    show 8 * k + i < 32 by omega]
  -- A bit below the byte that is changed, one of it, or one above it.
  by_cases hlow : 8 * k + i < 8 * j
  · rw [if_neg (by omega)]
    simp [hlow]
  · by_cases hsame : k = j
    · subst hsame
      rw [if_pos rfl, show 8 * k + i - 8 * k = i by omega, hone i hi]
      simp [show i < 32 by omega]
    · have hhigh : 8 ≤ 8 * k + i - 8 * j := by omega
      rw [if_neg hsame, hnone _ hhigh, BitVec.getLsbD_of_ge byte _ hhigh]
      simp

/-! ### A byte -/

namespace Fee

variable (fee : Fee)

/-- How many bytes there are. -/
def size : Nat := fee.pageSize * fee.densityPages

theorem base_add_size : fee.base + fee.size ≤ 65536 ∧ 0 < fee.size := by
  have hpos := Nat.mul_pos fee.pageSize_pos fee.densityPages_pos
  have hpages := Nat.mul_le_mul_right fee.pageSize fee.pages
  have hflash := fee.flash
  have hcomm := Nat.mul_comm fee.pageSize fee.totalPages
  have hdensity := Nat.mul_comm fee.pageSize fee.densityPages
  rw [Nat.succ_mul] at hpages
  unfold base size
  rw [Nat.succ_mul]
  omega

variable (program : ProgramDWord)

theorem writeDataByte_spec (h : program.Replaces) (address : BitVec 16) (dataByte : Byte)
    (m : FlashMemory) :
    (fee.writeDataByte program address dataByte m).1 =
      if address.toNat < fee.size then Function.update m (fee.base + address.toNat) dataByte
      else m := by
  have hsize := fee.base_add_size
  -- The last address is one less than there are bytes.
  have hlast : fee.densityBytes < address.toNat ↔ ¬ address.toNat < fee.size := by
    unfold densityBytes size
    unfold size at hsize
    omega
  unfold writeDataByte
  by_cases hin : address.toNat < fee.size
  · have haddr : (BitVec.ofNat 32 (fee.base + address.toNat)).toNat = fee.base + address.toNat := by
      rw [BitVec.toNat_ofNat]
      exact Nat.mod_eq_of_lt (by omega)
    rw [if_pos hin, if_neg (by rw [hlast]; exact not_not_intro hin)]
    simp only [aligned_eq, offset_eq, haddr]
    by_cases hsame : dataByte = m (fee.base + address.toNat)
    · -- Not writing it again is as good as writing it.
      rw [if_pos hsame, hsame, Function.update_eq_self]
    · rw [if_neg hsame]
      funext x
      rw [h _ _ _ (by omega), Function.update_apply]
      by_cases hword : fee.base + address.toNat - (fee.base + address.toNat) % 4 ≤ x ∧
          x < fee.base + address.toNat - (fee.base + address.toNat) % 4 + 4
      · rw [if_pos hword, dwordByte_setDwordByte _ _ _ _ (Nat.mod_lt _ (by omega)) (by omega)]
        -- The byte of the double word that is changed is the one at the address.
        by_cases hx : x = fee.base + address.toNat
        · rw [if_pos (by omega), if_pos hx]
        · rw [if_neg (by omega), if_neg hx, dwordByte_dwordAt _ _ _ (by omega)]
          exact congrArg m (by omega)
      · rw [if_neg hword, if_neg (by omega)]
  · rw [if_neg hin, if_pos (hlast.mpr hin)]

/-! ### A block -/

/-- No address of a block is cut down to one inside. -/
def Stays (addr : BitVec 32) (len : Nat) : Prop :=
  ∀ i < len, 65536 ≤ addr.toNat + i → fee.size ≤ (addr.toNat + i) % 65536

/-- What a block from a place on has for another. -/
def blockByte (place : Nat) (buf : List Byte) (x : Nat) : Option Byte :=
  if place ≤ x then buf[x - place]? else none

theorem blockByte_cons (place : Nat) (b : Byte) (buf : List Byte) (x : Nat) :
    blockByte place (b :: buf) x =
      if x = place then some b else blockByte (place + 1) buf x := by
  unfold blockByte
  rcases Nat.lt_trichotomy x place with hbefore | hat | hbehind
  · rw [if_neg (by omega), if_neg (by omega), if_neg (by omega)]
  · rw [if_pos (by omega), if_pos hat, hat, Nat.sub_self, List.getElem?_cons_zero]
  · rw [if_pos (by omega), if_neg (by omega), if_pos (by omega),
      show x - place = x - (place + 1) + 1 by omega, List.getElem?_cons_succ]

theorem next_place (place : Nat) : BitVec.ofNat 32 place + 1 = BitVec.ofNat 32 (place + 1) :=
  (BitVec.ofNat_add place 1).symm

theorem short_place (place : Nat) :
    ((BitVec.ofNat 32 place).setWidth 16).toNat = place % 65536 := by
  rw [BitVec.toNat_setWidth, BitVec.toNat_ofNat]
  omega

theorem writeBlock_append (xs ys : List Byte) :
    ∀ (place : Nat) (m : FlashMemory),
      fee.writeBlock program (BitVec.ofNat 32 place) m (xs ++ ys) =
        fee.writeBlock program (BitVec.ofNat 32 (place + xs.length))
          (fee.writeBlock program (BitVec.ofNat 32 place) m xs) ys := by
  induction xs with
  | nil => exact fun place m => rfl
  | cons x xs ih =>
    intro place m
    simp only [List.cons_append, writeBlock, next_place]
    rw [ih (place + 1), List.length_cons, Nat.add_right_comm, Nat.add_assoc]

theorem writeBlock_spec (h : program.Replaces) (buf : List Byte) :
    ∀ (place : Nat) (m : FlashMemory),
      (∀ i < buf.length, 65536 ≤ place + i → fee.size ≤ (place + i) % 65536) →
        ∀ y, fee.writeBlock program (BitVec.ofNat 32 place) m buf y =
          if fee.base ≤ y ∧ y < fee.base + fee.size then
            (blockByte place buf (y - fee.base)).getD (m y)
          else m y := by
  induction buf with
  | nil =>
    intro place m _ y
    simp [writeBlock, blockByte]
  | cons b buf ih =>
    intro place m hstays y
    have hsize := fee.base_add_size
    have hfirst := hstays 0 (Nat.zero_lt_succ _)
    rw [Nat.add_zero] at hfirst
    have hrest : ∀ i < buf.length, 65536 ≤ place + 1 + i →
        fee.size ≤ (place + 1 + i) % 65536 := by
      intro i hi hlarge
      have hnext := hstays (i + 1) (Nat.succ_lt_succ hi)
      rw [show place + (i + 1) = place + 1 + i by omega] at hnext
      exact hnext hlarge
    have hone : (if place % 65536 < fee.size then
          Function.update m (fee.base + place % 65536) b else m) y =
        if place < fee.size ∧ y = fee.base + place then b else m y := by
      -- An address that is cut down does not come to be inside.
      by_cases hin : place % 65536 < fee.size
      · have hplace : place % 65536 = place := by omega
        rw [hplace] at hin ⊢
        rw [if_pos hin, Function.update_apply]
        simp only [hin, true_and]
      · rw [if_neg hin, if_neg (by omega)]
    unfold writeBlock
    rw [next_place, ih (place + 1) _ hrest y, fee.writeDataByte_spec program h, short_place, hone,
      blockByte_cons]
    by_cases hin : fee.base ≤ y ∧ y < fee.base + fee.size
    · rw [if_pos hin, if_pos hin]
      -- The first byte of the block is not written over by the rest.
      by_cases hat : y - fee.base = place
      · have hnone : blockByte (place + 1) buf (y - fee.base) = none := if_neg (by omega)
        rw [if_pos hat, if_pos (by omega), hnone, Option.getD_none, Option.getD_some]
      · rw [if_neg hat, if_neg (by omega)]
    · rw [if_neg hin, if_neg hin, if_neg (by omega)]

theorem writeBlock_refused (h : program.Replaces) (buf : List Byte) :
    ∀ (place : Nat) (m : FlashMemory), (∀ i < buf.length, fee.size ≤ (place + i) % 65536) →
      fee.writeBlock program (BitVec.ofNat 32 place) m buf = m := by
  induction buf with
  | nil => exact fun place m _ => rfl
  | cons b buf ih =>
    intro place m hout
    have hfirst : ¬ place % 65536 < fee.size := Nat.not_lt.mpr (hout 0 (Nat.zero_lt_succ _))
    unfold writeBlock
    rw [next_place, fee.writeDataByte_spec program h, short_place, if_neg hfirst]
    refine ih (place + 1) m (fun i hi => ?_)
    have hnext := hout (i + 1) (Nat.succ_lt_succ hi)
    rwa [show place + (i + 1) = place + 1 + i by omega] at hnext

theorem writeBlock_zeros (h : program.Replaces) (n : Nat) :
    ∀ place : Nat, fee.writeBlock program (BitVec.ofNat 32 place) (fun _ => 0)
      (List.replicate n 0) = fun _ => 0 := by
  induction n with
  | zero => exact fun place => rfl
  | succ n ih =>
    intro place
    rw [List.replicate_succ]
    unfold writeBlock
    rw [next_place, fee.writeDataByte_spec program h]
    have hsame : ∀ y : Nat, Function.update (fun _ : Nat => (0 : Byte)) y 0 = fun _ => 0 :=
      fun y => Function.update_eq_self y _
    rw [hsame, ite_self]
    exact ih (place + 1)

theorem readBlock_getElem (m : FlashMemory) (len : Nat) :
    ∀ place i, i < len →
      (fee.readBlock (BitVec.ofNat 32 place) m len)[i]? =
        some (fee.readDataByte ((BitVec.ofNat 32 (place + i)).setWidth 16) m) := by
  induction len with
  | zero => exact fun place i hi => absurd hi (Nat.not_lt_zero i)
  | succ len ih =>
    intro place i hi
    unfold readBlock
    cases i with
    | zero => rfl
    | succ i =>
      rw [List.getElem?_cons_succ, next_place, ih (place + 1) i (Nat.lt_of_succ_lt_succ hi),
        show place + 1 + i = place + (i + 1) by omega]

theorem readBlock_inside (m : FlashMemory) (addr : BitVec 32) (len i : Nat) (hi : i < len)
    (hin : addr.toNat + i < fee.size) :
    (fee.readBlock addr m len)[i]? = some (m (fee.base + (addr.toNat + i))) := by
  have hsize := fee.base_add_size
  have hread := fee.readBlock_getElem m len addr.toNat i hi
  rw [BitVec.ofNat_toNat, BitVec.setWidth_eq] at hread
  rw [hread]
  unfold readDataByte
  rw [short_place, Nat.mod_eq_of_lt (by omega), if_pos]
  unfold densityBytes
  unfold size at hin
  omega

end Fee

/-! ### Runs -/

namespace Sn32Write

/-- What a write has for a byte. -/
def written (op : Sn32Write) (x : Nat) : Option Byte :=
  match op with
  | byte address dataByte => if x = address.toNat then some dataByte else none
  | block addr buf => Fee.blockByte addr.toNat buf x

/-- A write is where it should be. -/
def Stays (fee : Fee) : Sn32Write → Prop
  | byte _ _ => True
  | block addr buf => fee.Stays addr buf.length

theorem step_spec (fee : Fee) (program : ProgramDWord) (h : program.Replaces) (op : Sn32Write)
    (hstays : op.Stays fee) (m : FlashMemory) (y : Nat) :
    op.step fee program m y =
      if fee.base ≤ y ∧ y < fee.base + fee.size then (op.written (y - fee.base)).getD (m y)
      else m y := by
  cases op with
  | byte address dataByte =>
    simp only [step, written]
    rw [fee.writeDataByte_spec program h, apply_ite (fun f : FlashMemory => f y),
      Function.update_apply]
    split_ifs <;> first | rfl | omega
  | block addr buf =>
    have hblock := fee.writeBlock_spec program h buf addr.toNat m hstays y
    rwa [BitVec.ofNat_toNat, BitVec.setWidth_eq] at hblock

end Sn32Write

/-- The flash is as an array would be that has been written to: a byte inside is
    read as it was last written, and what is outside is as it was. -/
structure LikeArray (fee : Fee) (m m' : FlashMemory) (ops : List Sn32Write) : Prop where
  inside : ∀ addr len i, i < len → addr.toNat + i < fee.size →
    (fee.readBlock addr m' len)[i]? =
      some (ops.foldl (fun b op => (op.written (addr.toNat + i)).getD b)
        (m (fee.base + (addr.toNat + i))))
  outside : ∀ y, y < fee.base ∨ fee.base + fee.size ≤ y → m' y = m y

theorem run_spec (fee : Fee) (program : ProgramDWord) (h : program.Replaces)
    (ops : List Sn32Write) :
    (∀ op ∈ ops, op.Stays fee) → ∀ (m : FlashMemory) (y : Nat),
      ops.foldl (Sn32Write.step fee program) m y =
        if fee.base ≤ y ∧ y < fee.base + fee.size then
          ops.foldl (fun b op => (op.written (y - fee.base)).getD b) (m y)
        else m y := by
  induction ops with
  | nil =>
    intro _ m y
    rw [List.foldl_nil, List.foldl_nil, ite_self]
  | cons op ops ih =>
    intro hstays m y
    have hstep := op.step_spec fee program h (hstays op List.mem_cons_self) m y
    rw [List.foldl_cons, ih (fun o ho => hstays o (List.mem_cons_of_mem op ho)), hstep]
    by_cases hin : fee.base ≤ y ∧ y < fee.base + fee.size
    · simp only [if_pos hin, List.foldl_cons]
    · simp only [if_neg hin]

theorem run_likeArray (fee : Fee) (program : ProgramDWord) (h : program.Replaces)
    (ops : List Sn32Write) (hstays : ∀ op ∈ ops, op.Stays fee) (m : FlashMemory) :
    LikeArray fee m (ops.foldl (Sn32Write.step fee program) m) ops := by
  constructor
  · intro addr len i hi hin
    rw [fee.readBlock_inside _ addr len i hi hin, run_spec fee program h ops hstays,
      if_pos (by omega), Nat.add_sub_cancel_left]
  · intro y hout
    rw [run_spec fee program h ops hstays, if_neg (by omega)]

/-! ### A block that strays -/

def Fee.Strays (fee : Fee) (addr : BitVec 32) (i : Nat) : Prop :=
  65536 ≤ addr.toNat + i ∧ (addr.toNat + i) % 65536 < fee.size

instance (fee : Fee) (addr : BitVec 32) : DecidablePred (fee.Strays addr) :=
  fun _ => inferInstanceAs (Decidable (_ ∧ _))

theorem Fee.exists_last_stray (fee : Fee) (addr : BitVec 32) (len : Nat)
    (hstrays : ¬ fee.Stays addr len) :
    ∃ last < len, fee.Strays addr last ∧ ∀ j, last < j → j < len → ¬ fee.Strays addr j := by
  obtain ⟨i, hi, hstray⟩ : ∃ i < len, fee.Strays addr i := by
    by_contra hnone
    exact hstrays (fun i hi hlarge =>
      Nat.le_of_not_lt (fun hin => hnone ⟨i, hi, hlarge, hin⟩))
  -- Of the addresses that stray the last one is not written over.
  let last := Nat.findGreatest (fee.Strays addr) (len - 1)
  have hlast : fee.Strays addr last := Nat.findGreatest_spec (show i ≤ len - 1 by omega) hstray
  have hle : last ≤ len - 1 := Nat.findGreatest_le (len - 1)
  exact ⟨last, by omega, hlast, fun j hj hjl => Nat.findGreatest_is_greatest hj (by omega)⟩

def oneAt (last len : Nat) : List Byte :=
  List.replicate last 0 ++ 1 :: List.replicate (len - 1 - last) 0

theorem writeBlock_oneAt (fee : Fee) (program : ProgramDWord) (h : program.Replaces)
    (addr : BitVec 32) (last len : Nat) (hlast : fee.Strays addr last)
    (hafter : ∀ j, last < j → j < len → ¬ fee.Strays addr j) :
    fee.writeBlock program addr (fun _ => 0) (oneAt last len) =
      Function.update (fun _ => 0) (fee.base + (addr.toNat + last) % 65536) 1 := by
  have hsplit := fee.writeBlock_append program (List.replicate last 0)
    (1 :: List.replicate (len - 1 - last) 0) addr.toNat (fun _ => 0)
  have hzeros := fee.writeBlock_zeros program h last addr.toNat
  rw [BitVec.ofNat_toNat, BitVec.setWidth_eq] at hsplit hzeros
  unfold oneAt
  rw [hsplit, hzeros, List.length_replicate]
  unfold Fee.writeBlock
  rw [Fee.next_place, fee.writeDataByte_spec program h, Fee.short_place, if_pos hlast.2]
  refine fee.writeBlock_refused program h _ _ _ (fun j hj => ?_)
  rw [List.length_replicate] at hj
  have hnot := hafter (last + 1 + j) (by omega) (by omega)
  have hlarge := hlast.1
  rw [show addr.toNat + last + 1 + j = addr.toNat + (last + 1 + j) by omega]
  by_contra hin
  exact hnot ⟨by omega, Nat.not_le.mp hin⟩

theorem blockByte_oneAt (place last len target : Nat) (htarget : target < place + last) :
    Fee.blockByte place (oneAt last len) target = none ∨
      Fee.blockByte place (oneAt last len) target = some 0 := by
  unfold Fee.blockByte oneAt
  by_cases hbehind : place ≤ target
  · have hbefore : target - place < last := by omega
    rw [if_pos hbehind, List.getElem?_append_left (by rwa [List.length_replicate]),
      List.getElem?_replicate, if_pos hbefore]
    exact Or.inr rfl
  · rw [if_neg hbehind]
    exact Or.inl rfl

theorem block_strays (fee : Fee) (program : ProgramDWord) (h : program.Replaces)
    (addr : BitVec 32) (len : Nat) (hstrays : ¬ fee.Stays addr len) :
    ∃ buf m, buf.length = len ∧
      ¬ LikeArray fee m (fee.writeBlock program addr m buf) [.block addr buf] := by
  obtain ⟨last, hlt, hlast, hafter⟩ := fee.exists_last_stray addr len hstrays
  have hsize := fee.base_add_size
  have hlarge := hlast.1
  refine ⟨oneAt last len, fun _ => 0, ?_, fun hlike => ?_⟩
  · simp only [oneAt, List.length_append, List.length_replicate, List.length_cons]
    omega
  · -- The byte the one went to is read.
    let target := (addr.toNat + last) % 65536
    have htarget : (BitVec.ofNat 32 target).toNat = target := by
      rw [BitVec.toNat_ofNat]
      exact Nat.mod_eq_of_lt (by omega)
    have hinside : (BitVec.ofNat 32 target).toNat + 0 < fee.size := by
      rw [htarget]
      exact hlast.2
    -- The flash holds the one there, and the array a zero or what was before.
    have hread := hlike.inside (BitVec.ofNat 32 target) 1 0 Nat.one_pos hinside
    rw [fee.readBlock_inside _ _ 1 0 Nat.one_pos hinside,
      writeBlock_oneAt fee program h addr last len hlast hafter, htarget, Nat.add_zero,
      Function.update_self] at hread
    rcases blockByte_oneAt addr.toNat last len target (by omega) with hnone | hzero
    · simp [Sn32Write.written, hnone] at hread
    · simp [Sn32Write.written, hzero] at hread

/-- Whatever is written by writes that stay, the flash is as an array would be,
    each write leaves every byte it has nothing for, and a byte beyond the end is
    refused. A block that does not stay is not written as it should be. -/
theorem eeprom_sn32_array (fee : Fee) (program : ProgramDWord) (h : program.Replaces) :
    (∀ ops : List Sn32Write, (∀ op ∈ ops, op.Stays fee) → ∀ m,
      LikeArray fee m (ops.foldl (Sn32Write.step fee program) m) ops) ∧
    (∀ op : Sn32Write, op.Stays fee → ∀ m y,
      (∀ x < fee.size, y = fee.base + x → op.written x = none) → op.step fee program m y = m y) ∧
    (∀ address dataByte m, fee.densityBytes < address.toNat →
      fee.writeDataByte program address dataByte m = (m, .fail)) ∧
    ∀ addr len, ¬ fee.Stays addr len → ∃ buf m, buf.length = len ∧
      ¬ LikeArray fee m (fee.writeBlock program addr m buf) [.block addr buf] := by
  refine ⟨run_likeArray fee program h, fun op hstays m y hnone => ?_,
    fun address dataByte m hend => ?_, block_strays fee program h⟩
  · rw [op.step_spec fee program h hstays m y]
    by_cases hin : fee.base ≤ y ∧ y < fee.base + fee.size
    · rw [if_pos hin, hnone (y - fee.base) (by omega) (by omega), Option.getD_none]
    · rw [if_neg hin]
  · unfold Fee.writeDataByte
    rw [if_pos hend]

/-- The SN32F240B. -/
def sn32f240b : Fee :=
  { pageSize := 64, totalPages := 1024, densityPages := 23, pageSize_pos := by decide,
    densityPages_pos := by decide, pages := by decide, flash := by decide }

/-- A flash that does what it is taken to do. -/
def dwordFlash : ProgramDWord := fun a value m =>
  (fun x => if a ≤ x ∧ x < a + 4 then dwordByte value (x - a) else m x, .okay)

/-- A block written across the end of the EEPROM. -/
theorem eeprom_sn32_array_end :
    dwordFlash.Replaces ∧ LikeArray sn32f240b (fun _ => 0xFF)
      ([Sn32Write.block 1470 [1, 2, 3, 4], .byte 1471 5].foldl
        (Sn32Write.step sn32f240b dwordFlash) (fun _ => 0xFF))
      [.block 1470 [1, 2, 3, 4], .byte 1471 5] := by
  have hreplaces : dwordFlash.Replaces := fun a value m _ x => rfl
  refine ⟨hreplaces, (eeprom_sn32_array sn32f240b dwordFlash hreplaces).1 _ ?_ _⟩
  intro op hop
  simp only [List.mem_cons, List.not_mem_nil, or_false] at hop
  rcases hop with rfl | rfl
  · intro i hi hlarge
    rw [show (1470 : BitVec 32).toNat = 1470 from rfl] at hlarge
    simp only [List.length_cons, List.length_nil] at hi
    omega
  · trivial

/-- A block of two bytes at 65535: the second is written to address zero. -/
theorem eeprom_sn32_broken :
    ¬ ∀ (fee : Fee) (program : ProgramDWord), program.Replaces →
      ∀ (ops : List Sn32Write) (m : FlashMemory),
        LikeArray fee m (ops.foldl (Sn32Write.step fee program) m) ops := by
  intro h
  have hlike := h sn32f240b dwordFlash (fun a value m _ x => rfl) [.block 0xFFFF [0, 1]]
    (fun _ => 0)
  have hread := hlike.inside 0 1 0 (by decide) (by decide)
  exact absurd hread (by decide +kernel)

end K530
