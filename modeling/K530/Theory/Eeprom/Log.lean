import K530.Platform.EepromStm32
import Mathlib.Tactic.IntervalCases

/-!
# The Write Log

A log is a list of entries, of one halfword or two, with erased halfwords after
it. What is written is encoded, and what `EEPROM_Init` makes of the halfwords is
that the entries are carried out in order: `replay_log`.

An entry of two halfwords of which only the first was programmed is an entry
too, which does nothing.

## Main definitions

* `LogEntry`: An entry.

## Theorems

* `replay_entry`: An entry is carried out.
* `replay_log`: A log is.
-/

namespace K530

namespace Stm32

/-- An entry of the log: a byte, a word that is 0 or 1, any other word, and such
    a word whose value is missing. -/
inductive LogEntry where
  | byte (address : Nat) (value : Byte)
  | short (address : Nat) (value : HalfWord)
  | long (address : Nat) (value : HalfWord)
  | torn (address : Nat)

def longHead (address : Nat) : HalfWord :=
  ((BitVec.ofNat 16 address - 0x80) >>> 1) ||| (0x8000 ||| 0x6000)

namespace LogEntry

def encode : LogEntry → List HalfWord
  | .byte address value => [(BitVec.ofNat 16 address <<< 8) ||| value.setWidth 16]
  | .short address value => [(BitVec.ofNat 16 address >>> 1) ||| (0x8000 ||| value <<< 13)]
  | .long address value => [longHead address, ~~~ value]
  | .torn address => [longHead address, emptyWord]

def Valid (c : EepromStm32) : LogEntry → Prop
  | .byte address _ => address < 0x80 ∧ address < c.density
  | .short address value => address % 2 = 0 ∧ address < c.density ∧ value ≤ 1
  | .long address value => address % 2 = 0 ∧ 0x80 ≤ address ∧ address < c.density ∧ ¬ value ≤ 1
  | .torn address => address % 2 = 0 ∧ 0x80 ≤ address ∧ address < c.density

def assignsWord (address : Nat) (value : HalfWord) (x : Nat) : Option Byte :=
  if x = address then some (value.setWidth 8)
  else if x = address + 1 then some ((value >>> 8).setWidth 8)
  else none

def assigns : LogEntry → Nat → Option Byte
  | .byte address value, x => if x = address then some value else none
  | .short address value, x => assignsWord address value x
  | .long address value, x => assignsWord address value x
  | .torn _, _ => none

end LogEntry

def logged : List LogEntry → Nat → Option Byte
  | [], _ => none
  | e :: entries, x => (logged entries x).or (e.assigns x)

theorem logged_concat (entries : List LogEntry) (e : LogEntry) (x : Nat) :
    logged (entries ++ [e]) x = (e.assigns x).or (logged entries x) := by
  induction entries with
  | nil => simp only [List.nil_append, logged, Option.none_or, Option.or_none]
  | cons e' entries ih => rw [List.cons_append, logged, ih, logged, Option.or_assoc]

/-! ### Bits -/

section Bits

variable {address : Nat}

theorem bit_of_lt {k i : Nat} (h : address < 2 ^ k) (hi : k ≤ i) (hlt : i < 16) :
    (BitVec.ofNat 16 address)[i] = false := by
  rw [← BitVec.getLsbD_eq_getElem, BitVec.getLsbD_ofNat,
    Nat.testBit_lt_two_pow (h.trans_le (Nat.pow_le_pow_right (by decide) hi)), Bool.and_false]

theorem bit_of_even (h : address % 2 = 0) : (BitVec.ofNat 16 address)[0] = false := by
  rw [← BitVec.getLsbD_eq_getElem, BitVec.getLsbD_ofNat]
  simp [h]

theorem byte_kind (h : address < 0x80) (value : Byte) :
    ((BitVec.ofNat 16 address <<< 8) ||| value.setWidth 16) &&& 0x8000 = 0 := by
  have h7 := bit_of_lt (k := 7) (i := 7) h (by decide) (by decide)
  ext i hi
  interval_cases i <;> simp [h7]

theorem byte_address (h : address < 0x80) (value : Byte) :
    ((BitVec.ofNat 16 address <<< 8) ||| value.setWidth 16) >>> 8 = BitVec.ofNat 16 address := by
  ext i hi
  have hbit : ∀ j (hj : j < 16), 7 ≤ j → (BitVec.ofNat 16 address)[j] = false :=
    fun j hj hle => bit_of_lt (k := 7) h hle hj
  interval_cases i <;> simp [hbit]

theorem byte_value (value : Byte) :
    ((BitVec.ofNat 16 address <<< 8) ||| value.setWidth 16).setWidth 8 = value := by
  ext i hi
  interval_cases i <;> simp

theorem word_address (h : address < 0x4000) (heven : address % 2 = 0) (kind : HalfWord)
    (hkind : kind &&& 0x1FFF = 0) :
    (((BitVec.ofNat 16 address >>> 1) ||| kind) &&& 0x1FFF) <<< 1 = BitVec.ofNat 16 address := by
  have hdrop : (BitVec.ofNat 16 address >>> 1 ||| kind) &&& (0x1FFF : HalfWord) =
      (BitVec.ofNat 16 address >>> 1) &&& (0x1FFF : HalfWord) :=
    BitVec.and_or_distrib_right.trans ((congrArg _ hkind).trans BitVec.or_zero)
  rw [hdrop]
  have hzero := bit_of_even heven
  have hbit : ∀ j (hj : j < 16), 14 ≤ j → (BitVec.ofNat 16 address)[j] = false :=
    fun j hj hle => bit_of_lt (k := 14) h hle hj
  ext i hi
  interval_cases i <;> simp [hbit, hzero]

theorem word_kind (h : address < 0x4000) (kind mask : HalfWord) (hmask : 0xE000 &&& mask = mask) :
    ((BitVec.ofNat 16 address >>> 1) ||| kind) &&& mask = kind &&& mask := by
  have hbit : ∀ j (hj : j < 16), 14 ≤ j → (BitVec.ofNat 16 address)[j] = false :=
    fun j hj hle => bit_of_lt (k := 14) h hle hj
  have hhigh : (BitVec.ofNat 16 address >>> 1) &&& 0xE000 = 0 := by
    ext i hi
    interval_cases i <;> simp [hbit]
  have hdrop : (BitVec.ofNat 16 address >>> 1) &&& mask = 0 := by
    rw [← hmask, ← BitVec.and_assoc, hhigh]
    exact BitVec.zero_and
  exact BitVec.and_or_distrib_right.trans ((congrArg (· ||| _) hdrop).trans BitVec.zero_or)

end Bits

/-! ### Carrying out the entries -/

def LogEntry.carryOut (e : LogEntry) (dataBuf : Nat → Byte) : Nat → Byte :=
  fun x => (e.assigns x).getD (dataBuf x)

theorem setWord_eq (dataBuf : Nat → Byte) (address : Nat) (value : HalfWord) :
    setWord dataBuf address value =
      fun x => (LogEntry.assignsWord address value x).getD (dataBuf x) := by
  funext x
  unfold setWord LogEntry.assignsWord
  by_cases hhigh : x = address + 1
  · rw [hhigh, Function.update_self, if_neg (by omega), if_pos rfl, Option.getD_some]
  · rw [Function.update_of_ne hhigh]
    by_cases hlow : x = address
    · rw [hlow, Function.update_self, if_pos rfl, Option.getD_some]
    · rw [Function.update_of_ne hlow, if_neg hlow, if_neg hhigh, Option.getD_none]

section Replay

variable (c : EepromStm32)

theorem replayWord_eq {address : Nat} (h : address < c.density) (value : HalfWord)
    (dataBuf : Nat → Byte) :
    c.replayWord (BitVec.ofNat 16 address) value dataBuf =
      fun x => (LogEntry.assignsWord address value x).getD (dataBuf x) := by
  have hsmall := c.small
  have hnat : (BitVec.ofNat 16 address).toNat = address := by
    rw [BitVec.toNat_ofNat, Nat.mod_eq_of_lt (by omega)]
  unfold EepromStm32.replayWord
  rw [hnat, if_pos h, setWord_eq]

theorem longHead_eq {address : Nat} (hlow : 0x80 ≤ address) :
    longHead address = (BitVec.ofNat 16 (address - 0x80) >>> 1) ||| (0x8000 ||| 0x6000) := by
  have heighty : (0x80 : HalfWord).toNat = 0x80 := rfl
  have hless : BitVec.ofNat 16 address - 0x80 = BitVec.ofNat 16 (address - 0x80) := by
    apply BitVec.eq_of_toNat_eq
    rw [BitVec.toNat_sub, BitVec.toNat_ofNat, BitVec.toNat_ofNat, heighty]
    omega
  unfold longHead
  rw [hless]

theorem longHead_kind {address : Nat} (hlow : 0x80 ≤ address) (h : address < c.density)
    (mask : HalfWord) (hmask : 0xE000 &&& mask = mask) :
    longHead address &&& mask = (0x8000 ||| 0x6000) &&& mask := by
  have hsmall := c.small
  rw [longHead_eq hlow]
  exact word_kind (by omega) _ mask hmask

theorem longHead_address {address : Nat} (heven : address % 2 = 0) (hlow : 0x80 ≤ address)
    (h : address < c.density) :
    (longHead address &&& 0x1FFF) <<< 1 = BitVec.ofNat 16 (address - 0x80) := by
  have hsmall := c.small
  rw [longHead_eq hlow]
  exact word_address (by omega) (by omega) _ (by decide)

theorem longHead_ne {address : Nat} (heven : address % 2 = 0) (hlow : 0x80 ≤ address)
    (h : address < c.density) : longHead address ≠ emptyWord := by
  have hsmall := c.small
  intro hc
  have haddress := longHead_address c heven hlow h
  rw [hc] at haddress
  have hnat := congrArg BitVec.toNat haddress
  rw [BitVec.toNat_ofNat, Nat.mod_eq_of_lt (by omega)] at hnat
  have hval : (((emptyWord &&& 0x1FFF) <<< 1 : HalfWord)).toNat = 0x3FFE := by decide
  omega

theorem replay_longHead {address : Nat} (heven : address % 2 = 0) (hlow : 0x80 ≤ address)
    (h : address < c.density) (value : HalfWord) (rest : List HalfWord) (slot : Nat)
    (dataBuf : Nat → Byte) :
    c.replay (longHead address :: value :: rest) slot dataBuf =
      if ~~~ value = 0 then c.replay rest (slot + 2) dataBuf
      else c.replay rest (slot + 2)
        (c.replayWord (BitVec.ofNat 16 address) (~~~ value) dataBuf) := by
  have hsmall := c.small
  have heighty : (0x80 : HalfWord).toNat = 0x80 := rfl
  have hback : BitVec.ofNat 16 (address - 0x80) + 0x80 = BitVec.ofNat 16 address := by
    apply BitVec.eq_of_toNat_eq
    rw [BitVec.toNat_add, BitVec.toNat_ofNat, BitVec.toNat_ofNat, heighty]
    omega
  rw [EepromStm32.replay, if_neg (longHead_ne c heven hlow h),
    longHead_kind c hlow h 0x8000 (by decide), if_neg (by decide),
    longHead_kind c hlow h 0x6000 (by decide), if_pos (by decide),
    longHead_address c heven hlow h, hback]

theorem replay_entry (e : LogEntry) (h : e.Valid c) (rest : List HalfWord) (slot : Nat)
    (dataBuf : Nat → Byte) :
    c.replay (e.encode ++ rest) slot dataBuf =
      c.replay rest (slot + e.encode.length) (e.carryOut dataBuf) := by
  have hsmall := c.small
  cases e with
  | byte address value =>
    have hkind := byte_kind h.1 value
    -- an empty halfword would begin with ones
    have hempty : (BitVec.ofNat 16 address <<< 8) ||| value.setWidth 16 ≠ emptyWord := by
      intro hc
      rw [hc] at hkind
      exact absurd hkind (by decide)
    have hnat : (BitVec.ofNat 16 address).toNat = address := by
      rw [BitVec.toNat_ofNat, Nat.mod_eq_of_lt (by have := h.1; omega)]
    rw [LogEntry.encode, List.singleton_append, EepromStm32.replay.eq_def]
    dsimp only
    rw [if_neg hempty, if_pos hkind, byte_address h.1, byte_value, hnat]
    congr 1
    funext x
    unfold LogEntry.carryOut LogEntry.assigns
    dsimp only
    rw [Function.update_apply]
    split <;> rfl
  | short address value =>
    rcases h with ⟨heven, hlt, hvalue⟩
    have hbit : value = 0 ∨ value = 1 := by
      have : value.toNat ≤ 1 := hvalue
      bv_omega
    -- the one bit is put above the address, which leaves it room
    have hshort : address < 0x4000 := by omega
    have hkind := word_kind hshort (0x8000 ||| value <<< 13)
    have haddress := word_address hshort heven (0x8000 ||| value <<< 13)
      (by rcases hbit with rfl | rfl <;> decide)
    have hempty : (BitVec.ofNat 16 address >>> 1) ||| (0x8000 ||| value <<< 13) ≠ emptyWord := by
      intro hc
      have h4000 := hkind 0x4000 (by decide)
      rw [hc] at h4000
      rcases hbit with rfl | rfl <;> exact absurd h4000 (by decide)
    rw [LogEntry.encode, List.singleton_append, EepromStm32.replay.eq_def]
    dsimp only
    rw [if_neg hempty, hkind 0x8000 (by decide), hkind 0x6000 (by decide),
      hkind 0x4000 (by decide), hkind 0x2000 (by decide), haddress, replayWord_eq c hlt]
    rcases hbit with rfl | rfl
    · rw [if_neg (by decide), if_neg (by decide), if_neg (by decide)]
      rfl
    · rw [if_neg (by decide), if_neg (by decide), if_neg (by decide)]
      rfl
  | long address value =>
    rcases h with ⟨heven, hlow, hlt, hvalue⟩
    -- the second halfword is the complement, and never the empty one
    have hnot : ~~~ (~~~ value) = value := BitVec.not_not
    rw [LogEntry.encode, List.cons_append, List.singleton_append,
      replay_longHead c heven hlow hlt, hnot, if_neg, replayWord_eq c hlt]
    · rfl
    · rintro rfl
      exact hvalue (by decide)
  | torn address =>
    rcases h with ⟨heven, hlow, hlt⟩
    rw [LogEntry.encode, List.cons_append, List.singleton_append,
      replay_longHead c heven hlow hlt, if_pos (by decide)]
    rfl

theorem encode_kind (e : LogEntry) (h : e.Valid c) :
    ∃ head rest, e.encode = head :: rest ∧
      ((∃ address value, e = .byte address value ∧ (head >>> 8).toNat = address ∧
        head.setWidth 8 = value ∧ head &&& 0x8000 = 0) ∨ head &&& 0x8000 ≠ 0) := by
  have hsmall := c.small
  cases e with
  | byte address value =>
    refine ⟨_, [], rfl, Or.inl ⟨address, value, rfl, ?_, byte_value value, byte_kind h.1 value⟩⟩
    rw [byte_address h.1, BitVec.toNat_ofNat, Nat.mod_eq_of_lt (by have := h.1; omega)]
  | short address value =>
    refine ⟨_, [], rfl, Or.inr ?_⟩
    rw [word_kind (by have := h.2.1; omega) _ 0x8000 (by decide)]
    have hvalue : value.toNat ≤ 1 := h.2.2
    have hbit : value = 0 ∨ value = 1 := by bv_omega
    rcases hbit with rfl | rfl <;> decide
  | long address value =>
    refine ⟨_, _, rfl, Or.inr ?_⟩
    rw [longHead_kind c h.2.1 h.2.2.1 0x8000 (by decide)]
    decide
  | torn address =>
    refine ⟨_, _, rfl, Or.inr ?_⟩
    rw [longHead_kind c h.2.1 h.2.2 0x8000 (by decide)]
    decide

theorem replay_log (entries : List LogEntry) (h : ∀ e ∈ entries, e.Valid c) (free : Nat) :
    ∀ slot dataBuf,
      c.replay (entries.flatMap LogEntry.encode ++ List.replicate free emptyWord) slot dataBuf =
        (fun x => (logged entries x).getD (dataBuf x),
          slot + (entries.flatMap LogEntry.encode).length) := by
  induction entries with
  | nil =>
    intro slot dataBuf
    cases free with
    | zero => rfl
    | succ free =>
      rw [List.replicate_succ, List.flatMap_nil, List.nil_append, EepromStm32.replay.eq_def]
      dsimp only
      rw [if_pos rfl]
      rfl
  | cons e entries ih =>
    intro slot dataBuf
    rw [List.flatMap_cons, List.append_assoc, replay_entry c e (h e List.mem_cons_self),
      ih (fun e' he' => h e' (List.mem_cons_of_mem e he')), List.length_append, Nat.add_assoc]
    congr 1
    funext x
    unfold LogEntry.carryOut
    rw [logged]
    cases logged entries x <;> rfl

end Replay

end Stm32

end K530
