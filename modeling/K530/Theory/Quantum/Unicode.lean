import K530.Quantum.Unicode
import Mathlib.Tactic.Ring

/-!
# Text, There and Back

A string of scalar values, encoded as UTF-8, is typed as these values: there is one
input for each, and its digits are the value, or its two surrogates. What the decoder
takes apart is what the encoder has put together, and the printer leaves out only
zeros that do not count.

A string that is not whole is another matter. The decoder goes by the first byte of
a sequence and does not look for the end of the string within it.

## Main definitions

* `digitOf`, `hexValue`: How a host reads what is typed.

## Theorems

* `unicode_round_trip`: Text is typed.
* `unicode_within_iff`: Both.
* `unicode_within_broken`: The first byte of two.
-/

namespace K530

open Memory

/-! ### Digits -/

/-- The digit a host takes a key for: of the number pad, a letter, or a character. -/
def digitOf : UnicodeCall → Option Nat
  | .tap keycode =>
    if 0x59 ≤ keycode.toNat ∧ keycode.toNat ≤ 0x61 then some (keycode.toNat - 0x58)
    else if keycode.toNat = 0x62 then some 0
    else if 0x04 ≤ keycode.toNat ∧ keycode.toNat ≤ 0x09 then some (keycode.toNat - 0x04 + 10)
    else none
  | .char asciiCode =>
    if 0x30 ≤ asciiCode.toNat ∧ asciiCode.toNat ≤ 0x39 then some (asciiCode.toNat - 0x30)
    else if 0x61 ≤ asciiCode.toNat ∧ asciiCode.toNat ≤ 0x66 then
      some (asciiCode.toNat - 0x61 + 10)
    else none
  | .start => none
  | .finish => none

/-- The number that some digits are. -/
def hexValue (digits : List Nat) : Nat := digits.foldl (fun n d => n * 16 + d) 0

theorem hexValue_foldl (digits : List Nat) :
    ∀ n, digits.foldl (fun n d => n * 16 + d) n = n * 16 ^ digits.length + hexValue digits := by
  induction digits with
  | nil =>
    intro n
    simp [hexValue]
  | cons d digits ih =>
    intro n
    unfold hexValue
    rw [List.foldl_cons, List.foldl_cons, ih, ih (0 * 16 + d), List.length_cons, Nat.pow_succ]
    ring

theorem hexValue_cons (d : Nat) (digits : List Nat) :
    hexValue (d :: digits) = d * 16 ^ digits.length + hexValue digits := by
  have h : hexValue (d :: digits) = _ := hexValue_foldl digits (0 * 16 + d)
  rwa [Nat.zero_mul, Nat.zero_add] at h

variable (mode : UnicodeMode)

theorem digitOf_sendNibbleWrapper (digit : Byte) (h : digit.toNat < 16) :
    digitOf (sendNibbleWrapper mode digit) = some digit.toNat := by
  have hall : ∀ n < 16, digitOf (sendNibbleWrapper mode (BitVec.ofNat 8 n)) = some n := by
    cases mode <;> decide
  have hdigit := hall digit.toNat h
  rwa [BitVec.ofNat_toNat, BitVec.setWidth_eq] at hdigit

theorem hexDigit_toNat {w : Nat} (hex : BitVec w) (i : Nat) :
    (hexDigit hex i).toNat = hex.toNat / 16 ^ i % 16 := by
  have hpow : (2 : Nat) ^ (i * 4) = 16 ^ i := by
    rw [Nat.mul_comm, Nat.pow_mul]
  have hmask : (0xF : Byte).toNat = 2 ^ 4 - 1 := rfl
  unfold hexDigit
  rw [BitVec.toNat_and, hmask, Nat.and_two_pow_sub_one_eq_mod, BitVec.toNat_setWidth,
    BitVec.toNat_ushiftRight, Nat.shiftRight_eq_div_pow, hpow]
  exact Nat.mod_mod_of_dvd _ (by decide)

theorem hex32From_typed (hex : BitVec 32) (i : Nat) :
    ∀ zeros, ∃ digits, (hex32From mode hex i zeros).map digitOf = digits.map some ∧
      hexValue digits = hex.toNat % 16 ^ i ∧ (zeros = false → digits.length = i) := by
  induction i with
  | zero =>
    intro zeros
    exact ⟨[], rfl, by rw [Nat.pow_zero, Nat.mod_one]; rfl, fun _ => rfl⟩
  | succ i ih =>
    intro zeros
    have hdigit := hexDigit_toNat hex i
    have hlt : (hexDigit hex i).toNat < 16 := by omega
    have hsplit : hex.toNat % 16 ^ (i + 1) =
        (hexDigit hex i).toNat * 16 ^ i + hex.toNat % 16 ^ i := by
      rw [Nat.mod_pow_succ, hdigit, Nat.mul_comm, Nat.add_comm]
    -- a digit that is typed, and those behind it
    have htyped : ∃ digits, (sendNibbleWrapper mode (hexDigit hex i) ::
        hex32From mode hex i false).map digitOf = digits.map some ∧
        hexValue digits = hex.toNat % 16 ^ (i + 1) ∧ digits.length = i + 1 := by
      obtain ⟨digits, hdigits, hvalue, hlength⟩ := ih false
      refine ⟨(hexDigit hex i).toNat :: digits, ?_, ?_, ?_⟩
      · rw [List.map_cons, List.map_cons, hdigits, digitOf_sendNibbleWrapper mode _ hlt]
      · rw [hexValue_cons, hvalue, hlength rfl, hsplit]
      · rw [List.length_cons, hlength rfl]
    obtain ⟨digits, hdigits, hvalue, hlength⟩ := htyped
    unfold hex32From
    dsimp only
    by_cases hzero : hexDigit hex i = 0
    · rw [if_pos hzero]
      by_cases hstart : (if i ≤ 3 then false else zeros) = true
      · -- a zero in front is left out
        obtain ⟨digits, hdigits, hvalue, -⟩ := ih true
        rw [hstart]
        refine ⟨digits, hdigits, ?_, ?_⟩
        · rw [hvalue, hsplit, hzero]
          simp
        · intro hfalse
          rw [hfalse] at hstart
          split at hstart <;> exact absurd hstart Bool.false_ne_true
      · rw [Bool.not_eq_true] at hstart
        rw [hstart]
        exact ⟨digits, hdigits, hvalue, fun _ => hlength⟩
    · rw [if_neg hzero]
      exact ⟨digits, hdigits, hvalue, fun _ => hlength⟩

theorem registerHex32_typed (hex : BitVec 32) :
    ∃ digits, (registerHex32 mode hex).map digitOf = digits.map some ∧
      hexValue digits = hex.toNat := by
  obtain ⟨digits, hdigits, hvalue, -⟩ := hex32From_typed mode hex 8 true
  exact ⟨digits, hdigits, hvalue.trans (Nat.mod_eq_of_lt hex.isLt)⟩

theorem registerHex32_typed_four (hex : BitVec 32) (h : hex.toNat < 16 ^ 4) :
    ∃ digits, (registerHex32 mode hex).map digitOf = digits.map some ∧
      hexValue digits = hex.toNat ∧ digits.length = 4 := by
  have hfront : ∀ k, hex32From mode hex (4 + k) true = hex32From mode hex 4 true := by
    intro k
    induction k with
    | zero => rfl
    | succ k ih =>
      -- the digits before the last four are zeros, and left out
      have hdigit : hexDigit hex (4 + k) = 0 := by
        apply BitVec.eq_of_toNat_eq
        have hle : 16 ^ 4 ≤ 16 ^ (4 + k) := Nat.pow_le_pow_right (by decide) (by omega)
        rw [hexDigit_toNat, Nat.div_eq_of_lt (by omega)]
        rfl
      have hfar : ¬ 4 + k ≤ 3 := by omega
      rw [← Nat.add_assoc, hex32From, if_pos hdigit, if_neg hfar]
      exact ih
  obtain ⟨digits, hdigits, hvalue, hlength⟩ := hex32From_typed mode hex 4 false
  refine ⟨digits, ?_, hvalue.trans (Nat.mod_eq_of_lt h), hlength rfl⟩
  have hsame : registerHex32 mode hex = hex32From mode hex 4 false := (hfront 4).trans rfl
  rw [hsame, hdigits]

/-! ### Values -/

/-- What the digits of an input say of a value: for macOS its two surrogates, of four
    digits each, if it has them, and otherwise the value. -/
def Denotes (n : Nat) (digits : List Nat) : Prop :=
  if mode = .mac ∧ 0xFFFF < n then
    ∃ hi lo, digits = hi ++ lo ∧ hi.length = 4 ∧ lo.length = 4 ∧
      hexValue hi = 0xD800 + (n - 0x10000) / 0x400 ∧
      hexValue lo = 0xDC00 + (n - 0x10000) % 0x400
  else hexValue digits = n

/-- An input for a value: it is started, digits are typed, and it is finished. -/
def InputOf (n : Nat) (calls : List UnicodeCall) : Prop :=
  ∃ keys digits, calls = .start :: (keys ++ [.finish]) ∧
    keys.map digitOf = digits.map some ∧ Denotes mode n digits

theorem surrogates_toNat (n : Nat) (hlow : 0xFFFF < n) (hhigh : n ≤ 0x10FFFF) :
    (((BitVec.ofNat 32 n - 0x10000) &&& 0xFFC00) >>> 10 + 0xD800).toNat =
        0xD800 + (n - 0x10000) / 0x400 ∧
      (((BitVec.ofNat 32 n - 0x10000) &&& 0x3FF) + 0xDC00).toNat =
        0xDC00 + (n - 0x10000) % 0x400 := by
  have hrest : (BitVec.ofNat 32 n - 0x10000).toNat = n - 0x10000 := by
    have hbase : (0x10000 : BitVec 32).toNat = 0x10000 := rfl
    rw [BitVec.toNat_sub_of_le]
    · rw [BitVec.toNat_ofNat, hbase]
      omega
    · rw [BitVec.le_def, BitVec.toNat_ofNat, hbase]
      omega
  generalize BitVec.ofNat 32 n - 0x10000 = rest at hrest
  -- the upper ten bits of the twenty, and the lower ten
  have hhi : ((rest &&& 0xFFC00) >>> 10).toNat = (n - 0x10000) / 0x400 := by
    have hmask : (0xFFC00 : BitVec 32) >>> 10 = BitVec.ofNat 32 (2 ^ 10 - 1) := by decide
    rw [BitVec.ushiftRight_and_distrib, hmask, BitVec.toNat_and, BitVec.toNat_ofNat,
      Nat.mod_eq_of_lt (by decide), Nat.and_two_pow_sub_one_eq_mod, BitVec.toNat_ushiftRight,
      Nat.shiftRight_eq_div_pow, hrest]
    omega
  have hlo : (rest &&& 0x3FF).toNat = (n - 0x10000) % 0x400 := by
    have hmask : (0x3FF : BitVec 32).toNat = 2 ^ 10 - 1 := rfl
    rw [BitVec.toNat_and, hmask, Nat.and_two_pow_sub_one_eq_mod, hrest]
  rw [BitVec.toNat_add, BitVec.toNat_add, hhi, hlo]
  constructor
  · have hbase : (0xD800 : BitVec 32).toNat = 0xD800 := rfl
    omega
  · have hbase : (0xDC00 : BitVec 32).toNat = 0xDC00 := rfl
    omega

theorem registerUnicode_input (n : Nat) (h : n ≤ 0x10FFFF) (hwin : mode = .win → n ≤ 0xFFFF) :
    InputOf mode n (registerUnicode mode (BitVec.ofNat 32 n)) := by
  have hvalue : (BitVec.ofNat 32 n).toNat = n := by
    rw [BitVec.toNat_ofNat]
    omega
  have hplane : (0xFFFF : BitVec 32) < BitVec.ofNat 32 n ↔ 0xFFFF < n := by
    rw [BitVec.lt_def, hvalue]
    rfl
  -- neither of the two guards holds
  have hrange : ¬ ((0x10FFFF : BitVec 32) < BitVec.ofNat 32 n ∨
      ((0xFFFF : BitVec 32) < BitVec.ofNat 32 n ∧ mode = .win)) := by
    rw [hplane, BitVec.lt_def, hvalue]
    have hlast : (0x10FFFF : BitVec 32).toNat = 0x10FFFF := rfl
    rintro (hout | ⟨hout, hmode⟩)
    · omega
    · exact absurd (hwin hmode) (Nat.not_le_of_lt hout)
  unfold registerUnicode InputOf
  rw [if_neg hrange]
  by_cases hpair : 0xFFFF < n ∧ mode = .mac
  · -- the two surrogates
    obtain ⟨hhi, hlo⟩ := surrogates_toNat n hpair.1 h
    obtain ⟨his, hhis, hhiValue, hhiLength⟩ := registerHex32_typed_four mode
      (((BitVec.ofNat 32 n - 0x10000) &&& 0xFFC00) >>> 10 + 0xD800) (by omega)
    obtain ⟨los, hlos, hloValue, hloLength⟩ := registerHex32_typed_four mode
      (((BitVec.ofNat 32 n - 0x10000) &&& 0x3FF) + 0xDC00) (by omega)
    rw [if_pos ⟨hplane.mpr hpair.1, hpair.2⟩]
    refine ⟨_, his ++ los, List.cons_append, ?_, ?_⟩
    · rw [List.map_append, List.map_append, hhis, hlos]
    · unfold Denotes
      rw [if_pos ⟨hpair.2, hpair.1⟩]
      exact ⟨his, los, rfl, hhiLength, hloLength, hhiValue.trans hhi, hloValue.trans hlo⟩
  · obtain ⟨digits, hdigits, hdenotes⟩ := registerHex32_typed mode (BitVec.ofNat 32 n)
    rw [if_neg (fun hmac => hpair ⟨hplane.mp hmac.1, hmac.2⟩)]
    refine ⟨_, digits, List.cons_append, hdigits, ?_⟩
    unfold Denotes
    rw [if_neg (fun hmac => hpair ⟨hmac.2, hmac.1⟩)]
    exact hdenotes.trans hvalue

/-! ### Sequences -/

/-- Scalar values, encoded. -/
def utf8 (chars : List Char) : List Byte :=
  chars.flatMap (fun c => (String.utf8EncodeChar c).map UInt8.toBitVec)

/-- How many bytes the decoder takes, by the first of them. -/
def seqLength (c : Byte) : Nat :=
  if c < 0x80 then 1
  else if c &&& 0xE0 = 0xC0 then 2
  else if c &&& 0xF0 = 0xE0 then 3
  else if c &&& 0xF8 = 0xF0 ∧ c ≤ 0xF4 then 4
  else 1

theorem seqLength_pos (c : Byte) : 0 < seqLength c := by
  unfold seqLength
  split
  · decide
  split
  · decide
  split
  · decide
  split <;> decide

theorem decodeUtf8_next (str : Nat → Byte) (place : Nat) :
    (decodeUtf8 str place).next = place + seqLength (str place) := by
  unfold decodeUtf8 seqLength
  dsimp only
  split_ifs <;> rfl

theorem decodeUtf8_reads (str : Nat → Byte) (place i : Nat) :
    i ∈ (decodeUtf8 str place).reads ↔ place ≤ i ∧ i < place + seqLength (str place) := by
  unfold decodeUtf8 seqLength
  dsimp only
  split_ifs <;> simp only [List.mem_cons, List.not_mem_nil, or_false] <;> omega

/-! ### Decoding -/

theorem mask_toNat (b : Byte) (k : Nat) (mask : Byte) (hmask : mask.toNat = 2 ^ k - 1) :
    (b &&& mask).toNat = b.toNat % 2 ^ k := by
  rw [BitVec.toNat_and, hmask, Nat.and_two_pow_sub_one_eq_mod]

theorem scalar_range (c : Char) :
    c.val.toNat < 0xD800 ∨ (0xDFFF < c.val.toNat ∧ c.val.toNat < 0x110000) := c.valid

theorem utf8Byte_toNat (n : Nat) (h : n < 256) : (UInt8.ofNat n).toBitVec.toNat = n := by
  change n % 256 = n
  exact Nat.mod_eq_of_lt h

theorem first_one (b : Byte) : b < 0x80 ↔ b.toNat < 0x80 := BitVec.lt_def

theorem and_eq_iff (b mask c : Byte) :
    b &&& mask = c ↔ b.toNat &&& mask.toNat = c.toNat := by
  rw [← BitVec.toNat_inj, BitVec.toNat_and]

theorem first_two (b : Byte) : b &&& 0xE0 = 0xC0 ↔ b.toNat / 32 = 6 := by
  have hall : ∀ n < 256, n &&& 0xE0 = 0xC0 ↔ n / 32 = 6 := by
    decide +kernel
  rw [and_eq_iff]
  exact hall b.toNat b.isLt

theorem first_three (b : Byte) : b &&& 0xF0 = 0xE0 ↔ b.toNat / 16 = 14 := by
  have hall : ∀ n < 256, n &&& 0xF0 = 0xE0 ↔ n / 16 = 14 := by
    decide +kernel
  rw [and_eq_iff]
  exact hall b.toNat b.isLt

theorem first_four (b : Byte) :
    (b &&& 0xF8 = 0xF0 ∧ b ≤ 0xF4) ↔ 0xF0 ≤ b.toNat ∧ b.toNat ≤ 0xF4 := by
  have hall : ∀ n < 256, (n &&& 0xF8 = 0xF0 ∧ n ≤ 0xF4) ↔ 0xF0 ≤ n ∧ n ≤ 0xF4 := by
    decide +kernel
  rw [and_eq_iff, BitVec.le_def]
  exact hall b.toNat b.isLt

theorem shiftLeft_or (a b i : Nat) (h : b < 2 ^ i) : a <<< i ||| b = a * 2 ^ i + b := by
  rw [← Nat.shiftLeft_add_eq_or_of_lt h, Nat.shiftLeft_eq]

section

variable (str : Nat → Byte) (place : Nat)

theorem tail_toNat (i : Nat) :
    (str (place + i) &&& 0x3F).toNat = (str (place + i)).toNat % 64 :=
  mask_toNat _ 6 0x3F rfl

theorem decodeUtf8_one (h : (str place).toNat < 0x80) :
    (decodeUtf8 str place).codePoint = (str place).toNat ∧
      (decodeUtf8 str place).next = place + 1 := by
  unfold decodeUtf8
  dsimp only
  rw [if_pos ((first_one _).mpr h)]
  dsimp only
  rw [if_neg (by omega)]
  exact ⟨rfl, rfl⟩

theorem decodeUtf8_two (h : (str place).toNat / 32 = 6) :
    (decodeUtf8 str place).codePoint =
        ((str place).toNat % 32 * 64 + (str (place + 1)).toNat % 64 : Nat) ∧
      (decodeUtf8 str place).next = place + 2 := by
  have hfirst : ¬ str place < 0x80 := by
    rw [first_one]
    omega
  have hbits : (str place &&& 0x1F).toNat <<< 6 ||| (str (place + 1) &&& 0x3F).toNat =
      (str place).toNat % 32 * 64 + (str (place + 1)).toNat % 64 := by
    -- the bits of the second byte are put behind those of the first
    rw [tail_toNat, mask_toNat _ 5 0x1F rfl, shiftLeft_or _ _ 6 (by omega)]
    omega
  unfold decodeUtf8
  dsimp only
  rw [if_neg hfirst, if_pos ((first_two _).mpr h), hbits]
  dsimp only
  rw [if_neg (by omega)]
  exact ⟨rfl, rfl⟩

theorem decodeUtf8_three (h : (str place).toNat / 16 = 14) (n : Nat)
    (hn : n = (str place).toNat % 16 * 4096 + (str (place + 1)).toNat % 64 * 64 +
      (str (place + 2)).toNat % 64) (hscalar : n < 0xD800 ∨ 0xDFFF < n) :
    (decodeUtf8 str place).codePoint = n ∧ (decodeUtf8 str place).next = place + 3 := by
  have hfirst : ¬ str place < 0x80 := by
    rw [first_one]
    omega
  have hsecond : ¬ str place &&& 0xE0 = 0xC0 := by
    rw [first_two]
    omega
  have hbits : (str place &&& 0x0F).toNat <<< 12 ||| (str (place + 1) &&& 0x3F).toNat <<< 6 |||
      (str (place + 2) &&& 0x3F).toNat = n := by
    rw [tail_toNat, tail_toNat, mask_toNat _ 4 0x0F rfl, Nat.or_assoc,
      shiftLeft_or _ _ 6 (by omega), shiftLeft_or _ _ 12 (by omega)]
    omega
  unfold decodeUtf8
  dsimp only
  rw [if_neg hfirst, if_neg hsecond, if_pos ((first_three _).mpr h), hbits]
  dsimp only
  rw [if_neg (by omega)]
  exact ⟨rfl, rfl⟩

theorem decodeUtf8_four (h : 0xF0 ≤ (str place).toNat ∧ (str place).toNat ≤ 0xF4) (n : Nat)
    (hn : n = (str place).toNat % 8 * 262144 + (str (place + 1)).toNat % 64 * 4096 +
      (str (place + 2)).toNat % 64 * 64 + (str (place + 3)).toNat % 64) (hscalar : 0xDFFF < n) :
    (decodeUtf8 str place).codePoint = n ∧ (decodeUtf8 str place).next = place + 4 := by
  have hfirst : ¬ str place < 0x80 := by
    rw [first_one]
    omega
  have hsecond : ¬ str place &&& 0xE0 = 0xC0 := by
    rw [first_two]
    omega
  have hthird : ¬ str place &&& 0xF0 = 0xE0 := by
    rw [first_three]
    omega
  have hbits : (str place &&& 0x07).toNat <<< 18 ||| (str (place + 1) &&& 0x3F).toNat <<< 12 |||
      (str (place + 2) &&& 0x3F).toNat <<< 6 ||| (str (place + 3) &&& 0x3F).toNat = n := by
    rw [tail_toNat, tail_toNat, tail_toNat, mask_toNat _ 3 0x07 rfl, Nat.or_assoc, Nat.or_assoc,
      shiftLeft_or _ _ 6 (by omega), shiftLeft_or _ _ 12 (by omega),
      shiftLeft_or _ _ 18 (by omega)]
    omega
  unfold decodeUtf8
  dsimp only
  rw [if_neg hfirst, if_neg hsecond, if_neg hthird, if_pos ((first_four _).mpr h), hbits]
  dsimp only
  rw [if_neg (by omega)]
  exact ⟨rfl, rfl⟩

theorem decodeUtf8_encode (c : Char) (l : List Byte)
    (h : Stretch str place ((String.utf8EncodeChar c).map UInt8.toBitVec ++ l)) :
    (decodeUtf8 str place).codePoint = c.toNat ∧
      (decodeUtf8 str place).next = place + (String.utf8EncodeChar c).length := by
  have hvalid := scalar_range c
  change _ = ((c.val.toNat : Nat) : Int) ∧ _
  unfold String.utf8EncodeChar at h ⊢
  dsimp only at h ⊢
  generalize c.val.toNat = n at h hvalid ⊢
  -- of one, two, three or four bytes, by the value
  by_cases h1 : n ≤ 0x7F
  · rw [if_pos h1] at h ⊢
    have hbyte := congrArg BitVec.toNat h.1
    rw [utf8Byte_toNat n (by omega)] at hbyte
    obtain ⟨hpoint, hnext⟩ := decodeUtf8_one str place (by omega)
    exact ⟨hpoint.trans (congrArg Nat.cast hbyte), hnext⟩
  rw [if_neg h1] at h ⊢
  by_cases h2 : n ≤ 0x7FF
  · rw [if_pos h2] at h ⊢
    have hbyte0 := congrArg BitVec.toNat h.1
    have hbyte1 := congrArg BitVec.toNat h.2.1
    rw [utf8Byte_toNat _ (by omega)] at hbyte0 hbyte1
    obtain ⟨hpoint, hnext⟩ := decodeUtf8_two str place (by omega)
    exact ⟨hpoint.trans (congrArg Nat.cast (by omega)), hnext⟩
  rw [if_neg h2] at h ⊢
  by_cases h3 : n ≤ 0xFFFF
  · rw [if_pos h3] at h ⊢
    have hbyte0 := congrArg BitVec.toNat h.1
    have hbyte1 := congrArg BitVec.toNat h.2.1
    have hbyte2 : (str (place + 2)).toNat = _ := congrArg BitVec.toNat h.2.2.1
    rw [utf8Byte_toNat _ (by omega)] at hbyte0 hbyte1 hbyte2
    exact decodeUtf8_three str place (by omega) n (by omega) (by omega)
  · rw [if_neg h3] at h ⊢
    have hbyte0 := congrArg BitVec.toNat h.1
    have hbyte1 := congrArg BitVec.toNat h.2.1
    have hbyte2 : (str (place + 2)).toNat = _ := congrArg BitVec.toNat h.2.2.1
    have hbyte3 : (str (place + 3)).toNat = _ := congrArg BitVec.toNat h.2.2.2.1
    rw [utf8Byte_toNat _ (by omega)] at hbyte0 hbyte1 hbyte2 hbyte3
    exact decodeUtf8_four str place (by omega) n (by omega) (by omega)

end

/-! ### Strings -/

section

variable {str : Nat → Byte}

theorem utf8EncodeChar_head (c : Char) (hc : c.toNat ≠ 0) (place : Nat) (l : List Byte)
    (h : Stretch str place ((String.utf8EncodeChar c).map UInt8.toBitVec ++ l)) :
    str place ≠ 0 := by
  have hvalid := scalar_range c
  change c.val.toNat ≠ 0 at hc
  unfold String.utf8EncodeChar at h
  dsimp only at h
  generalize c.val.toNat = n at h hc hvalid
  -- a first byte is the value itself, or has its highest bit set
  intro hzero
  have hnat : (str place).toNat = 0 := by
    rw [hzero]
    rfl
  split_ifs at h <;>
    · have hbyte := congrArg BitVec.toNat h.1
      rw [utf8Byte_toNat _ (by omega)] at hbyte
      omega

theorem sendUnicodeString_utf8 (chars : List Char) :
    ∀ (place fuel : Nat), Stretch str place (utf8 chars ++ [0]) → chars.length < fuel →
      (∀ c ∈ chars, c.toNat ≠ 0) → (mode = .win → ∀ c ∈ chars, c.toNat ≤ 0xFFFF) →
      ∃ sent inputs, sendUnicodeString mode str fuel place = some sent ∧
        sent.calls = List.flatten inputs ∧
        List.Forall₂ (fun c calls => InputOf mode c.toNat calls) chars inputs := by
  induction chars with
  | nil =>
    intro place fuel hstr hfuel _ _
    obtain ⟨fuel, rfl⟩ := Nat.exists_eq_add_of_lt hfuel
    refine ⟨⟨[place], []⟩, [], ?_, rfl, List.Forall₂.nil⟩
    simp [sendUnicodeString, hstr.1]
  | cons c chars ih =>
    intro place fuel hstr hfuel hnul hwin
    cases fuel with
    | zero => exact absurd hfuel (Nat.not_lt_zero _)
    | succ fuel =>
      have hsplit : Stretch str place
          ((String.utf8EncodeChar c).map UInt8.toBitVec ++ (utf8 chars ++ [0])) := by
        rwa [utf8, List.flatMap_cons, List.append_assoc] at hstr
      have hc := hnul c List.mem_cons_self
      obtain ⟨hpoint, hnext⟩ := decodeUtf8_encode str place c _ hsplit
      have hrest := hsplit.append.2
      rw [List.length_map, ← hnext] at hrest
      obtain ⟨sent, inputs, hsent, hcalls, hinputs⟩ := ih _ fuel hrest
        (Nat.lt_of_succ_lt_succ hfuel) (fun d hd => hnul d (List.mem_cons_of_mem _ hd))
        (fun hmode d hd => hwin hmode d (List.mem_cons_of_mem _ hd))
      have hlast : c.toNat ≤ 0x10FFFF := by
        have hvalid := scalar_range c
        change c.val.toNat ≤ 0x10FFFF
        omega
      -- one value is typed, and the loop goes on behind its bytes
      have hinput := registerUnicode_input mode c.toNat hlast
        (fun hmode => hwin hmode c List.mem_cons_self)
      have hcast : BitVec.ofInt 32 (c.toNat : Int) = BitVec.ofNat 32 c.toNat :=
        BitVec.ofInt_natCast 32 c.toNat
      refine ⟨⟨place :: (decodeUtf8 str place).reads ++ sent.reads,
          registerUnicode mode (BitVec.ofNat 32 c.toNat) ++ sent.calls⟩,
        registerUnicode mode (BitVec.ofNat 32 c.toNat) :: inputs, ?_, ?_,
        List.Forall₂.cons hinput hinputs⟩
      · rw [sendUnicodeString, if_neg (utf8EncodeChar_head c hc place _ hsplit)]
        dsimp only
        rw [hsent, hpoint, if_pos (Int.natCast_nonneg _), hcast]
        rfl
      · rw [List.flatten_cons, ← hcalls]

/-- Scalar values, none of them zero, and for Windows none beyond the first plane:
    there is one input for each, in their order, and it is an input for that value. -/
theorem unicode_round_trip (chars : List Char) (hstr : Stretch str 0 (utf8 chars ++ [0]))
    (hnul : ∀ c ∈ chars, c.toNat ≠ 0) (hwin : mode = .win → ∀ c ∈ chars, c.toNat ≤ 0xFFFF) :
    ∃ fuel sent inputs, sendUnicodeString mode str fuel 0 = some sent ∧
      sent.calls = List.flatten inputs ∧
      List.Forall₂ (fun c calls => InputOf mode c.toNat calls) chars inputs := by
  obtain ⟨sent, inputs, h⟩ := sendUnicodeString_utf8 mode chars 0 (chars.length + 1) hstr
    (Nat.lt_succ_self _) hnul hwin
  exact ⟨_, sent, inputs, h⟩

/-- Of one byte, of three, and of four. -/
theorem unicode_round_trip_three :
    ∃ fuel sent inputs, sendUnicodeString .mac
        (fun i => (utf8 ['a', '€', '😀'] ++ [0]).getD i 0) fuel 0 = some sent ∧
      sent.calls = List.flatten inputs ∧
      List.Forall₂ (fun c calls => InputOf .mac (Char.toNat c) calls) ['a', '€', '😀'] inputs := by
  refine unicode_round_trip .mac ['a', '€', '😀'] ?_ (by simp) (fun hmode => by cases hmode)
  refine stretch_of_get (fun i a ha => ?_)
  rw [Nat.zero_add, List.getD_eq_getElem?_getD, ha, Option.getD_some]

end

/-! ### Strings that are not whole -/

/-- Every sequence the decoder comes to is whole. -/
inductive Whole : List Byte → Prop
  | nil : Whole []
  | sequence {c : Byte} {tail rest : List Byte} (hlength : tail.length + 1 = seqLength c)
      (h : Whole rest) : Whole (c :: (tail ++ rest))

/-- The string is sent, and no more than the string is read. -/
def SendsUnicodeWithin (s : Text Byte) (beyond : Nat → Byte) : Prop :=
  ∃ fuel sent, sendUnicodeString mode (s.memory beyond) fuel 0 = some sent ∧
    ∀ place ∈ sent.reads, place ≤ s.bytes.length

section

variable {str : Nat → Byte}

theorem mem_unicode_reads {fuel place : Nat} {sent : UnicodeSending}
    (h : sendUnicodeString mode str fuel place = some sent) : place ∈ sent.reads := by
  cases fuel with
  | zero => exact absurd h (by simp [sendUnicodeString])
  | succ fuel =>
    rw [sendUnicodeString] at h
    split at h
    · rw [← Option.some.inj h]
      exact List.mem_singleton_self place
    · obtain ⟨rest, -, rfl⟩ := Option.map_eq_some_iff.mp h
      exact List.mem_append_left _ List.mem_cons_self

theorem Whole.sends {l : List Byte} (h : Whole l) (hl : ∀ c ∈ l, c ≠ 0) {place fuel : Nat}
    (hstr : Stretch str place (l ++ [0])) (hfuel : l.length < fuel) :
    ∃ sent, sendUnicodeString mode str fuel place = some sent ∧
      ∀ i ∈ sent.reads, i ≤ place + l.length := by
  induction h generalizing place fuel with
  | nil =>
    obtain ⟨fuel, rfl⟩ := Nat.exists_eq_add_of_lt hfuel
    refine ⟨⟨[place], []⟩, ?_, by simp⟩
    simp [sendUnicodeString, hstr.1]
  | @sequence c tail rest hlength h ih =>
    cases fuel with
    | zero => exact absurd hfuel (Nat.not_lt_zero _)
    | succ fuel =>
      have hplace : str place = c := hstr.1
      have hnext := decodeUtf8_next str place
      rw [hplace, ← hlength] at hnext
      -- the loop goes on where the rest of the string begins
      have hbody : Stretch str place ((c :: tail) ++ (rest ++ [0])) := by
        rwa [List.cons_append, ← List.append_assoc]
      have hrest := hbody.append.2
      rw [List.length_cons, ← hnext] at hrest
      rw [List.length_cons, List.length_append] at hfuel ⊢
      obtain ⟨sent, hsent, hreads⟩ := ih (fun d hd => hl d (by simp [hd])) hrest
        (show rest.length < fuel by omega)
      have hend : str place ≠ 0 := by
        rw [hplace]
        exact hl c List.mem_cons_self
      refine ⟨_, by rw [sendUnicodeString, if_neg hend]; dsimp only; rw [hsent]; rfl, ?_⟩
      intro i hi
      rcases List.mem_append.mp hi with hseq | hi
      · -- the sequence is all of it in the string
        rcases List.mem_cons.mp hseq with rfl | hseq
        · omega
        · have hwithin := ((decodeUtf8_reads str place i).mp hseq).2
          rw [hplace, ← hlength] at hwithin
          omega
      · have hle := hreads i hi
        omega

theorem whole_of_within (fuel : Nat) : ∀ (l : List Byte) (place : Nat) (sent : UnicodeSending),
    (∀ c ∈ l, c ≠ 0) → Stretch str place (l ++ [0]) →
    sendUnicodeString mode str fuel place = some sent →
    (∀ i ∈ sent.reads, i ≤ place + l.length) → Whole l := by
  induction fuel with
  | zero =>
    intro l place sent _ _ hsent _
    exact absurd hsent (by simp [sendUnicodeString])
  | succ fuel ih =>
    intro l place sent hl hstr hsent hreads
    cases l with
    | nil => exact Whole.nil
    | cons c l =>
      have hplace : str place = c := hstr.1
      have hend : str place ≠ 0 := by
        rw [hplace]
        exact hl c List.mem_cons_self
      rw [sendUnicodeString, if_neg hend] at hsent
      obtain ⟨rest, hrest, rfl⟩ := Option.map_eq_some_iff.mp hsent
      rw [decodeUtf8_next, hplace] at hrest
      -- the loop goes on behind the sequence, and reads there
      have hpos := seqLength_pos c
      have hwithin := hreads _ (List.mem_append_right _ (mem_unicode_reads mode hrest))
      rw [List.length_cons] at hwithin
      have htail : (l.take (seqLength c - 1)).length + 1 = seqLength c := by
        rw [List.length_take]
        omega
      have hsplit : c :: l = (c :: l.take (seqLength c - 1)) ++ l.drop (seqLength c - 1) := by
        rw [List.cons_append, List.take_append_drop]
      have hstr' : Stretch str (place + seqLength c) (l.drop (seqLength c - 1) ++ [0]) := by
        rw [hsplit, List.append_assoc] at hstr
        have hbehind := hstr.append.2
        rwa [List.length_cons, htail] at hbehind
      have hwhole := ih (l.drop (seqLength c - 1)) (place + seqLength c) rest
        (fun d hd => hl d (List.mem_cons_of_mem _ (List.mem_of_mem_drop hd))) hstr' hrest ?_
      · rw [hsplit]
        exact Whole.sequence htail hwhole
      · intro i hi
        have hle := hreads i (List.mem_append_right _ hi)
        rw [List.length_cons] at hle
        rw [List.length_drop]
        omega

end

/-- A string is sent, and no more of it read than there is, exactly when every
    sequence of it is whole. -/
theorem unicode_within_iff (s : Text Byte) (beyond : Nat → Byte) :
    SendsUnicodeWithin mode s beyond ↔ Whole s.bytes := by
  have hstr := s.stretch beyond
  constructor
  · rintro ⟨fuel, sent, hsent, hreads⟩
    refine whole_of_within mode fuel s.bytes 0 sent s.noZero hstr hsent (fun i hi => ?_)
    rw [Nat.zero_add]
    exact hreads i hi
  · intro hwhole
    obtain ⟨sent, hsent, hreads⟩ := hwhole.sends mode s.noZero hstr (Nat.lt_succ_self _)
    refine ⟨_, sent, hsent, fun i hi => ?_⟩
    have hle := hreads i hi
    rwa [Nat.zero_add] at hle

/-- The first byte of two, and the end of the string. -/
def cutOff : Text Byte where
  bytes := [0xC3]
  noZero b hb := by
    rw [List.mem_singleton.mp hb]
    exact fun h => absurd (congrArg BitVec.toNat h) (by decide)

theorem unicode_within_broken : ¬ SendsUnicodeWithin .lnx cutOff (fun _ => 0) := by
  rintro ⟨fuel, sent, hsent, hreads⟩
  have hwhole : Whole [0xC3] := by
    refine whole_of_within .lnx fuel [0xC3] 0 sent cutOff.noZero (cutOff.stretch _) hsent ?_
    intro i hi
    exact (hreads i hi).trans (by decide)
  -- a sequence that begins so has two bytes
  have hshort : ∀ l, Whole l → l ≠ [0xC3] := by
    intro l hl
    cases hl with
    | nil => simp
    | @sequence c tail rest hlength _ =>
      intro heq
      obtain ⟨rfl, hnil⟩ := List.cons.inj heq
      rw [(List.append_eq_nil_iff.mp hnil).1] at hlength
      exact absurd hlength (by decide)
  exact hshort _ hwhole rfl

end K530
