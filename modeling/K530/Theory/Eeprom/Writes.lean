import K530.Theory.Eeprom.Stored

/-!
# Writes to the EEPROM

What a write of a byte or of a word leaves in `DataBuf` and in the flash. `DataBuf`
has the new bytes. The flash has them too, unless the write goes to the compacted
area under an entry that overrides it: `byteClash` and `wordClash`.

The lemma about a byte leaves open whether the flash held what was in `DataBuf`
elsewhere, since an unaligned word is two bytes and the first may have gone
wrong.

## Main definitions

* `storeByte`: The write of a byte to an array of bytes.

## Theorems

* `writeDataByte_spec`: A write of a byte.
* `writeDataWord_sound`: A write of an aligned word that is not overridden.
-/

namespace K530

namespace Stm32

open Flash

/-- The write of a byte to an array of bytes. -/
def storeByte (c : EepromStm32) (address : Nat) (value : Byte) (bytes : Nat → Byte) :
    Nat → Byte :=
  if address < c.density then Function.update bytes address value else bytes

/-- The write goes to the compacted area, under an entry of the log that overrides
    it. -/
def byteClash (c : EepromStm32) (s : EepromState) (address : Nat) (value : Byte) : Bool :=
  address < c.density && s.dataBuf address != value &&
    s.flash.words (address / 2) == emptyWord && overridden c s address value

/-- The same for an aligned word. -/
def wordClash (c : EepromStm32) (s : EepromState) (address : Nat) (value : HalfWord) : Bool :=
  address < c.density && wordAt s.dataBuf address != value &&
    s.flash.words (address / 2) == emptyWord &&
      (overridden c s address (value.setWidth 8) ||
        overridden c s (address + 1) ((value >>> 8).setWidth 8))

/-- The log is full for a byte that is to be logged, or the word it is in. -/
def logFull (c : EepromStm32) (s : EepromState) (address : Nat) : Bool :=
  if address < 0x80 then c.logSlots ≤ s.emptySlot
  else c.logSlots < s.emptySlot + logSize (wordAt s.dataBuf (2 * (address / 2)))

/-- The write of a byte is logged, and the log is full. -/
def byteCompacts (c : EepromStm32) (s : EepromState) (address : Nat) (value : Byte) : Bool :=
  address < c.density && s.dataBuf address != value &&
    s.flash.words (address / 2) != emptyWord &&
      logFull c { s with dataBuf := Function.update s.dataBuf address value } address

def Sound (c : EepromStm32) (s : EepromState) : Prop := FlashHolds c s s.dataBuf

section Byte

variable {c : EepromStm32} {s : EepromState} {contents : Nat → Byte}

theorem FlashHolds.clean (h : FlashHolds c s contents) : Clean emptyWord s.flash :=
  h.choose_spec.clean

theorem setWord_byte (dataBuf contents : Nat → Byte) (address : Nat) (value : Byte)
    (hsame : ∀ x, x / 2 = address / 2 → contents x = dataBuf x) :
    setWord contents (2 * (address / 2))
        (wordAt (Function.update dataBuf address value) (2 * (address / 2))) =
      Function.update contents address value := by
  funext x
  rw [setWord_eq]
  dsimp only
  have hbyte := byteOf_wordAt (Function.update dataBuf address value) x
  unfold byteOf at hbyte
  unfold LogEntry.assignsWord
  by_cases hword : x / 2 = address / 2
  · rw [hword] at hbyte
    have hupdate : Function.update dataBuf address value x =
        Function.update contents address value x := by
      rw [Function.update_apply, Function.update_apply, hsame x hword]
    by_cases heven : x % 2 = 0
    · rw [if_pos heven] at hbyte
      rw [if_pos (by omega), hbyte, Option.getD_some, hupdate]
    · rw [if_neg heven] at hbyte
      rw [if_neg (by omega), if_pos (by omega), hbyte, Option.getD_some, hupdate]
  · rw [if_neg (by omega), if_neg (by omega), Option.getD_none,
      Function.update_of_ne (fun hc => hword (by rw [hc]))]

theorem direct_byte (h : FlashHolds c s contents) (address : Nat) (value : Byte)
    (hsame : ∀ x, x / 2 = address / 2 → contents x = s.dataBuf x) (haddress : address < c.density)
    (hempty : s.flash.words (address / 2) = emptyWord) :
    (fun x => if x / 2 = address / 2 then
        if overridden c s x (Function.update s.dataBuf address value x) then 0
        else Function.update s.dataBuf address value x else contents x) =
      Function.update contents address (if overridden c s address value then 0 else value) := by
  funext x
  by_cases hx : x = address
  · rw [hx, if_pos rfl, Function.update_self, Function.update_self]
  · rw [Function.update_of_ne hx, Function.update_of_ne hx]
    by_cases hword : x / 2 = address / 2
    · obtain ⟨entries, hstored⟩ := h
      have heven := c.even
      have hzero := hstored.erased (x := x) (by omega) (by rw [hword]; exact hempty)
      rw [if_pos hword, ← hsame x hword, hzero, ite_self]
    · rw [if_neg hword]

theorem logByte_spec (h : FlashHolds c s contents) (address : Nat) (value : Byte)
    (haddress : address < c.density) (hempty : s.flash.words (address / 2) ≠ emptyWord)
    (hbeyond : ∀ x, c.density ≤ x → Function.update s.dataBuf address value x = 0)
    (hlow : address < 0x80) :
    (c.writeLogByteEntry address
        { s with dataBuf := Function.update s.dataBuf address value }).dataBuf =
      Function.update s.dataBuf address value ∧
    FlashHolds c
      (c.writeLogByteEntry address { s with dataBuf := Function.update s.dataBuf address value })
      (if logFull c { s with dataBuf := Function.update s.dataBuf address value } address then
        Function.update s.dataBuf address value
      else Function.update contents address value) := by
  obtain ⟨hcompact, -, hcompacted, -⟩ := compact_holds
    (s := { s with dataBuf := Function.update s.dataBuf address value }) h.clean hbeyond
  unfold logFull
  dsimp only
  rw [if_pos hlow]
  by_cases hfull : c.logSlots ≤ s.emptySlot
  · rw [if_pos (decide_eq_true hfull)]
    unfold EepromStm32.writeLogByteEntry
    rw [if_pos hfull]
    exact ⟨hcompact, hcompacted⟩
  · rw [if_neg (by simpa using hfull)]
    obtain ⟨hbuf, hholds, -⟩ := writeLogByteEntry_holds
      (h.withBuf (Function.update s.dataBuf address value)) hlow haddress (by simpa using hfull)
      (fun hc => absurd hc hempty)
    dsimp only at hholds
    rw [Function.update_self] at hholds
    exact ⟨hbuf, hholds⟩

theorem logWord_spec (h : FlashHolds c s contents) (address : Nat) (value : Byte)
    (hsame : ∀ x, x / 2 = address / 2 → contents x = s.dataBuf x) (haddress : address < c.density)
    (hempty : s.flash.words (address / 2) ≠ emptyWord)
    (hbeyond : ∀ x, c.density ≤ x → Function.update s.dataBuf address value x = 0)
    (hhigh : ¬ address < 0x80) :
    (c.writeLogWordEntry (2 * (address / 2))
        { s with dataBuf := Function.update s.dataBuf address value }).dataBuf =
      Function.update s.dataBuf address value ∧
    FlashHolds c
      (c.writeLogWordEntry (2 * (address / 2))
        { s with dataBuf := Function.update s.dataBuf address value })
      (if logFull c { s with dataBuf := Function.update s.dataBuf address value } address then
        Function.update s.dataBuf address value
      else Function.update contents address value) := by
  obtain ⟨hcompact, -, hcompacted, -⟩ := compact_holds
    (s := { s with dataBuf := Function.update s.dataBuf address value }) h.clean hbeyond
  unfold logFull
  dsimp only
  rw [if_neg hhigh]
  by_cases hfull : c.logSlots < s.emptySlot +
      logSize (wordAt (Function.update s.dataBuf address value) (2 * (address / 2)))
  · rw [if_pos (decide_eq_true hfull)]
    have hall : c.writeLogWordEntry (2 * (address / 2))
        { s with dataBuf := Function.update s.dataBuf address value } =
        c.compact { s with dataBuf := Function.update s.dataBuf address value } :=
      writeLogWordEntry_full hfull
    rw [hall]
    exact ⟨hcompact, hcompacted⟩
  · rw [if_neg (by simpa using hfull)]
    have heven := c.even
    have hlow : 2 * (address / 2) % 2 = 0 := by omega
    obtain ⟨hbuf, hholds⟩ := writeLogWordEntry_holds
      (h.withBuf (Function.update s.dataBuf address value)) hlow (by omega) (by omega)
      (by simpa using hfull) (by rwa [Nat.mul_div_cancel_left _ (by decide)])
    rw [setWord_byte s.dataBuf contents address value hsame] at hholds
    exact ⟨hbuf, hholds⟩

theorem writeDataByte_spec (h : FlashHolds c s contents) (address : Nat) (value : Byte)
    (hsame : ∀ x, x / 2 = address / 2 → contents x = s.dataBuf x)
    (hbeyond : ∀ x, c.density ≤ x → s.dataBuf x = 0) :
    (c.writeDataByte address value s).2.dataBuf = storeByte c address value s.dataBuf ∧
      FlashHolds c (c.writeDataByte address value s).2
        (if byteCompacts c s address value then storeByte c address value s.dataBuf
        else storeByte c address (if byteClash c s address value then 0 else value) contents) := by
  by_cases haddress : address < c.density
  swap
  · -- out of bounds, nothing is written
    have hnone : byteCompacts c s address value = false := by simp [byteCompacts, haddress]
    unfold EepromStm32.writeDataByte storeByte
    rw [if_pos (by omega), if_neg haddress, hnone, if_neg Bool.false_ne_true, if_neg haddress]
    exact ⟨rfl, h⟩
  unfold EepromStm32.writeDataByte storeByte
  rw [if_neg (by omega), if_pos haddress, if_pos haddress]
  by_cases hskip : s.dataBuf address = value
  · -- the value is there
    have hnone : byteCompacts c s address value = false := by simp [byteCompacts, hskip]
    have hkept : byteClash c s address value = false := by simp [byteClash, hskip]
    have hbuf : Function.update s.dataBuf address value = s.dataBuf := by
      rw [← hskip, Function.update_eq_self]
    have hcontents : Function.update contents address value = contents := by
      rw [← hskip, ← hsame address rfl, Function.update_eq_self]
    rw [if_pos hskip, hnone, hkept, if_neg Bool.false_ne_true, if_neg Bool.false_ne_true, hbuf,
      hcontents]
    exact ⟨rfl, h⟩
  rw [if_neg hskip]
  dsimp only
  have hbeyond' : ∀ x, c.density ≤ x → Function.update s.dataBuf address value x = 0 := by
    intro x hx
    rw [Function.update_of_ne (by omega)]
    exact hbeyond x hx
  by_cases hempty : s.flash.words (address / 2) = emptyWord
  · -- nothing is compacted for the word
    have hnone : byteCompacts c s address value = false := by simp [byteCompacts, hempty]
    have hclash : byteClash c s address value = overridden c s address value := by
      simp [byteClash, haddress, hskip, hempty]
    obtain ⟨s', hdirect, hbuf, hholds⟩ := writeDirectEntry_holds
      (h.withBuf (Function.update s.dataBuf address value)) haddress hempty
    rw [hdirect, hnone, if_neg Bool.false_ne_true, hclash,
      ← direct_byte h address value hsame haddress hempty]
    exact ⟨hbuf, hholds⟩
  · have hkept : byteClash c s address value = false := by simp [byteClash, hempty]
    have hlog : EepromStm32.writeDirectEntry address
        { s with dataBuf := Function.update s.dataBuf address value } = none := if_neg hempty
    have hcompacts : byteCompacts c s address value =
        logFull c { s with dataBuf := Function.update s.dataBuf address value } address := by
      simp [byteCompacts, haddress, hskip, hempty]
    rw [hlog, hkept, hcompacts, if_neg Bool.false_ne_true]
    dsimp only
    by_cases hlow : address < 0x80
    · rw [if_pos hlow]
      exact logByte_spec h address value haddress hempty hbeyond' hlow
    · rw [if_neg hlow]
      exact logWord_spec h address value hsame haddress hempty hbeyond' hlow

end Byte

/-- The write of a word. -/
def storeWord (c : EepromStm32) (address : Nat) (value : HalfWord) (bytes : Nat → Byte) :
    Nat → Byte :=
  if address < c.density then
    storeByte c (address + 1) ((value >>> 8).setWidth 8)
      (storeByte c address (value.setWidth 8) bytes)
  else bytes

section Word

variable {c : EepromStm32} {s : EepromState}

theorem storeWord_aligned {address : Nat} (heven : address % 2 = 0) (haddress : address < c.density)
    (value : HalfWord) (bytes : Nat → Byte) :
    storeWord c address value bytes = setWord bytes address value := by
  have hdensity := c.even
  unfold storeWord storeByte setWord
  rw [if_pos haddress, if_pos (by omega), if_pos haddress]

theorem setWord_low (dataBuf : Nat → Byte) (address : Nat) (value : HalfWord) :
    setWord dataBuf address value address = value.setWidth 8 := by
  unfold setWord
  rw [Function.update_of_ne (by omega), Function.update_self]

theorem setWord_high (dataBuf : Nat → Byte) (address : Nat) (value : HalfWord) :
    setWord dataBuf address value (address + 1) = (value >>> 8).setWidth 8 := by
  unfold setWord
  rw [Function.update_self]

theorem wordAt_setWord (dataBuf : Nat → Byte) (address : Nat) (value : HalfWord) :
    wordAt (setWord dataBuf address value) address = value := by
  unfold wordAt
  rw [setWord_low, setWord_high]
  ext i hi
  rw [BitVec.getElem_append]
  split
  next hlow => rw [BitVec.getElem_setWidth, BitVec.getLsbD_eq_getElem]
  next hhigh =>
    have hplace : 8 + (i - 8) = i := by omega
    rw [BitVec.getElem_setWidth, BitVec.getLsbD_ushiftRight, hplace, BitVec.getLsbD_eq_getElem]

theorem setWord_self (dataBuf : Nat → Byte) (address : Nat) :
    setWord dataBuf address (wordAt dataBuf address) = dataBuf := by
  unfold setWord wordAt
  rw [setWidth_append, setWidth_append_shift, Function.update_eq_self, Function.update_eq_self]

theorem writeLogByteEntry_full {address : Nat} (hfull : c.logSlots ≤ s.emptySlot) :
    c.writeLogByteEntry address s = c.compact s := if_pos hfull

theorem writeLogBytes_first {old : Nat → Byte} (h : FlashHolds c s old) {address : Nat}
    (heven : address % 2 = 0) (hlow : address < 0x80) (haddress : address < c.density)
    (value : HalfWord) (hbuf : s.dataBuf = setWord old address value)
    (hprogrammed : s.flash.words (address / 2) ≠ emptyWord)
    (hbeyond : ∀ x, c.density ≤ x → s.dataBuf x = 0) :
    let s' := if (wordAt old address).setWidth 8 ≠ value.setWidth 8 then
      c.writeLogByteEntry address s else s
    s'.dataBuf = s.dataBuf ∧
      ∃ contents, FlashHolds c s' contents ∧ (∀ x, x ≠ address + 1 → contents x = s.dataBuf x) ∧
        (contents (address + 1) = old (address + 1) ∨
          contents (address + 1) = s.dataBuf (address + 1)) ∧
        (s'.flash.words (address / 2) = emptyWord →
          s'.emptySlot = 0 ∧ s.dataBuf (address + 1) = 0) := by
  have hold : (wordAt old address).setWidth 8 = old address := setWidth_append _ _
  have hnew : s.dataBuf address = value.setWidth 8 := by rw [hbuf, setWord_low]
  have hother : ∀ x, x ≠ address → x ≠ address + 1 → old x = s.dataBuf x := by
    intro x hx hx'
    rw [hbuf, setWord, Function.update_of_ne hx', Function.update_of_ne hx]
  dsimp only
  rw [hold]
  by_cases hsame : old address = value.setWidth 8
  · rw [if_neg (not_not.mpr hsame)]
    refine ⟨rfl, old, h, fun x hx => ?_, Or.inl rfl, fun hc => absurd hc hprogrammed⟩
    by_cases hx' : x = address
    · rw [hx', hsame, hnew]
    · exact hother x hx' hx
  · rw [if_pos hsame]
    rcases Nat.lt_or_ge s.emptySlot c.logSlots with hroom | hfull
    · obtain ⟨hkept, hholds, hwords⟩ := writeLogByteEntry_holds h hlow haddress hroom
        (fun hc => absurd hc hprogrammed)
      refine ⟨hkept, _, hholds, fun x hx => ?_, Or.inl ?_, fun hc => ?_⟩
      · by_cases hx' : x = address
        · rw [hx', Function.update_self]
        · rw [Function.update_of_ne hx']
          exact hother x hx' hx
      · rw [Function.update_of_ne (by omega)]
      · rw [hwords _ (half_lt c haddress)] at hc
        exact absurd hc hprogrammed
    · rw [writeLogByteEntry_full hfull]
      obtain ⟨hkept, hslot, hholds, hwords⟩ := compact_holds h.clean hbeyond
      refine ⟨hkept, _, hholds, fun x _ => rfl, Or.inr rfl, fun hc => ⟨hslot, ?_⟩⟩
      have hzero := (hwords _ (half_lt c haddress)).mp hc
      rw [show 2 * (address / 2) = address by omega, wordAt_eq_zero] at hzero
      exact hzero.2

theorem writeLogBytes_holds {old : Nat → Byte} (h : FlashHolds c s old) {address : Nat}
    (heven : address % 2 = 0) (hlow : address < 0x80) (haddress : address < c.density)
    (value : HalfWord) (hbuf : s.dataBuf = setWord old address value)
    (hprogrammed : s.flash.words (address / 2) ≠ emptyWord)
    (hbeyond : ∀ x, c.density ≤ x → s.dataBuf x = 0) :
    (c.writeLogBytes address (wordAt old address) value s).dataBuf = s.dataBuf ∧
      FlashHolds c (c.writeLogBytes address (wordAt old address) value s) s.dataBuf := by
  have hdensity := c.even
  have hold : (wordAt old address >>> 8).setWidth 8 = old (address + 1) :=
    setWidth_append_shift _ _
  have hnew : s.dataBuf (address + 1) = (value >>> 8).setWidth 8 := by rw [hbuf, setWord_high]
  obtain ⟨hkept, contents, hholds, hothers, hsecond, hstale⟩ :=
    writeLogBytes_first h heven hlow haddress value hbuf hprogrammed hbeyond
  unfold EepromStm32.writeLogBytes
  dsimp only
  generalize (if (wordAt old address).setWidth 8 ≠ value.setWidth 8 then
    c.writeLogByteEntry address s else s) = s' at hkept hholds hstale ⊢
  have hhalf : (address + 1) / 2 = address / 2 := by omega
  by_cases hsame : wordAt old address >>> 8 = value >>> 8
  · rw [if_neg (not_not.mpr hsame)]
    refine ⟨hkept, ?_⟩
    have hcontents : contents = s.dataBuf := by
      funext x
      by_cases hx : x = address + 1
      · rw [hx]
        rcases hsecond with hc | hc
        · rw [hc, hnew, ← hold, hsame]
        · exact hc
      · exact hothers x hx
    rwa [← hcontents]
  · rw [if_pos hsame]
    rcases Nat.lt_or_ge s'.emptySlot c.logSlots with hroom | hfull
    · obtain ⟨hkept', hholds', -⟩ := writeLogByteEntry_holds hholds
        (show address + 1 < 0x80 by omega) (by omega) hroom (by rw [hhalf, hkept]; exact hstale)
      refine ⟨hkept'.trans hkept, ?_⟩
      have hcontents : Function.update contents (address + 1) (s'.dataBuf (address + 1)) =
          s.dataBuf := by
        funext x
        by_cases hx : x = address + 1
        · rw [hx, Function.update_self, hkept]
        · rw [Function.update_of_ne hx]
          exact hothers x hx
      rwa [← hcontents]
    · rw [writeLogByteEntry_full hfull]
      obtain ⟨hkept', -, hholds', -⟩ := compact_holds hholds.clean (by rwa [hkept])
      rw [hkept] at hkept' hholds'
      exact ⟨hkept', hholds'⟩

theorem direct_contents (h : Sound c s) {address : Nat} (heven : address % 2 = 0)
    (haddress : address < c.density) (value : HalfWord)
    (hempty : s.flash.words (address / 2) = emptyWord) :
    (fun x => if x / 2 = address / 2 then
        if overridden c s x (setWord s.dataBuf address value x) then 0
        else setWord s.dataBuf address value x else s.dataBuf x) =
        setWord s.dataBuf address value ↔
      overridden c s address (value.setWidth 8) = false ∧
        overridden c s (address + 1) ((value >>> 8).setWidth 8) = false := by
  have hdensity := c.even
  have hhalf : (address + 1) / 2 = address / 2 := by omega
  obtain ⟨entries, hstored⟩ := h
  -- a byte that is overridden is not 0
  have hbyte : ∀ x, x / 2 = address / 2 → ((if overridden c s x (setWord s.dataBuf address value x)
      then 0 else setWord s.dataBuf address value x) = setWord s.dataBuf address value x ↔
        overridden c s x (setWord s.dataBuf address value x) = false) := by
    intro x hx
    cases hover : overridden c s x (setWord s.dataBuf address value x) with
    | false => exact ⟨fun _ => rfl, fun _ => if_neg Bool.false_ne_true⟩
    | true =>
      rw [if_pos rfl]
      refine ⟨fun hc => ?_, fun hc => Bool.noConfusion hc⟩
      exact absurd hc.symm
        (hstored.overridden_zero (by omega) (by rw [hx]; exact hempty) hover).2
  have hlow := hbyte address rfl
  have hhigh := hbyte (address + 1) hhalf
  constructor
  · intro hall
    have hlow' := congrFun hall address
    have hhigh' := congrFun hall (address + 1)
    rw [if_pos rfl, hlow, setWord_low] at hlow'
    rw [if_pos hhalf, hhigh, setWord_high] at hhigh'
    exact ⟨hlow', hhigh'⟩
  · rintro ⟨hlow', hhigh'⟩
    rw [setWord_low] at hlow
    rw [setWord_high] at hhigh
    funext x
    by_cases hx : x / 2 = address / 2
    · rw [if_pos hx]
      by_cases hx' : x = address
      · rw [hx', setWord_low]
        exact hlow.mpr hlow'
      · have hx'' : x = address + 1 := by omega
        rw [hx'', setWord_high]
        exact hhigh.mpr hhigh'
    · rw [if_neg hx, setWord, Function.update_of_ne (by omega), Function.update_of_ne (by omega)]

theorem writeDataWord_aligned (h : Sound c s) {address : Nat} (heven : address % 2 = 0)
    (value : HalfWord) :
    (c.writeDataWord address value s).2.dataBuf = storeWord c address value s.dataBuf ∧
      ∃ contents, FlashHolds c (c.writeDataWord address value s).2 contents ∧
        (contents = storeWord c address value s.dataBuf ↔
          wordClash c s address value = false) := by
  have hbeyond : ∀ x, c.density ≤ x → s.dataBuf x = 0 := fun x hx => FlashHolds.beyond h hx
  by_cases haddress : address < c.density
  swap
  · have hnone : wordClash c s address value = false := by simp [wordClash, haddress]
    unfold EepromStm32.writeDataWord storeWord
    rw [if_pos (by omega), if_neg haddress]
    exact ⟨rfl, s.dataBuf, h, fun _ => hnone, fun _ => rfl⟩
  have hdensity := c.even
  rw [storeWord_aligned heven haddress]
  unfold EepromStm32.writeDataWord
  rw [if_neg (by omega), if_neg (by omega)]
  by_cases hskip : wordAt s.dataBuf address = value
  · -- the word is there already, and nothing is written
    have hnone : wordClash c s address value = false := by simp [wordClash, hskip]
    rw [if_pos hskip, ← hskip, setWord_self]
    exact ⟨rfl, s.dataBuf, h, fun _ => hskip ▸ hnone, fun _ => rfl⟩
  rw [if_neg hskip]
  dsimp only
  have hbeyond' : ∀ x, c.density ≤ x → setWord s.dataBuf address value x = 0 := by
    intro x hx
    rw [setWord, Function.update_of_ne (by omega), Function.update_of_ne (by omega)]
    exact hbeyond x hx
  have hthere := FlashHolds.withBuf h (setWord s.dataBuf address value)
  by_cases hempty : s.flash.words (address / 2) = emptyWord
  · obtain ⟨s', hdirect, hbuf, hholds⟩ := writeDirectEntry_holds hthere haddress hempty
    rw [hdirect]
    refine ⟨hbuf, _, hholds, ?_⟩
    have hclash : wordClash c s address value = (overridden c s address (value.setWidth 8) ||
        overridden c s (address + 1) ((value >>> 8).setWidth 8)) := by
      simp [wordClash, haddress, hskip, hempty]
    rw [hclash, Bool.or_eq_false_iff]
    exact direct_contents h heven haddress value hempty
  · have hnone : wordClash c s address value = false := by simp [wordClash, hempty]
    -- the halfword is in use, so the word goes into the log
    have hlog : EepromStm32.writeDirectEntry address
        { s with dataBuf := setWord s.dataBuf address value } = none := if_neg hempty
    rw [hlog]
    dsimp only
    by_cases hlow : address < 0x80
    · rw [if_pos hlow]
      dsimp only
      obtain ⟨hbuf, hholds⟩ := writeLogBytes_holds
        (s := { s with dataBuf := setWord s.dataBuf address value }) hthere heven hlow haddress
        value rfl hempty hbeyond'
      exact ⟨hbuf, _, hholds, fun _ => hnone, fun _ => rfl⟩
    · rw [if_neg hlow]
      dsimp only
      by_cases hfull : c.logSlots <
          s.emptySlot + logSize (wordAt (setWord s.dataBuf address value) address)
      · -- the log is full, and compacting writes the buffer as it is
        rw [writeLogWordEntry_full (s := { s with dataBuf := setWord s.dataBuf address value })
          hfull]
        obtain ⟨hbuf, -, hholds, -⟩ := compact_holds
          (s := { s with dataBuf := setWord s.dataBuf address value }) (FlashHolds.clean hthere)
          hbeyond'
        exact ⟨hbuf, _, hholds, fun _ => hnone, fun _ => rfl⟩
      · obtain ⟨hbuf, hholds⟩ := writeLogWordEntry_holds
          (s := { s with dataBuf := setWord s.dataBuf address value }) hthere heven (by omega)
          haddress (Nat.le_of_not_lt hfull) hempty
        refine ⟨hbuf, _, hholds, fun _ => hnone, fun _ => ?_⟩
        dsimp only
        rw [wordAt_setWord]

end Word

end Stm32

end K530
