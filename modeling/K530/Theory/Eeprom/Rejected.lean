import K530.Theory.Eeprom.ByteArray

/-!
# Writes That Are Rejected

A write to an address beyond the EEPROM is rejected and changes nothing. A word
at the last address would have its second byte beyond, and is not rejected as a
whole: being unaligned it is written as two bytes, each of which is checked by
itself. The first is written and the second is rejected, and that is what the
function returns. So nothing is changed only if the first byte was there already.

A write that is not rejected is always read back, whatever becomes of the flash,
because `DataBuf` is written before it.

## Main definitions

* `FlashDriver.Tame`: An operation leaves `DataBuf` and is not rejected.

## Theorems

* `FlashDriver.compact_tame`, `FlashDriver.writeLogWordEntry_tame`,
  `FlashDriver.writeLogByteEntry_tame`: The operations.
* `rejects_whole_iff`: When a rejected write changes nothing.
-/

namespace K530

open Stm32

namespace FlashDriver

variable {c : EepromStm32} {σ : Type} (d : FlashDriver c σ)

def Tame (s : DrivenEeprom σ) (r : Option Stm32FlashStatus × DrivenEeprom σ) : Prop :=
  r.2.dataBuf = s.dataBuf ∧ r.1 ≠ some .badAddress

theorem finalStatus_tame {final status : Option Stm32FlashStatus}
    (hfinal : final ≠ some .badAddress)
    (hstatus : status ≠ some .badAddress) : finalStatus final status ≠ some .badAddress := by
  unfold finalStatus
  by_cases h : status ≠ some .complete
  · rwa [if_pos h]
  · rwa [if_neg h]

theorem program_tame {place : Nat} (hplace : place < c.words + c.logSlots) (value : HalfWord)
    (s : DrivenEeprom σ) : Tame s (d.program place value s) :=
  ⟨rfl, fun h => d.inFlash place value s.flash hplace (Option.some.inj h)⟩

theorem appendLog_tame {s : DrivenEeprom σ} (hslot : s.emptySlot < c.logSlots)
    (value : HalfWord) :
    Tame s (d.appendLog value s) ∧ (d.appendLog value s).2.emptySlot = s.emptySlot + 1 :=
  ⟨d.program_tame (Nat.add_lt_add_left hslot _) value s, rfl⟩

theorem compactWords_tame (places : List Nat) (hplaces : ∀ place ∈ places, place < c.words)
    (s : DrivenEeprom σ) (x : Option Stm32FlashStatus × DrivenEeprom σ) (h : Tame s x) :
    Tame s (places.foldl d.compactWord x) := by
  induction places generalizing x with
  | nil => exact h
  | cons place places ih =>
    rw [List.foldl_cons]
    refine ih (fun p hp => hplaces p (List.mem_cons_of_mem _ hp)) _ ?_
    unfold compactWord
    by_cases hzero : wordAt x.2.dataBuf (2 * place) ≠ 0
    · rw [if_pos hzero]
      have hplace := hplaces place List.mem_cons_self
      have hprogram := d.program_tame (Nat.lt_add_right _ hplace)
        (~~~ wordAt x.2.dataBuf (2 * place)) x.2
      exact ⟨hprogram.1.trans h.1, finalStatus_tame h.2 hprogram.2⟩
    · rwa [if_neg hzero]

theorem compact_tame (s : DrivenEeprom σ) : Tame s (d.compact s) :=
  d.compactWords_tame _ (fun _ h => List.mem_range.mp h) s _ ⟨rfl, by simp⟩

variable {address : Nat}

theorem writeDirectEntry_tame (haddress : address < c.density) (s : DrivenEeprom σ) :
    Tame s (d.writeDirectEntry address s) := by
  unfold writeDirectEntry
  by_cases hblank : d.words s.flash (address / 2) = emptyWord
  · rw [if_pos hblank]
    by_cases hzero : ~~~ wordAt s.dataBuf (2 * (address / 2)) = emptyWord
    · rw [if_pos hzero]
      exact ⟨rfl, by simp⟩
    · rw [if_neg hzero]
      exact d.program_tame (Nat.lt_add_right _ (half_lt c haddress)) _ s
  · rw [if_neg hblank]
    exact ⟨rfl, by simp⟩

theorem writeLogWordEntry_tame (address : Nat) (s : DrivenEeprom σ) :
    Tame s (d.writeLogWordEntry address s) := by
  unfold writeLogWordEntry
  by_cases hshort : wordAt s.dataBuf address ≤ 1
  · rw [if_pos hshort]
    by_cases hfull : s.emptySlot + 1 > c.logSlots
    · rw [if_pos hfull]
      exact d.compact_tame s
    · rw [if_neg hfull]
      exact (d.appendLog_tame (by omega) _).1
  · rw [if_neg hshort]
    by_cases hfull : s.emptySlot + 2 > c.logSlots
    · rw [if_pos hfull]
      exact d.compact_tame s
    · -- There is room for both halves of the entry.
      rw [if_neg hfull]
      obtain ⟨hhead, hslot⟩ := d.appendLog_tame (s := s) (by omega)
        (((BitVec.ofNat 16 address - 0x80) >>> 1) ||| (0x8000 ||| 0x6000))
      have hvalue := (d.appendLog_tame (s := (d.appendLog (((BitVec.ofNat 16 address - 0x80) >>> 1)
        ||| (0x8000 ||| 0x6000)) s).2) (by omega) (~~~ wordAt s.dataBuf address)).1
      exact ⟨hvalue.1.trans hhead.1, finalStatus_tame hhead.2 hvalue.2⟩

theorem writeLogByteEntry_tame (address : Nat) (s : DrivenEeprom σ) :
    Tame s (d.writeLogByteEntry address s) := by
  unfold writeLogByteEntry
  by_cases hfull : s.emptySlot ≥ c.logSlots
  · rw [if_pos hfull]
    exact d.compact_tame s
  · rw [if_neg hfull]
    exact (d.appendLog_tame (by omega) _).1

theorem writeLogBytes_tame (address : Nat) (old value : HalfWord) (s : DrivenEeprom σ) :
    Tame s (d.writeLogBytes address old value s) := by
  have hstep : ∀ (address : Nat) (changed : Prop) [Decidable changed] (s : DrivenEeprom σ),
      Tame s (if changed then d.writeLogByteEntry address s else (some .complete, s)) := by
    intro address changed _ s
    by_cases h : changed
    · rw [if_pos h]
      exact d.writeLogByteEntry_tame address s
    · rw [if_neg h]
      exact ⟨rfl, by simp⟩
  -- Each byte that differs has an entry of its own, and the status is that of the two.
  have hlow := hstep address (old.setWidth 8 ≠ value.setWidth 8) s
  have hhigh := hstep (address + 1) (old >>> 8 ≠ value >>> 8)
    (if old.setWidth 8 ≠ value.setWidth 8 then d.writeLogByteEntry address s
      else (some .complete, s)).2
  exact ⟨hhigh.1.trans hlow.1, finalStatus_tame hlow.2 hhigh.2⟩

/-! ### The functions -/

theorem writeDataByte_spec (address : Nat) (value : Byte) (s : DrivenEeprom σ) :
    (c.density ≤ address ∧ d.writeDataByte address value s = (some .badAddress, s)) ∨
    (address < c.density ∧
      (d.writeDataByte address value s).2.dataBuf = Function.update s.dataBuf address value ∧
      (d.writeDataByte address value s).1 ≠ some .badAddress ∧
      (s.dataBuf address = value → d.writeDataByte address value s = (none, s))) := by
  unfold writeDataByte
  by_cases hbeyond : address ≥ c.density
  · rw [if_pos hbeyond]
    exact Or.inl ⟨hbeyond, rfl⟩
  rw [if_neg hbeyond]
  refine Or.inr ⟨Nat.lt_of_not_le hbeyond, ?_⟩
  by_cases hsame : s.dataBuf address = value
  · -- The byte is there already, and nothing is written.
    rw [if_pos hsame, ← hsame, Function.update_eq_self]
    exact ⟨rfl, by simp, fun _ => rfl⟩
  rw [if_neg hsame]
  -- Whatever is done about the flash leaves `DataBuf` as it has just been written.
  have hdirect := d.writeDirectEntry_tame (Nat.lt_of_not_le hbeyond)
    { s with dataBuf := Function.update s.dataBuf address value }
  have hbyte := d.writeLogByteEntry_tame address (d.writeDirectEntry address
    { s with dataBuf := Function.update s.dataBuf address value }).2
  have hword := d.writeLogWordEntry_tame (2 * (address / 2)) (d.writeDirectEntry address
    { s with dataBuf := Function.update s.dataBuf address value }).2
  dsimp only
  split
  · split
    · exact ⟨hbyte.1.trans hdirect.1, hbyte.2, fun h => absurd h hsame⟩
    · exact ⟨hword.1.trans hdirect.1, hword.2, fun h => absurd h hsame⟩
  · exact ⟨hdirect.1, hdirect.2, fun h => absurd h hsame⟩

theorem writeDataWord_even (haddress : address < c.density) (heven : ¬ address % 2 = 1)
    (value : HalfWord) (s : DrivenEeprom σ) :
    (d.writeDataWord address value s).2.dataBuf = setWord s.dataBuf address value ∧
      (d.writeDataWord address value s).1 ≠ some .badAddress := by
  unfold writeDataWord
  rw [if_neg (Nat.not_le.mpr haddress), if_neg heven]
  by_cases hsame : wordAt s.dataBuf address = value
  · rw [if_pos hsame, ← hsame, setWord_self]
    exact ⟨rfl, by simp⟩
  rw [if_neg hsame]
  -- The word is in `DataBuf` before the flash is touched, and stays there.
  have hdirect := d.writeDirectEntry_tame haddress
    { s with dataBuf := setWord s.dataBuf address value }
  have hbytes := d.writeLogBytes_tame address (wordAt s.dataBuf address) value
    (d.writeDirectEntry address { s with dataBuf := setWord s.dataBuf address value }).2
  have hword := d.writeLogWordEntry_tame address
    (d.writeDirectEntry address { s with dataBuf := setWord s.dataBuf address value }).2
  dsimp only
  split
  · split
    · exact ⟨hbytes.1.trans hdirect.1, hbytes.2⟩
    · exact ⟨hword.1.trans hdirect.1, hword.2⟩
  · exact hdirect

theorem readDataWord_of_bytes (haddress : address + 1 < c.density) {value : HalfWord}
    {s : DrivenEeprom σ} (hlow : s.dataBuf address = value.setWidth 8)
    (hhigh : s.dataBuf (address + 1) = (value >>> 8).setWidth 8) :
    readDataWord c address s = value := by
  have hword : wordAt s.dataBuf address = value := by
    rw [← wordAt_setWord s.dataBuf address value]
    unfold wordAt
    rw [setWord_low, setWord_high, hlow, hhigh]
  -- An unaligned word is put together in the same way.
  have hread := readDataWord_eq address haddress
    { flash := .new emptyWord, dataBuf := s.dataBuf, emptySlot := s.emptySlot }
  exact hread.trans hword

/-- What is said of a write of a byte or a word: if it is rejected it changes
    nothing, and a word that is not is read back. -/
structure RejectsWhole (address : Nat) (value : HalfWord) (s : DrivenEeprom σ) : Prop where
  byte : ∀ b, (d.writeDataByte address b s).1 = some .badAddress →
    (d.writeDataByte address b s).2.dataBuf = s.dataBuf ∧
      (d.writeDataByte address b s).2.flash = s.flash
  word : (d.writeDataWord address value s).1 = some .badAddress →
    (d.writeDataWord address value s).2.dataBuf = s.dataBuf ∧
      (d.writeDataWord address value s).2.flash = s.flash
  readBack : (d.writeDataWord address value s).1 = none ∨
      (d.writeDataWord address value s).1 = some .complete →
    readDataWord c address (d.writeDataWord address value s).2 = value

theorem writeDataByte_rejected {value : Byte} {s : DrivenEeprom σ}
    (h : (d.writeDataByte address value s).1 = some .badAddress) :
    (d.writeDataByte address value s).2 = s := by
  rcases d.writeDataByte_spec address value s with ⟨_, heq⟩ | ⟨_, _, hnot, _⟩
  · rw [heq]
  · exact absurd h hnot

theorem writeDataWord_odd (haddress : address < c.density) (hodd : address % 2 = 1)
    (value : HalfWord) (s : DrivenEeprom σ) :
    ∀ low high, low = d.writeDataByte address (value.setWidth 8) s →
      high = d.writeDataByte (address + 1) ((value >>> 8).setWidth 8) low.2 →
      d.writeDataWord address value s = (finalStatus low.1 high.1, high.2) := by
  intro low high hlow hhigh
  unfold writeDataWord
  rw [if_neg (Nat.not_le.mpr haddress), if_pos hodd, hhigh, hlow]

theorem writeDataWord_last (hlast : address + 1 = c.density) (value : HalfWord)
    (s : DrivenEeprom σ) :
    d.writeDataWord address value s =
      (some .badAddress, (d.writeDataByte address (value.setWidth 8) s).2) := by
  have heven := c.even
  rw [d.writeDataWord_odd (by omega) (by omega) value s _ _ rfl rfl]
  rcases d.writeDataByte_spec (address + 1) ((value >>> 8).setWidth 8)
    (d.writeDataByte address (value.setWidth 8) s).2 with ⟨_, hhigh⟩ | ⟨hlt, _⟩
  · rw [hhigh]
    rfl
  · omega

theorem writeDataWord_inside (haddress : address + 1 < c.density) (hodd : address % 2 = 1)
    (value : HalfWord) (s : DrivenEeprom σ) :
    (d.writeDataWord address value s).1 ≠ some .badAddress ∧
      readDataWord c address (d.writeDataWord address value s).2 = value := by
  rcases d.writeDataByte_spec address (value.setWidth 8) s with ⟨hle, _⟩ | ⟨_, hlow, hlowOk, _⟩
  · omega
  rcases d.writeDataByte_spec (address + 1) ((value >>> 8).setWidth 8)
    (d.writeDataByte address (value.setWidth 8) s).2 with ⟨hle, _⟩ | ⟨_, hhigh, hhighOk, _⟩
  · omega
  rw [d.writeDataWord_odd (by omega) hodd value s _ _ rfl rfl]
  refine ⟨finalStatus_tame hlowOk hhighOk, readDataWord_of_bytes haddress ?_ ?_⟩
  · rw [hhigh, Function.update_of_ne (by omega), hlow, Function.update_self]
  · rw [hhigh, Function.update_self]

end FlashDriver

variable {c : EepromStm32} {σ : Type}

open FlashDriver in
/-- A write is as it should be unless it is of a word at the last address whose
    first byte is not there yet. -/
theorem rejects_whole_iff (d : FlashDriver c σ) (address : Nat) (value : HalfWord)
    (s : DrivenEeprom σ) :
    d.RejectsWhole address value s ↔
      (address + 1 = c.density → s.dataBuf address = value.setWidth 8) := by
  constructor
  · intro h hlast
    have hword := h.word
    rw [d.writeDataWord_last hlast] at hword
    -- The first byte is in `DataBuf` now, and was before if nothing has changed.
    have hsame := congrFun (hword rfl).1 address
    rcases d.writeDataByte_spec address (value.setWidth 8) s with ⟨hle, _⟩ | ⟨_, hlow, _⟩
    · omega
    · rw [hlow, Function.update_self] at hsame
      exact hsame.symm
  · intro h
    suffices hword : ((d.writeDataWord address value s).1 = some .badAddress →
        (d.writeDataWord address value s).2.dataBuf = s.dataBuf ∧
          (d.writeDataWord address value s).2.flash = s.flash) ∧
        ((d.writeDataWord address value s).1 = none ∨
            (d.writeDataWord address value s).1 = some .complete →
          readDataWord c address (d.writeDataWord address value s).2 = value) from
      ⟨fun b hb => by rw [d.writeDataByte_rejected hb]; exact ⟨rfl, rfl⟩, hword.1, hword.2⟩
    by_cases hbeyond : address ≥ c.density
    · have hrejected : d.writeDataWord address value s = (some .badAddress, s) := if_pos hbeyond
      -- A word that begins beyond is rejected as a whole.
      rw [hrejected]
      exact ⟨fun _ => ⟨rfl, rfl⟩, by simp⟩
    have haddress := Nat.lt_of_not_le hbeyond
    by_cases hlast : address + 1 = c.density
    · rw [d.writeDataWord_last hlast]
      refine ⟨fun _ => ?_, by simp⟩
      rcases d.writeDataByte_spec address (value.setWidth 8) s with ⟨hle, _⟩ | ⟨_, _, _, hsame⟩
      · omega
      · -- The first byte is there already, so writing it does nothing.
        rw [hsame (h hlast)]
        exact ⟨rfl, rfl⟩
    by_cases hodd : address % 2 = 1
    · -- Neither byte is rejected, and the word is put together from the two.
      obtain ⟨hok, hread⟩ := d.writeDataWord_inside (by omega) hodd value s
      exact ⟨fun hbad => absurd hbad hok, fun _ => hread⟩
    · obtain ⟨hbuf, hok⟩ := d.writeDataWord_even haddress hodd value s
      have heven := c.even
      refine ⟨fun hbad => absurd hbad hok, fun _ => readDataWord_of_bytes (by omega) ?_ ?_⟩
      · rw [hbuf, setWord_low]
      · rw [hbuf, setWord_high]

/-- Two pages of 1 KiB, half of them for the log. -/
def twoPages : EepromStm32 :=
  { density := 1024, logSlots := 512, even := rfl, small := by decide }

/-- The word 0x0101 written to the last address of an erased EEPROM is rejected,
    and its first byte is there. -/
theorem rejects_whole_broken :
    ¬ ∀ (address : Nat) (value : HalfWord) (s : DrivenEeprom (Flash.Device HalfWord)),
      (FlashDriver.reliable twoPages).RejectsWhole address value s := by
  intro h
  have hword := (h 1023 0x0101
    { flash := .new emptyWord, dataBuf := fun _ => 0, emptySlot := 0 }).word (by decide +kernel)
  exact absurd (congrFun hword.1 1023) (by decide +kernel)

/-! ### On a flash that does not fail -/

namespace EepromState

def driven (s : EepromState) : DrivenEeprom (Flash.Device HalfWord) :=
  { flash := s.flash, dataBuf := s.dataBuf, emptySlot := s.emptySlot }

end EepromState

def WriteStatus.flashStatus : WriteStatus → Option Stm32FlashStatus
  | skipped => none
  | complete => some .complete
  | badAddress => some .badAddress

namespace FlashDriver

theorem reliable_compact (s : EepromState) :
    (reliable c).compact s.driven = (some .complete, (c.compact s).driven) := by
  unfold compact EepromStm32.compact
  have hfold : ∀ (places : List Nat) (s : EepromState),
      places.foldl (reliable c).compactWord (some .complete, s.driven) =
        (some .complete, (places.foldl EepromStm32.compactWord s).driven) := by
    intro places
    induction places with
    | nil => exact fun s => rfl
    | cons place places ih =>
      intro s
      rw [List.foldl_cons, List.foldl_cons, ← ih]
      congr 1
      unfold compactWord EepromStm32.compactWord
      by_cases hzero : wordAt s.dataBuf (2 * place) ≠ 0
      · rw [if_pos hzero, if_pos (show wordAt s.driven.dataBuf (2 * place) ≠ 0 from hzero)]
        rfl
      · rw [if_neg hzero, if_neg (show ¬ wordAt s.driven.dataBuf (2 * place) ≠ 0 from hzero)]
  exact hfold _ (EepromStm32.clear s)

variable (address : Nat)

theorem reliable_writeDirectEntry (s : EepromState) :
    (reliable c).writeDirectEntry address s.driven =
      match EepromStm32.writeDirectEntry address s with
      | some s => (some .complete, s.driven)
      | none => (none, s.driven) := by
  unfold writeDirectEntry EepromStm32.writeDirectEntry
  change (if s.flash.words (address / 2) = emptyWord then
    if ~~~ wordAt s.dataBuf (2 * (address / 2)) = emptyWord then _ else _ else _) = _
  split
  · split <;> rfl
  · rfl

theorem reliable_writeLogWordEntry (s : EepromState) :
    (reliable c).writeLogWordEntry address s.driven =
      (some .complete, (c.writeLogWordEntry address s).driven) := by
  unfold writeLogWordEntry EepromStm32.writeLogWordEntry
  change (if wordAt s.dataBuf address ≤ 1 then
      if s.emptySlot + 1 > c.logSlots then (reliable c).compact s.driven else _
    else if s.emptySlot + 2 > c.logSlots then (reliable c).compact s.driven else _) = _
  rw [reliable_compact]
  dsimp only
  split
  · split <;> rfl
  · split <;> rfl

theorem reliable_writeLogByteEntry (s : EepromState) :
    (reliable c).writeLogByteEntry address s.driven =
      (some .complete, (c.writeLogByteEntry address s).driven) := by
  unfold writeLogByteEntry EepromStm32.writeLogByteEntry
  change (if s.emptySlot ≥ c.logSlots then (reliable c).compact s.driven else _) = _
  rw [reliable_compact]
  split <;> rfl

theorem reliable_writeDataByte (value : Byte) (s : EepromState) :
    (reliable c).writeDataByte address value s.driven =
      ((c.writeDataByte address value s).1.flashStatus,
        (c.writeDataByte address value s).2.driven) := by
  have hdirect : (reliable c).writeDirectEntry address
      { s.driven with dataBuf := Function.update s.driven.dataBuf address value } = _ :=
    reliable_writeDirectEntry address
      { s with dataBuf := Function.update s.dataBuf address value }
  unfold writeDataByte EepromStm32.writeDataByte
  by_cases hbeyond : address ≥ c.density
  · rw [if_pos hbeyond, if_pos hbeyond]
    rfl
  rw [if_neg hbeyond, if_neg hbeyond]
  by_cases hsame : s.dataBuf address = value
  · rw [if_pos hsame, if_pos (show s.driven.dataBuf address = value from hsame)]
    rfl
  rw [if_neg hsame, if_neg (show ¬ s.driven.dataBuf address = value from hsame)]
  rw [hdirect]
  dsimp only
  -- Either the word is written in its place, or the write goes to the log.
  generalize EepromStm32.writeDirectEntry address
      { s with dataBuf := Function.update s.dataBuf address value } = direct
  cases direct with
  | some s' => rfl
  | none =>
    dsimp only
    rw [if_pos rfl]
    by_cases hlow : address < 0x80
    · rw [if_pos hlow, if_pos hlow, reliable_writeLogByteEntry]
      rfl
    · rw [if_neg hlow, if_neg hlow, reliable_writeLogWordEntry]
      rfl

theorem reliable_writeLogBytes (old value : HalfWord) (s : EepromState) :
    (reliable c).writeLogBytes address old value s.driven =
      (some .complete, (c.writeLogBytes address old value s).driven) := by
  have hstep : ∀ (address : Nat) (changed : Prop) [Decidable changed] (s : EepromState),
      (if changed then (reliable c).writeLogByteEntry address s.driven
        else (some .complete, s.driven)) =
      (some .complete, (if changed then c.writeLogByteEntry address s else s).driven) := by
    intro address changed _ s
    by_cases h : changed
    · rw [if_pos h, if_pos h, reliable_writeLogByteEntry]
    · rw [if_neg h, if_neg h]
  unfold writeLogBytes EepromStm32.writeLogBytes
  rw [hstep]
  dsimp only
  rw [hstep]
  rfl

theorem finalStatus_flashStatus (final status : WriteStatus) :
    finalStatus final.flashStatus status.flashStatus =
      (if status ≠ .complete then status else final).flashStatus := by
  cases status <;> rfl

theorem reliable_writeDataWord (value : HalfWord) (s : EepromState) :
    (reliable c).writeDataWord address value s.driven =
      ((c.writeDataWord address value s).1.flashStatus,
        (c.writeDataWord address value s).2.driven) := by
  have hdirect : (reliable c).writeDirectEntry address
      { s.driven with dataBuf := setWord s.driven.dataBuf address value } = _ :=
    reliable_writeDirectEntry address { s with dataBuf := setWord s.dataBuf address value }
  unfold writeDataWord EepromStm32.writeDataWord
  by_cases hbeyond : address ≥ c.density
  · rw [if_pos hbeyond, if_pos hbeyond]
    rfl
  rw [if_neg hbeyond, if_neg hbeyond]
  by_cases hodd : address % 2 = 1
  · rw [if_pos hodd, if_pos hodd, reliable_writeDataByte]
    dsimp only
    rw [reliable_writeDataByte]
    dsimp only
    rw [finalStatus_flashStatus]
  rw [if_neg hodd, if_neg hodd]
  by_cases hsame : wordAt s.dataBuf address = value
  · rw [if_pos hsame, if_pos (show wordAt s.driven.dataBuf address = value from hsame)]
    rfl
  rw [if_neg hsame, if_neg (show ¬ wordAt s.driven.dataBuf address = value from hsame)]
  rw [hdirect]
  dsimp only
  generalize EepromStm32.writeDirectEntry address
      { s with dataBuf := setWord s.dataBuf address value } = direct
  cases direct with
  | some s' => rfl
  | none =>
    dsimp only
    rw [if_pos rfl]
    by_cases hlow : address < 0x80
    · rw [if_pos hlow, if_pos hlow]
      exact reliable_writeLogBytes address (wordAt s.dataBuf address) value _
    · rw [if_neg hlow, if_neg hlow, reliable_writeLogWordEntry]
      rfl

end FlashDriver

end K530
