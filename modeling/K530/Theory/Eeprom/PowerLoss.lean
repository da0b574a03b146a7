import K530.Theory.Eeprom.ByteArray

/-!
# The EEPROM and a Loss of Power

The power may go between any two programs of a write. `EEPROM_Init` then makes
something of the flash as it is, and what it makes is what was there, with some
of the bytes that were to be written: the old value or the new one of each. The
one entry of two halfwords is no exception, because `EEPROM_Init` takes its first
half for an entry that does nothing.

A write that compacts is left out, since it begins by erasing everything.

`Cuts` is what the flash holds after a cut between two devices. It is proved of
the three places a write can go to, and put together by `Cuts.trans`.

## Main definitions

* `Cuts`: Wherever the power goes, the flash holds contents with a property.

## Theorems

* `power_loss`: Every run, with any number of cuts.
* `power_loss_broken`: A cut after a word was written as 0 with the log full.
-/

namespace K530

namespace Stm32

open Flash
open StepRun

def Cuts (c : EepromStm32) (d d' : Flash.Device HalfWord) (P : (Nat → Byte) → Prop) : Prop :=
  ∃ ops, Since emptyWord d d' ops ∧ (NoErase ops → ∀ k, ∃ emptySlot contents,
    FlashHolds c { flash := d.cut emptyWord k d', dataBuf := fun _ => 0, emptySlot } contents ∧
      P contents)

variable {c : EepromStm32} {s s' : EepromState} {contents contents' : Nat → Byte}
  {P : (Nat → Byte) → Prop}

theorem FlashHolds.alone (h : FlashHolds c s contents) :
    FlashHolds c { flash := s.flash, dataBuf := fun _ => 0, emptySlot := s.emptySlot } contents :=
  h.withBuf _

theorem Cuts.short (h : FlashHolds c s contents) (hP : P contents)
    (h' : FlashHolds c s' contents') (hP' : P contents') {ops : List (Op HalfWord)}
    (hsince : Since emptyWord s.flash s'.flash ops) (hshort : ops.length ≤ 1) :
    Cuts c s.flash s'.flash P := by
  refine ⟨ops, hsince, fun _ k => ?_⟩
  cases k with
  | zero =>
    rw [cut_zero]
    exact ⟨s.emptySlot, contents, h.alone, hP⟩
  | succ k =>
    rw [hsince.cut_all (by omega)]
    exact ⟨s'.emptySlot, contents', h'.alone, hP'⟩

theorem Cuts.trans {d d' d'' : Flash.Device HalfWord} (h : Cuts c d d' P) (h' : Cuts c d' d'' P) :
    Cuts c d d'' P := by
  obtain ⟨ops, hsince, hcuts⟩ := h
  obtain ⟨ops', hsince', hcuts'⟩ := h'
  refine ⟨ops ++ ops', hsince.trans hsince', fun hno k => ?_⟩
  rw [cut_trans hsince hsince']
  split
  · exact hcuts (fun op hop => hno op (List.mem_append_left _ hop)) k
  · exact hcuts' (fun op hop => hno op (List.mem_append_right _ hop)) _

theorem Cuts.imp {d d' : Flash.Device HalfWord} (h : Cuts c d d' P) {Q : (Nat → Byte) → Prop}
    (himp : ∀ contents, P contents → Q contents) : Cuts c d d' Q := by
  obtain ⟨ops, hsince, hcuts⟩ := h
  refine ⟨ops, hsince, fun hno k => ?_⟩
  obtain ⟨emptySlot, contents, hholds, hP⟩ := hcuts hno k
  exact ⟨emptySlot, contents, hholds, himp contents hP⟩

/-! ### The places a write can go to -/

theorem program_since (place : Nat) (value : HalfWord) (s : EepromState) :
    Since emptyWord s.flash (EepromStm32.program place value s).flash [.program place value] :=
  since_issue emptyWord _ s.flash

theorem appendLog_since (value : HalfWord) (s : EepromState) :
    Since emptyWord s.flash (c.appendLog value s).flash
      [.program (c.words + s.emptySlot) value] :=
  since_issue emptyWord _ s.flash

theorem compactWord_since (s : EepromState) (place : Nat) :
    ∃ ops, Since emptyWord s.flash (EepromStm32.compactWord s place).flash ops := by
  unfold EepromStm32.compactWord
  split
  · exact ⟨_, program_since place _ s⟩
  · exact ⟨[], since_refl emptyWord s.flash⟩

theorem compactWords_since (s : EepromState) (k : Nat) :
    ∃ ops, Since emptyWord s.flash
      ((List.range k).foldl EepromStm32.compactWord (EepromStm32.clear s)).flash
        (.erase :: ops) := by
  induction k with
  | zero => exact ⟨[], since_issue emptyWord .erase s.flash⟩
  | succ k ih =>
    obtain ⟨ops, hsince⟩ := ih
    rw [List.range_succ, List.foldl_append, List.foldl_cons, List.foldl_nil]
    obtain ⟨ops', hsince'⟩ := compactWord_since
      ((List.range k).foldl EepromStm32.compactWord (EepromStm32.clear s)) k
    exact ⟨ops ++ ops', hsince.trans hsince'⟩

theorem compact_cuts (s : EepromState) (P : (Nat → Byte) → Prop) :
    Cuts c s.flash (c.compact s).flash P := by
  obtain ⟨ops, hsince⟩ := compactWords_since s c.words
  exact ⟨_, hsince, fun hno => absurd rfl (hno .erase List.mem_cons_self)⟩

theorem writeDirectEntry_since {address : Nat}
    (h : EepromStm32.writeDirectEntry address s = some s') :
    ∃ ops, Since emptyWord s.flash s'.flash ops ∧ ops.length ≤ 1 := by
  unfold EepromStm32.writeDirectEntry at h
  split at h
  · split at h
    · cases h
      exact ⟨[], since_refl _ _, Nat.zero_le 1⟩
    · cases h
      exact ⟨_, program_since _ _ s, Nat.le_refl 1⟩
  · exact absurd h.symm (Option.some_ne_none s')

theorem writeLogByteEntry_cuts (h : FlashHolds c s contents) {address : Nat}
    (hlow : address < 0x80) (haddress : address < c.density)
    (hstale : s.flash.words (address / 2) = emptyWord →
      s.emptySlot = 0 ∧ s.dataBuf address = 0)
    (hP : P contents) (hP' : P (Function.update contents address (s.dataBuf address))) :
    Cuts c s.flash (c.writeLogByteEntry address s).flash P := by
  rcases Nat.lt_or_ge s.emptySlot c.logSlots with hroom | hfull
  · obtain ⟨-, hholds, -⟩ := writeLogByteEntry_holds h hlow haddress hroom hstale
    have hlogged : c.writeLogByteEntry address s = c.appendLog
        ((BitVec.ofNat 16 address <<< 8) ||| (s.dataBuf address).setWidth 16) s :=
      if_neg (by omega)
    rw [hlogged] at hholds ⊢
    exact Cuts.short h hP hholds hP' (appendLog_since _ s) (Nat.le_refl 1)
  · rw [writeLogByteEntry_full hfull]
    exact compact_cuts s P

theorem torn_holds (h : FlashHolds c s contents) {address : Nat} (heven : address % 2 = 0)
    (hhigh : 0x80 ≤ address) (haddress : address < c.density)
    (hroom : s.emptySlot + 2 ≤ c.logSlots) :
    FlashHolds c { c.appendLog (longHead address) s with emptySlot := s.emptySlot + 2 }
      contents := by
  obtain ⟨entries, h⟩ := h
  obtain ⟨hwritten, hwords⟩ := appendLog_written h.written (by omega) (longHead address)
  refine h.append (.torn address) ⟨heven, hhigh, haddress⟩ hwritten.clean ?_ (fun x => ?_) rfl
    hroom (fun x _ _ => Or.inl rfl)
  · obtain ⟨free, hfree⟩ : ∃ free, c.logSlots = s.emptySlot + 2 + free :=
      ⟨c.logSlots - (s.emptySlot + 2), by omega⟩
    have hlog := hwritten.log
    have hslot : (c.appendLog (longHead address) s).emptySlot = s.emptySlot + 1 := rfl
    rw [hslot, hfree, show s.emptySlot + 2 + free - (s.emptySlot + 1) = free + 1 by omega,
      List.replicate_succ] at hlog
    change c.log (c.appendLog (longHead address) s).flash.words =
      _ ++ [longHead address, emptyWord] ++
        List.replicate (c.logSlots - (s.emptySlot + 2)) emptyWord
    rw [hlog, hfree, Nat.add_sub_cancel_left, List.append_assoc, List.append_assoc]
    rfl
  · rcases Nat.lt_or_ge x c.density with hx | hx
    · exact Or.inl (hwords _ (half_lt c hx))
    · exact Or.inr hx

theorem writeLogWordEntry_cuts (h : FlashHolds c s contents) {address : Nat}
    (heven : address % 2 = 0) (hhigh : 0x80 ≤ address) (haddress : address < c.density)
    (hprogrammed : s.flash.words (address / 2) ≠ emptyWord)
    (hP : P contents) (hP' : P (setWord contents address (wordAt s.dataBuf address))) :
    Cuts c s.flash (c.writeLogWordEntry address s).flash P := by
  rcases Nat.lt_or_ge c.logSlots (s.emptySlot + logSize (wordAt s.dataBuf address)) with
    hfull | hroom
  · rw [writeLogWordEntry_full hfull]
    exact compact_cuts s P
  · obtain ⟨-, hholds⟩ := writeLogWordEntry_holds h heven hhigh haddress hroom hprogrammed
    unfold logSize at hroom
    unfold EepromStm32.writeLogWordEntry at hholds ⊢
    dsimp only at hholds ⊢
    by_cases hshort : wordAt s.dataBuf address ≤ 1
    · rw [if_pos hshort] at hroom hholds ⊢
      rw [if_neg (by omega)] at hholds ⊢
      exact Cuts.short h hP hholds hP' (appendLog_since _ s) (Nat.le_refl 1)
    · rw [if_neg hshort] at hroom hholds ⊢
      rw [if_neg (by omega)] at hholds ⊢
      have htorn := torn_holds h heven hhigh haddress hroom
      have hfirst := Cuts.short h hP htorn hP (appendLog_since (longHead address) s)
        (Nat.le_refl 1)
      exact hfirst.trans (Cuts.short htorn hP hholds hP'
        (appendLog_since _ (c.appendLog (longHead address) s)) (Nat.le_refl 1))

/-! ### The writes -/

/-- Each byte is an old one or a new one. -/
def Mixed (old new contents : Nat → Byte) : Prop := ∀ x, contents x = old x ∨ contents x = new x

theorem mixed_old (old new : Nat → Byte) : Mixed old new old := fun _ => Or.inl rfl

theorem mixed_new (old new : Nat → Byte) : Mixed old new new := fun _ => Or.inr rfl

theorem Mixed.update {old new contents : Nat → Byte} (h : Mixed old new contents) {address : Nat}
    {value : Byte} (hvalue : value = old address ∨ value = new address) :
    Mixed old new (Function.update contents address value) := by
  intro x
  by_cases hx : x = address
  · rw [hx, Function.update_self]
    exact hvalue
  · rw [Function.update_of_ne hx]
    exact h x

theorem storeByte_clash (h : FlashHolds c s contents) {address : Nat} {value : Byte}
    (hclash : byteClash c s address value) : storeByte c address 0 contents = contents := by
  unfold byteClash at hclash
  simp only [Bool.and_eq_true, decide_eq_true_eq, beq_iff_eq] at hclash
  rcases hclash with ⟨⟨⟨haddress, -⟩, hempty⟩, -⟩
  obtain ⟨entries, hstored⟩ := h
  have hzero := hstored.erased haddress hempty
  unfold storeByte
  rw [if_pos haddress, ← hzero, Function.update_eq_self]

theorem writeDataByte_cuts (h : FlashHolds c s contents) (address : Nat) (value : Byte)
    (hsame : ∀ x, x / 2 = address / 2 → contents x = s.dataBuf x)
    (hbeyond : ∀ x, c.density ≤ x → s.dataBuf x = 0) {old new : Nat → Byte}
    (hmixed : Mixed old new contents) (hnew : address < c.density → value = new address) :
    Cuts c s.flash (c.writeDataByte address value s).2.flash (Mixed old new) := by
  obtain ⟨-, hholds⟩ := writeDataByte_spec h address value hsame hbeyond
  unfold EepromStm32.writeDataByte at hholds ⊢
  by_cases haddress : address < c.density
  swap
  · rw [if_pos (by omega)]
    exact Cuts.short h hmixed h hmixed (since_refl _ _) (Nat.zero_le 1)
  have hwritten := hmixed.update (Or.inr (hnew haddress))
  rw [if_neg (by omega)] at hholds ⊢
  by_cases hskip : s.dataBuf address = value
  · rw [if_pos hskip]
    exact Cuts.short h hmixed h hmixed (since_refl _ _) (Nat.zero_le 1)
  rw [if_neg hskip] at hholds ⊢
  dsimp only at hholds ⊢
  have hthere := h.withBuf (Function.update s.dataBuf address value)
  cases hdirect : EepromStm32.writeDirectEntry address
      { s with dataBuf := Function.update s.dataBuf address value } with
  | some s' =>
    rw [hdirect] at hholds
    obtain ⟨ops, hsince, hshort⟩ := writeDirectEntry_since hdirect
    have hempty : s.flash.words (address / 2) = emptyWord := by
      by_contra hc
      exact absurd (hdirect.symm.trans (if_neg hc)) (Option.some_ne_none s')
    have hnone : byteCompacts c s address value = false := by simp [byteCompacts, hempty]
    rw [hnone, if_neg Bool.false_ne_true] at hholds
    refine Cuts.short h hmixed hholds ?_ hsince hshort
    split
    next hclash => rwa [storeByte_clash h hclash]
    next => rwa [storeByte, if_pos haddress]
  | none =>
    dsimp only
    have hprogrammed : s.flash.words (address / 2) ≠ emptyWord := by
      intro hempty
      obtain ⟨s', hsome, -⟩ := writeDirectEntry_holds hthere haddress hempty
      rw [hdirect] at hsome
      exact Option.some_ne_none s' hsome.symm
    by_cases hlow : address < 0x80
    · rw [if_pos hlow]
      refine writeLogByteEntry_cuts hthere hlow haddress (fun hc => absurd hc hprogrammed)
        hmixed ?_
      dsimp only
      rwa [Function.update_self]
    · rw [if_neg hlow]
      have heven := c.even
      have hword : 2 * (address / 2) % 2 = 0 := by omega
      refine writeLogWordEntry_cuts hthere hword (by omega) (by omega)
        (by rwa [Nat.mul_div_cancel_left _ (by decide)]) hmixed ?_
      dsimp only
      rwa [setWord_byte s.dataBuf contents address value hsame]

theorem writeLogBytes_cuts {old : Nat → Byte} (h : FlashHolds c s old) {address : Nat}
    (heven : address % 2 = 0) (hlow : address < 0x80) (haddress : address < c.density)
    (value : HalfWord) (hbuf : s.dataBuf = setWord old address value)
    (hprogrammed : s.flash.words (address / 2) ≠ emptyWord)
    (hbeyond : ∀ x, c.density ≤ x → s.dataBuf x = 0) :
    Cuts c s.flash (c.writeLogBytes address (wordAt old address) value s).flash
      (Mixed old s.dataBuf) := by
  have hdensity := c.even
  obtain ⟨hkept, contents, hholds, hothers, hsecond, hstale⟩ :=
    writeLogBytes_first h heven hlow haddress value hbuf hprogrammed hbeyond
  have hfirst : Cuts c s.flash (if (wordAt old address).setWidth 8 ≠ value.setWidth 8 then
      c.writeLogByteEntry address s else s).flash (Mixed old s.dataBuf) := by
    split
    · exact writeLogByteEntry_cuts h hlow haddress (fun hc => absurd hc hprogrammed)
        (mixed_old _ _) ((mixed_old _ _).update (Or.inr rfl))
    · exact Cuts.short h (mixed_old _ _) h (mixed_old _ _) (since_refl _ _) (Nat.zero_le 1)
  unfold EepromStm32.writeLogBytes
  dsimp only
  generalize (if (wordAt old address).setWidth 8 ≠ value.setWidth 8 then
    c.writeLogByteEntry address s else s) = s' at hkept hholds hstale hfirst ⊢
  refine hfirst.trans ?_
  have hhalf : (address + 1) / 2 = address / 2 := by omega
  have hmixed : Mixed old s.dataBuf contents := by
    intro x
    by_cases hx : x = address + 1
    · rw [hx]
      exact hsecond
    · exact Or.inr (hothers x hx)
  split
  · refine writeLogByteEntry_cuts hholds (by omega) (by omega) (by rw [hhalf, hkept]; exact hstale)
      hmixed (hmixed.update (Or.inr ?_))
    rw [hkept]
  · exact Cuts.short hholds hmixed hholds hmixed (since_refl _ _) (Nat.zero_le 1)

theorem not_overridden (h : FlashHolds c s contents) {x : Nat} (hx : x < c.density)
    (hhigh : 0x80 ≤ x) (hempty : s.flash.words (x / 2) = emptyWord) (value : Byte) :
    overridden c s x value = false := by
  obtain ⟨entries, hstored⟩ := h
  cases hover : overridden c s x value with
  | false => rfl
  | true =>
    have hlogged := (hstored.overridden_zero hx hempty hover).1
    rcases hstored.stale x hx hempty with hnone | ⟨-, rest, rfl⟩
    · exact absurd (hlogged.symm.trans hnone) (Option.some_ne_none 0)
    · have hlow : x < 0x80 := (hstored.valid _ List.mem_cons_self).1
      omega

theorem writeDataWord_aligned_cuts (h : Sound c s) {address : Nat} (heven : address % 2 = 0)
    (value : HalfWord) :
    Cuts c s.flash (c.writeDataWord address value s).2.flash (fun contents =>
      Mixed s.dataBuf (storeWord c address value s.dataBuf) contents ∧
        (0x80 ≤ address → contents = s.dataBuf ∨
          contents = storeWord c address value s.dataBuf)) := by
  have hbeyond : ∀ x, c.density ≤ x → s.dataBuf x = 0 := fun x hx => Sound.beyond h hx
  have hnothing : Cuts c s.flash s.flash (fun contents =>
      Mixed s.dataBuf (storeWord c address value s.dataBuf) contents ∧
        (0x80 ≤ address → contents = s.dataBuf ∨
          contents = storeWord c address value s.dataBuf)) :=
    Cuts.short h ⟨mixed_old _ _, fun _ => Or.inl rfl⟩ h ⟨mixed_old _ _, fun _ => Or.inl rfl⟩
      (since_refl _ _) (Nat.zero_le 1)
  unfold EepromStm32.writeDataWord
  by_cases haddress : address < c.density
  swap
  · rw [if_pos (by omega)]
    exact hnothing
  rw [if_neg (by omega), if_neg (by omega)]
  by_cases hskip : wordAt s.dataBuf address = value
  · rw [if_pos hskip]
    exact hnothing
  rw [if_neg hskip, storeWord_aligned heven haddress]
  dsimp only
  have hdensity := c.even
  have hbeyond' : ∀ x, c.density ≤ x → setWord s.dataBuf address value x = 0 := by
    intro x hx
    rw [setWord, Function.update_of_ne (by omega), Function.update_of_ne (by omega)]
    exact hbeyond x hx
  have hthere := FlashHolds.withBuf h (setWord s.dataBuf address value)
  by_cases hempty : s.flash.words (address / 2) = emptyWord
  · obtain ⟨s', hdirect, -, hholds⟩ := writeDirectEntry_holds hthere haddress hempty
    rw [hdirect]
    obtain ⟨ops, hsince, hshort⟩ := writeDirectEntry_since hdirect
    refine Cuts.short h ⟨mixed_old _ _, fun _ => Or.inl rfl⟩ hholds ⟨fun x => ?_, fun hhigh => ?_⟩
      hsince hshort
    · dsimp only
      split
      next hx =>
        split
        · obtain ⟨entries, hstored⟩ := h
          exact Or.inl (hstored.erased (by omega) (by rw [hx]; exact hempty)).symm
        · exact Or.inr rfl
      next => exact Or.inl rfl
    · refine Or.inr ((direct_contents h heven haddress value hempty).mpr ⟨?_, ?_⟩)
      · exact not_overridden h haddress hhigh hempty _
      · exact not_overridden h (by omega) (by omega)
          (by rw [show (address + 1) / 2 = address / 2 by omega]; exact hempty) _
  · have hlog : EepromStm32.writeDirectEntry address
        { s with dataBuf := setWord s.dataBuf address value } = none := if_neg hempty
    rw [hlog]
    dsimp only
    by_cases hlow : address < 0x80
    · rw [if_pos hlow]
      dsimp only
      have hcuts := writeLogBytes_cuts (s := { s with dataBuf := setWord s.dataBuf address value })
        hthere heven hlow haddress value rfl hempty hbeyond'
      exact hcuts.imp (fun contents hmixed => ⟨hmixed, fun hhigh => absurd hhigh (by omega)⟩)
    · rw [if_neg hlow]
      dsimp only
      refine writeLogWordEntry_cuts (s := { s with dataBuf := setWord s.dataBuf address value })
        hthere heven (by omega) haddress hempty ⟨mixed_old _ _, fun _ => Or.inl rfl⟩ ?_
      dsimp only
      rw [wordAt_setWord]
      exact ⟨mixed_new _ _, fun _ => Or.inr rfl⟩

theorem writeDataWord_unaligned_cuts (h : Sound c s) {address : Nat} (hodd : address % 2 = 1)
    (value : HalfWord) :
    Cuts c s.flash (c.writeDataWord address value s).2.flash
      (Mixed s.dataBuf (storeWord c address value s.dataBuf)) := by
  have hbeyond : ∀ x, c.density ≤ x → s.dataBuf x = 0 := fun x hx => Sound.beyond h hx
  unfold EepromStm32.writeDataWord storeWord
  by_cases haddress : address < c.density
  swap
  · rw [if_pos (by omega)]
    exact Cuts.short h (mixed_old _ _) h (mixed_old _ _) (since_refl _ _) (Nat.zero_le 1)
  rw [if_neg (by omega), if_pos hodd, if_pos haddress]
  dsimp only
  generalize hnew : storeByte c (address + 1) ((value >>> 8).setWidth 8)
    (storeByte c address (value.setWidth 8) s.dataBuf) = new
  have hnew_low : value.setWidth 8 = new address := by
    rw [← hnew, storeByte_of_ne _ _ (by omega), storeByte_self haddress]
  obtain ⟨hbuf, hholds⟩ := writeDataByte_spec h address (value.setWidth 8) (fun _ _ => rfl) hbeyond
  have hfirst := writeDataByte_cuts h address (value.setWidth 8) (fun _ _ => rfl) hbeyond
    (mixed_old s.dataBuf new) (fun _ => hnew_low)
  -- what the flash holds in between
  have hmixed : Mixed s.dataBuf new (if byteCompacts c s address (value.setWidth 8) then
      storeByte c address (value.setWidth 8) s.dataBuf
      else storeByte c address
        (if byteClash c s address (value.setWidth 8) then 0 else value.setWidth 8)
        s.dataBuf) := by
    have hwritten : Mixed s.dataBuf new (storeByte c address (value.setWidth 8) s.dataBuf) := by
      unfold storeByte
      rw [if_pos haddress]
      exact (mixed_old _ _).update (Or.inr hnew_low)
    split
    · exact hwritten
    · split
      next hclash =>
        rw [storeByte_clash h hclash]
        exact mixed_old _ _
      next => exact hwritten
  have hnear : ∀ x, x / 2 = (address + 1) / 2 → (if byteCompacts c s address (value.setWidth 8) then
      storeByte c address (value.setWidth 8) s.dataBuf
      else storeByte c address
        (if byteClash c s address (value.setWidth 8) then 0 else value.setWidth 8)
        s.dataBuf) x = (c.writeDataByte address (value.setWidth 8) s).2.dataBuf x := by
    intro x hx
    have hne : x ≠ address := by omega
    rw [hbuf]
    split <;> simp only [storeByte_of_ne _ _ hne]
  refine hfirst.trans (writeDataByte_cuts hholds (address + 1) ((value >>> 8).setWidth 8) hnear
    (fun x hx => ?_) hmixed (fun haddress' => ?_))
  · rw [hbuf]
    exact beyond_storeByte hbeyond _ _ hx
  · rw [← hnew, storeByte_self haddress']

/-! ### Runs -/

/-- The EEPROM after the power went in a use of it and came back. -/
def cutUse (c : EepromStm32) (s : EepromState) (i : EepromInput) (k : Nat) : EepromState :=
  c.init { flash := s.flash.cut emptyWord k (c.step s i).flash, dataBuf := fun _ => 0,
           emptySlot := 0 }

/-- A use of the EEPROM, or one in which the power goes after some of its
    operations on the flash. -/
inductive PowerInput where
  | use (i : EepromInput)
  | cut (i : EepromInput) (k : Nat)

/-- The EEPROM and an array of bytes, which after a cut is what `EEPROM_Init` has
    made. -/
def throughCuts (c : EepromStm32) (s : EepromState × (Nat → Byte)) :
    PowerInput → EepromState × (Nat → Byte)
  | .use i => besideArray c s i
  | .cut i k => (cutUse c s.1 i k, (cutUse c s.1 i k).dataBuf)

/-- A use that is cut does not erase. -/
def CutsErase (c : EepromStm32) (s : EepromState) : PowerInput → Prop
  | .use _ => False
  | .cut i _ => ¬ NoErase (s.flash.since (c.step s i).flash)

instance decidableCutsErase (c : EepromStm32) (s : EepromState) :
    (i : PowerInput) → Decidable (CutsErase c s i)
  | .use _ => inferInstanceAs (Decidable False)
  | .cut i _ => inferInstanceAs (Decidable (¬ NoErase (s.flash.since (c.step s i).flash)))

/-- A use that is not cut is not overridden. -/
def usesKept (c : EepromStm32) (s : EepromState) : PowerInput → Bool
  | .use i => kept c s i
  | .cut _ _ => true

/-- The addresses a use writes to. -/
def addressed : EepromInput → Nat → Prop
  | .writeByte address _, x => x = address
  | .writeWord address _, x => x = address ∨ x = address + 1
  | .erase, _ => True
  | .init, _ => False

/-- What a cut leaves: what is not addressed is as it was, what is addressed has
    its old or its new value, and an aligned word from `FEE_BYTE_RANGE` on is old
    or new as a whole. -/
structure Harmless (c : EepromStm32) (s : EepromState) (i : EepromInput) (after : Nat → Byte) :
    Prop where
  unaddressed : ∀ x, ¬ addressed i x → after x = s.dataBuf x
  mixed : Mixed s.dataBuf (byteArray c s.dataBuf i) after
  whole : ∀ address value, i = .writeWord address value → address % 2 = 0 → 0x80 ≤ address →
    after = s.dataBuf ∨ after = byteArray c s.dataBuf i

def CutHarmless (c : EepromStm32) (s : EepromState) : PowerInput → Prop
  | .use _ => True
  | .cut i k => Harmless c s i (cutUse c s i k).dataBuf

theorem byteArray_of_not_addressed (bytes : Nat → Byte) {i : EepromInput} {x : Nat}
    (h : ¬ addressed i x) : byteArray c bytes i x = bytes x := by
  cases i with
  | writeByte address value => exact storeByte_of_ne _ _ h
  | writeWord address value =>
    unfold addressed at h
    rw [not_or] at h
    unfold byteArray storeWord
    dsimp only
    split
    · rw [storeByte_of_ne _ _ h.2, storeByte_of_ne _ _ h.1]
    · rfl
  | erase => exact absurd trivial h
  | init => rfl

theorem step_cuts (h : Sound c s) (i : EepromInput) :
    Cuts c s.flash (c.step s i).flash (Harmless c s i) := by
  have hmixed : ∀ contents, Mixed s.dataBuf (byteArray c s.dataBuf i) contents →
      ∀ x, ¬ addressed i x → contents x = s.dataBuf x := by
    intro contents hcontents x hx
    rcases hcontents x with hold | hnew
    · exact hold
    · rw [hnew, byteArray_of_not_addressed s.dataBuf hx]
  cases i with
  | writeByte address value =>
    refine (writeDataByte_cuts h address value (fun _ _ => rfl) (fun x hx => Sound.beyond h hx)
      (mixed_old s.dataBuf (storeByte c address value s.dataBuf)) (fun haddress => ?_)).imp
        (fun contents hcontents => ⟨hmixed contents hcontents, hcontents, fun _ _ hc => ?_⟩)
    · rw [storeByte_self haddress]
    · exact EepromInput.noConfusion hc
  | writeWord address value =>
    by_cases heven : address % 2 = 0
    · refine (writeDataWord_aligned_cuts h heven value).imp
        (fun contents hcontents => ⟨hmixed contents hcontents.1, hcontents.1, ?_⟩)
      rintro _ _ ⟨⟩ _ hhigh
      exact hcontents.2 hhigh
    · refine (writeDataWord_unaligned_cuts h (by omega) value).imp
        (fun contents hcontents => ⟨hmixed contents hcontents, hcontents, ?_⟩)
      rintro _ _ ⟨⟩ hodd _
      exact absurd hodd heven
  | erase =>
    exact ⟨[.erase], since_issue emptyWord .erase s.flash,
      fun hno => absurd rfl (hno .erase List.mem_cons_self)⟩
  | init =>
    change Cuts c s.flash (c.init s).flash _
    rw [init_sound h]
    refine Cuts.short h ?_ h ?_ (since_refl _ _) (Nat.zero_le 1)
    · exact ⟨fun _ _ => rfl, mixed_old _ _, fun _ _ hc => EepromInput.noConfusion hc⟩
    · exact ⟨fun _ _ => rfl, mixed_old _ _, fun _ _ hc => EepromInput.noConfusion hc⟩

theorem cutUse_sound (h : Sound c s) (i : EepromInput) (k : Nat)
    (hno : NoErase (s.flash.since (c.step s i).flash)) :
    Sound c (cutUse c s i k) ∧ Harmless c s i (cutUse c s i k).dataBuf := by
  obtain ⟨ops, hsince, hcuts⟩ := step_cuts h i
  rw [hsince.since_eq] at hno
  obtain ⟨emptySlot, contents, hholds, hharmless⟩ := hcuts hno k
  -- `EEPROM_Init` does not read `empty_slot`
  have hafter : cutUse c s i k = c.init { flash := s.flash.cut emptyWord k (c.step s i).flash,
                                          dataBuf := fun _ => 0, emptySlot } := rfl
  have hbuf := init_dataBuf hholds (fun _ _ => rfl)
  rw [← hafter] at hbuf
  refine ⟨?_, by rwa [hbuf]⟩
  unfold Sound
  rw [hbuf, hafter, init_eq hholds]
  exact hholds.withBuf _

theorem throughCuts_kept {s : EepromState × (Nat → Byte)} (h : Agrees c s) {i : PowerInput}
    (hcut : ¬ CutsErase c s.1 i) (hi : usesKept c s.1 i) :
    Agrees c (throughCuts c s i) := by
  cases i with
  | use i => exact step_kept h hi
  | cut i k => exact ⟨(cutUse_sound h.1 i k (not_not.mp hcut)).1, rfl⟩

/-- Whatever the EEPROM is used for, and however often the power goes in a use
    that does not erase: a cut is harmless, and the EEPROM is like an array of
    bytes throughout, from each cut on like one of what `EEPROM_Init` has made,
    exactly when no write is overridden. -/
theorem power_loss (c : EepromStm32) (inputs : List PowerInput)
    (hcuts : Along (throughCuts c) (fun s i => ¬ CutsErase c s.1 i) (c.start, fun _ => 0)
      inputs) :
    Always (throughCuts c) (fun s => LikeArray c s.1 s.2) (c.start, fun _ => 0) inputs ∧
        Along (throughCuts c) (fun s i => CutHarmless c s.1 i) (c.start, fun _ => 0) inputs ↔
      Along (throughCuts c) (fun s i => usesKept c s.1 i = true) (c.start, fun _ => 0) inputs := by
  have hiff := always_iff_along_of (throughCuts c) (fun s i => ¬ CutsErase c s.1 i)
    (fun s i => usesKept c s.1 i = true) (Agrees c) (fun s => LikeArray c s.1 s.2)
    (fun _ hs => hs.likeArray) (fun _ _ hs hcut hi => throughCuts_kept hs hcut hi)
    (fun _ i hs _ hi => ?_) inputs (c.start, fun _ => 0) start_sound hcuts
  · refine ⟨fun h => hiff.mp h.1, fun h => ⟨hiff.mpr h, ?_⟩⟩
    refine along_imp (throughCuts c)
      (fun s i => ¬ CutsErase c s.1 i ∧ usesKept c s.1 i = true) _ (Agrees c)
      (fun _ _ hs hi => throughCuts_kept hs hi.1 hi.2) (fun s i hs hi => ?_) inputs _ start_sound
      ((along_and _ _ _ inputs _).mpr ⟨hcuts, h⟩)
    cases i with
    | use i => trivial
    | cut i k => exact (cutUse_sound hs.1 i k (not_not.mp hi.1)).2
  · cases i with
    | use i => exact step_broken hs hi
    | cut i k => exact absurd rfl hi

/-- A few bytes from `FEE_BYTE_RANGE` on, and a log of four halfwords. -/
def roomy : EepromStm32 := { density := 132, logSlots := 4, even := rfl, small := by decide }

/-- A word is written and written again, and the power goes between the two
    halfwords of its entry. -/
def cutInWord : List PowerInput :=
  [.use (.writeWord 128 0x0101), .cut (.writeWord 128 0x0202) 1, .use (.writeByte 128 7)]

theorem power_loss_in_word :
    Always (throughCuts roomy) (fun s => LikeArray roomy s.1 s.2) (roomy.start, fun _ => 0)
        cutInWord ∧
      Along (throughCuts roomy) (fun s i => CutHarmless roomy s.1 i) (roomy.start, fun _ => 0)
        cutInWord :=
  (power_loss roomy cutInWord (by decide +kernel)).mpr (by decide +kernel)

/-- A word is written as 0 when the log is full, then written again, and the power
    goes before anything of the next write is done. -/
def cutAfterZero : List PowerInput :=
  zeroAndBack.map .use ++ [.cut (.writeByte 2 5) 0]

/-- Byte 1 is not addressed by that write, and is lost. -/
theorem power_loss_broken :
    Along (throughCuts tiny) (fun s i => ¬ CutsErase tiny s.1 i) (tiny.start, fun _ => 0)
        cutAfterZero ∧
      ¬ Along (throughCuts tiny) (fun s i => CutHarmless tiny s.1 i) (tiny.start, fun _ => 0)
        cutAfterZero := by
  refine ⟨by decide +kernel, fun h => ?_⟩
  have hlast := along_visited (throughCuts tiny) _ (zeroAndBack.map .use) []
    (.cut (.writeByte 2 5) 0) _ h
  have haddress : ¬ addressed (.writeByte 2 5) 1 := (by decide : ¬ (1 : Nat) = 2)
  exact absurd (hlast.unaddressed 1 haddress) (by decide +kernel)

end Stm32

end K530
