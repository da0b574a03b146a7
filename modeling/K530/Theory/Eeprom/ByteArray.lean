import K530.Theory.Eeprom.Writes

/-!
# The EEPROM Is a Byte Array

Whatever is written, erased and power cycled, what is read is what an array of
bytes would have, the flash is only programmed where it is erased, and
`EEPROM_Init` makes of the flash what is in `DataBuf`, as long as no write is
overridden by the entry in the log that `Stored` is about. With a write that is,
`EEPROM_Init` makes something else.

## Main definitions

* `byteArray`: The array of bytes.

## Theorems

* `eeprom_iff`: The EEPROM is like the array throughout a run.
* `eeprom_broken`: A word written as 0 when the log is full.
-/

namespace K530

namespace Stm32

open Flash
open StepRun

/-- What a use of the EEPROM does to an array of bytes. -/
def byteArray (c : EepromStm32) (bytes : Nat → Byte) : EepromInput → Nat → Byte
  | .writeByte address value => storeByte c address value bytes
  | .writeWord address value => storeWord c address value bytes
  | .erase => fun _ => 0
  | .init => bytes

/-- The EEPROM and the array of bytes together. -/
def besideArray (c : EepromStm32) (s : EepromState × (Nat → Byte)) (i : EepromInput) :
    EepromState × (Nat → Byte) := (c.step s.1 i, byteArray c s.2 i)

/-- No byte that is written is overridden. A word at an odd address is written as
    two bytes, and if the second of them compacts, the first is made good. -/
def kept (c : EepromStm32) (s : EepromState) : EepromInput → Bool
  | .writeByte address value => !byteClash c s address value
  | .writeWord address value =>
    if address % 2 = 1 then
      let s' := (c.writeDataByte address (value.setWidth 8) s).2
      (!byteClash c s address (value.setWidth 8) ||
        byteCompacts c s' (address + 1) ((value >>> 8).setWidth 8)) &&
        !byteClash c s' (address + 1) ((value >>> 8).setWidth 8)
    else !wordClash c s address value
  | .erase | .init => true

/-- What is read is what the array has, `EEPROM_Init` would make the same, and no
    halfword has been programmed that was not erased. -/
structure LikeArray (c : EepromStm32) (s : EepromState) (bytes : Nat → Byte) : Prop where
  readByte : ∀ address < c.density, c.readDataByte address s = bytes address
  readWord : ∀ address, address + 1 < c.density →
    c.readDataWord address s = bytes (address + 1) ++ bytes address
  init : (c.init s).dataBuf = s.dataBuf
  onBlank : Along (apply emptyWord) (OnBlank emptyWord) (fun _ => emptyWord) s.flash.issued

variable {c : EepromStm32} {s : EepromState}

theorem init_dataBuf {contents : Nat → Byte} (h : FlashHolds c s contents)
    (hbeyond : ∀ x, c.density ≤ x → s.dataBuf x = 0) : (c.init s).dataBuf = contents := by
  rw [init_eq h]
  funext x
  dsimp only
  split
  · rfl
  · rw [hbeyond x (by omega), h.beyond (by omega)]

theorem init_sound (h : Sound c s) : c.init s = s := by
  rw [init_eq h]
  congr 1
  funext x
  exact ite_self _

theorem Sound.beyond (h : Sound c s) {x : Nat} (hx : c.density ≤ x) : s.dataBuf x = 0 :=
  FlashHolds.beyond h hx

theorem readDataWord_eq (address : Nat) (h : address + 1 < c.density) (s : EepromState) :
    c.readDataWord address s = s.dataBuf (address + 1) ++ s.dataBuf address := by
  unfold EepromStm32.readDataWord
  rw [if_pos h]
  split
  · ext i hi
    rw [BitVec.getElem_append]
    interval_cases i <;> simp
  · rfl

theorem Sound.likeArray (h : Sound c s) : LikeArray c s s.dataBuf where
  readByte := fun _ haddress => if_pos haddress
  readWord := fun address haddress => readDataWord_eq address haddress s
  init := by rw [init_sound h]
  onBlank := (FlashHolds.clean h).onBlank

theorem blank_holds (hwords : ∀ place, s.flash.words place = emptyWord) (hslot : s.emptySlot = 0)
    (hclean : Clean emptyWord s.flash) : FlashHolds c s (fun _ => 0) := by
  refine ⟨[], ?_, ?_, hslot, by omega, fun x => ?_, fun _ _ _ => Or.inl rfl, hclean⟩
  · exact fun e he => absurd he List.not_mem_nil
  · unfold EepromStm32.log
    rw [List.flatMap_nil, List.nil_append, hslot, Nat.sub_zero]
    exact List.eq_replicate_iff.mpr ⟨by rw [List.length_map, List.length_range], by simp [hwords]⟩
  · rw [logged, Option.getD_none, load_eq, hwords]
    split
    · exact (byteOf_zero x).symm
    · rfl

theorem start_sound : Sound c c.start ∧ c.start.dataBuf = fun _ => 0 := by
  have hblank : FlashHolds c
      { flash := .new emptyWord, dataBuf := fun _ => 0, emptySlot := 0 } (fun _ => 0) :=
    blank_holds (fun _ => rfl) rfl (clean_new emptyWord)
  unfold Sound EepromStm32.start
  rw [init_sound hblank]
  exact ⟨hblank, rfl⟩

theorem eraseAll_sound (h : Sound c s) :
    Sound c (c.eraseAll s) ∧ (c.eraseAll s).dataBuf = fun _ => 0 := by
  have hblank : FlashHolds c (EepromStm32.clear s) (fun _ => 0) :=
    blank_holds (fun _ => rfl) rfl (FlashHolds.clean h).erase
  have hbuf := init_dataBuf hblank (fun x hx => Sound.beyond h hx)
  refine ⟨?_, hbuf⟩
  unfold Sound EepromStm32.eraseAll
  rw [hbuf, init_eq hblank]
  exact hblank.withBuf _

/-! ### The writes -/

theorem clash_facts {contents : Nat → Byte} (h : FlashHolds c s contents) {address : Nat}
    {value : Byte} (hclash : byteClash c s address value) :
    address < c.density ∧ value ≠ 0 ∧ byteCompacts c s address value = false := by
  unfold byteClash at hclash
  simp only [Bool.and_eq_true, decide_eq_true_eq, beq_iff_eq] at hclash
  rcases hclash with ⟨⟨⟨haddress, -⟩, hempty⟩, hover⟩
  obtain ⟨entries, hstored⟩ := h
  refine ⟨haddress, (hstored.overridden_zero haddress hempty hover).2, ?_⟩
  simp [byteCompacts, hempty]

theorem beyond_storeByte {bytes : Nat → Byte} (h : ∀ x, c.density ≤ x → bytes x = 0)
    (address : Nat) (value : Byte) {x : Nat} (hx : c.density ≤ x) :
    storeByte c address value bytes x = 0 := by
  unfold storeByte
  split
  · rw [Function.update_of_ne (by omega)]
    exact h x hx
  · exact h x hx

theorem storeByte_self {address : Nat} (h : address < c.density) (value : Byte)
    (bytes : Nat → Byte) : storeByte c address value bytes address = value := by
  unfold storeByte
  rw [if_pos h, Function.update_self]

theorem storeByte_of_ne {address x : Nat} (value : Byte) (bytes : Nat → Byte) (h : x ≠ address) :
    storeByte c address value bytes x = bytes x := by
  unfold storeByte
  split
  · rw [Function.update_of_ne h]
  · rfl

/-- What a write leaves: `DataBuf` has what was written, and the flash holds the
    same if the write is kept, and something else if it is not. -/
structure Leaves (c : EepromStm32) (s : EepromState) (bytes : Nat → Byte) (kept : Bool) : Prop where
  dataBuf : s.dataBuf = bytes
  holds : ∃ contents, FlashHolds c s contents ∧ (contents = bytes ↔ kept = true)

theorem writeByte_leaves (h : Sound c s) (address : Nat) (value : Byte) :
    Leaves c (c.writeDataByte address value s).2 (storeByte c address value s.dataBuf)
      (kept c s (.writeByte address value)) := by
  obtain ⟨hbuf, hholds⟩ := writeDataByte_spec h address value (fun _ _ => rfl)
    (fun _ => Sound.beyond h)
  refine ⟨hbuf, _, hholds, ?_⟩
  unfold kept
  rw [Bool.not_eq_true', ← Bool.not_eq_true]
  by_cases hclash : byteClash c s address value
  · obtain ⟨haddress, hne, hnone⟩ := clash_facts h hclash
    rw [hnone, if_neg Bool.false_ne_true, if_pos hclash]
    refine ⟨fun hc => ?_, fun hc => absurd hclash hc⟩
    have hat := congrFun hc address
    unfold storeByte at hat
    rw [if_pos haddress, if_pos haddress, Function.update_self, Function.update_self] at hat
    exact absurd hat.symm hne
  · rw [if_neg hclash, ite_self]
    exact ⟨fun _ => hclash, fun _ => rfl⟩

theorem writeWord_leaves (h : Sound c s) (address : Nat) (value : HalfWord) :
    Leaves c (c.writeDataWord address value s).2 (storeWord c address value s.dataBuf)
      (kept c s (.writeWord address value)) := by
  by_cases haligned : address % 2 = 0
  · obtain ⟨hbuf, contents, hholds, hiff⟩ := writeDataWord_aligned h haligned value
    refine ⟨hbuf, contents, hholds, hiff.trans ?_⟩
    unfold kept
    dsimp only
    rw [if_neg (by omega), Bool.not_eq_true']
  have hodd : address % 2 = 1 := by omega
  by_cases haddress : address < c.density
  swap
  · -- out of bounds, nothing is written
    unfold EepromStm32.writeDataWord storeWord kept
    dsimp only
    rw [if_pos (by omega), if_neg haddress, if_pos hodd]
    refine ⟨rfl, s.dataBuf, h, fun _ => ?_, fun _ => rfl⟩
    simp [byteClash, haddress, show ¬ address + 1 < c.density by omega]
  -- the first byte
  obtain ⟨hbuf, hholds⟩ := writeDataByte_spec h address (value.setWidth 8) (fun _ _ => rfl)
    (fun _ => Sound.beyond h)
  unfold EepromStm32.writeDataWord storeWord kept
  dsimp only
  rw [if_neg (by omega), if_pos hodd, if_pos haddress, if_pos hodd]
  generalize (c.writeDataByte address (value.setWidth 8) s).2 = s' at hbuf hholds ⊢
  generalize hfirst : (if byteCompacts c s address (value.setWidth 8) then
    storeByte c address (value.setWidth 8) s.dataBuf
    else storeByte c address
      (if byteClash c s address (value.setWidth 8) then 0 else value.setWidth 8) s.dataBuf) =
    contents at hholds
  -- the second, which is in another word
  have hnear : ∀ x, x / 2 = (address + 1) / 2 → contents x = s'.dataBuf x := by
    intro x hx
    have hne : x ≠ address := by omega
    rw [hbuf, ← hfirst]
    split <;> simp only [storeByte_of_ne _ _ hne]
  obtain ⟨hbuf', hholds'⟩ := writeDataByte_spec hholds (address + 1) ((value >>> 8).setWidth 8)
    hnear (fun x hx => by rw [hbuf]; exact beyond_storeByte (fun _ => Sound.beyond h) _ _ hx)
  refine ⟨by rw [hbuf', hbuf], _, hholds', ?_⟩
  rw [Bool.and_eq_true, Bool.or_eq_true, Bool.not_eq_true', Bool.not_eq_true', hbuf]
  by_cases hclash' : byteClash c s' (address + 1) ((value >>> 8).setWidth 8)
  · obtain ⟨haddress', hne, hnone⟩ := clash_facts hholds hclash'
    rw [hnone, if_neg Bool.false_ne_true, if_pos hclash']
    refine ⟨fun hc => ?_, fun hc => absurd hclash' (by simp [hc.2])⟩
    have hat := congrFun hc (address + 1)
    rw [storeByte_self haddress', storeByte_self haddress'] at hat
    exact absurd hat.symm hne
  rw [if_neg hclash']
  by_cases hcompacts : byteCompacts c s' (address + 1) ((value >>> 8).setWidth 8)
  · rw [if_pos hcompacts]
    exact ⟨fun _ => ⟨Or.inr hcompacts, Bool.eq_false_of_not_eq_true hclash'⟩, fun _ => rfl⟩
  rw [if_neg hcompacts]
  by_cases hclash : byteClash c s address (value.setWidth 8)
  · -- the first byte stays overridden
    obtain ⟨-, hne, hnone⟩ := clash_facts h hclash
    rw [hnone, if_neg Bool.false_ne_true, if_pos hclash] at hfirst
    refine ⟨fun hc => ?_, fun hc => absurd hclash (by simp [hc.1.resolve_right hcompacts])⟩
    have hat := congrFun hc address
    rw [storeByte_of_ne _ _ (by omega), storeByte_of_ne _ _ (by omega), ← hfirst,
      storeByte_self haddress, storeByte_self haddress] at hat
    exact absurd hat.symm hne
  · rw [if_neg hclash, ite_self] at hfirst
    rw [hfirst]
    exact ⟨fun _ => ⟨Or.inl (Bool.eq_false_of_not_eq_true hclash),
      Bool.eq_false_of_not_eq_true hclash'⟩, fun _ => rfl⟩

/-! ### Runs -/

theorem step_leaves (h : Sound c s) (i : EepromInput) :
    Leaves c (c.step s i) (byteArray c s.dataBuf i) (kept c s i) := by
  cases i with
  | writeByte address value => exact writeByte_leaves h address value
  | writeWord address value => exact writeWord_leaves h address value
  | erase =>
    obtain ⟨hsound, hbuf⟩ := eraseAll_sound h
    exact ⟨hbuf, _, hsound, fun _ => rfl, fun _ => hbuf⟩
  | init =>
    unfold EepromStm32.step
    dsimp only
    rw [init_sound h]
    exact ⟨rfl, _, h, fun _ => rfl, fun _ => rfl⟩

theorem byteArray_beyond {bytes : Nat → Byte} (h : ∀ x, c.density ≤ x → bytes x = 0)
    (i : EepromInput) {x : Nat} (hx : c.density ≤ x) : byteArray c bytes i x = 0 := by
  cases i with
  | writeByte address value => exact beyond_storeByte h address value hx
  | writeWord address value =>
    unfold byteArray storeWord
    dsimp only
    split
    · exact beyond_storeByte (fun _ => beyond_storeByte h address _) _ _ hx
    · exact h x hx
  | erase => rfl
  | init => exact h x hx

def Agrees (c : EepromStm32) (s : EepromState × (Nat → Byte)) : Prop :=
  Sound c s.1 ∧ s.1.dataBuf = s.2

theorem Agrees.likeArray {s : EepromState × (Nat → Byte)} (h : Agrees c s) :
    LikeArray c s.1 s.2 := h.2 ▸ Sound.likeArray h.1

theorem step_kept {s : EepromState × (Nat → Byte)} (h : Agrees c s) {i : EepromInput}
    (hi : kept c s.1 i) : Agrees c (besideArray c s i) := by
  obtain ⟨hbuf, contents, hholds, hiff⟩ := step_leaves h.1 i
  have hcontents := hiff.mpr hi
  refine ⟨?_, hbuf.trans (by rw [h.2]; rfl)⟩
  change FlashHolds c (c.step s.1 i) (c.step s.1 i).dataBuf
  rwa [hbuf, ← hcontents]

theorem step_broken {s : EepromState × (Nat → Byte)} (h : Agrees c s) {i : EepromInput}
    (hi : kept c s.1 i ≠ true) : ¬ LikeArray c (besideArray c s i).1 (besideArray c s i).2 := by
  intro hc
  obtain ⟨hbuf, contents, hholds, hiff⟩ := step_leaves h.1 i
  refine hi (hiff.mp ?_)
  have hinit := hc.init
  change (c.init (c.step s.1 i)).dataBuf = (c.step s.1 i).dataBuf at hinit
  rw [init_dataBuf hholds ?_] at hinit
  · exact hinit.trans hbuf
  · intro x hx
    rw [hbuf]
    exact byteArray_beyond (fun _ => Sound.beyond h.1) i hx

/-- The EEPROM is like an array of zeros from the start, whatever it is used for,
    exactly when no write is overridden. -/
theorem eeprom_iff (c : EepromStm32) (inputs : List EepromInput) :
    Always (besideArray c) (fun s => LikeArray c s.1 s.2) (c.start, fun _ => 0) inputs ↔
      Along (besideArray c) (fun s i => kept c s.1 i = true) (c.start, fun _ => 0) inputs :=
  always_iff_along (besideArray c) _ (Agrees c) _ (fun _ hs => hs.likeArray)
    (fun _ _ hs hi => step_kept hs hi) (fun _ _ hs hi => step_broken hs hi) inputs _ start_sound

/-- Four bytes, and a log of one halfword. -/
def tiny : EepromStm32 := { density := 4, logSlots := 1, even := rfl, small := by decide }

/-- A word is written, then one of its bytes, which fills the log, then the word as
    0, and then the word again. -/
def zeroAndBack : List EepromInput :=
  [.writeWord 0 0x0101, .writeByte 0 2, .writeWord 0 0, .writeWord 0 0x0101]

/-- The upper byte of the word is 0 after a power cycle. -/
theorem eeprom_broken :
    ¬ Always (besideArray tiny) (fun s => LikeArray tiny s.1 s.2) (tiny.start, fun _ => 0)
      zeroAndBack := by
  intro h
  have hlast := (always_iff_visited (besideArray tiny) _ zeroAndBack _).mp h zeroAndBack []
    (List.append_nil _).symm
  exact absurd (congrFun hlast.init 1) (by decide +kernel)

end Stm32

end K530
