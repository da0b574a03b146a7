import K530.Core.Keycode
import K530.Lib.Flash

/-!
# Emulated EEPROM

`eeprom_stm32.c`: an EEPROM in a few pages of flash.

The pages begin with a compacted copy of the contents, complemented so that an
erased halfword is 0, and after it comes a log of what has been written since.
`DataBuf` has the contents for reading, and `EEPROM_Init` makes it from the
flash.

Places in the flash are counted in halfwords from the first of the pages, and
the log has its own count from `FEE_WRITE_LOG_BASE_ADDRESS`, which `empty_slot`
is in. `DataBuf` is a function on all addresses: what is beyond the buffer is
memory that is not the emulation's. The flash operations are those of a device
that succeeds, so that a status is one of three.

## Main definitions

* `EepromStm32`: The two sizes.
-/

namespace K530

open Flash

abbrev HalfWord := BitVec 16

/-- `FEE_EMPTY_WORD` -/
def emptyWord : HalfWord := 0xFFFF

structure EepromStm32 where
  /-- `FEE_DENSITY_BYTES` -/
  density : Nat
  /-- `FEE_WRITE_LOG_BYTES`, in halfwords -/
  logSlots : Nat
  even : density % 2 = 0
  /-- `FEE_ADDRESS_MAX_SIZE` -/
  small : density ≤ 0x4000

structure EepromState where
  flash : Flash.Device HalfWord
  dataBuf : Nat → Byte
  emptySlot : Nat

/-- 0, `FLASH_COMPLETE` or `FLASH_BAD_ADDRESS`. -/
inductive WriteStatus where
  | skipped
  | complete
  | badAddress
  deriving DecidableEq

/-- `*(uint16_t *)(&DataBuf[address])` -/
def wordAt (dataBuf : Nat → Byte) (address : Nat) : HalfWord :=
  dataBuf (address + 1) ++ dataBuf address

def setWord (dataBuf : Nat → Byte) (address : Nat) (value : HalfWord) : Nat → Byte :=
  Function.update (Function.update dataBuf address (value.setWidth 8)) (address + 1)
    ((value >>> 8).setWidth 8)

namespace EepromStm32

variable (c : EepromStm32)

/-- How many halfwords the compacted area has, and where the log begins. -/
def words : Nat := c.density / 2

/-! ### Making the contents from the flash -/

/-- The first loop of `EEPROM_Init`. -/
def loadCompacted (flash : Nat → HalfWord) (dataBuf : Nat → Byte) : Nat → Byte := fun address =>
  if address < c.density then
    if address % 2 = 0 then (~~~ flash (address / 2)).setWidth 8
    else (~~~ flash (address / 2) >>> 8).setWidth 8
  else dataBuf address

def log (flash : Nat → HalfWord) : List HalfWord :=
  (List.range c.logSlots).map (fun slot => flash (c.words + slot))

def replayWord (address : HalfWord) (value : HalfWord) (dataBuf : Nat → Byte) : Nat → Byte :=
  if address.toNat < c.density then setWord dataBuf address.toNat value else dataBuf

/-- The second loop of `EEPROM_Init`, and `log_addr` after it. -/
def replay : List HalfWord → Nat → (Nat → Byte) → (Nat → Byte) × Nat
  | [], slot, dataBuf => (dataBuf, slot)
  | entry :: rest, slot, dataBuf =>
    if entry = emptyWord then (dataBuf, slot)
    else if entry &&& 0x8000 = 0 then
      replay rest (slot + 1)
        (Function.update dataBuf (entry >>> 8).toNat (entry.setWidth 8))
    else if entry &&& 0x6000 = 0x6000 then
      -- the value is the next halfword
      match rest with
      | [] => (dataBuf, slot + 1)
      | value :: rest =>
        if ~~~ value = 0 then replay rest (slot + 2) dataBuf
        else
          replay rest (slot + 2)
            (c.replayWord ((entry &&& 0x1FFF) <<< 1 + 0x80) (~~~ value) dataBuf)
    else if entry &&& 0x4000 ≠ 0 then replay rest (slot + 1) dataBuf
    else
      replay rest (slot + 1)
        (c.replayWord ((entry &&& 0x1FFF) <<< 1) ((entry &&& 0x2000) >>> 13) dataBuf)

/-- `EEPROM_Init`. -/
def init (s : EepromState) : EepromState :=
  let (dataBuf, emptySlot) :=
    c.replay (c.log s.flash.words) 0 (c.loadCompacted s.flash.words s.dataBuf)
  { s with dataBuf, emptySlot }

/-! ### Writing -/

/-- `eeprom_clear`. -/
def clear (s : EepromState) : EepromState :=
  { s with flash := s.flash.erase emptyWord, emptySlot := 0 }

/-- `EEPROM_Erase`. -/
def eraseAll (s : EepromState) : EepromState := c.init (clear s)

/-- `FLASH_ProgramHalfWord`. -/
def program (place : Nat) (value : HalfWord) (s : EepromState) : EepromState :=
  { s with flash := s.flash.program emptyWord place value }

/-- A turn of the loop of `eeprom_compact`. -/
def compactWord (s : EepromState) (place : Nat) : EepromState :=
  if wordAt s.dataBuf (2 * place) ≠ 0 then
    program place (~~~ wordAt s.dataBuf (2 * place)) s
  else s

/-- `eeprom_compact`. -/
def compact (s : EepromState) : EepromState :=
  (List.range c.words).foldl compactWord (clear s)

/-- `eeprom_write_direct_entry`, or nothing where it returns 0. The address
    without its lowest bit is twice the place. -/
def writeDirectEntry (address : Nat) (s : EepromState) : Option EepromState :=
  if s.flash.words (address / 2) = emptyWord then
    if ~~~ wordAt s.dataBuf (2 * (address / 2)) = emptyWord then some s
    else some (program (address / 2) (~~~ wordAt s.dataBuf (2 * (address / 2))) s)
  else none

def appendLog (value : HalfWord) (s : EepromState) : EepromState :=
  { program (c.words + s.emptySlot) value s with emptySlot := s.emptySlot + 1 }

/-- `eeprom_write_log_word_entry`. -/
def writeLogWordEntry (address : Nat) (s : EepromState) : EepromState :=
  let value := wordAt s.dataBuf address
  if value ≤ 1 then
    if s.emptySlot + 1 > c.logSlots then c.compact s
    else c.appendLog ((BitVec.ofNat 16 address >>> 1) ||| (0x8000 ||| value <<< 13)) s
  else
    if s.emptySlot + 2 > c.logSlots then c.compact s
    else
      c.appendLog (~~~ value)
        (c.appendLog (((BitVec.ofNat 16 address - 0x80) >>> 1) ||| (0x8000 ||| 0x6000)) s)

/-- `eeprom_write_log_byte_entry`. -/
def writeLogByteEntry (address : Nat) (s : EepromState) : EepromState :=
  if s.emptySlot ≥ c.logSlots then c.compact s
  else
    c.appendLog ((BitVec.ofNat 16 address <<< 8) ||| (s.dataBuf address).setWidth 16) s

/-- `EEPROM_WriteDataByte`. -/
def writeDataByte (address : Nat) (value : Byte) (s : EepromState) : WriteStatus × EepromState :=
  if address ≥ c.density then (.badAddress, s)
  else if s.dataBuf address = value then (.skipped, s)
  else
    let s := { s with dataBuf := Function.update s.dataBuf address value }
    match writeDirectEntry address s with
    | some s => (.complete, s)
    | none =>
      if address < 0x80 then (.complete, c.writeLogByteEntry address s)
      else (.complete, c.writeLogWordEntry (2 * (address / 2)) s)

/-- The end of an aligned `EEPROM_WriteDataWord` below `FEE_BYTE_RANGE`: a byte
    is logged if it has changed. -/
def writeLogBytes (address : Nat) (old value : HalfWord) (s : EepromState) : EepromState :=
  let s := if old.setWidth 8 ≠ value.setWidth 8 then c.writeLogByteEntry address s else s
  if old >>> 8 ≠ value >>> 8 then c.writeLogByteEntry (address + 1) s else s

/-- `EEPROM_WriteDataWord`. -/
def writeDataWord (address : Nat) (value : HalfWord) (s : EepromState) :
    WriteStatus × EepromState :=
  if address ≥ c.density then (.badAddress, s)
  else if address % 2 = 1 then
    let (finalStatus, s) := c.writeDataByte address (value.setWidth 8) s
    let (status, s) := c.writeDataByte (address + 1) ((value >>> 8).setWidth 8) s
    (if status ≠ .complete then status else finalStatus, s)
  else if wordAt s.dataBuf address = value then (.skipped, s)
  else
    let old := wordAt s.dataBuf address
    let s := { s with dataBuf := setWord s.dataBuf address value }
    match writeDirectEntry address s with
    | some s => (.complete, s)
    | none =>
      if address < 0x80 then (.complete, c.writeLogBytes address old value s)
      else (.complete, c.writeLogWordEntry address s)

/-! ### Reading -/

/-- `EEPROM_ReadDataByte`. -/
def readDataByte (address : Nat) (s : EepromState) : Byte :=
  if address < c.density then s.dataBuf address else 0xFF

/-- `EEPROM_ReadDataWord`. -/
def readDataWord (address : Nat) (s : EepromState) : HalfWord :=
  if address + 1 < c.density then
    if address % 2 = 1 then
      (s.dataBuf address).setWidth 16 ||| (s.dataBuf (address + 1)).setWidth 16 <<< 8
    else wordAt s.dataBuf address
  else 0xFFFF

end EepromStm32

inductive EepromInput where
  | writeByte (address : Nat) (value : Byte)
  | writeWord (address : Nat) (value : HalfWord)
  | erase
  /-- a power cycle -/
  | init

namespace EepromStm32

variable (c : EepromStm32)

/-- The flash erased, and `EEPROM_Init` called on it. -/
def start : EepromState :=
  c.init { flash := .new emptyWord, dataBuf := fun _ => 0, emptySlot := 0 }

def step (s : EepromState) : EepromInput → EepromState
  | .writeByte address value => (c.writeDataByte address value s).2
  | .writeWord address value => (c.writeDataWord address value s).2
  | .erase => c.eraseAll s
  | .init => c.init s

end EepromStm32

end K530

/-!
### Emulated EEPROM on a Flash That May Fail

`eeprom_stm32.c` again, with what its functions return. They write `DataBuf`
first and then the flash, and return what became of that: `FLASH_COMPLETE`, 0 if
there was nothing to write, or the status of an operation that has failed.

The flash is whatever `flash_stm32.c` drives. It may fail in any way and at any
time, and what it holds then is its own affair. Only it does not return
`FLASH_BAD_ADDRESS` for a place in the pages, which are in the flash.
-/

namespace K530

/-- `FLASH_Status`. -/
inductive Stm32FlashStatus where
  | busy
  | errorPg
  | errorWrp
  | errorOpt
  | complete
  | timeout
  | badAddress
  deriving DecidableEq

/-- `flash_stm32.c`. Places are halfwords from the first of the pages. -/
structure FlashDriver (c : EepromStm32) (σ : Type) where
  words : σ → Nat → HalfWord
  /-- `FLASH_ErasePage` of the pages -/
  erasePages : σ → σ
  /-- `FLASH_ProgramHalfWord` -/
  programHalfWord : Nat → HalfWord → σ → Stm32FlashStatus × σ
  /-- `IS_FLASH_ADDRESS` of the pages -/
  inFlash : ∀ place value s, place < c.words + c.logSlots →
    (programHalfWord place value s).1 ≠ .badAddress

structure DrivenEeprom (σ : Type) where
  flash : σ
  dataBuf : Nat → Byte
  emptySlot : Nat

namespace FlashDriver

variable {c : EepromStm32} {σ : Type} (d : FlashDriver c σ)

def reliable (c : EepromStm32) : FlashDriver c (Flash.Device HalfWord) where
  words s := s.words
  erasePages s := s.erase emptyWord
  programHalfWord place value s := (.complete, s.program emptyWord place value)
  inFlash _ _ _ _ h := Stm32FlashStatus.noConfusion h

/-- `final_status` after another operation. Here and below nothing is 0. -/
def finalStatus (final status : Option Stm32FlashStatus) : Option Stm32FlashStatus :=
  if status ≠ some .complete then status else final

/-! ### Writing -/

/-- `eeprom_clear`. -/
def clear (s : DrivenEeprom σ) : DrivenEeprom σ :=
  -- What the erasing of a page returns is not looked at.
  { s with flash := d.erasePages s.flash, emptySlot := 0 }

/-- `FLASH_ProgramHalfWord`. -/
def program (place : Nat) (value : HalfWord) (s : DrivenEeprom σ) :
    Option Stm32FlashStatus × DrivenEeprom σ :=
  let (status, flash) := d.programHalfWord place value s.flash
  (some status, { s with flash })

/-- A turn of the loop of `eeprom_compact`. -/
def compactWord (x : Option Stm32FlashStatus × DrivenEeprom σ) (place : Nat) :
    Option Stm32FlashStatus × DrivenEeprom σ :=
  if wordAt x.2.dataBuf (2 * place) ≠ 0 then
    let (status, s) := d.program place (~~~ wordAt x.2.dataBuf (2 * place)) x.2
    (finalStatus x.1 status, s)
  else x

/-- `eeprom_compact`. -/
def compact (s : DrivenEeprom σ) : Option Stm32FlashStatus × DrivenEeprom σ :=
  (List.range c.words).foldl d.compactWord (some .complete, d.clear s)

/-- `eeprom_write_direct_entry`. -/
def writeDirectEntry (address : Nat) (s : DrivenEeprom σ) :
    Option Stm32FlashStatus × DrivenEeprom σ :=
  if d.words s.flash (address / 2) = emptyWord then
    if ~~~ wordAt s.dataBuf (2 * (address / 2)) = emptyWord then (some .complete, s)
    else d.program (address / 2) (~~~ wordAt s.dataBuf (2 * (address / 2))) s
  else (none, s)

def appendLog (value : HalfWord) (s : DrivenEeprom σ) :
    Option Stm32FlashStatus × DrivenEeprom σ :=
  let (status, s') := d.program (c.words + s.emptySlot) value s
  -- The slot is used up even if the operation has failed.
  (status, { s' with emptySlot := s'.emptySlot + 1 })

/-- `eeprom_write_log_word_entry`. -/
def writeLogWordEntry (address : Nat) (s : DrivenEeprom σ) :
    Option Stm32FlashStatus × DrivenEeprom σ :=
  let value := wordAt s.dataBuf address
  if value ≤ 1 then
    if s.emptySlot + 1 > c.logSlots then d.compact s
    else d.appendLog ((BitVec.ofNat 16 address >>> 1) ||| (0x8000 ||| value <<< 13)) s
  else
    if s.emptySlot + 2 > c.logSlots then d.compact s
    else
      let (final, s) :=
        d.appendLog (((BitVec.ofNat 16 address - 0x80) >>> 1) ||| (0x8000 ||| 0x6000)) s
      let (status, s) := d.appendLog (~~~ value) s
      (finalStatus final status, s)

/-- `eeprom_write_log_byte_entry`. -/
def writeLogByteEntry (address : Nat) (s : DrivenEeprom σ) :
    Option Stm32FlashStatus × DrivenEeprom σ :=
  if s.emptySlot ≥ c.logSlots then d.compact s
  else
    d.appendLog ((BitVec.ofNat 16 address <<< 8) ||| (s.dataBuf address).setWidth 16) s

/-- `EEPROM_WriteDataByte`. -/
def writeDataByte (address : Nat) (value : Byte) (s : DrivenEeprom σ) :
    Option Stm32FlashStatus × DrivenEeprom σ :=
  if address ≥ c.density then (some .badAddress, s)
  else if s.dataBuf address = value then (none, s)
  else
    let (status, s) :=
      d.writeDirectEntry address { s with dataBuf := Function.update s.dataBuf address value }
    if status = none then
      if address < 0x80 then d.writeLogByteEntry address s
      else d.writeLogWordEntry (2 * (address / 2)) s
    else (status, s)

/-- The end of an aligned `EEPROM_WriteDataWord` below `FEE_BYTE_RANGE`. -/
def writeLogBytes (address : Nat) (old value : HalfWord) (s : DrivenEeprom σ) :
    Option Stm32FlashStatus × DrivenEeprom σ :=
  let (final, s) :=
    if old.setWidth 8 ≠ value.setWidth 8 then d.writeLogByteEntry address s
    else (some .complete, s)
  let (status, s) :=
    if old >>> 8 ≠ value >>> 8 then d.writeLogByteEntry (address + 1) s else (some .complete, s)
  (finalStatus final status, s)

/-- `EEPROM_WriteDataWord`. -/
def writeDataWord (address : Nat) (value : HalfWord) (s : DrivenEeprom σ) :
    Option Stm32FlashStatus × DrivenEeprom σ :=
  if address ≥ c.density then (some .badAddress, s)
  else if address % 2 = 1 then
    let (final, s) := d.writeDataByte address (value.setWidth 8) s
    let (status, s) := d.writeDataByte (address + 1) ((value >>> 8).setWidth 8) s
    (finalStatus final status, s)
  else if wordAt s.dataBuf address = value then (none, s)
  else
    let old := wordAt s.dataBuf address
    let (final, s) :=
      d.writeDirectEntry address { s with dataBuf := setWord s.dataBuf address value }
    if final = none then
      if address < 0x80 then d.writeLogBytes address old value s
      else d.writeLogWordEntry address s
    else (final, s)

/-! ### Reading -/

/-- `EEPROM_ReadDataByte`. -/
def readDataByte (c : EepromStm32) (address : Nat) (s : DrivenEeprom σ) : Byte :=
  if address < c.density then s.dataBuf address else 0xFF

/-- `EEPROM_ReadDataWord`. -/
def readDataWord (c : EepromStm32) (address : Nat) (s : DrivenEeprom σ) : HalfWord :=
  if address + 1 < c.density then
    if address % 2 = 1 then
      (s.dataBuf address).setWidth 16 ||| (s.dataBuf (address + 1)).setWidth 16 <<< 8
    else wordAt s.dataBuf address
  else 0xFFFF

end FlashDriver

end K530
