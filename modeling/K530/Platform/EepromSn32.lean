import K530.Core.Keycode

/-!
# EEPROM in the Flash of the SN32

`eeprom_sn32.c`: bytes of the flash before its last page, written one at a time.
The flash takes a double word of 32 bits at an aligned address, so a byte is
written by reading the double word it lies in, changing the byte and programming
the double word again.

An address is kept in sixteen bits. Those of a block are cut down to them one by
one as the block is gone through, and only then compared with the size.

What programs the flash is not part of the source, and is a parameter here.

## Main definitions

* `Fee`: The part of the flash that is used.
-/

namespace K530

structure Fee where
  /-- `FEE_PAGE_SIZE` -/
  pageSize : Nat
  /-- `FEE_TOTAL_PAGES` -/
  totalPages : Nat
  /-- `FEE_DENSITY_PAGES` -/
  densityPages : Nat
  pageSize_pos : 0 < pageSize
  densityPages_pos : 0 < densityPages
  /-- The last page is kept free. -/
  pages : densityPages + 1 ≤ totalPages
  /-- The larger of the two chips has 64 Kb of flash. -/
  flash : totalPages * pageSize ≤ 65536

abbrev FlashMemory := Nat → Byte

inductive FlashStatus where
  | okay
  | fail
  deriving DecidableEq

/-- `FLASH_ProgramDWord`. -/
abbrev ProgramDWord := Nat → BitVec 32 → FlashMemory → FlashMemory × FlashStatus

/-- Byte `k` of a double word, as it lies in memory. -/
def dwordByte (value : BitVec 32) (k : Nat) : Byte := value.extractLsb' (8 * k) 8

def setDwordByte (value : BitVec 32) (k : Nat) (byte : Byte) : BitVec 32 :=
  (value &&& ~~~((0xFF : BitVec 32) <<< (8 * k))) ||| (byte.setWidth 32 <<< (8 * k))

def dwordAt (m : FlashMemory) (a : Nat) : BitVec 32 :=
  (m (a + 3) ++ m (a + 2)) ++ (m (a + 1) ++ m a)

namespace Fee

/-- `FEE_DENSITY_BYTES`, the last address. -/
def densityBytes (fee : Fee) : Nat := fee.pageSize * fee.densityPages - 1

/-- `FEE_PAGE_BASE_ADDRESS`. -/
def base (fee : Fee) : Nat :=
  fee.pageSize * fee.totalPages - (fee.densityPages + 1) * fee.pageSize

/-- `EEPROM_WriteDataByte`. -/
def writeDataByte (fee : Fee) (program : ProgramDWord) (address : BitVec 16) (dataByte : Byte)
    (m : FlashMemory) : FlashMemory × FlashStatus :=
  if fee.densityBytes < address.toNat then (m, .fail)
  else
    let addr : BitVec 32 := BitVec.ofNat 32 (fee.base + address.toNat)
    -- The same value is not written again.
    if dataByte = m addr.toNat then (m, .okay)
    else
      -- The flash is programmed by the aligned double word, its other bytes as they are.
      let aligned := (addr &&& 0xFFFFFFFC).toNat
      let value := setDwordByte (dwordAt m aligned) (addr &&& 3).toNat dataByte
      program aligned value m

/-- `EEPROM_ReadDataByte`. -/
def readDataByte (fee : Fee) (address : BitVec 16) (m : FlashMemory) : Byte :=
  if address.toNat ≤ fee.densityBytes then m (fee.base + address.toNat) else 0xFF

/-- `eeprom_read_block`. -/
def readBlock (fee : Fee) (addr : BitVec 32) (m : FlashMemory) : Nat → List Byte
  | 0 => []
  | len + 1 => fee.readDataByte (addr.setWidth 16) m :: fee.readBlock (addr + 1) m len

/-- `eeprom_write_block`. -/
def writeBlock (fee : Fee) (program : ProgramDWord) (addr : BitVec 32) (m : FlashMemory) :
    List Byte → FlashMemory
  | [] => m
  | b :: buf =>
    -- The address is a pointer, and the byte functions take the low half of it.
    fee.writeBlock program (addr + 1) (fee.writeDataByte program (addr.setWidth 16) b m).1 buf

end Fee

inductive Sn32Write where
  /-- `EEPROM_WriteDataByte` -/
  | byte (address : BitVec 16) (dataByte : Byte)
  /-- `eeprom_write_block` -/
  | block (addr : BitVec 32) (buf : List Byte)

namespace Sn32Write

def step (fee : Fee) (program : ProgramDWord) (m : FlashMemory) : Sn32Write → FlashMemory
  | byte address dataByte => (fee.writeDataByte program address dataByte m).1
  | block addr buf => fee.writeBlock program addr m buf

end Sn32Write

end K530
