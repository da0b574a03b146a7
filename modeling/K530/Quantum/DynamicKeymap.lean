import K530.Quantum.SendString

/-!
# The Dynamic Keymap and Its Macros

`dynamic_keymap.c`: a keymap and macros that live in the EEPROM, where a host
program may read and write them.

The EEPROM is an array of bytes as the driver shows it. An address is cut to
sixteen bits on the way, a read beyond the array is `0xFF`, and a write beyond
it is lost.

A host writes either one key, by layer, row and column, or a stretch of bytes,
by offset and size. The stretch is compared with the end of its region byte by
byte. The numbers of a key are not compared with anything: the address is
computed from them as they come.

The bytes of a stretch are in a packet and whatever lies behind it in memory.
The size is not compared with the packet either, so an access to the packet is
checked here, and a function that leaves what it may reach has no result.

## Main definitions

* `Eeprom`: The bytes of the EEPROM.
-/

namespace K530

open Checked

abbrev Eeprom (size : Nat) := Vector Byte size

namespace Eeprom

variable {size : Nat}

def readByte (e : Eeprom size) (address : Nat) : Byte :=
  e.toList.getD (address % 2 ^ 16) 0xFF

/-- `eeprom_update_byte`: a byte that is the same already is not written, which
    makes no difference to what is read. -/
def updateByte (e : Eeprom size) (address : Nat) (value : Byte) : Eeprom size :=
  e.setIfInBounds (address % 2 ^ 16) value

end Eeprom

/-- Where the keymap and the macros are, and the keymap in flash. -/
structure KeymapStore where
  /-- `MATRIX_ROWS` -/
  rows : Nat
  /-- `MATRIX_COLS` -/
  cols : Nat
  /-- `DYNAMIC_KEYMAP_LAYER_COUNT` -/
  layerCount : Nat
  /-- `DYNAMIC_KEYMAP_EEPROM_ADDR` -/
  keymapAddr : Nat
  /-- `DYNAMIC_KEYMAP_MACRO_EEPROM_ADDR` -/
  macroAddr : Nat
  /-- `DYNAMIC_KEYMAP_MACRO_EEPROM_SIZE` -/
  macroSize : Nat
  /-- `DYNAMIC_KEYMAP_MACRO_COUNT` -/
  macroCount : Nat
  /-- `keymaps` -/
  keymaps : Nat → Nat → Nat → Keycode
  /-- How many bytes the EEPROM has. -/
  size : Nat
  /-- `DYNAMIC_KEYMAP_EEPROM_MAX_ADDR` is sixteen bits, and so is an address of
      the EEPROM. -/
  macro_fits : macroAddr + macroSize ≤ 2 ^ 16
  size_le : size ≤ 2 ^ 16
  /-- The keymap is in the EEPROM, and not all of it. -/
  keymap_fits : keymapAddr + layerCount * rows * cols * 2 ≤ size
  keymap_lt : layerCount * rows * cols * 2 < 2 ^ 16

namespace KeymapStore

variable {n : Nat} (k : KeymapStore)

def keymapSize : Nat := k.layerCount * k.rows * k.cols * 2

/-- `dynamic_keymap_eeprom_size`, the same in sixteen bits. -/
def eepromSize : Nat := k.keymapSize % 2 ^ 16

theorem eepromSize_eq : k.eepromSize = k.keymapSize :=
  Nat.mod_eq_of_lt k.keymap_lt

/-- `dynamic_keymap_key_to_eeprom_address`. -/
def keyToEepromAddress (layer row column : Byte) : Nat :=
  k.keymapAddr + layer.toNat * k.rows * k.cols * 2 + row.toNat * k.cols * 2 + column.toNat * 2

/-- `dynamic_keymap_get_keycode`. -/
def getKeycode (e : Eeprom k.size) (layer row column : Byte) : Keycode :=
  let address := k.keyToEepromAddress layer row column
  e.readByte address ++ e.readByte (address + 1)

/-- `dynamic_keymap_set_keycode`. -/
def setKeycode (e : Eeprom k.size) (layer row column : Byte) (keycode : Keycode) : Eeprom k.size :=
  let address := k.keyToEepromAddress layer row column
  (e.updateByte address (keycode.extractLsb' 8 8)).updateByte (address + 1)
    (keycode.extractLsb' 0 8)

/-- `dynamic_keymap_reset`. -/
def reset (e : Eeprom k.size) : Eeprom k.size :=
  (List.range k.layerCount).foldl (fun e layer =>
    (List.range k.rows).foldl (fun e row =>
      (List.range k.cols).foldl (fun e column =>
        k.setKeycode e (BitVec.ofNat 8 layer) (BitVec.ofNat 8 row) (BitVec.ofNat 8 column)
          (k.keymaps layer row column)) e) e) e

/-- `dynamic_keymap_get_buffer` and `dynamic_keymap_macro_get_buffer`: a byte
    beyond the region is zero. `target` is where in the packet the bytes go. -/
def readStretch (e : Eeprom k.size) (addr region offset size target : Nat) (data : Vector Byte n) :
    Option (Vector Byte n) :=
  loop (fun i data =>
    store data (target + i) (if offset + i < region then e.readByte (addr + offset + i) else 0))
    size data

/-- `dynamic_keymap_set_buffer` and `dynamic_keymap_macro_set_buffer`: a byte
    beyond the region is not written, and not read from the packet either. -/
def writeStretch (addr region offset size source : Nat) (data : Vector Byte n) (e : Eeprom k.size) :
    Option (Eeprom k.size) :=
  loop (fun i e =>
    if offset + i < region then
      (fetch data (source + i)).map (fun b => e.updateByte (addr + offset + i) b)
    else some e)
    size e

/-- `dynamic_keymap_get_buffer`. -/
def getBuffer (e : Eeprom k.size) (offset size target : Nat) (data : Vector Byte n) :
    Option (Vector Byte n) :=
  k.readStretch e k.keymapAddr k.eepromSize offset size target data

/-- `dynamic_keymap_set_buffer`. -/
def setBuffer (offset size source : Nat) (data : Vector Byte n) (e : Eeprom k.size) :
    Option (Eeprom k.size) :=
  k.writeStretch k.keymapAddr k.eepromSize offset size source data e

/-- `dynamic_keymap_macro_get_buffer`. -/
def macroGetBuffer (e : Eeprom k.size) (offset size target : Nat) (data : Vector Byte n) :
    Option (Vector Byte n) :=
  k.readStretch e k.macroAddr k.macroSize offset size target data

/-- `dynamic_keymap_macro_set_buffer`. -/
def macroSetBuffer (offset size source : Nat) (data : Vector Byte n) (e : Eeprom k.size) :
    Option (Eeprom k.size) :=
  k.writeStretch k.macroAddr k.macroSize offset size source data e

/-- `dynamic_keymap_macro_reset`. -/
def macroReset (e : Eeprom k.size) : Eeprom k.size :=
  (List.range k.macroSize).foldl (fun e i => e.updateByte (k.macroAddr + i) 0) e

end KeymapStore

/-!
### Sending a Macro

`dynamic_keymap_macro_send`: the macros are the strings of the macro region, each
up to a zero. A macro is found by counting the zeros before it, and is handed to
`send_string` in pieces, a character or an escape at a time. The region has no
`SS_QMK_PREFIX` before the code of a key, so that is put in.

What has been read is kept, as is what has been handed over.
-/

/-- The addresses that have been read, and the strings that have been sent. -/
structure MacroReads where
  reads : List Nat
  strings : List (List Byte)

def MacroReads.after (r : MacroReads) (reads : List Nat) (strings : List (List Byte)) :
    MacroReads :=
  { reads := reads ++ r.reads, strings := strings ++ r.strings }

def isMagicChar (b : Byte) : Bool := b == ssTapCode || b == ssDownCode || b == ssUpCode

namespace KeymapStore

variable (k : KeymapStore)

/-- The loop that skips the zeros: where it leaves `p`, if it has not come to the
    end, and what it reads. -/
def skipMacros (e : Eeprom k.size) : Nat → Nat → Nat → Option (Option Nat × List Nat)
  | 0, _, _ => none
  | _ + 1, p, 0 => some (some p, [])
  | fuel + 1, p, id + 1 =>
    if p = k.macroAddr + k.macroSize then some (none, [])
    else
      (skipMacros e fuel (p + 1) (if e.readByte p = 0 then id else id + 1)).map
        (fun r => (r.1, p :: r.2))

def sendPieces (e : Eeprom k.size) : Nat → Nat → Option MacroReads
  | 0, _ => none
  | fuel + 1, p =>
    let data0 := e.readByte p
    if data0 = 0 then some ⟨[p], []⟩
    else if isMagicChar data0 then
      let data2 := e.readByte (p + 1)
      if data2 = 0 then some ⟨[p, p + 1], []⟩
      else
        (sendPieces e fuel (p + 2)).map
          (fun r => r.after [p, p + 1] [[ssQmkPrefix, data0, data2]])
    else (sendPieces e fuel (p + 1)).map (fun r => r.after [p] [[data0]])

/-- `dynamic_keymap_macro_send`. -/
def macroSend (e : Eeprom k.size) (fuel : Nat) (id : Byte) : Option MacroReads :=
  if id.toNat ≥ k.macroCount then some ⟨[], []⟩
  else
    let last := k.macroAddr + k.macroSize - 1
    if e.readByte last ≠ 0 then some ⟨[last], []⟩
    else
      match k.skipMacros e fuel k.macroAddr id.toNat with
      | none => none
      | some (none, reads) => some ⟨last :: reads, []⟩
      | some (some p, reads) => (k.sendPieces e fuel p).map (fun r => r.after (last :: reads) [])

end KeymapStore

end K530
