import K530.Quantum.DynamicKeymap

/-!
# VIA

`via.c`: the packets a host program sends to change the keymap while the
keyboard runs. Their first byte is the command. The answer is the packet itself,
as the handler has left it.

Neither a backlight nor an RGB underglow is compiled in, so the lighting commands
are unknown, and the keyboard adds no commands of its own.

A packet is thirty-two bytes, and behind it lies whatever the stack has there.
`data` is the packet and those of the bytes behind it that may be reached: no
more than the packet, if the question is whether the handler keeps to it.

## Main definitions

* `ViaConfig`: What is compiled in.
-/

namespace K530

open Checked

structure ViaConfig extends KeymapStore where
  /-- `VIA_EEPROM_MAGIC_ADDR` -/
  magicAddr : Nat
  /-- the build date, as the magic has it -/
  magic : List Byte
  /-- `VIA_EEPROM_LAYOUT_OPTIONS_SIZE` -/
  layoutOptionsSize : Nat
  /-- `VIA_EEPROM_LAYOUT_OPTIONS_DEFAULT` -/
  layoutOptionsDefault : BitVec 32
  /-- `VIA_EEPROM_ALLOW_RESET` -/
  allowReset : Bool

structure ViaState (k : KeymapStore) where
  eeprom : Eeprom k.size
  /-- `timer_read32` -/
  uptime : BitVec 32
  /-- `matrix_get_row` -/
  matrix : Nat → BitVec 32

namespace Via

def getProtocolVersion : Byte := 0x01
def getKeyboardValue : Byte := 0x02
def setKeyboardValue : Byte := 0x03
def dynamicKeymapGetKeycode : Byte := 0x04
def dynamicKeymapSetKeycode : Byte := 0x05
def dynamicKeymapReset : Byte := 0x06
def eepromReset : Byte := 0x0A
def dynamicKeymapMacroGetCount : Byte := 0x0C
def dynamicKeymapMacroGetBufferSize : Byte := 0x0D
def dynamicKeymapMacroGetBuffer : Byte := 0x0E
def dynamicKeymapMacroSetBuffer : Byte := 0x0F
def dynamicKeymapMacroReset : Byte := 0x10
def dynamicKeymapGetLayerCount : Byte := 0x11
def dynamicKeymapGetBuffer : Byte := 0x12
def dynamicKeymapSetBuffer : Byte := 0x13
def unhandled : Byte := 0xFF

def uptime : Byte := 0x01
def layoutOptions : Byte := 0x02
def switchMatrixState : Byte := 0x03

def protocolVersion : BitVec 16 := 0x0009

end Via

namespace ViaConfig

variable {n : Nat} (c : ViaConfig)

/-- `VIA_EEPROM_LAYOUT_OPTIONS_ADDR`. -/
def layoutOptionsAddr : Nat := c.magicAddr + 3

/-- `via_get_layout_options`. -/
def getLayoutOptions (e : Eeprom c.size) : BitVec 32 :=
  (List.range c.layoutOptionsSize).foldl
    (fun value i => value <<< 8 ||| (e.readByte (c.layoutOptionsAddr + i)).setWidth 32) 0

/-- `via_set_layout_options`. -/
def setLayoutOptions (value : BitVec 32) (e : Eeprom c.size) : Eeprom c.size :=
  ((List.range c.layoutOptionsSize).foldl
    (fun (e, value) i =>
      (e.updateByte (c.layoutOptionsAddr + c.layoutOptionsSize - 1 - i) (value.setWidth 8),
        value >>> 8)) (e, value)).1

/-- `via_eeprom_set_valid`. -/
def setValid (valid : Bool) (e : Eeprom c.size) : Eeprom c.size :=
  (List.range 3).foldl
    (fun e i => e.updateByte (c.magicAddr + i) (if valid then c.magic.getD i 0 else 0xFF)) e

def eeconfigInitVia (e : Eeprom c.size) : Eeprom c.size :=
  c.setValid true (c.macroReset (c.reset
    (c.setLayoutOptions c.layoutOptionsDefault (c.setValid false e))))

/-- A number, most significant byte first, from this byte of the packet on. -/
def storeWord (value : BitVec 32) (start : Nat) (data : Vector Byte n) :
    Option (Vector Byte n) := do
  let data ← store data start (value.extractLsb' 24 8)
  let data ← store data (start + 1) (value.extractLsb' 16 8)
  let data ← store data (start + 2) (value.extractLsb' 8 8)
  store data (start + 3) (value.extractLsb' 0 8)

def rowBytes : Nat :=
  if c.cols > 24 then 4 else if c.cols > 16 then 3 else if c.cols > 8 then 2 else 1

def storeMatrix (matrix : Nat → BitVec 32) (data : Vector Byte n) : Option (Vector Byte n) :=
  if (c.cols / 8 + 1) * c.rows ≤ 28 then
    loop (fun row data =>
      loop (fun j data =>
        store data (2 + row * c.rowBytes + j)
          ((matrix row).extractLsb' (8 * (c.rowBytes - 1 - j)) 8))
        c.rowBytes data)
      c.rows data
  else some data

/-- `raw_hid_receive_kb`, as it is when the keyboard has none of its own. -/
def rawHidReceiveKb (data : Vector Byte n) : Option (Vector Byte n) :=
  store data 0 Via.unhandled

/-- `id_get_keyboard_value`. -/
def getKeyboardValue (s : ViaState c.toKeymapStore) (data : Vector Byte n) :
    Option (Vector Byte n) := do
  let value ← fetch data 1
  if value = Via.uptime then storeWord s.uptime 2 data
  else if value = Via.layoutOptions then storeWord (c.getLayoutOptions s.eeprom) 2 data
  else if value = Via.switchMatrixState then c.storeMatrix s.matrix data
  else rawHidReceiveKb data

/-- `id_set_keyboard_value`. -/
def setKeyboardValue (s : ViaState c.toKeymapStore) (data : Vector Byte n) :
    Option (Vector Byte n × ViaState c.toKeymapStore) := do
  if (← fetch data 1) = Via.layoutOptions then
    let value := (← fetch data 2) ++ (← fetch data 3) ++ (← fetch data 4) ++ (← fetch data 5)
    return (data, { s with eeprom := c.setLayoutOptions value s.eeprom })
  else return (← rawHidReceiveKb data, s)

/-- `id_get_protocol_version`. -/
def getProtocolVersion (data : Vector Byte n) : Option (Vector Byte n) := do
  let data ← store data 1 (Via.protocolVersion.extractLsb' 8 8)
  store data 2 (Via.protocolVersion.extractLsb' 0 8)

/-- `id_dynamic_keymap_get_keycode`. -/
def dynamicKeymapGetKeycode (s : ViaState c.toKeymapStore) (data : Vector Byte n) :
    Option (Vector Byte n) := do
  let keycode := c.getKeycode s.eeprom (← fetch data 1) (← fetch data 2) (← fetch data 3)
  let data ← store data 4 (keycode.extractLsb' 8 8)
  store data 5 (keycode.extractLsb' 0 8)

/-- `id_dynamic_keymap_set_keycode`. -/
def dynamicKeymapSetKeycode (s : ViaState c.toKeymapStore) (data : Vector Byte n) :
    Option (Eeprom c.size) := do
  let keycode := (← fetch data 4) ++ (← fetch data 5)
  return c.setKeycode s.eeprom (← fetch data 1) (← fetch data 2) (← fetch data 3) keycode

/-- `id_dynamic_keymap_macro_get_buffer_size`. -/
def dynamicKeymapMacroGetBufferSize (data : Vector Byte n) : Option (Vector Byte n) := do
  let size := BitVec.ofNat 16 c.macroSize
  let data ← store data 1 (size.extractLsb' 8 8)
  store data 2 (size.extractLsb' 0 8)

/-- The offset of a stretch, the size of it, and what is done with them. The size
    should be twenty-eight at most, as a remark in the code says. -/
def withStretch {β : Type} (f : Nat → Nat → Option β) (data : Vector Byte n) : Option β := do
  let offset := (← fetch data 1) ++ (← fetch data 2)
  let size ← fetch data 3
  f offset.toNat size.toNat

/-- `id_dynamic_keymap_macro_get_buffer`. -/
def dynamicKeymapMacroGetBuffer (s : ViaState c.toKeymapStore) (data : Vector Byte n) :
    Option (Vector Byte n) :=
  withStretch (fun offset size => c.macroGetBuffer s.eeprom offset size 4 data) data

/-- `id_dynamic_keymap_macro_set_buffer`. -/
def dynamicKeymapMacroSetBuffer (s : ViaState c.toKeymapStore) (data : Vector Byte n) :
    Option (Eeprom c.size) :=
  withStretch (fun offset size => c.macroSetBuffer offset size 4 data s.eeprom) data

/-- `id_dynamic_keymap_get_buffer`. -/
def dynamicKeymapGetBuffer (s : ViaState c.toKeymapStore) (data : Vector Byte n) :
    Option (Vector Byte n) :=
  withStretch (fun offset size => c.getBuffer s.eeprom offset size 4 data) data

/-- `id_dynamic_keymap_set_buffer`. -/
def dynamicKeymapSetBuffer (s : ViaState c.toKeymapStore) (data : Vector Byte n) :
    Option (Eeprom c.size) :=
  withStretch (fun offset size => c.setBuffer offset size 4 data s.eeprom) data

def answered (s : ViaState c.toKeymapStore) (data : Option (Vector Byte n)) :
    Option (Vector Byte n × ViaState c.toKeymapStore) :=
  data.map (fun data => (data, s))

def written (s : ViaState c.toKeymapStore) (data : Vector Byte n)
    (eeprom : Option (Eeprom c.size)) : Option (Vector Byte n × ViaState c.toKeymapStore) :=
  eeprom.map (fun eeprom => (data, { s with eeprom }))

/-- The `switch` of `raw_hid_receive`. -/
def handle (s : ViaState c.toKeymapStore) (data : Vector Byte n) (id : Byte) :
    Option (Vector Byte n × ViaState c.toKeymapStore) :=
  if id = Via.getProtocolVersion then c.answered s (getProtocolVersion data)
  else if id = Via.getKeyboardValue then c.answered s (c.getKeyboardValue s data)
  else if id = Via.setKeyboardValue then c.setKeyboardValue s data
  else if id = Via.dynamicKeymapGetKeycode then c.answered s (c.dynamicKeymapGetKeycode s data)
  else if id = Via.dynamicKeymapSetKeycode then c.written s data (c.dynamicKeymapSetKeycode s data)
  else if id = Via.dynamicKeymapReset then c.written s data (some (c.reset s.eeprom))
  else if id = Via.eepromReset ∧ c.allowReset then
    c.written s data (some (c.eeconfigInitVia (c.setValid false s.eeprom)))
  else if id = Via.dynamicKeymapMacroGetCount then
    c.answered s (store data 1 (BitVec.ofNat 8 c.macroCount))
  else if id = Via.dynamicKeymapMacroGetBufferSize then
    c.answered s (c.dynamicKeymapMacroGetBufferSize data)
  else if id = Via.dynamicKeymapMacroGetBuffer then
    c.answered s (c.dynamicKeymapMacroGetBuffer s data)
  else if id = Via.dynamicKeymapMacroSetBuffer then
    c.written s data (c.dynamicKeymapMacroSetBuffer s data)
  else if id = Via.dynamicKeymapMacroReset then c.written s data (some (c.macroReset s.eeprom))
  else if id = Via.dynamicKeymapGetLayerCount then
    c.answered s (store data 1 (BitVec.ofNat 8 c.layerCount))
  else if id = Via.dynamicKeymapGetBuffer then c.answered s (c.dynamicKeymapGetBuffer s data)
  else if id = Via.dynamicKeymapSetBuffer then c.written s data (c.dynamicKeymapSetBuffer s data)
  else c.answered s (store data 0 Via.unhandled)

def rawHidReceive (s : ViaState c.toKeymapStore) (data : Vector Byte n) :
    Option (Vector Byte n × ViaState c.toKeymapStore) :=
  (fetch data 0).bind (c.handle s data)

def byDefault (keymaps : Nat → Nat → Nat → Keycode) (magic : List Byte) : ViaConfig where
  rows := 5
  cols := 14
  layerCount := 4
  keymapAddr := 39
  macroAddr := 599
  macroSize := 425
  macroCount := 16
  keymaps := keymaps
  size := 1472
  macro_fits := by decide
  size_le := by decide
  keymap_fits := by decide
  keymap_lt := by decide
  magicAddr := 35
  magic := magic
  layoutOptionsSize := 1
  layoutOptionsDefault := 0
  allowReset := false

end ViaConfig

end K530
