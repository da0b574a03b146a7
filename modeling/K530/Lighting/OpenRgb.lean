import K530.Lighting.Matrix

/-!
# The OpenRGB Protocol

`openrgb.c`: what the keyboard does with the packets of a host program.

A packet is sixty-four bytes and its first byte is the command. Every command
but the one that sets LEDs in bulk is answered, by the sixty-four bytes of
`raw_hid_buffer` as the handler has left them, after which the buffer is zero
again. The handlers take counts and indexes out of the packet and use them on
the packet, on the buffer and on the colors. C does not check an index, so
those accesses are checked here, and a handler that leaves an array has no
result.

Indexes are computed in bytes: `i * 7` and `i * 4` wrap, and so does a LED
number. The offsets added to them in the brackets do not.

The tables of the keyboard, the effects compiled in and the names it reports
are a `Device`.

## Main definitions

* `Packet`: Sixty-four bytes.
-/

namespace K530

open Checked

/-- `RAW_EPSIZE` bytes. -/
abbrev Packet := Vector Byte 64

/-- The packet that starts with these bytes and is zero behind them. -/
def Packet.ofList (bytes : List Byte) : Packet :=
  Vector.ofFn (fun i => bytes.getD i.val 0)

def Packet.at (p : Packet) (i : Nat) : Byte := p.toList.getD i 0

theorem Packet.fetch_of_lt (p : Packet) (i : Nat) (h : i < 64) : fetch p i = some (p.at i) := by
  unfold fetch Packet.at
  have hlen : i < p.toList.length := by rwa [Vector.length_toList]
  rw [List.getD_eq_getElem?_getD, List.getElem?_eq_getElem hlen, Option.getD_some]

theorem Packet.at_of_fetch (p : Packet) (i : Nat) (b : Byte) (h : fetch p i = some b) :
    p.at i = b := by
  unfold fetch at h
  unfold Packet.at
  rw [List.getD_eq_getElem?_getD, h, Option.getD_some]

theorem Packet.ofList_at (bytes : List Byte) (i : Nat) (h : i < 64) :
    (Packet.ofList bytes).at i = bytes.getD i 0 := by
  unfold Packet.at Packet.ofList
  have hlen : i < (Vector.ofFn (fun i : Fin 64 => bytes.getD i.val 0)).toList.length := by
    rwa [Vector.length_toList]
  rw [List.getD_eq_getElem?_getD, List.getElem?_eq_getElem hlen, Option.getD_some,
    Vector.getElem_toList, Vector.getElem_ofFn]

theorem Packet.at_setIfInBounds (p : Packet) (i j : Nat) (b : Byte) (h : i < 64) :
    Packet.at (p.setIfInBounds i b) j = if i = j then b else p.at j := by
  unfold Packet.at
  have hfetch := fetch_setIfInBounds p i j b h
  unfold fetch at hfetch
  rw [List.getD_eq_getElem?_getD, hfetch, List.getD_eq_getElem?_getD]
  split <;> rfl

structure LedPoint where
  x : Byte
  y : Byte
  deriving DecidableEq

structure Rgb where
  r : Byte
  g : Byte
  b : Byte
  deriving DecidableEq

/-- What is compiled in: `g_led_config`, the base layer, the effects, and the
    names. The effects are those the protocol lists before the direct one. -/
structure Device where
  /-- `DRIVER_LED_TOTAL` -/
  ledTotal : Nat
  rows : Nat
  cols : Nat
  matrixCo : Vector (Vector Byte cols) rows
  point : Vector LedPoint ledTotal
  ledFlags : Vector Byte ledTotal
  /-- `keymaps[0]` -/
  baseLayer : Vector (Vector Keycode cols) rows
  /-- `openrgb_rgb_matrix_effects_indexes` -/
  effects : List Byte
  /-- `RGB_MATRIX_OPENRGB_DIRECT` -/
  direct : Byte
  /-- `RGB_MATRIX_EFFECT_MAX` -/
  effectMax : Nat
  qmkVersion : List Byte
  product : List Byte
  manufacturer : List Byte
  /-- LED numbers are bytes. -/
  ledTotal_le : ledTotal ≤ 255
  /-- The effects and the direct one fit in an answer, between the command and
      the two bytes at the end. -/
  effects_fit : effects.length + 1 ≤ 62
  /-- `RGB_MATRIX_NONE` is no effect to choose. -/
  effects_ne : ∀ e ∈ effects, e ≠ 0
  direct_ne : direct ≠ 0
  direct_lt : direct.toNat < effectMax

structure Firmware (d : Device) where
  /-- `raw_hid_buffer` -/
  buffer : Packet
  /-- `g_openrgb_direct_mode_colors` -/
  colors : Vector Rgb d.ledTotal
  matrix : RgbMatrix
  deriving DecidableEq

namespace OpenRgb

def getProtocolVersion : Byte := 1
def getQmkVersion : Byte := 2
def getDeviceInfo : Byte := 3
def getModeInfo : Byte := 4
def getLedInfo : Byte := 5
def getEnabledModes : Byte := 6
def setMode : Byte := 7
def directModeSetSingleLed : Byte := 8
def directModeSetLeds : Byte := 9

def protocolVersion : Byte := 0xD

def failure : Byte := 25
def success : Byte := 50
def endOfMessage : Byte := 100

end OpenRgb

/-- `raw_hid_buffer` between two packets. -/
def Packet.zero : Packet := Vector.replicate 64 0

namespace Firmware

variable {d : Device}

/-- The state after a reset, with these settings of the lighting. -/
def init (config : RgbConfig) : Firmware d :=
  { buffer := Packet.zero, colors := Vector.replicate d.ledTotal { r := 40, g := 40, b := 40 },
    matrix := RgbMatrix.init config }

/-! ### Queries -/

/-- `openrgb_get_protocol_version`. -/
def getProtocolVersion (buffer : Packet) : Option Packet := do
  let buffer ← store buffer 0 OpenRgb.getProtocolVersion
  store buffer 1 OpenRgb.protocolVersion

/-- `openrgb_get_qmk_version`. -/
def getQmkVersion (d : Device) (buffer : Packet) : Option Packet := do
  let buffer ← store buffer 0 OpenRgb.getQmkVersion
  let copied ← copyUpTo 62 d.qmkVersion 1 buffer
  return copied.2

/-- `openrgb_get_device_info`. -/
def getDeviceInfo (d : Device) (buffer : Packet) : Option Packet := do
  let buffer ← store buffer 0 OpenRgb.getDeviceInfo
  let buffer ← store buffer 1 (BitVec.ofNat 8 d.ledTotal)
  let buffer ← store buffer 2 (BitVec.ofNat 8 (d.cols * d.rows))
  let product ← copyUpTo 31 d.product 3 buffer
  let buffer ← store product.2 product.1 0
  let manufacturer ← copyUpTo 62 d.manufacturer (product.1 + 1) buffer
  return manufacturer.2

/-- `openrgb_get_mode_info`. -/
def getModeInfo (config : RgbConfig) (buffer : Packet) : Option Packet := do
  let buffer ← store buffer 0 OpenRgb.getModeInfo
  let buffer ← store buffer 1 (config.mode.setWidth 8)
  let buffer ← store buffer 2 config.speed
  let buffer ← store buffer 3 config.hsv.h
  let buffer ← store buffer 4 config.hsv.s
  store buffer 5 config.hsv.v

/-- The column of a row that holds the LED, or the number of columns. -/
def columnOfLed (d : Device) (led : Byte) (row : Nat) : Option Nat := do
  let entries ← fetch d.matrixCo row
  search (fun col => (fetch entries col).map (· == led)) d.cols

def rowOfLed (d : Device) (led : Byte) : Option Nat :=
  search (fun row => (columnOfLed d led row).map (decide <| · < d.cols)) d.rows

/-- The low byte of the base keycode at the LED, the first in the matrix if
    there are several, and `KC_NO` if there is none. -/
def keycodeOfLed (d : Device) (led : Byte) : Option Byte := do
  let row ← rowOfLed d led
  if row ≥ d.rows then return 0
  let col ← columnOfLed d led row
  if col ≥ d.cols then return 0
  let keycodes ← fetch d.baseLayer row
  let keycode ← fetch keycodes col
  return lowByte keycode

/-- Place, flags and color of a LED, or that there is none of that number. -/
def describeLed (d : Device) (colors : Vector Rgb d.ledTotal) (ledIdx : Byte) (dataIdx : Nat)
    (buffer : Packet) : Option Packet :=
  if ledIdx.toNat ≥ d.ledTotal then store buffer (dataIdx + 3) OpenRgb.failure
  else do
    let point ← fetch d.point ledIdx.toNat
    let flags ← fetch d.ledFlags ledIdx.toNat
    let color ← fetch colors ledIdx.toNat
    let buffer ← store buffer (dataIdx + 1) point.x
    let buffer ← store buffer (dataIdx + 2) point.y
    let buffer ← store buffer (dataIdx + 3) flags
    let buffer ← store buffer (dataIdx + 4) color.r
    let buffer ← store buffer (dataIdx + 5) color.g
    store buffer (dataIdx + 6) color.b

/-- The loop of `openrgb_get_led_info`. -/
def ledInfoTurn (d : Device) (colors : Vector Rgb d.ledTotal) (firstLed : Byte) (i : Nat)
    (buffer : Packet) : Option Packet := do
  let ledIdx := firstLed + BitVec.ofNat 8 i
  let dataIdx := (BitVec.ofNat 8 i * 7).toNat
  let buffer ← describeLed d colors ledIdx dataIdx buffer
  let keycode ← keycodeOfLed d ledIdx
  store buffer (dataIdx + 7) keycode

/-- `openrgb_get_led_info`. -/
def getLedInfo (data : Packet) (fw : Firmware d) : Option Packet := do
  let firstLed ← fetch data 1
  let numberLeds ← fetch data 2
  let buffer ← store fw.buffer 0 OpenRgb.getLedInfo
  loop (ledInfoTurn d fw.colors firstLed) numberLeds.toNat buffer

/-- `openrgb_get_enabled_modes`. -/
def getEnabledModes (d : Device) (buffer : Packet) : Option Packet := do
  let buffer ← store buffer 0 OpenRgb.getEnabledModes
  let buffer ← loop (fun i buffer => do
    let effect ← d.effects[i]?
    store buffer (i + 1) effect) d.effects.length buffer
  store buffer (d.effects.length + 1) d.direct

/-! ### Commands -/

/-- `openrgb_set_mode`. Of the checks at its head only the one of the mode can
    fail, the others being of bytes. -/
def setMode (data : Packet) (fw : Firmware d) : Option (Firmware d) := do
  let h ← fetch data 1
  let s ← fetch data 2
  let v ← fetch data 3
  let mode ← fetch data 4
  let speed ← fetch data 5
  let save ← fetch data 6
  let buffer ← store fw.buffer 0 OpenRgb.setMode
  if mode.toNat ≥ d.effectMax then
    let buffer ← store buffer 62 OpenRgb.failure
    return { fw with buffer }
  let save := save == 1
  let matrix := RgbMatrix.modeHelper d.effectMax mode save fw.matrix
  let matrix := RgbMatrix.setSpeedHelper speed save matrix
  let matrix := RgbMatrix.sethsvHelper { h, s, v } save matrix
  let buffer ← store buffer 62 OpenRgb.success
  return { fw with buffer, matrix }

/-- `openrgb_direct_mode_set_single_led`. -/
def directModeSetSingleLed (data : Packet) (fw : Firmware d) : Option (Firmware d) := do
  let led ← fetch data 1
  let r ← fetch data 2
  let g ← fetch data 3
  let b ← fetch data 4
  let buffer ← store fw.buffer 0 OpenRgb.directModeSetSingleLed
  if led.toNat ≥ d.ledTotal then
    let buffer ← store buffer 62 OpenRgb.failure
    return { fw with buffer }
  let colors ← store fw.colors led.toNat { r, g, b }
  let buffer ← store buffer 62 OpenRgb.success
  return { fw with buffer, colors }

/-- The loop of `openrgb_direct_mode_set_leds`. The LED numbers are used as
    they come. -/
def setLedsTurn (d : Device) (data : Packet) (i : Nat) (colors : Vector Rgb d.ledTotal) :
    Option (Vector Rgb d.ledTotal) := do
  let dataIdx := (BitVec.ofNat 8 i * 4).toNat
  let colorIdx ← fetch data (dataIdx + 2)
  let r ← fetch data (dataIdx + 3)
  let g ← fetch data (dataIdx + 4)
  let b ← fetch data (dataIdx + 5)
  store colors colorIdx.toNat { r, g, b }

/-- `openrgb_direct_mode_set_leds`. -/
def directModeSetLeds (data : Packet) (fw : Firmware d) : Option (Firmware d) := do
  let numberLeds ← fetch data 1
  let colors ← loop (setLedsTurn d data) numberLeds.toNat fw.colors
  return { fw with colors }

/-! ### Packets -/

/-- The `switch` of `raw_hid_receive`. -/
def handleCommand (command : Byte) (data : Packet) (fw : Firmware d) : Option (Firmware d) :=
  let answer (buffer : Packet) : Firmware d := { fw with buffer }
  if command = OpenRgb.getProtocolVersion then (getProtocolVersion fw.buffer).map answer
  else if command = OpenRgb.getQmkVersion then (getQmkVersion d fw.buffer).map answer
  else if command = OpenRgb.getDeviceInfo then (getDeviceInfo d fw.buffer).map answer
  else if command = OpenRgb.getModeInfo then
    (getModeInfo fw.matrix.config fw.buffer).map answer
  else if command = OpenRgb.getLedInfo then (getLedInfo data fw).map answer
  else if command = OpenRgb.getEnabledModes then (getEnabledModes d fw.buffer).map answer
  else if command = OpenRgb.setMode then setMode data fw
  else if command = OpenRgb.directModeSetSingleLed then directModeSetSingleLed data fw
  else if command = OpenRgb.directModeSetLeds then directModeSetLeds data fw
  else some fw

/-- `raw_hid_receive`: the state after a packet, and the answer to it. -/
def rawHidReceive (data : Packet) (fw : Firmware d) : Option (Firmware d × Option Packet) := do
  let command ← fetch data 0
  let fw ← handleCommand command data fw
  if command ≠ OpenRgb.directModeSetLeds then
    let buffer ← store fw.buffer 63 OpenRgb.endOfMessage
    return ({ fw with buffer := Packet.zero }, some buffer)
  else return (fw, none)

def handleAll : List Packet → Firmware d → Option (Firmware d)
  | [], fw => some fw
  | data :: rest, fw => (rawHidReceive data fw).bind (fun handled => handleAll rest handled.1)

end Firmware

/-! ### This keyboard -/

/-- `g_led_config.point`, in units of `12` across and `1` down. -/
def ledPoints : List (Nat × Nat) :=
  (List.range 14).map (fun i => (i + 1, 0)) ++
  (List.range 14).map (fun i => (i + 1, 1)) ++
  (List.range 12).map (fun i => (i + 1, 2)) ++ [(14, 2)] ++
  [(1, 3)] ++ (List.range 10).map (fun i => (i + 3, 3)) ++ [(14, 3)] ++
  [(1, 4), (2, 4), (3, 4), (7, 4), (10, 4), (11, 4), (13, 4), (14, 4)] ++
  [(4, 4), (5, 4)]

/-- The tables of this keyboard. Without `ENABLE_RGB_MATRIX_` switches two
    effects are compiled in, and the direct one is the second of them. The
    version is written by the build. -/
def Device.k530 (qmkVersion : List Byte) : Device where
  ledTotal := 63
  rows := 5
  cols := 14
  matrixCo := Vector.ofFn (fun row => Vector.ofFn (fun col =>
    BitVec.ofNat 8 ((Keymap.matrixCo.getD row.val []).getD col.val Keymap.noLed)))
  point := Vector.ofFn (fun led =>
    let p := ledPoints.getD led.val (0, 0)
    { x := BitVec.ofNat 8 (p.1 * 12), y := BitVec.ofNat 8 p.2 })
  -- the two indicators have `LED_FLAG_NONE`, the keys `LED_FLAG_KEYLIGHT`
  ledFlags := Vector.ofFn (fun led => if led.val < 61 then 4 else 0)
  baseLayer := Vector.ofFn (fun row => Vector.ofFn (fun col =>
    Keymap.keymapKeyToKeycode 0 { row, col }))
  effects := [1, 2]
  direct := 2
  effectMax := 3
  qmkVersion
  product := [0x4B, 0x35, 0x33, 0x30]
  manufacturer := [0x52, 0x65, 0x64, 0x72, 0x61, 0x67, 0x6F, 0x6E]
  ledTotal_le := by decide
  effects_fit := by decide
  effects_ne := by decide
  direct_ne := by decide
  direct_lt := by decide

end K530
