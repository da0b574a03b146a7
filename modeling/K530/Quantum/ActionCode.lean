import K530.Core.Action

/-!
# Action Codes

`action_t`: the sixteen bits an action is coded in, for every keycode a keymap
can hold.

The top four bits say what kind of action it is, and the rest is read
differently for every kind. The layer of a layer-tap code has five bits, the
fifth being the lowest bit of the kind.

Which code a keycode stands for depends on the remapping switches, in two
places: the basic keycodes are remapped before they are looked at, and the
modifiers of a modifier-tap, a one-shot modifier or a layer with modifiers are
remapped when they are put into the code.

## Main definitions

* `ActionCode`: An action's code, and its fields.
-/

namespace K530

/-- `action_t`. -/
abbrev ActionCode := BitVec 16

namespace ActionCode

/-- `ACTION(kind, param)` -/
def make (kind param : BitVec 16) : ActionCode := kind <<< 12 ||| param

/-- `ACTION_NO` -/
def no : ActionCode := 0

/-- `ACTION_TRANSPARENT` -/
def transparent : ActionCode := 1

/-! ### The kinds -/

/-- `ACT_LMODS`, and `ACT_MODS` -/
def actMods : BitVec 16 := 0b0000

/-- `ACT_RMODS` -/
def actRightMods : BitVec 16 := 0b0001

def actModsTap : BitVec 16 := 0b0010

def actUsage : BitVec 16 := 0b0100

def actLayer : BitVec 16 := 0b1000

def actLayerMods : BitVec 16 := 0b1001

def actLayerTap : BitVec 16 := 0b1010

def actLayerTapExt : BitVec 16 := 0b1011

def actMacro : BitVec 16 := 0b1100

/-! ### The operations of a layer-tap code -/

def opTapToggle : Byte := 0xF0

def opOnOff : Byte := 0xF1

def opOffOn : Byte := 0xF2

def opSetClear : Byte := 0xF3

def opOneshot : Byte := 0xF4

/-! ### The fields -/

/-- `kind.id` -/
def kindId (a : ActionCode) : BitVec 16 := a >>> 12

/-- `key.code`, and the low byte of every kind that has one. -/
def keyCode (a : ActionCode) : Byte := a.setWidth 8

/-- `layer_tap.val`: five bits. -/
def layerTapVal (a : ActionCode) : Nat := ((a >>> 8) &&& 0x1F).toNat

/-- `layer_mods.layer`: four bits. -/
def layerModsLayer (a : ActionCode) : Nat := ((a >>> 8) &&& 0xF).toNat

/-- `layer_bitop.bits`, shifted to its part of the layer mask. -/
def bitopBits (a : ActionCode) : BitVec 32 :=
  (a &&& 0xF).setWidth 32 <<< (((a >>> 5) &&& 0x7).toNat * 4)

/-- What `layer_bitop.xbit` adds: everything outside the part. -/
def bitopMask (a : ActionCode) : BitVec 32 :=
  if a.getLsbD 4 then ~~~(0xF#32 <<< (((a >>> 5) &&& 0x7).toNat * 4)) else 0

/-- `layer_bitop.on` -/
def bitopOn (a : ActionCode) : BitVec 16 := (a >>> 8) &&& 0x3

/-- `layer_bitop.op` -/
def bitopOp (a : ActionCode) : BitVec 16 := (a >>> 10) &&& 0x3

/-! ### Building a code -/

/-- `ACTION_LAYER_BITOP` -/
def layerBitop (op part bits on : BitVec 16) : ActionCode :=
  make actLayer (op <<< 10 ||| on <<< 8 ||| part <<< 5 ||| (bits &&& 0x1F))

def layerBit (op layer on : BitVec 16) : ActionCode :=
  layerBitop op (layer >>> 2) (1#16 <<< (layer &&& 0x3).toNat) on

/-- `ACTION_LAYER_TAP` -/
def layerTap (layer key : BitVec 16) : ActionCode :=
  make actLayerTap (layer <<< 8 ||| key)

end ActionCode

/-! ### From keycodes -/

/-- `mod_config`. The five bits are four modifiers and the side; the tests for
    the left ones want the side bit clear, those for the right ones set. -/
def modConfig (c : KeymapConfig) (mods : Byte) : Byte :=
  let mods :=
    if c.swapLaltLgui then
      if mods &&& 0x18 = 0x08 then (mods &&& ~~~0x08) ||| 0x04
      else if mods &&& 0x14 = 0x04 then (mods &&& ~~~0x04) ||| 0x08
      else mods
    else mods
  let mods :=
    if c.swapRaltRgui then
      if mods &&& 0x18 = 0x18 then (mods &&& ~~~0x18) ||| 0x14
      else if mods &&& 0x14 = 0x14 then (mods &&& ~~~0x14) ||| 0x18
      else mods
    else mods
  let mods :=
    if c.swapLctlLgui then
      if mods &&& 0x18 = 0x08 then (mods &&& ~~~0x08) ||| 0x01
      else if mods &&& 0x11 = 0x01 then (mods &&& ~~~0x01) ||| 0x08
      else mods
    else mods
  let mods :=
    if c.swapRctlRgui then
      if mods &&& 0x18 = 0x18 then (mods &&& ~~~0x18) ||| 0x11
      else if mods &&& 0x11 = 0x11 then (mods &&& ~~~0x11) ||| 0x18
      else mods
    else mods
  if c.noGui then (mods &&& ~~~0x08) &&& ~~~0x18 else mods

/-- `action_for_keycode`. What the function keycodes stand for is the keymap's,
    `keymap_function_id_to_action`. -/
def actionCodeForKeycode (functions : BitVec 16 → ActionCode) (c : KeymapConfig)
    (keycode : Keycode) : ActionCode :=
  let keycode := keycodeConfig c keycode
  let low := keycode &&& 0xFF
  if keycode ≤ 0xFF then
    if isKey (lowByte keycode) || isMod (lowByte keycode) then
      ActionCode.make ActionCode.actMods keycode
    else if isSystem (lowByte keycode) then
      ActionCode.make ActionCode.actUsage (keycode2System (lowByte keycode))
    else if isConsumer (lowByte keycode) then
      ActionCode.make ActionCode.actUsage (1#16 <<< 10 ||| keycode2Consumer (lowByte keycode))
    else if keycode = kcTransparent then ActionCode.transparent
    -- KC_FN0 to KC_FN31
    else if 0xC0 ≤ keycode && keycode ≤ 0xDF then functions (keycode - 0xC0)
    else ActionCode.no
  -- QK_MODS
  else if keycode ≤ 0x1FFF then
    ActionCode.make ActionCode.actMods (((keycode >>> 8) &&& 0x1F) <<< 8 ||| low)
  -- QK_FUNCTION
  else if keycode ≤ 0x2FFF then functions (keycode &&& 0xFFF)
  -- QK_MACRO
  else if keycode ≤ 0x3FFF then
    if keycode.getLsbD 11 then ActionCode.make ActionCode.actMacro (0x8#16 <<< 8 ||| low)
    else ActionCode.make ActionCode.actMacro low
  -- QK_LAYER_TAP
  else if keycode ≤ 0x4FFF then ActionCode.layerTap ((keycode >>> 8) &&& 0xF) low
  -- QK_TO: the layer and when
  else if keycode ≤ 0x50FF then
    ActionCode.layerBit 3 (keycode &&& 0xF) ((keycode >>> 4) &&& 0x3)
  -- QK_MOMENTARY
  else if keycode ≤ 0x51FF then ActionCode.layerTap low 0xF1
  -- QK_DEF_LAYER
  else if keycode ≤ 0x52FF then ActionCode.layerBit 3 low 0
  -- QK_TOGGLE_LAYER
  else if keycode ≤ 0x53FF then ActionCode.layerBit 2 low 2
  -- QK_ONE_SHOT_LAYER
  else if keycode ≤ 0x54FF then ActionCode.layerTap low 0xF4
  -- QK_ONE_SHOT_MOD
  else if keycode ≤ 0x55FF then
    ActionCode.make ActionCode.actModsTap
      (((modConfig c (lowByte keycode)).setWidth 16 &&& 0x1F) <<< 8)
  else if 0x5800 ≤ keycode && keycode ≤ 0x58FF then ActionCode.layerTap low 0xF0
  -- QK_LAYER_MOD
  else if 0x5900 ≤ keycode && keycode ≤ 0x59FF then
    ActionCode.make ActionCode.actLayerMods
      (((keycode >>> 4) &&& 0xF) <<< 8 ||| (modConfig c (lowByte keycode &&& 0xF)).setWidth 16)
  -- QK_MOD_TAP
  else if 0x6000 ≤ keycode && keycode ≤ 0x7FFF then
    ActionCode.make ActionCode.actModsTap
      (((modConfig c (((keycode >>> 8) &&& 0x1F).setWidth 8)).setWidth 16 &&& 0x1F) <<< 8 ||| low)
  else ActionCode.no

end K530
