import K530.Core.KeycodeConfig
import K530.Core.Layer

/-!
# Actions

What a keycode does once nobody has claimed it: the action it stands for, and
its execution.

Four kinds of action are modelled, those that a key of this keymap can have: a
key with modifiers, a system or media usage, a momentary layer, and a layer-tap
key. A layer-tap key is one thing or the other by the number of taps in its
record, which the tapping code has decided before: with none it is a layer, and
with one or more it types its key. It types it on the wire, whatever the keymap
has decided about the keycode of the record, whose low byte it is.

Actions of other kinds have no value here and `actionForKeycode` says so.

## Main definitions

* `Action`: The modelled actions.
-/

namespace K530

inductive Action where
  /-- `ACT_LMODS` or `ACT_RMODS`: four modifiers of one side, and a key -/
  | mods (right : Bool) (mods : Byte) (code : Byte)
  /-- `ACT_USAGE` on the system page -/
  | system (usage : BitVec 16)
  /-- `ACT_USAGE` on the consumer page -/
  | consumer (usage : BitVec 16)
  /-- `ACT_LAYER_TAP` with `OP_ON_OFF`: a momentary layer -/
  | layerOnOff (layer : Nat)
  /-- `ACT_LAYER_TAP` with a key -/
  | layerTapKey (layer : Nat) (code : Byte)
  deriving DecidableEq

namespace Action

def no : Action := .mods false 0 0

def transparent : Action := .mods false 0 1

end Action

/-- `action_for_keycode`, for the kinds of keycode modelled. -/
def actionForKeycode (c : KeymapConfig) (keycode : Keycode) : Option Action :=
  let keycode := keycodeConfig c keycode
  let code := lowByte keycode
  if keycode ≤ 0xFF then
    if isKey code || isMod code then some (.mods false 0 code)
    else if isSystem code then some (.system (keycode2System code))
    else if isConsumer code then some (.consumer (keycode2Consumer code))
    else if keycode = kcTransparent then some .transparent
    -- function actions
    else if 0xC0 ≤ code && code ≤ 0xDF then none
    else some .no
  else if keycode ≤ 0x1FFF then
    some (.mods (keycode.getLsbD 12) ((keycode >>> 8).setWidth 8 &&& 0x0F) code)
  else if 0x4000 ≤ keycode && keycode ≤ 0x4FFF then
    -- the low bytes above the modifiers are operations of their own
    if code ≤ 0xE7 then some (.layerTapKey ((keycode >>> 8).toNat % 16) code) else none
  else if 0x5100 ≤ keycode && keycode ≤ 0x51FF then
    if code ≤ 0x0F then some (.layerOnOff code.toNat) else none
  -- quantum keycodes without an action, and those of the keymap
  else if 0x5C00 ≤ keycode && keycode ≤ 0x5FFF then some .no
  else none

structure Qmk where
  usb : Usb
  layers : Layers
  config : KeymapConfig
  deriving DecidableEq

namespace Qmk

def layerStateSet (state : BitVec 32) (q : Qmk) : Qmk :=
  { q with layers := { q.layers with state }, usb := q.usb.clearKeyboardButModsAndKeys }

def layerOn (layer : Nat) (q : Qmk) : Qmk :=
  q.layerStateSet (q.layers.state ||| 1#32 <<< layer)

def layerOff (layer : Nat) (q : Qmk) : Qmk :=
  q.layerStateSet (q.layers.state &&& ~~~(1#32 <<< layer))

def onUsb (f : Usb → Usb) (q : Qmk) : Qmk :=
  { q with usb := f q.usb }

/-- `ACT_LMODS` and `ACT_RMODS` in `process_action`. Modifiers that come with a
    modifier key are real, those that come with another key are weak. -/
def processMods (pressed : Bool) (mods code : Byte) (u : Usb) : Usb :=
  if pressed then
    let u :=
      if mods ≠ 0 then
        (if isMod code || code == 0 then u.addMods mods else u.addWeakMods mods).sendKeyboardReport
      else u
    u.registerCode code
  else
    let u := u.unregisterCode code
    if mods ≠ 0 then
      (if isMod code || code == 0 then u.delMods mods else u.delWeakMods mods).sendKeyboardReport
    else u

def processAction (pressed : Bool) (tapCount : Nat) (action : Action) (q : Qmk) : Qmk :=
  match action with
  | .mods right mods code =>
    q.onUsb (processMods pressed (if right then mods <<< 4 else mods) code)
  | .system usage => q.onUsb (Usb.systemSend (if pressed then usage else 0))
  | .consumer usage => q.onUsb (Usb.consumerSend (if pressed then usage else 0))
  | .layerOnOff layer => if pressed then q.layerOn layer else q.layerOff layer
  | .layerTapKey layer code =>
    if pressed then
      if tapCount > 0 then q.onUsb (Usb.registerCode code) else q.layerOn layer
    else
      if tapCount > 0 then q.onUsb (Usb.unregisterCode code) else q.layerOff layer

end Qmk

end K530
