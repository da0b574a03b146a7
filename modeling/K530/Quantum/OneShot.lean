import K530.Quantum.ActionCode

/-!
# One-Shot Layers and Modifiers

A one-shot layer stays on for one key: `OSL` turns it on, and the first key
pressed with it turns it off again.

One signed byte, `oneshot_layer_data`, has the layer in its upper five bits and
in its lower three what is still to happen: the key itself is down
(`ONESHOT_PRESSED`), and no other key has been pressed
(`ONESHOT_OTHER_KEY_PRESSED`). When both have been taken away the layer is
turned off.

The flag for the whole feature is `keymap_config.oneshot_disable`, and the
functions that set it have their names the wrong way round: `oneshot_enable`
switches one-shots off. Then an `OSL` key is a momentary layer, and nothing turns
a one-shot layer off.

The layer part of `process_action` is here for every kind of action code. Two
fields are watched and are not in the source: the layer last set as a one-shot,
and the layers that something other than a one-shot has turned on and nothing has
turned off since. Nothing reads them.

## Main definitions

* `LayerOp`: The four ways to write the layer mask.
-/

namespace K530

/-- A write of the layer mask: `layer_and`, `layer_or`, `layer_xor` and
    `layer_state_set`. -/
inductive LayerOp where
  | and (mask : BitVec 32)
  | or (mask : BitVec 32)
  | xor (mask : BitVec 32)
  | set (mask : BitVec 32)
  deriving DecidableEq

namespace LayerOp

def apply (state : BitVec 32) : LayerOp → BitVec 32
  | .and mask => state &&& mask
  | .or mask => state ||| mask
  | .xor mask => state ^^^ mask
  | .set mask => mask

def turnsOn (state : BitVec 32) : LayerOp → BitVec 32
  | .and _ => 0
  | .or mask => mask
  | .xor mask => mask &&& ~~~state
  | .set mask => mask

/-- `layer_on` -/
def on (layer : Nat) : LayerOp := .or (1#32 <<< layer)

/-- `layer_off`. A layer above 31, whose shift the language leaves undefined,
    is shifted out, as the processor does. -/
def off (layer : Nat) : LayerOp := .and (~~~(1#32 <<< layer))

/-- `layer_invert` -/
def invert (layer : Nat) : LayerOp := .xor (1#32 <<< layer)

/-- `layer_move` -/
def move (layer : Nat) : LayerOp := .set (1#32 <<< layer)

/-- `layer_clear` -/
def clear : LayerOp := .set 0

end LayerOp

abbrev tappingToggle : Nat := 5

namespace ActionCode

/-- The operation of an `ACT_LAYER` code on a mask. -/
def bitop (a : ActionCode) : LayerOp :=
  let mask := bitopBits a ||| bitopMask a
  if bitopOp a = 0 then .and mask
  else if bitopOp a = 1 then .or mask
  else if bitopOp a = 2 then .xor mask
  else .set mask

/-- What a layer-tap code does to the layers, `OP_ONESHOT` apart. -/
def layerTapOp (pressed : Bool) (tapCount : Nat) (a : ActionCode) : Option LayerOp :=
  let layer := layerTapVal a
  if keyCode a = opTapToggle then
    if pressed then (if tapCount < tappingToggle then some (.invert layer) else none)
    else (if tapCount ≤ tappingToggle then some (.invert layer) else none)
  else if keyCode a = opOnOff then some (if pressed then .on layer else .off layer)
  else if keyCode a = opOffOn then some (if pressed then .off layer else .on layer)
  else if keyCode a = opSetClear then some (if pressed then .move layer else .clear)
  -- tap key
  else if tapCount > 0 then none
  else some (if pressed then .on layer else .off layer)

/-- `OP_ONESHOT` of a layer-tap code. -/
def isOneshotLayer (a : ActionCode) : Bool :=
  (kindId a == actLayerTap || kindId a == actLayerTapExt) && keyCode a == opOneshot

/-- What a code other than a one-shot layer's does to the layers that are on. -/
def layerOp (pressed : Bool) (tapCount : Nat) (a : ActionCode) : Option LayerOp :=
  if kindId a = actLayer then
    -- with neither bit it is an operation on the default layers
    if (bitopOn a).getLsbD (if pressed then 0 else 1) then some (bitop a) else none
  else if kindId a = actLayerMods then
    some (if pressed then .on (layerModsLayer a) else .off (layerModsLayer a))
  else if kindId a = actLayerTap ∨ kindId a = actLayerTapExt then layerTapOp pressed tapCount a
  else none

/-- The keys that use a one-shot layer up: all but the modifiers. -/
def usesOneshot (a : ActionCode) : Bool := kindId a == actUsage || !isMod (keyCode a)

end ActionCode

def oneshotPressed : Byte := 0b01

def oneshotOtherKeyPressed : Byte := 0b10

def oneshotStart : Byte := 0b11

structure OneShot where
  /-- `layer_state` -/
  layers : BitVec 32
  /-- `oneshot_layer_data`, an `int8_t` -/
  data : Byte
  /-- `keymap_config.oneshot_disable` -/
  disabled : Bool
  /-- Watched: the layer last set as a one-shot -/
  set : Option Nat
  /-- Watched: the layers something else has on -/
  others : BitVec 32
  deriving DecidableEq

namespace OneShot

def init (disabled : Bool) : OneShot :=
  { layers := 0, data := 0, disabled, set := none, others := 0 }

/-- `layer_state_set`, by a one-shot. -/
def write (op : LayerOp) (s : OneShot) : OneShot :=
  { s with layers := op.apply s.layers, others := s.others &&& op.apply s.layers }

/-- `layer_state_set`, by something else. -/
def writeOther (op : LayerOp) (s : OneShot) : OneShot :=
  { s with
    layers := op.apply s.layers,
    others := (s.others ||| op.turnsOn s.layers) &&& op.apply s.layers }

/-- `get_oneshot_layer`: the shift is of a signed byte. -/
def getOneshotLayer (s : OneShot) : Byte := s.data.sshiftRight 3

def getOneshotLayerState (s : OneShot) : Byte := s.data &&& 0b111

def isOneshotLayerActive (s : OneShot) : Bool := s.getOneshotLayerState != 0

def setOneshotLayer (layer : Nat) (state : Byte) (s : OneShot) : OneShot :=
  if !s.disabled then
    write (.on layer)
      { s with data := BitVec.ofNat 8 layer <<< 3 ||| state, set := some layer }
  else writeOther (.on layer) s

def resetOneshotLayer (s : OneShot) : OneShot := { s with data := 0 }

/-- `clear_oneshot_layer_state`. The byte before is compared as an unsigned one
    with the byte after as a signed one. -/
def clearOneshotLayerState (bit : Byte) (s : OneShot) : OneShot :=
  let cleared := { s with data := s.data &&& ~~~bit }
  if cleared.getOneshotLayerState = 0 ∧ (s.data.toNat : Int) ≠ cleared.data.toInt ∧ !s.disabled then
    resetOneshotLayer (write (.off cleared.getOneshotLayer.toNat) cleared)
  else cleared

def oneshotSet (active : Bool) (s : OneShot) : OneShot :=
  if s.disabled ≠ active then
    clearOneshotLayerState oneshotOtherKeyPressed { s with disabled := active }
  else s

/-- `oneshot_toggle`, `oneshot_enable` and `oneshot_disable`. -/
inductive Switch where
  | toggle
  | enable
  | disable
  deriving DecidableEq

def Switch.flag (disabled : Bool) : Switch → Bool
  | .toggle => !disabled
  | .enable => true
  | .disable => false

def call (switch : Switch) (s : OneShot) : OneShot := s.oneshotSet (switch.flag s.disabled)

/-- `OP_ONESHOT` in `process_action`. -/
def processOneshot (pressed : Bool) (tapCount layer : Nat) (s : OneShot) : OneShot :=
  if s.disabled then writeOther (if pressed then .on layer else .off layer) s
  else if pressed then (s.write (.on layer)).setOneshotLayer layer oneshotStart
  else
    let s := s.clearOneshotLayerState oneshotPressed
    if tapCount > 1 then s.clearOneshotLayerState oneshotOtherKeyPressed else s

def processOther (pressed : Bool) (tapCount : Nat) (a : ActionCode) (s : OneShot) : OneShot :=
  match ActionCode.layerOp pressed tapCount a with
  | some op => s.writeOther op
  | none => s

/-- The switch over the kinds of action in `process_action`. -/
def processKind (pressed : Bool) (tapCount : Nat) (a : ActionCode) (s : OneShot) : OneShot :=
  if ActionCode.isOneshotLayer a then
    s.processOneshot pressed tapCount (ActionCode.layerTapVal a)
  else s.processOther pressed tapCount a

/-- The press of a key that uses a one-shot layer up does so before its action. -/
def usesNow (a : ActionCode) (s : OneShot) : Bool :=
  s.isOneshotLayerActive && ActionCode.usesOneshot a && !s.disabled

/-- A key of a one-shot layer that is turned off under it: its release is
    processed at once. The release's action is the one the key has been looked
    up as, unless a handler has ended it. -/
def releaseOneshot (tapCount : Nat) (release : Option ActionCode) (s : OneShot) : OneShot :=
  let s := s.write (.on s.getOneshotLayer.toNat)
  let s := match release with
    | some a => s.processKind false tapCount a
    | none => s
  s.write (.off s.getOneshotLayer.toNat)

/-- `process_action`, of a press. -/
def processPress (tapCount : Nat) (a : ActionCode) (release : Option ActionCode) (s : OneShot) :
    OneShot :=
  if s.usesNow a then
    let used := s.clearOneshotLayerState oneshotOtherKeyPressed
    let done := used.processKind true tapCount a
    if !used.isOneshotLayerActive && done.getOneshotLayerState &&& oneshotPressed = 0 then
      done.releaseOneshot tapCount release
    else done
  else s.processKind true tapCount a

def processAction (pressed : Bool) (tapCount : Nat) (a : ActionCode) (release : Option ActionCode)
    (s : OneShot) : OneShot :=
  if pressed then s.processPress tapCount a release else s.processKind false tapCount a

/-- `process_record`. When a handler has ended the press of a key, that key too
    uses a one-shot layer up. -/
def processRecord (pressed : Bool) (tapCount : Nat) (action release : Option ActionCode)
    (s : OneShot) : OneShot :=
  match action with
  | some a => s.processAction pressed tapCount a release
  | none =>
    if s.isOneshotLayerActive && pressed && !s.disabled then
      s.clearOneshotLayerState oneshotOtherKeyPressed
    else s

/-- A key event, a call of a switch, or a write of the layers by any other code.
    An event has the number of taps the tapping code has found, and the actions
    its press and its release are looked up as; a handler can have ended either.
    The keycodes that call a switch are that call and then an event. -/
inductive OneShotMove where
  | record (pressed : Bool) (tapCount : Nat) (action release : Option ActionCode)
  | call (switch : Switch)
  | write (op : LayerOp)
  deriving DecidableEq

def step (s : OneShot) : OneShotMove → OneShot
  | .record pressed tapCount action release => s.processRecord pressed tapCount action release
  | .call switch => s.call switch
  | .write op => s.writeOther op

end OneShot

/-!
### One-Shot Modifiers

A tap on a one-shot modifier key leaves its modifiers in `oneshot_mods`, and
`send_keyboard_report` adds them to the report. They are cleared by the first
report with a key in it, whatever it is sent for.

A one-shot key that is held, or tapped again at once, is an ordinary modifier, and
its release clears the one-shot modifiers. With one-shot keys disabled it is an
ordinary modifier always. There is no timeout, and no toggling by taps.
-/

namespace Usb

/-- `set_oneshot_mods`, unless `oneshot_disable` is set. -/
def setOneshotMods (disabled : Bool) (mods : Byte) (u : Usb) : Usb :=
  if disabled then u
  else if u.oneshotMods ≠ mods then { u with oneshotMods := mods }
  else u

def clearOneshotMods (u : Usb) : Usb :=
  if u.oneshotMods ≠ 0 then { u with oneshotMods := 0 } else u

/-- `MODS_ONESHOT` in `process_action`. When one-shot keys are disabled it is
    processed as modifiers with `KC_NO`. -/
def processOneshotMods (disabled pressed : Bool) (tapCount : Nat) (mods : Byte) (u : Usb) : Usb :=
  if disabled then Qmk.processMods pressed mods 0 u
  else if pressed then
    -- What is pending is registered along with a key that is held.
    if tapCount = 0 then u.registerMods (mods ||| u.oneshotMods)
    else if tapCount = 1 then u.setOneshotMods disabled (mods ||| u.oneshotMods)
    else u.registerMods (mods ||| u.oneshotMods)
  else
    -- Only its own modifiers are released, those that were pending stay down.
    if tapCount = 0 then u.clearOneshotMods.unregisterMods mods
    -- "Retain Oneshot mods"
    else if tapCount = 1 then u
    else u.clearOneshotMods.unregisterMods mods

end Usb

def sideMods (right : Bool) (mods : Byte) : Byte := if right then mods <<< 4 else mods

/-- A press or a release of a key, or of a one-shot modifier key. -/
inductive StickyMove where
  | key (pressed : Bool) (tapCount : Nat) (action : Action)
  | oneshot (pressed : Bool) (tapCount : Nat) (right : Bool) (mods : Byte)
  deriving DecidableEq

def StickyMove.process (disabled : Bool) (q : Qmk) : StickyMove → Qmk
  | .key pressed tapCount action => q.processAction pressed tapCount action
  | .oneshot pressed tapCount right mods =>
    q.onUsb (Usb.processOneshotMods disabled pressed tapCount (sideMods right mods))

end K530
