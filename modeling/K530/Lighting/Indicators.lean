import K530.Keymap.User
import K530.Lib.Painting
import K530.Lighting.OpenRgb

/-!
# The Indicators

`rgb_matrix_indicators_advanced_user`: what the keymap draws over the effect, for the LEDs
from `led_min` on and below `led_max`. It is called for every part of a frame that has been
rendered.

There are eight layers, one over the other: the keys of the layer that is held, the slot
being recorded, the state of the slots, Caps Lock, the reaction to keys, the link, the
battery and the siren. Each makes its own test of the range. The reaction to keys is the
one that changes something: it forgets a release that has faded.

A call reads one clock. The arrays of the reaction have as many entries as there are LEDs,
and the range stays inside them.

## Main definitions

* `Panel`: What a call reads besides the state of the keymap.
-/

namespace K530

open Painting

structure Panel where
  now : BitVec 32
  /-- the status the interrupt has latched -/
  spi : Spi
  /-- `host_keyboard_led_state().caps_lock` -/
  capsLock : Bool

/-- A call of `rgb_matrix_set_color`. -/
abbrev Paint := Write Rgb

/-- `RGB_RED`, `RGB_GREEN`, `RGB_WHITE`. -/
def rgbRed : Rgb := { r := 255, g := 0, b := 0 }
def rgbGreen : Rgb := { r := 0, g := 255, b := 0 }
def rgbWhite : Rgb := { r := 255, g := 255, b := 255 }
def rgbOff : Rgb := { r := 0, g := 0, b := 0 }

namespace Indicators

def setColor (ledMin ledMax led : Nat) (color : Rgb) : List Paint :=
  if led < ledMin ∨ led ≥ ledMax then [] else [{ index := led, value := color }]

/-! ### Layers -/

def layerStateIs (layer : Nat) (layers : Layers) : Bool :=
  if layers.state = 0 then layer == 0 else layers.state.getLsbD layer

def highlight (w : World) : Option (Keycode × Rgb) :=
  if w.indicators.capslockHeld then some (Keymap.fnCapsLayer, { r := 255, g := 110, b := 0 })
  else if w.indicators.fn2Held then some (Keymap.fn2Layer, { r := 255, g := 0, b := 0 })
  else if layerStateIs Keymap.fnLayer.toNat w.qmk.layers then
    some (Keymap.fnLayer, { r := 0, g := 128, b := 0 })
  else none

/-- The entry of a key in `g_led_config.matrix_co`. -/
def ledIndex (key : KeyPos) : Nat :=
  (Keymap.matrixCo.getD key.row []).getD key.col Keymap.noLed

def paintKey (ledMin ledMax : Nat) (layer : Keycode) (color : Rgb) (key : KeyPos) : List Paint :=
  let led := ledIndex key
  if led = Keymap.noLed then []
  else if led < ledMin ∨ led ≥ ledMax then []
  else
    let kc := Keymap.keymapKeyToKeycode layer.toNat key
    if kc = Keymap.reset then [{ index := led, value := rgbRed }]
    else if kc = Keymap.rgbTog then [{ index := led, value := { r := 205, g := 0, b := 205 } }]
    else if kc ≠ kcTransparent ∧ kc ≠ kcNo then [{ index := led, value := color }]
    else []

def allKeys : List KeyPos :=
  (List.finRange 5).flatMap (fun row => (List.finRange 14).map (fun col => { row, col }))

def paintLayer (ledMin ledMax : Nat) (w : World) : List Paint :=
  match highlight w with
  | none => []
  | some (layer, color) => allKeys.flatMap (paintKey ledMin ledMax layer color)

/-! ### Macros and Caps Lock -/

/-- 2. The slot that is being recorded into, whose number is that of its LED. -/
def paintRecording (ledMin ledMax : Nat) (w : World) : List Paint :=
  if w.recorder.active then setColor ledMin ledMax (w.recorder.slot.val + 1) rgbRed else []

def paintSlots (ledMin ledMax : Nat) (w : World) : List Paint :=
  if w.indicators.capslockHeld || w.indicators.fn2RecSelectHeld then
    (List.finRange 6).flatMap (fun slot =>
      setColor ledMin ledMax (slot.val + 1)
        (if w.recorder.hasContent.get slot then rgbGreen else rgbRed))
  else []

def capsLockLed : Nat := 28

def paintCapsLock (ledMin ledMax : Nat) (p : Panel) : List Paint :=
  if p.capsLock then setColor ledMin ledMax capsLockLed rgbRed else []

/-! ### The reaction to keys -/

def keyReactiveDuration : Nat := 500

/-- `FADE_BASE_R` and its like. -/
def fadeBase : Nat := 40

def fadeColor (elapsed : Nat) : Rgb :=
  let brightness := 255 - elapsed * elapsed * 255 / (keyReactiveDuration * keyReactiveDuration)
  let channel : Byte := BitVec.ofNat 8 (fadeBase + (255 - fadeBase) * brightness / 255)
  { r := channel, g := channel, b := channel }

/-- 5. A key that is held is white. One that was released fades, and is forgotten when it
    has faded. A time of zero is none. -/
def reactiveTurn (now : BitVec 32) (s : Reactive) (i : Fin 63) : Reactive × List Paint :=
  if s.keyHeld.get i then (s, [{ index := i, value := rgbWhite }])
  else if s.keyPressTime.get i ≠ 0 then
    let elapsed := (World.timerRead now - s.keyPressTime.get i).toNat
    if elapsed < keyReactiveDuration then (s, [{ index := i, value := fadeColor elapsed }])
    else ({ s with keyPressTime := s.keyPressTime.setIfInBounds i 0 }, [])
  else (s, [])

def ledRange (ledMin ledMax : Nat) : List (Fin 63) :=
  (List.finRange 63).filter (fun i => ledMin ≤ i.val && i.val < ledMax)

def fadeKeys (ledMin ledMax : Nat) (now : BitVec 32) (s : Reactive) : Reactive :=
  StepRun.run (StepRun.next (reactiveTurn now)) s (ledRange ledMin ledMax)

def paintKeys (ledMin ledMax : Nat) (now : BitVec 32) (s : Reactive) : List Paint :=
  (StepRun.trace (reactiveTurn now) s (ledRange ledMin ledMax)).flatten

/-! ### Link, battery and siren -/

/-- `K530_HOST_LED` -/
def hostLed : Nat := 62

/-- `K530_BATT_LED` -/
def battLed : Nat := 61

def btUnpairFeedbackMs : Nat := 6000

def blink (now : BitVec 32) : Bool := now.toNat % 700 < 350

/-- The color of the state of the link, `A7[4]`. -/
def linkColor (link : Byte) (blink : Bool) : Rgb :=
  if link = 0x03 then rgbGreen
  else if link = 0x01 then if blink then rgbGreen else rgbOff
  else if link = 0x02 then if blink then { r := 0, g := 0, b := 255 } else rgbOff
  else if blink then rgbRed else rgbOff

def paintLink (ledMin ledMax : Nat) (p : Panel) (w : World) : List Paint :=
  if w.btEnabled then
    if w.unpair.feedbackTime ≠ 0 ∧
        (p.now - w.unpair.feedbackTime).toNat < btUnpairFeedbackMs then
      setColor ledMin ledMax hostLed (if blink p.now then rgbRed else rgbOff)
    else setColor ledMin ledMax hostLed (linkColor p.spi.a7Link (blink p.now))
  else setColor ledMin ledMax hostLed rgbOff

/-- `K530_BATT_LOW`, `K530_BATT_CRIT`, `K530_BATT_FULL`. -/
def battLow : Byte := 0x01
def battCrit : Byte := 0x02
def battFull : Byte := 0xF0

/-- `K530_BREATH_PERIOD_MS` -/
def breathPeriodMs : Nat := 2000

/-- `K530_BREATH_FLOOR` -/
def breathFloor : Nat := 26

/-- `k530_breath_level`. -/
def breathLevel (now : BitVec 32) : Nat :=
  let phase := now.toNat % breathPeriodMs
  let half := breathPeriodMs / 2
  let tri := if phase < half then phase else breathPeriodMs - phase
  breathFloor + tri * (255 - breathFloor) / half

/-- The color of `k530_set_color_scaled`. -/
def scaled (color : Rgb) (level : Nat) : Rgb :=
  { r := BitVec.ofNat 8 (color.r.toNat * level / 255),
    g := BitVec.ofNat 8 (color.g.toNat * level / 255),
    b := BitVec.ofNat 8 (color.b.toNat * level / 255) }

def rgbOrange : Rgb := { r := 255, g := 80, b := 0 }

/-- The color of the battery, breathing while it charges. `k530_bluetooth_status_valid` is
    whether there has been a status: what it says does not age. -/
def battColor (p : Panel) (charging : Bool) : Rgb :=
  let valid := p.spi.a7Valid
  let lvl := p.spi.a7Batt
  if charging then
    if valid ∧ lvl = battFull then rgbGreen
    else if valid ∧ (lvl = battLow ∨ lvl = battCrit) then scaled rgbRed (breathLevel p.now)
    else scaled rgbOrange (breathLevel p.now)
  else
    if !valid then rgbOff
    else if lvl = battFull then rgbGreen
    else if lvl = battCrit then if blink p.now then rgbRed else rgbOff
    else if lvl = battLow then rgbRed
    else rgbOrange

/-- `k530_draw_batt_led`. -/
def drawBattLed (ledMin ledMax : Nat) (p : Panel) (w : World) : List Paint :=
  if battLed < ledMin ∨ battLed ≥ ledMax then []
  else [{ index := battLed, value := battColor p w.driver.charge.stable }]

/-- `K530_SIREN_PERIOD_MS`, `K530_SIREN_PULSE_MS`, `K530_SIREN_GAP_MS`. -/
def sirenPeriodMs : Nat := 10000
def sirenPulseMs : Nat := 100
def sirenGapMs : Nat := 500

def pulse (now : BitVec 32) : Bool :=
  let t := now.toNat % sirenPeriodMs
  let p2beg := sirenPulseMs + sirenGapMs
  t < sirenPulseMs || (p2beg ≤ t && t < p2beg + sirenPulseMs)

def paintSiren (ledMin ledMax : Nat) (p : Panel) (w : World) : List Paint :=
  if p.spi.a7Valid && !w.driver.charge.stable && p.spi.a7Batt == battCrit && pulse p.now then
    ((ledRange ledMin ledMax).filter (fun i => i.val < battLed)).map
      (fun i : Fin 63 => { index := i.val, value := rgbRed })
  else []

/-! ### A call -/

def paints (ledMin ledMax : Nat) (p : Panel) (w : World) : List Paint :=
  paintLayer ledMin ledMax w ++ paintRecording ledMin ledMax w ++ paintSlots ledMin ledMax w ++
    paintCapsLock ledMin ledMax p ++ paintKeys ledMin ledMax p.now w.reactive ++
    paintLink ledMin ledMax p w ++ drawBattLed ledMin ledMax p w ++ paintSiren ledMin ledMax p w

/-- `rgb_matrix_indicators_advanced_user`: the state after a call, and what it paints. -/
def rgbMatrixIndicatorsAdvancedUser (ledMin ledMax : Nat) (p : Panel) (w : World) :
    World × List Paint :=
  ({ w with reactive := fadeKeys ledMin ledMax p.now w.reactive }, paints ledMin ledMax p w)

end Indicators

end K530
