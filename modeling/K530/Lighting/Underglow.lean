import K530.Lighting.LayerBlink
import K530.Lighting.OpenRgb
import K530.Split.Rgblight

/-!
# Underglow Effects

What `rgblight.c` shows. `rgblight_task` calls the effect of the mode whenever its interval
has passed, and the effect writes the LEDs of the effect range and moves on the position it
keeps. A range is a start and a number of LEDs, and the number may be zero. An access outside
`led` or `led_twinkle_state` is a fault here, and so is a division by zero.

The configuration and the timer are those of `Rgblight`. What a choice of the build or a weak
symbol decides is a parameter: the sizes of the effects, the intervals, the curve of the
breathing, which is a table or a formula, and `rgblight_hsv_to_rgb`. What `rand()` answers
comes with the call of `rgblight_task`. There is no LED map, there are no lighting layers, and
an LED has no white. Where the source makes a signed byte of a number the model keeps the byte.

## Main definitions

* `UnderglowBuild`: The choices of the build.
-/

namespace K530

open Checked

namespace RgblightBuild

variable (b : RgblightBuild)

/-- `RGBLIGHT_MODE_…`, the first mode of an effect. -/
def firstMode (e : RgblightEffect) : Byte :=
  BitVec.ofNat 8 (b.modeEffects.idxOf e + 1)

/-- `mode_base_table` -/
def modeBase (mode : Byte) : Byte :=
  match b.effectOf mode with
  | some e => b.firstMode e
  | none => 0

def effectAt (baseMode : Byte) : Option RgblightEffect :=
  RgblightEffect.all.find? (fun e => b.has e && b.firstMode e == baseMode)

end RgblightBuild

structure UnderglowBuild extends RgblightBuild where
  /-- `RGBLED_NUM` -/
  ledNum : Nat
  ledNum_pos : 0 < ledNum
  /-- `RGBLIGHT_RAINBOW_SWIRL_RANGE` -/
  rainbowSwirlRange : Nat
  /-- `RGBLIGHT_EFFECT_SNAKE_LENGTH` -/
  snakeLength : Byte
  /-- `RGBLIGHT_EFFECT_KNIGHT_LENGTH` -/
  knightLength : Byte
  /-- `RGBLIGHT_EFFECT_KNIGHT_OFFSET` -/
  knightOffset : Nat
  /-- `RGBLIGHT_EFFECT_KNIGHT_LED_NUM`, which by default is `effect_num_leds` -/
  knightLedNum : Option Byte
  /-- `RGBLIGHT_EFFECT_CHRISTMAS_STEP` -/
  christmasStep : Nat
  /-- `RGBLIGHT_EFFECT_TWINKLE_LIFE` -/
  twinkleLife : Nat
  /-- `(uint16_t)RAND_MAX * RGBLIGHT_EFFECT_TWINKLE_PROBABILITY` -/
  twinkleProbability : BitVec 16
  /-- The interval of an effect, with `delta`. -/
  interval : RgblightEffect → Byte → BitVec 16
  /-- `RGBLED_GRADIENT_RANGES` -/
  gradientRanges : Nat → Byte
  /-- `breathe_calc` -/
  breatheCalc : Byte → Byte
  /-- `rgblight_hsv_to_rgb` -/
  hsvToRgb : Hsv → Rgb
  /-- `RGBLIGHT_SPLIT` without `RGBLIGHT_SPLIT_NO_ANIMATION_SYNC` -/
  animationSync : Bool

structure RgblightRanges where
  clippingStartPos : Byte
  clippingNumLeds : Byte
  effectStartPos : Byte
  effectEndPos : Byte
  effectNumLeds : Byte

/-- `animation_status_t`. Of the union only the low byte is ever anything but zero. -/
structure AnimationStatus where
  lastTimer : BitVec 16
  delta : Byte
  restart : Bool
  pos : Byte

structure TwinkleState where
  hsv : Hsv
  life : Byte
  maxLife : Byte

/-- What `rand()` answers for an LED: whether it begins to twinkle, and in which color. -/
structure TwinkleRand where
  chosen : Nat
  hue : Nat
  sat : Nat

/-- The variables of `rgblight.c` and the static ones of its effects. -/
structure Underglow (b : UnderglowBuild) where
  light : Rgblight
  /-- `rgblight_status.base_mode` -/
  baseMode : Byte
  ranges : RgblightRanges
  animation : AnimationStatus
  led : Vector Rgb b.ledNum
  ledTwinkleState : Vector TwinkleState b.ledNum
  /-- `pos` of the snake -/
  snakePos : Byte
  /-- `low_bound`, `high_bound` and `increment` of the knight -/
  knightLowBound : Byte
  knightHighBound : Byte
  knightIncrement : Byte
  /-- `increment` of the Christmas lights -/
  christmasIncrement : Byte
  /-- `maxval` of the RGB test -/
  rgbtestMaxval : Byte

namespace Underglow

variable {b : UnderglowBuild}

def black : Rgb where
  r := 0
  g := 0
  b := 0

/-- What `sethsv` writes to an LED. -/
def color (b : UnderglowBuild) (hue sat val : Byte) : Rgb :=
  b.hsvToRgb { h := hue, s := sat, v := if b.limitVal < val then b.limitVal else val }

def ownColor (s : Underglow b) : Rgb :=
  color b s.light.config.hue s.light.config.sat s.light.config.val

def init : Underglow b where
  light :=
    { config := { enable := false, mode := 0, hue := 0, sat := 0, val := 0, speed := 0 }
      timerEnabled := false
      flags := ChangeFlags.none }
  baseMode := 0
  ranges :=
    { clippingStartPos := 0
      clippingNumLeds := BitVec.ofNat 8 b.ledNum
      effectStartPos := 0
      effectEndPos := BitVec.ofNat 8 b.ledNum
      effectNumLeds := BitVec.ofNat 8 b.ledNum }
  animation := { lastTimer := 0, delta := 0, restart := false, pos := 0 }
  led := Vector.replicate b.ledNum black
  ledTwinkleState := Vector.replicate b.ledNum
    { hsv := { h := 0, s := 0, v := 0 }, life := 0, maxLife := 0 }
  snakePos := 0
  knightLowBound := 0
  knightHighBound := b.knightLength - 1
  knightIncrement := 1
  christmasIncrement := 1
  rgbtestMaxval := 0

def setPos (pos : Byte) (s : Underglow b) : Underglow b :=
  { s with animation := { s.animation with pos := pos } }

/-! ### The LEDs -/

def draw (count : Nat) (body : Nat → Vector Rgb b.ledNum → Option (Vector Rgb b.ledNum))
    (s : Underglow b) : Option (Underglow b) :=
  (loop body count s.led).map (fun led => { s with led := led })

/-- The LEDs from `effect_start_pos` up to `effect_end_pos` in one color. -/
def fill (rgb : Rgb) (s : Underglow b) : Option (Underglow b) :=
  s.draw (s.ranges.effectEndPos.toNat - s.ranges.effectStartPos.toNat)
    (fun i led => store led (s.ranges.effectStartPos.toNat + i) rgb)

/-- The first `effect_num_leds` LEDs from `effect_start_pos` on, each in its own color. -/
def drawEach (rgb : Nat → Option Rgb) (s : Underglow b) : Option (Underglow b) :=
  s.draw s.ranges.effectNumLeds.toNat
    (fun i led => (rgb i).bind (store led (i + s.ranges.effectStartPos.toNat)))

/-- `rgblight_call_driver`, which reads the LEDs of the clipping range. -/
def callDriver (s : Underglow b) : Option (Underglow b) :=
  s.draw s.ranges.clippingNumLeds.toNat
    (fun i led => (fetch led (s.ranges.clippingStartPos.toNat + i)).map (fun _ => led))

/-- `rgblight_set` -/
def set (s : Underglow b) : Option (Underglow b) :=
  (if s.light.config.enable then some s else s.fill black).bind callDriver

/-- `rgblight_setrgb` -/
def setrgb (rgb : Rgb) (s : Underglow b) : Option (Underglow b) :=
  if s.light.config.enable then (s.fill rgb).bind set else some s

/-- `rgblight_sethsv_noeeprom_old` -/
def sethsvOld (hue sat val : Byte) (s : Underglow b) : Option (Underglow b) :=
  if s.light.config.enable then s.setrgb (color b hue sat val) else some s

/-! ### The interface -/

/-- `rgblight_set_effect_range` -/
def setEffectRange (startPos numLeds : Byte) (s : Underglow b) : Underglow b :=
  if b.ledNum ≤ startPos.toNat then s
  else if b.ledNum < startPos.toNat + numLeds.toNat then s
  else
    { s with
      ranges :=
        { s.ranges with
          effectStartPos := startPos
          effectEndPos := startPos + numLeds
          effectNumLeds := numLeds } }

def gradientHue (hue : Byte) (s : Underglow b) (i : Nat) : Option Byte :=
  let delta := s.light.config.mode - s.baseMode
  let range := b.gradientRanges (delta.toNat / 2)
  (quotient (i * range.toNat) s.ranges.effectNumLeds.toNat).map (fun q =>
    if delta.toNat % 2 = 0 then hue + BitVec.ofNat 8 q else hue - BitVec.ofNat 8 q)

/-- What `rgblight_sethsv_eeprom_helper` shows at once. -/
def showStatic (hue sat val : Byte) (s : Underglow b) : Option (Underglow b) :=
  if s.light.config.mode = 1 then s.setrgb (color b hue sat val)
  else if b.effectAt s.baseMode = some .staticGradient then
    (s.drawEach (fun i => (s.gradientHue hue i).map (fun hue => color b hue sat val))).bind set
  else some s

/-- `rgblight_sethsv_eeprom_helper` -/
def sethsv (hue sat val : Byte) (write : Bool) (s : Underglow b) : Option (Underglow b) :=
  if s.light.config.enable then
    ({ s with baseMode := b.modeBase s.light.config.mode }.showStatic hue sat val).map
      (fun t : Underglow b =>
      { t with light := Rgblight.sethsv b.toRgblightBuild hue sat val write t.light })
  else some s

/-- `rgblight_mode_eeprom_helper`. The time it notes is noted again by the restart. -/
def mode (mode : Byte) (write : Bool) (s : Underglow b) : Option (Underglow b) :=
  if s.light.config.enable then
    let light := Rgblight.storeMode b.toRgblightBuild mode write s.light
    { s with light := light, animation := { s.animation with restart := true } }.sethsv
      light.config.hue light.config.sat light.config.val false
  else some s

/-- `rgblight_enable` and `rgblight_enable_noeeprom` -/
def enable (write : Bool) (s : Underglow b) : Option (Underglow b) :=
  { s with light := { s.light with config := { s.light.config with enable := true } } }.mode
    s.light.config.mode write

/-- `rgblight_disable` and `rgblight_disable_noeeprom` -/
def disable (write : Bool) (s : Underglow b) : Option (Underglow b) :=
  { s with light := Rgblight.disable b.toRgblightBuild write s.light }.set

/-- `rgblight_reload_from_eeprom`, and `rgblight_init` after power-up. -/
def reload (stored : RgblightConfig) (s : Underglow b) : Option (Underglow b) :=
  let config := Rgblight.checkConfig b.toRgblightBuild stored
  { s with
    light :=
      { s.light with
        config := config
        flags := { s.light.flags with mode := true, hsvs := true } } }.mode config.mode false

/-- `rgblight_timer_enable` -/
def timerEnable (now : BitVec 16) (s : Underglow b) : Underglow b :=
  { s with
    light := Rgblight.timerEnable b.toRgblightBuild s.light
    animation := { s.animation with lastTimer := now } }

/-- `rgblight_timer_disable` -/
def timerDisable (s : Underglow b) : Underglow b :=
  { s with light := Rgblight.timerDisable b.toRgblightBuild s.light }

/-! ### The effects -/

/-- `anim->delta % 2` -/
def odd (s : Underglow b) : Bool :=
  s.animation.delta.toNat % 2 = 1

/-- `rgblight_effect_breathing` -/
def effectBreathing (s : Underglow b) : Option (Underglow b) :=
  (s.sethsvOld s.light.config.hue s.light.config.sat (b.breatheCalc s.animation.pos)).map
    (setPos (s.animation.pos + 1))

/-- `rgblight_effect_rainbow_mood` -/
def effectRainbowMood (s : Underglow b) : Option (Underglow b) :=
  (s.sethsvOld s.animation.pos s.light.config.sat s.light.config.val).map
    (setPos (s.animation.pos + 1))

/-- `rgblight_effect_rainbow_swirl` -/
def effectRainbowSwirl (s : Underglow b) : Option (Underglow b) :=
  ((s.drawEach (fun i =>
      (quotient b.rainbowSwirlRange s.ranges.effectNumLeds.toNat).map (fun q =>
        color b (BitVec.ofNat 8 (q * i) + s.animation.pos) s.light.config.sat
          s.light.config.val))).bind set).map
    (setPos (if s.odd then s.animation.pos + 1 else s.animation.pos - 1))

/-- Whether the part `j` of the snake is at the LED `i`. -/
def snakeAt (s : Underglow b) (i j : Nat) : Option Bool :=
  let k := if s.odd then s.snakePos - BitVec.ofNat 8 j else s.snakePos + BitVec.ofNat 8 j
  (if (b.ledNum : Int) < k.toInt then (remainder k.toNat b.ledNum).map (BitVec.ofNat 8)
    else some k).map (fun k =>
      let k := if k.toInt < 0 then k + s.ranges.effectNumLeds else k
      decide ((i : Int) = k.toInt))

/-- The color of the part `j`. -/
def snakeColor (s : Underglow b) (j : Nat) : Option Rgb :=
  (quotient (s.light.config.val.toNat * (b.snakeLength.toNat - j)) b.snakeLength.toNat).map
    (fun val => color b s.light.config.hue s.light.config.sat (BitVec.ofNat 8 val))

/-- The parts of the snake that are at the LED `i`. -/
def snakeParts (s : Underglow b) (i : Nat) :
    Vector Rgb b.ledNum → Option (Vector Rgb b.ledNum) :=
  loop (fun j led => (s.snakeAt i j).bind (fun here =>
    if here then (s.snakeColor j).bind (store led (i + s.ranges.effectStartPos.toNat))
    else some led)) b.snakeLength.toNat

def snakeRestart (s : Underglow b) : Underglow b :=
  if b.animationSync ∧ s.animation.pos = 0 then
    { s with snakePos := if s.odd then 0 else s.ranges.effectNumLeds - 1 }.setPos 1
  else s

def snakeMove (s : Underglow b) : Option (Underglow b) :=
  if s.odd then
    (remainder (s.snakePos.toNat + 1) s.ranges.effectNumLeds.toNat).map (fun pos =>
      { s with snakePos := BitVec.ofNat 8 pos }.setPos
        (if b.animationSync then BitVec.ofNat 8 pos else s.animation.pos))
  else if s.snakePos = 0 then
    some ({ s with snakePos := s.ranges.effectNumLeds - 1 }.setPos
      (if b.animationSync then 0 else s.animation.pos))
  else
    some ({ s with snakePos := s.snakePos - 1 }.setPos
      (if b.animationSync then 1 else s.animation.pos))

/-- `rgblight_effect_snake` -/
def effectSnake (s : Underglow b) : Option (Underglow b) :=
  let s := s.snakeRestart
  ((s.draw s.ranges.effectNumLeds.toNat (fun i led =>
    (store led (i + s.ranges.effectStartPos.toNat) black).bind (s.snakeParts i))).bind set).bind
      snakeMove

def knightRestart (s : Underglow b) : Underglow b :=
  if b.animationSync ∧ s.animation.pos = 0 then
    { s with
      knightLowBound := 0
      knightHighBound := b.knightLength - 1
      knightIncrement := 1 }.setPos 1
  else s

/-- `RGBLIGHT_EFFECT_KNIGHT_LED_NUM` -/
def knightNum (s : Underglow b) : Byte :=
  b.knightLedNum.getD s.ranges.effectNumLeds

def knightDraw (s : Underglow b) : Option (Underglow b) :=
  s.draw s.knightNum.toNat (fun i led =>
    (remainder (i + b.knightOffset) s.ranges.effectNumLeds.toNat).bind (fun r =>
      let cur := (r + s.ranges.effectStartPos.toNat) % 256
      store led cur
        (if s.knightLowBound.toInt ≤ i ∧ (i : Int) ≤ s.knightHighBound.toInt then s.ownColor
        else black)))

def knightMove (s : Underglow b) : Underglow b :=
  let low := s.knightLowBound + s.knightIncrement
  let high := s.knightHighBound + s.knightIncrement
  let turns := high.toInt ≤ 0 ∨ (s.knightNum.toNat : Int) - 1 ≤ low.toInt
  let increment := if turns then -s.knightIncrement else s.knightIncrement
  { s with knightLowBound := low, knightHighBound := high, knightIncrement := increment }.setPos
    (if turns ∧ b.animationSync ∧ increment = 1 then 0 else s.animation.pos)

/-- `rgblight_effect_knight` -/
def effectKnight (s : Underglow b) : Option (Underglow b) :=
  (((s.knightRestart.fill black).bind knightDraw).bind set).map knightMove

def cubed (x : BitVec 32) : BitVec 32 := x * x * x

def christmasHue (pos : Byte) : Option Byte :=
  let xa := cubed (pos.setWidth 32)
  (quotient (85 * xa).toNat (xa + cubed (32 - pos.setWidth 32)).toNat).map (BitVec.ofNat 8)

def christmasVal (hue : Byte) : Byte :=
  let shade : Int := if hue.toNat < 42 then hue.toNat else 85 - (hue.toNat : Int)
  BitVec.ofInt 8 (255 - Int.tdiv (3 * shade) 2)

/-- `rgblight_effect_christmas` -/
def effectChristmas (s : Underglow b) : Option (Underglow b) :=
  (christmasHue s.animation.pos).bind (fun hue =>
    ((s.drawEach (fun i => (quotient i b.christmasStep).map (fun group =>
        color b (if group % 2 = 1 then hue else 85 - hue) s.light.config.sat
          (christmasVal hue)))).bind set).map (fun t : Underglow b =>
      let increment :=
        if t.animation.pos = 0 then 1
        else if t.animation.pos = 32 then -1 else t.christmasIncrement
      { t with christmasIncrement := increment }.setPos (t.animation.pos + increment)))

/-- `rgblight_effect_rgbtest` -/
def effectRgbtest (s : Underglow b) : Option (Underglow b) :=
  let maxval := if s.rgbtestMaxval = 0 then (color b 0 255 b.limitVal).r else s.rgbtestMaxval
  ({ s with rgbtestMaxval := maxval }.setrgb
    { r := if s.animation.pos = 0 then maxval else 0
      g := if s.animation.pos = 1 then maxval else 0
      b := if s.animation.pos = 2 then maxval else 0 }).map
    (setPos (BitVec.ofNat 8 ((s.animation.pos.toNat + 1) % 3)))

/-- `rgblight_effect_alternating` -/
def effectAlternating (s : Underglow b) : Option (Underglow b) :=
  let half := s.ranges.effectNumLeds.toNat / 2
  ((s.drawEach (fun i => some (color b s.light.config.hue s.light.config.sat
    (if (i < half ∧ s.animation.pos ≠ 0) ∨ (half ≤ i ∧ s.animation.pos = 0) then
      s.light.config.val else 0)))).bind set).map
    (setPos (BitVec.ofNat 8 ((s.animation.pos.toNat + 1) % 2)))

def frac (n d : Byte) : Option Byte :=
  (quotient (255 * n.toNat) d.toNat).map (BitVec.ofNat 8)

def scale (v : BitVec 16) (scale : Byte) : Byte :=
  BitVec.ofNat 8 ((v.toNat * scale.toNat) >>> 8)

def randomColor (s : Underglow b) : Bool :=
  s.animation.delta.toNat / 3 ≠ 0

def selected (s : Underglow b) (rand : TwinkleRand) : Bool :=
  rand.chosen < (scale b.twinkleProbability (127 + s.light.config.val / 2)).toNat

def twinkleVal (s : Underglow b) (life maxLife : Byte) : Option Byte :=
  let bottom := b.breatheCalc 0
  let top := b.breatheCalc 127
  (frac life maxLife).bind (fun pos =>
    (frac (b.breatheCalc pos - bottom) (top - bottom)).map (fun unscaled =>
      scale (s.light.config.val.setWidth 16) unscaled))

def twinkleHsv (s : Underglow b) (rand : TwinkleRand) (hsv : Hsv) : Option Hsv :=
  if s.randomColor then
    let half := s.light.config.sat.toNat / 2
    (remainder rand.sat half).map (fun sat =>
      { h := BitVec.ofNat 8 (rand.hue % 0xFF), s := BitVec.ofNat 8 (sat + half), v := 0 })
  else some { hsv with v := 0 }

def twinkle (s : Underglow b) (restart : Bool) (rand : TwinkleRand) (t : TwinkleState) :
    Option TwinkleState :=
  let hsv :=
    if s.randomColor then t.hsv
    else { h := s.light.config.hue, s := s.light.config.sat, v := t.hsv.v }
  if restart then some { t with hsv := { hsv with v := 0 }, life := 0 }
  else if t.life ≠ 0 then
    (s.twinkleVal (t.life - 1) t.maxLife).map (fun val =>
      { t with hsv := { hsv with v := val }, life := t.life - 1 })
  else if s.selected rand then
    let maxLife := BitVec.ofNat 8 (max 20 (min b.twinkleLife s.light.config.val.toNat))
    (s.twinkleHsv rand hsv).map (fun hsv => { hsv := hsv, life := maxLife, maxLife := maxLife })
  else some { t with hsv := hsv }

/-- A turn of the loop of `rgblight_effect_twinkle`. -/
def twinkleTurn (s : Underglow b) (restart : Bool) (rand : Nat → TwinkleRand) (i : Nat)
    (done : Vector TwinkleState b.ledNum × Vector Rgb b.ledNum) :
    Option (Vector TwinkleState b.ledNum × Vector Rgb b.ledNum) :=
  (fetch done.1 i).bind (fun t => (s.twinkle restart (rand i) t).bind (fun t =>
    (store done.1 i t).bind (fun states =>
      (store done.2 (i + s.ranges.effectStartPos.toNat) (color b t.hsv.h t.hsv.s t.hsv.v)).map
        (fun led => (states, led)))))

/-- `rgblight_effect_twinkle` -/
def effectTwinkle (rand : Nat → TwinkleRand) (s : Underglow b) : Option (Underglow b) :=
  let restart := s.animation.pos = 0
  let s := s.setPos 1
  ((loop (s.twinkleTurn restart rand) s.ranges.effectNumLeds.toNat
    (s.ledTwinkleState, s.led)).map (fun done =>
      { s with ledTwinkleState := done.1, led := done.2 })).bind set

/-- The effect of a base mode, with what `rand()` answers; static light has none. -/
def effect (rand : Nat → TwinkleRand) (e : Option RgblightEffect) (s : Underglow b) :
    Option (Underglow b) :=
  match e with
  | some .breathing => s.effectBreathing
  | some .rainbowMood => s.effectRainbowMood
  | some .rainbowSwirl => s.effectRainbowSwirl
  | some .snake => s.effectSnake
  | some .knight => s.effectKnight
  | some .christmas => s.effectChristmas
  | some .rgbTest => s.effectRgbtest
  | some .alternating => s.effectAlternating
  | some .twinkle => s.effectTwinkle rand
  | some .staticLight | some .staticGradient | none => some s

/-! ### The task -/

def intervalTime (s : Underglow b) : BitVec 16 :=
  match b.effectAt s.baseMode with
  | some .staticLight | some .staticGradient | none => 2000
  | some e => b.interval e s.animation.delta

/-- What `rgblight_task` does before it looks at the time. -/
def prepare (now : BitVec 16) (s : Underglow b) : Underglow b :=
  let delta := s.light.config.mode - s.baseMode
  if s.animation.restart then
    { s with animation := { lastTimer := now, delta := delta, restart := false, pos := 0 } }
  else { s with animation := { s.animation with delta := delta } }

/-- `rgblight_task` -/
def task (now : BitVec 16) (rand : Nat → TwinkleRand) (s : Underglow b) : Option (Underglow b) :=
  if s.light.timerEnabled then
    let s := s.prepare now
    if timerExpired now s.animation.lastTimer then
      { s with animation :=
          { s.animation with lastTimer := s.animation.lastTimer + s.intervalTime } }.effect rand
        (b.effectAt s.baseMode)
    else some s
  else some s

end Underglow

inductive UnderglowEvent where
  | setEffectRange (startPos numLeds : Byte)
  | mode (mode : Byte) (write : Bool)
  | sethsv (hue sat val : Byte) (write : Bool)
  | enable (write : Bool)
  | disable (write : Bool)
  | reload (stored : RgblightConfig)
  | timerEnable (now : BitVec 16)
  | timerDisable
  | task (now : BitVec 16) (rand : Nat → TwinkleRand)

def Underglow.step {b : UnderglowBuild} (s : Underglow b) (e : UnderglowEvent) :
    Option (Underglow b) :=
  match e with
  | .setEffectRange startPos numLeds => some (s.setEffectRange startPos numLeds)
  | .mode mode write => s.mode mode write
  | .sethsv hue sat val write => s.sethsv hue sat val write
  | .enable write => s.enable write
  | .disable write => s.disable write
  | .reload stored => s.reload stored
  | .timerEnable now => some (s.timerEnable now)
  | .timerDisable => some s.timerDisable
  | .task now rand => s.task now rand

/-! ### The defaults -/

def rgblightEffectBreatheTable : List Byte :=
  [0x22, 0x23, 0x25, 0x26, 0x28, 0x29, 0x2A, 0x2C, 0x2D, 0x2F, 0x30, 0x32, 0x33, 0x35, 0x36, 0x38,
    0x3A, 0x3B, 0x3D, 0x3E, 0x40, 0x42, 0x43, 0x45, 0x47, 0x49, 0x4A, 0x4C, 0x4E, 0x50, 0x51, 0x53,
    0x55, 0x57, 0x59, 0x5A, 0x5C, 0x5E, 0x60, 0x62, 0x64, 0x66, 0x68, 0x69, 0x6B, 0x6D, 0x6F, 0x71,
    0x73, 0x75, 0x77, 0x79, 0x7B, 0x7D, 0x7F, 0x81, 0x83, 0x85, 0x87, 0x89, 0x8A, 0x8C, 0x8E, 0x90,
    0x92, 0x94, 0x96, 0x98, 0x9A, 0x9C, 0x9E, 0x9F, 0xA1, 0xA3, 0xA5, 0xA7, 0xA8, 0xAA, 0xAC, 0xAE,
    0xAF, 0xB1, 0xB3, 0xB4, 0xB6, 0xB8, 0xB9, 0xBB, 0xBC, 0xBE, 0xBF, 0xC1, 0xC2, 0xC3, 0xC5, 0xC6,
    0xC7, 0xC9, 0xCA, 0xCB, 0xCC, 0xCD, 0xCE, 0xD0, 0xD1, 0xD2, 0xD2, 0xD3, 0xD4, 0xD5, 0xD6, 0xD7,
    0xD7, 0xD8, 0xD9, 0xD9, 0xDA, 0xDA, 0xDB, 0xDB, 0xDB, 0xDC, 0xDC, 0xDC, 0xDC, 0xDC, 0xDD, 0xDD,
    0xDD, 0xDD, 0xDC, 0xDC, 0xDC, 0xDC, 0xDC, 0xDB, 0xDB, 0xDB, 0xDA, 0xDA, 0xD9, 0xD9, 0xD8, 0xD7,
    0xD7, 0xD6, 0xD5, 0xD4, 0xD3, 0xD2, 0xD2, 0xD1, 0xD0, 0xCE, 0xCD, 0xCC, 0xCB, 0xCA, 0xC9, 0xC7,
    0xC6, 0xC5, 0xC3, 0xC2, 0xC1, 0xBF, 0xBE, 0xBC, 0xBB, 0xB9, 0xB8, 0xB6, 0xB4, 0xB3, 0xB1, 0xAF,
    0xAE, 0xAC, 0xAA, 0xA8, 0xA7, 0xA5, 0xA3, 0xA1, 0x9F, 0x9E, 0x9C, 0x9A, 0x98, 0x96, 0x94, 0x92,
    0x90, 0x8E, 0x8C, 0x8A, 0x89, 0x87, 0x85, 0x83, 0x81, 0x7F, 0x7D, 0x7B, 0x79, 0x77, 0x75, 0x73,
    0x71, 0x6F, 0x6D, 0x6B, 0x69, 0x68, 0x66, 0x64, 0x62, 0x60, 0x5E, 0x5C, 0x5A, 0x59, 0x57, 0x55,
    0x53, 0x51, 0x50, 0x4E, 0x4C, 0x4A, 0x49, 0x47, 0x45, 0x43, 0x42, 0x40, 0x3E, 0x3D, 0x3B, 0x3A,
    0x38, 0x36, 0x35, 0x33, 0x32, 0x30, 0x2F, 0x2D, 0x2C, 0x2A, 0x29, 0x28, 0x26, 0x25, 0x23, 0x22]

/-- `hsv_to_rgb`, without the CIE curve. -/
def Hsv.toRgb (hsv : Hsv) : Rgb :=
  if hsv.s = 0 then { r := hsv.v, g := hsv.v, b := hsv.v }
  else
    let h := hsv.h.toNat
    let s := hsv.s.toNat
    let v := hsv.v.toNat
    let region := h * 6 / 255
    let remainder : Byte := BitVec.ofInt 8 ((h * 2 - region * 85 : Int) * 3)
    let p : Byte := BitVec.ofNat 8 ((v * (255 - s)) >>> 8)
    let q : Byte := BitVec.ofNat 8 ((v * (255 - ((s * remainder.toNat) >>> 8))) >>> 8)
    let t : Byte := BitVec.ofNat 8 ((v * (255 - ((s * (255 - remainder.toNat)) >>> 8))) >>> 8)
    match region with
    | 6 | 0 => { r := hsv.v, g := t, b := p }
    | 1 => { r := q, g := hsv.v, b := p }
    | 2 => { r := p, g := hsv.v, b := t }
    | 3 => { r := p, g := q, b := hsv.v }
    | 4 => { r := t, g := p, b := hsv.v }
    | _ => { r := hsv.v, g := p, b := q }

def rgbledIntervals (e : RgblightEffect) (delta : Byte) : BitVec 16 :=
  match e with
  | .breathing => [30, 20, 10, 5].getD delta.toNat 0
  | .rainbowMood => [120, 60, 30].getD delta.toNat 0
  | .rainbowSwirl | .snake => [100, 50, 20].getD (delta.toNat / 2) 0
  | .knight => [127, 63, 31].getD delta.toNat 0
  | .christmas => 40
  | .rgbTest => 1024
  | .alternating => 500
  | .twinkle => [30, 15, 5].getD (delta.toNat % 3) 0
  | .staticLight | .staticGradient => 2000

/-- The defaults of `rgblight.h` and `rgblight.c` with all effects, for so many LEDs. `RAND_MAX` is
    `0x7FFFFFFF`. -/
def UnderglowBuild.defaults (ledNum : Nat) (h : 0 < ledNum) : UnderglowBuild where
  effects := fun _ => true
  limitVal := 255
  hueStep := 8
  satStep := 17
  valStep := 17
  eepromEnable := true
  ledNum := ledNum
  ledNum_pos := h
  rainbowSwirlRange := 255
  snakeLength := 4
  knightLength := 3
  knightOffset := 0
  knightLedNum := none
  christmasStep := 2
  twinkleLife := 200
  twinkleProbability := 516
  interval := rgbledIntervals
  gradientRanges := fun i => [255, 170, 127, 85, 64].getD i 0
  breatheCalc := fun pos => rgblightEffectBreatheTable.getD pos.toNat 0
  hsvToRgb := Hsv.toRgb
  animationSync := false

end K530
