import K530.Split.Transactions

/-!
# Split Underglow

`rgblight` on the two halves of a split keyboard. The master's setters change its
configuration and note in `change_flags` what kind of change it was. A sync sends
configuration and flags together and clears the flags; the slave calls the
setters on itself for the parts that are flagged, with the values of the sync.

The setters look at the half they run on. Nothing but switching it on has an
effect while it is off, and some effects keep a value of their own: breathing
keeps the brightness, the two rainbows keep the hue. Writing to the EEPROM checks
the configuration first and brings a brightness above the limit down.

Which effects there are is a choice of the build, and the modes are numbered
accordingly. What is shown on the LEDs, the EEPROM's contents, the animation and
the layers have no say in the configuration and are left out; of `base_mode` only
the comparisons remain. The flag of an animation tick is set by the animation.

## Main definitions

* `RgblightEffect`, `RgblightBuild`: The effects and the numbers of the build.
-/

namespace K530

/-- The effects, in the order of `rgblight_modes.h`. -/
inductive RgblightEffect where
  | staticLight
  | breathing
  | rainbowMood
  | rainbowSwirl
  | snake
  | knight
  | christmas
  | staticGradient
  | rgbTest
  | alternating
  | twinkle
  deriving DecidableEq

namespace RgblightEffect

def count : RgblightEffect → Nat
  | staticLight => 1
  | breathing => 4
  | rainbowMood => 3
  | rainbowSwirl => 6
  | snake => 6
  | knight => 3
  | christmas => 1
  | staticGradient => 10
  | rgbTest => 1
  | alternating => 1
  | twinkle => 6

def all : List RgblightEffect :=
  [staticLight, breathing, rainbowMood, rainbowSwirl, snake, knight, christmas, staticGradient,
    rgbTest, alternating, twinkle]

/-- The effects of `static_effect_table`. -/
def isStatic : RgblightEffect → Bool
  | staticLight | staticGradient => true
  | _ => false

end RgblightEffect

structure RgblightBuild where
  /-- the effects that are compiled in; the static light always is -/
  effects : RgblightEffect → Bool
  /-- `RGBLIGHT_LIMIT_VAL` -/
  limitVal : Byte
  /-- `RGBLIGHT_HUE_STEP` -/
  hueStep : Byte
  /-- `RGBLIGHT_SAT_STEP` -/
  satStep : Byte
  /-- `RGBLIGHT_VAL_STEP` -/
  valStep : Byte
  /-- `EEPROM_ENABLE` -/
  eepromEnable : Bool

namespace RgblightBuild

variable (b : RgblightBuild)

def has (e : RgblightEffect) : Bool :=
  decide (e = .staticLight) || b.effects e

def modeEffects : List RgblightEffect :=
  (RgblightEffect.all.filter b.has).flatMap (fun e => List.replicate e.count e)

/-- `RGBLIGHT_MODES` -/
def modes : Byte := BitVec.ofNat 8 b.modeEffects.length

/-- The effect whose base mode `mode_base_table` gives for a mode. -/
def effectOf (mode : Byte) : Option RgblightEffect :=
  if mode = 0 then none else b.modeEffects[mode.toNat - 1]?

def isStaticEffect (mode : Byte) : Bool :=
  (b.effectOf mode).any RgblightEffect.isStatic

/-- `RGBLIGHT_USE_TIMER` -/
def useTimer : Bool :=
  RgblightEffect.all.any (fun e => !e.isStatic && b.has e)

def clampMode (mode : Byte) : Byte :=
  if mode < 1 then 1 else if b.modes < mode then b.modes else mode

end RgblightBuild

@[ext]
structure RgblightConfig where
  enable : Bool
  mode : Byte
  hue : Byte
  sat : Byte
  val : Byte
  speed : Byte
  deriving DecidableEq

/-- `change_flags`, the ones the setters set. -/
@[ext]
structure ChangeFlags where
  mode : Bool
  hsvs : Bool
  timer : Bool
  deriving DecidableEq

def ChangeFlags.none : ChangeFlags := { mode := false, hsvs := false, timer := false }

/-- The state of a half: `rgblight_config` and `rgblight_status`. A sync is a copy of
    it. -/
structure Rgblight where
  config : RgblightConfig
  timerEnabled : Bool
  flags : ChangeFlags
  deriving DecidableEq

namespace Rgblight

variable (b : RgblightBuild)

def checkConfig (c : RgblightConfig) : RgblightConfig :=
  { c with
    mode := b.clampMode c.mode
    val := if b.limitVal < c.val then b.limitVal else c.val }

/-- What `eeconfig_update_rgblight` does to the configuration, if it is called. -/
def updateEeprom (write : Bool) (r : Rgblight) : Rgblight :=
  if write && b.eepromEnable then { r with config := checkConfig b r.config } else r

def timerDisable (r : Rgblight) : Rgblight :=
  if b.useTimer then { r with timerEnabled := false, flags := { r.flags with timer := true } }
  else r

def timerEnable (r : Rgblight) : Rgblight :=
  if b.useTimer then
    { r with
      timerEnabled := !b.isStaticEffect r.config.mode || r.timerEnabled
      flags := { r.flags with timer := true } }
  else r

def keepsVal (mode : Byte) : Bool :=
  decide (b.effectOf mode = some .breathing)

def keepsHue (mode : Byte) : Bool :=
  decide (b.effectOf mode = some .rainbowMood) || decide (b.effectOf mode = some .rainbowSwirl)

def withHsv (hue sat val : Byte) (c : RgblightConfig) : RgblightConfig :=
  { c with
    hue := if keepsHue b c.mode then c.hue else hue
    sat := sat
    val := if keepsVal b c.mode then c.val else val }

def sameHsv (c d : RgblightConfig) : Bool :=
  decide (c.hue = d.hue) && decide (c.sat = d.sat) && decide (c.val = d.val)

/-- `rgblight_sethsv_eeprom_helper` -/
def sethsv (hue sat val : Byte) (write : Bool) (r : Rgblight) : Rgblight :=
  if r.config.enable then
    let config := withHsv b hue sat val r.config
    updateEeprom b write
      { r with
        config := config
        flags := { r.flags with hsvs := r.flags.hsvs || !sameHsv r.config config } }
  else r

def setTimer (r : Rgblight) : Rgblight :=
  if b.isStaticEffect r.config.mode then timerDisable b r else timerEnable b r

/-- The first half of `rgblight_mode_eeprom_helper`: the mode itself. -/
def storeMode (mode : Byte) (write : Bool) (r : Rgblight) : Rgblight :=
  setTimer b
    (updateEeprom b write
      { r with
        config := { r.config with mode := b.clampMode mode }
        flags := { r.flags with mode := true } })

def refreshHsv (r : Rgblight) : Rgblight :=
  sethsv b r.config.hue r.config.sat r.config.val false r

/-- `rgblight_mode_eeprom_helper` -/
def mode (mode : Byte) (write : Bool) (r : Rgblight) : Rgblight :=
  if r.config.enable then refreshHsv b (storeMode b mode write r) else r

/-- `rgblight_enable` and `rgblight_enable_noeeprom` -/
def enable (write : Bool) (r : Rgblight) : Rgblight :=
  mode b r.config.mode write { r with config := { r.config with enable := true } }

/-- `rgblight_disable` and `rgblight_disable_noeeprom` -/
def disable (write : Bool) (r : Rgblight) : Rgblight :=
  let r := timerDisable b
    (updateEeprom b write { r with config := { r.config with enable := false } })
  { r with flags := { r.flags with mode := true } }

/-- `rgblight_toggle` and `rgblight_toggle_noeeprom` -/
def toggle (write : Bool) (r : Rgblight) : Rgblight :=
  if r.config.enable then disable b write r else enable b write r

def increase (r : Rgblight) : Rgblight :=
  mode b (if r.config.mode < b.modes then r.config.mode + 1 else 0) true r

def decrease (r : Rgblight) : Rgblight :=
  mode b (if 1 < r.config.mode then r.config.mode - 1 else 0) true r

/-- `rgblight_step` and `rgblight_step_noeeprom` -/
def step (write : Bool) (r : Rgblight) : Rgblight :=
  mode b (if b.modes < r.config.mode + 1 then 1 else r.config.mode + 1) write r

/-- `rgblight_step_reverse` and `rgblight_step_reverse_noeeprom` -/
def stepReverse (write : Bool) (r : Rgblight) : Rgblight :=
  mode b (if r.config.mode - 1 < 1 then b.modes else r.config.mode - 1) write r

def qadd8 (i j : Byte) : Byte := if 255 < i.toNat + j.toNat then 255 else i + j

def qsub8 (i j : Byte) : Byte := if i < j then 0 else i - j

def setSpeed (speed : Byte) (write : Bool) (r : Rgblight) : Rgblight :=
  updateEeprom b write { r with config := { r.config with speed := speed } }

end Rgblight

/-- A call of the interface on the master. The Booleans tell a call from its
    `_noeeprom` twin. -/
inductive RgblightCall where
  | enable (write : Bool)
  | disable (write : Bool)
  | toggle (write : Bool)
  | mode (mode : Byte) (write : Bool)
  | increase
  | decrease
  | step (write : Bool)
  | stepReverse (write : Bool)
  | sethsv (hue sat val : Byte) (write : Bool)
  | increaseHue (write : Bool)
  | decreaseHue (write : Bool)
  | increaseSat (write : Bool)
  | decreaseSat (write : Bool)
  | increaseVal (write : Bool)
  | decreaseVal (write : Bool)
  | setSpeed (speed : Byte) (write : Bool)
  | increaseSpeed (write : Bool)
  | decreaseSpeed (write : Bool)
  deriving DecidableEq

namespace Rgblight

variable (b : RgblightBuild)

def call (r : Rgblight) : RgblightCall → Rgblight
  | .enable write => enable b write r
  | .disable write => disable b write r
  | .toggle write => toggle b write r
  | .mode m write => mode b m write r
  | .increase => increase b r
  | .decrease => decrease b r
  | .step write => step b write r
  | .stepReverse write => stepReverse b write r
  | .sethsv hue sat val write => sethsv b hue sat val write r
  | .increaseHue write => sethsv b (r.config.hue + b.hueStep) r.config.sat r.config.val write r
  | .decreaseHue write => sethsv b (r.config.hue - b.hueStep) r.config.sat r.config.val write r
  | .increaseSat write =>
    sethsv b r.config.hue (qadd8 r.config.sat b.satStep) r.config.val write r
  | .decreaseSat write =>
    sethsv b r.config.hue (qsub8 r.config.sat b.satStep) r.config.val write r
  | .increaseVal write =>
    sethsv b r.config.hue r.config.sat (qadd8 r.config.val b.valStep) write r
  | .decreaseVal write =>
    sethsv b r.config.hue r.config.sat (qsub8 r.config.val b.valStep) write r
  | .setSpeed speed write => setSpeed b speed write r
  | .increaseSpeed write =>
    setSpeed b (if r.config.speed < 3 then r.config.speed + 1 else r.config.speed) write r
  | .decreaseSpeed write =>
    setSpeed b (if 0 < r.config.speed then r.config.speed - 1 else r.config.speed) write r

/-- The mode part of `rgblight_update_sync`. -/
def updateMode (sync : Rgblight) (write : Bool) (r : Rgblight) : Rgblight :=
  if sync.flags.mode then
    if sync.config.enable then
      mode b sync.config.mode write { r with config := { r.config with enable := true } }
    else disable b false r
  else r

/-- The colour part of `rgblight_update_sync`. -/
def updateHsv (sync : Rgblight) (write : Bool) (r : Rgblight) : Rgblight :=
  if sync.flags.hsvs then sethsv b sync.config.hue sync.config.sat sync.config.val write r else r

/-- The timer part of `rgblight_update_sync`. -/
def updateTimer (sync : Rgblight) (r : Rgblight) : Rgblight :=
  if sync.flags.timer && b.useTimer then
    if sync.timerEnabled then timerEnable b r else timerDisable b r
  else r

def updateSync (sync : Rgblight) (write : Bool) (r : Rgblight) : Rgblight :=
  updateTimer b sync (updateHsv b sync write (updateMode b sync write r))

def clearChangeFlags (r : Rgblight) : Rgblight := { r with flags := .none }

end Rgblight

/-- The two halves, and the place of the sync in the two shared memories. -/
structure SplitRgblight where
  master : Rgblight
  slave : Rgblight
  datum : SplitDatum Rgblight
  deriving DecidableEq

namespace SplitRgblight

variable (b : RgblightBuild)

def init (r : Rgblight) : SplitRgblight :=
  { master := r, slave := r,
    datum :=
      { source := r, shmem := r.clearChangeFlags, slave := r.clearChangeFlags, lastUpdate := 0 } }

/-- `rgblight_get_syncinfo`, into the place a transfer takes it from. -/
def syncinfo (s : SplitRgblight) : SplitDatum Rgblight :=
  { s.datum with source := s.master }

/-- `rgblight_handlers_master` -/
def handlersMaster (a : Attempt) (s : SplitRgblight) : Bool × SplitRgblight :=
  let sent := s.syncinfo.sendIfCondition a (decide (s.master.flags ≠ .none))
  if sent.1 then (true, { s with master := s.master.clearChangeFlags, datum := sent.2 })
  else (false, { s with datum := sent.2 })

/-- `rgblight_handlers_slave` -/
def handlersSlave (s : SplitRgblight) : SplitRgblight :=
  if s.datum.slave.flags ≠ .none then
    { s with
      slave := Rgblight.updateSync b s.datum.slave false s.slave
      datum := { s.datum with slave := s.datum.slave.clearChangeFlags } }
  else s

end SplitRgblight

end K530
