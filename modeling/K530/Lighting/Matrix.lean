import K530.Keymap.Layout

/-!
# The RGB Matrix

`rgb_matrix.c`: the settings of the lighting, the functions that change them,
and the task that draws with them and brings them to EEPROM. What is drawn is
left out; which frame is being drawn is not.

The settings are saved late. A change flags them, and `rgb_task_sync`, one of
the four states the task goes round in, writes them when it finds the flag. What
it writes is the settings as they are by then, whoever made them so.

Each change comes in two versions, one that flags and one that does not.
Mode and color are refused while the lighting is off; speed and the toggle are
not.

`effectMax` is `RGB_MATRIX_EFFECT_MAX`, one more than the number of effects
compiled in.

## Main definitions

* `RgbConfig`: The settings, `rgb_config_t`.
-/

namespace K530

structure Hsv where
  h : Byte
  s : Byte
  v : Byte
  deriving DecidableEq

/-- `rgb_config_t`. Of the two bits of `enable` only the low one is ever set. -/
structure RgbConfig where
  enable : Bool
  mode : BitVec 6
  hsv : Hsv
  speed : Byte
  flags : Byte
  deriving DecidableEq

/-- `eeconfig_update_rgb_matrix_default`, with `RGB_MATRIX_STARTUP_MODE`. -/
def RgbConfig.default (startupMode : BitVec 6) : RgbConfig :=
  { enable := true, mode := startupMode, hsv := { h := 0, s := 0xFF, v := 0xFF }, speed := 127,
    flags := 0xFF }

/-- `rgb_task_states`. -/
inductive RgbTaskState where
  | starting
  | rendering
  | flushing
  | syncing
  deriving DecidableEq

/-- The state of `rgb_matrix.c`. -/
structure RgbMatrix where
  config : RgbConfig
  /-- `dirty_rgb_matrix`: the settings are to be written -/
  dirty : Bool
  /-- the settings written to EEPROM so far, oldest first -/
  written : List RgbConfig
  taskState : RgbTaskState
  lastEnable : Byte
  lastEffect : Byte
  /-- `rgb_timer_buffer` -/
  timerBuffer : BitVec 32
  /-- `g_rgb_timer` -/
  timer : BitVec 32
  deriving DecidableEq

namespace RgbMatrix

/-- After `rgb_matrix_init` has read these settings. -/
def init (config : RgbConfig) : RgbMatrix :=
  { config, dirty := false, written := [], taskState := .syncing, lastEnable := 0xFF,
    lastEffect := 0xFF, timerBuffer := 0, timer := 0 }

/-- `rgb_matrix_config.enable` as a byte. -/
def enableByte (m : RgbMatrix) : Byte := if m.config.enable then 1 else 0

/-- `eeconfig_flag_rgb_matrix`. -/
def flag (v : Bool) (m : RgbMatrix) : RgbMatrix :=
  { m with dirty := m.dirty || v }

/-- `eeconfig_flush_rgb_matrix`. -/
def flush (force : Bool) (m : RgbMatrix) : RgbMatrix :=
  if force || m.dirty then { m with written := m.written ++ [m.config], dirty := false } else m

/-! ### Changes -/

/-- `rgb_matrix_toggle_eeprom_helper`. -/
def toggleHelper (writeToEeprom : Bool) (m : RgbMatrix) : RgbMatrix :=
  flag writeToEeprom
    { m with config := { m.config with enable := !m.config.enable }, taskState := .starting }

def toggle (m : RgbMatrix) : RgbMatrix := toggleHelper true m

def enableNoeeprom (m : RgbMatrix) : RgbMatrix :=
  { m with
    taskState := if !m.config.enable then .starting else m.taskState,
    config := { m.config with enable := true } }

def disableNoeeprom (m : RgbMatrix) : RgbMatrix :=
  { m with
    taskState := if m.config.enable then .starting else m.taskState,
    config := { m.config with enable := false } }

/-- `rgb_matrix_mode_eeprom_helper`. -/
def modeHelper (effectMax : Nat) (mode : Byte) (writeToEeprom : Bool) (m : RgbMatrix) :
    RgbMatrix :=
  if !m.config.enable then m
  else
    let chosen : BitVec 6 :=
      if mode < 1 then 1
      else if mode.toNat ≥ effectMax then BitVec.ofNat 6 (effectMax - 1)
      else mode.setWidth 6
    flag writeToEeprom { m with config := { m.config with mode := chosen }, taskState := .starting }

def stepHelper (effectMax : Nat) (writeToEeprom : Bool) (m : RgbMatrix) : RgbMatrix :=
  let mode : Byte := m.config.mode.setWidth 8 + 1
  modeHelper effectMax (if mode.toNat < effectMax then mode else 1) writeToEeprom m

def stepReverseHelper (effectMax : Nat) (writeToEeprom : Bool) (m : RgbMatrix) : RgbMatrix :=
  let mode : Byte := m.config.mode.setWidth 8 - 1
  modeHelper effectMax (if mode < 1 then BitVec.ofNat 8 (effectMax - 1) else mode) writeToEeprom m

/-- `rgb_matrix_sethsv_eeprom_helper`. -/
def sethsvHelper (hsv : Hsv) (writeToEeprom : Bool) (m : RgbMatrix) : RgbMatrix :=
  if !m.config.enable then m
  else flag writeToEeprom { m with config := { m.config with hsv } }

/-- `rgb_matrix_set_speed_eeprom_helper`. It is not refused while the lighting
    is off. -/
def setSpeedHelper (speed : Byte) (writeToEeprom : Bool) (m : RgbMatrix) : RgbMatrix :=
  flag writeToEeprom { m with config := { m.config with speed } }

def qadd8 (i j : Byte) : Byte := if i.toNat + j.toNat > 255 then 255 else i + j

def qsub8 (i j : Byte) : Byte := if i.toNat < j.toNat then 0 else i - j

/-! ### Keycodes -/

/-- `RGB_MODE_FORWARD` and the keycodes after it. Those of single effects after
    `RGB_MODE_PLAIN` are claimed and do nothing. -/
def rgbModeForward : Keycode := 0x5CC4
def rgbModeReverse : Keycode := 0x5CC5
def rgbHui : Keycode := 0x5CC6
def rgbHud : Keycode := 0x5CC7
def rgbSai : Keycode := 0x5CC8
def rgbSad : Keycode := 0x5CC9
def rgbVai : Keycode := 0x5CCA
def rgbVad : Keycode := 0x5CCB
def rgbSpi : Keycode := 0x5CCC
def rgbSpd : Keycode := 0x5CCD
def rgbModePlain : Keycode := 0x5CCE
def rgbModeBreathe : Keycode := 0x5CCF
def rgbModeRgbtest : Keycode := 0x5CD6
def rgbModeTwinkle : Keycode := 0x5D5D

def handleKeycodeRgb (shifted : Bool) (incFunc decFunc : RgbMatrix → RgbMatrix) :
    RgbMatrix → RgbMatrix :=
  if shifted then decFunc else incFunc

/-- The steps of the keycodes. The color steps are `RGB_MATRIX_HUE_STEP` and
    its like. -/
def increaseHue (m : RgbMatrix) : RgbMatrix :=
  sethsvHelper { m.config.hsv with h := m.config.hsv.h + 8 } true m

def decreaseHue (m : RgbMatrix) : RgbMatrix :=
  sethsvHelper { m.config.hsv with h := m.config.hsv.h - 8 } true m

def increaseSat (m : RgbMatrix) : RgbMatrix :=
  sethsvHelper { m.config.hsv with s := qadd8 m.config.hsv.s 16 } true m

def decreaseSat (m : RgbMatrix) : RgbMatrix :=
  sethsvHelper { m.config.hsv with s := qsub8 m.config.hsv.s 16 } true m

def increaseVal (m : RgbMatrix) : RgbMatrix :=
  sethsvHelper { m.config.hsv with v := qadd8 m.config.hsv.v 16 } true m

def decreaseVal (m : RgbMatrix) : RgbMatrix :=
  sethsvHelper { m.config.hsv with v := qsub8 m.config.hsv.v 16 } true m

def increaseSpeed (m : RgbMatrix) : RgbMatrix :=
  setSpeedHelper (qadd8 m.config.speed 16) true m

def decreaseSpeed (m : RgbMatrix) : RgbMatrix :=
  setSpeedHelper (qsub8 m.config.speed 16) true m

/-- `process_rgb`. The answer is whether QMK goes on with the event. -/
def processRgb (effectMax : Nat) (keycode : Keycode) (pressed shifted : Bool) (m : RgbMatrix) :
    RgbMatrix × Bool :=
  if !pressed then (m, true)
  else if keycode = Keymap.rgbTog then (toggle m, false)
  else if keycode = rgbModeForward then
    (handleKeycodeRgb shifted (stepHelper effectMax true) (stepReverseHelper effectMax true) m,
      false)
  else if keycode = rgbModeReverse then
    (handleKeycodeRgb shifted (stepReverseHelper effectMax true) (stepHelper effectMax true) m,
      false)
  else if keycode = rgbHui then (handleKeycodeRgb shifted increaseHue decreaseHue m, false)
  else if keycode = rgbHud then (handleKeycodeRgb shifted decreaseHue increaseHue m, false)
  else if keycode = rgbSai then (handleKeycodeRgb shifted increaseSat decreaseSat m, false)
  else if keycode = rgbSad then (handleKeycodeRgb shifted decreaseSat increaseSat m, false)
  else if keycode = rgbVai then (handleKeycodeRgb shifted increaseVal decreaseVal m, false)
  else if keycode = rgbVad then (handleKeycodeRgb shifted decreaseVal increaseVal m, false)
  else if keycode = rgbSpi then (handleKeycodeRgb shifted increaseSpeed decreaseSpeed m, false)
  else if keycode = rgbSpd then (handleKeycodeRgb shifted decreaseSpeed increaseSpeed m, false)
  -- `RGB_MATRIX_SOLID_COLOR`, the first effect
  else if keycode = rgbModePlain then (modeHelper effectMax 1 true m, false)
  else
    (m, !(rgbModeBreathe ≤ keycode && keycode ≤ rgbModeRgbtest || keycode == rgbModeTwinkle))

/-! ### The task -/

def ledFlushLimit : Nat := 63

def effect (m : RgbMatrix) : Byte :=
  if m.config.enable then m.config.mode.setWidth 8 else 0

/-- `rgb_task_sync`. -/
def taskSync (now : BitVec 32) (m : RgbMatrix) : RgbMatrix :=
  let m := flush false m
  if (now - m.timer).toNat ≥ ledFlushLimit then { m with taskState := .starting } else m

/-- `rgb_task_start`. -/
def taskStart (m : RgbMatrix) : RgbMatrix :=
  { m with timer := m.timerBuffer, taskState := .rendering }

/-- `rgb_task_render`. An effect says whether it has more to draw in this
    frame; that of a dark keyboard has not, and is flushed once. -/
def taskRender (effect : Byte) (more : Bool) (m : RgbMatrix) : RgbMatrix :=
  let init := effect ≠ m.lastEffect || m.enableByte ≠ m.lastEnable
  let rendering := if effect = 0 then false else more
  if rendering then m
  else if !init && effect = 0 then { m with taskState := .syncing }
  else { m with taskState := .flushing }

/-- `rgb_task_flush`. -/
def taskFlush (effect : Byte) (m : RgbMatrix) : RgbMatrix :=
  { m with lastEffect := effect, lastEnable := m.enableByte, taskState := .syncing }

def task (now : BitVec 32) (more : Bool) (m : RgbMatrix) : RgbMatrix :=
  let m := { m with timerBuffer := now }
  match m.taskState with
  | .starting => taskStart m
  | .rendering => taskRender m.effect more m
  | .flushing => taskFlush m.effect m
  | .syncing => taskSync now m

end RgbMatrix

end K530
