import K530.Core.Usb

/-!
# Mouse Keys

`mousekey.c`: keys that move the mouse. Of a direction that is held nothing is kept but the
report: its axis is not zero, and has the sign of the direction. A release sets the axis
back to zero if the sign is that of its key.

What the axes are apart from the sign is a matter of speed. In the accelerated mode every
event of `mousekey_task` has a speed of its own, and the report that is kept is the same
before and after. In the three-speed mode the speed is that of the report that is kept: when
another is chosen, the axes are set anew. In both a diagonal is divided by the square root
of 2, in integers.

`pointing_device.c` is a sensor that moves the mouse. There is one report, `mouseReport`, which
the driver gets to fill in the motion, and to which the buttons of the mouse keys are added. It
is sent if it is not the one before. Then its axes are set back to zero, and its buttons stay.

## Main definitions

* `MouseKey`, `MouseReport`: The keys and the report.
-/

namespace K530

/-- `KC_MS_UP` and so on, to `KC_MS_ACCEL2`. -/
inductive MouseKey where
  | up
  | down
  | left
  | right
  | btn (n : Fin 8)
  | whUp
  | whDown
  | whLeft
  | whRight
  | accel0
  | accel1
  | accel2
deriving DecidableEq

/-- `report_mouse_t`, the axes `int8_t`. -/
structure MouseReport where
  buttons : Byte
  x : Int
  y : Int
  v : Int
  h : Int
deriving DecidableEq

/-- The conversion to an `int8_t`. -/
def int8 (z : Int) : Int :=
  z.bmod 256

def timesInvSqrt2 (x : Int) : Int :=
  int8 (x * 181 / 256)

def diagonalPart (x : Int) : Int :=
  if timesInvSqrt2 x = 0 then 1 else timesInvSqrt2 x

def diagonal (x y : Int) : Int × Int :=
  if x ≠ 0 ∧ y ≠ 0 then (diagonalPart x, diagonalPart y) else (x, y)

/-- `mkspd_unmod` and so on. -/
inductive MouseSpeed where
  | unmod
  | speed0
  | speed1
  | speed2
deriving DecidableEq

structure MouseKeys where
  /-- `mouse_report` -/
  report : MouseReport
  /-- `mousekey_accel` -/
  accel : Byte
  /-- `mousekey_repeat` -/
  moveRepeat : Byte
  /-- `mousekey_wheel_repeat` -/
  wheelRepeat : Byte
  /-- `last_timer_c` -/
  lastTimerC : BitVec 16
  /-- `last_timer_w` -/
  lastTimerW : BitVec 16
  /-- `mk_speed` -/
  speed : MouseSpeed

abbrev MouseDelta := { n : Nat // 1 ≤ n ∧ n ≤ 127 }

namespace MouseKeys

variable (s : MouseKeys)

/-- The branches of `mousekey_off` for the directions and the buttons, the same in both
    modes. -/
def release (k : MouseKey) : MouseReport :=
  let r := s.report
  match k with
  | .up => if r.y < 0 then { r with y := 0 } else r
  | .down => if r.y > 0 then { r with y := 0 } else r
  | .left => if r.x < 0 then { r with x := 0 } else r
  | .right => if r.x > 0 then { r with x := 0 } else r
  | .whUp => if r.v > 0 then { r with v := 0 } else r
  | .whDown => if r.v < 0 then { r with v := 0 } else r
  | .whLeft => if r.h < 0 then { r with h := 0 } else r
  | .whRight => if r.h > 0 then { r with h := 0 } else r
  | .btn n => { r with buttons := r.buttons &&& ~~~((1 : Byte) <<< n.val) }
  | .accel0 | .accel1 | .accel2 => r

/-- The branches of `mousekey_on` for them, with the units of a move and of the wheel. -/
def press (move wheel : Nat) (k : MouseKey) : MouseReport :=
  let r := s.report
  match k with
  | .up => { r with y := int8 (move * -1) }
  | .down => { r with y := int8 move }
  | .left => { r with x := int8 (move * -1) }
  | .right => { r with x := int8 move }
  | .whUp => { r with v := int8 wheel }
  | .whDown => { r with v := int8 (wheel * -1) }
  | .whLeft => { r with h := int8 (wheel * -1) }
  | .whRight => { r with h := int8 wheel }
  | .btn n => { r with buttons := r.buttons ||| ((1 : Byte) <<< n.val) }
  | .accel0 | .accel1 | .accel2 => r

/-- `mousekey_send`: the report goes out, and the timers of what moves are set. -/
def send (now : BitVec 16) : MouseReport × MouseKeys :=
  let r := s.report
  (r, { s with
    lastTimerC := if r.x ≠ 0 ∨ r.y ≠ 0 then now else s.lastTimerC
    lastTimerW := if r.v ≠ 0 ∨ r.h ≠ 0 then now else s.lastTimerW })

/-- The end of `mousekey_task`: what moves is sent, and the report is what it was. -/
def finish (now : BitVec 16) (tmpmr : MouseReport) : Option MouseReport × MouseKeys :=
  let r := s.report
  if r.x ≠ 0 ∨ r.y ≠ 0 ∨ r.v ≠ 0 ∨ r.h ≠ 0 then
    let sent := s.send now
    (some sent.1, { sent.2 with report := tmpmr })
  else (none, { s with report := tmpmr })

end MouseKeys

/-! ### The accelerated mode -/

structure MouseAccel where
  /-- `MOUSEKEY_MOVE_DELTA` -/
  moveDelta : MouseDelta
  /-- `MOUSEKEY_WHEEL_DELTA` -/
  wheelDelta : MouseDelta
  /-- `MOUSEKEY_MOVE_MAX` -/
  moveMax : Nat
  /-- `MOUSEKEY_WHEEL_MAX` -/
  wheelMax : Nat
  moveMax_le : moveMax ≤ 127
  wheelMax_le : wheelMax ≤ 127
  /-- `mk_delay` -/
  delay : Byte
  /-- `mk_interval` -/
  interval : Byte
  /-- `mk_max_speed` -/
  maxSpeed : Byte
  /-- `mk_time_to_max` -/
  timeToMax : Byte
  /-- `mk_wheel_delay` -/
  wheelDelay : Byte
  /-- `mk_wheel_interval` -/
  wheelInterval : Byte
  /-- `mk_wheel_max_speed` -/
  wheelMaxSpeed : Byte
  /-- `mk_wheel_time_to_max` -/
  wheelTimeToMax : Byte
  /-- `MK_COMBINED` -/
  combined : Bool

namespace MouseAccel

variable (c : MouseAccel)

/-- `unit`, a `uint16_t`, of either kind of movement. -/
def unit (delta max : Nat) (maxSpeed timeToMax : Byte) (accel repeats : Byte) : Nat :=
  let n :=
    if accel.getLsbD 0 then if c.combined then 1 else delta * maxSpeed.toNat / 4
    else if accel.getLsbD 1 then delta * maxSpeed.toNat / 2
    else if accel.getLsbD 2 then if c.combined then max else delta * maxSpeed.toNat
    else if repeats = 0 then delta
    else if timeToMax ≤ repeats then delta * maxSpeed.toNat
    else delta * maxSpeed.toNat * repeats.toNat / timeToMax.toNat
  n % 2 ^ 16

def limited (max unit : Nat) : Nat :=
  if max < unit then max else if unit = 0 then 1 else unit

/-- The unit of `move_unit`, before the limits. -/
def rawMoveUnit (s : MouseKeys) : Nat :=
  c.unit c.moveDelta.val c.moveMax c.maxSpeed c.timeToMax s.accel s.moveRepeat

/-- The unit of `wheel_unit`, before the limits. With `MK_COMBINED` it is the repeats of the
    moves that count. -/
def rawWheelUnit (s : MouseKeys) : Nat :=
  c.unit c.wheelDelta.val c.wheelMax c.wheelMaxSpeed c.wheelTimeToMax s.accel
    (if c.combined then s.moveRepeat else s.wheelRepeat)

def moveUnit (s : MouseKeys) : Nat :=
  limited c.moveMax (c.rawMoveUnit s)

def wheelUnit (s : MouseKeys) : Nat :=
  limited c.wheelMax (c.rawWheelUnit s)

def moved (unit : Nat) (z : Int) : Int :=
  if z ≠ 0 then int8 (unit * (if z > 0 then 1 else -1)) else 0

/-- The cursor's part of `mousekey_task`. -/
def taskMove (now : BitVec 16) (tmpmr : MouseReport) (s : MouseKeys) : MouseKeys :=
  let wait := if s.moveRepeat ≠ 0 then c.interval.toNat else c.delay.toNat * 10
  if (tmpmr.x ≠ 0 ∨ tmpmr.y ≠ 0) ∧ wait < (now - s.lastTimerC).toNat then
    let s := { s with moveRepeat := if s.moveRepeat ≠ 255 then s.moveRepeat + 1 else 255 }
    let d := diagonal (moved (c.moveUnit s) tmpmr.x) (moved (c.moveUnit s) tmpmr.y)
    { s with report := { s.report with x := d.1, y := d.2 } }
  else s

/-- The wheel's part of `mousekey_task`. -/
def taskWheel (now : BitVec 16) (tmpmr : MouseReport) (s : MouseKeys) : MouseKeys :=
  let wait := if s.wheelRepeat ≠ 0 then c.wheelInterval.toNat else c.wheelDelay.toNat * 10
  if (tmpmr.v ≠ 0 ∨ tmpmr.h ≠ 0) ∧ wait < (now - s.lastTimerW).toNat then
    let s := { s with wheelRepeat := if s.wheelRepeat ≠ 255 then s.wheelRepeat + 1 else 255 }
    let d := diagonal (moved (c.wheelUnit s) tmpmr.v) (moved (c.wheelUnit s) tmpmr.h)
    { s with report := { s.report with v := d.1, h := d.2 } }
  else s

/-- `mousekey_task`: what is sent, if anything is. -/
def task (now : BitVec 16) (s : MouseKeys) : Option MouseReport × MouseKeys :=
  let tmpmr := s.report
  let s := { s with report := { tmpmr with x := 0, y := 0, v := 0, h := 0 } }
  (c.taskWheel now tmpmr (c.taskMove now tmpmr s)).finish now tmpmr

/-- `mousekey_on` -/
def on (k : MouseKey) (s : MouseKeys) : MouseKeys :=
  { s with
    report := s.press (c.moveUnit s) (c.wheelUnit s) k
    accel :=
      match k with
      | .accel0 => s.accel ||| 1
      | .accel1 => s.accel ||| 2
      | .accel2 => s.accel ||| 4
      | _ => s.accel }

/-- `mousekey_off` -/
def off (k : MouseKey) (s : MouseKeys) : MouseKeys :=
  let r := s.release k
  { s with
    report := r
    accel :=
      match k with
      | .accel0 => s.accel &&& ~~~1
      | .accel1 => s.accel &&& ~~~2
      | .accel2 => s.accel &&& ~~~4
      | _ => s.accel
    moveRepeat := if r.x = 0 ∧ r.y = 0 then 0 else s.moveRepeat
    wheelRepeat := if r.v = 0 ∧ r.h = 0 then 0 else s.wheelRepeat }

end MouseAccel

/-! ### The three speeds -/

structure MouseSpeeds where
  /-- `c_offsets` -/
  cOffset : MouseSpeed → MouseDelta
  /-- `c_intervals` -/
  cInterval : MouseSpeed → BitVec 16
  /-- `w_offsets` -/
  wOffset : MouseSpeed → MouseDelta
  /-- `w_intervals` -/
  wInterval : MouseSpeed → BitVec 16
  /-- `MK_MOMENTARY_ACCEL` -/
  momentaryAccel : Bool

namespace MouseSpeeds

variable (c : MouseSpeeds)

/-- The speed at power-up, and with `MK_MOMENTARY_ACCEL` that without a key. -/
def start : MouseSpeed :=
  if c.momentaryAccel then .unmod else .speed1

def rescaled (offset : Nat) (z : Int) : Int :=
  if z > 0 then int8 offset else if z < 0 then int8 (offset * -1) else z

def adjustSpeed (s : MouseKeys) : MouseKeys :=
  let r := s.report
  let cOffset := (c.cOffset s.speed).val
  let wOffset := (c.wOffset s.speed).val
  let d := diagonal (rescaled cOffset r.x) (rescaled cOffset r.y)
  let h := rescaled wOffset r.h
  let v := rescaled wOffset r.v
  { s with
    report :=
      { r with
        x := d.1
        y := d.2
        h := if h ≠ 0 ∧ v ≠ 0 then timesInvSqrt2 h else h
        v := if h ≠ 0 ∧ v ≠ 0 then timesInvSqrt2 v else v } }

def setSpeed (new : MouseSpeed) (s : MouseKeys) : MouseKeys :=
  if new ≠ s.speed then c.adjustSpeed { s with speed := new } else s

/-- The speed after `mousekey_on`. -/
def speedOn (k : MouseKey) (s : MouseKeys) : MouseSpeed :=
  match k with
  | .accel0 => .speed0
  | .accel1 => .speed1
  | .accel2 => .speed2
  | _ => s.speed

/-- The speed after `mousekey_off`. -/
def speedOff (k : MouseKey) (s : MouseKeys) : MouseSpeed :=
  match k with
  | .accel0 | .accel1 | .accel2 => if c.momentaryAccel then .unmod else s.speed
  | _ => s.speed

/-- `mousekey_on` -/
def on (k : MouseKey) (s : MouseKeys) : MouseKeys :=
  c.setSpeed (speedOn k s)
    { s with report := s.press (c.cOffset s.speed).val (c.wOffset s.speed).val k }

/-- `mousekey_off` -/
def off (k : MouseKey) (s : MouseKeys) : MouseKeys :=
  c.setSpeed (c.speedOff k s) { s with report := s.release k }

/-- `mousekey_task` -/
def task (now : BitVec 16) (s : MouseKeys) : Option MouseReport × MouseKeys :=
  let tmpmr := s.report
  let moves := (tmpmr.x ≠ 0 ∨ tmpmr.y ≠ 0) ∧ c.cInterval s.speed < now - s.lastTimerC
  let turns := (tmpmr.h ≠ 0 ∨ tmpmr.v ≠ 0) ∧ c.wInterval s.speed < now - s.lastTimerW
  let s :=
    { s with
      report :=
        { tmpmr with
          x := if moves then tmpmr.x else 0
          y := if moves then tmpmr.y else 0
          v := if turns then tmpmr.v else 0
          h := if turns then tmpmr.h else 0 } }
  s.finish now tmpmr

end MouseSpeeds

/-! ### Pointing devices -/

/-- `POINTING_DEVICE_ROTATION_90` and so on. -/
inductive PointingRotation where
  | none
  | rotation90
  | rotation180
  | rotation270
deriving DecidableEq

structure PointingBuild where
  /-- `MOUSE_SHARED_EP`: reports have an id. -/
  sharedEp : Bool
  /-- `POINTING_DEVICE_MOTION_PIN` -/
  motionPin : Bool
  rotation : PointingRotation
  /-- `POINTING_DEVICE_INVERT_X` -/
  invertX : Bool
  /-- `POINTING_DEVICE_INVERT_Y` -/
  invertY : Bool

/-- `report_mouse_t`, with its id. -/
structure PointingReport where
  /-- `report_id` -/
  reportId : Byte
  mouse : MouseReport
deriving DecidableEq

namespace PointingReport

variable (b : PointingBuild)

/-- `REPORT_ID_MOUSE` -/
def idMouse : Byte := 2

/-- A `static` report, before it is set. -/
def zero : PointingReport :=
  { reportId := 0, mouse := { buttons := 0, x := 0, y := 0, v := 0, h := 0 } }

/-- `has_mouse_report_changed`. Without `MOUSE_SHARED_EP` there is no id to compare. -/
def changed (new old : PointingReport) : Prop :=
  (b.sharedEp = true ∧ new.reportId ≠ old.reportId) ∨ new.mouse ≠ old.mouse

instance (new old : PointingReport) : Decidable (changed b new old) :=
  inferInstanceAs (Decidable (_ ∨ _))

/-- `host_mouse_send`: what it sends, and what it leaves in the report it is given. -/
def hostMouseSend (r : PointingReport) : PointingReport :=
  if b.sharedEp then { r with reportId := idMouse } else r

def rotated (r : PointingReport) : PointingReport :=
  let m := r.mouse
  match b.rotation with
  | .none => r
  | .rotation90 => { r with mouse := { m with x := m.y, y := int8 (-m.x) } }
  | .rotation180 => { r with mouse := { m with x := int8 (-m.x), y := int8 (-m.y) } }
  | .rotation270 => { r with mouse := { m with x := int8 (-m.y), y := m.x } }

def inverted (r : PointingReport) : PointingReport :=
  let m := r.mouse
  { r with
    mouse :=
      { m with
        x := if b.invertX then int8 (-m.x) else m.x
        y := if b.invertY then int8 (-m.y) else m.y } }

end PointingReport

structure PointingMotion where
  x : Int
  y : Int
  v : Int
  h : Int

/-- `get_report` of a driver that leaves the buttons as they are. -/
def PointingMotion.getReport (motion : PointingMotion) (r : PointingReport) : PointingReport :=
  { r with
    mouse :=
      { r.mouse with x := motion.x, y := motion.y, v := motion.v, h := motion.h } }

structure PointingDevice where
  /-- `mouseReport` -/
  report : PointingReport
  /-- `old_report` -/
  old : PointingReport
deriving DecidableEq

namespace PointingDevice

variable (b : PointingBuild)

def init : PointingDevice :=
  { report := .zero, old := .zero }

def setReport (r : PointingReport) (d : PointingDevice) : PointingDevice :=
  { d with report := r }

/-- `pointing_device_task`, before anything is sent. The pin is low when there is motion.
    `pointing_device_task_kb` leaves the report as it is. -/
def gather (pin : Bool) (motion : PointingMotion) (mousekeys : MouseReport)
    (d : PointingDevice) : PointingReport :=
  let r := if b.motionPin = true ∧ pin = true then d.report else motion.getReport d.report
  let r := (r.rotated b).inverted b
  { r with mouse := { r.mouse with buttons := r.mouse.buttons ||| mousekeys.buttons } }

/-- `pointing_device_send`: what is sent, if anything is. -/
def send (d : PointingDevice) : Option PointingReport × PointingDevice :=
  let sends := d.report.changed b d.old
  let r := if sends then d.report.hostMouseSend b else d.report
  let still := { r with mouse := { r.mouse with x := 0, y := 0, v := 0, h := 0 } }
  (if sends then some r else none, { report := still, old := still })

/-- `pointing_device_task`, with `mousekey_get_report` as it comes. -/
def task (pin : Bool) (motion : PointingMotion) (mousekeys : MouseReport)
    (d : PointingDevice) : Option PointingReport × PointingDevice :=
  send b { d with report := d.gather b pin motion mousekeys }

end PointingDevice

end K530
