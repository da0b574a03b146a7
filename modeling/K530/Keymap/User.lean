import K530.Bluetooth.Task
import K530.Core.Action
import K530.Keymap.Tracker

/-!
# The Keymap's Hooks

`process_record_user` and `matrix_scan_user`, and the state they share.

Every key event comes through `processRecordUser` first. It wakes the keyboard,
drives the key's LED, feeds the recorder, and acts on the keymap's own keycodes,
which end there. Any other keycode is passed to the Bluetooth tracker, and goes
on to QMK unless Bluetooth is on and the keycode is a basic one: then the wire
is mute. A keycode above `0xFF` goes on to QMK whatever the toggle says, since
layers must work on both sides; the tracker ignores it.

Playback goes past all this. Its events are put on the wire directly, unless
Bluetooth is on, and into the tracker.

Time is a 32-bit millisecond clock, of which `timer_read` is the low half. The
answer of a hook to the module is the frames it loads, oldest first, collected
in `loads`.

## Main definitions

* `World`: The state of the main loop.
-/

namespace K530

/-- A key event: `keyrecord_t`, with the taps the tapping code has counted. -/
structure KeyRecord where
  key : KeyPos
  pressed : Bool
  tapCount : Nat
  deriving DecidableEq

/-- The state of the reactive lighting: `key_held` and `key_press_time`. -/
structure Reactive where
  keyHeld : Vector Bool 63
  keyPressTime : Vector (BitVec 16) 63
  deriving DecidableEq

structure Indicators where
  capslockHeld : Bool
  fn2Held : Bool
  fn2RecSelectHeld : Bool
  deriving DecidableEq

structure Unpair where
  pressTime : BitVec 16
  held : Bool
  fired : Bool
  feedbackTime : BitVec 32
  deriving DecidableEq

structure Idle where
  lastActivity : BitVec 32
  asleep : Bool
  rgbWasOn : Bool
  deriving DecidableEq

structure World where
  qmk : Qmk
  driver : Driver
  tracker : Tracker
  recorder : Recorder
  reactive : Reactive
  indicators : Indicators
  unpair : Unpair
  idle : Idle
  /-- `rgb_matrix_config.enable` -/
  rgbEnabled : Bool
  /-- the frames loaded so far, oldest first -/
  loads : List TxFrame
  deriving DecidableEq

namespace World

def init (config : KeymapConfig) (nkro rgbEnabled : Bool) : World :=
  { qmk := { usb := Usb.init nkro, layers := Layers.init, config },
    driver := Driver.reset, tracker := Tracker.empty, recorder := Recorder.init,
    reactive :=
      { keyHeld := Vector.replicate 63 false, keyPressTime := Vector.replicate 63 0 },
    indicators := { capslockHeld := false, fn2Held := false, fn2RecSelectHeld := false },
    unpair := { pressTime := 0, held := false, fired := false, feedbackTime := 0 },
    idle := { lastActivity := 0, asleep := false, rgbWasOn := true },
    rgbEnabled, loads := [] }

def timerRead (now : BitVec 32) : BitVec 16 := now.setWidth 16

def btEnabled (w : World) : Bool := w.driver.isEnabled

/-! ### The tracker -/

def btSyncAndSend (w : World) : World :=
  if !w.btEnabled then w
  else { w with loads := w.loads ++ w.driver.bluetoothSendKeyboard w.tracker.report }

def btTrackBasicKeycode (keycode : Keycode) (pressed : Bool) (w : World) : World :=
  if keycode > 0xFF then w
  else btSyncAndSend { w with tracker := w.tracker.track keycode pressed }

/-! ### Sleep -/

/-- `k530_note_activity`. -/
def noteActivity (now : BitVec 32) (w : World) : World :=
  { w with idle := { w.idle with lastActivity := now } }

/-- `K530_IDLE_SLEEP_MS` -/
def idleSleepMs : Nat := 1200000

/-- `k530_sleep_enter`. -/
def sleepEnter (w : World) : World :=
  if w.idle.asleep then w
  else { w with idle := { w.idle with rgbWasOn := w.rgbEnabled, asleep := true },
                rgbEnabled := false }

/-- `k530_sleep_exit`. -/
def sleepExit (now : BitVec 32) (w : World) : World :=
  if !w.idle.asleep then w
  else
    noteActivity now
      { w with
        idle := { w.idle with asleep := false },
        rgbEnabled := if w.idle.rgbWasOn then true else w.rgbEnabled }

/-- `k530_idle_task`. A key found down by the scanner's burst wakes the
    keyboard. -/
def idleTask (now : BitVec 32) (anyKeyDown : Bool) (w : World) : World :=
  if w.driver.charge.stable then
    noteActivity now (if w.idle.asleep then sleepExit now w else w)
  else if !w.idle.asleep then
    if (now - w.idle.lastActivity).toNat ≥ idleSleepMs then sleepEnter w else w
  else if anyKeyDown then sleepExit now w
  else w

/-! ### Key events -/

/-- The LED of the key: lit while held, and fading from the release on. -/
def reactToKey (now : BitVec 32) (record : KeyRecord) (w : World) : World :=
  match Keymap.reactiveLed record.key with
  | none => w
  | some led =>
    { w with
      reactive :=
        { keyHeld := w.reactive.keyHeld.set led record.pressed,
          keyPressTime :=
            w.reactive.keyPressTime.set led (if record.pressed then 0 else timerRead now) } }

def watchHeld (keycode : Keycode) (pressed : Bool) (w : World) : World :=
  { w with
    indicators :=
      { w.indicators with
        capslockHeld := if keycode = Keymap.fnCapsTap then pressed else w.indicators.capslockHeld,
        fn2Held := if keycode = Keymap.fn2Tap then pressed else w.indicators.fn2Held } }

def beforeSwitch (now : BitVec 32) (keycode : Keycode) (record : KeyRecord) (w : World) : World :=
  let w := noteActivity now w
  let w := if w.idle.asleep then sleepExit now w else w
  let w := watchHeld keycode record.pressed (reactToKey now record w)
  { w with recorder := w.recorder.capture { keycode, pressed := record.pressed } }

/-- The layer `FN2_REC` holds, number 4. -/
def fn2RecLayerNumber : Nat := 4

/-- `FN2_REC`. -/
def handleFn2Rec (pressed : Bool) (w : World) : World :=
  if pressed then
    { w with
      recorder := w.recorder.fn2RecPress,
      indicators := { w.indicators with fn2RecSelectHeld := true },
      qmk := w.qmk.layerOn fn2RecLayerNumber }
  else
    { w with
      indicators := { w.indicators with fn2RecSelectHeld := false },
      qmk := w.qmk.layerOff fn2RecLayerNumber,
      recorder := w.recorder.fn2RecRelease }

/-- `BT_UNPAIR`: the time of the press. -/
def handleBtUnpair (now : BitVec 32) (pressed : Bool) (w : World) : World :=
  if pressed then
    { w with
      unpair := { w.unpair with held := true, fired := false, pressTime := timerRead now } }
  else { w with unpair := { w.unpair with held := false } }

/-- One event of a macro: on the wire, unless Bluetooth is on, and into the
    tracker. -/
def playEvent (w : World) (e : MacroEvent) : World :=
  let w :=
    if !w.btEnabled then
      { w with
        qmk := w.qmk.onUsb
          (if e.pressed then Usb.registerCode16 e.keycode else Usb.unregisterCode16 e.keycode) }
    else w
  btTrackBasicKeycode e.keycode e.pressed w

def playMacro (slot : Fin 6) (w : World) : World :=
  (w.recorder.stored slot).foldl playEvent w

/-- `process_record_user`. The answer is whether QMK goes on with the event. -/
def processRecordUser (now : BitVec 32) (keycode : Keycode) (record : KeyRecord) (w : World) :
    World × Bool :=
  let w := beforeSwitch now keycode record w
  if keycode = Keymap.fn2Rec then (handleFn2Rec record.pressed w, false)
  else
    match Keymap.recSlot? keycode with
    | some slot =>
      (if record.pressed then { w with recorder := w.recorder.recToggle slot } else w, false)
    | none =>
      if keycode = Keymap.btUnpair then (handleBtUnpair now record.pressed w, false)
      else
        match Keymap.playSlot? keycode with
        | some slot => (if record.pressed then playMacro slot w else w, false)
        | none =>
          let w := btTrackBasicKeycode keycode record.pressed w
          (w, !(w.btEnabled && decide (keycode ≤ 0xFF)))

/-! ### The main loop -/

def keyboardPostInitUser (r : Readings) (w : World) : World :=
  let started := Driver.bluetoothInit r w.driver
  { w with driver := started.1, loads := w.loads ++ started.2 }

def powerOn (config : KeymapConfig) (nkro rgbEnabled : Bool) (r : Readings) : World :=
  keyboardPostInitUser r (World.init config nkro rgbEnabled)

def btUnpairHoldMs : Nat := 3000

/-- The bond reset at the end of `matrix_scan_user`, once for each time the key
    is held. -/
def unpairTask (now : BitVec 32) (w : World) : World :=
  if w.unpair.held && !w.unpair.fired &&
      decide ((timerRead now - w.unpair.pressTime).toNat ≥ btUnpairHoldMs) then
    { w with
      unpair := { w.unpair with fired := true, feedbackTime := now },
      loads := w.loads ++ w.driver.sendBtUnpair }
  else w

/-- `bluetooth_task` from the main loop. -/
def bluetoothTask (r : Readings) (link : Byte) (w : World) : World :=
  let turn := Driver.bluetoothTask r link w.driver
  { w with driver := turn.1, loads := w.loads ++ turn.2 }

def matrixScanUser (now : BitVec 32) (r : Readings) (link : Byte) (anyKeyDown : Bool)
    (w : World) : World :=
  unpairTask now (idleTask now anyKeyDown (bluetoothTask r link w))

end World

end K530
