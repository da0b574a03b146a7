import K530.Bluetooth.Frame

/-!
# The Inputs and the Main-Loop Driver

Three physical inputs are polled from the main loop, each through a debouncer
of its own: the Bluetooth toggle, the host selector and the charging pin.

The toggle and the charging pin count readings the same way, two counters of
which a reading advances one and clears the other. They differ in when they
commit. The charging pin commits on the tenth equal reading. The toggle counts
to seventeen first and commits on the reading after.

The selector is another matter. It must rest in one position for a hundred and
fifty readings, and any reading elsewhere starts the count over, so that
sweeping from 1 to 3 never commits 2. Its first commit, out of the unknown
state of power-on, is not reported as a change: the module keeps the host it
remembers until the selector is moved.

The counters are eight-bit and are never advanced past their thresholds; they
are natural numbers here.

## Main definitions

* `Toggle`, `pollBtToggle`: The Bluetooth toggle.
-/

namespace K530

/-! ### The Bluetooth toggle -/

structure Toggle where
  /-- `k530_bt_toggle_debounce_hi` -/
  hi : Nat
  /-- `k530_bt_toggle_debounce_lo` -/
  lo : Nat
  /-- `k530_bt_enabled_stable` -/
  enabled : Bool
  /-- `k530_bt_enabled_prev` -/
  prev : Bool
  deriving DecidableEq

namespace Toggle

/-- `K530_BT_DEBOUNCE_THRESHOLD` -/
def threshold : Nat := 16

def reset : Toggle :=
  { hi := 0, lo := 0, enabled := false, prev := false }

end Toggle

/-- `k530_poll_bt_toggle`: a high line is the switch open and Bluetooth off.
    The answer is whether the debounced state changed. -/
def pollBtToggle (pinLevel : Bool) (t : Toggle) : Toggle × Bool :=
  let polled : Toggle :=
    if pinLevel then
      if t.hi > Toggle.threshold then { t with lo := 0, enabled := false }
      else { t with lo := 0, hi := t.hi + 1 }
    else
      if t.lo > Toggle.threshold then { t with hi := 0, enabled := true }
      else { t with hi := 0, lo := t.lo + 1 }
  ({ polled with prev := polled.enabled }, polled.enabled != polled.prev)

/-! ### The host selector -/

structure Selector where
  /-- `k530_host_slot_stable` -/
  stable : HostSlot
  /-- `k530_host_slot_candidate` -/
  candidate : HostSlot
  /-- `k530_host_slot_debounce_counter` -/
  counter : Nat
  deriving DecidableEq

namespace Selector

/-- `K530_HOST_SLOT_SETTLE_POLLS` -/
def settlePolls : Nat := 150

def reset : Selector :=
  { stable := .unknown, candidate := .unknown, counter := 0 }

/-- The position the two readings of the sense line give, with the drive line
    high and then low. The fourth combination is impossible and reads as no
    change. -/
def detect (resultHi resultLo : Bool) (stable : HostSlot) : HostSlot :=
  match resultHi, resultLo with
  | true, true => .slot1
  | false, false => .slot3
  | true, false => .slot2
  | false, true => stable

end Selector

/-- `k530_poll_host_slot`, from the position detected on. -/
def settleHostSlot (detected : HostSlot) (s : Selector) : Selector × Bool :=
  if detected ≠ s.candidate then ({ s with candidate := detected, counter := 0 }, false)
  else if detected ≠ s.stable then
    if s.counter < Selector.settlePolls then ({ s with counter := s.counter + 1 }, false)
    else
      -- the first commit is adopted without a host switch
      ({ s with stable := detected, counter := 0 }, s.stable ≠ .unknown)
  else ({ s with counter := 0 }, false)

/-- `k530_poll_host_slot`. The answer is whether a slot took the place of
    another. -/
def pollHostSlot (resultHi resultLo : Bool) (s : Selector) : Selector × Bool :=
  settleHostSlot (Selector.detect resultHi resultLo s.stable) s

/-! ### The charging pin -/

structure Charge where
  /-- `k530_charge_cnt_on` -/
  cntOn : Nat
  /-- `k530_charge_cnt_off` -/
  cntOff : Nat
  /-- `k530_charge_stable` -/
  stable : Bool
  deriving DecidableEq

namespace Charge

/-- `K530_CHARGE_DEBOUNCE` -/
def debounce : Nat := 10

def reset : Charge :=
  { cntOn := 0, cntOff := 0, stable := false }

end Charge

/-- `k530_poll_charge`. -/
def pollCharge (pinRaw : Bool) (c : Charge) : Charge :=
  if pinRaw then
    if c.cntOn < Charge.debounce then
      { cntOff := 0, cntOn := c.cntOn + 1,
        stable := if c.cntOn + 1 ≥ Charge.debounce then true else c.stable }
    else { c with cntOff := 0 }
  else
    if c.cntOff < Charge.debounce then
      { cntOn := 0, cntOff := c.cntOff + 1,
        stable := if c.cntOff + 1 ≥ Charge.debounce then false else c.stable }
    else { c with cntOn := 0 }

/-!
### The Main-Loop Driver

What the main loop does for Bluetooth: poll the inputs, react to their edges,
keep the module in the state the toggle asks for, and send keyboard reports.

Everything the driver says to the module it says by loading the transmit
buffer, so each function answers with the frames it loads, oldest first. The
strobe that asks the module to come and fetch a frame, the waits around it and
the pin functions have no state and are left out, and so is the second setting
up of the SPI block when the toggle moves.

The state of the link is read out of the last status frame, which the interrupt
owns. `bluetoothTask` takes it as an argument: the interrupt can run anywhere in
between, so whoever composes the two says what is read.
-/

structure Readings where
  /-- the charging pin, P1.14 -/
  charging : Bool
  /-- the toggle line, P1.13 -/
  toggle : Bool
  /-- the sense line with the drive line high -/
  slotHi : Bool
  /-- the sense line with the drive line low -/
  slotLo : Bool
  deriving DecidableEq

structure Driver where
  charge : Charge
  toggle : Toggle
  selector : Selector
  /-- `k530_spi0_slave_ready` -/
  slaveReady : Bool
  /-- `k530_off_stop_ctr`, a static of the task -/
  offStopCtr : Nat
  /-- `k530_on_adv_ctr`, a static of the task -/
  onAdvCtr : Nat
  deriving DecidableEq

namespace Driver

def reset : Driver :=
  { charge := Charge.reset, toggle := Toggle.reset, selector := Selector.reset,
    slaveReady := false, offStopCtr := 0, onAdvCtr := 0 }

/-- `K530_BT_OFF_STOP_PERIOD` -/
def offStopPeriod : Nat := 200

/-- `k530_bluetooth_is_enabled`. -/
def isEnabled (d : Driver) : Bool := d.toggle.enabled

/-- `k530_send_bt_control`: the frame it loads. -/
def sendBtControl (enabled : Bool) (d : Driver) : TxFrame :=
  Frame.buildControlFrame d.charge.stable enabled

/-- `k530_send_bt_host_switch`: the frame it loads. -/
def sendBtHostSwitch (d : Driver) : TxFrame :=
  Frame.buildHostSwitchFrame d.charge.stable d.selector.stable

/-- `k530_send_bt_unpair`: a bond reset, if Bluetooth is on and the bus is up. -/
def sendBtUnpair (d : Driver) : List TxFrame :=
  if !d.isEnabled || !d.slaveReady then []
  else [Frame.buildUnpairFrame d.charge.stable d.selector.stable]

def bluetoothSendKeyboard (report : Report) (d : Driver) : List TxFrame :=
  if !d.isEnabled then []
  else if !d.slaveReady then []
  else [Frame.buildKeyboardFrame d.charge.stable report]

def bluetoothInit (r : Readings) (d : Driver) : Driver × List TxFrame :=
  let d := { d with
    toggle := (pollBtToggle r.toggle d.toggle).1,
    selector := (pollHostSlot r.slotHi r.slotLo d.selector).1,
    slaveReady := true }
  (d, if !d.isEnabled then [d.sendBtControl false] else [])

/-- The reaction to the toggle or the selector having moved. A host switch that
    comes with the toggle goes out before the module is told to advertise. -/
def reactEdges (btChanged hostChanged : Bool) (d : Driver) : Driver × List TxFrame :=
  if btChanged then
    if d.isEnabled then
      ({ d with slaveReady := true }, [d.sendBtHostSwitch, d.sendBtControl true])
    else ({ d with slaveReady := true }, [d.sendBtControl false])
  else if hostChanged && d.isEnabled then (d, [d.sendBtHostSwitch])
  else (d, [])

/-- Hold the link in the state the toggle asks for: while the module reports
    otherwise, say so again every two hundredth turn. -/
def holdLink (link : Byte) (d : Driver) : Driver × List TxFrame :=
  if !d.isEnabled then
    if link ≠ 0x00 then
      if d.offStopCtr + 1 ≥ offStopPeriod then
        ({ d with offStopCtr := 0 }, [d.sendBtControl false])
      else ({ d with offStopCtr := d.offStopCtr + 1 }, [])
    else ({ d with offStopCtr := 0 }, [])
  else
    if link = 0x00 then
      if d.onAdvCtr + 1 ≥ offStopPeriod then
        ({ d with onAdvCtr := 0 }, [d.sendBtControl true])
      else ({ d with onAdvCtr := d.onAdvCtr + 1 }, [])
    else ({ d with onAdvCtr := 0 }, [])

def pollInputs (r : Readings) (d : Driver) : Driver :=
  { d with
    charge := pollCharge r.charging d.charge,
    toggle := (pollBtToggle r.toggle d.toggle).1,
    selector := (pollHostSlot r.slotHi r.slotLo d.selector).1 }

def bluetoothTask (r : Readings) (link : Byte) (d : Driver) : Driver × List TxFrame :=
  let btChanged := (pollBtToggle r.toggle d.toggle).2
  let hostChanged := (pollHostSlot r.slotHi r.slotLo d.selector).2
  let reacted := reactEdges btChanged hostChanged (pollInputs r d)
  let held := holdLink link reacted.1
  (held.1, reacted.2 ++ held.2)

end Driver

end K530
