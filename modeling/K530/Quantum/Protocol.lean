import K530.Core.Usb
import Mathlib.Data.Finset.Insert

/-!
# The Report Format

Which of its two formats the keyboard report is in is decided by two switches,
`keyboard_protocol` and `keymap_config.nkro`, and both have to be on for the
bitmap. They are changed from three places. The host sets both at once with
`SET_PROTOCOL`. An NKRO keycode first reads the second back from the EEPROM,
clears the keyboard, changes it, writes it out, and clears the keyboard again.
Nothing else looks at the report when the format changes: the bytes stay what
they are.

`SET_PROTOCOL` is answered in an interrupt and may come between any two calls of
the main loop. A key event is therefore not one step here but a list of calls,
each of which looks at the format once, and an input is an event, a request or
the next call. An event that comes while calls are left waits for them.

## Main definitions

* `NkroKeycode`: `NK_ON`, `NK_OFF` and `NK_TOGG`.
-/

namespace K530

/-- `MAGIC_HOST_NKRO`, `MAGIC_UNHOST_NKRO` and `MAGIC_TOGGLE_NKRO`. -/
inductive NkroKeycode where
  | hostNkro
  | unhostNkro
  | toggleNkro
  deriving DecidableEq

/-- What becomes of `keymap_config.nkro`. -/
def NkroKeycode.change (m : NkroKeycode) (nkro : Bool) : Bool :=
  match m with
  | hostNkro => true
  | unhostNkro => false
  | toggleNkro => !nkro

/-- A call of the main loop, or the part of one that looks at the format once.
    The last five are those of `process_magic`, in this order. -/
inductive Call where
  | checkKey (code : Byte)
  | addKey (code : Byte)
  | delKey (code : Byte)
  | send
  | register (code : Byte)
  | unregister (code : Byte)
  | reload (m : NkroKeycode)
  | clearBefore (m : NkroKeycode)
  | change (m : NkroKeycode)
  | save
  | clearAfter
  deriving DecidableEq

/-- `register_code`. A keycode that is not a key has no place among the keys, and
    its format does not matter. -/
def pressCalls (code : Byte) : List Call :=
  if isKey code then [.checkKey code, .addKey code, .send] else [.register code]

/-- `unregister_code`. -/
def releaseCalls (code : Byte) : List Call :=
  if isKey code then [.delKey code, .send] else [.unregister code]

structure Switching where
  /-- its `nkro` is the format in force -/
  usb : Usb
  keyboardProtocol : Bool
  /-- `keymap_config.nkro` -/
  configNkro : Bool
  /-- the same, in the EEPROM -/
  savedNkro : Bool
  /-- the calls the main loop has still to make -/
  calls : List Call
  /-- the keys that have been pressed and not released. Nothing reads these. -/
  held : Finset Byte
  deriving DecidableEq

/-- A press or a release of a basic keycode, a press of an NKRO keycode,
    `HID_SET_PROTOCOL` with the low byte of its `wValue`, or the next call. -/
inductive SwitchInput where
  | press (code : Byte)
  | release (code : Byte)
  | nkro (m : NkroKeycode)
  | setProtocol (value : Byte)
  | call
  deriving DecidableEq

namespace Switching

def start (keyboardProtocol configNkro savedNkro : Bool) : Switching :=
  { usb := Usb.init (keyboardProtocol && configNkro), keyboardProtocol, configNkro, savedNkro,
    calls := [], held := ∅ }

def setSwitches (keyboardProtocol configNkro : Bool) (s : Switching) : Switching :=
  { s with
    usb := { s.usb with nkro := keyboardProtocol && configNkro }, keyboardProtocol, configNkro }

def onUsb (f : Usb → Usb) (s : Switching) : Switching :=
  { s with usb := f s.usb }

def first (calls : List Call) (s : Switching) : Switching :=
  { s with calls := calls ++ s.calls }

def last (calls : List Call) (s : Switching) : Switching :=
  { s with calls := s.calls ++ calls }

def perform (s : Switching) : Call → Switching
  -- a key that is already pressed is let go first
  | .checkKey code =>
    if s.usb.report.isKeyPressed s.usb.nkro code then s.first [.delKey code, .send] else s
  | .addKey code => s.onUsb (Usb.addKey code)
  | .delKey code => s.onUsb (Usb.delKey code)
  | .send => s.onUsb Usb.sendKeyboardReport
  | .register code => s.onUsb (Usb.registerCode code)
  | .unregister code => s.onUsb (Usb.unregisterCode code)
  | .reload m => (s.setSwitches s.keyboardProtocol s.savedNkro).first [.clearBefore m]
  | .clearBefore m => (s.onUsb Usb.clearKeyboard).first [.change m]
  | .change m => (s.setSwitches s.keyboardProtocol (m.change s.configNkro)).first [.save]
  | .save => { s with savedNkro := s.configNkro }.first [.clearAfter]
  | .clearAfter => s.onUsb Usb.clearKeyboard

def call (s : Switching) : Switching :=
  match s.calls with
  | [] => s
  | c :: rest => { s with calls := rest }.perform c

/-- `usb_request_hook_cb`, `HID_SET_PROTOCOL`: both switches are what the value
    is. -/
def setProtocol (value : Byte) (s : Switching) : Switching :=
  s.setSwitches (value != 0) (value != 0)

def step (s : Switching) : SwitchInput → Switching
  | .press code =>
    { s.last (pressCalls code) with held := if isKey code then insert code s.held else s.held }
  | .release code =>
    { s.last (releaseCalls code) with held := if isKey code then s.held.erase code else s.held }
  | .nkro m => s.last [.reload m]
  | .setProtocol value => s.setProtocol value
  | .call => s.call

end Switching

end K530
