import K530.Quantum.ActionCode

/-!
# Auto Shift

`process_auto_shift.c`, with Retro Shift off: a key held longer than a timeout
types its shifted value.

A press of an auto-shifted key is only noted. The key is registered when the
timeout runs out, when it is released, or when another key is pressed, with or
without a weak left shift; any real shift that is held is taken away before that and
given back after. With key repeat the key stays registered until it is released, and
the shift stays away so long.

The per-key functions are functions of the keycode. The hooks that press and release a
key are the default ones, and so is the one that adds auto-shifted keys as long as it
adds plain ones. The default hooks have no use for the shift states that are kept
for each key and for the last record; these are left out, as are one-shot layers,
the timeout report, and `holding_shift`, which nothing reads.

A modifier-tap or layer-tap key comes with whether it has been decided to be held. Keys
that do what `keyAction` has no value for do not occur.

## Main definitions

* `KeyAction`, `keyAction`: What a key does besides.
-/

namespace K530

/-! ### Keys -/

def isLt (keycode : Keycode) : Bool := 0x4000 ≤ keycode && keycode ≤ 0x4FFF

def isMt (keycode : Keycode) : Bool := 0x6000 ≤ keycode && keycode ≤ 0x7FFF

def isRetro (keycode : Keycode) : Bool := isMt keycode || isLt keycode

/-- What a key does: one of the actions there are already, or modifiers and a key to
    tap. -/
inductive KeyAction where
  | plain (a : Action)
  | modsTap (mods : Byte) (code : Byte)
  deriving DecidableEq

/-- `action_for_keycode`, with `ACTION_MODS_TAP_KEY` for the modifier-taps. The codes 0
    and 1 of these are not keys. -/
def keyAction (c : KeymapConfig) (keycode : Keycode) : Option KeyAction :=
  if isMt keycode then
    let mods := modConfig c (((keycode >>> 8) &&& 0x1F).setWidth 8)
    if 1 < lowByte keycode then
      some (.modsTap (if mods.getLsbD 4 then (mods &&& 0x0F) <<< 4 else mods &&& 0x0F)
        (lowByte keycode))
    else none
  else (actionForKeycode c keycode).map .plain

/-- `process_action`, for a key that is held or tapped. -/
def KeyAction.process (pressed hold : Bool) (q : Qmk) : KeyAction → Qmk
  | plain a => q.processAction pressed (if hold then 0 else 1) a
  | modsTap mods code =>
    if hold then
      q.onUsb (if pressed then Usb.registerMods mods else Usb.unregisterMods mods)
    else q.onUsb (if pressed then Usb.registerCode code else Usb.unregisterCode code)

/-! ### Auto Shift -/

structure AutoShiftConfig where
  /-- the keys of `get_auto_shifted_key` -/
  alpha : Bool
  numeric : Bool
  special : Bool
  /-- `get_custom_auto_shifted_key` -/
  custom : Keycode → Bool
  customPlain : ∀ keycode, custom keycode = true → keycode ≤ 0xFF ∧ isKey (lowByte keycode) = true
  /-- `AUTO_SHIFT_MODIFIERS` -/
  modifiers : Bool
  /-- `AUTO_SHIFT_REPEAT`, or `get_auto_shift_repeat` -/
  keyrepeat : Keycode → Bool
  /-- `AUTO_SHIFT_NO_AUTO_REPEAT`, or `get_auto_shift_no_auto_repeat` -/
  noAutoRepeat : Keycode → Bool
  /-- `get_autoshift_timeout` -/
  timeoutPerKey : Option (Keycode → BitVec 16)
  /-- `get_tapping_term` -/
  tappingTerm : Keycode → BitVec 16
  /-- `IGNORE_MOD_TAP_INTERRUPT`, or `get_ignore_mod_tap_interrupt` -/
  ignoreModTapInterrupt : Keycode → Bool

def AutoShiftConfig.getAutoShiftedKey (cfg : AutoShiftConfig) (keycode : Keycode) : Bool :=
  cfg.alpha && (kcA ≤ keycode && keycode ≤ kcZ) ||
    cfg.numeric && (kc1 ≤ keycode && keycode ≤ kc0) ||
    cfg.special &&
      (decide (keycode = kcTab) || (kcMinus ≤ keycode && keycode ≤ kcSlash) ||
        decide (keycode = 0x64)) ||
    cfg.custom keycode

structure AutoShift where
  qmk : Qmk
  /-- `autoshift_time` -/
  time : BitVec 16
  /-- `autoshift_timeout` -/
  timeout : BitVec 16
  /-- `autoshift_lastkey` -/
  lastkey : Keycode
  enabled : Bool
  lastshifted : Bool
  inProgress : Bool
  cancellingLshift : Bool
  cancellingRshift : Bool
  deriving DecidableEq

namespace AutoShift

def kcAsup : Keycode := 0x5C17
def kcAsdn : Keycode := 0x5C18
def kcAstg : Keycode := 0x5C1A
def kcAson : Keycode := 0x5C1B
def kcAsoff : Keycode := 0x5C1C

/-- `MOD_BIT(KC_LSFT)` -/
def lshift : Byte := 0x02

/-- `MOD_BIT(KC_RSFT)` -/
def rshift : Byte := 0x20

def onUsb (f : Usb → Usb) (s : AutoShift) : AutoShift := { s with qmk := s.qmk.onUsb f }

def getMods (s : AutoShift) : Byte := s.qmk.usb.realMods

def getOneshotMods (s : AutoShift) : Byte := s.qmk.usb.oneshotMods

/-- `set_oneshot_mods` with the left shift taken out. -/
def spendOneshotShift (s : AutoShift) : AutoShift :=
  s.onUsb (fun u => { u with oneshotMods := u.oneshotMods &&& ~~~lshift })

def tapKeycode (keycode : Keycode) : Keycode :=
  if isRetro keycode then keycode &&& 0xFF else keycode

def pressUser (keycode : Keycode) (shifted : Bool) (s : AutoShift) : AutoShift :=
  let s := if shifted then s.onUsb (Usb.addWeakMods lshift) else s
  s.onUsb (Usb.registerCode16 (tapKeycode keycode))

def releaseUser (keycode : Keycode) (s : AutoShift) : AutoShift :=
  s.onUsb (Usb.unregisterCode16 (tapKeycode keycode))

def flushShift (s : AutoShift) : AutoShift :=
  let s := s.onUsb (Usb.delWeakMods lshift)
  let s :=
    if s.cancellingLshift then
      { s.onUsb (Usb.addMods lshift) with cancellingLshift := false }
    else s
  let s :=
    if s.cancellingRshift then
      { s.onUsb (Usb.addMods rshift) with cancellingRshift := false }
    else s
  s.onUsb Usb.sendKeyboardReport

def cancelShift (s : AutoShift) : AutoShift :=
  let s :=
    if s.getMods &&& lshift ≠ 0 then
      { s.onUsb (Usb.delMods lshift) with cancellingLshift := true }
    else s
  if s.getMods &&& rshift ≠ 0 then
    { s.onUsb (Usb.delMods rshift) with cancellingRshift := true }
  else s

variable (cfg : AutoShiftConfig)

def timeoutOf (s : AutoShift) (keycode : Keycode) : BitVec 16 :=
  match cfg.timeoutPerKey with
  | some get => get keycode
  | none => s.timeout

def otherMods (s : AutoShift) : Bool :=
  decide ((s.getMods ||| s.getOneshotMods) &&& ~~~lshift ≠ 0)

def repeats (keycode : Keycode) (now : BitVec 16) (s : AutoShift) : Bool :=
  decide (keycode = s.lastkey) && cfg.keyrepeat s.lastkey &&
    (!s.lastshifted || cfg.noAutoRepeat s.lastkey) &&
    decide (now - s.time < cfg.tappingTerm s.lastkey)

/-- What `autoshift_press` does about a key that is not used with a modifier. -/
def noteKey (keycode : Keycode) (now : BitVec 16) (s : AutoShift) : AutoShift :=
  if repeats cfg keycode now s then
    let s := s.cancelShift
    s.pressUser s.lastkey s.lastshifted
  else
    { s.spendOneshotShift with
      lastshifted := decide ((s.getMods ||| s.getOneshotMods) &&& lshift ≠ 0)
      lastkey := keycode
      time := now
      inProgress := true }

def autoshiftPress (keycode : Keycode) (now : BitVec 16) (s : AutoShift) : AutoShift :=
  if s.otherMods then
    let s := { s with lastkey := kcNo }
    if cfg.modifiers then s.noteKey cfg keycode now
    else (s.pressUser keycode false).spendOneshotShift
  else s.noteKey cfg keycode now

def autoshiftEnd (keycode : Keycode) (now : BitVec 16) (matrixTrigger : Bool) (s : AutoShift) :
    AutoShift :=
  if s.inProgress && (decide (keycode = s.lastkey) || decide (keycode = kcNo)) then
    let s :=
      { s with
        inProgress := false
        lastshifted :=
          s.lastshifted || decide (s.timeoutOf cfg s.lastkey ≤ now - s.time) }
    let s := s.cancelShift
    let s := s.pressUser s.lastkey s.lastshifted
    if matrixTrigger && cfg.keyrepeat s.lastkey && !cfg.noAutoRepeat s.lastkey then s
    else { (s.releaseUser s.lastkey).flushShift with time := now }
  else
    let s := s.releaseUser keycode
    { (if keycode = s.lastkey then s.flushShift else s) with time := now }

def matrixScan (now : BitVec 16) (s : AutoShift) : AutoShift :=
  if s.inProgress && decide (s.timeoutOf cfg s.lastkey ≤ now - s.time) then
    s.autoshiftEnd cfg s.lastkey now true
  else s

def toggle (s : AutoShift) : AutoShift := { s with enabled := !s.enabled }.flushShift

def enable (s : AutoShift) : AutoShift := { s with enabled := true }

def disable (s : AutoShift) : AutoShift := { s with enabled := false }.flushShift

def processOwn (keycode : Keycode) (s : AutoShift) : AutoShift :=
  if keycode = kcAstg then s.toggle
  else if keycode = kcAson then s.enable
  else if keycode = kcAsoff then s.disable
  else if keycode = kcAsup then { s with timeout := s.timeout + 5 }
  else if keycode = kcAsdn then { s with timeout := s.timeout - 5 }
  else s

/-- `process_auto_shift` of a press; whether it is processed further. -/
def processPress (keycode : Keycode) (now : BitVec 16) (s : AutoShift) : Bool × AutoShift :=
  let s := if s.inProgress then s.autoshiftEnd cfg kcNo now false else s
  let s := s.processOwn keycode
  if isRetro keycode then (true, { s with lastkey := kcNo })
  else if !s.enabled then (true, s)
  else if cfg.getAutoShiftedKey keycode then (false, s.autoshiftPress cfg keycode now)
  else (true, { s with lastkey := kcNo })

/-- `process_auto_shift` of a release. -/
def processRelease (keycode : Keycode) (now : BitVec 16) (s : AutoShift) : Bool × AutoShift :=
  let s :=
    if keycode = kcLeftShift then { s with cancellingLshift := false }
    else if keycode = kcRightShift then { s with cancellingRshift := false }
    else s
  if isRetro keycode then
    (true,
      if s.inProgress && !cfg.ignoreModTapInterrupt keycode then
        s.autoshiftEnd cfg kcNo now false
      else s)
  else if !s.enabled then (true, s)
  else if cfg.getAutoShiftedKey keycode then (false, s.autoshiftEnd cfg keycode now false)
  else (true, s)

def processAutoShift (pressed : Bool) (keycode : Keycode) (now : BitVec 16) (s : AutoShift) :
    Bool × AutoShift :=
  if pressed then s.processPress cfg keycode now else s.processRelease cfg keycode now

/-- `process_record` of a key that is held or tapped, with what it does besides. -/
def processRecord (pressed hold : Bool) (keycode : Keycode) (action : KeyAction)
    (now : BitVec 16) (s : AutoShift) : AutoShift :=
  let processed := s.processAutoShift cfg pressed keycode now
  if processed.1 then
    { processed.2 with qmk := action.process pressed hold processed.2.qmk }
  else processed.2

end AutoShift

end K530
