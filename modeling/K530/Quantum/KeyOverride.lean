import K530.Core.Usb

/-!
# Key Overrides

`process_key_override.c`: a key pressed together with modifiers is replaced by
another while both are down.

One override is active at a time. It takes its trigger out of the report and
puts its replacement there, and when a modifier ends it the trigger is put back.
When it is a modifier that brings either about, the key is left in
`deferred_register`, and `key_override_task` registers it later. The modifiers the
report shows are changed last of all, by two registers that only this file writes.

The overrides are an array of pointers that ends with a null pointer. A pointer
is a value of any type, `deref` says what it points to, and the array is a list
of them. Custom actions are left out: an override here has none.

What becomes of a key that is not held back is the rest of the firmware. It ends
in a code and modifiers that are registered when the key goes down and
unregistered when it goes up.

## Main definitions

* `KeyOverride`: An override.
-/

namespace K530

/-! ### Overrides -/

/-- `key_override_t`, without the custom action and its context. -/
structure KeyOverride where
  trigger : Keycode
  triggerMods : Byte
  /-- a bit for each layer -/
  layers : BitVec 32
  negativeModMask : Byte
  suppressedMods : Byte
  replacement : Keycode
  options : Byte
  /-- the variable it points to, if it points to one -/
  enabled : Option Nat
  deriving DecidableEq

/-- `IS_KEY` of a sixteen-bit keycode. -/
def isKeyCode (keycode : Keycode) : Bool := 0x04 ≤ keycode && keycode ≤ 0xA4

/-- `IS_MOD` of a sixteen-bit keycode. -/
def isModCode (keycode : Keycode) : Bool := 0xE0 ≤ keycode && keycode ≤ 0xE7

def safeRange : Keycode := 0x5DA6

def keyOverrideToggle : Keycode := 0x5D5F

def keyOverrideOn : Keycode := 0x5D60

def keyOverrideOff : Keycode := 0x5D61

def clearModsFrom (keycode : Keycode) : Keycode :=
  if 0x0100 ≤ keycode ∧ keycode ≤ 0x1FFF then keycode &&& ~~~0x1F00 else keycode

namespace KeyOverride

/-- `ko_option_activation_trigger_down` -/
def activationTriggerDown : Byte := 0x01

/-- `ko_option_activation_required_mod_down` -/
def activationRequiredModDown : Byte := 0x02

/-- `ko_option_activation_negative_mod_up` -/
def activationNegativeModUp : Byte := 0x04

/-- `ko_options_all_activations` -/
def allActivations : Byte := 0x07

/-- `ko_option_one_mod` -/
def oneMod : Byte := 0x08

/-- `ko_option_no_reregister_trigger` -/
def noReregisterTrigger : Byte := 0x10

/-- `ko_option_no_unregister_on_other_key_down` -/
def noUnregisterOnOtherKeyDown : Byte := 0x20

def oneSided (mods : Byte) : Byte := (mods &&& 0x0F) ||| (mods >>> 4)

def matchesActiveModifiers (o : KeyOverride) (mods : Byte) : Bool :=
  if o.negativeModMask &&& mods ≠ 0 then false
  else if o.triggerMods = 0 then true
  else if o.options &&& oneMod ≠ 0 then o.triggerMods &&& mods != 0
  else oneSided (o.triggerMods &&& mods) == oneSided o.triggerMods

def checkActivationEvent (o : KeyOverride) (keyDown isMod : Bool) : Bool :=
  let options := if o.options &&& allActivations = 0 then allActivations else o.options
  if isMod then
    if keyDown then options &&& activationRequiredModDown != 0
    else options &&& activationNegativeModUp != 0
  else keyDown && options &&& activationTriggerDown != 0

/-- `mod_free_replacement`, before it is put into eight bits. -/
def modFreeReplacement (o : KeyOverride) : Keycode := clearModsFrom o.replacement

/-- `register_replacement` -/
def registersReplacement (o : KeyOverride) : Bool :=
  o.modFreeReplacement != 0 && o.modFreeReplacement < safeRange

/-- `unregister_replacement`, which sees the low byte only. -/
def unregistersReplacement (o : KeyOverride) : Bool :=
  lowByte o.modFreeReplacement != 0 && (lowByte o.modFreeReplacement).setWidth 16 < safeRange

end KeyOverride

/-! ### The report -/

structure OverrideUsb where
  usb : Usb
  /-- `get_oneshot_locked_mods` -/
  oneshotLockedMods : Byte
  weakOverrideMods : Byte
  suppressedMods : Byte
  deriving DecidableEq

namespace OverrideUsb

def init (nkro : Bool) : OverrideUsb :=
  { usb := .init nkro, oneshotLockedMods := 0, weakOverrideMods := 0, suppressedMods := 0 }

/-- The modifiers `send_keyboard_report` puts into the report. -/
def shownMods (u : OverrideUsb) : Byte :=
  (u.usb.realMods ||| u.usb.weakMods ||| u.usb.macroMods ||| u.usb.oneshotMods)
    &&& ~~~u.suppressedMods ||| u.weakOverrideMods

/-- `send_keyboard_report`. One-shot modifiers are spent on a report that has a
    key in it. -/
def sendKeyboardReport (u : OverrideUsb) : OverrideUsb :=
  { u with
    usb := { u.usb with
      report := { u.usb.report with mods := u.shownMods },
      oneshotMods := if u.usb.report.hasAnykey u.usb.nkro ≠ 0 then 0 else u.usb.oneshotMods,
      sent := u.usb.sent ++ [.keyboard { u.usb.report with mods := u.shownMods }] } }

def onUsb (f : Usb → Usb) (u : OverrideUsb) : OverrideUsb :=
  { u with usb := f u.usb }

def registerCode (code : Byte) (u : OverrideUsb) : OverrideUsb :=
  if code = 0 then u
  else if isKey code then
    let u :=
      if u.usb.report.isKeyPressed u.usb.nkro code then
        (u.onUsb (Usb.delKey code)).sendKeyboardReport
      else u
    (u.onUsb (Usb.addKey code)).sendKeyboardReport
  else if isMod code then (u.onUsb (Usb.addMods (modBit code))).sendKeyboardReport
  else if isSystem code then u.onUsb (Usb.systemSend (keycode2System code))
  else if isConsumer code then u.onUsb (Usb.consumerSend (keycode2Consumer code))
  else u

def unregisterCode (code : Byte) (u : OverrideUsb) : OverrideUsb :=
  if code = 0 then u
  else if isKey code then (u.onUsb (Usb.delKey code)).sendKeyboardReport
  else if isMod code then (u.onUsb (Usb.delMods (modBit code))).sendKeyboardReport
  else if isSystem code then u.onUsb (Usb.systemSend 0)
  else if isConsumer code then u.onUsb (Usb.consumerSend 0)
  else u

def registerCode16 (code : Keycode) (u : OverrideUsb) : OverrideUsb :=
  let mods := Usb.extractModBits code
  let u :=
    if mods = 0 then u
    else if isModCode code || code == 0 then (u.onUsb (Usb.addMods mods)).sendKeyboardReport
    else (u.onUsb (Usb.addWeakMods mods)).sendKeyboardReport
  u.registerCode (lowByte code)

/-- What the rest of the firmware does with a key that has a code and modifiers,
    `ACT_LMODS` in `process_action`. A key held for its modifiers has no code. -/
def processMods (pressed : Bool) (mods code : Byte) (u : OverrideUsb) : OverrideUsb :=
  if pressed then
    let u :=
      if mods = 0 then u
      else if isMod code || code == 0 then (u.onUsb (Usb.addMods mods)).sendKeyboardReport
      else (u.onUsb (Usb.addWeakMods mods)).sendKeyboardReport
    u.registerCode code
  else
    let u := u.unregisterCode code
    if mods = 0 then u
    else if isMod code || code == 0 then (u.onUsb (Usb.delMods mods)).sendKeyboardReport
    else (u.onUsb (Usb.delWeakMods mods)).sendKeyboardReport

end OverrideUsb

/-! ### The static variables -/

universe v w

structure OverrideState (P : Type v) where
  enabled : Bool
  activeOverride : Option P
  activeOverrideTriggerIsDown : Bool
  lastKeyDown : Keycode
  lastKeyDownTime : BitVec 32
  deferReferenceTime : BitVec 32
  deferDelay : BitVec 32
  /-- 0 when nothing is deferred -/
  deferredRegister : Keycode
  usb : OverrideUsb
  deriving DecidableEq

namespace OverrideState

variable {P : Type v}

def init (P : Type v) (nkro : Bool) : OverrideState P :=
  { enabled := true, activeOverride := none, activeOverrideTriggerIsDown := false,
    lastKeyDown := 0, lastKeyDownTime := 0, deferReferenceTime := 0, deferDelay := 0,
    deferredRegister := 0, usb := .init nkro }

def onUsb (f : OverrideUsb → OverrideUsb) (s : OverrideState P) : OverrideState P :=
  { s with usb := f s.usb }

/-- `schedule_deferred_register`, with `KEY_OVERRIDE_REPEAT_DELAY` as it comes. -/
def scheduleDeferredRegister (now : BitVec 32) (keycode : Keycode) (s : OverrideState P) :
    OverrideState P :=
  if now - s.lastKeyDownTime < 500 then
    { s with
      deferReferenceTime := s.lastKeyDownTime, deferDelay := 500, deferredRegister := keycode }
  else { s with deferReferenceTime := now, deferDelay := 50, deferredRegister := keycode }

def keyOverrideTask (now : BitVec 32) (s : OverrideState P) : OverrideState P :=
  if s.deferredRegister = 0 then s
  else if s.deferDelay ≤ now - s.deferReferenceTime then
    { s.onUsb (OverrideUsb.registerCode16 s.deferredRegister) with
      deferredRegister := 0, deferReferenceTime := 0, deferDelay := 0 }
  else s

/-- `reregister_trigger` -/
def reregistersTrigger (o : KeyOverride) (s : OverrideState P) : Bool :=
  o.options &&& KeyOverride.noReregisterTrigger == 0 && s.activeOverrideTriggerIsDown &&
    o.trigger != 0 && o.trigger < safeRange

/-- Taking the replacement out, in `clear_active_override`. -/
def unregisterReplacement (o : KeyOverride) (u : OverrideUsb) : OverrideUsb :=
  if o.unregistersReplacement then
    if isKey (lowByte o.modFreeReplacement) then
      u.onUsb (Usb.delKey (lowByte o.modFreeReplacement))
    else u.sendKeyboardReport.unregisterCode (lowByte o.modFreeReplacement)
  else u

/-- Putting it in, in `try_activating_override`. Ten milliseconds pass between
    the report and a code that is no key. -/
def registerReplacement (o : KeyOverride) (u : OverrideUsb) : OverrideUsb :=
  if isKeyCode o.modFreeReplacement then u.onUsb (Usb.addKey (lowByte o.modFreeReplacement))
  else u.sendKeyboardReport.registerCode (lowByte o.modFreeReplacement)

/-- Taking the trigger out, in `try_activating_override`. -/
def unregisterTrigger (o : KeyOverride) (u : OverrideUsb) : OverrideUsb :=
  if isKeyCode o.trigger then u.onUsb (Usb.delKey (lowByte o.trigger))
  else u.unregisterCode (lowByte o.trigger)

variable (deref : P → KeyOverride)

def clearActiveOverride (now : BitVec 32) (allowReregister : Bool) (s : OverrideState P) :
    OverrideState P :=
  match s.activeOverride with
  | none => s
  | some p =>
    let t := { s with
      deferredRegister := 0,
      usb := unregisterReplacement (deref p)
        { s.usb with suppressedMods := 0, weakOverrideMods := 0 } }
    let t :=
      if allowReregister && t.reregistersTrigger (deref p) then
        t.scheduleDeferredRegister now (deref p).trigger
      else t
    { t with
      usb := t.usb.sendKeyboardReport,
      activeOverride := none, activeOverrideTriggerIsDown := false }

/-- `key_override_on`. -/
def on (s : OverrideState P) : OverrideState P := { s with enabled := true }

/-- `key_override_off`. -/
def off (now : BitVec 32) (s : OverrideState P) : OverrideState P :=
  { s with enabled := false }.clearActiveOverride deref now false

/-- `key_override_toggle`. -/
def toggle (now : BitVec 32) (s : OverrideState P) : OverrideState P :=
  if s.enabled then s.off deref now else s.on

/-- `effective_mods`: what is registered, brought up to date with the event. -/
def effectiveMods (keycode : Keycode) (keyDown : Bool) (s : OverrideState P) : Byte :=
  let mods := s.usb.usb.realMods ||| (s.usb.oneshotLockedMods ||| s.usb.usb.oneshotMods)
  if isModCode keycode then
    if keyDown then mods ||| modBit (lowByte keycode) else mods &&& ~~~modBit (lowByte keycode)
  else mods

/-- What `process_key_override` remembers of the last key. -/
def noteKey (now : BitVec 32) (keycode : Keycode) (keyDown : Bool) (s : OverrideState P) :
    OverrideState P :=
  if isModCode keycode then s
  else if keyDown then
    { s with lastKeyDown := keycode, lastKeyDownTime := now, deferredRegister := 0 }
  else if keycode = s.lastKeyDown then
    { s with lastKeyDown := 0, lastKeyDownTime := 0, deferredRegister := 0 }
  else s

/-- Whether an event activates an override: the checks of the loop in
    `try_activating_override`. -/
def activates [DecidableEq P] (flags : Nat → Bool) (keycode : Keycode) (layer : Nat)
    (keyDown : Bool) (mods : Byte) (s : OverrideState P) (p : P) : Bool :=
  let o := deref p
  !(mods == 0 && o.triggerMods != 0) &&
  o.layers.getLsbD layer &&
  o.checkActivationEvent keyDown (isModCode keycode) &&
  !(o.trigger == keycode && !keyDown) &&
  s.activeOverride != some p &&
  (match o.enabled with
    | none => true
    | some name => flags name) &&
  o.matchesActiveModifiers mods &&
  (o.trigger == 0 || (o.trigger == keycode && keyDown) || s.lastKeyDown == o.trigger)

/-- The override that is activated takes the place of the one before, and its
    trigger is taken out unless it has just been pressed. -/
def takeOver (now : BitVec 32) (keycode : Keycode) (keyDown : Bool) (p : P)
    (s : OverrideState P) : OverrideState P :=
  let o := deref p
  let s := s.clearActiveOverride deref now false
  let s := { s with
    activeOverride := some p, activeOverrideTriggerIsDown := true,
    usb := { s.usb with suppressedMods := o.suppressedMods } }
  if !(o.trigger == keycode && keyDown) && o.trigger != 0 then s.onUsb (unregisterTrigger o)
  else s

def activate (now : BitVec 32) (keycode : Keycode) (keyDown : Bool) (p : P)
    (s : OverrideState P) : OverrideState P :=
  let o := deref p
  let s := s.takeOver deref now keycode keyDown p
  if o.registersReplacement then
    let s := s.onUsb (fun u => { u with weakOverrideMods := Usb.extractModBits o.replacement })
    if isModCode keycode then
      (s.scheduleDeferredRegister now o.modFreeReplacement).onUsb OverrideUsb.sendKeyboardReport
    else s.onUsb (registerReplacement o)
  else s.onUsb OverrideUsb.sendKeyboardReport

/-- The override the loop of `try_activating_override` comes to. Its index has
    eight bits. -/
def activated [DecidableEq P] (overrides : List P) (flags : Nat → Bool) (keycode : Keycode)
    (layer : Nat) (keyDown : Bool) (mods : Byte) (s : OverrideState P) : Option P :=
  (overrides.take 256).find? (s.activates deref flags keycode layer keyDown mods)

def liftTrigger (s : OverrideState P) : OverrideState P :=
  { s with activeOverrideTriggerIsDown := false }

/-- The end of `process_key_override`: whether the event ends the override. -/
def endOverride (now : BitVec 32) (keycode : Keycode) (keyDown : Bool) (mods : Byte)
    (s : OverrideState P) : OverrideState P :=
  match s.activeOverride with
  | none => s
  | some p =>
    if isModCode keycode then
      if (deref p).matchesActiveModifiers mods then s else s.clearActiveOverride deref now true
    else if keycode == (deref p).trigger && !keyDown then
      s.liftTrigger.clearActiveOverride deref now false
    else if keyDown && (deref p).options &&& KeyOverride.noUnregisterOnOtherKeyDown == 0 then
      s.clearActiveOverride deref now false
    else s

/-- `process_key_override`: whether the event goes on, and the state. There is
    nothing when the loop over the overrides does not end: no override is
    activated and the index comes round before it reaches the null pointer. -/
def processKeyOverride [DecidableEq P] (overrides : List P) (flags : Nat → Bool)
    (now : BitVec 32) (keycode : Keycode) (layer : Nat) (keyDown : Bool) (s : OverrideState P) :
    Option (Bool × OverrideState P) :=
  if keyDown && keycode == keyOverrideToggle then some (false, s.toggle deref now)
  else if keyDown && keycode == keyOverrideOn then some (false, s.on)
  else if keyDown && keycode == keyOverrideOff then some (false, s.off deref now)
  else if s.enabled then
    let mods := s.effectiveMods keycode keyDown
    let s := s.noteKey now keycode keyDown
    if isModCode keycode || keyDown then
      match s.activated deref overrides flags keycode layer keyDown mods with
      | some p =>
        -- a trigger that has just been pressed is held back
        let held := (deref p).trigger == keycode && keyDown
        let s := s.activate deref now keycode keyDown p
        some (!held, if held then s.onUsb OverrideUsb.sendKeyboardReport else s)
      | none =>
        if overrides.length < 256 then some (true, s.endOverride deref now keycode keyDown mods)
        else none
    else some (true, s.endOverride deref now keycode keyDown mods)
  else some (true, s)

end OverrideState

/-! ### Runs -/

/-- A key that is held, with what was found out when it was pressed: the layer
    cache keeps its keycode and its layer, and the action it has been given is
    the one its release ends. -/
structure HeldKey (K : Type w) where
  key : K
  keycode : Keycode
  layer : Nat
  mods : Byte
  code : Byte
  deriving DecidableEq

/-- A key is pressed or released, the task is called, the time changes, or other
    code writes a variable an override points to or the one-shot modifiers. -/
inductive OverrideInput (K : Type w) where
  | press (h : HeldKey K)
  | release (key : K)
  | task
  | tick (now : BitVec 32)
  | flag (name : Nat) (on : Bool)
  | oneshot (mods locked : Byte)
  deriving DecidableEq

structure OverrideRun (P : Type v) (K : Type w) where
  state : OverrideState P
  /-- `timer_read32` -/
  clock : BitVec 32
  flags : Nat → Bool
  held : List (HeldKey K)
  /-- the firmware is in a loop that does not end -/
  hung : Bool

namespace OverrideRun

variable {P : Type v} {K : Type w}

def start (P : Type v) (K : Type w) (nkro : Bool) (flags : Nat → Bool) : OverrideRun P K :=
  { state := .init P nkro, clock := 0, flags, held := [], hung := false }

variable (deref : P → KeyOverride) [DecidableEq P] [DecidableEq K] (overrides : List P)

def process (pressed : Bool) (h : HeldKey K) (s : OverrideRun P K) : OverrideRun P K :=
  if s.hung then s
  else
    match s.state.processKeyOverride deref overrides s.flags s.clock h.keycode h.layer pressed with
    | none => { s with hung := true }
    | some (goesOn, t) =>
      { s with
        state := if goesOn then t.onUsb (OverrideUsb.processMods pressed h.mods h.code) else t }

def press (h : HeldKey K) (s : OverrideRun P K) : OverrideRun P K :=
  if s.held.any (fun e => e.key = h.key) then s
  else { s with held := h :: s.held }.process deref overrides true h

def without (key : K) (s : OverrideRun P K) : List (HeldKey K) :=
  s.held.eraseP (fun e => e.key = key)

def release (key : K) (s : OverrideRun P K) : OverrideRun P K :=
  match s.held.find? (fun e => e.key = key) with
  | none => s
  | some h => { s with held := s.without key }.process deref overrides false h

def step (s : OverrideRun P K) : OverrideInput K → OverrideRun P K
  | .press h => s.press deref overrides h
  | .release key => s.release deref overrides key
  | .task => if s.hung then s else { s with state := s.state.keyOverrideTask s.clock }
  | .tick now => { s with clock := now }
  | .flag name on => { s with flags := Function.update s.flags name on }
  | .oneshot mods locked =>
    { s with
      state := s.state.onUsb (fun u =>
        { u with usb := { u.usb with oneshotMods := mods }, oneshotLockedMods := locked }) }

end OverrideRun

end K530
