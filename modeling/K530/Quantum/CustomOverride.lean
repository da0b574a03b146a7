import K530.Quantum.KeyOverride

/-!
# Key Overrides With Custom Actions

`process_key_override.c` again, with the function an override may have for itself. It is
called when the override is activated and when it is deactivated, and says each time whether
the replacement should be registered, or unregistered. It may use the USB side, and it has
a context, or any other memory.

The key that activating the active override has registered is kept, and so is what becomes of
it. It is not registered at once when it is a modifier that activates the override.
`key_override_task` does so later, unless another key is pressed or released before.

## Main definitions

* `CustomAction`: A function of an override.
-/

namespace K530

universe v w

/-- `custom_action`, which is told whether the override was activated. -/
abbrev CustomAction (W : Type w) := Bool → OverrideUsb × W → Bool × OverrideUsb × W

/-- `KC_NO` is no key. -/
def keyOf (code : Byte) : Option Byte := if code = 0 then none else some code

/-- The static variables, and what is known of the active override. -/
structure CustomState (P : Type v) (W : Type w) where
  state : OverrideState P
  /-- the memory of the custom actions -/
  memory : W
  /-- its custom action has agreed when it was activated. Nothing reads this. -/
  agreed : Bool
  /-- its replacement was put off, and has not been registered. Nothing reads this. -/
  waiting : Bool
  /-- the key that activating it has registered. Nothing reads this. -/
  registered : Option Byte
  /-- the overrides that have been deactivated, each with the key that had been registered and
      the key that was unregistered, oldest first. Nothing reads this. -/
  ended : List (P × Option Byte × Option Byte)

namespace CustomState

variable {P : Type v} {W : Type w}

def init (P : Type v) (nkro : Bool) (memory : W) : CustomState P W :=
  { state := .init P nkro, memory, agreed := false, waiting := false, registered := none,
    ended := [] }

def onState (f : OverrideState P → OverrideState P) (s : CustomState P W) : CustomState P W :=
  { s with state := f s.state }

def act (action : Option (CustomAction W)) (activated : Bool) (s : CustomState P W) :
    Bool × CustomState P W :=
  match action with
  | none => (true, s)
  | some f =>
    let (answer, usb, memory) := f activated (s.state.usb, s.memory)
    (answer, { s.onState (fun t => { t with usb }) with memory })

variable (deref : P → KeyOverride) (actions : P → Option (CustomAction W))

def clearActiveOverride (now : BitVec 32) (allowReregister : Bool) (s : CustomState P W) :
    CustomState P W :=
  match s.state.activeOverride with
  | none => s
  | some p =>
    let s := s.onState (fun t =>
      { t with
        deferredRegister := 0, usb := { t.usb with suppressedMods := 0, weakOverrideMods := 0 } })
    let (answer, s) := s.act (actions p) false
    let s :=
      if answer then s.onState (.onUsb (OverrideState.unregisterReplacement (deref p))) else s
    let s :=
      { s with
        ended := s.ended ++ [(p, s.registered,
          if (deref p).unregistersReplacement && answer then
            keyOf (lowByte (deref p).modFreeReplacement)
          else none)] }
    s.onState (fun t =>
      let t :=
        if allowReregister && t.reregistersTrigger (deref p) then
          t.scheduleDeferredRegister now (deref p).trigger
        else t
      { t with
        usb := t.usb.sendKeyboardReport,
        activeOverride := none, activeOverrideTriggerIsDown := false })

/-- `key_override_off`. -/
def off (now : BitVec 32) (s : CustomState P W) : CustomState P W :=
  (s.onState (fun t => { t with enabled := false })).clearActiveOverride deref actions now false

/-- `key_override_toggle`. -/
def toggle (now : BitVec 32) (s : CustomState P W) : CustomState P W :=
  if s.state.enabled then s.off deref actions now else s.onState .on

/-- The override that is activated takes the place of the one before, and its trigger is taken
    out unless it has just been pressed. -/
def takeOver (now : BitVec 32) (keycode : Keycode) (keyDown : Bool) (p : P)
    (s : CustomState P W) : CustomState P W :=
  let o := deref p
  (s.clearActiveOverride deref actions now false).onState (fun t =>
    let t := { t with
      activeOverride := some p, activeOverrideTriggerIsDown := true,
      usb := { t.usb with suppressedMods := o.suppressedMods } }
    if !(o.trigger == keycode && keyDown) && o.trigger != 0 then
      t.onUsb (OverrideState.unregisterTrigger o)
    else t)

/-- The rest of the loop of `try_activating_override`, for an override that is activated. -/
def activate (now : BitVec 32) (keycode : Keycode) (keyDown : Bool) (p : P)
    (s : CustomState P W) : CustomState P W :=
  let o := deref p
  let (answer, s) := (s.takeOver deref actions now keycode keyDown p).act (actions p) true
  let s := { s with agreed := answer, waiting := false, registered := none }
  if o.registersReplacement && answer then
    let s := s.onState (.onUsb (fun u =>
      { u with weakOverrideMods := Usb.extractModBits o.replacement }))
    if isModCode keycode then
      { s.onState (fun t =>
          (t.scheduleDeferredRegister now o.modFreeReplacement).onUsb
            OverrideUsb.sendKeyboardReport) with
        waiting := true }
    else
      { s.onState (.onUsb (OverrideState.registerReplacement o)) with
        registered := keyOf (lowByte o.modFreeReplacement) }
  else s.onState (.onUsb OverrideUsb.sendKeyboardReport)

/-- The end of `process_key_override`: whether the event ends the override. -/
def endOverride (now : BitVec 32) (keycode : Keycode) (keyDown : Bool) (mods : Byte)
    (s : CustomState P W) : CustomState P W :=
  match s.state.activeOverride with
  | none => s
  | some p =>
    if isModCode keycode then
      if (deref p).matchesActiveModifiers mods then s
      else s.clearActiveOverride deref actions now true
    else if keycode == (deref p).trigger && !keyDown then
      (s.onState .liftTrigger).clearActiveOverride deref actions now false
    else if keyDown && (deref p).options &&& KeyOverride.noUnregisterOnOtherKeyDown == 0 then
      s.clearActiveOverride deref actions now false
    else s

def processKeyOverride [DecidableEq P] (overrides : List P) (flags : Nat → Bool)
    (now : BitVec 32) (keycode : Keycode) (layer : Nat) (keyDown : Bool) (s : CustomState P W) :
    Option (Bool × CustomState P W) :=
  if keyDown && keycode == keyOverrideToggle then some (false, s.toggle deref actions now)
  else if keyDown && keycode == keyOverrideOn then some (false, s.onState .on)
  else if keyDown && keycode == keyOverrideOff then some (false, s.off deref actions now)
  else if s.state.enabled then
    let mods := s.state.effectiveMods keycode keyDown
    let s := s.onState (.noteKey now keycode keyDown)
    if isModCode keycode || keyDown then
      match s.state.activated deref overrides flags keycode layer keyDown mods with
      | some p =>
        let held := (deref p).trigger == keycode && keyDown
        let s := s.activate deref actions now keycode keyDown p
        some (!held, if held then s.onState (.onUsb OverrideUsb.sendKeyboardReport) else s)
      | none =>
        if overrides.length < 256 then
          some (true, s.endOverride deref actions now keycode keyDown mods)
        else none
    else some (true, s.endOverride deref actions now keycode keyDown mods)
  else some (true, s)

/-- `key_override_task`. What it registers is the replacement, if that was put off. -/
def keyOverrideTask (now : BitVec 32) (s : CustomState P W) : CustomState P W :=
  if s.state.deferredRegister = 0 then s
  else if s.state.deferDelay ≤ now - s.state.deferReferenceTime then
    { s.onState (.keyOverrideTask now) with
      waiting := false,
      registered :=
        if s.waiting then keyOf (lowByte s.state.deferredRegister) else s.registered }
  else s

end CustomState

/-! ### Runs -/

/-- An event of a key, a call of the task, or what other code does: it writes a variable that
    an override points to, and it may do anything to the USB side and to the memory. -/
inductive CustomInput (W : Type w) where
  | event (keycode : Keycode) (layer : Nat) (keyDown : Bool)
  | task
  | tick (now : BitVec 32)
  | flag (name : Nat) (on : Bool)
  | other (usb : OverrideUsb) (memory : W)

structure CustomRun (P : Type v) (W : Type w) where
  state : CustomState P W
  /-- `timer_read32` -/
  clock : BitVec 32
  flags : Nat → Bool
  /-- the firmware is in a loop that does not end -/
  hung : Bool

namespace CustomRun

variable {P : Type v} {W : Type w}

def start (P : Type v) (nkro : Bool) (memory : W) (flags : Nat → Bool) : CustomRun P W :=
  { state := .init P nkro memory, clock := 0, flags, hung := false }

variable (deref : P → KeyOverride) (actions : P → Option (CustomAction W)) [DecidableEq P]
  (overrides : List P)

def step (r : CustomRun P W) : CustomInput W → CustomRun P W
  | .event keycode layer keyDown =>
    if r.hung then r
    else
      match r.state.processKeyOverride deref actions overrides r.flags r.clock keycode layer
        keyDown with
      | none => { r with hung := true }
      | some (_, state) => { r with state }
  | .task => if r.hung then r else { r with state := r.state.keyOverrideTask r.clock }
  | .tick now => { r with clock := now }
  | .flag name on => { r with flags := Function.update r.flags name on }
  | .other usb memory =>
    { r with state := { r.state.onState (fun t => { t with usb }) with memory } }

end CustomRun

end K530
