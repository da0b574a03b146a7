import K530.Keymap.User
import K530.Lighting.Matrix
import K530.Quantum.OneShot
import K530.Quantum.Tapping

/-!
# What a Keycode Registers

The two ways a keycode becomes something the host can see: a key event with it,
through every handler of the firmware, and its replay from a macro slot.

Only what registers is here: the calls that make a key or a modifier appear in
a report, send a media usage, or put something into the Bluetooth tracker. What
is let go, and what happens to the layers, the lighting and the recorders, can
take from the host but not give to it.

A key event is looked at by QMK's dynamic macros first, then by the keymap, and
then by Space Cadet, the magic keycodes, Grave Escape, the lighting, and the
handful of keycodes QMK answers to itself. What none of them ends becomes an
action. A replay is two calls: the modifiers of the keycode, and its low byte.

A one-shot layer that is on adds a release to a press, which registers nothing
that the release itself would not. A one-shot modifier that is tapped once is
left to the next key, and counts as registered by that one.

## Main definitions

* `Usage`: Something the host can see.
-/

namespace K530

inductive Usage where
  | key (code : Byte)
  | modifier (code : Byte)
  | system (usage : BitVec 16)
  | consumer (usage : BitVec 16)
  /-- a keycode in the Bluetooth tracker -/
  | tracked (code : Byte)
  deriving DecidableEq

inductive HidCall where
  | registerCode (code : Byte)
  | registerMods (mods : Byte)
  | registerWeakMods (mods : Byte)
  /-- `add_key` and `send_keyboard_report` -/
  | addKey (key : Byte)
  | systemSend (usage : BitVec 16)
  | consumerSend (usage : BitVec 16)
  /-- `bt_track_basic_keycode`, of a press -/
  | btTrack (keycode : Keycode)
  deriving DecidableEq

/-- What `register_code` makes the host see. -/
def codeUsage? (code : Byte) : Option Usage :=
  if isKey code then some (.key code)
  else if isMod code then some (.modifier code)
  else if isSystem code then some (.system (keycode2System code))
  else if isConsumer code then some (.consumer (keycode2Consumer code))
  else none

def modifierCodes : List Byte := [0xE0, 0xE1, 0xE2, 0xE3, 0xE4, 0xE5, 0xE6, 0xE7]

def modUsages (mods : Byte) : List Usage :=
  (modifierCodes.filter (hasMod mods)).map .modifier

namespace HidCall

def usages : HidCall → List Usage
  | registerCode code => (codeUsage? code).toList
  | registerMods mods => modUsages mods
  | registerWeakMods mods => modUsages mods
  | addKey key => [.key key]
  | systemSend usage => [.system usage]
  | consumerSend usage => [.consumer usage]
  | btTrack keycode => [.tracked (lowByte keycode)]

def onUsb : HidCall → Usb → Usb
  | registerCode code => Usb.registerCode code
  | registerMods mods => Usb.registerMods mods
  | registerWeakMods mods => Usb.registerWeakMods mods
  | addKey key => fun u => (u.addKey key).sendKeyboardReport
  | systemSend usage => Usb.systemSend usage
  | consumerSend usage => Usb.consumerSend usage
  | btTrack _ => id

def runAll (calls : List HidCall) (u : Usb) : Usb :=
  calls.foldl (fun u call => call.onUsb u) u

def Registers (calls : List HidCall) (usage : Usage) : Prop :=
  ∃ call ∈ calls, usage ∈ call.usages

instance (calls : List HidCall) (usage : Usage) : Decidable (Registers calls usage) :=
  inferInstanceAs (Decidable (∃ call ∈ calls, usage ∈ call.usages))

end HidCall

/-! ### The keycodes of the handlers -/

/-- `DYN_REC_START1`, `DYN_REC_START2` and `DYN_REC_STOP` -/
def dynRecStart1 : Keycode := 0x5D04
def dynRecStart2 : Keycode := 0x5D05
def dynRecStop : Keycode := 0x5D06

/-- `DYN_MACRO_PLAY1` and `DYN_MACRO_PLAY2` -/
def dynMacroPlay1 : Keycode := 0x5D07
def dynMacroPlay2 : Keycode := 0x5D08

def graveEsc : Keycode := 0x5C16

/-- `DEBUG` and `EEPROM_RESET` -/
def debugToggle : Keycode := 0x5C01
def eepromReset : Keycode := 0x5CDF

/-- What a Space Cadet keycode is made of: the modifier of a hold, the one of a
    tap, and the key of a tap. -/
structure SpaceCadet where
  holdMod : Byte
  tapMod : Byte
  keycode : Byte

/-- The keycodes of `process_space_cadet`. -/
def spaceCadet? (keycode : Keycode) : Option SpaceCadet :=
  -- KC_LSPO
  if keycode = 0x5CD8 then some { holdMod := 0xE1, tapMod := 0xE1, keycode := 0x26 }
  -- KC_RSPC
  else if keycode = 0x5CD9 then some { holdMod := 0xE5, tapMod := 0xE5, keycode := 0x27 }
  -- KC_LCPO
  else if keycode = 0x5CF4 then some { holdMod := 0xE0, tapMod := 0xE1, keycode := 0x26 }
  -- KC_RCPC
  else if keycode = 0x5CF5 then some { holdMod := 0xE4, tapMod := 0xE5, keycode := 0x27 }
  -- KC_LAPO
  else if keycode = 0x5CF6 then some { holdMod := 0xE2, tapMod := 0xE1, keycode := 0x26 }
  -- KC_RAPC
  else if keycode = 0x5CF7 then some { holdMod := 0xE6, tapMod := 0xE5, keycode := 0x27 }
  -- KC_SFTENT, whose tap has no modifier
  else if keycode = 0x5CDA then some { holdMod := 0xE5, tapMod := 0x01, keycode := 0x28 }
  else none

namespace ActionCode

/-- `ACT_RMODS_TAP` -/
def actRightModsTap : BitVec 16 := 0b0011

def modsOneshot : Byte := 0x00

def modsTapToggle : Byte := 0x01

/-- `key.mods`: four bits. -/
def keyMods (a : ActionCode) : Byte := (a >>> 8).setWidth 8 &&& 0x0F

end ActionCode

structure Setting where
  /-- Bluetooth is on -/
  btOn : Bool
  config : KeymapConfig
  /-- `keymap_config.oneshot_disable` -/
  oneshotDisable : Bool
  /-- `keymap_function_id_to_action` -/
  functions : BitVec 16 → ActionCode
  /-- `get_mods` -/
  mods : Byte
  /-- `get_oneshot_mods` -/
  oneshotMods : Byte
  /-- a dynamic macro is being recorded -/
  dynamicRecording : Bool
  /-- the calls that playing a dynamic macro makes, by its keycode -/
  dynamicMacro : Keycode → List HidCall
  /-- what the slots of the keymap's recorder play -/
  slots : Fin 6 → List MacroEvent
  /-- the key is let go within the tapping term, and no other was pressed -/
  quick : Bool
  /-- `RGB_MATRIX_EFFECT_MAX` -/
  effectMax : Nat
  light : RgbMatrix

namespace Setting

/-! ### A replay -/

def btTrackBasicKeycode (keycode : Keycode) (pressed : Bool) : List HidCall :=
  if pressed ∧ keycode ≤ 0xFF then [.btTrack keycode] else []

def registerCode16 (keycode : Keycode) : List HidCall :=
  [if Usb.plainModOrNo keycode then .registerMods (Usb.extractModBits keycode)
    else .registerWeakMods (Usb.extractModBits keycode),
    .registerCode (lowByte keycode)]

def playEvent (s : Setting) (keycode : Keycode) (pressed : Bool) : List HidCall :=
  (if !s.btOn && pressed then registerCode16 keycode else []) ++
    btTrackBasicKeycode keycode pressed

def replay (s : Setting) (keycode : Keycode) : List HidCall :=
  s.playEvent keycode true ++ s.playEvent keycode false

/-! ### A key event -/

/-- `process_dynamic_macro`: nothing where QMK goes on with the event. -/
def processDynamicMacro (s : Setting) (keycode : Keycode) (pressed : Bool) :
    Option (List HidCall) :=
  if !s.dynamicRecording then
    if pressed then none
    else if keycode = dynRecStart1 ∨ keycode = dynRecStart2 then some []
    else if keycode = dynMacroPlay1 ∨ keycode = dynMacroPlay2 then some (s.dynamicMacro keycode)
    else none
  -- what is recorded is processed as well
  else if keycode = dynRecStart1 ∨ keycode = dynRecStart2 ∨ keycode = dynRecStop then some []
  else none

/-- The keycodes that end in `process_record_user`: the recorder's, and the one
    that clears a bond. -/
def processRecordUser (s : Setting) (keycode : Keycode) (pressed : Bool) : Option (List HidCall) :=
  if keycode = Keymap.fn2Rec ∨ (Keymap.recSlot? keycode).isSome ∨ keycode = Keymap.btUnpair then
    some []
  else
    (Keymap.playSlot? keycode).map (fun slot =>
      if pressed then (s.slots slot).flatMap (fun e => s.playEvent e.keycode e.pressed) else [])

/-- `register_mods(MOD_BIT(mod))`, if it is a modifier. -/
def cadetMod (mod : Byte) : List HidCall :=
  if isMod mod then [.registerMods (modBit mod)] else []

def performSpaceCadet (s : Setting) (pressed : Bool) (cadet : SpaceCadet) : List HidCall :=
  if pressed then cadetMod cadet.holdMod
  else if s.quick then
    (if cadet.holdMod ≠ cadet.tapMod then cadetMod cadet.tapMod else []) ++
      -- `tap_code`
      [.registerCode cadet.keycode]
  else []

def processSpaceCadet (s : Setting) (keycode : Keycode) (pressed : Bool) : Option (List HidCall) :=
  (spaceCadet? keycode).map (s.performSpaceCadet pressed)

/-- `process_grave_esc`. Either `GUI` or `Shift` makes it a `GRAVE`. -/
def processGraveEsc (s : Setting) (keycode : Keycode) (pressed : Bool) : Option (List HidCall) :=
  if keycode = graveEsc then
    some (if pressed then [.addKey (if s.mods &&& 0xAA ≠ 0 then 0x35 else 0x29)] else [])
  else none

/-- `process_rgb` goes on with the event. -/
def processRgb (s : Setting) (keycode : Keycode) (pressed : Bool) : Bool :=
  -- `MOD_MASK_SHIFT`
  (s.light.processRgb s.effectMax keycode pressed (s.mods &&& 0x22 ≠ 0)).2

/-- `process_action`: the modifiers of `ACT_LMODS` and `ACT_RMODS`. -/
def modsCalls (mods code : Byte) : List HidCall :=
  [if isMod code || code == 0 then .registerMods mods else .registerWeakMods mods,
    .registerCode code]

/-- `process_action`, of `ACT_LMODS_TAP` and `ACT_RMODS_TAP` pressed. -/
def modsTapCalls (s : Setting) (tap : Tap) (mods code : Byte) : List HidCall :=
  if code = ActionCode.modsOneshot then
    if s.oneshotDisable then modsCalls mods code
    -- one tap leaves the modifiers to the next key
    else if tap.count = 1 then []
    else [.registerMods (mods ||| s.oneshotMods)]
  else if code = ActionCode.modsTapToggle then
    if tap.count ≤ tappingToggle then [.registerMods mods] else []
  else if tap.count > 0 then
    if tap.interrupted then [.registerMods mods] else [.registerCode code]
  else [.registerMods mods]

def isLayerTapOp (code : Byte) : Bool :=
  code == ActionCode.opTapToggle || code == ActionCode.opOnOff || code == ActionCode.opOffOn ||
    code == ActionCode.opSetClear || code == ActionCode.opOneshot

/-- `process_action`. A release lets go of what its press has registered, and
    the actions of a macro and of a function are empty. -/
def processAction (s : Setting) (tap : Tap) (a : ActionCode) (pressed : Bool) : List HidCall :=
  if !pressed then []
  else if a.kindId = ActionCode.actMods ∨ a.kindId = ActionCode.actRightMods then
    modsCalls (if a.kindId = ActionCode.actMods then a.keyMods else a.keyMods <<< 4) a.keyCode
  else if a.kindId = ActionCode.actModsTap ∨ a.kindId = ActionCode.actRightModsTap then
    s.modsTapCalls tap
      (if a.kindId = ActionCode.actModsTap then a.keyMods else a.keyMods <<< 4) a.keyCode
  else if a.kindId = ActionCode.actUsage then
    -- `usage.page`
    if (a >>> 10) &&& 0x3 = 0 then [.systemSend (a &&& 0x3FF)]
    else if (a >>> 10) &&& 0x3 = 1 then [.consumerSend (a &&& 0x3FF)]
    else []
  else if a.kindId = ActionCode.actLayerMods then [.registerMods a.keyCode]
  else if a.kindId = ActionCode.actLayerTap ∨ a.kindId = ActionCode.actLayerTapExt then
    if isLayerTapOp a.keyCode then []
    else if tap.count > 0 then [.registerCode a.keyCode]
    else []
  else []

/-- The keycodes that `process_record_quantum` itself ends a press of. -/
def isAnswered (keycode : Keycode) : Bool :=
  keycode == Keymap.reset || keycode == debugToggle || keycode == eepromReset

/-- `process_record_quantum` and `process_action`, of an event that the keymap
    lets pass. -/
def afterKeymap (s : Setting) (tap : Tap) (keycode : Keycode) (pressed : Bool) : List HidCall :=
  if s.btOn && keycode ≤ 0xFF then []
  else
    match s.processSpaceCadet keycode pressed with
    | some calls => calls
    | none =>
      if pressed && isMagic keycode then []
      else
        match s.processGraveEsc keycode pressed with
        | some calls => calls
        | none =>
          if !s.processRgb keycode pressed then []
          else if pressed && isAnswered keycode then []
          else s.processAction tap (actionCodeForKeycode s.functions s.config keycode) pressed

/-- `process_record`, of an event that is not a dynamic macro's. -/
def afterDynamicMacro (s : Setting) (tap : Tap) (keycode : Keycode) (pressed : Bool) :
    List HidCall :=
  (s.processRecordUser keycode pressed).getD
    (btTrackBasicKeycode keycode pressed ++ s.afterKeymap tap keycode pressed)

/-- `process_record`. -/
def keyEvent (s : Setting) (tap : Tap) (keycode : Keycode) (pressed : Bool) : List HidCall :=
  (s.processDynamicMacro keycode pressed).getD (s.afterDynamicMacro tap keycode pressed)

def original (s : Setting) (press release : Tap) (keycode : Keycode) : List HidCall :=
  s.keyEvent press keycode true ++ s.keyEvent release keycode false

end Setting

end K530
