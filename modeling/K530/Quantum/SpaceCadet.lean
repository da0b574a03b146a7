import K530.Keymap.Replay

/-!
# Space Cadet

`process_space_cadet.c`: a key that is a modifier while it is held, and types something
when it is tapped, with a modifier of its own for that. Which three these are, for each of
the seven keys, is a matter of the configuration. It has been tapped if no other key was
pressed before its release, and that came within the tapping term: the module keeps the
modifier of the key that was pressed last, and the time.

With a tap the modifier of the hold is taken back and that of the tap is set, the key is
typed, and the modifier of the tap is taken back. It is the registers of `action_util.c`
that this is done to, and nothing tells whose a modifier in them is.

## Main definitions

* `SpaceCadetBuild`: The configuration.
-/

namespace K530

structure SpaceCadetBuild where
  /-- `LSPO_KEYS` -/
  lspo : SpaceCadet
  /-- `RSPC_KEYS` -/
  rspc : SpaceCadet
  /-- `LCPO_KEYS` -/
  lcpo : SpaceCadet
  /-- `RCPC_KEYS` -/
  rcpc : SpaceCadet
  /-- `LAPO_KEYS` -/
  lapo : SpaceCadet
  /-- `RAPC_KEYS` -/
  rapc : SpaceCadet
  /-- `SFTENT_KEYS` -/
  sftent : SpaceCadet
  /-- `SPACE_CADET_MODIFIER_CARRYOVER` -/
  modifierCarryover : Bool
  /-- `TAPPING_TERM`, or `get_tapping_term` of the keycode -/
  tappingTerm : Keycode → Nat

namespace SpaceCadetBuild

/-- The keycodes of `process_space_cadet`. -/
def cadet? (b : SpaceCadetBuild) (keycode : Keycode) : Option SpaceCadet :=
  -- KC_LSPO
  if keycode = 0x5CD8 then some b.lspo
  -- KC_RSPC
  else if keycode = 0x5CD9 then some b.rspc
  -- KC_LCPO
  else if keycode = 0x5CF4 then some b.lcpo
  -- KC_RCPC
  else if keycode = 0x5CF5 then some b.rcpc
  -- KC_LAPO
  else if keycode = 0x5CF6 then some b.lapo
  -- KC_RAPC
  else if keycode = 0x5CF7 then some b.rapc
  -- KC_SFTENT
  else if keycode = 0x5CDA then some b.sftent
  else none

/-- The keys as they are without others, and a tapping term of 200 for all. -/
def defaults : SpaceCadetBuild where
  lspo := { holdMod := 0xE1, tapMod := 0xE1, keycode := 0x26 }
  rspc := { holdMod := 0xE5, tapMod := 0xE5, keycode := 0x27 }
  lcpo := { holdMod := 0xE0, tapMod := 0xE1, keycode := 0x26 }
  rcpc := { holdMod := 0xE4, tapMod := 0xE5, keycode := 0x27 }
  lapo := { holdMod := 0xE2, tapMod := 0xE1, keycode := 0x26 }
  rapc := { holdMod := 0xE6, tapMod := 0xE5, keycode := 0x27 }
  sftent := { holdMod := 0xE5, tapMod := 0x01, keycode := 0x28 }
  modifierCarryover := false
  tappingTerm _ := 200

end SpaceCadetBuild

structure SpaceCadetState where
  usb : Usb
  /-- `sc_last` -/
  last : Byte
  /-- `sc_timer` -/
  timer : BitVec 16
  /-- `sc_mods`, of a build with the carryover -/
  mods : Byte

/-- `register_mods(MOD_BIT(mod))`, if it is a modifier. -/
def Usb.registerMod (mod : Byte) (u : Usb) : Usb :=
  if isMod mod then u.registerMods (modBit mod) else u

/-- `unregister_mods(MOD_BIT(mod))`, if it is a modifier. -/
def Usb.unregisterMod (mod : Byte) (u : Usb) : Usb :=
  if isMod mod then u.unregisterMods (modBit mod) else u

namespace SpaceCadetState

variable (b : SpaceCadetBuild)

def tapped (now : BitVec 16) (keycode : Keycode) (cadet : SpaceCadet) (s : SpaceCadetState) :
    Bool :=
  s.last == cadet.holdMod && decide ((now - s.timer).toNat < b.tappingTerm keycode)

def tap (cadet : SpaceCadet) (s : SpaceCadetState) : Usb :=
  let u :=
    if cadet.holdMod ≠ cadet.tapMod then
      (s.usb.unregisterMod cadet.holdMod).registerMod cadet.tapMod
    else s.usb
  let u := if b.modifierCarryover then { u with weakMods := s.mods } else u
  -- `tap_code`
  let u := (u.registerCode cadet.keycode).unregisterCode cadet.keycode
  let u := if b.modifierCarryover then u.clearWeakMods else u
  u.unregisterMod cadet.tapMod

def performSpaceCadet (now : BitVec 16) (keycode : Keycode) (cadet : SpaceCadet) (pressed : Bool)
    (s : SpaceCadetState) : SpaceCadetState :=
  if pressed then
    { usb := s.usb.registerMod cadet.holdMod, last := cadet.holdMod, timer := now,
      mods := s.usb.realMods }
  else if s.tapped b now keycode cadet then { s with usb := s.tap b cadet }
  else { s with usb := s.usb.unregisterMod cadet.holdMod }

/-- `process_space_cadet`: whether the key goes on, and the state after it. -/
def processSpaceCadet (now : BitVec 16) (keycode : Keycode) (pressed : Bool)
    (s : SpaceCadetState) : Bool × SpaceCadetState :=
  match b.cadet? keycode with
  | some cadet => (false, s.performSpaceCadet b now keycode cadet pressed)
  | none => (true, if pressed then { s with last := 0 } else s)

/-- A key of a keycode. What goes on is a plain key or a plain modifier, and is registered
    and unregistered as such. -/
def keyEvent (now : BitVec 16) (keycode : Keycode) (pressed : Bool) (s : SpaceCadetState) :
    SpaceCadetState :=
  let done := s.processSpaceCadet b now keycode pressed
  if done.1 then
    { done.2 with
      usb :=
        if pressed then done.2.usb.registerCode (lowByte keycode)
        else done.2.usb.unregisterCode (lowByte keycode) }
  else done.2

end SpaceCadetState

end K530
