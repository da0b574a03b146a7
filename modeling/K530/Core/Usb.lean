import K530.Core.Report

/-!
# The USB Side

The modifiers QMK keeps beside the report, and the functions that press and
release a keycode on the wire.

A modifier reaches the host by one of four registers. Real modifiers belong to
modifier keys and weak ones to keycodes that carry modifiers; the macro and
one-shot registers are read by every send, but no key of this keyboard fills
them. The modifiers in the report itself are those of the last send.

`registerCode` takes eight bits and `registerCode16` hands it sixteen, so a
keycode above `0xFF` is registered by its low byte, whatever it means. The
modifiers `registerCode16` adds to it come out of `extractModBits`, and only
keycodes in the modifier range have any. A plain modifier keycode has none and
is registered by the low byte alone.

System and media keys are reports of their own, gone as soon as they are sent.
They appear in the log of what was sent and nowhere else.

## Main definitions

* `HostReport`: What the host is sent.
-/

namespace K530

def keycode2System (key : Byte) : BitVec 16 :=
  if key = 0xA5 then 0x81 else if key = 0xA6 then 0x82 else if key = 0xA7 then 0x83 else 0

/-- The consumer usages from `KC_AUDIO_MUTE` on, in keycode order. -/
def consumerUsages : List (BitVec 16) :=
  [0x0E2, 0x0E9, 0x0EA, 0x0B5, 0x0B6, 0x0B7, 0x0CD, 0x183, 0x0CC, 0x18A, 0x192, 0x194, 0x221,
    0x223, 0x224, 0x225, 0x226, 0x227, 0x22A, 0x0B3, 0x0B4, 0x06F, 0x070]

def keycode2Consumer (key : Byte) : BitVec 16 :=
  if isConsumer key then consumerUsages.getD (key.toNat - 0xA8) 0 else 0

inductive HostReport where
  | keyboard (r : Report)
  | system (usage : BitVec 16)
  | consumer (usage : BitVec 16)
  deriving DecidableEq

structure Usb where
  report : Report
  realMods : Byte
  weakMods : Byte
  macroMods : Byte
  oneshotMods : Byte
  /-- `keyboard_protocol && keymap_config.nkro` -/
  nkro : Bool
  /-- what the host was sent, oldest first -/
  sent : List HostReport
  deriving DecidableEq

namespace Usb

def init (nkro : Bool) : Usb :=
  { report := Report.empty, realMods := 0, weakMods := 0, macroMods := 0, oneshotMods := 0,
    nkro, sent := [] }

/-- `send_keyboard_report`. One-shot modifiers are spent on a report that has a
    key in it. -/
def sendKeyboardReport (u : Usb) : Usb :=
  let report := { u.report with mods := u.realMods ||| u.weakMods ||| u.macroMods }
  if u.oneshotMods ≠ 0 then
    let report := { report with mods := report.mods ||| u.oneshotMods }
    { u with
      report, oneshotMods := if report.hasAnykey u.nkro ≠ 0 then 0 else u.oneshotMods,
      sent := u.sent ++ [.keyboard report] }
  else { u with report, sent := u.sent ++ [.keyboard report] }

/-- `host_system_send`. -/
def systemSend (usage : BitVec 16) (u : Usb) : Usb :=
  { u with sent := u.sent ++ [.system usage] }

/-- `host_consumer_send`. -/
def consumerSend (usage : BitVec 16) (u : Usb) : Usb :=
  { u with sent := u.sent ++ [.consumer usage] }

def addKey (key : Byte) (u : Usb) : Usb :=
  { u with report := u.report.addKeyToReport u.nkro key }

def delKey (key : Byte) (u : Usb) : Usb :=
  { u with report := u.report.delKeyFromReport u.nkro key }

def clearKeys (u : Usb) : Usb :=
  { u with report := u.report.clearKeysFromReport u.nkro }

def addMods (mods : Byte) (u : Usb) : Usb := { u with realMods := u.realMods ||| mods }

def delMods (mods : Byte) (u : Usb) : Usb := { u with realMods := u.realMods &&& ~~~mods }

def clearMods (u : Usb) : Usb := { u with realMods := 0 }

def addWeakMods (mods : Byte) (u : Usb) : Usb := { u with weakMods := u.weakMods ||| mods }

def delWeakMods (mods : Byte) (u : Usb) : Usb := { u with weakMods := u.weakMods &&& ~~~mods }

def clearWeakMods (u : Usb) : Usb := { u with weakMods := 0 }

def clearMacroMods (u : Usb) : Usb := { u with macroMods := 0 }

def registerMods (mods : Byte) (u : Usb) : Usb :=
  if mods ≠ 0 then (u.addMods mods).sendKeyboardReport else u

def unregisterMods (mods : Byte) (u : Usb) : Usb :=
  if mods ≠ 0 then (u.delMods mods).sendKeyboardReport else u

def registerWeakMods (mods : Byte) (u : Usb) : Usb :=
  if mods ≠ 0 then (u.addWeakMods mods).sendKeyboardReport else u

def unregisterWeakMods (mods : Byte) (u : Usb) : Usb :=
  if mods ≠ 0 then (u.delWeakMods mods).sendKeyboardReport else u

/-- `register_code`. A key already in the report is released first, so that the
    host sees a new press. -/
def registerCode (code : Byte) (u : Usb) : Usb :=
  if code = 0 then u
  else if isKey code then
    let u := if u.report.isKeyPressed u.nkro code then (u.delKey code).sendKeyboardReport else u
    (u.addKey code).sendKeyboardReport
  else if isMod code then (u.addMods (modBit code)).sendKeyboardReport
  else if isSystem code then u.systemSend (keycode2System code)
  else if isConsumer code then u.consumerSend (keycode2Consumer code)
  else u

def unregisterCode (code : Byte) (u : Usb) : Usb :=
  if code = 0 then u
  else if isKey code then (u.delKey code).sendKeyboardReport
  else if isMod code then (u.delMods (modBit code)).sendKeyboardReport
  else if isSystem code then u.systemSend 0
  else if isConsumer code then u.consumerSend 0
  else u

/-- `extract_mod_bits`: the modifiers a keycode between `QK_MODS` and
    `QK_MODS_MAX` carries, on the left or on the right. -/
def extractModBits (code : Keycode) : Byte :=
  if 0x0100 ≤ code ∧ code ≤ 0x1FFF then
    let right := code &&& 0x1000 ≠ 0
    (if code &&& 0x0100 ≠ 0 then if right then 0x10 else 0x01 else 0) |||
      (if code &&& 0x0200 ≠ 0 then if right then 0x20 else 0x02 else 0) |||
      (if code &&& 0x0400 ≠ 0 then if right then 0x40 else 0x04 else 0) |||
      (if code &&& 0x0800 ≠ 0 then if right then 0x80 else 0x08 else 0)
  else 0

/-- `IS_MOD` of a sixteen-bit keycode, or `KC_NO`. -/
def plainModOrNo (code : Keycode) : Bool :=
  (0xE0 ≤ code && code ≤ 0xE7) || code == 0

def registerCode16 (code : Keycode) (u : Usb) : Usb :=
  let u :=
    if plainModOrNo code then u.registerMods (extractModBits code)
    else u.registerWeakMods (extractModBits code)
  u.registerCode (lowByte code)

def unregisterCode16 (code : Keycode) (u : Usb) : Usb :=
  let u := u.unregisterCode (lowByte code)
  if plainModOrNo code then u.unregisterMods (extractModBits code)
  else u.unregisterWeakMods (extractModBits code)

def clearKeyboardButModsAndKeys (u : Usb) : Usb :=
  (((u.systemSend 0).consumerSend 0).clearWeakMods.clearMacroMods).sendKeyboardReport

def clearKeyboard (u : Usb) : Usb :=
  u.clearMods.clearKeys.clearKeyboardButModsAndKeys

end Usb

end K530
