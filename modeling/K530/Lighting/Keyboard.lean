import K530.Keymap.User
import K530.Lighting.OpenRgb

/-!
# The Keyboard and its Lighting

The main loop's world and the lighting put together. They meet in one flag: the
hooks of the keymap turn the lighting off for the sleep and on again after it,
and the flag they see is the one in the settings. `Keyboard` carries that as its
invariant.

The keymap changes the flag through `rgb_matrix_disable_noeeprom` and
`rgb_matrix_enable_noeeprom`, which restart the task when the flag changes, and
do nothing else. `onWorld` is any part of the keymap run on the keyboard. A key
event comes to `process_rgb` after the keymap's hook, if the hook lets it.

## Main definitions

* `Keyboard`: The world and the lighting.
-/

namespace K530

structure Keyboard (d : Device) where
  world : World
  fw : Firmware d
  same : world.rgbEnabled = fw.matrix.config.enable

/-- `rgb_matrix_enable_noeeprom` or `rgb_matrix_disable_noeeprom`. -/
def RgbMatrix.setEnable (on : Bool) (m : RgbMatrix) : RgbMatrix :=
  if on then m.enableNoeeprom else m.disableNoeeprom

theorem RgbMatrix.setEnable_enable (on : Bool) (m : RgbMatrix) :
    (setEnable on m).config.enable = on := by
  cases on <;> rfl

/-- What happens to the keyboard, as far as its lighting is concerned. A packet
    is one that keeps its handler inside the arrays. -/
inductive LightEvent (d : Device) where
  /-- `process_record_user`, and `process_rgb` behind it -/
  | key (now : BitVec 32) (keycode : Keycode) (record : KeyRecord)
  /-- `raw_hid_receive` -/
  | packet (data : Packet) (fits : ∀ fw : Firmware d, (Firmware.rawHidReceive data fw).isSome)
  /-- `matrix_scan_user` -/
  | scan (now : BitVec 32) (r : Readings) (link : Byte) (anyKeyDown : Bool)
  /-- `rgb_matrix_task` -/
  | task (now : BitVec 32) (more : Bool)

namespace Keyboard

variable {d : Device}

def powerOn (d : Device) (config : KeymapConfig) (nkro : Bool) (r : Readings)
    (settings : RgbConfig) : Keyboard d where
  world := World.powerOn config nkro settings.enable r
  fw := Firmware.init settings
  same := rfl

def matrix (k : Keyboard d) : RgbMatrix := k.fw.matrix

def onWorld (f : World → World) (k : Keyboard d) : Keyboard d where
  world := f k.world
  fw := { k.fw with matrix := k.matrix.setEnable (f k.world).rgbEnabled }
  same := (RgbMatrix.setEnable_enable _ _).symm

def onFirmware (f : Firmware d → Firmware d) (k : Keyboard d) : Keyboard d where
  world := { k.world with rgbEnabled := (f k.fw).matrix.config.enable }
  fw := f k.fw
  same := rfl

/-- Run a part of `rgb_matrix.c`. -/
def onMatrix (f : RgbMatrix → RgbMatrix) : Keyboard d → Keyboard d :=
  onFirmware (fun fw => { fw with matrix := f fw.matrix })

/-- `get_mods() & MOD_MASK_SHIFT`. -/
def shifted (k : Keyboard d) : Bool := k.world.qmk.usb.realMods &&& 0x22 ≠ 0

def keyEvent (now : BitVec 32) (keycode : Keycode) (record : KeyRecord) (k : Keyboard d) :
    Keyboard d :=
  let goesOn := (World.processRecordUser now keycode record k.world).2
  let k := k.onWorld (fun w => (World.processRecordUser now keycode record w).1)
  if goesOn then
    k.onMatrix (fun m => (m.processRgb d.effectMax keycode record.pressed k.shifted).1)
  else k

def step (k : Keyboard d) : LightEvent d → Keyboard d
  | .key now keycode record => k.keyEvent now keycode record
  | .packet data fits =>
    k.onFirmware (fun fw => ((Firmware.rawHidReceive data fw).get (fits fw)).1)
  | .scan now r link anyKeyDown => k.onWorld (World.matrixScanUser now r link anyKeyDown)
  | .task now more => k.onMatrix (RgbMatrix.task now more)

end Keyboard

end K530
