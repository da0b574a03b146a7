import K530.Bluetooth.Spi
import K530.Core.Report

/-!
# The Frames Sent to the Module

Four builders, and one shape: thirty-nine bytes, the first few of them named,
the rest zero, and the last the sum of all the others.

Byte 0 is the command and tells the frames apart, save that the host switch and
the bond reset share `0xA6` and differ in byte 3. Byte 1 is the same in all
four: whether the keyboard is charging.

The host switch and the bond reset name a host by its index, one less than the
slot the selector stands at. A slot that has not been read yet has no index,
and both builders send 0 for it.

## Main definitions

* `HostSlot`: The position of the host selector.
-/

namespace K530

/-- `k530_host_slot_t`. -/
inductive HostSlot where
  | unknown
  | slot1
  | slot2
  | slot3
  deriving DecidableEq

namespace Frame

/-- `K530_CMD_KEYBOARD_6KEY` -/
def cmdKeyboard6key : Byte := 0xA1

/-- `K530_CMD_BT_CONTROL` -/
def cmdBtControl : Byte := 0xA5

/-- `K530_CMD_BT_HOST_SWITCH` -/
def cmdBtHostSwitch : Byte := 0xA6

/-- `K530_CMD_BT_UNPAIR_MARKER`: byte 3 of a bond reset. -/
def cmdBtUnpairMarker : Byte := 0x01

def hostSwitchMarker : Byte := 0x02

/-- `k530_checksum`. -/
def checksum (frame : List Byte) (lenWithoutChecksum : Nat) : Byte :=
  (frame.take lenWithoutChecksum).foldl (· + ·) 0

/-- A cleared frame with its first bytes filled in and its checksum last. -/
def sealFrame (fields : List Byte) : TxFrame :=
  let out : TxFrame := Vector.ofFn (fun i => fields.getD i.val 0)
  out.set 38 (checksum out.toList 38)

/-- `k530_mode_byte`. -/
def modeByte (charging : Bool) : Byte :=
  if charging then 0x01 else 0x02

/-- The index a slot is named by: its number less one, and 0 for a slot that
    has not been read. -/
def hostIdx : HostSlot → Byte
  | .slot1 => 0
  | .slot2 => 1
  | .slot3 => 2
  | .unknown => 0

/-- `k530_build_keyboard_frame`. -/
def buildKeyboardFrame (charging : Bool) (report : Report) : TxFrame :=
  sealFrame ([cmdKeyboard6key, modeByte charging, 8, report.mods, 0x00] ++ report.keys.toList)

/-- `k530_build_control_frame`: advertise, or drop the link. -/
def buildControlFrame (charging : Bool) (enabled : Bool) : TxFrame :=
  sealFrame [cmdBtControl, modeByte charging, 0x05, if enabled then 0x00 else 0x03, 0x0A, 0x19,
    0x00, if enabled then 0x02 else 0x01]

/-- `k530_build_host_switch_frame`. -/
def buildHostSwitchFrame (charging : Bool) (slot : HostSlot) : TxFrame :=
  sealFrame [cmdBtHostSwitch, modeByte charging, 0x05, hostSwitchMarker, hostIdx slot]

/-- `k530_build_unpair_frame`. -/
def buildUnpairFrame (charging : Bool) (slot : HostSlot) : TxFrame :=
  sealFrame [cmdBtHostSwitch, modeByte charging, 0x05, cmdBtUnpairMarker, hostIdx slot]

theorem sealFrame_getD (fields : List Byte) (i : Nat) (h : i < 38) :
    (sealFrame fields).toList.getD i 0 = fields.getD i 0 := by
  rw [List.getD_eq_getElem?_getD, Vector.getElem?_toList, Vector.getElem?_eq_getElem (by omega),
    Option.getD_some]
  unfold sealFrame
  dsimp only
  rw [Vector.getElem_set_ne _ _ (by omega), Vector.getElem_ofFn]

theorem sealFrame_checksum (fields : List Byte) :
    (sealFrame fields)[38] = checksum (sealFrame fields).toList 38 := by
  unfold sealFrame
  dsimp only
  rw [Vector.getElem_set_self]
  unfold checksum
  rw [Vector.toList_set, List.take_set_of_le (Nat.le_refl 38)]

end Frame

end K530
