import K530.Bluetooth.Frame
import Mathlib.Algebra.BigOperators.Group.List.Basic

/-!
# Reading the Frames Back

What the module is sent says what it was made from. The command tells the keyboard
frame and the control frame from the two that name a host, and those two from each
other by their marker. The payload then stands at places of its own.

`Message` is what a builder is given. The slot of a host switch or a bond reset is
one the selector can stand at: a slot that has not been read is sent as the first.

## Main definitions

* `Selected`: The positions of the selector.

## Theorems

* `checksum_toNat`: The checksum is the sum of the bytes, modulo 256.
* `frame_codec`: All of it, for every message.
-/

namespace K530

namespace Frame

/-- A position of the selector. -/
abbrev Selected := { slot : HostSlot // slot ≠ .unknown }

/-- What is sent. -/
inductive Message where
  | keyboard (report : Report)
  | control (enabled : Bool)
  | hostSwitch (slot : Selected)
  | unpair (slot : Selected)

/-- The frame of a message, from its builder. -/
def build (charging : Bool) : Message → TxFrame
  | .keyboard report => buildKeyboardFrame charging report
  | .control enabled => buildControlFrame charging enabled
  | .hostSwitch slot => buildHostSwitchFrame charging slot
  | .unpair slot => buildUnpairFrame charging slot

/-- What a frame says, besides its command and its mode. -/
inductive Payload where
  | report (mods : Byte) (keys : Vector Byte 6)
  | link (enabled : Bool)
  | hostSwitch (host : Byte)
  | unpair (host : Byte)
  deriving DecidableEq

namespace Message

/-- The command a message is sent with. -/
def command : Message → Byte
  | .keyboard _ => cmdKeyboard6key
  | .control _ => cmdBtControl
  | .hostSwitch _ => cmdBtHostSwitch
  | .unpair _ => cmdBtHostSwitch

/-- What of a message is to be told from its frame. -/
def payload : Message → Payload
  | .keyboard report => .report report.mods report.keys
  | .control enabled => .link enabled
  | .hostSwitch slot => .hostSwitch (hostIdx slot)
  | .unpair slot => .unpair (hostIdx slot)

end Message

/-- A byte of a frame. -/
def byteAt (f : TxFrame) (i : Nat) : Byte := f.toList.getD i 0

/-- The payload, by the command and the marker. -/
def decodePayload (f : TxFrame) : Option Payload :=
  if byteAt f 0 = cmdKeyboard6key then
    some (.report (byteAt f 3) (Vector.ofFn (fun i => byteAt f (5 + i.val))))
  else if byteAt f 0 = cmdBtControl then some (.link (byteAt f 7 == 0x02))
  else if byteAt f 0 = cmdBtHostSwitch then
    if byteAt f 3 = hostSwitchMarker then some (.hostSwitch (byteAt f 4))
    else if byteAt f 3 = cmdBtUnpairMarker then some (.unpair (byteAt f 4))
    else none
  else none

/-- The command, the mode and the payload of a frame. -/
def decodeFrame (f : TxFrame) : Option (Byte × Byte × Payload) :=
  (decodePayload f).map (fun payload => (byteAt f 0, byteAt f 1, payload))

/-! ### The checksum -/

theorem foldl_add_toNat (bytes : List Byte) (sum : Byte) :
    (bytes.foldl (· + ·) sum).toNat = (sum.toNat + (bytes.map BitVec.toNat).sum) % 256 := by
  induction bytes generalizing sum with
  | nil =>
    rw [List.foldl_nil, List.map_nil, List.sum_nil, Nat.add_zero]
    exact (Nat.mod_eq_of_lt sum.isLt).symm
  | cons b bytes ih =>
    rw [List.foldl_cons, ih, List.map_cons, List.sum_cons, BitVec.toNat_add]
    omega

theorem checksum_toNat (frame : List Byte) (len : Nat) :
    (checksum frame len).toNat = ((frame.take len).map BitVec.toNat).sum % 256 := by
  unfold checksum
  rw [foldl_add_toNat]
  simp

/-! ### Decoding -/

theorem byteAt_sealFrame (fields : List Byte) (i : Nat) (h : i < 38) :
    byteAt (sealFrame fields) i = fields.getD i 0 :=
  sealFrame_getD fields i h

theorem decodePayload_keyboard (charging : Bool) (report : Report) :
    decodePayload (buildKeyboardFrame charging report) =
      some (.report report.mods report.keys) := by
  unfold decodePayload buildKeyboardFrame
  have hkeys : Vector.ofFn (fun i : Fin 6 => byteAt (sealFrame ([cmdKeyboard6key,
      modeByte charging, 8, report.mods, 0x00] ++ report.keys.toList)) (5 + i.val)) =
        report.keys := by
    ext i hi
    rw [Vector.getElem_ofFn, byteAt_sealFrame _ _ (by omega), List.getD_eq_getElem?_getD,
      List.getElem?_append_right (by simp)]
    simp [hi]
  rw [byteAt_sealFrame _ 0 (by decide), byteAt_sealFrame _ 3 (by decide), hkeys]
  rfl

theorem decodePayload_control (charging enabled : Bool) :
    decodePayload (buildControlFrame charging enabled) = some (.link enabled) := by
  unfold decodePayload buildControlFrame
  rw [byteAt_sealFrame _ 0 (by decide), byteAt_sealFrame _ 7 (by decide)]
  cases enabled <;> rfl

theorem decodePayload_hostSwitch (charging : Bool) (slot : HostSlot) :
    decodePayload (buildHostSwitchFrame charging slot) = some (.hostSwitch (hostIdx slot)) := by
  unfold decodePayload buildHostSwitchFrame
  rw [byteAt_sealFrame _ 0 (by decide), byteAt_sealFrame _ 3 (by decide),
    byteAt_sealFrame _ 4 (by decide)]
  rfl

theorem decodePayload_unpair (charging : Bool) (slot : HostSlot) :
    decodePayload (buildUnpairFrame charging slot) = some (.unpair (hostIdx slot)) := by
  unfold decodePayload buildUnpairFrame
  rw [byteAt_sealFrame _ 0 (by decide), byteAt_sealFrame _ 3 (by decide),
    byteAt_sealFrame _ 4 (by decide)]
  rfl

theorem build_head (charging : Bool) (m : Message) :
    byteAt (build charging m) 0 = m.command ∧ byteAt (build charging m) 1 = modeByte charging := by
  cases m
  all_goals exact ⟨byteAt_sealFrame _ 0 (by decide), byteAt_sealFrame _ 1 (by decide)⟩

theorem decodeFrame_build (charging : Bool) (m : Message) :
    decodeFrame (build charging m) = some (m.command, modeByte charging, m.payload) := by
  have hpayload : decodePayload (build charging m) = some m.payload := by
    cases m with
    | keyboard report => exact decodePayload_keyboard charging report
    | control enabled => exact decodePayload_control charging enabled
    | hostSwitch slot => exact decodePayload_hostSwitch charging slot
    | unpair slot => exact decodePayload_unpair charging slot
  unfold decodeFrame
  rw [hpayload, (build_head charging m).1, (build_head charging m).2]
  rfl

theorem build_checksum (charging : Bool) (m : Message) :
    byteAt (build charging m) 38 = checksum (build charging m).toList 38 := by
  unfold byteAt
  rw [List.getD_eq_getElem?_getD, Vector.getElem?_toList,
    Vector.getElem?_eq_getElem (by decide), Option.getD_some]
  cases m
  all_goals exact sealFrame_checksum _

theorem modeByte_injective (a b : Bool) (h : modeByte a = modeByte b) : a = b := by
  cases a <;> cases b <;> simp_all [modeByte]

theorem hostIdx_injective (a b : Selected) (h : hostIdx a = hostIdx b) : a = b := by
  have hinj : ∀ a b : HostSlot, a ≠ .unknown → b ≠ .unknown → hostIdx a = hostIdx b → a = b := by
    intro a b ha hb
    cases a <;> cases b <;> simp_all [hostIdx]
  exact Subtype.ext (hinj a b a.property b.property h)

/-- A frame has thirty-nine bytes, of which the last is the sum of the others. The decoder
    recovers its command, its mode and its payload, so that frames that differ in any of
    them are different, and so are those of two different slots. -/
theorem frame_codec (charging : Bool) (m : Message) :
    (build charging m).toList.length = 39 ∧
      (byteAt (build charging m) 38).toNat =
        (((build charging m).toList.take 38).map BitVec.toNat).sum % 256 ∧
      decodeFrame (build charging m) = some (m.command, modeByte charging, m.payload) ∧
      (∀ charging' m', build charging m = build charging' m' →
        charging = charging' ∧ m.command = m'.command ∧ m.payload = m'.payload) ∧
      ∀ slot slot' : Selected, hostIdx slot = hostIdx slot' → slot = slot' := by
  refine ⟨Vector.length_toList, ?_, decodeFrame_build charging m, fun charging' m' h => ?_,
    hostIdx_injective⟩
  · rw [build_checksum, checksum_toNat]
  · -- the decoder says the same of both
    have hsame := decodeFrame_build charging m
    rw [h, decodeFrame_build charging' m', Option.some.injEq] at hsame
    simp only [Prod.mk.injEq] at hsame
    obtain ⟨hcommand, hmode, hpayload⟩ := hsame
    exact ⟨modeByte_injective _ _ hmode.symm, hcommand.symm, hpayload.symm⟩

end Frame

end K530
