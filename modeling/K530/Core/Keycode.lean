import K530.Lib.BitTable

/-!
# Bytes and Keycodes

The two fixed-width types everything is built from, and the keycodes the
keymap and its remapping name.

A keycode is sixteen bits. Values up to `0x00FF` are basic keycodes: HID
usages, modifiers, and the media keys squeezed between them. Above that the
high bits say what the key does and the low byte is often a basic keycode
again, as in `LT`, whose low byte is what a tap types. `registerCode` takes
eight bits, so whoever hands it a sixteen-bit code hands it the low byte only.

## Main definitions

* `Byte`: An eight-bit register.

## Theorems

* `hasMod_add`, `hasMod_del`: Setting and clearing the bit of one modifier.
* `mods_eq_zero_iff`: A register is empty when it has no modifier.
-/

namespace K530

/-- `uint8_t`. -/
abbrev Byte := BitVec 8

/-- A `uint16_t` keycode. -/
abbrev Keycode := BitVec 16

/-- What a `uint8_t` parameter receives of a sixteen-bit keycode. -/
def lowByte (kc : Keycode) : Byte := kc.setWidth 8

def kcNo : Keycode := 0x00
def kcTransparent : Keycode := 0x01
def kcA : Keycode := 0x04
def kcB : Keycode := 0x05
def kcC : Keycode := 0x06
def kcD : Keycode := 0x07
def kcE : Keycode := 0x08
def kcF : Keycode := 0x09
def kcG : Keycode := 0x0A
def kcH : Keycode := 0x0B
def kcI : Keycode := 0x0C
def kcJ : Keycode := 0x0D
def kcK : Keycode := 0x0E
def kcL : Keycode := 0x0F
def kcM : Keycode := 0x10
def kcN : Keycode := 0x11
def kcO : Keycode := 0x12
def kcP : Keycode := 0x13
def kcQ : Keycode := 0x14
def kcR : Keycode := 0x15
def kcS : Keycode := 0x16
def kcT : Keycode := 0x17
def kcU : Keycode := 0x18
def kcV : Keycode := 0x19
def kcW : Keycode := 0x1A
def kcX : Keycode := 0x1B
def kcY : Keycode := 0x1C
def kcZ : Keycode := 0x1D
def kc1 : Keycode := 0x1E
def kc2 : Keycode := 0x1F
def kc3 : Keycode := 0x20
def kc4 : Keycode := 0x21
def kc5 : Keycode := 0x22
def kc6 : Keycode := 0x23
def kc7 : Keycode := 0x24
def kc8 : Keycode := 0x25
def kc9 : Keycode := 0x26
def kc0 : Keycode := 0x27
def kcEnter : Keycode := 0x28
def kcEscape : Keycode := 0x29
def kcBackspace : Keycode := 0x2A
def kcTab : Keycode := 0x2B
def kcSpace : Keycode := 0x2C
def kcMinus : Keycode := 0x2D
def kcEqual : Keycode := 0x2E
def kcLeftBracket : Keycode := 0x2F
def kcRightBracket : Keycode := 0x30
def kcBackslash : Keycode := 0x31
def kcSemicolon : Keycode := 0x33
def kcQuote : Keycode := 0x34
def kcGrave : Keycode := 0x35
def kcComma : Keycode := 0x36
def kcDot : Keycode := 0x37
def kcSlash : Keycode := 0x38
def kcCapsLock : Keycode := 0x39
def kcF1 : Keycode := 0x3A
def kcF2 : Keycode := 0x3B
def kcF3 : Keycode := 0x3C
def kcF4 : Keycode := 0x3D
def kcF5 : Keycode := 0x3E
def kcF6 : Keycode := 0x3F
def kcF7 : Keycode := 0x40
def kcF8 : Keycode := 0x41
def kcF9 : Keycode := 0x42
def kcF10 : Keycode := 0x43
def kcF11 : Keycode := 0x44
def kcF12 : Keycode := 0x45
def kcPrintScreen : Keycode := 0x46
def kcInsert : Keycode := 0x49
def kcHome : Keycode := 0x4A
def kcPageUp : Keycode := 0x4B
def kcDelete : Keycode := 0x4C
def kcEnd : Keycode := 0x4D
def kcPageDown : Keycode := 0x4E
def kcRight : Keycode := 0x4F
def kcLeft : Keycode := 0x50
def kcDown : Keycode := 0x51
def kcUp : Keycode := 0x52
def kcApplication : Keycode := 0x65
def kcLockingCapsLock : Keycode := 0x82
def kcLeftCtrl : Keycode := 0xE0
def kcLeftShift : Keycode := 0xE1
def kcLeftAlt : Keycode := 0xE2
def kcLeftGui : Keycode := 0xE3
def kcRightCtrl : Keycode := 0xE4
def kcRightShift : Keycode := 0xE5
def kcRightAlt : Keycode := 0xE6
def kcRightGui : Keycode := 0xE7

/-- `IS_KEY`: `KC_A` to `KC_EXSEL`. -/
def isKey (code : Byte) : Bool := 0x04 ≤ code && code ≤ 0xA4

/-- `IS_MOD`: `KC_LEFT_CTRL` to `KC_RIGHT_GUI`. -/
def isMod (code : Byte) : Bool := 0xE0 ≤ code && code ≤ 0xE7

/-- `IS_SYSTEM`: `KC_PWR` to `KC_WAKE`. -/
def isSystem (code : Byte) : Bool := 0xA5 ≤ code && code ≤ 0xA7

/-- `IS_CONSUMER`: `KC_MUTE` to `KC_BRID`. -/
def isConsumer (code : Byte) : Bool := 0xA8 ≤ code && code ≤ 0xBE

/-- `MOD_BIT`: one bit per modifier, in report order. -/
def modBit (code : Byte) : Byte := 1#8 <<< (code &&& 0x07).toNat

/-- `LT(layer, kc)`. -/
def lt (layer : Keycode) (kc : Keycode) : Keycode :=
  0x4000 ||| ((layer &&& 0xF) <<< 8) ||| (kc &&& 0xFF)

/-- `MO(layer)`. -/
def mo (layer : Keycode) : Keycode := 0x5100 ||| (layer &&& 0xFF)

/-! ### Modifiers -/

def hasMod (mods : Byte) (code : Byte) : Bool :=
  mods.getLsbD (code &&& 0x07).toNat

theorem isMod_toNat : ∀ code : Byte, isMod code →
    (code &&& 0x07).toNat < 8 ∧ code.toNat = 0xE0 + (code &&& 0x07).toNat := by
  decide +kernel

theorem exists_isMod : ∀ i : Fin 8, ∃ code : Byte, isMod code ∧
    (code &&& 0x07).toNat = i.val := by
  decide +kernel

theorem modBit_getLsbD (code other : Byte) (h : isMod code) (hother : isMod other) :
    hasMod (modBit code) other = decide (other = code) := by
  have hc := isMod_toNat code h
  have ho := isMod_toNat other hother
  unfold hasMod modBit
  rw [BitTable.one_shiftLeft_getLsbD _ _ hc.1]
  by_cases hsame : other = code
  · rw [hsame, decide_eq_true rfl, decide_eq_true rfl]
  · rw [decide_eq_false hsame, decide_eq_false]
    intro hbit
    exact hsame (BitVec.eq_of_toNat_eq (by omega))

theorem hasMod_add (mods code other : Byte) (h : isMod code) (hother : isMod other) :
    hasMod (mods ||| modBit code) other = (hasMod mods other || decide (other = code)) := by
  rw [← modBit_getLsbD code other h hother]
  exact BitVec.getLsbD_or

theorem hasMod_del (mods code other : Byte) (h : isMod code) (hother : isMod other) :
    hasMod (mods &&& ~~~modBit code) other = (hasMod mods other && !decide (other = code)) := by
  rw [← modBit_getLsbD code other h hother]
  unfold hasMod
  rw [BitVec.getLsbD_and, BitVec.getLsbD_not, decide_eq_true (isMod_toNat other hother).1,
    Bool.true_and]

/-- A register is empty when it has no modifier. -/
theorem mods_eq_zero_iff (mods : Byte) :
    mods = 0 ↔ ∀ code, isMod code → hasMod mods code = false := by
  constructor
  · rintro rfl code _
    exact BitVec.getLsbD_zero
  · intro h
    refine BitVec.eq_of_getLsbD_eq (fun i hi => ?_)
    obtain ⟨code, hmod, hbit⟩ := exists_isMod ⟨i, hi⟩
    have hnone := h code hmod
    unfold hasMod at hnone
    rw [hbit] at hnone
    rw [hnone]
    exact BitVec.getLsbD_zero.symm

/-- A keycode of at most `0xFF` is its low byte. -/
theorem lowByte_injective (a b : Keycode) (ha : a ≤ 0xFF) (hb : b ≤ 0xFF)
    (h : lowByte a = lowByte b) : a = b := by
  unfold lowByte at h
  bv_omega

end K530
