import K530.Core.Layer

/-!
# The Keymap

The five layers of the default keymap, the keycodes it defines for itself, and
which key has which LED.

`_FN` is a plain layer. `_FN_CAPS` and `_FN2` are reached by holding keys that
type Caps Lock and Application when tapped. `_FN2_REC` is reached from `_FN2` by
holding 7 and has the keys that start and stop a recording; the keys that play
one are on `_FN_CAPS`.

Macro slots are numbered from 1 in the source and from 0 here.

## Main definitions

* `fn2Rec`, `rec1Toggle`, `macroPlay1`, `btUnpair` and so on: The keycodes of
  the keymap.

## Theorems

* `keymap_keycodes`: Every keycode of the keymap is of one of a few kinds.
-/

namespace K530

namespace Keymap

/-! ### Keycodes -/

/-- `_BASE`, `_FN`, `_FN_CAPS`, `_FN2`, `_FN2_REC`. -/
def baseLayer : Keycode := 0
def fnLayer : Keycode := 1
def fnCapsLayer : Keycode := 2
def fn2Layer : Keycode := 3
def fn2RecLayer : Keycode := 4

def reset : Keycode := 0x5C00

def rgbTog : Keycode := 0x5CC3

/-- `FN2_REC`, `SAFE_RANGE`; the other custom keycodes follow it. -/
def fn2Rec : Keycode := 0x5DA6
def rec1Toggle : Keycode := 0x5DA7
def rec2Toggle : Keycode := 0x5DA8
def rec3Toggle : Keycode := 0x5DA9
def rec4Toggle : Keycode := 0x5DAA
def rec5Toggle : Keycode := 0x5DAB
def rec6Toggle : Keycode := 0x5DAC
def macroPlay1 : Keycode := 0x5DAD
def macroPlay2 : Keycode := 0x5DAE
def macroPlay3 : Keycode := 0x5DAF
def macroPlay4 : Keycode := 0x5DB0
def macroPlay5 : Keycode := 0x5DB1
def macroPlay6 : Keycode := 0x5DB2
def btUnpair : Keycode := 0x5DB3

def fn2Tap : Keycode := lt fn2Layer kcApplication
def fnCapsTap : Keycode := lt fnCapsLayer kcCapsLock

def recSlot? (keycode : Keycode) : Option (Fin 6) :=
  if keycode = rec1Toggle then some 0
  else if keycode = rec2Toggle then some 1
  else if keycode = rec3Toggle then some 2
  else if keycode = rec4Toggle then some 3
  else if keycode = rec5Toggle then some 4
  else if keycode = rec6Toggle then some 5
  else none

def playSlot? (keycode : Keycode) : Option (Fin 6) :=
  if keycode = macroPlay1 then some 0
  else if keycode = macroPlay2 then some 1
  else if keycode = macroPlay3 then some 2
  else if keycode = macroPlay4 then some 3
  else if keycode = macroPlay5 then some 4
  else if keycode = macroPlay6 then some 5
  else none

/-! ### Layers -/

/-- `_______` -/
abbrev trns : Keycode := kcTransparent

/-- The `_BASE` layer, row by row. -/
def baseKeys : List (List Keycode) :=
  [[kcEscape, kc1, kc2, kc3, kc4, kc5, kc6, kc7, kc8, kc9, kc0, kcMinus, kcEqual, kcBackspace],
   [kcTab, kcQ, kcW, kcE, kcR, kcT, kcY, kcU, kcI, kcO, kcP, kcLeftBracket, kcRightBracket,
    kcBackslash],
   [lt fnCapsLayer kcCapsLock, kcA, kcS, kcD, kcF, kcG, kcH, kcJ, kcK, kcL, kcSemicolon, kcQuote,
    kcNo, kcEnter],
   [kcLeftShift, kcNo, kcZ, kcX, kcC, kcV, kcB, kcN, kcM, kcComma, kcDot, kcSlash, kcNo,
    kcRightShift],
   [kcLeftCtrl, kcLeftGui, kcLeftAlt, kcNo, kcNo, kcNo, kcSpace, kcNo, kcNo, kcRightAlt,
    mo fnLayer, kcNo, lt fn2Layer kcApplication, kcRightCtrl]]

/-- The `_FN` layer, row by row. -/
def fnKeys : List (List Keycode) :=
  [[kcGrave, kcF1, kcF2, kcF3, kcF4, kcF5, kcF6, kcF7, kcF8, kcF9, kcF10, kcF11, kcF12, trns],
   [trns, trns, kcUp, trns, trns, trns, trns, trns, trns, trns, kcPrintScreen, kcHome, kcEnd,
    trns],
   [trns, kcLeft, kcDown, kcRight, trns, trns, trns, trns, trns, trns, kcPageUp, kcPageDown,
    trns, trns],
   [trns, trns, trns, trns, trns, trns, trns, trns, trns, trns, kcInsert, kcDelete, trns, trns],
   [trns, trns, trns, trns, trns, trns, trns, trns, trns, trns, trns, trns, trns, reset]]

/-- The `_FN_CAPS` layer, row by row. -/
def fnCapsKeys : List (List Keycode) :=
  [[trns, macroPlay1, macroPlay2, macroPlay3, macroPlay4, macroPlay5, macroPlay6, trns, trns,
    trns, trns, trns, trns, trns],
   [trns, trns, kcUp, trns, trns, trns, trns, trns, trns, trns, trns, trns, trns, trns],
   [trns, kcLeft, kcDown, kcRight, trns, trns, trns, trns, trns, trns, trns, trns, trns, trns],
   [trns, trns, trns, trns, trns, trns, trns, trns, trns, trns, trns, trns, trns, trns],
   [trns, trns, trns, trns, trns, trns, trns, trns, trns, trns, trns, trns, trns, trns]]

/-- The `_FN2` layer, row by row. -/
def fn2Keys : List (List Keycode) :=
  [[btUnpair, trns, trns, trns, trns, trns, trns, fn2Rec, trns, trns, trns, trns, trns, rgbTog],
   [trns, trns, trns, trns, trns, trns, trns, trns, trns, trns, trns, trns, trns, trns],
   [trns, trns, trns, trns, trns, trns, trns, trns, trns, trns, trns, trns, trns, trns],
   [trns, trns, trns, trns, trns, trns, trns, trns, trns, trns, trns, trns, trns, trns],
   [trns, trns, trns, trns, trns, trns, trns, trns, trns, trns, trns, trns, trns, trns]]

/-- The `_FN2_REC` layer, row by row. -/
def fn2RecKeys : List (List Keycode) :=
  [[trns, rec1Toggle, rec2Toggle, rec3Toggle, rec4Toggle, rec5Toggle, rec6Toggle, trns, trns,
    trns, trns, trns, trns, trns],
   [trns, trns, trns, trns, trns, trns, trns, trns, trns, trns, trns, trns, trns, trns],
   [trns, trns, trns, trns, trns, trns, trns, trns, trns, trns, trns, trns, trns, trns],
   [trns, trns, trns, trns, trns, trns, trns, trns, trns, trns, trns, trns, trns, trns],
   [trns, trns, trns, trns, trns, trns, trns, trns, trns, trns, trns, trns, trns, trns]]

def keymaps : List (List (List Keycode)) :=
  [baseKeys, fnKeys, fnCapsKeys, fn2Keys, fn2RecKeys]

/-- `keymap_key_to_keycode`. No layer above the last is ever on, and what lies
    behind the array is not modelled. -/
def keymapKeyToKeycode (layer : Nat) (key : KeyPos) : Keycode :=
  ((keymaps.getD layer []).getD key.row []).getD key.col kcNo

/-- The keycodes of the keymap above `0xFF`, but those that record and play. -/
def specialKeycodes : List Keycode :=
  [mo fnLayer, fn2Tap, fnCapsTap, reset, rgbTog, btUnpair, fn2Rec]

/-- A keycode of one of the kinds the keymap has: basic, special, recording or
    playing. -/
def OfKnownKind (keycode : Keycode) : Prop :=
  keycode ≤ 0xFF ∨ keycode ∈ specialKeycodes ∨ (recSlot? keycode).isSome ∨
    (playSlot? keycode).isSome

instance (keycode : Keycode) : Decidable (OfKnownKind keycode) :=
  inferInstanceAs (Decidable (_ ∨ _ ∨ _ ∨ _))

theorem layers_keycodes : ∀ (layer row : Fin 5) (col : Fin 14),
    OfKnownKind (keymapKeyToKeycode layer { row, col }) := by
  decide +kernel

theorem keymapKeyToKeycode_of_ge (layer : Nat) (key : KeyPos) (h : 5 ≤ layer) :
    keymapKeyToKeycode layer key = kcNo := by
  have hnone : keymaps.getD layer [] = [] := by
    rw [List.getD_eq_getElem?_getD, List.getElem?_eq_none h, Option.getD_none]
  unfold keymapKeyToKeycode
  rw [hnone]
  rfl

/-- Every keycode of the keymap is of a known kind. -/
theorem keymap_keycodes (layer : Nat) (key : KeyPos) :
    OfKnownKind (keymapKeyToKeycode layer key) := by
  by_cases hlayer : layer < 5
  · exact layers_keycodes ⟨layer, hlayer⟩ key.row key.col
  · rw [keymapKeyToKeycode_of_ge layer key (Nat.not_lt.mp hlayer)]
    exact Or.inl (by decide)

/-! ### LEDs -/

def noLed : Nat := 255

/-- `g_led_config.matrix_co`. -/
def matrixCo : List (List Nat) :=
  [[0, 1, 2, 3, 4, 5, 6, 7, 8, 9, 10, 11, 12, 13],
   [14, 15, 16, 17, 18, 19, 20, 21, 22, 23, 24, 25, 26, 27],
   [28, 29, 30, 31, 32, 33, 34, 35, 36, 37, 38, 39, noLed, 40],
   [41, noLed, 42, 43, 44, 45, 46, 47, 48, 49, 50, 51, noLed, 52],
   [53, 54, 55, 61, 62, noLed, 56, noLed, noLed, 57, 58, noLed, 59, 60]]

/-- The LED of a key, as an index into the tables of the keymap, or none. -/
def reactiveLed (key : KeyPos) : Option (Fin 63) :=
  let led := (matrixCo.getD key.row []).getD key.col noLed
  if h : led < 63 then some ⟨led, h⟩ else none

end Keymap

end K530
