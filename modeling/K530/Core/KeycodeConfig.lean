import K530.Core.Keycode

/-!
# Keycode Remapping and the Magic Keycodes

The remapping `keymap_config` asks for: swapped modifiers, a disabled GUI key,
Caps Lock as Control, and two pairs of swapped keys. It is applied when a
keycode is turned into an action, so the wire sees remapped keycodes. What
looks at keycodes before that, the Bluetooth tracker among others, does not.

## Main definitions

* `KeymapConfig`: The switches the remapping reads.

## Theorems

* `keycodeConfig_above`: Keycodes above `0xFF` are not remapped.
* `keycodeConfig_kept_or_target`: A keycode is kept, or remapped to one of a
  few.
-/

namespace K530

/-- The fields of `keymap_config_t` the remapping reads. -/
structure KeymapConfig where
  swapControlCapslock : Bool
  capslockToControl : Bool
  swapLaltLgui : Bool
  swapRaltRgui : Bool
  noGui : Bool
  swapGraveEsc : Bool
  swapBackslashBackspace : Bool
  swapLctlLgui : Bool
  swapRctlRgui : Bool
  deriving DecidableEq

def KeymapConfig.default : KeymapConfig :=
  { swapControlCapslock := false, capslockToControl := false, swapLaltLgui := false,
    swapRaltRgui := false, noGui := false, swapGraveEsc := false,
    swapBackslashBackspace := false, swapLctlLgui := false, swapRctlRgui := false }

/-- The GUI key a swap puts in a key's place, unless it is disabled. -/
def guiUnlessDisabled (c : KeymapConfig) (gui : Keycode) : Keycode :=
  if c.noGui then kcNo else gui

def keycodeConfig (c : KeymapConfig) (keycode : Keycode) : Keycode :=
  if keycode = kcCapsLock ∨ keycode = kcLockingCapsLock then
    if c.swapControlCapslock || c.capslockToControl then kcLeftCtrl else keycode
  else if keycode = kcLeftCtrl then
    if c.swapControlCapslock then kcCapsLock
    else if c.swapLctlLgui then guiUnlessDisabled c kcLeftGui
    else kcLeftCtrl
  else if keycode = kcLeftAlt then
    if c.swapLaltLgui then guiUnlessDisabled c kcLeftGui else kcLeftAlt
  else if keycode = kcLeftGui then
    if c.swapLaltLgui then kcLeftAlt
    else if c.swapLctlLgui then kcLeftCtrl
    else guiUnlessDisabled c kcLeftGui
  else if keycode = kcRightCtrl then
    if c.swapRctlRgui then guiUnlessDisabled c kcRightGui else kcRightCtrl
  else if keycode = kcRightAlt then
    if c.swapRaltRgui then guiUnlessDisabled c kcRightGui else kcRightAlt
  else if keycode = kcRightGui then
    if c.swapRaltRgui then kcRightAlt
    else if c.swapRctlRgui then kcRightCtrl
    else guiUnlessDisabled c kcRightGui
  else if keycode = kcGrave then if c.swapGraveEsc then kcEscape else kcGrave
  else if keycode = kcEscape then if c.swapGraveEsc then kcGrave else kcEscape
  else if keycode = kcBackslash then
    if c.swapBackslashBackspace then kcBackspace else kcBackslash
  else if keycode = kcBackspace then
    if c.swapBackslashBackspace then kcBackslash else kcBackspace
  else keycode

/-- Keycodes above `0xFF` are not remapped. -/
theorem keycodeConfig_above (c : KeymapConfig) (keycode : Keycode) (h : keycode > 0xFF) :
    keycodeConfig c keycode = keycode := by
  have hne : ∀ basic : Keycode, basic ≤ 0xFF → keycode ≠ basic := by
    rintro basic hbasic rfl
    exact absurd h (BitVec.not_lt.mpr hbasic)
  unfold keycodeConfig
  rw [if_neg (not_or.mpr ⟨hne _ (by decide), hne _ (by decide)⟩)]
  repeat rw [if_neg (hne _ (by decide))]

def remapTargets : List Keycode :=
  [kcNo, kcEscape, kcBackspace, kcBackslash, kcGrave, kcCapsLock, kcLeftCtrl, kcLeftAlt,
    kcLeftGui, kcRightCtrl, kcRightAlt, kcRightGui]

def KeptOrTarget (keycode a : Keycode) : Prop :=
  a = keycode ∨ a ∈ remapTargets

theorem keptOrTarget_ite (p : Prop) [Decidable p] (keycode a b : Keycode)
    (ha : KeptOrTarget keycode a) (hb : KeptOrTarget keycode b) :
    KeptOrTarget keycode (if p then a else b) := by
  by_cases hp : p
  · rw [if_pos hp]
    exact ha
  · rw [if_neg hp]
    exact hb

/-- A keycode is kept, or remapped to one of a few. -/
theorem keycodeConfig_kept_or_target (c : KeymapConfig) (keycode : Keycode) :
    KeptOrTarget keycode (keycodeConfig c keycode) := by
  unfold keycodeConfig
  repeat' apply keptOrTarget_ite
  all_goals first
    | exact Or.inl rfl
    | exact Or.inr (by decide)

theorem remapTargets_basic : remapTargets.all (fun keycode => decide (keycode ≤ 0xFF)) = true :=
  rfl

theorem keycodeConfig_basic (c : KeymapConfig) (keycode : Keycode) (h : keycode ≤ 0xFF) :
    keycodeConfig c keycode ≤ 0xFF := by
  rcases keycodeConfig_kept_or_target c keycode with hc | hc
  · rw [hc]
    exact h
  · exact of_decide_eq_true (List.all_eq_true.mp remapTargets_basic _ hc)

/-!
### The Magic Keycodes

`process_magic`: the keycodes that change the remapping switches while the
keyboard runs.

Pressing one reads the switches back from the EEPROM, changes one or two of
them, writes them out again and clears the keyboard. The event ends there. Of
the switches it can change only those the remapping reads are here; the
keycodes for the others (the report format and the handedness) do all the rest.
-/

/-- The three ranges `process_magic` answers to. -/
def isMagic (keycode : Keycode) : Bool :=
  -- MAGIC_SWAP_CONTROL_CAPSLOCK to MAGIC_TOGGLE_ALT_GUI
  (0x5C02 ≤ keycode && keycode ≤ 0x5C15) ||
  -- MAGIC_SWAP_LCTL_LGUI to MAGIC_EE_HANDS_RIGHT
  (0x5CFB ≤ keycode && keycode ≤ 0x5D03) ||
  -- MAGIC_TOGGLE_GUI
  keycode == 0x5D62

def magicConfig (keycode : Keycode) (c : KeymapConfig) : KeymapConfig :=
  -- MAGIC_SWAP_CONTROL_CAPSLOCK
  if keycode = 0x5C02 then { c with swapControlCapslock := true }
  -- MAGIC_CAPSLOCK_TO_CONTROL
  else if keycode = 0x5C03 then { c with capslockToControl := true }
  -- MAGIC_SWAP_LALT_LGUI
  else if keycode = 0x5C04 then { c with swapLaltLgui := true }
  -- MAGIC_SWAP_RALT_RGUI
  else if keycode = 0x5C05 then { c with swapRaltRgui := true }
  -- MAGIC_NO_GUI
  else if keycode = 0x5C06 then { c with noGui := true }
  -- MAGIC_SWAP_GRAVE_ESC
  else if keycode = 0x5C07 then { c with swapGraveEsc := true }
  -- MAGIC_SWAP_BACKSLASH_BACKSPACE
  else if keycode = 0x5C08 then { c with swapBackslashBackspace := true }
  -- MAGIC_SWAP_ALT_GUI
  else if keycode = 0x5C0A then { c with swapLaltLgui := true, swapRaltRgui := true }
  -- MAGIC_UNSWAP_CONTROL_CAPSLOCK
  else if keycode = 0x5C0B then { c with swapControlCapslock := false }
  -- MAGIC_UNCAPSLOCK_TO_CONTROL
  else if keycode = 0x5C0C then { c with capslockToControl := false }
  -- MAGIC_UNSWAP_LALT_LGUI
  else if keycode = 0x5C0D then { c with swapLaltLgui := false }
  -- MAGIC_UNSWAP_RALT_RGUI
  else if keycode = 0x5C0E then { c with swapRaltRgui := false }
  -- MAGIC_UNNO_GUI
  else if keycode = 0x5C0F then { c with noGui := false }
  -- MAGIC_UNSWAP_GRAVE_ESC
  else if keycode = 0x5C10 then { c with swapGraveEsc := false }
  -- MAGIC_UNSWAP_BACKSLASH_BACKSPACE
  else if keycode = 0x5C11 then { c with swapBackslashBackspace := false }
  -- MAGIC_UNSWAP_ALT_GUI
  else if keycode = 0x5C13 then { c with swapLaltLgui := false, swapRaltRgui := false }
  -- MAGIC_TOGGLE_ALT_GUI: the right side follows the left
  else if keycode = 0x5C15 then
    { c with swapLaltLgui := !c.swapLaltLgui, swapRaltRgui := !c.swapLaltLgui }
  -- MAGIC_SWAP_LCTL_LGUI
  else if keycode = 0x5CFB then { c with swapLctlLgui := true }
  -- MAGIC_SWAP_RCTL_RGUI
  else if keycode = 0x5CFC then { c with swapRctlRgui := true }
  -- MAGIC_UNSWAP_LCTL_LGUI
  else if keycode = 0x5CFD then { c with swapLctlLgui := false }
  -- MAGIC_UNSWAP_RCTL_RGUI
  else if keycode = 0x5CFE then { c with swapRctlRgui := false }
  -- MAGIC_SWAP_CTL_GUI
  else if keycode = 0x5CFF then { c with swapLctlLgui := true, swapRctlRgui := true }
  -- MAGIC_UNSWAP_CTL_GUI
  else if keycode = 0x5D00 then { c with swapLctlLgui := false, swapRctlRgui := false }
  -- MAGIC_TOGGLE_CTL_GUI
  else if keycode = 0x5D01 then
    { c with swapLctlLgui := !c.swapLctlLgui, swapRctlRgui := !c.swapLctlLgui }
  -- MAGIC_TOGGLE_GUI
  else if keycode = 0x5D62 then { c with noGui := !c.noGui }
  -- the report format and the handedness
  else c

end K530
