import K530.Keymap.User

/-!
# Processing a Key Event

`process_record`: which keycode a key event stands for, who gets to see it, and
what is done when nobody claims it.

A press is looked up on the layers that are on and the layer is remembered; a
release is looked up on the remembered one. The keymap's hook comes first and
may end the event. Then come two of QMK's own keycodes, the lighting toggle and
the jump to the bootloader. What is left becomes an action.

The handlers of QMK that are compiled in but have no keycode on this keyboard
(its dynamic macros, Space Cadet, the magic keycodes, Grave Escape) let every
keycode of the keymap through unchanged and are left out. One-shot layers are
never active, no key setting one. The jump to the bootloader ends the run;
clearing the keyboard is all of it that shows.

## Main definitions

* `sourceLayer`, `rememberLayer`: The layer of a key event.
-/

namespace K530

namespace World

def layerSwitchGetLayer (key : KeyPos) (q : Qmk) : Nat :=
  Layers.highestLayer
    (fun layer => actionForKeycode q.config (Keymap.keymapKeyToKeycode layer key) =
      some .transparent)
    q.layers

/-- The layer a key event is looked up on: for a press the highest that has
    the key, for a release the one remembered. -/
def sourceLayer (record : KeyRecord) (q : Qmk) : Nat :=
  if record.pressed then layerSwitchGetLayer record.key q
  else (Layers.readSourceLayersCache record.key q.layers.source).toNat

def rememberLayer (record : KeyRecord) (q : Qmk) : Qmk :=
  if record.pressed then
    { q with
      layers := { q.layers with
        source := Layers.updateSourceLayersCache record.key
          (BitVec.ofNat 8 (layerSwitchGetLayer record.key q)) q.layers.source } }
  else q

def getRecordKeycode (record : KeyRecord) (q : Qmk) : Keycode :=
  Keymap.keymapKeyToKeycode (sourceLayer record q) record.key

def processRecordQuantum (now : BitVec 32) (record : KeyRecord) (w : World) : World × Bool :=
  let keycode := getRecordKeycode record w.qmk
  let user := processRecordUser now keycode record { w with qmk := rememberLayer record w.qmk }
  if !user.2 then (user.1, false)
  else if record.pressed && keycode == Keymap.rgbTog then
    ({ user.1 with rgbEnabled := !user.1.rgbEnabled }, false)
  else if record.pressed && keycode == Keymap.reset then
    ({ user.1 with qmk := user.1.qmk.onUsb Usb.clearKeyboard }, false)
  else (user.1, true)

/-- `store_or_get_action` and `process_action`. -/
def processRecordHandler (record : KeyRecord) (q : Qmk) : Qmk :=
  match actionForKeycode q.config (getRecordKeycode record q) with
  | some action =>
    (rememberLayer record q).processAction record.pressed record.tapCount action
  | none => q

def processRecord (now : BitVec 32) (record : KeyRecord) (w : World) : World :=
  let handled := processRecordQuantum now record w
  if handled.2 then
    { handled.1 with qmk := processRecordHandler record handled.1.qmk }
  else handled.1

/-! ### The actions of the keymap -/

theorem slot_range (keycode : Keycode)
    (h : (Keymap.recSlot? keycode).isSome ∨ (Keymap.playSlot? keycode).isSome) :
    0x5DA7 ≤ keycode ∧ keycode ≤ 0x5DB2 := by
  unfold Keymap.recSlot? Keymap.playSlot? at h
  by_contra hout
  have hne : ∀ own : Keycode, 0x5DA7 ≤ own → own ≤ 0x5DB2 → keycode ≠ own := by
    rintro own hlow hhigh rfl
    exact hout ⟨hlow, hhigh⟩
  rw [if_neg (hne _ (by decide) (by decide)), if_neg (hne _ (by decide) (by decide)),
    if_neg (hne _ (by decide) (by decide)), if_neg (hne _ (by decide) (by decide)),
    if_neg (hne _ (by decide) (by decide)), if_neg (hne _ (by decide) (by decide)),
    if_neg (hne _ (by decide) (by decide)), if_neg (hne _ (by decide) (by decide)),
    if_neg (hne _ (by decide) (by decide)), if_neg (hne _ (by decide) (by decide)),
    if_neg (hne _ (by decide) (by decide)), if_neg (hne _ (by decide) (by decide))] at h
  rcases h with h | h <;> exact Bool.noConfusion h

theorem actionForKeycode_quantum (c : KeymapConfig) (keycode : Keycode) (hlow : 0x5C00 ≤ keycode)
    (hhigh : keycode ≤ 0x5FFF) : actionForKeycode c keycode = some .no := by
  have habove : keycode > 0xFF := by bv_omega
  unfold actionForKeycode
  rw [keycodeConfig_above c keycode habove]
  dsimp only
  rw [if_neg (by bv_omega), if_neg (by bv_omega), if_neg, if_neg, if_pos]
  · rw [Bool.and_eq_true, decide_eq_true_eq, decide_eq_true_eq]
    exact ⟨hlow, hhigh⟩
  · rw [Bool.and_eq_true, decide_eq_true_eq, decide_eq_true_eq]
    bv_omega
  · rw [Bool.and_eq_true, decide_eq_true_eq, decide_eq_true_eq]
    bv_omega

theorem actionForKeycode_mo (c : KeymapConfig) :
    actionForKeycode c (mo Keymap.fnLayer) = some (.layerOnOff 1) := by
  unfold actionForKeycode
  rw [keycodeConfig_above c _ (by decide)]
  rfl

theorem actionForKeycode_fn2Tap (c : KeymapConfig) :
    actionForKeycode c Keymap.fn2Tap = some (.layerTapKey 3 0x65) := by
  unfold actionForKeycode
  rw [keycodeConfig_above c _ (by decide)]
  rfl

theorem actionForKeycode_fnCapsTap (c : KeymapConfig) :
    actionForKeycode c Keymap.fnCapsTap = some (.layerTapKey 2 0x39) := by
  unfold actionForKeycode
  rw [keycodeConfig_above c _ (by decide)]
  rfl

/-- The keycodes of the keymap above `0xFF` hold a layer, are one of the two
    layer-tap keys, or have no action. -/
theorem special_action (c : KeymapConfig) (keycode : Keycode) (habove : keycode > 0xFF)
    (hkind : Keymap.OfKnownKind keycode) :
    keycode = mo Keymap.fnLayer ∧ actionForKeycode c keycode = some (.layerOnOff 1) ∨
      keycode = Keymap.fn2Tap ∧ actionForKeycode c keycode = some (.layerTapKey 3 0x65) ∨
      keycode = Keymap.fnCapsTap ∧ actionForKeycode c keycode = some (.layerTapKey 2 0x39) ∨
      actionForKeycode c keycode = some .no := by
  rcases hkind with hbasic | hspecial | hslot
  · exact absurd hbasic (BitVec.not_le.mpr habove)
  · unfold Keymap.specialKeycodes at hspecial
    simp only [List.mem_cons, List.not_mem_nil, or_false] at hspecial
    rcases hspecial with rfl | rfl | rfl | rfl | rfl | rfl | rfl
    · exact Or.inl ⟨rfl, actionForKeycode_mo c⟩
    · exact Or.inr (Or.inl ⟨rfl, actionForKeycode_fn2Tap c⟩)
    · exact Or.inr (Or.inr (Or.inl ⟨rfl, actionForKeycode_fnCapsTap c⟩))
    all_goals exact Or.inr (Or.inr (Or.inr
      (actionForKeycode_quantum c _ (by decide) (by decide))))
  · have hrange := slot_range keycode hslot
    exact Or.inr (Or.inr (Or.inr
      (actionForKeycode_quantum c keycode (by bv_omega) (by bv_omega))))

end World

end K530
