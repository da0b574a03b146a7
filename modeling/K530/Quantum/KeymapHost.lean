import K530.Quantum.ActionCode
import K530.Quantum.Tapping

/-!
# The Keymap Behind Tapping

What the tapping code hands records to, for a keymap of basic keys, modifiers,
momentary layers and layer-tap keys.

`process_record` looks a key event up twice, once for its keycode and once for
its action. None of the handlers in between ends an event of such a key, and
none changes a layer, so the two find the same. A press is looked up on the
layers that are on; a release on the layer that its press was found on.

Nothing here writes to the record.

## Main definitions

* `ActionCode.action?`: The action of a code.

## Theorems

* `OrdinaryKeymap.action_cases`: The actions its keys have.
-/

namespace K530

/-- The action of a code, of the kinds that `Action` has. -/
def ActionCode.action? (a : ActionCode) : Option Action :=
  if a.kindId = actMods then some (.mods false ((a >>> 8).setWidth 8 &&& 0x0F) a.keyCode)
  else if a.kindId = actRightMods then
    some (.mods true ((a >>> 8).setWidth 8 &&& 0x0F) a.keyCode)
  else if a.kindId = actUsage then
    -- `usage.page`
    if (a >>> 10) &&& 0x3 = 0 then some (.system (a &&& 0x3FF))
    else if (a >>> 10) &&& 0x3 = 1 then some (.consumer (a &&& 0x3FF))
    else none
  else if a.kindId = actLayerTap ∨ a.kindId = actLayerTapExt then
    if a.keyCode = opOnOff then some (.layerOnOff a.layerTapVal)
    else if a.keyCode ≤ 0xE7 then some (.layerTapKey a.layerTapVal a.keyCode)
    else none
  else none

/-- `is_tap_action`. -/
def Action.isTap : Action → Bool
  | .layerTapKey _ _ => true
  | _ => false

/-- The actions whose release is retained till the end of a tapping: modifiers. -/
def Action.isRetained : Action → Bool
  | .mods _ mask code => mask ≠ 0 && code = 0 || isMod code
  | _ => false

/-- A basic keycode, a modifier, `MO` or `LT`. -/
def isOrdinary (keycode : Keycode) : Bool :=
  -- not a function key
  keycode ≤ 0xFF && !(0xC0 ≤ keycode && keycode ≤ 0xDF) ||
    0x4000 ≤ keycode && keycode ≤ 0x4FFF && lowByte keycode ≤ 0xE7 ||
    0x5100 ≤ keycode && keycode ≤ 0x511F

/-- A keymap of basic keys, modifiers, momentary layers and layer-tap keys. -/
structure OrdinaryKeymap where
  /-- `keymap_key_to_keycode` -/
  keycode : Nat → KeyPos → Keycode
  /-- `keymap_function_id_to_action` -/
  functions : BitVec 16 → ActionCode
  ordinary : ∀ layer key, isOrdinary (keycode layer key) = true

namespace OrdinaryKeymap

def actionForKey (m : OrdinaryKeymap) (c : KeymapConfig) (layer : Nat) (key : KeyPos) :
    Option Action :=
  (actionCodeForKeycode m.functions c (m.keycode layer key)).action?

def layerSwitchGetLayer (m : OrdinaryKeymap) (key : KeyPos) (q : Qmk) : Nat :=
  Layers.highestLayer (fun layer => m.actionForKey q.config layer key = some .transparent) q.layers

def layerSwitchGetAction (m : OrdinaryKeymap) (key : KeyPos) (q : Qmk) : Option Action :=
  m.actionForKey q.config (m.layerSwitchGetLayer key q) key

def sourceLayer (key : KeyPos) (q : Qmk) : Nat :=
  (Layers.readSourceLayersCache key q.layers.source).toNat

def lookUp (m : OrdinaryKeymap) (pressed : Bool) (key : KeyPos) (q : Qmk) : Qmk :=
  if pressed then
    { q with
      layers := { q.layers with
        source := Layers.updateSourceLayersCache key
          (BitVec.ofNat 8 (m.layerSwitchGetLayer key q)) q.layers.source } }
  else q

def eventLayer (m : OrdinaryKeymap) (pressed : Bool) (key : KeyPos) (q : Qmk) : Nat :=
  if pressed then m.layerSwitchGetLayer key q else sourceLayer key q

/-- `process_record`: `get_record_keycode`, and then `store_or_get_action` and
    `process_action`. -/
def processRecord (m : OrdinaryKeymap) (r : TapRecord KeyPos) (q : Qmk) : Qmk :=
  let seen := m.lookUp r.pressed r.key q
  let stored := m.lookUp r.pressed r.key seen
  match m.actionForKey q.config (m.eventLayer r.pressed r.key seen) r.key with
  | some action => stored.processAction r.pressed r.tap.count action
  | none => stored

/-- The rest of the firmware, with one tapping term for all keys. -/
def host (m : OrdinaryKeymap) (term : Nat) : TapHost KeyPos Qmk where
  isTap q key := (m.layerSwitchGetAction key q).any Action.isTap
  retained q r := (m.layerSwitchGetAction r.key q).any Action.isRetained
  term _ _ _ := term
  process q r := (m.processRecord r q, Written.nothing)
  clearWeakMods q := q.onUsb Usb.clearWeakMods
  clearKeyboard q := q.onUsb Usb.clearKeyboard

def start (nkro : Bool) (default : BitVec 32) (config : KeymapConfig) : Qmk :=
  { usb := Usb.init nkro, layers := { Layers.init with default }, config }

/-! ### The actions of its keys -/

theorem usage_action : ∀ low : Byte,
    (ActionCode.make ActionCode.actMods (low.setWidth 16)).action? = some (.mods false 0 low) ∧
      (ActionCode.make ActionCode.actUsage (keycode2System low)).action? =
        some (.system (keycode2System low)) ∧
      (ActionCode.make ActionCode.actUsage (1#16 <<< 10 ||| keycode2Consumer low)).action? =
        some (.consumer (keycode2Consumer low)) := by
  decide +kernel

theorem layerTap_layer : ∀ layer : Fin 16,
    let a := ActionCode.layerTap (BitVec.ofNat 16 layer.val) 0
    a.kindId = ActionCode.actLayerTap ∧ a.keyCode = 0#8 ∧
      (a >>> 8) &&& 0x1F = BitVec.ofNat 16 layer.val := by
  decide +kernel

theorem layerTap_key (low : Byte) :
    ActionCode.kindId (low.setWidth 16) = 0#16 ∧ ActionCode.keyCode (low.setWidth 16) = low ∧
      (low.setWidth 16 >>> 8) &&& 0x1F = 0#16 := by
  have hupper : low.setWidth 16 >>> 8 = 0#16 := by
    bv_omega
  refine ⟨?_, ?_, ?_⟩
  · unfold ActionCode.kindId
    bv_omega
  · unfold ActionCode.keyCode
    simp
  · rw [hupper]
    rfl

/-- A layer-tap code with a key. -/
theorem layerTap_action (layer : Fin 16) (low : Byte) (h : low ≤ 0xE7) :
    (ActionCode.layerTap (BitVec.ofNat 16 layer.val) (low.setWidth 16)).action? =
      some (.layerTapKey layer.val low) := by
  have hparts : ActionCode.layerTap (BitVec.ofNat 16 layer.val) (low.setWidth 16) =
      ActionCode.layerTap (BitVec.ofNat 16 layer.val) 0 ||| low.setWidth 16 := by
    simp only [ActionCode.layerTap, ActionCode.make, BitVec.or_assoc, BitVec.ofNat_eq_ofNat,
      BitVec.zero_or]
  rcases layerTap_layer layer with ⟨hkind, hcode, hlayer⟩
  rcases layerTap_key low with ⟨hkind', hcode', hlayer'⟩
  have hkindId : (ActionCode.layerTap (BitVec.ofNat 16 layer.val) (low.setWidth 16)).kindId =
      ActionCode.actLayerTap := by
    unfold ActionCode.kindId at hkind hkind' ⊢
    rw [hparts, BitVec.ushiftRight_or_distrib, hkind, hkind', BitVec.or_zero]
  have hkeyCode : (ActionCode.layerTap (BitVec.ofNat 16 layer.val) (low.setWidth 16)).keyCode =
      low := by
    unfold ActionCode.keyCode at hcode hcode' ⊢
    rw [hparts, BitVec.setWidth_or, hcode, hcode', BitVec.zero_or]
  have hval : (ActionCode.layerTap (BitVec.ofNat 16 layer.val) (low.setWidth 16)).layerTapVal =
      layer.val := by
    have hlt := layer.isLt
    unfold ActionCode.layerTapVal
    rw [hparts, BitVec.ushiftRight_or_distrib, BitVec.and_or_distrib_right, hlayer, hlayer',
      BitVec.or_zero, BitVec.toNat_ofNat, Nat.mod_eq_of_lt (by omega)]
  have hop : low ≠ ActionCode.opOnOff := by
    rintro rfl
    exact absurd h (by decide)
  unfold ActionCode.action?
  rw [hkindId, hkeyCode, hval, if_neg (by decide), if_neg (by decide), if_neg (by decide),
    if_pos (Or.inl rfl), if_neg hop, if_pos h]

theorem momentary_action : ∀ layer : Fin 32,
    (ActionCode.layerTap (BitVec.ofNat 16 layer.val) 0xF1).action? =
      some (.layerOnOff layer.val) := by
  decide +kernel

def basicActions (low : Byte) : List Action :=
  [.mods false 0 low, .system (keycode2System low), .consumer (keycode2Consumer low), .transparent,
    .no]

variable (functions : BitVec 16 → ActionCode) (c : KeymapConfig) (keycode : Keycode)

theorem basic_action (hbasic : keycodeConfig c keycode ≤ 0xFF)
    (hfunction : ¬ (0xC0 ≤ keycodeConfig c keycode ∧ keycodeConfig c keycode ≤ 0xDF)) :
    ∃ action ∈ basicActions (lowByte (keycodeConfig c keycode)),
      (actionCodeForKeycode functions c keycode).action? = some action := by
  have hlow : keycodeConfig c keycode = (lowByte (keycodeConfig c keycode)).setWidth 16 := by
    unfold lowByte
    bv_omega
  unfold actionCodeForKeycode
  generalize keycodeConfig c keycode = remapped at hbasic hfunction hlow ⊢
  dsimp only
  rw [if_pos hbasic]
  split
  · refine ⟨_, List.mem_cons_self, ?_⟩
    have hkey := (usage_action (lowByte remapped)).1
    rwa [← hlow] at hkey
  · split
    · exact ⟨_, List.mem_cons_of_mem _ List.mem_cons_self, (usage_action _).2.1⟩
    · split
      · exact ⟨_, List.mem_cons_of_mem _ (List.mem_cons_of_mem _ List.mem_cons_self),
          (usage_action _).2.2⟩
      · split
        · exact ⟨.transparent, by simp [basicActions], by decide⟩
        · rw [if_neg (by simpa using hfunction)]
          exact ⟨.no, by simp [basicActions], by decide⟩


theorem and_lowByte : keycode &&& 0xFF = (lowByte keycode).setWidth 16 := by
  have hmod : keycode.toNat &&& 0xFF = keycode.toNat % 256 := Nat.and_two_pow_sub_one_eq_mod _ 8
  refine BitVec.eq_of_toNat_eq ?_
  rw [BitVec.toNat_and, show (0xFF : BitVec 16).toNat = 0xFF from rfl, hmod]
  unfold lowByte
  rw [BitVec.toNat_setWidth, BitVec.toNat_setWidth]
  omega

theorem remapped_not_function (h : ¬ (0xC0 ≤ keycode ∧ keycode ≤ 0xDF)) :
    ¬ (0xC0 ≤ keycodeConfig c keycode ∧ keycodeConfig c keycode ≤ 0xDF) := by
  have htargets : remapTargets.all
      (fun target => !(0xC0 ≤ target && target ≤ 0xDF)) = true := rfl
  rcases keycodeConfig_kept_or_target c keycode with heq | hmem
  · rw [heq]
    exact h
  · have hnot := List.all_eq_true.mp htargets _ hmem
    rw [Bool.not_eq_true', Bool.and_eq_false_iff, decide_eq_false_iff_not,
      decide_eq_false_iff_not] at hnot
    exact fun hboth => hnot.elim (fun h => h hboth.1) (fun h => h hboth.2)

theorem layerTap_keycode (hlow : 0x4000 ≤ keycode) (hhigh : keycode ≤ 0x4FFF)
    (hcode : lowByte keycode ≤ 0xE7) :
    (actionCodeForKeycode functions c keycode).action? =
      some (.layerTapKey ((keycode >>> 8) &&& 0xF).toNat (lowByte keycode)) := by
  have hcodes : actionCodeForKeycode functions c keycode =
      ActionCode.layerTap ((keycode >>> 8) &&& 0xF) (keycode &&& 0xFF) := by
    unfold actionCodeForKeycode
    rw [keycodeConfig_above c keycode (by bv_omega)]
    dsimp only
    rw [if_neg (by bv_omega), if_neg (by bv_omega), if_neg (by bv_omega), if_neg (by bv_omega),
      if_pos hhigh]
  have hlayer : ((keycode >>> 8) &&& 0xF).toNat < 16 := by
    rw [BitVec.toNat_and]
    exact Nat.lt_of_le_of_lt Nat.and_le_right (by decide)
  rw [hcodes, and_lowByte]
  have h := layerTap_action ⟨_, hlayer⟩ (lowByte keycode) hcode
  rwa [BitVec.ofNat_toNat, BitVec.setWidth_eq] at h

theorem momentary_keycode (hlow : 0x5100 ≤ keycode) (hhigh : keycode ≤ 0x511F) :
    (actionCodeForKeycode functions c keycode).action? =
      some (.layerOnOff (keycode &&& 0xFF).toNat) := by
  have hcodes : actionCodeForKeycode functions c keycode =
      ActionCode.layerTap (keycode &&& 0xFF) 0xF1 := by
    unfold actionCodeForKeycode
    rw [keycodeConfig_above c keycode (by bv_omega)]
    dsimp only
    rw [if_neg (by bv_omega), if_neg (by bv_omega), if_neg (by bv_omega), if_neg (by bv_omega),
      if_neg (by bv_omega), if_neg (by bv_omega), if_pos (by bv_omega)]
  have hlayer : (keycode &&& 0xFF).toNat < 32 := by
    rw [and_lowByte]
    unfold lowByte
    bv_omega
  rw [hcodes]
  have h := momentary_action ⟨_, hlayer⟩
  rwa [BitVec.ofNat_toNat, BitVec.setWidth_eq] at h

/-- The actions a key of such a keymap can have. -/
theorem action_cases (m : OrdinaryKeymap) (c : KeymapConfig) (layer : Nat) (key : KeyPos) :
    (∃ low, ∃ action ∈ basicActions low, m.actionForKey c layer key = some action) ∨
      (∃ on code, m.actionForKey c layer key = some (.layerTapKey on code)) ∨
      ∃ on, m.actionForKey c layer key = some (.layerOnOff on) := by
  have hordinary := m.ordinary layer key
  simp only [isOrdinary, Bool.or_eq_true, Bool.and_eq_true, decide_eq_true_eq, Bool.not_eq_true',
    Bool.and_eq_false_iff, decide_eq_false_iff_not] at hordinary
  rcases hordinary with (⟨hbasic, hfunction⟩ | ⟨⟨hlow, hhigh⟩, hcode⟩) | ⟨hlow, hhigh⟩
  · refine Or.inl ⟨_, basic_action m.functions c _ (keycodeConfig_basic c _ hbasic)
      (remapped_not_function c _ ?_)⟩
    rintro ⟨h1, h2⟩
    exact hfunction.elim (fun h => h h1) (fun h => h h2)
  · exact Or.inr (Or.inl ⟨_, _, layerTap_keycode m.functions c _ hlow hhigh hcode⟩)
  · exact Or.inr (Or.inr ⟨_, momentary_keycode m.functions c _ hlow hhigh⟩)

end OrdinaryKeymap

end K530
