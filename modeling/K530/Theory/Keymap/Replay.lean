import K530.Theory.Keymap.Registers

/-!
# What a Replay Registers

When the replay of a recorded keycode registers nothing that the keycode itself
does not.

The recorder takes whatever keycode passes by. A key event is looked at by a
dozen handlers and becomes an action by its upper byte; the replay hands the
same sixteen bits to `register_code16`, which knows modifiers and a low byte.
So every keycode whose low byte is not its meaning types that byte: the key of
a layer types the letter that the number of the layer is the code of.

A range of keycodes at a time, `original_registers_iff` says when the keycode
itself registers what its low byte stands for. The rest of a replay, its
modifiers and what it tracks for Bluetooth, the keycode always registers too.

## Main definitions

* `Setting.Mirrors`: The press of a keycode registers its low byte.

## Theorems

* `extractModBits_eq`: The modifiers of a keycode, from its upper byte.
* `replay_faithful_iff`: When a replay is faithful.
-/

namespace K530

open HidCall

/-! ### When a replay is faithful -/

/-- Five bits of modifiers: the side is the fifth. -/
def ActionCode.sideMods (mods : Byte) : Byte :=
  if mods.getLsbD 4 then (mods &&& 0x0F) <<< 4 else mods &&& 0x0F

/-- The calls make the host see what the code would. -/
def HidCall.Covers (calls : List HidCall) (code : Byte) : Prop :=
  ∃ usage, codeUsage? code = some usage ∧ Registers calls usage

/-- The code is a modifier, and the register has it. -/
def IsHeld (mods code : Byte) : Prop := isMod code = true ∧ hasMod mods code = true

namespace Setting

/-- The modifiers a one-shot modifier registers. -/
def oneShotHeld (s : Setting) (press : Tap) (mods : Byte) : Byte :=
  if s.oneshotDisable then mods else if press.count = 1 then 0 else mods ||| s.oneshotMods

/-- The press of a keycode registers what its low byte stands for. -/
def Mirrors (s : Setting) (press : Tap) (keycode : Keycode) : Prop :=
  -- a basic keycode that is not remapped
  if keycode ≤ 0xFF then keycodeConfig s.config keycode = keycode
  -- QK_MODS
  else if keycode ≤ 0x1FFF then True
  -- QK_FUNCTION
  else if keycode ≤ 0x2FFF then
    Covers (s.processAction press (s.functions (keycode &&& 0xFFF)) true) (lowByte keycode)
  else if keycode ≤ 0x3FFF then False
  -- QK_LAYER_TAP, tapped
  else if keycode ≤ 0x4FFF then press.count > 0
  else if keycode ≤ 0x54FF then False
  -- QK_ONE_SHOT_MOD
  else if keycode ≤ 0x55FF then
    IsHeld (s.oneShotHeld press (ActionCode.sideMods (modConfig s.config (lowByte keycode))))
      (lowByte keycode)
  else if keycode ≤ 0x58FF then False
  -- QK_LAYER_MOD
  else if keycode ≤ 0x59FF then
    IsHeld (modConfig s.config (lowByte keycode &&& 0xF)) (lowByte keycode)
  else if keycode ≤ 0x5FFF then
    (keycode = dynMacroPlay1 ∨ keycode = dynMacroPlay2) ∧ s.dynamicRecording = false ∧
      Covers (s.dynamicMacro keycode) (lowByte keycode)
  -- QK_MOD_TAP, tapped or held
  else if keycode ≤ 0x7FFF then
    press.count > 0 ∧ press.interrupted = false ∨
      IsHeld (ActionCode.sideMods (modConfig s.config (((keycode >>> 8) &&& 0x1F).setWidth 8)))
        (lowByte keycode)
  else False

/-- A replay of the keycode registers nothing that the keycode itself does not. -/
def Replayable (s : Setting) (press : Tap) (keycode : Keycode) : Prop :=
  s.btOn = true ∨ codeUsage? (lowByte keycode) = none ∨ s.Mirrors press keycode

end Setting

/-! ### Codes with a key in their low byte -/

namespace ActionCode

theorem or_low (hi : ActionCode) (low : Byte) (h : hi.keyCode = 0) :
    (hi ||| low.setWidth 16).kindId = hi.kindId ∧ (hi ||| low.setWidth 16).keyMods = hi.keyMods ∧
      (hi ||| low.setWidth 16).keyCode = low := by
  have hkind : low.setWidth 16 >>> 12 = 0#16 := by
    bv_omega
  have hmods : low.setWidth 16 >>> 8 = 0#16 := by
    bv_omega
  unfold keyCode at h
  refine ⟨?_, ?_, ?_⟩
  · unfold kindId
    rw [BitVec.ushiftRight_or_distrib, hkind, BitVec.or_zero]
  · unfold keyMods
    rw [BitVec.ushiftRight_or_distrib, hmods, BitVec.or_zero]
  · unfold keyCode
    rw [BitVec.setWidth_or, h]
    simp

/-- The fields of the codes that a byte goes into: five bits of modifiers, with a
    key or to be tapped; a key, a system and a media usage; and a layer with
    modifiers. -/
theorem code_fields : ∀ byte : Byte,
    (let a := make actMods ((byte.setWidth 16 &&& 0x1F) <<< 8);
      a.keyCode = 0 ∧ (a.kindId = actMods ∨ a.kindId = actRightMods) ∧
        (if a.kindId = actMods then a.keyMods else a.keyMods <<< 4) = sideMods byte) ∧
      (let a := make actModsTap ((byte.setWidth 16 &&& 0x1F) <<< 8);
        a.keyCode = 0 ∧ (a.kindId = actModsTap ∨ a.kindId = actRightModsTap) ∧
          (if a.kindId = actModsTap then a.keyMods else a.keyMods <<< 4) = sideMods byte) ∧
      (let a := make actMods (byte.setWidth 16);
        a.kindId = actMods ∧ a.keyMods = 0 ∧ a.keyCode = byte) ∧
      (let a := make actUsage (keycode2System byte);
        a.kindId = actUsage ∧ (a >>> 10) &&& 0x3 = 0 ∧ a &&& 0x3FF = keycode2System byte) ∧
      (let a := make actUsage (1#16 <<< 10 ||| keycode2Consumer byte);
        a.kindId = actUsage ∧ (a >>> 10) &&& 0x3 = 1 ∧ a &&& 0x3FF = keycode2Consumer byte) ∧
      (let a := make actLayerMods (((byte.setWidth 16 >>> 4) &&& (0xF : BitVec 16)) <<< 8);
        a.kindId = actLayerMods ∧ a.keyCode = 0) := by
  decide +kernel

def isQuiet (a : ActionCode) : Bool :=
  a.kindId == actLayer || 0xC ≤ a.kindId ||
    (a.kindId == actLayerTap || a.kindId == actLayerTapExt) && Setting.isLayerTapOp a.keyCode

theorem code_isQuiet : ∀ low : Byte,
    (isQuiet (layerBit 3 (low.setWidth 16 &&& 0xF) ((low.setWidth 16 >>> 4) &&& 0x3)) = true ∧
        isQuiet (layerBit 3 (low.setWidth 16) 0) ∧
        isQuiet (layerBit 2 (low.setWidth 16) 2)) ∧
      isQuiet (layerTap (low.setWidth 16) 0xF1) ∧
      isQuiet (layerTap (low.setWidth 16) 0xF4) ∧
      isQuiet (layerTap (low.setWidth 16) 0xF0) ∧
      isQuiet (make actMacro (low.setWidth 16)) ∧
      isQuiet (make actMacro (0x8#16 <<< 8 ||| low.setWidth 16)) = true := by
  decide +kernel

end ActionCode

/-! ### The codes of the keycodes -/

section Codes

open OrdinaryKeymap (and_lowByte)

variable (functions : BitVec 16 → ActionCode) (c : KeymapConfig) (keycode : Keycode)

theorem layer_fields :
    keycode &&& 0xF = (lowByte keycode).setWidth 16 &&& 0xF ∧
      (keycode >>> 4) &&& 0x3 = ((lowByte keycode).setWidth 16 >>> 4) &&& 0x3 ∧
      (keycode >>> 4) &&& (0xF : BitVec 16) =
        ((lowByte keycode).setWidth 16 >>> 4) &&& (0xF : BitVec 16) := by
  rw [← and_lowByte]
  refine ⟨?_, ?_, ?_⟩
  · rw [BitVec.and_assoc]
    rfl
  · rw [BitVec.ushiftRight_and_distrib, BitVec.and_assoc]
    rfl
  · rw [BitVec.ushiftRight_and_distrib, BitVec.and_assoc]
    rfl

theorem actionCode_quiet (h : 0x3000 ≤ keycode ∧ keycode ≤ 0x3FFF ∨
      0x5000 ≤ keycode ∧ keycode ≤ 0x54FF ∨ 0x5800 ≤ keycode ∧ keycode ≤ 0x58FF) :
    (actionCodeForKeycode functions c keycode).isQuiet := by
  obtain ⟨⟨hto, hdefault, htoggle⟩, hmomentary, honeshot, htap, hmacro, hmacroOpt⟩ :=
    ActionCode.code_isQuiet (lowByte keycode)
  obtain ⟨hlayer, hwhen, -⟩ := layer_fields keycode
  rw [← hlayer, ← hwhen] at hto
  rw [← and_lowByte] at *
  unfold actionCodeForKeycode
  rw [keycodeConfig_above c keycode (by bv_omega)]
  dsimp only
  rw [if_neg (by bv_omega), if_neg (by bv_omega), if_neg (by bv_omega)]
  rcases h with h | h | h
  · rw [if_pos h.2]
    split
    · exact hmacroOpt
    · exact hmacro
  · rw [if_neg (by bv_omega), if_neg (by bv_omega)]
    repeat' split
    all_goals first
      | assumption
      | bv_omega
  · rw [if_neg (by bv_omega), if_neg (by bv_omega), if_neg (by bv_omega), if_neg (by bv_omega),
      if_neg (by bv_omega), if_neg (by bv_omega), if_neg (by bv_omega), if_neg (by bv_omega),
      if_pos (by simpa using h)]
    exact htap

theorem actionCode_mods (hlow : 0x0100 ≤ keycode) (hhigh : keycode ≤ 0x1FFF) :
    actionCodeForKeycode functions c keycode =
      ActionCode.make ActionCode.actMods
          (((((keycode >>> 8).setWidth 8 : Byte).setWidth 16) &&& 0x1F) <<< 8) |||
        (lowByte keycode).setWidth 16 := by
  have hupper : (((keycode >>> 8).setWidth 8 : Byte).setWidth 16) = keycode >>> 8 := by
    bv_omega
  unfold actionCodeForKeycode
  rw [keycodeConfig_above c keycode (by bv_omega)]
  dsimp only
  rw [if_neg (by bv_omega), if_pos hhigh, hupper, and_lowByte, ActionCode.make, ActionCode.make,
    BitVec.or_assoc]

theorem actionCode_function (hlow : 0x2000 ≤ keycode) (hhigh : keycode ≤ 0x2FFF) :
    actionCodeForKeycode functions c keycode = functions (keycode &&& 0xFFF) := by
  unfold actionCodeForKeycode
  rw [keycodeConfig_above c keycode (by bv_omega)]
  dsimp only
  rw [if_neg (by bv_omega), if_neg (by bv_omega), if_pos hhigh]

theorem actionCode_layerTap (hlow : 0x4000 ≤ keycode) (hhigh : keycode ≤ 0x4FFF) :
    actionCodeForKeycode functions c keycode =
      ActionCode.layerTap ((keycode >>> 8) &&& 0xF) 0 ||| (lowByte keycode).setWidth 16 := by
  unfold actionCodeForKeycode
  rw [keycodeConfig_above c keycode (by bv_omega)]
  dsimp only
  rw [if_neg (by bv_omega), if_neg (by bv_omega), if_neg (by bv_omega), if_neg (by bv_omega),
    if_pos hhigh, and_lowByte]
  simp only [ActionCode.layerTap, ActionCode.make, BitVec.or_assoc, BitVec.ofNat_eq_ofNat,
    BitVec.zero_or]

theorem actionCode_oneShotMod (hlow : 0x5500 ≤ keycode) (hhigh : keycode ≤ 0x55FF) :
    actionCodeForKeycode functions c keycode =
      ActionCode.make ActionCode.actModsTap
        (((modConfig c (lowByte keycode)).setWidth 16 &&& 0x1F) <<< 8) := by
  unfold actionCodeForKeycode
  rw [keycodeConfig_above c keycode (by bv_omega)]
  dsimp only
  iterate 10 rw [if_neg (by bv_omega)]
  rw [if_pos hhigh]

theorem actionCode_layerMod (hlow : 0x5900 ≤ keycode) (hhigh : keycode ≤ 0x59FF) :
    actionCodeForKeycode functions c keycode =
      ActionCode.make ActionCode.actLayerMods (((keycode >>> 4) &&& 0xF) <<< 8) |||
        (modConfig c (lowByte keycode &&& 0xF)).setWidth 16 := by
  unfold actionCodeForKeycode
  rw [keycodeConfig_above c keycode (by bv_omega)]
  dsimp only
  iterate 11 rw [if_neg (by bv_omega)]
  rw [if_neg (by simp; bv_omega), if_pos (by simp; bv_omega), ActionCode.make, ActionCode.make,
    BitVec.or_assoc]

theorem actionCode_modTap (hlow : 0x6000 ≤ keycode) (hhigh : keycode ≤ 0x7FFF) :
    actionCodeForKeycode functions c keycode =
      ActionCode.make ActionCode.actModsTap
          (((modConfig c (((keycode >>> 8) &&& 0x1F).setWidth 8)).setWidth 16 &&& 0x1F) <<< 8) |||
        (lowByte keycode).setWidth 16 := by
  unfold actionCodeForKeycode
  rw [keycodeConfig_above c keycode (by bv_omega)]
  dsimp only
  iterate 11 rw [if_neg (by bv_omega)]
  rw [if_neg (by simp; bv_omega), if_neg (by simp; bv_omega), if_pos (by simp; bv_omega),
    and_lowByte, ActionCode.make, ActionCode.make, BitVec.or_assoc]

theorem actionCode_none (h : 0x5600 ≤ keycode ∧ keycode ≤ 0x57FF ∨
      0x5A00 ≤ keycode ∧ keycode ≤ 0x5FFF ∨ 0x8000 ≤ keycode) :
    actionCodeForKeycode functions c keycode = ActionCode.no := by
  unfold actionCodeForKeycode
  rw [keycodeConfig_above c keycode (by bv_omega)]
  dsimp only
  iterate 11 rw [if_neg (by bv_omega)]
  rw [if_neg (by simp; bv_omega), if_neg (by simp; bv_omega), if_neg (by simp; bv_omega)]

end Codes

/-! ### The modifiers of a keycode -/

theorem highByte_or_lowByte (keycode : Keycode) :
    keycode = ((keycode >>> 8).setWidth 8 : Byte).setWidth 16 <<< 8 |||
      (lowByte keycode).setWidth 16 := by
  unfold lowByte
  refine BitVec.eq_of_getLsbD_eq (fun i hi => ?_)
  simp only [BitVec.getLsbD_or, BitVec.getLsbD_shiftLeft, BitVec.getLsbD_setWidth,
    BitVec.getLsbD_ushiftRight]
  by_cases hlow : i < 8
  · simp [hlow, hi]
  · have hback : 8 + (i - 8) = i := by omega
    have h16 : i - 8 < 16 := by omega
    have h8 : i - 8 < 8 := by omega
    simp [hlow, hi, hback, h16, h8]

theorem byte_flags : ∀ byte : Byte,
    (byte.setWidth 16 &&& 0x0100 = 0#16 ∧ byte.setWidth 16 &&& 0x0200 = 0#16 ∧
        byte.setWidth 16 &&& 0x0400 = 0#16 ∧ byte.setWidth 16 &&& 0x0800 = 0#16 ∧
        byte.setWidth 16 &&& 0x1000 = 0#16) ∧
      (byte ≠ 0 → byte ≤ 0x1F →
        0x0100 ≤ byte.setWidth 16 <<< 8 ∧ byte.setWidth 16 <<< 8 ≤ 0x1FFF ∧
          Usb.extractModBits (byte.setWidth 16 <<< 8) = ActionCode.sideMods byte) := by
  decide +kernel

theorem extractModBits_or_low (high : Keycode) (low : Byte)
    (hhigh : 0x0100 ≤ high ∧ high ≤ 0x1FFF)
    (h : 0x0100 ≤ high ||| low.setWidth 16 ∧ high ||| low.setWidth 16 ≤ 0x1FFF) :
    Usb.extractModBits (high ||| low.setWidth 16) = Usb.extractModBits high := by
  obtain ⟨⟨hctrl, hshift, halt, hgui, hright⟩, -⟩ := byte_flags low
  unfold Usb.extractModBits
  rw [if_pos h, if_pos hhigh]
  simp only [BitVec.and_or_distrib_right, hctrl, hshift, halt, hgui, hright, BitVec.or_zero]

theorem extractModBits_eq (keycode : Keycode) (hlow : 0x0100 ≤ keycode)
    (hhigh : keycode ≤ 0x1FFF) :
    Usb.extractModBits keycode = ActionCode.sideMods ((keycode >>> 8).setWidth 8) := by
  have hparts := highByte_or_lowByte keycode
  obtain ⟨h1, h2, hmods⟩ :=
    (byte_flags ((keycode >>> 8).setWidth 8)).2 (by bv_omega) (by bv_omega)
  rw [← hmods]
  conv_lhs => rw [hparts]
  exact extractModBits_or_low _ _ ⟨h1, h2⟩ ⟨by rwa [← hparts], by rwa [← hparts]⟩

/-! ### Actions -/

namespace Setting

variable (s : Setting) (tap : Tap) (a : ActionCode)

theorem registers_processAction_mods (usage : Usage)
    (hkind : a.kindId = ActionCode.actMods ∨ a.kindId = ActionCode.actRightMods) :
    Registers (s.processAction tap a true) usage ↔
      usage ∈ modUsages (if a.kindId = ActionCode.actMods then a.keyMods else a.keyMods <<< 4) ∨
        codeUsage? a.keyCode = some usage := by
  unfold processAction modsCalls
  rw [Bool.not_true, if_neg Bool.false_ne_true, if_pos hkind]
  exact registers_mods _ _ _ _

theorem processAction_modsTap
    (hkind : a.kindId = ActionCode.actModsTap ∨ a.kindId = ActionCode.actRightModsTap) :
    s.processAction tap a true =
      s.modsTapCalls tap
        (if a.kindId = ActionCode.actModsTap then a.keyMods else a.keyMods <<< 4) a.keyCode := by
  unfold processAction
  rw [Bool.not_true, if_neg Bool.false_ne_true, if_neg, if_pos hkind]
  rcases hkind with hkind | hkind <;> rw [hkind] <;> decide

theorem processAction_quiet (h : a.isQuiet) : s.processAction tap a true = [] := by
  unfold ActionCode.isQuiet at h
  simp only [Bool.or_eq_true, Bool.and_eq_true, beq_iff_eq, decide_eq_true_eq] at h
  unfold processAction
  rcases h with (hkind | hkind) | ⟨hkind, hop⟩
  · simp [hkind, ActionCode.actMods, ActionCode.actRightMods, ActionCode.actModsTap,
      ActionCode.actRightModsTap, ActionCode.actUsage, ActionCode.actLayer,
      ActionCode.actLayerMods, ActionCode.actLayerTap, ActionCode.actLayerTapExt]
  · have hne : ∀ kind : BitVec 16, kind < 0xC → a.kindId ≠ kind := by
      rintro kind hlt rfl
      exact absurd hlt (BitVec.not_lt.mpr hkind)
    rw [Bool.not_true, if_neg Bool.false_ne_true,
      if_neg (not_or.mpr ⟨hne _ (by decide), hne _ (by decide)⟩),
      if_neg (not_or.mpr ⟨hne _ (by decide), hne _ (by decide)⟩), if_neg (hne _ (by decide)),
      if_neg (hne _ (by decide)),
      if_neg (not_or.mpr ⟨hne _ (by decide), hne _ (by decide)⟩)]
  · rcases hkind with hkind | hkind <;>
      simp [hkind, hop, ActionCode.actMods, ActionCode.actRightMods, ActionCode.actModsTap,
        ActionCode.actRightModsTap, ActionCode.actUsage, ActionCode.actLayerMods,
        ActionCode.actLayerTap, ActionCode.actLayerTapExt]

/-! ### The handlers -/

variable (keycode : Keycode)

theorem ne_of_plain (h : keycode < 0x5C00 ∨ 0x5DFF < keycode) :
    ∀ own : Keycode, 0x5C00 ≤ own → own ≤ 0x5DFF → keycode ≠ own := by
  rintro own hlow hhigh rfl
  bv_omega

variable (pressed : Bool)

theorem processRgb_plain (h : keycode < 0x5C00 ∨ 0x5DFF < keycode) :
    s.processRgb keycode pressed := by
  have hne := ne_of_plain keycode h
  have hmodes : (RgbMatrix.rgbModeBreathe ≤ keycode && keycode ≤ RgbMatrix.rgbModeRgbtest ||
      keycode == RgbMatrix.rgbModeTwinkle) = false := by
    rw [Bool.eq_false_iff]
    intro hmode
    simp only [Bool.or_eq_true, Bool.and_eq_true, decide_eq_true_eq, beq_iff_eq] at hmode
    unfold RgbMatrix.rgbModeBreathe RgbMatrix.rgbModeRgbtest RgbMatrix.rgbModeTwinkle at hmode
    bv_omega
  unfold processRgb RgbMatrix.processRgb
  cases pressed with
  | false => rfl
  | true =>
    rw [Bool.not_true, if_neg Bool.false_ne_true]
    iterate 12 rw [if_neg (hne _ (by decide) (by decide))]
    rw [hmodes, Bool.not_false]

theorem afterDynamicMacro_recordable (h : Recorder.recordable keycode) :
    s.afterDynamicMacro tap keycode pressed =
      btTrackBasicKeycode keycode pressed ++ s.afterKeymap tap keycode pressed := by
  obtain ⟨hrec, hslot, -, -, hplay, hunpair⟩ := of_decide_eq_true h
  unfold afterDynamicMacro processRecordUser
  rw [if_neg, hplay]
  · rfl
  · rw [hslot]
    exact not_or.mpr ⟨hrec, not_or.mpr ⟨Bool.false_ne_true, hunpair⟩⟩

theorem processDynamicMacro_plain (h : keycode < 0x5C00 ∨ 0x5DFF < keycode) :
    s.processDynamicMacro keycode pressed = none := by
  have hne := ne_of_plain keycode h
  unfold processDynamicMacro
  rw [if_neg (not_or.mpr ⟨hne _ (by decide) (by decide), hne _ (by decide) (by decide)⟩),
    if_neg (not_or.mpr ⟨hne _ (by decide) (by decide), hne _ (by decide) (by decide)⟩),
    if_neg (not_or.mpr ⟨hne _ (by decide) (by decide),
      not_or.mpr ⟨hne _ (by decide) (by decide), hne _ (by decide) (by decide)⟩⟩)]
  cases s.dynamicRecording <;> cases pressed <;> rfl

theorem keyEvent_plain (hrecordable : Recorder.recordable keycode) (hoff : s.btOn = false)
    (h : keycode < 0x5C00 ∨ 0x5DFF < keycode) :
    s.keyEvent tap keycode pressed =
      btTrackBasicKeycode keycode pressed ++
        s.processAction tap (actionCodeForKeycode s.functions s.config keycode) pressed := by
  have hne := ne_of_plain keycode h
  have hcadet : s.processSpaceCadet keycode pressed = none := by
    unfold processSpaceCadet spaceCadet?
    iterate 7 rw [if_neg (hne _ (by decide) (by decide))]
    rfl
  have hmagic : isMagic keycode = false := by
    unfold isMagic
    simp only [Bool.or_eq_false_iff, Bool.and_eq_false_iff, decide_eq_false_iff_not,
      beq_eq_false_iff_ne]
    bv_omega
  have hgrave : s.processGraveEsc keycode pressed = none := by
    unfold processGraveEsc
    rw [if_neg (hne _ (by decide) (by decide))]
  have hanswered : isAnswered keycode = false := by
    unfold isAnswered
    simp only [Bool.or_eq_false_iff, beq_eq_false_iff_ne]
    exact ⟨⟨hne _ (by decide) (by decide), hne _ (by decide) (by decide)⟩,
      hne _ (by decide) (by decide)⟩
  unfold keyEvent
  rw [processDynamicMacro_plain s keycode pressed h, Option.getD_none,
    afterDynamicMacro_recordable s tap keycode pressed hrecordable,
    afterKeymap, hcadet, hgrave, hmagic, hanswered, processRgb_plain s keycode pressed h, hoff]
  simp only [Bool.false_and, Bool.and_false, Bool.not_true, Bool.false_eq_true, if_false]

theorem processAction_release : s.processAction tap a false = [] :=
  rfl

theorem btTrack_not_registers (code : Byte) (usage : Usage) (h : codeUsage? code = some usage) :
    ¬ Registers (btTrackBasicKeycode keycode pressed) usage := by
  unfold btTrackBasicKeycode
  split
  · rw [registers_singleton]
    rintro hmem
    rw [List.mem_singleton.mp hmem] at h
    exact codeUsage?_not_tracked code _ h
  · exact registers_nil usage

theorem original_plain (press release : Tap) (keycode : Keycode) (code : Byte) (usage : Usage)
    (hrecordable : Recorder.recordable keycode) (hoff : s.btOn = false)
    (h : keycode < 0x5C00 ∨ 0x5DFF < keycode) (hcode : codeUsage? code = some usage) :
    Registers (s.original press release keycode) usage ↔
      Registers (s.processAction press (actionCodeForKeycode s.functions s.config keycode) true)
        usage := by
  unfold original
  rw [keyEvent_plain s press keycode true hrecordable hoff h,
    keyEvent_plain s release keycode false hrecordable hoff h, processAction_release,
    List.append_nil, registers_append, registers_append,
    or_iff_left (btTrack_not_registers keycode false code usage hcode),
    or_iff_right (btTrack_not_registers keycode true code usage hcode)]

/-! ### The quantum keycodes -/

theorem spaceCadet?_silent (usage : Usage) (hcode : codeUsage? (lowByte keycode) = some usage) :
    spaceCadet? keycode = none := by
  have hne : ∀ own : Keycode, codeUsage? (lowByte own) = none → keycode ≠ own := by
    rintro own hown rfl
    rw [hown] at hcode
    cases hcode
  unfold spaceCadet?
  iterate 7 rw [if_neg (hne _ (by decide))]

theorem processAction_none (usage : Usage) (h : a = ActionCode.no ∨ a = ActionCode.transparent) :
    ¬ Registers (s.processAction tap a pressed) usage := by
  have hfields : a.kindId = ActionCode.actMods ∧ a.keyMods = 0 ∧ codeUsage? a.keyCode = none := by
    rcases h with rfl | rfl <;> decide
  cases pressed with
  | false => exact registers_nil usage
  | true =>
    rw [registers_processAction_mods s tap a usage (Or.inl hfields.1), if_pos hfields.1,
      hfields.2.1, modUsages_none, hfields.2.2]
    rintro (hmem | hcode)
    · exact List.not_mem_nil hmem
    · cases hcode

theorem afterDynamicMacro_quantum (usage : Usage) (hrecordable : Recorder.recordable keycode)
    (hlow : 0x5C00 ≤ keycode) (hhigh : keycode ≤ 0x5DFF)
    (hcode : codeUsage? (lowByte keycode) = some usage) :
    ¬ Registers (s.afterDynamicMacro tap keycode pressed) usage := by
  have habove : ¬ keycode ≤ 0xFF := by bv_omega
  have hcadet : s.processSpaceCadet keycode pressed = none := by
    unfold processSpaceCadet
    rw [spaceCadet?_silent keycode usage hcode]
    rfl
  rw [afterDynamicMacro_recordable s tap keycode pressed hrecordable, registers_append,
    or_iff_right (btTrack_not_registers keycode pressed _ usage hcode), afterKeymap, hcadet,
    decide_eq_false habove, Bool.and_false, if_neg Bool.false_ne_true]
  dsimp only
  split
  · exact registers_nil usage
  · unfold processGraveEsc
    by_cases hgrave : keycode = graveEsc
    · -- it presses one of two keys, and its low byte is neither
      rw [if_pos hgrave]
      rw [hgrave] at hcode
      rw [← Option.some.inj hcode]
      cases pressed with
      | false => exact registers_nil _
      | true =>
        dsimp only
        rw [if_pos rfl, registers_singleton]
        split <;> decide
    · rw [if_neg hgrave]
      dsimp only
      split
      · exact registers_nil usage
      · split
        · exact registers_nil usage
        · rw [actionCode_none s.functions s.config keycode (by bv_omega)]
          exact processAction_none s tap _ pressed usage (Or.inl rfl)

theorem original_quantum (press release : Tap) (keycode : Keycode) (usage : Usage)
    (hrecordable : Recorder.recordable keycode) (hlow : 0x5C00 ≤ keycode)
    (hhigh : keycode ≤ 0x5DFF) (hcode : codeUsage? (lowByte keycode) = some usage) :
    Registers (s.original press release keycode) usage ↔
      (keycode = dynMacroPlay1 ∨ keycode = dynMacroPlay2) ∧ s.dynamicRecording = false ∧
        Registers (s.dynamicMacro keycode) usage := by
  have hafter := fun tap pressed =>
    afterDynamicMacro_quantum s tap keycode pressed usage hrecordable hlow hhigh hcode
  unfold original keyEvent processDynamicMacro
  rw [registers_append]
  cases s.dynamicRecording with
  | true =>
    simp only [Bool.not_true, Bool.false_eq_true, if_false, reduceCtorEq, false_and, and_false,
      iff_false, not_or]
    split
    · exact ⟨registers_nil usage, registers_nil usage⟩
    · exact ⟨hafter press true, hafter release false⟩
  | false =>
    simp only [Bool.not_false, if_true, Option.getD_none, Bool.false_eq_true, if_false, true_and]
    rw [or_iff_right (hafter press true)]
    by_cases hstart : keycode = dynRecStart1 ∨ keycode = dynRecStart2
    · rw [if_pos hstart]
      refine iff_of_false (registers_nil usage) (fun hc => ?_)
      rcases hstart with rfl | rfl <;> exact absurd hc.1 (by decide)
    · rw [if_neg hstart]
      by_cases hplay : keycode = dynMacroPlay1 ∨ keycode = dynMacroPlay2
      · rw [if_pos hplay, and_iff_right hplay]
        exact Iff.rfl
      · rw [if_neg hplay]
        exact iff_of_false (hafter release false) (fun hc => hplay hc.1)

/-! ### Actions of one kind -/

theorem codeUsage?_ne (code other : Byte) (usage : Usage) (hcode : codeUsage? code = some usage)
    (h : codeUsage? other = none) : code ≠ other := by
  rintro rfl
  rw [h] at hcode
  cases hcode

theorem processAction_usage (hkind : a.kindId = ActionCode.actUsage) :
    s.processAction tap a true =
      if (a >>> 10) &&& 0x3 = 0 then [.systemSend (a &&& 0x3FF)]
      else if (a >>> 10) &&& 0x3 = 1 then [.consumerSend (a &&& 0x3FF)]
      else [] := by
  unfold processAction
  rw [hkind, Bool.not_true, if_neg Bool.false_ne_true, if_neg (by decide), if_neg (by decide),
    if_pos rfl]

theorem processAction_layerMods (hkind : a.kindId = ActionCode.actLayerMods) :
    s.processAction tap a true = [.registerMods a.keyCode] := by
  unfold processAction
  rw [hkind, Bool.not_true, if_neg Bool.false_ne_true, if_neg (by decide), if_neg (by decide),
    if_neg (by decide), if_pos rfl]

theorem processAction_layerTap
    (hkind : a.kindId = ActionCode.actLayerTap ∨ a.kindId = ActionCode.actLayerTapExt)
    (hop : isLayerTapOp a.keyCode = false) :
    s.processAction tap a true = if tap.count > 0 then [.registerCode a.keyCode] else [] := by
  have hother : ∀ kind : BitVec 16, kind < ActionCode.actLayerTap → a.kindId ≠ kind := by
    rintro kind hlt rfl
    rcases hkind with hkind | hkind <;> rw [hkind] at hlt <;> exact absurd hlt (by decide)
  unfold processAction
  rw [hop, Bool.not_true, if_neg Bool.false_ne_true,
    if_neg (not_or.mpr ⟨hother _ (by decide), hother _ (by decide)⟩),
    if_neg (not_or.mpr ⟨hother _ (by decide), hother _ (by decide)⟩),
    if_neg (hother _ (by decide)), if_neg (hother _ (by decide)), if_pos hkind,
    if_neg Bool.false_ne_true]

theorem code_silent : ∀ code : Byte,
    (0xC0 ≤ code → code ≤ 0xDF → codeUsage? code = none) ∧
      (isLayerTapOp code → codeUsage? code = none ∧ 0xE7 < code) := by
  decide +kernel

theorem registers_oneShot (mods : Byte) (usage : Usage) :
    Registers (s.modsTapCalls tap mods ActionCode.modsOneshot) usage ↔
      usage ∈ modUsages (s.oneShotHeld tap mods) := by
  have hnone : codeUsage? ActionCode.modsOneshot = none := by decide
  unfold modsTapCalls oneShotHeld
  rw [if_pos rfl]
  cases s.oneshotDisable with
  | true =>
    rw [if_pos rfl, if_pos rfl, modsCalls, registers_mods, hnone]
    exact or_iff_left (by simp)
  | false =>
    rw [if_neg Bool.false_ne_true, if_neg Bool.false_ne_true]
    by_cases honce : tap.count = 1
    · rw [if_pos honce, if_pos honce, modUsages_none]
      exact iff_of_false (registers_nil usage) List.not_mem_nil
    · rw [if_neg honce, if_neg honce, registers_singleton]
      exact Iff.rfl

theorem registers_modTapKey (mods code : Byte) (usage : Usage)
    (hcode : codeUsage? code = some usage) :
    Registers (s.modsTapCalls tap mods code) usage ↔
      tap.count > 0 ∧ tap.interrupted = false ∨ IsHeld mods code := by
  have honeshot : code ≠ ActionCode.modsOneshot := codeUsage?_ne code _ usage hcode (by decide)
  have htoggle : code ≠ ActionCode.modsTapToggle := codeUsage?_ne code _ usage hcode (by decide)
  have hmods : Registers [registerMods mods] usage ↔ IsHeld mods code := by
    rw [registers_singleton]
    exact codeUsage?_mem_modUsages mods code usage hcode
  unfold modsTapCalls
  rw [if_neg honeshot, if_neg htoggle]
  by_cases hcount : tap.count > 0
  · rw [if_pos hcount]
    cases hinterrupted : tap.interrupted with
    | true =>
      rw [if_pos rfl, hmods]
      simp
    | false =>
      rw [if_neg Bool.false_ne_true, registers_singleton, mem_registerCode]
      exact iff_of_true hcode (Or.inl ⟨hcount, rfl⟩)
  · rw [if_neg hcount, hmods]
    simp [hcount]

/-! ### The actions of the keycodes -/

variable (press : Tap) (keycode : Keycode) (usage : Usage)

theorem registers_quiet
    (h : 0x3000 ≤ keycode ∧ keycode ≤ 0x3FFF ∨ 0x5000 ≤ keycode ∧ keycode ≤ 0x54FF ∨
      0x5800 ≤ keycode ∧ keycode ≤ 0x58FF) :
    ¬ Registers (s.processAction press (actionCodeForKeycode s.functions s.config keycode) true)
      usage := by
  rw [processAction_quiet s press _ (actionCode_quiet s.functions s.config keycode h)]
  exact registers_nil usage

theorem registers_none
    (h : 0x5600 ≤ keycode ∧ keycode ≤ 0x57FF ∨ 0x5A00 ≤ keycode ∧ keycode ≤ 0x5FFF ∨
      0x8000 ≤ keycode) :
    ¬ Registers (s.processAction press (actionCodeForKeycode s.functions s.config keycode) true)
      usage := by
  rw [actionCode_none s.functions s.config keycode h]
  exact processAction_none s press _ true usage (Or.inl rfl)

theorem registers_basicCode (hbasic : keycodeConfig s.config keycode ≤ 0xFF)
    (hfunction : ¬ (0xC0 ≤ keycodeConfig s.config keycode ∧
      keycodeConfig s.config keycode ≤ 0xDF)) :
    Registers (s.processAction press (actionCodeForKeycode s.functions s.config keycode) true)
        usage ↔
      codeUsage? (lowByte (keycodeConfig s.config keycode)) = some usage := by
  have hlow : keycodeConfig s.config keycode =
      (lowByte (keycodeConfig s.config keycode)).setWidth 16 := by
    unfold lowByte
    bv_omega
  unfold actionCodeForKeycode
  generalize keycodeConfig s.config keycode = remapped at hbasic hfunction hlow ⊢
  dsimp only
  rw [if_pos hbasic]
  by_cases hkey : (isKey (lowByte remapped) || isMod (lowByte remapped)) = true
  · rw [if_pos hkey]
    obtain ⟨hkind, hmods, hcode⟩ := (ActionCode.code_fields (lowByte remapped)).2.2.1
    rw [← hlow] at hkind hmods hcode
    rw [registers_processAction_mods s press _ usage (Or.inl hkind), if_pos hkind, hmods, hcode,
      modUsages_none]
    exact or_iff_right List.not_mem_nil
  · rw [if_neg hkey]
    rw [Bool.or_eq_true, not_or, Bool.not_eq_true, Bool.not_eq_true] at hkey
    unfold codeUsage?
    rw [hkey.1, hkey.2, if_neg Bool.false_ne_true, if_neg Bool.false_ne_true]
    by_cases hsystem : isSystem (lowByte remapped)
    · rw [if_pos hsystem, if_pos hsystem]
      obtain ⟨hkind, hpage, husage⟩ := (ActionCode.code_fields (lowByte remapped)).2.2.2.1
      rw [processAction_usage s press _ hkind, if_pos hpage, husage, registers_singleton]
      exact List.mem_singleton.trans (eq_comm.trans (Option.some_inj).symm)
    · rw [if_neg hsystem, if_neg hsystem]
      by_cases hconsumer : isConsumer (lowByte remapped)
      · rw [if_pos hconsumer, if_pos hconsumer]
        obtain ⟨hkind, hpage, husage⟩ := (ActionCode.code_fields (lowByte remapped)).2.2.2.2.1
        rw [processAction_usage s press _ hkind, if_neg (by rw [hpage]; decide), if_pos hpage,
          husage, registers_singleton]
        exact List.mem_singleton.trans (eq_comm.trans (Option.some_inj).symm)
      · rw [if_neg hconsumer, if_neg hconsumer]
        refine iff_of_false ?_ (fun hc => by cases hc)
        split
        · exact processAction_none s press _ true usage (Or.inr rfl)
        · rw [if_neg (by simpa using hfunction)]
          exact processAction_none s press _ true usage (Or.inl rfl)

theorem registers_mods_keycode (hlow : 0x0100 ≤ keycode) (hhigh : keycode ≤ 0x1FFF) :
    Registers (s.processAction press (actionCodeForKeycode s.functions s.config keycode) true)
        usage ↔
      usage ∈ modUsages (Usb.extractModBits keycode) ∨
        codeUsage? (lowByte keycode) = some usage := by
  obtain ⟨hcode, hkind, hmods⟩ := (ActionCode.code_fields ((keycode >>> 8).setWidth 8)).1
  obtain ⟨hkindLow, hmodsLow, hcodeLow⟩ := ActionCode.or_low _ (lowByte keycode) hcode
  rw [actionCode_mods s.functions s.config keycode hlow hhigh, registers_processAction_mods,
    hkindLow, hmodsLow, hcodeLow, hmods, extractModBits_eq keycode hlow hhigh]
  rw [hkindLow]
  exact hkind

theorem registers_layerTap (hlow : 0x4000 ≤ keycode) (hhigh : keycode ≤ 0x4FFF)
    (hcode : codeUsage? (lowByte keycode) = some usage) :
    Registers (s.processAction press (actionCodeForKeycode s.functions s.config keycode) true)
        usage ↔ press.count > 0 := by
  have hop : isLayerTapOp (lowByte keycode) = false := by
    rw [Bool.eq_false_iff]
    intro hop
    rw [((code_silent _).2 hop).1] at hcode
    cases hcode
  have hlayer : ((keycode >>> 8) &&& 0xF).toNat < 16 := by
    rw [BitVec.toNat_and]
    exact Nat.lt_of_le_of_lt Nat.and_le_right (by decide)
  obtain ⟨hkind, hkey, -⟩ := OrdinaryKeymap.layerTap_layer ⟨_, hlayer⟩
  rw [BitVec.ofNat_toNat, BitVec.setWidth_eq] at hkind hkey
  obtain ⟨hkindLow, -, hcodeLow⟩ := ActionCode.or_low _ (lowByte keycode) hkey
  rw [actionCode_layerTap s.functions s.config keycode hlow hhigh,
    processAction_layerTap s press _ (Or.inl (hkindLow.trans hkind)) (by rwa [hcodeLow]),
    hcodeLow]
  by_cases hcount : press.count > 0
  · rw [if_pos hcount, registers_singleton, mem_registerCode]
    exact iff_of_true hcode hcount
  · rw [if_neg hcount]
    exact iff_of_false (registers_nil usage) hcount

theorem registers_oneShotMod (hlow : 0x5500 ≤ keycode) (hhigh : keycode ≤ 0x55FF)
    (hcode : codeUsage? (lowByte keycode) = some usage) :
    Registers (s.processAction press (actionCodeForKeycode s.functions s.config keycode) true)
        usage ↔
      IsHeld (s.oneShotHeld press (ActionCode.sideMods (modConfig s.config (lowByte keycode))))
        (lowByte keycode) := by
  obtain ⟨hkey, hkind, hmods⟩ :=
    (ActionCode.code_fields (modConfig s.config (lowByte keycode))).2.1
  rw [actionCode_oneShotMod s.functions s.config keycode hlow hhigh,
    processAction_modsTap s press _ hkind, hmods, hkey]
  exact (registers_oneShot s press _ usage).trans
    (codeUsage?_mem_modUsages _ (lowByte keycode) usage hcode)

theorem registers_layerMod (hlow : 0x5900 ≤ keycode) (hhigh : keycode ≤ 0x59FF)
    (hcode : codeUsage? (lowByte keycode) = some usage) :
    Registers (s.processAction press (actionCodeForKeycode s.functions s.config keycode) true)
        usage ↔
      IsHeld (modConfig s.config (lowByte keycode &&& 0xF)) (lowByte keycode) := by
  obtain ⟨hkind, hkey⟩ := (ActionCode.code_fields (lowByte keycode)).2.2.2.2.2
  rw [← (layer_fields keycode).2.2] at hkind hkey
  obtain ⟨hkindLow, -, hcodeLow⟩ :=
    ActionCode.or_low _ (modConfig s.config (lowByte keycode &&& 0xF)) hkey
  rw [actionCode_layerMod s.functions s.config keycode hlow hhigh,
    processAction_layerMods s press _ (hkindLow.trans hkind), hcodeLow, registers_singleton]
  exact codeUsage?_mem_modUsages _ (lowByte keycode) usage hcode

theorem registers_modTap (hlow : 0x6000 ≤ keycode) (hhigh : keycode ≤ 0x7FFF)
    (hcode : codeUsage? (lowByte keycode) = some usage) :
    Registers (s.processAction press (actionCodeForKeycode s.functions s.config keycode) true)
        usage ↔
      press.count > 0 ∧ press.interrupted = false ∨
        IsHeld (ActionCode.sideMods
          (modConfig s.config (((keycode >>> 8) &&& 0x1F).setWidth 8))) (lowByte keycode) := by
  obtain ⟨hkey, hkind, hmods⟩ :=
    (ActionCode.code_fields (modConfig s.config (((keycode >>> 8) &&& 0x1F).setWidth 8))).2.1
  obtain ⟨hkindLow, hmodsLow, hcodeLow⟩ := ActionCode.or_low _ (lowByte keycode) hkey
  rw [actionCode_modTap s.functions s.config keycode hlow hhigh,
    processAction_modsTap s press _ (by rwa [hkindLow]), hkindLow, hmodsLow, hcodeLow, hmods]
  exact registers_modTapKey s press _ (lowByte keycode) usage hcode

/-! ### Every keycode -/

theorem registers_basic (hbasic : keycode ≤ 0xFF)
    (hcode : codeUsage? (lowByte keycode) = some usage) :
    Registers (s.processAction press (actionCodeForKeycode s.functions s.config keycode) true)
        usage ↔ keycodeConfig s.config keycode = keycode := by
  have hle := keycodeConfig_basic s.config keycode hbasic
  have hfunction : ¬ (0xC0 ≤ keycode ∧ keycode ≤ 0xDF) := by
    rintro ⟨hlow, hhigh⟩
    have hsilent := (code_silent (lowByte keycode)).1 (by unfold lowByte; bv_omega)
      (by unfold lowByte; bv_omega)
    rw [hsilent] at hcode
    cases hcode
  rw [registers_basicCode s press keycode usage hle
    (OrdinaryKeymap.remapped_not_function s.config keycode hfunction)]
  constructor
  · intro hremapped
    exact lowByte_injective _ _ hle hbasic (codeUsage?_injective _ _ usage hremapped hcode)
  · intro hkept
    rw [hkept]
    exact hcode

theorem original_registers_iff (press release : Tap) (keycode : Keycode) (usage : Usage)
    (hrecordable : Recorder.recordable keycode) (hoff : s.btOn = false)
    (hcode : codeUsage? (lowByte keycode) = some usage) :
    Registers (s.original press release keycode) usage ↔ s.Mirrors press keycode := by
  have hcovers : ∀ calls, Covers calls (lowByte keycode) ↔ Registers calls usage := by
    intro calls
    unfold Covers
    rw [hcode]
    simp only [Option.some.injEq, exists_eq_left']
  have hplain := original_plain s press release keycode (lowByte keycode) usage hrecordable hoff
  unfold Mirrors
  by_cases hbasic : keycode ≤ 0xFF
  · rw [if_pos hbasic, hplain (by bv_omega) hcode]
    exact registers_basic s press keycode usage hbasic hcode
  rw [if_neg hbasic]
  by_cases hmods : keycode ≤ 0x1FFF
  · rw [if_pos hmods, hplain (by bv_omega) hcode,
      registers_mods_keycode s press keycode usage (by bv_omega) hmods]
    exact iff_of_true (Or.inr hcode) trivial
  rw [if_neg hmods]
  by_cases hfunction : keycode ≤ 0x2FFF
  · rw [if_pos hfunction, hplain (by bv_omega) hcode,
      actionCode_function s.functions s.config keycode (by bv_omega) hfunction, hcovers]
  rw [if_neg hfunction]
  by_cases hmacro : keycode ≤ 0x3FFF
  · rw [if_pos hmacro, hplain (by bv_omega) hcode, iff_false]
    exact registers_quiet s press keycode usage (by bv_omega)
  rw [if_neg hmacro]
  by_cases hlayerTap : keycode ≤ 0x4FFF
  · rw [if_pos hlayerTap, hplain (by bv_omega) hcode]
    exact registers_layerTap s press keycode usage (by bv_omega) hlayerTap hcode
  rw [if_neg hlayerTap]
  by_cases hlayer : keycode ≤ 0x54FF
  · rw [if_pos hlayer, hplain (by bv_omega) hcode, iff_false]
    exact registers_quiet s press keycode usage (by bv_omega)
  rw [if_neg hlayer]
  by_cases honeShot : keycode ≤ 0x55FF
  · rw [if_pos honeShot, hplain (by bv_omega) hcode]
    exact registers_oneShotMod s press keycode usage (by bv_omega) honeShot hcode
  rw [if_neg honeShot]
  by_cases htoggle : keycode ≤ 0x58FF
  · rw [if_pos htoggle, hplain (by bv_omega) hcode, iff_false]
    by_cases hnone : keycode ≤ 0x57FF
    · exact registers_none s press keycode usage (by bv_omega)
    · exact registers_quiet s press keycode usage (by bv_omega)
  rw [if_neg htoggle]
  by_cases hlayerMod : keycode ≤ 0x59FF
  · rw [if_pos hlayerMod, hplain (by bv_omega) hcode]
    exact registers_layerMod s press keycode usage (by bv_omega) hlayerMod hcode
  rw [if_neg hlayerMod]
  by_cases hquantum : keycode ≤ 0x5FFF
  · rw [if_pos hquantum, hcovers]
    by_cases hown : 0x5C00 ≤ keycode ∧ keycode ≤ 0x5DFF
    · exact original_quantum s press release keycode usage hrecordable hown.1 hown.2 hcode
    · -- the steno keycodes, and what is beyond the last of the keymap's own
      rw [hplain (by bv_omega) hcode]
      refine iff_of_false (registers_none s press keycode usage (by bv_omega)) (fun hc => hown ?_)
      rcases hc.1 with rfl | rfl <;> decide
  rw [if_neg hquantum]
  by_cases hmodTap : keycode ≤ 0x7FFF
  · rw [if_pos hmodTap, hplain (by bv_omega) hcode]
    exact registers_modTap s press keycode usage (by bv_omega) hmodTap hcode
  · rw [if_neg hmodTap, hplain (by bv_omega) hcode, iff_false]
    exact registers_none s press keycode usage (by bv_omega)

theorem original_tracked (press release : Tap) (keycode : Keycode)
    (hrecordable : Recorder.recordable keycode) (hbasic : keycode ≤ 0xFF) :
    Registers (s.original press release keycode) (.tracked (lowByte keycode)) := by
  unfold original keyEvent
  rw [processDynamicMacro_plain s keycode true (by bv_omega), Option.getD_none,
    afterDynamicMacro_recordable s press keycode true hrecordable, btTrackBasicKeycode,
    if_pos ⟨rfl, hbasic⟩]
  exact ⟨.btTrack keycode, by simp, List.mem_singleton_self _⟩

theorem original_modifiers (press release : Tap) (keycode : Keycode) (usage : Usage)
    (hrecordable : Recorder.recordable keycode) (hoff : s.btOn = false)
    (h : usage ∈ modUsages (Usb.extractModBits keycode)) :
    Registers (s.original press release keycode) usage := by
  have hrange : 0x0100 ≤ keycode ∧ keycode ≤ 0x1FFF := by
    by_contra hout
    have hnone : Usb.extractModBits keycode = 0 := by
      unfold Usb.extractModBits
      rw [if_neg hout]
    rw [hnone, modUsages_none] at h
    exact List.not_mem_nil h
  obtain ⟨code, hmod, -, rfl⟩ := (mem_modUsages _ usage).mp h
  rw [original_plain s press release keycode code _ hrecordable hoff (by bv_omega)
    (codeUsage?_modifier code hmod),
    registers_mods_keycode s press keycode _ hrange.1 hrange.2]
  exact Or.inl h

/-- Nothing but the keycode itself decides what its replay registers, and so the
    replay is faithful only where the keycode does no more than its low byte
    says: a basic keycode that is not remapped, with modifiers or without, or a
    key that has just been used as its low byte. -/
theorem replay_faithful_iff (s : Setting) (press release : Tap) (keycode : Keycode)
    (hrecordable : Recorder.recordable keycode = true) :
    (∀ usage, Registers (s.replay keycode) usage →
        Registers (s.original press release keycode) usage) ↔
      s.Replayable press keycode := by
  constructor
  · intro hfaithful
    unfold Replayable
    cases hbt : s.btOn with
    | true => exact Or.inl rfl
    | false =>
      cases hcode : codeUsage? (lowByte keycode) with
      | none => exact Or.inr (Or.inl rfl)
      | some usage =>
        have hreplay : Registers (s.replay keycode) usage :=
          (registers_replay s keycode usage).mpr (Or.inl ⟨hbt, Or.inr hcode⟩)
        exact Or.inr (Or.inr ((original_registers_iff s press release keycode usage hrecordable
          hbt hcode).mp (hfaithful usage hreplay)))
  · intro hreplayable usage hreplay
    rcases (registers_replay s keycode usage).mp hreplay with ⟨hoff, hmods | hcode⟩ | ⟨hbasic, rfl⟩
    · exact original_modifiers s press release keycode usage hrecordable hoff hmods
    · rcases hreplayable with hon | hsilent | hmirrors
      · rw [hoff] at hon
        cases hon
      · rw [hsilent] at hcode
        cases hcode
      · exact (original_registers_iff s press release keycode usage hrecordable hoff hcode).mpr
          hmirrors
    · exact original_tracked s press release keycode hrecordable hbasic

/-- On the wire, with nothing remapped, held or recorded. -/
def wired : Setting :=
  { btOn := false, config := KeymapConfig.default, oneshotDisable := false,
    functions := fun _ => ActionCode.no, mods := 0, oneshotMods := 0, dynamicRecording := false,
    dynamicMacro := fun _ => [], slots := fun _ => [], quick := false, effectMax := 2,
    light := RgbMatrix.init (RgbConfig.default 1) }

/-- The replay of a letter is faithful. -/
theorem replay_faithful_letter :
    Recorder.recordable kcA = true ∧
      ((∀ usage, Registers (wired.replay kcA) usage →
          Registers (wired.original Tap.untapped Tap.untapped kcA) usage) ↔
        wired.Replayable Tap.untapped kcA) :=
  ⟨by decide, replay_faithful_iff wired Tap.untapped Tap.untapped kcA (by decide)⟩

/-- The key of a layer is recorded, and its replay types the letter that the
    number of the layer is the code of. -/
theorem momentary_types_letter :
    Recorder.recordable (mo 4) = true ∧ Registers (wired.replay (mo 4)) (.key (lowByte kcA)) ∧
      ¬ Registers (wired.original Tap.untapped Tap.untapped (mo 4)) (.key (lowByte kcA)) := by
  refine ⟨by decide, by decide, by decide +kernel⟩

end Setting

end K530
