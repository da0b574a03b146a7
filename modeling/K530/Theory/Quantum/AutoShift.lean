import K530.Lib.Run
import K530.Quantum.AutoShift
import K530.Theory.Keymap.Wire

/-!
# No Shift Is Left Behind

A shift that Auto Shift takes away it gives back, and a shift that it adds it takes
out again. `Sound` is what that comes to between two events: a real shift that is on
or is to be given back is one of a key that is held, and so is a weak one, unless it
is Auto Shift's and the key that is being repeated is still held, which takes it out
when it is released.

Two events get in between. A shift is no longer to be given back when `KC_LSFT` or
`KC_RSFT` is released, but a modifier-tap that held it is not asked. And a press
makes Auto Shift forget the key that is repeated, with the shift it has added:
presses begin by clearing the weak modifiers, but the tapping code may process one
later, and the timeout may run out meanwhile. `no_shift_left_along` is the run without
either.

## Main definitions

* `KeyAction.real`, `KeyAction.weak`: The modifiers of a key that is held.

## Theorems

* `no_shift_left_along`: No shift is left, along a run.
* `no_shift_left_broken`: One that is.
-/

namespace K530

open StepRun

/-! ### Modifiers -/

theorem not_isMod_of_isKey (code : Byte) (h : isKey code) : isMod code = false := by
  unfold isKey at h
  unfold isMod
  simp only [Bool.and_eq_true, decide_eq_true_eq, BitVec.le_def] at h
  simp only [Bool.and_eq_false_iff, decide_eq_false_iff_not, BitVec.le_def]
  have htop : (0xA4 : Byte).toNat = 164 := rfl
  have hbottom : (0xE0 : Byte).toNat = 224 := rfl
  omega

theorem and_not_zero (m : Byte) : m &&& ~~~(0 : Byte) = m := BitVec.and_allOnes

namespace Usb

@[simp] theorem sendKeyboardReport_realMods (u : Usb) :
    u.sendKeyboardReport.realMods = u.realMods := by
  unfold sendKeyboardReport
  dsimp only
  split <;> rfl

@[simp] theorem sendKeyboardReport_weakMods (u : Usb) :
    u.sendKeyboardReport.weakMods = u.weakMods := by
  unfold sendKeyboardReport
  dsimp only
  split <;> rfl

theorem registerCode_realMods (code : Byte) (u : Usb) :
    (u.registerCode code).realMods = u.realMods ||| Usb.modMask code := by
  unfold registerCode Usb.modMask
  by_cases hzero : code = 0
  · subst hzero
    simp [isMod]
  · rw [if_neg hzero]
    cases hkey : isKey code with
    | true =>
      rw [if_pos rfl, not_isMod_of_isKey code hkey]
      dsimp only
      split <;> simp [addKey, delKey]
    | false =>
      cases hmod : isMod code with
      | true => simp [addMods]
      | false =>
        have hnone : u.realMods ||| (0 : Byte) = u.realMods := BitVec.or_zero
        simp only [Bool.false_eq_true, if_false, hnone]
        split
        · rfl
        · split <;> rfl

theorem registerCode_weakMods (code : Byte) (u : Usb) :
    (u.registerCode code).weakMods = u.weakMods := by
  unfold registerCode
  split
  · rfl
  · split
    · dsimp only
      split <;> simp [addKey, delKey]
    · split
      · simp [addMods]
      · split
        · rfl
        · split <;> rfl

theorem unregisterCode_realMods (code : Byte) (u : Usb) :
    (u.unregisterCode code).realMods = u.realMods &&& ~~~Usb.modMask code := by
  unfold unregisterCode Usb.modMask
  by_cases hzero : code = 0
  · subst hzero
    exact (and_not_zero u.realMods).symm
  · rw [if_neg hzero]
    cases hkey : isKey code with
    | true =>
      rw [if_pos rfl, not_isMod_of_isKey code hkey]
      simp only [Bool.false_eq_true, if_false, and_not_zero]
      simp [delKey]
    | false =>
      cases hmod : isMod code with
      | true => simp [delMods]
      | false =>
        simp only [Bool.false_eq_true, if_false, and_not_zero]
        split
        · rfl
        · split <;> rfl

theorem unregisterCode_weakMods (code : Byte) (u : Usb) :
    (u.unregisterCode code).weakMods = u.weakMods := by
  unfold unregisterCode
  split
  · rfl
  · split
    · simp [delKey]
    · split
      · simp [delMods]
      · split
        · rfl
        · split <;> rfl

theorem extractModBits_basic (keycode : Keycode) (h : keycode ≤ 0xFF) :
    extractModBits keycode = 0 := by
  unfold extractModBits
  rw [if_neg]
  intro hc
  simp only [BitVec.le_def] at h hc
  have htop : (0xFF : Keycode).toNat = 255 := rfl
  have hbottom : (0x0100 : Keycode).toNat = 256 := rfl
  omega

theorem registerCode16_plain (keycode : Keycode) (u : Usb) (h : keycode ≤ 0xFF)
    (hkey : isKey (lowByte keycode)) :
    (u.registerCode16 keycode).realMods = u.realMods ∧
      (u.registerCode16 keycode).weakMods = u.weakMods := by
  have hmod := not_isMod_of_isKey _ hkey
  unfold registerCode16
  rw [extractModBits_basic keycode h]
  dsimp only
  rw [registerCode_realMods, registerCode_weakMods]
  unfold Usb.modMask registerMods registerWeakMods
  simp [hmod]

theorem unregisterCode16_plain (keycode : Keycode) (u : Usb) (h : keycode ≤ 0xFF)
    (hkey : isKey (lowByte keycode)) :
    (u.unregisterCode16 keycode).realMods = u.realMods ∧
      (u.unregisterCode16 keycode).weakMods = u.weakMods := by
  have hmod := not_isMod_of_isKey _ hkey
  have hreal := unregisterCode_realMods (lowByte keycode) u
  have hweak := unregisterCode_weakMods (lowByte keycode) u
  unfold unregisterCode16
  rw [extractModBits_basic keycode h]
  unfold Usb.modMask at hreal
  rw [hmod, if_neg Bool.false_ne_true, and_not_zero] at hreal
  unfold unregisterMods unregisterWeakMods
  simp [hreal, hweak]

theorem clearKeyboardButModsAndKeys_mods (u : Usb) :
    u.clearKeyboardButModsAndKeys.realMods = u.realMods ∧
      u.clearKeyboardButModsAndKeys.weakMods = 0 := by
  unfold clearKeyboardButModsAndKeys
  simp [clearMacroMods, clearWeakMods, consumerSend, systemSend]

theorem registerMods_mods (mods : Byte) (u : Usb) :
    (u.registerMods mods).realMods = u.realMods ||| mods ∧
      (u.registerMods mods).weakMods = u.weakMods := by
  unfold registerMods
  by_cases hnone : mods = 0
  · subst hnone
    simp
  · rw [if_pos hnone]
    simp [addMods]

theorem unregisterMods_mods (mods : Byte) (u : Usb) :
    (u.unregisterMods mods).realMods = u.realMods &&& ~~~mods ∧
      (u.unregisterMods mods).weakMods = u.weakMods := by
  unfold unregisterMods
  by_cases hnone : mods = 0
  · subst hnone
    rw [if_neg (not_not_intro rfl), and_not_zero]
    exact ⟨rfl, rfl⟩
  · rw [if_pos hnone]
    simp [delMods]

end Usb

/-! ### What a key does to the modifiers -/

/-- The real modifiers of a key. -/
def KeyAction.real (hold : Bool) : KeyAction → Byte
  | plain (.mods right mods code) =>
    (if isMod code || code == 0 then (if right then mods <<< 4 else mods) else 0) |||
      Usb.modMask code
  | plain (.layerTapKey _ code) => if hold then 0 else Usb.modMask code
  | plain _ => 0
  | modsTap mods code => if hold then mods else Usb.modMask code

/-- The weak ones. -/
def KeyAction.weak : KeyAction → Byte
  | plain (.mods right mods code) =>
    if isMod code || code == 0 then 0 else if right then mods <<< 4 else mods
  | _ => 0

namespace Qmk

theorem processMods_press (mods code : Byte) (u : Usb) :
    (processMods true mods code u).realMods =
        u.realMods ||| ((if isMod code || code == 0 then mods else 0) ||| Usb.modMask code) ∧
      (processMods true mods code u).weakMods =
        u.weakMods ||| (if isMod code || code == 0 then 0 else mods) := by
  unfold processMods
  rw [if_pos rfl]
  dsimp only
  rw [Usb.registerCode_realMods, Usb.registerCode_weakMods]
  by_cases hnone : mods = 0
  · subst hnone
    simp
  · rw [if_pos hnone]
    split <;> simp [Usb.addMods, Usb.addWeakMods, BitVec.or_assoc]

theorem processMods_release (mods code : Byte) (u : Usb) :
    (processMods false mods code u).realMods =
        u.realMods &&& ~~~((if isMod code || code == 0 then mods else 0) ||| Usb.modMask code) ∧
      (processMods false mods code u).weakMods =
        u.weakMods &&& ~~~(if isMod code || code == 0 then 0 else mods) := by
  have hreal := Usb.unregisterCode_realMods code u
  have hweak := Usb.unregisterCode_weakMods code u
  unfold processMods
  rw [if_neg Bool.false_ne_true]
  dsimp only
  by_cases hnone : mods = 0
  · subst hnone
    rw [if_neg (not_not_intro rfl), ite_self, hreal, hweak, and_not_zero]
    simp
  · rw [if_pos hnone]
    split
    · simp only [Usb.sendKeyboardReport_realMods, Usb.sendKeyboardReport_weakMods, Usb.delMods,
        hreal, hweak, and_not_zero, and_true]
      ext i hi
      simp [Bool.and_comm, Bool.and_left_comm]
    · simp [Usb.delWeakMods, hreal, hweak]

end Qmk

namespace KeyAction

theorem layerStateSet_mods (state : BitVec 32) (q : Qmk) :
    (q.layerStateSet state).usb.realMods = q.usb.realMods ∧
      (q.layerStateSet state).usb.weakMods = 0 :=
  q.usb.clearKeyboardButModsAndKeys_mods

theorem layerStateSet_weak (state : BitVec 32) (q : Qmk) (i : Nat) :
    ¬ (q.layerStateSet state).usb.weakMods.getLsbD i := by
  rw [(layerStateSet_mods state q).2]
  exact ne_true_of_eq_false BitVec.getLsbD_zero

theorem process_press (hold : Bool) (a : KeyAction) (q : Qmk) :
    (a.process true hold q).usb.realMods = q.usb.realMods ||| a.real hold ∧
      ∀ i, (a.process true hold q).usb.weakMods.getLsbD i →
        q.usb.weakMods.getLsbD i ∨ a.weak.getLsbD i := by
  cases a with
  | plain a =>
    cases a with
    | mods right mods code =>
      -- With a modifier they are real ones, and weak with a key.
      obtain ⟨hreal, hweak⟩ :=
        Qmk.processMods_press (if right then mods <<< 4 else mods) code q.usb
      refine ⟨hreal, fun i hi => ?_⟩
      change (Qmk.processMods true _ code q.usb).weakMods.getLsbD i = true at hi
      rw [hweak, BitVec.getLsbD_or, Bool.or_eq_true] at hi
      exact hi
    | system usage => exact ⟨BitVec.or_zero.symm, fun i hi => Or.inl hi⟩
    | consumer usage => exact ⟨BitVec.or_zero.symm, fun i hi => Or.inl hi⟩
    | layerOnOff layer =>
      obtain ⟨hreal, -⟩ := layerStateSet_mods (q.layers.state ||| 1#32 <<< layer) q
      exact ⟨hreal.trans BitVec.or_zero.symm, fun i hi => absurd hi (layerStateSet_weak _ q i)⟩
    | layerTapKey layer code =>
      cases hold with
      | true =>
        obtain ⟨hreal, -⟩ := layerStateSet_mods (q.layers.state ||| 1#32 <<< layer) q
        exact ⟨hreal.trans BitVec.or_zero.symm,
          fun i hi => absurd hi (layerStateSet_weak _ q i)⟩
      | false =>
        refine ⟨q.usb.registerCode_realMods code, fun i hi => Or.inl ?_⟩
        rw [← q.usb.registerCode_weakMods code]
        exact hi
  | modsTap mods code =>
    cases hold with
    | true =>
      obtain ⟨hreal, hweak⟩ := q.usb.registerMods_mods mods
      refine ⟨hreal, fun i hi => Or.inl ?_⟩
      rw [← hweak]
      exact hi
    | false =>
      refine ⟨q.usb.registerCode_realMods code, fun i hi => Or.inl ?_⟩
      rw [← q.usb.registerCode_weakMods code]
      exact hi

theorem process_release (hold : Bool) (a : KeyAction) (q : Qmk) :
    (a.process false hold q).usb.realMods = q.usb.realMods &&& ~~~a.real hold ∧
      ∀ i, (a.process false hold q).usb.weakMods.getLsbD i →
        q.usb.weakMods.getLsbD i ∧ a.weak.getLsbD i = false := by
  have hnone : ∀ i, (0 : Byte).getLsbD i = false := fun i => BitVec.getLsbD_zero
  cases a with
  | plain a =>
    cases a with
    | mods right mods code =>
      obtain ⟨hreal, hweak⟩ :=
        Qmk.processMods_release (if right then mods <<< 4 else mods) code q.usb
      refine ⟨hreal, fun i hi => ?_⟩
      change (Qmk.processMods false _ code q.usb).weakMods.getLsbD i = true at hi
      rw [hweak, BitVec.getLsbD_and, BitVec.getLsbD_not, Bool.and_eq_true,
        Bool.and_eq_true, Bool.not_eq_true'] at hi
      exact ⟨hi.1, hi.2.2⟩
    | system usage => exact ⟨(and_not_zero _).symm, fun i hi => ⟨hi, hnone i⟩⟩
    | consumer usage => exact ⟨(and_not_zero _).symm, fun i hi => ⟨hi, hnone i⟩⟩
    | layerOnOff layer =>
      obtain ⟨hreal, -⟩ := layerStateSet_mods (q.layers.state &&& ~~~(1#32 <<< layer)) q
      exact ⟨hreal.trans (and_not_zero _).symm,
        fun i hi => absurd hi (layerStateSet_weak _ q i)⟩
    | layerTapKey layer code =>
      cases hold with
      | true =>
        obtain ⟨hreal, -⟩ := layerStateSet_mods (q.layers.state &&& ~~~(1#32 <<< layer)) q
        exact ⟨hreal.trans (and_not_zero _).symm,
          fun i hi => absurd hi (layerStateSet_weak _ q i)⟩
      | false =>
        refine ⟨q.usb.unregisterCode_realMods code, fun i hi => ⟨?_, hnone i⟩⟩
        rw [← q.usb.unregisterCode_weakMods code]
        exact hi
  | modsTap mods code =>
    cases hold with
    | true =>
      obtain ⟨hreal, hweak⟩ := q.usb.unregisterMods_mods mods
      refine ⟨hreal, fun i hi => ⟨?_, hnone i⟩⟩
      rw [← hweak]
      exact hi
    | false =>
      refine ⟨q.usb.unregisterCode_realMods code, fun i hi => ⟨?_, hnone i⟩⟩
      rw [← q.usb.unregisterCode_weakMods code]
      exact hi

end KeyAction

/-! ### What Auto Shift does to the shifts -/

/-- The bit of the left or the right shift. -/
def shiftBit (right : Bool) : Nat := if right then 5 else 1

theorem AutoShiftConfig.autoShifted_plain (cfg : AutoShiftConfig) (keycode : Keycode)
    (h : cfg.getAutoShiftedKey keycode) :
    keycode ≤ 0xFF ∧ isKey (lowByte keycode) := by
  by_cases hcustom : cfg.custom keycode
  · exact cfg.customPlain keycode hcustom
  · -- every other one is between `KC_A` and the key beside the left shift
    have hrange : 4 ≤ keycode.toNat ∧ keycode.toNat ≤ 100 := by
      unfold getAutoShiftedKey at h
      simp only [Bool.or_eq_true, Bool.and_eq_true, decide_eq_true_eq, BitVec.le_def, hcustom]
        at h
      simp only [kcA, kcZ, kc1, kc0, kcTab, kcMinus, kcSlash] at h
      rcases h with ((h | h) | h) | h
      · simp at h
        omega
      · simp at h
        omega
      · rcases h.2 with (h | h) | h
        · subst h
          decide
        · simp at h
          omega
        · subst h
          decide
      · simp at h
    -- The low byte is all there is of such a keycode.
    have hlow : (lowByte keycode).toNat = keycode.toNat := by
      unfold lowByte
      rw [BitVec.toNat_setWidth]
      omega
    unfold isKey
    simp only [BitVec.le_def, Bool.and_eq_true, decide_eq_true_eq, hlow]
    have hbottom : (0x04 : Byte).toNat = 4 := rfl
    have htop : (0xA4 : Byte).toNat = 164 := rfl
    have hbyte : (0xFF : Keycode).toNat = 255 := rfl
    omega

namespace AutoShift

/-- The real shift. -/
def real (right : Bool) (s : AutoShift) : Bool := s.qmk.usb.realMods.getLsbD (shiftBit right)

/-- The weak shift. -/
def weak (right : Bool) (s : AutoShift) : Bool := s.qmk.usb.weakMods.getLsbD (shiftBit right)

/-- The shift is to be given back. -/
def cancelling (right : Bool) (s : AutoShift) : Bool :=
  if right then s.cancellingRshift else s.cancellingLshift

/-- The real shift is on, or to be given back. -/
def wants (right : Bool) (s : AutoShift) : Bool := s.real right || s.cancelling right

structure Quiet (s s' : AutoShift) : Prop where
  wants : ∀ right, s'.wants right = true → s.wants right = true
  weakRight : s'.weak true = true → s.weak true = true
  inProgress : s'.inProgress = true → s.inProgress = true

theorem Quiet.refl (s : AutoShift) : Quiet s s := ⟨fun _ h => h, fun h => h, fun h => h⟩

theorem Quiet.trans {r s t : AutoShift} (h : Quiet r s) (h' : Quiet s t) : Quiet r t where
  wants right hw := h.wants right (h'.wants right hw)
  weakRight hw := h.weakRight (h'.weakRight hw)
  inProgress hp := h.inProgress (h'.inProgress hp)

structure Calm (s s' : AutoShift) : Prop extends Quiet s s' where
  enabled : s'.enabled = s.enabled
  lastkey : s'.lastkey = s.lastkey

theorem Calm.refl (s : AutoShift) : Calm s s := ⟨Quiet.refl s, rfl, rfl⟩

theorem Calm.trans {r s t : AutoShift} (h : Calm r s) (h' : Calm s t) : Calm r t where
  toQuiet := h.toQuiet.trans h'.toQuiet
  enabled := h'.enabled.trans h.enabled
  lastkey := h'.lastkey.trans h.lastkey

theorem onUsb_calm (f : Usb → Usb) (s : AutoShift)
    (hreal : (f s.qmk.usb).realMods = s.qmk.usb.realMods)
    (hweak : (f s.qmk.usb).weakMods = s.qmk.usb.weakMods) :
    Calm s (s.onUsb f) ∧ ∀ right, (s.onUsb f).weak right = s.weak right := by
  have hsame : ∀ right, (s.onUsb f).weak right = s.weak right :=
    fun right => congrArg (·.getLsbD (shiftBit right)) hweak
  refine ⟨⟨⟨fun right h => ?_, fun h => ?_, fun h => h⟩, rfl, rfl⟩, hsame⟩
  · have hon : (s.onUsb f).real right = s.real right :=
      congrArg (·.getLsbD (shiftBit right)) hreal
    unfold wants at h ⊢
    rw [hon] at h
    exact h
  · rw [← hsame]
    exact h

theorem flushShift_calm (s : AutoShift) :
    Calm s s.flushShift ∧ s.flushShift.weak false = false ∧
      ∀ right, s.flushShift.cancelling right = false := by
  have hreal : ∀ right, s.flushShift.real right = s.wants right := by
    intro right
    unfold flushShift wants real cancelling shiftBit onUsb Qmk.onUsb
    cases s.cancellingLshift <;> cases s.cancellingRshift <;> cases right <;>
      simp [Usb.addMods, Usb.delWeakMods, lshift, rshift]
  have hweak : s.flushShift.qmk.usb.weakMods = s.qmk.usb.weakMods &&& ~~~lshift := by
    unfold flushShift onUsb Qmk.onUsb
    cases s.cancellingLshift <;> cases s.cancellingRshift <;>
      simp [Usb.addMods, Usb.delWeakMods]
  have hcancel : ∀ right, s.flushShift.cancelling right = false := by
    intro right
    unfold flushShift cancelling onUsb Qmk.onUsb
    cases hleft : s.cancellingLshift <;> cases hright : s.cancellingRshift <;>
      cases right <;> first | exact hleft | exact hright | rfl
  -- Only the USB side and the two flags are touched.
  have hrest : s.flushShift.inProgress = s.inProgress ∧ s.flushShift.enabled = s.enabled ∧
      s.flushShift.lastkey = s.lastkey := by
    unfold flushShift onUsb Qmk.onUsb
    cases s.cancellingLshift <;> cases s.cancellingRshift <;> exact ⟨rfl, rfl, rfl⟩
  obtain ⟨hp, he, hl⟩ := hrest
  refine ⟨⟨⟨fun right h => ?_, fun h => ?_, fun h => hp ▸ h⟩, he, hl⟩, ?_, hcancel⟩
  · unfold wants at h
    rw [hcancel, Bool.or_false, hreal] at h
    exact h
  · unfold weak at h ⊢
    rw [hweak, BitVec.getLsbD_and, Bool.and_eq_true] at h
    exact h.1
  · unfold weak
    rw [hweak, BitVec.getLsbD_and]
    exact Bool.and_false _

theorem and_lshift_ne (m : Byte) : m &&& lshift ≠ 0 ↔ m.getLsbD 1 = true := by
  revert m
  decide +kernel

theorem and_rshift_ne (m : Byte) : m &&& rshift ≠ 0 ↔ m.getLsbD 5 = true := by
  revert m
  decide +kernel

theorem cancelShift_calm (s : AutoShift) :
    Calm s s.cancelShift ∧ ∀ right, s.cancelShift.weak right = s.weak right := by
  -- A shift that is on is moved into its flag, so as many are wanted as before.
  have hwants : ∀ right, s.cancelShift.wants right = s.wants right := by
    intro right
    unfold cancelShift wants real cancelling getMods onUsb Qmk.onUsb shiftBit
    simp only [and_lshift_ne, and_rshift_ne]
    by_cases hleft : s.qmk.usb.realMods.getLsbD 1 = true <;>
      by_cases hright : s.qmk.usb.realMods.getLsbD 5 = true <;>
      cases right <;> simp at hleft hright <;>
      simp [hleft, hright, Usb.delMods, lshift, rshift]
  have hrest : s.cancelShift.qmk.usb.weakMods = s.qmk.usb.weakMods ∧
      s.cancelShift.inProgress = s.inProgress ∧ s.cancelShift.enabled = s.enabled ∧
        s.cancelShift.lastkey = s.lastkey := by
    unfold cancelShift
    dsimp only
    split <;> split <;> exact ⟨rfl, rfl, rfl, rfl⟩
  obtain ⟨hw, hp, he, hl⟩ := hrest
  have hsame : ∀ right, s.cancelShift.weak right = s.weak right :=
    fun right => congrArg (·.getLsbD (shiftBit right)) hw
  exact ⟨⟨⟨fun right h => hwants right ▸ h, fun h => hsame true ▸ h, fun h => hp ▸ h⟩, he, hl⟩,
    hsame⟩

theorem isRetro_plain (keycode : Keycode) (h : keycode ≤ 0xFF) : isRetro keycode = false := by
  unfold isRetro isMt isLt
  simp only [BitVec.le_def] at h ⊢
  have hbyte : (0xFF : Keycode).toNat = 255 := rfl
  have hmt : (0x6000 : Keycode).toNat = 24576 := rfl
  have hlt : (0x4000 : Keycode).toNat = 16384 := rfl
  simp only [Bool.or_eq_false_iff, Bool.and_eq_false_iff, decide_eq_false_iff_not]
  omega

theorem tapKeycode_plain (keycode : Keycode) (h : keycode ≤ 0xFF) :
    tapKeycode keycode = keycode := by
  unfold tapKeycode
  rw [isRetro_plain keycode h, if_neg Bool.false_ne_true]

variable (cfg : AutoShiftConfig) (keycode : Keycode)

theorem pressUser_calm (shifted : Bool) (s : AutoShift) (h : cfg.getAutoShiftedKey keycode) :
    Calm s (s.pressUser keycode shifted) := by
  obtain ⟨hplain, hkey⟩ := cfg.autoShifted_plain keycode h
  unfold pressUser
  rw [tapKeycode_plain keycode hplain]
  -- The weak shift that is added is the left one, which `Calm` does not speak of.
  have hadd : Calm s (if shifted then s.onUsb (Usb.addWeakMods lshift) else s) := by
    cases shifted with
    | true =>
      refine ⟨⟨fun right h => h, fun h => ?_, fun h => h⟩, rfl, rfl⟩
      change (s.qmk.usb.weakMods ||| lshift).getLsbD 5 = true at h
      rw [BitVec.getLsbD_or, Bool.or_eq_true] at h
      exact h.resolve_right (by decide)
    | false => exact Calm.refl s
  refine hadd.trans ?_
  obtain ⟨hreal, hweak⟩ := Usb.registerCode16_plain keycode _ hplain hkey
  exact (onUsb_calm _ _ hreal hweak).1

theorem pressUser_unshifted (s : AutoShift) (h : cfg.getAutoShiftedKey keycode) :
    ∀ right, (s.pressUser keycode false).weak right = s.weak right := by
  obtain ⟨hplain, hkey⟩ := cfg.autoShifted_plain keycode h
  unfold pressUser
  rw [tapKeycode_plain keycode hplain, if_neg Bool.false_ne_true]
  obtain ⟨hreal, hweak⟩ := s.qmk.usb.registerCode16_plain keycode hplain hkey
  exact (onUsb_calm _ s hreal hweak).2

theorem releaseUser_calm (s : AutoShift) (h : cfg.getAutoShiftedKey keycode) :
    Calm s (s.releaseUser keycode) ∧
      ∀ right, (s.releaseUser keycode).weak right = s.weak right := by
  obtain ⟨hplain, hkey⟩ := cfg.autoShifted_plain keycode h
  unfold releaseUser
  rw [tapKeycode_plain keycode hplain]
  obtain ⟨hreal, hweak⟩ := s.qmk.usb.unregisterCode16_plain keycode hplain hkey
  exact onUsb_calm _ s hreal hweak

variable (now : BitVec 16) (s : AutoShift)

theorem time_calm : Calm s { s with time := now } :=
  ⟨⟨fun _ h => h, fun h => h, fun h => h⟩, rfl, rfl⟩

theorem autoshiftEnd_tap (matrixTrigger : Bool) (s : AutoShift) (hp : s.inProgress)
    (hkey : keycode = s.lastkey ∨ keycode = kcNo) (hlast : cfg.getAutoShiftedKey s.lastkey) :
    Calm s (s.autoshiftEnd cfg keycode now matrixTrigger) ∧
      (s.autoshiftEnd cfg keycode now matrixTrigger).inProgress = false ∧
      (matrixTrigger = false →
        (s.autoshiftEnd cfg keycode now matrixTrigger).weak false = false ∧
          ∀ right, (s.autoshiftEnd cfg keycode now matrixTrigger).cancelling right = false) := by
  have hguard : (s.inProgress && (decide (keycode = s.lastkey) || decide (keycode = kcNo)))
      := by
    simpa [hp] using hkey
  unfold autoshiftEnd
  rw [if_pos hguard]
  dsimp only
  -- Whether the key was held for long enough does not matter to the shifts.
  generalize hnoted : ({ s with
    inProgress := false
    lastshifted :=
      s.lastshifted || decide (s.timeoutOf cfg s.lastkey ≤ now - s.time) } : AutoShift) = noted
  have hstart : Calm s noted := by
    subst hnoted
    exact ⟨⟨fun _ h => h, fun h => h, fun h => absurd h Bool.false_ne_true⟩, rfl, rfl⟩
  have hdone : noted.inProgress = false := by
    subst hnoted
    rfl
  obtain ⟨hcancel, -⟩ := cancelShift_calm noted
  have hkept : cfg.getAutoShiftedKey noted.cancelShift.lastkey := by
    rw [hcancel.lastkey, hstart.lastkey]
    exact hlast
  have hpress := pressUser_calm cfg noted.cancelShift.lastkey noted.cancelShift.lastshifted
    noted.cancelShift hkept
  generalize noted.cancelShift.pressUser noted.cancelShift.lastkey noted.cancelShift.lastshifted
    = pressed at hpress ⊢
  -- The shift that is on is taken away, and the key is registered with its own.
  have htap := hcancel.trans hpress
  split
  · -- the key stays registered
    rename_i hrepeat
    refine ⟨hstart.trans htap, ?_, fun hm => ?_⟩
    · by_contra hcon
      rw [htap.inProgress (by simpa using hcon)] at hdone
      exact Bool.false_ne_true hdone.symm
    · simp [hm] at hrepeat
  · have hkept' : cfg.getAutoShiftedKey pressed.lastkey := by
      rw [hpress.lastkey]
      exact hkept
    obtain ⟨hrelease, -⟩ := releaseUser_calm cfg pressed.lastkey pressed hkept'
    -- It is unregistered, and the shifts are given back.
    obtain ⟨hflush, hweak, hback⟩ := flushShift_calm (pressed.releaseUser pressed.lastkey)
    have hall := htap.trans (hrelease.trans hflush)
    refine ⟨hstart.trans (hall.trans (time_calm now _)), ?_, fun _ => ⟨hweak, hback⟩⟩
    by_contra hcon
    rw [hall.inProgress (by simpa using hcon)] at hdone
    exact Bool.false_ne_true hdone.symm

theorem autoshiftEnd_release (matrixTrigger : Bool) (s : AutoShift)
    (hkey : cfg.getAutoShiftedKey keycode)
    (hnot : ¬(s.inProgress ∧ keycode = s.lastkey)) :
    Calm s (s.autoshiftEnd cfg keycode now matrixTrigger) ∧
      ((s.autoshiftEnd cfg keycode now matrixTrigger).weak false →
        s.weak false ∧ keycode ≠ s.lastkey) := by
  -- `KC_NO` stands for the key that is waited for, and is not auto-shifted itself.
  have hno : keycode ≠ kcNo := by
    rintro rfl
    exact absurd (cfg.autoShifted_plain kcNo hkey).2 (by decide)
  have hguard : ¬(s.inProgress && (decide (keycode = s.lastkey) || decide (keycode = kcNo)))
      := by
    simpa [hno] using hnot
  unfold autoshiftEnd
  rw [if_neg hguard]
  dsimp only
  obtain ⟨hrelease, hsame⟩ := releaseUser_calm cfg keycode s hkey
  by_cases hlast : keycode = (s.releaseUser keycode).lastkey
  · rw [if_pos hlast]
    -- The key that may be repeated takes the weak shift with it.
    obtain ⟨hflush, hweak, -⟩ := flushShift_calm (s.releaseUser keycode)
    refine ⟨hrelease.trans (hflush.trans (time_calm now _)), fun h => ?_⟩
    exact absurd (h.symm.trans hweak) (by decide)
  · rw [if_neg hlast]
    refine ⟨hrelease.trans (time_calm now _), fun h => ⟨?_, ?_⟩⟩
    · rw [← hsame]
      exact h
    · rw [hrelease.lastkey] at hlast
      exact hlast

def evaluatePrevious (now : BitVec 16) (s : AutoShift) : AutoShift :=
  if s.inProgress then s.autoshiftEnd cfg kcNo now false else s

theorem evaluatePrevious_calm
    (hlast : s.inProgress → cfg.getAutoShiftedKey s.lastkey) :
    Calm s (s.evaluatePrevious cfg now) ∧ (s.evaluatePrevious cfg now).inProgress = false ∧
      (s.evaluatePrevious cfg now = s ∧ s.inProgress = false ∨
        (s.evaluatePrevious cfg now).weak false = false) := by
  unfold evaluatePrevious
  cases hp : s.inProgress with
  | true =>
    obtain ⟨hcalm, hdone, hclear⟩ :=
      autoshiftEnd_tap cfg kcNo now false s hp (Or.inr rfl) (hlast hp)
    exact ⟨hcalm, hdone, Or.inr (hclear rfl).1⟩
  | false => exact ⟨Calm.refl s, hp, Or.inl ⟨rfl, rfl⟩⟩

theorem processOwn_quiet :
    Quiet s (s.processOwn keycode) ∧
      ((s.processOwn keycode).weak false →
        s.weak false ∧ keycode ≠ kcAstg ∧ keycode ≠ kcAsoff) := by
  unfold processOwn
  by_cases htoggle : keycode = kcAstg
  · rw [if_pos htoggle]
    obtain ⟨hflush, hweak, -⟩ := flushShift_calm { s with enabled := !s.enabled }
    refine ⟨⟨hflush.wants, hflush.weakRight, hflush.inProgress⟩, fun h => ?_⟩
    exact absurd (h.symm.trans hweak) (by decide)
  rw [if_neg htoggle]
  by_cases hon : keycode = kcAson
  · rw [if_pos hon]
    have hnot : keycode ≠ kcAsoff := by
      rw [hon]
      decide
    exact ⟨⟨fun _ h => h, fun h => h, fun h => h⟩, fun h => ⟨h, htoggle, hnot⟩⟩
  rw [if_neg hon]
  by_cases hoff : keycode = kcAsoff
  · rw [if_pos hoff]
    obtain ⟨hflush, hweak, -⟩ := flushShift_calm { s with enabled := false }
    refine ⟨⟨hflush.wants, hflush.weakRight, hflush.inProgress⟩, fun h => ?_⟩
    exact absurd (h.symm.trans hweak) (by decide)
  rw [if_neg hoff]
  split
  · exact ⟨⟨fun _ h => h, fun h => h, fun h => h⟩, fun h => ⟨h, htoggle, hoff⟩⟩
  · split <;> exact ⟨⟨fun _ h => h, fun h => h, fun h => h⟩, fun h => ⟨h, htoggle, hoff⟩⟩

theorem processOwn_plain (h : cfg.getAutoShiftedKey keycode) : s.processOwn keycode = s := by
  have hplain := (cfg.autoShifted_plain keycode h).1
  have hne : ∀ own : Keycode, 0x5C00 ≤ own → keycode ≠ own := by
    intro own hown heq
    subst heq
    simp only [BitVec.le_def] at hown hplain
    have hbyte : (0xFF : Keycode).toNat = 255 := rfl
    have hfirst : (0x5C00 : Keycode).toNat = 23552 := rfl
    omega
  unfold processOwn
  rw [if_neg (hne _ (by decide)), if_neg (hne _ (by decide)), if_neg (hne _ (by decide)),
    if_neg (hne _ (by decide)), if_neg (hne _ (by decide))]

def releaseShift (keycode : Keycode) (s : AutoShift) : AutoShift :=
  if keycode = kcLeftShift then { s with cancellingLshift := false }
  else if keycode = kcRightShift then { s with cancellingRshift := false }
  else s

theorem releaseShift_calm :
    Calm s (s.releaseShift keycode) ∧
      (s.releaseShift keycode).inProgress = s.inProgress ∧
      (∀ right, (s.releaseShift keycode).weak right = s.weak right) ∧
      ∀ right, (s.releaseShift keycode).cancelling right →
        s.cancelling right = true ∧ keycode ≠ (if right then kcRightShift else kcLeftShift) := by
  have hrest : (s.releaseShift keycode).qmk = s.qmk ∧
      (s.releaseShift keycode).inProgress = s.inProgress ∧
      (s.releaseShift keycode).enabled = s.enabled ∧
      (s.releaseShift keycode).lastkey = s.lastkey := by
    unfold releaseShift
    split
    · exact ⟨rfl, rfl, rfl, rfl⟩
    · split <;> exact ⟨rfl, rfl, rfl, rfl⟩
  obtain ⟨hq, hp, he, hl⟩ := hrest
  have hweak : ∀ right, (s.releaseShift keycode).weak right = s.weak right :=
    fun right => congrArg (fun q : Qmk => q.usb.weakMods.getLsbD (shiftBit right)) hq
  have hgone : ∀ right, (s.releaseShift keycode).cancelling right →
      s.cancelling right = true ∧ keycode ≠ (if right then kcRightShift else kcLeftShift) := by
    intro right h
    unfold releaseShift cancelling at h
    unfold cancelling
    by_cases hleft : keycode = kcLeftShift
    · rw [if_pos hleft] at h
      cases right with
      | true => exact ⟨h, by rw [hleft]; decide⟩
      | false => exact absurd h Bool.false_ne_true
    rw [if_neg hleft] at h
    by_cases hright : keycode = kcRightShift
    · rw [if_pos hright] at h
      cases right with
      | true => exact absurd h Bool.false_ne_true
      | false => exact ⟨h, hleft⟩
    rw [if_neg hright] at h
    cases right with
    | true => exact ⟨h, hright⟩
    | false => exact ⟨h, hleft⟩
  refine ⟨⟨⟨fun right h => ?_, fun h => hweak true ▸ h, fun h => hp ▸ h⟩, he, hl⟩, hp, hweak,
    hgone⟩
  unfold wants real at h ⊢
  rw [hq, Bool.or_eq_true] at h
  rw [Bool.or_eq_true]
  exact h.imp_right (fun hc => (hgone right hc).1)

theorem noteKey_spec (h : cfg.getAutoShiftedKey keycode) :
    (∀ right, (s.noteKey cfg keycode now).wants right → s.wants right) ∧
      ((s.noteKey cfg keycode now).weak true → s.weak true) ∧
      (s.noteKey cfg keycode now).enabled = s.enabled ∧
      (s.noteKey cfg keycode now).lastkey = keycode := by
  unfold noteKey
  split
  · rename_i hrepeat
    have hlast : keycode = s.lastkey := by
      unfold repeats at hrepeat
      simp only [Bool.and_eq_true, decide_eq_true_eq] at hrepeat
      exact hrepeat.1.1.1
    obtain ⟨hcancel, -⟩ := cancelShift_calm s
    -- It is pressed again as it was before, with the shift it had then.
    have hkept : cfg.getAutoShiftedKey s.cancelShift.lastkey := by
      rw [hcancel.lastkey, ← hlast]
      exact h
    have hcalm := hcancel.trans (pressUser_calm cfg s.cancelShift.lastkey
      s.cancelShift.lastshifted s.cancelShift hkept)
    exact ⟨hcalm.wants, hcalm.weakRight, hcalm.enabled, hcalm.lastkey.trans hlast.symm⟩
  · exact ⟨fun _ hw => hw, fun hw => hw, rfl, rfl⟩

end AutoShift

/-! ### The run -/

/-- A key of the keymap: whether it is held or tapped, if it can be either, and what it
    does. -/
structure AutoShiftKey (c : KeymapConfig) where
  keycode : Keycode
  hold : Bool
  action : KeyAction
  resolves : keyAction c keycode = some action
  deriving DecidableEq

namespace AutoShiftKey

variable {c : KeymapConfig}

/-- The key has the real shift. -/
def real (right : Bool) (k : AutoShiftKey c) : Bool :=
  (k.action.real k.hold).getLsbD (shiftBit right)

/-- The key has the weak shift. -/
def weak (right : Bool) (k : AutoShiftKey c) : Bool := k.action.weak.getLsbD (shiftBit right)

theorem remapTargets_not_shift :
    remapTargets.all (fun keycode =>
      decide (keycode ≤ 0xFF) && !(Usb.modMask (lowByte keycode)).getLsbD 1 &&
        !(Usb.modMask (lowByte keycode)).getLsbD 5) = true := by
  decide +kernel

theorem basicAction_real (c : KeymapConfig) (keycode : Keycode) (a : Action) (hold : Bool)
    (hbasic : keycodeConfig c keycode ≤ 0xFF) (h : actionForKeycode c keycode = some a) :
    ((KeyAction.plain a).real hold = 0 ∨
        (KeyAction.plain a).real hold = Usb.modMask (lowByte (keycodeConfig c keycode))) ∧
      (KeyAction.plain a).weak = 0 := by
  unfold actionForKeycode at h
  dsimp only at h
  rw [if_pos hbasic] at h
  have hmods : ∀ code : Byte,
      (KeyAction.plain (.mods false 0 code)).real hold = Usb.modMask code ∧
        (KeyAction.plain (.mods false 0 code)).weak = 0 := by
    intro code
    simp [KeyAction.real, KeyAction.weak]
  split at h
  · rw [← Option.some.inj h]
    exact ⟨Or.inr (hmods _).1, (hmods _).2⟩
  split at h
  · rw [← Option.some.inj h]
    exact ⟨Or.inl rfl, rfl⟩
  split at h
  · rw [← Option.some.inj h]
    exact ⟨Or.inl rfl, rfl⟩
  split at h
  · rw [← Option.some.inj h]
    exact ⟨Or.inl ((hmods 1).1.trans (by decide)), (hmods 1).2⟩
  split at h
  · contradiction
  · rw [← Option.some.inj h]
    exact ⟨Or.inl ((hmods 0).1.trans (by decide)), (hmods 0).2⟩

theorem autoShifted_none (cfg : AutoShiftConfig) (k : AutoShiftKey c)
    (h : cfg.getAutoShiftedKey k.keycode) (right : Bool) :
    k.real right = false ∧ k.weak right = false := by
  obtain ⟨hplain, hkey⟩ := cfg.autoShifted_plain k.keycode h
  have hresolves := k.resolves
  have hnot : isMt k.keycode = false :=
    (Bool.or_eq_false_iff.mp (AutoShift.isRetro_plain k.keycode hplain)).1
  -- What it may be remapped to is a basic keycode too, and no shift.
  have hcode : keycodeConfig c k.keycode ≤ 0xFF ∧
      (Usb.modMask (lowByte (keycodeConfig c k.keycode))).getLsbD (shiftBit right) = false := by
    rcases keycodeConfig_kept_or_target c k.keycode with heq | hmem
    · rw [heq]
      unfold Usb.modMask
      rw [not_isMod_of_isKey _ hkey]
      exact ⟨hplain, BitVec.getLsbD_zero⟩
    · have htarget := List.all_eq_true.mp remapTargets_not_shift _ hmem
      simp only [Bool.and_eq_true, decide_eq_true_eq, Bool.not_eq_true'] at htarget
      refine ⟨htarget.1.1, ?_⟩
      cases right with
      | true => exact htarget.2
      | false => exact htarget.1.2
  unfold keyAction at hresolves
  rw [hnot, if_neg Bool.false_ne_true] at hresolves
  obtain ⟨a, ha, hplainAction⟩ := Option.map_eq_some_iff.mp hresolves
  obtain ⟨hreal, hweak⟩ := basicAction_real c k.keycode a k.hold hcode.1 ha
  unfold real weak
  rw [← hplainAction, hweak]
  refine ⟨?_, BitVec.getLsbD_zero⟩
  rcases hreal with hreal | hreal
  · rw [hreal]
    exact BitVec.getLsbD_zero
  · rw [hreal]
    exact hcode.2

end AutoShiftKey

/-- The state, the keys that are held, and the number of presses that have begun and not
    been processed. -/
structure AutoShiftRun (c : KeymapConfig) where
  state : AutoShift
  held : List (AutoShiftKey c)
  coming : Nat

/-- What happens: a press begins, a press or a release is processed, and the timeout is
    looked at. -/
inductive AutoShiftInput (c : KeymapConfig) where
  | exec
  | press (k : AutoShiftKey c) (now : BitVec 16)
  | release (k : AutoShiftKey c) (now : BitVec 16)
  | scan (now : BitVec 16)

namespace AutoShiftRun

variable {c : KeymapConfig} (cfg : AutoShiftConfig)

/-- The step. A press begins with `action_exec`, which clears the weak modifiers, and is
    processed when the tapping code lets it. -/
def step (r : AutoShiftRun c) : AutoShiftInput c → AutoShiftRun c
  | .exec => { r with state := r.state.onUsb Usb.clearWeakMods, coming := r.coming + 1 }
  | .press k now =>
    if r.coming = 0 then r
    else
      { state := r.state.processRecord cfg true k.hold k.keycode k.action now
        held := k :: r.held
        coming := r.coming - 1 }
  | .release k now =>
    if k ∈ r.held then
      { r with
        state := r.state.processRecord cfg false k.hold k.keycode k.action now
        held := r.held.erase k }
    else r
  | .scan now => { r with state := r.state.matrixScan cfg now }

/-- While no key is held neither shift is on. -/
def NoShiftLeft (r : AutoShiftRun c) : Prop :=
  r.coming = 0 → r.held = [] → ∀ right, r.state.real right = false ∧ r.state.weak right = false

/-- No key is held and no shift is on or to be given back. -/
structure Idle (r : AutoShiftRun c) : Prop where
  held : r.held = []
  shifts : ∀ right, r.state.wants right = false ∧ r.state.weak right = false
  inProgress : r.state.inProgress = false

/-- The weak shift of Auto Shift does not outlive a press: it is not on, it is the shift of
    a key that is held, or the press takes it out or has the key that will. -/
def CleanPress (r : AutoShiftRun c) (k : AutoShiftKey c) : Prop :=
  r.state.weak false = true →
    (∃ h ∈ r.held, h.weak false = true) ∨ r.state.inProgress = true ∨
      k.keycode = AutoShift.kcAstg ∨ k.keycode = AutoShift.kcAsoff ∨
      (cfg.getAutoShiftedKey k.keycode = true ∧
        (cfg.modifiers = true ∨ r.state.otherMods = false))

/-- A key that holds a shift alone, and is not the shift key, is not released while the
    shift is to be given back, unless it is given back right then. -/
def CleanRelease (r : AutoShiftRun c) (k : AutoShiftKey c) : Prop :=
  ∀ right, k.real right = true → r.state.cancelling right = true →
    k.keycode = (if right then kcRightShift else kcLeftShift) ∨
      (∃ h ∈ r.held.erase k, h.real right = true) ∨
      (isRetro k.keycode = true ∧ r.state.inProgress = true ∧
        cfg.ignoreModTapInterrupt k.keycode = false)

/-- The condition on an event. -/
def Clean (r : AutoShiftRun c) : AutoShiftInput c → Prop
  | .press k _ => 0 < r.coming → CleanPress cfg r k
  | .release k _ => k ∈ r.held → CleanRelease cfg r k
  | _ => True

/-! ### The invariant -/

def Keeps (s : AutoShift) (held : List (AutoShiftKey c)) : Prop :=
  s.enabled = true ∧ cfg.getAutoShiftedKey s.lastkey = true ∧ ∃ h ∈ held, h.keycode = s.lastkey

/-- Every shift is the one of a key that is held, or will be taken out when one is
    released. -/
structure Sound (s : AutoShift) (held : List (AutoShiftKey c)) : Prop where
  real : ∀ right, s.wants right = true → ∃ h ∈ held, h.real right = true
  weakRight : s.weak true = true → ∃ h ∈ held, h.weak true = true
  weakLeft : s.weak false = true → (∃ h ∈ held, h.weak false = true) ∨ Keeps cfg s held
  inProgress : s.inProgress = true → Keeps cfg s held

variable {cfg}

theorem held_cons {held : List (AutoShiftKey c)} {p : AutoShiftKey c → Prop}
    (k : AutoShiftKey c) (h : ∃ h ∈ held, p h) : ∃ h ∈ k :: held, p h := by
  obtain ⟨other, hmem, hp⟩ := h
  exact ⟨other, List.mem_cons_of_mem k hmem, hp⟩

theorem held_erase {held : List (AutoShiftKey c)} {p : AutoShiftKey c → Prop}
    (k : AutoShiftKey c) (hk : ¬p k) (h : ∃ h ∈ held, p h) : ∃ h ∈ held.erase k, p h := by
  obtain ⟨other, hmem, hp⟩ := h
  have hne : other ≠ k := by
    rintro rfl
    exact hk hp
  exact ⟨other, (List.mem_erase_of_ne hne).mpr hmem, hp⟩

theorem Keeps.of_calm {s s' : AutoShift} {held : List (AutoShiftKey c)} (hcalm : s.Calm s')
    (h : Keeps cfg s held) : Keeps cfg s' held := by
  unfold Keeps at h ⊢
  rw [hcalm.enabled, hcalm.lastkey]
  exact h

variable {s : AutoShift} {held : List (AutoShiftKey c)} (k : AutoShiftKey c)

theorem Keeps.erase (hk : k.keycode ≠ s.lastkey) (h : Keeps cfg s held) :
    Keeps cfg s (held.erase k) :=
  ⟨h.1, h.2.1, held_erase k hk h.2.2⟩

theorem Sound.of_calm {s s' : AutoShift} {held : List (AutoShiftKey c)}
    (hs : Sound cfg s held) (hcalm : s.Calm s')
    (hweak : s'.weak false → (∃ h ∈ held, h.weak false) ∨ Keeps cfg s held) :
    Sound cfg s' held where
  real right h := hs.real right (hcalm.wants right h)
  weakRight h := hs.weakRight (hcalm.weakRight h)
  weakLeft h := (hweak h).imp_right (Keeps.of_calm hcalm)
  inProgress h := Keeps.of_calm hcalm (hs.inProgress (hcalm.inProgress h))

theorem Sound.press_through {s s' : AutoShift} {held : List (AutoShiftKey c)}
    (k : AutoShiftKey c) (hs : Sound cfg s held) (hquiet : s.Quiet s')
    (hdone : s'.inProgress = false)
    (hweak : s'.weak false → ∃ h ∈ held, h.weak false) :
    Sound cfg { s' with qmk := k.action.process true k.hold s'.qmk } (k :: held) := by
  obtain ⟨hreal, hadd⟩ := k.action.process_press k.hold s'.qmk
  refine ⟨fun right h => ?_, fun h => ?_, fun h => Or.inl ?_, fun h => ?_⟩
  · unfold AutoShift.wants AutoShift.real at h
    rw [hreal, BitVec.getLsbD_or, Bool.or_eq_true, Bool.or_eq_true] at h
    -- The shift was on before, or it is the one of the key, or it is still to be given back.
    rcases h with (h | h) | h
    · exact held_cons k (hs.real right (hquiet.wants right (by
        unfold AutoShift.wants AutoShift.real
        rw [h, Bool.true_or])))
    · exact ⟨k, List.mem_cons_self, h⟩
    · refine held_cons k (hs.real right (hquiet.wants right ?_))
      unfold AutoShift.wants
      rw [Bool.or_eq_true]
      exact Or.inr h
  · rcases hadd (shiftBit true) h with h | h
    · exact held_cons k (hs.weakRight (hquiet.weakRight h))
    · exact ⟨k, List.mem_cons_self, h⟩
  · rcases hadd (shiftBit false) h with h | h
    · exact held_cons k (hweak h)
    · exact ⟨k, List.mem_cons_self, h⟩
  · exact absurd (hdone.symm.trans h) Bool.false_ne_true

theorem Sound.release_through (hs : Sound cfg s held)
    (hclean : ∀ right, k.real right → s.cancelling right →
      ∃ h ∈ held.erase k, h.real right) (hlast : Keeps cfg s held → k.keycode ≠ s.lastkey) :
    Sound cfg { s with qmk := k.action.process false k.hold s.qmk } (held.erase k) := by
  obtain ⟨hreal, hadd⟩ := k.action.process_release k.hold s.qmk
  have hkept : Keeps cfg s held → Keeps cfg s (held.erase k) :=
    fun h => Keeps.erase k (hlast h) h
  refine ⟨fun right h => ?_, fun h => ?_, fun h => ?_, fun h => hkept (hs.inProgress h)⟩
  · unfold AutoShift.wants AutoShift.real at h
    rw [hreal, BitVec.getLsbD_and, BitVec.getLsbD_not, Bool.or_eq_true, Bool.and_eq_true,
      Bool.and_eq_true, Bool.not_eq_true'] at h
    -- A shift that the key itself has is taken away, unless it is to be given back.
    by_cases hk : k.real right
    · rcases h with h | h
      · exact absurd (hk.symm.trans h.2.2) (by decide)
      · exact hclean right hk h
    · refine held_erase k hk (hs.real right ?_)
      unfold AutoShift.wants
      rw [Bool.or_eq_true]
      exact h.imp_left And.left
  · obtain ⟨hon, hk⟩ := hadd (shiftBit true) h
    exact held_erase k (by rw [AutoShiftKey.weak, hk]; decide) (hs.weakRight hon)
  · obtain ⟨hon, hk⟩ := hadd (shiftBit false) h
    rcases hs.weakLeft hon with hheld | hkeeps
    · exact Or.inl (held_erase k (by rw [AutoShiftKey.weak, hk]; decide) hheld)
    · exact Or.inr (hkept hkeeps)

theorem Sound.press_kept (now : BitVec 16) (hs : Sound cfg s held) (henabled : s.enabled)
    (hdone : s.inProgress = false) (hkey : cfg.getAutoShiftedKey k.keycode)
    (hweak : s.weak false → (∃ h ∈ held, h.weak false) ∨
      cfg.modifiers ∨ s.otherMods = false) :
    Sound cfg (s.autoshiftPress cfg k.keycode now) (k :: held) := by
  have hnote : ∀ t : AutoShift, (∀ right, t.wants right = s.wants right) →
      t.weak true = s.weak true → t.enabled →
        Sound cfg (t.noteKey cfg k.keycode now) (k :: held) := by
    intro t hwants hright ht
    obtain ⟨hreal, hweakRight, hkeptEnabled, hlast⟩ := t.noteKey_spec cfg k.keycode now hkey
    -- The key is held from now on, and it is the one that may be repeated.
    have hkeeps : Keeps cfg (t.noteKey cfg k.keycode now) (k :: held) := by
      refine ⟨hkeptEnabled.trans ht, ?_, k, List.mem_cons_self, hlast.symm⟩
      rw [hlast]
      exact hkey
    refine ⟨fun right h => ?_, fun h => ?_, fun _ => Or.inr hkeeps, fun _ => hkeeps⟩
    · exact held_cons k (hs.real right (hwants right ▸ hreal right h))
    · exact held_cons k (hs.weakRight (hright ▸ hweakRight h))
  unfold AutoShift.autoshiftPress
  by_cases hother : s.otherMods
  · rw [if_pos hother]
    dsimp only
    by_cases hmodifiers : cfg.modifiers
    · rw [if_pos hmodifiers]
      exact hnote { s with lastkey := kcNo } (fun _ => rfl) rfl henabled
    · rw [if_neg hmodifiers]
      -- the key is registered as it is, and its release will find nothing to do
      have hcalm := AutoShift.pressUser_calm cfg k.keycode false { s with lastkey := kcNo } hkey
      have hsame := AutoShift.pressUser_unshifted cfg k.keycode { s with lastkey := kcNo } hkey
      refine ⟨fun right h => held_cons k (hs.real right (hcalm.wants right h)),
        fun h => held_cons k (hs.weakRight (hcalm.weakRight h)), fun h => Or.inl ?_,
        fun h => absurd (hdone.symm.trans (hcalm.inProgress h)) Bool.false_ne_true⟩
      have hon : s.weak false := (hsame false).symm.trans h
      rcases hweak hon with hheld | hcon | hcon
      · exact held_cons k hheld
      · exact absurd hcon hmodifiers
      · exact absurd (hcon.symm.trans hother) Bool.false_ne_true
  · rw [if_neg hother]
    exact hnote s (fun _ => rfl) rfl henabled

/-- A press that is one of Auto Shift's own keycodes, perhaps, and is processed
    further. Forgetting the key that may be repeated takes no shift away and adds
    none. -/
theorem Sound.press_own {t : AutoShift} {held : List (AutoShiftKey c)} (k : AutoShiftKey c)
    (hs : Sound cfg t held) (hdone : t.inProgress = false)
    (hleft : t.weak false → (∃ h ∈ held, h.weak false) ∨
      k.keycode = AutoShift.kcAstg ∨ k.keycode = AutoShift.kcAsoff) :
    Sound cfg { t.processOwn k.keycode with
        qmk := k.action.process true k.hold (t.processOwn k.keycode).qmk } (k :: held) ∧
      Sound cfg { t.processOwn k.keycode with
        lastkey := kcNo
        qmk := k.action.process true k.hold (t.processOwn k.keycode).qmk } (k :: held) := by
  obtain ⟨hown, hownWeak⟩ := t.processOwn_quiet k.keycode
  -- The keycodes of Auto Shift do not begin to wait for a key.
  have hnotDone : (t.processOwn k.keycode).inProgress = false := by
    by_contra hcon
    exact Bool.false_ne_true (hdone.symm.trans (hown.inProgress (by simpa using hcon)))
  have hheld : (t.processOwn k.keycode).weak false →
      ∃ h ∈ held, h.weak false := by
    intro h
    obtain ⟨hon, htoggle, hoff⟩ := hownWeak h
    rcases hleft hon with hheld | hcon | hcon
    · exact hheld
    · exact absurd hcon htoggle
    · exact absurd hcon hoff
  exact ⟨hs.press_through k hown hnotDone hheld,
    @Sound.press_through c cfg t { t.processOwn k.keycode with lastkey := kcNo } held k hs
      ⟨hown.wants, hown.weakRight, hown.inProgress⟩ hnotDone hheld⟩

theorem Sound.press (now : BitVec 16) (hs : Sound cfg s held) (hclean : s.weak false →
      (∃ h ∈ held, h.weak false) ∨ s.inProgress ∨
        k.keycode = AutoShift.kcAstg ∨ k.keycode = AutoShift.kcAsoff ∨
        (cfg.getAutoShiftedKey k.keycode ∧
          (cfg.modifiers ∨ s.otherMods = false))) :
    Sound cfg (s.processRecord cfg true k.hold k.keycode k.action now) (k :: held) := by
  obtain ⟨hcalm, hdone, hprevious⟩ :=
    s.evaluatePrevious_calm cfg now (fun hp => (hs.inProgress hp).2.1)
  -- If a key was waited for it has been tapped, and no weak shift is left by that.
  have hstart : Sound cfg (s.evaluatePrevious cfg now) held := by
    refine hs.of_calm hcalm (fun h => ?_)
    rcases hprevious with ⟨heq, -⟩ | hclear
    · exact hs.weakLeft (heq ▸ h)
    · exact absurd (hclear.symm.trans h) Bool.false_ne_true
  have hleft : (s.evaluatePrevious cfg now).weak false →
      (∃ h ∈ held, h.weak false) ∨
        k.keycode = AutoShift.kcAstg ∨ k.keycode = AutoShift.kcAsoff ∨
        (cfg.getAutoShiftedKey k.keycode ∧
          (cfg.modifiers ∨ (s.evaluatePrevious cfg now).otherMods = false)) := by
    intro h
    rcases hprevious with ⟨heq, hp⟩ | hclear
    · rw [heq] at h ⊢
      rcases hclean h with hheld | hcon | hrest
      · exact Or.inl hheld
      · exact absurd (hp.symm.trans hcon) Bool.false_ne_true
      · exact Or.inr hrest
    · exact absurd (hclear.symm.trans h) Bool.false_ne_true
  unfold AutoShift.processRecord AutoShift.processAutoShift
  rw [if_pos rfl]
  unfold AutoShift.processPress
  rw [show (if s.inProgress then s.autoshiftEnd cfg kcNo now false else s)
    = s.evaluatePrevious cfg now from rfl]
  generalize s.evaluatePrevious cfg now = t at hstart hdone hleft ⊢
  dsimp only
  by_cases hkey : cfg.getAutoShiftedKey k.keycode
  · have hplain := (cfg.autoShifted_plain k.keycode hkey).1
    rw [AutoShift.processOwn_plain cfg k.keycode t hkey,
      AutoShift.isRetro_plain k.keycode hplain, if_neg Bool.false_ne_true]
    by_cases henabled : t.enabled
    · rw [if_neg (show ¬(!t.enabled) = true by simp [henabled]), if_pos hkey]
      -- Auto Shift keeps the press. Its own keycodes are not among those it shifts.
      refine hstart.press_kept k now henabled hdone hkey (fun h => ?_)
      rcases hleft h with hheld | htoggle | hoff | hkept
      · exact Or.inl hheld
      · rw [htoggle] at hplain
        exact absurd hplain (by decide)
      · rw [hoff] at hplain
        exact absurd hplain (by decide)
      · exact Or.inr hkept.2
    · rw [if_pos (show (!t.enabled) = true by simpa using henabled)]
      -- It is switched off, so no key may be repeated.
      refine hstart.press_through k (AutoShift.Quiet.refl t) hdone (fun h => ?_)
      exact (hstart.weakLeft h).resolve_right (fun hkeeps => henabled hkeeps.1)
  · obtain ⟨hthrough, hforget⟩ := hstart.press_own k hdone (fun h => by
      rcases hleft h with hheld | hcon | hcon | hcon
      · exact Or.inl hheld
      · exact Or.inr (Or.inl hcon)
      · exact Or.inr (Or.inr hcon)
      · exact absurd hcon.1 hkey)
    by_cases hretro : isRetro k.keycode
    · rw [if_pos hretro]
      exact hforget
    rw [if_neg hretro, if_neg hkey]
    by_cases henabled : (!(t.processOwn k.keycode).enabled) = true
    · rw [if_pos henabled]
      exact hthrough
    · rw [if_neg henabled]
      exact hforget

theorem Sound.release_kept (now : BitVec 16) (hs : Sound cfg s held)
    (hkey : cfg.getAutoShiftedKey k.keycode) :
    Sound cfg (s.autoshiftEnd cfg k.keycode now false) (held.erase k) := by
  have hreal : ∀ right, s.wants right → ∃ h ∈ held.erase k, h.real right := by
    intro right h
    refine held_erase k ?_ (hs.real right h)
    rw [(k.autoShifted_none cfg hkey right).1]
    exact Bool.false_ne_true
  have hweak : ∀ right, (∃ h ∈ held, h.weak right) →
      ∃ h ∈ held.erase k, h.weak right := by
    intro right h
    refine held_erase k ?_ h
    rw [(k.autoShifted_none cfg hkey right).2]
    exact Bool.false_ne_true
  by_cases htap : s.inProgress ∧ k.keycode = s.lastkey
  · obtain ⟨hcalm, hdone, hclear⟩ := s.autoshiftEnd_tap cfg k.keycode now false htap.1
      (Or.inl htap.2) (hs.inProgress htap.1).2.1
    exact ⟨fun right h => hreal right (hcalm.wants right h),
      fun h => hweak true (hs.weakRight (hcalm.weakRight h)),
      fun h => absurd ((hclear rfl).1.symm.trans h) Bool.false_ne_true,
      fun h => absurd (hdone.symm.trans h) Bool.false_ne_true⟩
  · obtain ⟨hcalm, hleft⟩ := s.autoshiftEnd_release cfg k.keycode now false hkey htap
    refine ⟨fun right h => hreal right (hcalm.wants right h),
      fun h => hweak true (hs.weakRight (hcalm.weakRight h)), fun h => ?_, fun h => ?_⟩
    · obtain ⟨hon, hne⟩ := hleft h
      exact (hs.weakLeft hon).imp (hweak false) (fun hkeeps => (hkeeps.erase k hne).of_calm hcalm)
    · have hp := hcalm.inProgress h
      exact ((hs.inProgress hp).erase k (fun heq => htap ⟨hp, heq⟩)).of_calm hcalm

theorem Sound.release (now : BitVec 16) (hs : Sound cfg s held)
    (hclean : ∀ right, k.real right → s.cancelling right →
      k.keycode = (if right then kcRightShift else kcLeftShift) ∨
        (∃ h ∈ held.erase k, h.real right) ∨
        (isRetro k.keycode ∧ s.inProgress ∧
          cfg.ignoreModTapInterrupt k.keycode = false)) :
    Sound cfg (s.processRecord cfg false k.hold k.keycode k.action now) (held.erase k) := by
  unfold AutoShift.processRecord AutoShift.processAutoShift
  rw [if_neg Bool.false_ne_true]
  unfold AutoShift.processRelease
  rw [show (if k.keycode = kcLeftShift then { s with cancellingLshift := false }
      else if k.keycode = kcRightShift then { s with cancellingRshift := false } else s)
    = s.releaseShift k.keycode from rfl]
  obtain ⟨hcalm, hp, hweak, hgone⟩ := s.releaseShift_calm k.keycode
  -- A shift key that is released is not given back, which leaves less to account for.
  have hstart : Sound cfg (s.releaseShift k.keycode) held :=
    hs.of_calm hcalm (fun h => hs.weakLeft (hweak false ▸ h))
  have hback : ∀ right, k.real right →
      (s.releaseShift k.keycode).cancelling right →
        (∃ h ∈ held.erase k, h.real right) ∨
          (isRetro k.keycode ∧ (s.releaseShift k.keycode).inProgress ∧
            cfg.ignoreModTapInterrupt k.keycode = false) := by
    intro right hk hcancel
    obtain ⟨hon, hne⟩ := hgone right hcancel
    rw [hp]
    exact (hclean right hk hon).resolve_left hne
  generalize s.releaseShift k.keycode = t at hstart hback ⊢
  dsimp only
  by_cases hretro : isRetro k.keycode
  · -- the key that is waited for is not this one
    rw [if_pos hretro]
    have hlast : ∀ u : AutoShift, Keeps cfg u held → k.keycode ≠ u.lastkey := by
      intro u hkeeps heq
      have hplain := (cfg.autoShifted_plain u.lastkey hkeeps.2.1).1
      rw [← heq] at hplain
      exact Bool.false_ne_true ((AutoShift.isRetro_plain _ hplain).symm.trans hretro)
    by_cases hend : (t.inProgress && !cfg.ignoreModTapInterrupt k.keycode) = true
    · rw [if_pos hend]
      rw [Bool.and_eq_true, Bool.not_eq_true'] at hend
      obtain ⟨htap, -, hclear⟩ := t.autoshiftEnd_tap cfg kcNo now false hend.1 (Or.inr rfl)
        (hstart.inProgress hend.1).2.1
      have hdone : Sound cfg (t.autoshiftEnd cfg kcNo now false) held :=
        hstart.of_calm htap (fun h => absurd ((hclear rfl).1.symm.trans h) Bool.false_ne_true)
      exact hdone.release_through k
        (fun right _ h => absurd (((hclear rfl).2 right).symm.trans h) Bool.false_ne_true)
        (hlast _)
    · rw [if_neg hend]
      refine hstart.release_through k (fun right hk h => ?_) (hlast _)
      refine (hback right hk h).resolve_right (fun hcon => hend ?_)
      rw [hcon.2.1, hcon.2.2]
      rfl
  rw [if_neg hretro]
  have hkept : ∀ right, k.real right → t.cancelling right →
      ∃ h ∈ held.erase k, h.real right :=
    fun right hk h => (hback right hk h).resolve_right (fun hcon => hretro hcon.1)
  by_cases henabled : (!t.enabled) = true
  · rw [if_pos henabled]
    refine hstart.release_through k hkept (fun hkeeps => ?_)
    rw [hkeeps.1] at henabled
    exact absurd henabled Bool.false_ne_true
  rw [if_neg henabled]
  by_cases hkey : cfg.getAutoShiftedKey k.keycode
  · rw [if_pos hkey]
    exact hstart.release_kept k now hkey
  · rw [if_neg hkey]
    refine hstart.release_through k hkept (fun hkeeps heq => hkey ?_)
    rw [heq]
    exact hkeeps.2.1

theorem step_sound (r : AutoShiftRun c) (i : AutoShiftInput c)
    (hs : Sound cfg r.state r.held) (hclean : Clean cfg r i) :
    Sound cfg (step cfg r i).state (step cfg r i).held := by
  cases i with
  | exec =>
    refine ⟨hs.real, fun h => ?_, fun h => ?_, hs.inProgress⟩
    · change (0 : Byte).getLsbD 5 = true at h
      exact absurd h (by decide)
    · change (0 : Byte).getLsbD 1 = true at h
      exact absurd h (by decide)
  | press k now =>
    unfold step
    dsimp only
    by_cases hnone : r.coming = 0
    · rw [if_pos hnone]
      exact hs
    · rw [if_neg hnone]
      exact hs.press k now (hclean (Nat.pos_of_ne_zero hnone))
  | release k now =>
    unfold step
    dsimp only
    by_cases hheld : k ∈ r.held
    · rw [if_pos hheld]
      exact hs.release k now (hclean hheld)
    · rw [if_neg hheld]
      exact hs
  | scan now =>
    unfold step
    dsimp only
    unfold AutoShift.matrixScan
    by_cases hend : (r.state.inProgress &&
        decide (r.state.timeoutOf cfg r.state.lastkey ≤ now - r.state.time)) = true
    · rw [if_pos hend]
      have hp := (Bool.and_eq_true_iff.mp hend).1
      have hkeeps := hs.inProgress hp
      obtain ⟨hcalm, -, -⟩ :=
        r.state.autoshiftEnd_tap cfg r.state.lastkey now true hp (Or.inl rfl) hkeeps.2.1
      exact hs.of_calm hcalm (fun _ => Or.inr hkeeps)
    · rw [if_neg hend]
      exact hs

theorem sound_of_idle (r : AutoShiftRun c) (h : r.Idle) : Sound cfg r.state r.held := by
  refine ⟨fun right hw => ?_, fun hw => ?_, fun hw => ?_, fun hp => ?_⟩
  · exact absurd ((h.shifts right).1.symm.trans hw) Bool.false_ne_true
  · exact absurd ((h.shifts true).2.symm.trans hw) Bool.false_ne_true
  · exact absurd ((h.shifts false).2.symm.trans hw) Bool.false_ne_true
  · exact absurd (h.inProgress.symm.trans hp) Bool.false_ne_true

theorem noShiftLeft_of_sound (r : AutoShiftRun c) (hs : Sound cfg r.state r.held) :
    r.NoShiftLeft := by
  intro _ hnone right
  have hempty : ∀ p : AutoShiftKey c → Prop, ¬∃ h ∈ r.held, p h := by
    rintro p ⟨k, hk, -⟩
    rw [hnone] at hk
    exact List.not_mem_nil hk
  constructor
  · by_contra hcon
    refine hempty _ (hs.real right ?_)
    unfold AutoShift.wants
    rw [Bool.eq_true_of_not_eq_false hcon, Bool.true_or]
  · by_contra hcon
    have hon := Bool.eq_true_of_not_eq_false hcon
    cases right with
    | true => exact hempty _ (hs.weakRight hon)
    | false =>
      rcases hs.weakLeft hon with hheld | hkeeps
      · exact hempty _ hheld
      · exact hempty _ hkeeps.2.2

variable (cfg)

/-- No shift is left behind, along a run without a press that loses the weak shift and
    without the release of another shift that is to be given back. -/
theorem no_shift_left_along (r : AutoShiftRun c) (inputs : List (AutoShiftInput c))
    (hidle : r.Idle) (hclean : Along (step cfg) (Clean cfg) r inputs) :
    Always (step cfg) NoShiftLeft r inputs :=
  always_of_along (step cfg) (Clean cfg) (fun r => Sound cfg r.state r.held) NoShiftLeft
    noShiftLeft_of_sound step_sound inputs r (sound_of_idle r hidle) hclean

/-! ### Two shifts that are taken away -/

instance decidableCleanPress (r : AutoShiftRun c) (k : AutoShiftKey c) :
    Decidable (CleanPress cfg r k) :=
  inferInstanceAs (Decidable (r.state.weak false = true → _))

instance decidableCleanRelease (r : AutoShiftRun c) (k : AutoShiftKey c) :
    Decidable (CleanRelease cfg r k) :=
  inferInstanceAs (Decidable (∀ right, k.real right = true → _))

instance decidableClean (r : AutoShiftRun c) : (i : AutoShiftInput c) → Decidable (Clean cfg r i)
  | .exec => inferInstanceAs (Decidable True)
  | .press k _ => inferInstanceAs (Decidable (0 < r.coming → CleanPress cfg r k))
  | .release k _ => inferInstanceAs (Decidable (k ∈ r.held → CleanRelease cfg r k))
  | .scan _ => inferInstanceAs (Decidable True)

/-- Every key there is, and keys that repeat. -/
def everyKey : AutoShiftConfig :=
  { alpha := true, numeric := true, special := true
    custom := fun _ => false
    customPlain := fun _ h => absurd h Bool.false_ne_true
    modifiers := false
    keyrepeat := fun _ => true
    noAutoRepeat := fun _ => false
    timeoutPerKey := none
    tappingTerm := fun _ => 200
    ignoreModTapInterrupt := fun _ => false }

/-- Nothing has happened. -/
def start (c : KeymapConfig) : AutoShiftRun c :=
  { state :=
      { qmk := { usb := Usb.init false, layers := Layers.init, config := c }
        time := 0, timeout := 175, lastkey := kcNo, enabled := true, lastshifted := false
        inProgress := false, cancellingLshift := false, cancellingRshift := false }
    held := [], coming := 0 }

/-- `KC_B` -/
def letter : AutoShiftKey KeymapConfig.default :=
  { keycode := 0x05, hold := false, action := .plain (.mods false 0 0x05), resolves := by decide }

/-- `KC_LSFT` -/
def shiftKey : AutoShiftKey KeymapConfig.default :=
  { keycode := 0xE1, hold := false, action := .plain (.mods false 0 0xE1), resolves := by decide }

def shiftTap : AutoShiftKey KeymapConfig.default :=
  { keycode := 0x6204, hold := true, action := .modsTap 0x02 0x04, resolves := by decide }

/-- A letter is held until it is repeated, with a shift that is let go before it. -/
def shifted (shift : AutoShiftKey KeymapConfig.default) :
    List (AutoShiftInput KeymapConfig.default) :=
  [.exec, .press shift 0, .exec, .press letter 10, .scan 200, .release shift 300,
    .release letter 400]

theorem no_shift_left_along_key :
    Along (step everyKey) (Clean everyKey) (start KeymapConfig.default) (shifted shiftKey) ∧
      Always (step everyKey) NoShiftLeft (start KeymapConfig.default) (shifted shiftKey) := by
  have hclean : Along (step everyKey) (Clean everyKey) (start KeymapConfig.default)
      (shifted shiftKey) := by
    decide +kernel
  have hidle : (start KeymapConfig.default).Idle := ⟨rfl, by decide +kernel, rfl⟩
  exact ⟨hclean, no_shift_left_along everyKey _ _ hidle hclean⟩

/-- When the shift is the one of a modifier-tap it is left on. -/
theorem no_shift_left_broken :
    ¬∀ (c : KeymapConfig) (cfg : AutoShiftConfig) (r : AutoShiftRun c)
      (inputs : List (AutoShiftInput c)), r.Idle → Always (step cfg) NoShiftLeft r inputs := by
  intro h
  have hidle : (start KeymapConfig.default).Idle := ⟨rfl, by decide +kernel, rfl⟩
  have hall := h KeymapConfig.default everyKey (start KeymapConfig.default) (shifted shiftTap)
    hidle
  have hlast := (always_iff_visited _ _ _ _).mp hall (shifted shiftTap) [] (by simp)
  have hon : (run (step everyKey) (start KeymapConfig.default)
      (shifted shiftTap)).state.real false = true := by
    decide +kernel
  have hheld : (run (step everyKey) (start KeymapConfig.default) (shifted shiftTap)).held = [] ∧
      (run (step everyKey) (start KeymapConfig.default) (shifted shiftTap)).coming = 0 := by
    decide +kernel
  exact Bool.false_ne_true ((hlast hheld.2 hheld.1 false).1.symm.trans hon)

end AutoShiftRun

end K530
