import K530.Quantum.KeyOverride
import K530.Theory.Keymap.Wire

/-!
# The Report of the Key Overrides

What the functions of the overrides do to the report, as a set of codes: the keys
that are in it, and the modifiers that are registered.

Registering a code puts in that code and no other, and unregistering it takes it
out, whatever kind of code it is. A code that is neither a key nor a modifier is
never in the report.

The two registers of the overrides are written by the overrides alone. Every other
function leaves them as they are.

## Main definitions

* `OverrideUsb.Down`: A key is in the report, or a modifier registered.

## Theorems

* `down_registerCode`, `down_unregisterCode`: One code is put in or taken out.
* `down_processMods_press`, `down_processMods_release`: And so for a key with
  modifiers.
-/

namespace K530

universe v

/-! ### Keys and modifiers in the report -/

theorem hasMod_or (a b code : Byte) : hasMod (a ||| b) code = (hasMod a code || hasMod b code) :=
  BitVec.getLsbD_or

theorem hasMod_andNot (a b code : Byte) (h : isMod code) :
    hasMod (a &&& ~~~b) code = (hasMod a code && !hasMod b code) := by
  unfold hasMod
  rw [BitVec.getLsbD_and, BitVec.getLsbD_not, decide_eq_true (isMod_toNat code h).1,
    Bool.true_and]

theorem isKey_lowByte (keycode : Keycode) (h : isKeyCode keycode) :
    isKey (lowByte keycode) := by
  unfold isKeyCode at h
  rw [Bool.and_eq_true, decide_eq_true_eq, decide_eq_true_eq] at h
  unfold isKey lowByte
  rw [Bool.and_eq_true, decide_eq_true_eq, decide_eq_true_eq]
  constructor <;> bv_omega

/-- The codes a report can show. -/
def reportable (code : Byte) : Bool := isKey code || isMod code

namespace OverrideUsb

/-- A key is in the report, or a modifier is registered. -/
def Down (u : OverrideUsb) (code : Byte) : Prop :=
  isKey code = true ∧ u.usb.Pressed code ∨ isMod code = true ∧ hasMod u.usb.realMods code = true

instance decidableDown (u : OverrideUsb) (code : Byte) : Decidable (u.Down code) :=
  inferInstanceAs (Decidable (_ ∧ _ = _ ∨ _ ∧ _))

theorem Down.reportable {u : OverrideUsb} {code : Byte} (h : u.Down code) :
    reportable code := by
  unfold K530.reportable
  rw [Bool.or_eq_true]
  exact h.imp And.left And.left

variable (u : OverrideUsb)

theorem down_ne_zero (code : Byte) (h : u.Down code) : code ≠ 0 := by
  rintro rfl
  exact absurd h.reportable (by decide)

@[simp] theorem down_send (code : Byte) : u.sendKeyboardReport.Down code ↔ u.Down code := Iff.rfl

theorem down_delKey (code b : Byte) (hkey : isKey code) :
    (u.onUsb (Usb.delKey code)).Down b ↔ u.Down b ∧ b ≠ code := by
  unfold Down
  have hmod : isMod b → b ≠ code := by
    rintro hb rfl
    rw [((Usb.code_kinds b).1 hkey).2.2] at hb
    exact Bool.noConfusion hb
  have hdel := Usb.pressed_delKey u.usb code b hkey
  change isKey b ∧ (u.usb.delKey code).Pressed b ∨
    isMod b ∧ hasMod u.usb.realMods b ↔ _
  rw [hdel]
  constructor
  · rintro (⟨hb, hp, hne⟩ | ⟨hb, hp⟩)
    · exact ⟨Or.inl ⟨hb, hp⟩, hne⟩
    · exact ⟨Or.inr ⟨hb, hp⟩, hmod hb⟩
  · rintro ⟨⟨hb, hp⟩ | ⟨hb, hp⟩, hne⟩
    · exact Or.inl ⟨hb, hp, hne⟩
    · exact Or.inr ⟨hb, hp⟩

theorem down_addKey (code b : Byte) (hkey : isKey code)
    (h : (u.onUsb (Usb.addKey code)).Down b) : u.Down b ∨ b = code := by
  rcases h with ⟨hb, hp⟩ | hmod
  · rcases (Usb.pressed_addKey u.usb code b hkey).mp hp with hp | ⟨-, hsame⟩
    · exact Or.inl (Or.inl ⟨hb, hp⟩)
    · exact Or.inr hsame
  · exact Or.inl (Or.inr hmod)

theorem down_addMods (mods b : Byte) (h : (u.onUsb (Usb.addMods mods)).Down b) :
    u.Down b ∨ isMod b ∧ hasMod mods b := by
  rcases h with hkey | ⟨hb, hp⟩
  · exact Or.inl (Or.inl hkey)
  · rcases (Bool.or_eq_true _ _).mp ((hasMod_or u.usb.realMods mods b).symm.trans hp) with hp | hp
    · exact Or.inl (Or.inr ⟨hb, hp⟩)
    · exact Or.inr ⟨hb, hp⟩

theorem down_delMods (mods b : Byte) (h : (u.onUsb (Usb.delMods mods)).Down b) :
    u.Down b ∧ ¬ (isMod b ∧ hasMod mods b) := by
  rcases h with ⟨hb, hp⟩ | ⟨hb, hp⟩
  · refine ⟨Or.inl ⟨hb, hp⟩, fun hc => ?_⟩
    rw [((Usb.code_kinds b).1 hb).2.2] at hc
    exact Bool.noConfusion hc.1
  · have hboth := (hasMod_andNot u.usb.realMods mods b hb).symm.trans hp
    rw [Bool.and_eq_true, Bool.not_eq_true'] at hboth
    refine ⟨Or.inr ⟨hb, hboth.1⟩, fun hc => ?_⟩
    rw [hboth.2] at hc
    exact Bool.noConfusion hc.2

theorem down_registerCode (code b : Byte) (h : (u.registerCode code).Down b) :
    u.Down b ∨ b = code := by
  unfold registerCode at h
  split_ifs at h with hzero hkey hpressed hmod hsystem hconsumer
  · exact Or.inl h
  · rw [down_send] at h
    refine (down_addKey _ code b hkey h).imp_left (fun h => ?_)
    rw [down_send, down_delKey u code b hkey] at h
    exact h.1
  · rw [down_send] at h
    exact down_addKey u code b hkey h
  · rw [down_send] at h
    refine (down_addMods u (modBit code) b h).imp_right (fun h => ?_)
    have hsame := h.2
    rw [modBit_getLsbD code b hmod h.1, decide_eq_true_eq] at hsame
    exact hsame
  · exact Or.inl h
  · exact Or.inl h
  · exact Or.inl h

theorem down_unregisterCode (code b : Byte) (h : (u.unregisterCode code).Down b) :
    u.Down b ∧ b ≠ code := by
  have hne : reportable code = false → b ≠ code := by
    rintro hcode rfl
    rw [h.reportable] at hcode
    exact Bool.noConfusion hcode
  unfold unregisterCode at h
  split_ifs at h with hzero hkey hmod hsystem hconsumer
  · exact ⟨h, hzero ▸ down_ne_zero u b h⟩
  · rw [down_send] at h
    exact (down_delKey u code b hkey).mp h
  · rw [down_send] at h
    obtain ⟨hdown, hnone⟩ := down_delMods u (modBit code) b h
    refine ⟨hdown, ?_⟩
    rintro rfl
    refine hnone ⟨hmod, ?_⟩
    rw [modBit_getLsbD b b hmod hmod, decide_eq_true rfl]
  all_goals
    have hcode : reportable code = false := by
      unfold reportable
      rw [Bool.or_eq_false_iff, ← Bool.not_eq_true, ← Bool.not_eq_true]
      exact ⟨hkey, hmod⟩
    exact ⟨h, hne hcode⟩

theorem down_registerCode16 (code : Keycode) (b : Byte) (h : (u.registerCode16 code).Down b) :
    u.Down b ∨ b = lowByte code := by
  unfold registerCode16 at h
  rcases down_registerCode _ _ b h with h | h
  · split_ifs at h with hnone hplain
    · exact Or.inl h
    · -- a modifier keycode carries no further modifiers
      refine absurd ?_ hnone
      rw [Bool.or_eq_true, beq_iff_eq] at hplain
      unfold Usb.extractModBits
      rw [if_neg]
      unfold isModCode at hplain
      rintro ⟨hlow, -⟩
      rcases hplain with hplain | rfl
      · rw [Bool.and_eq_true, decide_eq_true_eq, decide_eq_true_eq] at hplain
        bv_omega
      · exact absurd hlow (by decide)
    · exact Or.inl h
  · exact Or.inr h

/-- What a key registers when it goes down, `processMods` takes out when it goes
    up: its code, and the modifiers of a key without one. -/
def Carries (mods code b : Byte) : Prop :=
  b = code ∨ (isMod code || code == 0) = true ∧ isMod b = true ∧ hasMod mods b = true

theorem down_processMods_press (mods code b : Byte) (h : (u.processMods true mods code).Down b) :
    u.Down b ∨ Carries mods code b := by
  unfold processMods at h
  rw [if_pos rfl] at h
  rcases down_registerCode _ code b h with h | h
  · split_ifs at h with hnone hplain
    · exact Or.inl h
    · rw [down_send] at h
      exact (down_addMods u mods b h).imp_right (fun h => Or.inr ⟨hplain, h⟩)
    · exact Or.inl h
  · exact Or.inr (Or.inl h)

theorem down_processMods_release (mods code b : Byte) (h : (u.processMods false mods code).Down b) :
    u.Down b ∧ ¬ Carries mods code b := by
  unfold processMods at h
  rw [if_neg Bool.false_ne_true] at h
  dsimp only at h
  split_ifs at h with hnone hplain
  · obtain ⟨hdown, hne⟩ := down_unregisterCode u code b h
    refine ⟨hdown, ?_⟩
    rintro (hc | ⟨-, -, hc⟩)
    · exact hne hc
    · rw [hnone] at hc
      exact absurd hc (by simp [hasMod])
  · rw [down_send] at h
    obtain ⟨hrest, hmods⟩ := down_delMods _ mods b h
    obtain ⟨hdown, hne⟩ := down_unregisterCode u code b hrest
    refine ⟨hdown, ?_⟩
    rintro (hc | ⟨-, hc⟩)
    · exact hne hc
    · exact hmods hc
  · obtain ⟨hdown, hne⟩ := down_unregisterCode u code b h
    refine ⟨hdown, ?_⟩
    rintro (hc | ⟨hc, -⟩)
    · exact hne hc
    · exact hplain hc

def SameRegisters (u u' : OverrideUsb) : Prop :=
  u'.weakOverrideMods = u.weakOverrideMods ∧ u'.suppressedMods = u.suppressedMods

theorem sameRegisters_registerCode (code : Byte) (u : OverrideUsb) :
    u.SameRegisters (u.registerCode code) := by
  unfold registerCode SameRegisters
  split_ifs <;> exact ⟨rfl, rfl⟩

theorem sameRegisters_unregisterCode (code : Byte) (u : OverrideUsb) :
    u.SameRegisters (u.unregisterCode code) := by
  unfold unregisterCode SameRegisters
  split_ifs <;> exact ⟨rfl, rfl⟩

theorem sameRegisters_registerCode16 (code : Keycode) (u : OverrideUsb) :
    u.SameRegisters (u.registerCode16 code) := by
  have h := fun v => sameRegisters_registerCode (lowByte code) v
  unfold SameRegisters at h ⊢
  unfold registerCode16
  rw [(h _).1, (h _).2]
  split_ifs <;> exact ⟨rfl, rfl⟩

theorem sameRegisters_processMods (pressed : Bool) (mods code : Byte) (u : OverrideUsb) :
    u.SameRegisters (u.processMods pressed mods code) := by
  have hon := fun v => sameRegisters_registerCode code v
  have hoff := sameRegisters_unregisterCode code u
  unfold SameRegisters at hon hoff ⊢
  cases pressed with
  | true =>
    unfold processMods
    rw [if_pos rfl, (hon _).1, (hon _).2]
    split_ifs <;> exact ⟨rfl, rfl⟩
  | false =>
    unfold processMods
    rw [if_neg Bool.false_ne_true]
    dsimp only
    split_ifs <;> exact hoff

end OverrideUsb

namespace OverrideState

variable {P : Type v}

/-! ### The functions of an override -/

theorem down_unregisterReplacement (o : KeyOverride) (u : OverrideUsb) (b : Byte)
    (h : (unregisterReplacement o u).Down b) :
    u.Down b ∧ (o.registersReplacement → b ≠ lowByte o.modFreeReplacement) := by
  unfold unregisterReplacement at h
  split_ifs at h with hdel hkey
  · rw [OverrideUsb.down_delKey _ _ b hkey] at h
    exact ⟨h.1, fun _ => h.2⟩
  · have hcode := OverrideUsb.down_unregisterCode _ _ b h
    rw [OverrideUsb.down_send] at hcode
    exact ⟨hcode.1, fun _ => hcode.2⟩
  · -- only a low byte of zero is left where it is
    refine ⟨h, fun _ hsame => OverrideUsb.down_ne_zero u b h ?_⟩
    rw [hsame]
    unfold KeyOverride.unregistersReplacement safeRange at hdel
    rw [Bool.and_eq_true, bne_iff_ne, decide_eq_true_eq] at hdel
    by_contra hne
    refine hdel ⟨hne, ?_⟩
    bv_omega

theorem down_registerReplacement (o : KeyOverride) (u : OverrideUsb) (b : Byte)
    (h : (registerReplacement o u).Down b) : u.Down b ∨ b = lowByte o.modFreeReplacement := by
  unfold registerReplacement at h
  split_ifs at h with hkey
  · exact OverrideUsb.down_addKey u _ b (isKey_lowByte _ hkey) h
  · have hcode := OverrideUsb.down_registerCode _ _ b h
    rwa [OverrideUsb.down_send] at hcode

theorem down_unregisterTrigger (o : KeyOverride) (u : OverrideUsb) (b : Byte)
    (h : (unregisterTrigger o u).Down b) : u.Down b := by
  unfold unregisterTrigger at h
  split_ifs at h with hkey
  · exact ((OverrideUsb.down_delKey u _ b (isKey_lowByte _ hkey)).mp h).1
  · exact (OverrideUsb.down_unregisterCode u _ b h).1

theorem sameRegisters_unregisterReplacement (o : KeyOverride) (u : OverrideUsb) :
    u.SameRegisters (unregisterReplacement o u) := by
  unfold unregisterReplacement
  split_ifs with hdel hkey
  · exact ⟨rfl, rfl⟩
  · exact OverrideUsb.sameRegisters_unregisterCode _ u.sendKeyboardReport
  · exact ⟨rfl, rfl⟩

section Schedule

variable (now : BitVec 32) (keycode : Keycode) (s : OverrideState P)

@[simp] theorem schedule_enabled :
    (s.scheduleDeferredRegister now keycode).enabled = s.enabled := by
  unfold scheduleDeferredRegister
  split_ifs <;> rfl

@[simp] theorem schedule_activeOverride :
    (s.scheduleDeferredRegister now keycode).activeOverride = s.activeOverride := by
  unfold scheduleDeferredRegister
  split_ifs <;> rfl

@[simp] theorem schedule_lastKeyDown :
    (s.scheduleDeferredRegister now keycode).lastKeyDown = s.lastKeyDown := by
  unfold scheduleDeferredRegister
  split_ifs <;> rfl

@[simp] theorem schedule_deferredRegister :
    (s.scheduleDeferredRegister now keycode).deferredRegister = keycode := by
  unfold scheduleDeferredRegister
  split_ifs <;> rfl

@[simp] theorem schedule_usb : (s.scheduleDeferredRegister now keycode).usb = s.usb := by
  unfold scheduleDeferredRegister
  split_ifs <;> rfl

end Schedule

end OverrideState

end K530
