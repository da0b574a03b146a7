import K530.Lib.Run
import K530.Theory.Quantum.OverrideReport

/-!
# Key Overrides Leave Nothing Behind

When every key is up, nothing of an override should be left: no key of it in the
report, and none on its way there.

Everything in the report has an owner: a held key that has put it there and whose
release takes it out, or the active override whose replacement it is. A deferred
key has an owner as well: it is the replacement of the active override, or a trigger
that has been put back, and then it is the last key pressed and is still held.

Four things break this, and `Handled` says that none of them happens. The loop
over the overrides may never end. A modifier may end an override whose trigger
is put back but is not the last key pressed, so that its release will not cancel
it. Overrides may be switched off while a trigger is deferred. And an override may
stay active when the last key goes up.

## Main definitions

* `HeldKey.Carries`: The release of a key takes out a code.

## Theorems

* `leaves_nothing`: Nothing is left in a run all of whose steps are handled.
* `leaves_nothing_broken`: And something is, in one.
-/

namespace K530

universe v w

/-- What the release of a held key takes out. -/
def HeldKey.Carries {K : Type w} (h : HeldKey K) (b : Byte) : Prop :=
  OverrideUsb.Carries h.mods h.code b

namespace OverrideState

variable {P : Type v} {K : Type w} (deref : P → KeyOverride)

/-! ### The two transitions -/

/-- What `clear_active_override` does to the state when there is an override to
    clear. -/
structure Cleared (p : P) (allowReregister : Bool) (s t : OverrideState P) : Prop where
  active : t.activeOverride = none
  enabled : t.enabled = s.enabled
  last : t.lastKeyDown = s.lastKeyDown
  registers : t.usb.weakOverrideMods = 0 ∧ t.usb.suppressedMods = 0
  /-- nothing is deferred but a trigger that is put back -/
  deferred : t.deferredRegister = 0 ∨
    allowReregister = true ∧ s.reregistersTrigger (deref p) = true ∧
      t.deferredRegister = (deref p).trigger
  down : ∀ b, t.usb.Down b → s.usb.Down b ∧
    ((deref p).registersReplacement = true → b ≠ lowByte (deref p).modFreeReplacement)

theorem clearActiveOverride_none (now : BitVec 32) (allowReregister : Bool) (s : OverrideState P)
    (h : s.activeOverride = none) : s.clearActiveOverride deref now allowReregister = s := by
  unfold clearActiveOverride
  rw [h]

theorem clearActiveOverride_some (now : BitVec 32) (allowReregister : Bool) (s : OverrideState P)
    (p : P) (h : s.activeOverride = some p) :
    Cleared deref p allowReregister s (s.clearActiveOverride deref now allowReregister) := by
  have hsame := sameRegisters_unregisterReplacement (deref p)
    { s.usb with suppressedMods := 0, weakOverrideMods := 0 }
  have hdown := down_unregisterReplacement (deref p)
    { s.usb with suppressedMods := 0, weakOverrideMods := 0 }
  unfold clearActiveOverride
  rw [h]
  dsimp only
  split_ifs with hre
  · rw [Bool.and_eq_true] at hre
    refine ⟨rfl, by simp, by simp, ?_, Or.inr ⟨hre.1, hre.2, by simp⟩, fun b hb => ?_⟩
    · rw [schedule_usb]
      exact hsame
    · rw [schedule_usb] at hb
      exact hdown b hb
  · exact ⟨rfl, rfl, rfl, hsame, Or.inl rfl, fun b hb => hdown b hb⟩

/-- What `try_activating_override` does to the state once the override before is
    cleared. -/
structure Activated (p : P) (s t : OverrideState P) : Prop where
  active : t.activeOverride = some p
  enabled : t.enabled = s.enabled
  last : t.lastKeyDown = s.lastKeyDown
  deferred : t.deferredRegister = s.deferredRegister ∨
    (deref p).registersReplacement = true ∧ t.deferredRegister = (deref p).modFreeReplacement
  down : ∀ b, t.usb.Down b → s.usb.Down b ∨
    (deref p).registersReplacement = true ∧ b = lowByte (deref p).modFreeReplacement

theorem takeOver_spec (now : BitVec 32) (keycode : Keycode) (keyDown : Bool) (p : P)
    (s : OverrideState P) :
    Activated deref p (s.clearActiveOverride deref now false)
      (s.takeOver deref now keycode keyDown p) := by
  unfold takeOver
  generalize s.clearActiveOverride deref now false = t
  dsimp only
  split_ifs
  · refine ⟨rfl, rfl, rfl, Or.inl rfl, fun b hb => Or.inl ?_⟩
    exact down_unregisterTrigger (deref p)
      { t.usb with suppressedMods := (deref p).suppressedMods } b hb
  · exact ⟨rfl, rfl, rfl, Or.inl rfl, fun b hb => Or.inl hb⟩

theorem activate_spec (now : BitVec 32) (keycode : Keycode) (keyDown : Bool) (p : P)
    (s : OverrideState P) :
    Activated deref p (s.clearActiveOverride deref now false)
      (s.activate deref now keycode keyDown p) := by
  have hbefore := takeOver_spec deref now keycode keyDown p s
  unfold activate
  generalize s.takeOver deref now keycode keyDown p = t at hbefore ⊢
  dsimp only
  split_ifs with hreg hmod
  · -- after a modifier the replacement is deferred
    refine ⟨?_, ?_, ?_, Or.inr ⟨hreg, ?_⟩, fun b hb => hbefore.down b ?_⟩
    · exact (schedule_activeOverride _ _ _).trans hbefore.active
    · exact (schedule_enabled _ _ _).trans hbefore.enabled
    · exact (schedule_lastKeyDown _ _ _).trans hbefore.last
    · exact schedule_deferredRegister _ _ _
    · unfold onUsb at hb
      dsimp only at hb
      rw [schedule_usb, OverrideUsb.down_send] at hb
      exact hb
  · -- after another key it is registered
    refine ⟨hbefore.active, hbefore.enabled, hbefore.last, hbefore.deferred, fun b hb => ?_⟩
    rcases down_registerReplacement (deref p) _ b hb with hb | hb
    · exact hbefore.down b hb
    · exact Or.inr ⟨hreg, hb⟩
  · exact ⟨hbefore.active, hbefore.enabled, hbefore.last, hbefore.deferred,
      fun b hb => hbefore.down b hb⟩

/-! ### The invariant -/

def Replacing (s : OverrideState P) (keycode : Keycode) : Prop :=
  ∃ p, s.activeOverride = some p ∧ (deref p).registersReplacement = true ∧
    keycode = (deref p).modFreeReplacement

/-- A held key has the keycode, and its release takes out what registering the
    keycode puts in. -/
def Ends (held : List (HeldKey K)) (keycode : Keycode) : Prop :=
  ∃ h ∈ held, h.keycode = keycode ∧
    (reportable (lowByte keycode) = true → h.Carries (lowByte keycode))

/-- The registers of the overrides are those of the active one, and what is
    deferred is its replacement, or the last key pressed and still held. -/
structure Kept (held : List (HeldKey K)) (s : OverrideState P) : Prop where
  off : s.enabled = false → s.activeOverride = none
  last : isModCode s.lastKeyDown = false
  deferred : s.deferredRegister = 0 ∨
    s.deferredRegister = s.lastKeyDown ∧ Ends held s.lastKeyDown ∨
      s.Replacing deref s.deferredRegister
  registers : s.activeOverride = none →
    s.usb.weakOverrideMods = 0 ∧ s.usb.suppressedMods = 0

def Owned (held : List (HeldKey K)) (s : OverrideState P) : Prop :=
  ∀ b, s.usb.Down b →
    (∃ h ∈ held, h.Carries b) ∨ ∃ keycode, s.Replacing deref keycode ∧ b = lowByte keycode

theorem not_replacing (s : OverrideState P) (keycode : Keycode) (h : s.activeOverride = none) :
    ¬ s.Replacing deref keycode := by
  rintro ⟨p, hp, -⟩
  rw [h] at hp
  exact Option.some_ne_none p hp.symm

theorem kept_clearActiveOverride (now : BitVec 32) (allowReregister : Bool)
    (held : List (HeldKey K)) (s : OverrideState P) (h : Kept deref held s)
    (hlast : allowReregister → ∀ p, s.activeOverride = some p →
      s.reregistersTrigger (deref p) →
        (deref p).trigger = s.lastKeyDown ∧ Ends held (deref p).trigger) :
    Kept deref held (s.clearActiveOverride deref now allowReregister) := by
  cases hactive : s.activeOverride with
  | none =>
    rw [clearActiveOverride_none deref now allowReregister s hactive]
    exact h
  | some p =>
    have hclear := clearActiveOverride_some deref now allowReregister s p hactive
    refine ⟨fun _ => hclear.active, hclear.last ▸ h.last, ?_, fun _ => hclear.registers⟩
    rcases hclear.deferred with hzero | ⟨hallow, hre, htrigger⟩
    · exact Or.inl hzero
    · obtain ⟨hsame, hends⟩ := hlast hallow p hactive hre
      rw [hclear.last, htrigger, ← hsame]
      exact Or.inr (Or.inl ⟨rfl, hends⟩)

theorem owned_clearActiveOverride (now : BitVec 32) (allowReregister : Bool)
    (held : List (HeldKey K)) (s : OverrideState P) (h : Owned deref held s) :
    Owned deref held (s.clearActiveOverride deref now allowReregister) := by
  cases hactive : s.activeOverride with
  | none =>
    rw [clearActiveOverride_none deref now allowReregister s hactive]
    exact h
  | some p =>
    intro b hb
    obtain ⟨hdown, hne⟩ :=
      (clearActiveOverride_some deref now allowReregister s p hactive).down b hb
    rcases h b hdown with hheld | ⟨keycode, ⟨q, hq, hreg, hcode⟩, hb⟩
    · exact Or.inl hheld
    · -- the replacement has been taken out
      rw [hactive, Option.some.injEq] at hq
      rw [← hq] at hreg hcode
      exact absurd (hb.trans (congrArg lowByte hcode)) (hne hreg)

theorem clearActiveOverride_active (now : BitVec 32) (allowReregister : Bool)
    (s : OverrideState P) :
    (s.clearActiveOverride deref now allowReregister).activeOverride = none := by
  cases hactive : s.activeOverride with
  | none =>
    rw [clearActiveOverride_none deref now allowReregister s hactive]
    exact hactive
  | some p => exact (clearActiveOverride_some deref now allowReregister s p hactive).active

theorem clearActiveOverride_enabled (now : BitVec 32) (allowReregister : Bool)
    (s : OverrideState P) :
    (s.clearActiveOverride deref now allowReregister).enabled = s.enabled := by
  cases hactive : s.activeOverride with
  | none => rw [clearActiveOverride_none deref now allowReregister s hactive]
  | some p => exact (clearActiveOverride_some deref now allowReregister s p hactive).enabled

theorem kept_activate (now : BitVec 32) (keycode : Keycode) (keyDown : Bool) (p : P)
    (held : List (HeldKey K)) (s : OverrideState P) (h : Kept deref held s)
    (hon : s.enabled) : Kept deref held (s.activate deref now keycode keyDown p) := by
  have hbefore := kept_clearActiveOverride deref now false held s h
    (fun hc => Bool.noConfusion hc)
  have hspec := activate_spec deref now keycode keyDown p s
  refine ⟨fun hoff => ?_, hspec.last ▸ hbefore.last, ?_, fun hnone => ?_⟩
  · rw [hspec.enabled, clearActiveOverride_enabled, hon] at hoff
    exact Bool.noConfusion hoff
  · rcases hspec.deferred with hsame | ⟨hreg, hcode⟩
    · rw [hsame, hspec.last]
      refine hbefore.deferred.imp_right (Or.imp_right (fun hc => ?_))
      exact absurd hc (not_replacing deref _ _ (clearActiveOverride_active deref now false s))
    · exact Or.inr (Or.inr ⟨p, hspec.active, hreg, hcode⟩)
  · rw [hspec.active] at hnone
    exact absurd hnone (Option.some_ne_none p)

theorem owned_activate (now : BitVec 32) (keycode : Keycode) (keyDown : Bool) (p : P)
    (held : List (HeldKey K)) (s : OverrideState P) (h : Owned deref held s) :
    Owned deref held (s.activate deref now keycode keyDown p) := by
  have hbefore := owned_clearActiveOverride deref now false held s h
  have hspec := activate_spec deref now keycode keyDown p s
  intro b hb
  rcases hspec.down b hb with hb | ⟨hreg, hb⟩
  · rcases hbefore b hb with hheld | ⟨code, hrep, -⟩
    · exact Or.inl hheld
    · exact absurd hrep (not_replacing deref _ _ (clearActiveOverride_active deref now false s))
  · exact Or.inr ⟨_, ⟨p, hspec.active, hreg, rfl⟩, hb⟩

theorem kept_keyOverrideTask (now : BitVec 32) (held : List (HeldKey K)) (s : OverrideState P)
    (h : Kept deref held s) : Kept deref held (s.keyOverrideTask now) := by
  unfold keyOverrideTask
  split_ifs with hzero hdue
  · exact h
  · have hsame := OverrideUsb.sameRegisters_registerCode16 s.deferredRegister s.usb
    refine ⟨h.off, h.last, Or.inl rfl, fun hnone => ?_⟩
    exact ⟨hsame.1.trans (h.registers hnone).1, hsame.2.trans (h.registers hnone).2⟩
  · exact h

theorem owned_keyOverrideTask (now : BitVec 32) (held : List (HeldKey K)) (s : OverrideState P)
    (h : Kept deref held s) (hown : Owned deref held s) :
    Owned deref held (s.keyOverrideTask now) := by
  unfold keyOverrideTask
  split_ifs with hzero hdue
  · exact hown
  · intro b hb
    rcases OverrideUsb.down_registerCode16 s.usb s.deferredRegister b hb with hold | hnew
    · exact hown b hold
    · rcases h.deferred with hnone | ⟨hlast, k, hk, -, hcarries⟩ | hrep
      · exact absurd hnone hzero
      · rw [hlast] at hnew
        exact Or.inl ⟨k, hk, hnew ▸ hcarries (hnew ▸ hb.reportable)⟩
      · exact Or.inr ⟨s.deferredRegister, hrep, hnew⟩
  · exact hown

/-! ### An event -/

section Parts

variable (now : BitVec 32) {keycode : Keycode} {keyDown : Bool}

theorem ends_of_subset (before held : List (HeldKey K)) (code : Keycode)
    (hheld : ∀ x ∈ before, x ∈ held ∨ x.keycode = keycode ∧ keyDown = false)
    (hother : keyDown ∨ code ≠ keycode) (h : Ends before code) : Ends held code := by
  obtain ⟨x, hx, hcode, hcarries⟩ := h
  rcases hheld x hx with hin | ⟨hkeycode, hup⟩
  · exact ⟨x, hin, hcode, hcarries⟩
  · rcases hother with hdown | hne
    · rw [hup] at hdown
      exact Bool.noConfusion hdown
    · exact absurd (hcode.symm.trans hkeycode) hne

theorem kept_noteKey (before held : List (HeldKey K)) (s : OverrideState P)
    (hheld : ∀ x ∈ before, x ∈ held ∨ x.keycode = keycode ∧ keyDown = false)
    (h : Kept deref before s) : Kept deref held (s.noteKey now keycode keyDown) := by
  unfold noteKey
  split_ifs with hmod hdown hlast
  · -- the last key is no modifier, so it stays held
    refine ⟨h.off, h.last, h.deferred.imp_right (Or.imp_left (fun hd => ⟨hd.1, ?_⟩)),
      h.registers⟩
    refine ends_of_subset before held _ hheld (Or.inr ?_) hd.2
    intro hc
    rw [← hc, h.last] at hmod
    exact Bool.noConfusion hmod
  · exact ⟨h.off, eq_false_of_ne_true hmod, Or.inl rfl, h.registers⟩
  · exact ⟨h.off, rfl, Or.inl rfl, h.registers⟩
  · refine ⟨h.off, h.last, h.deferred.imp_right (Or.imp_left (fun hd => ⟨hd.1, ?_⟩)),
      h.registers⟩
    exact ends_of_subset before held _ hheld (Or.inr (Ne.symm hlast)) hd.2

@[simp] theorem noteKey_activeOverride (s : OverrideState P) :
    (s.noteKey now keycode keyDown).activeOverride = s.activeOverride := by
  unfold noteKey
  split_ifs <;> rfl

@[simp] theorem noteKey_enabled (s : OverrideState P) :
    (s.noteKey now keycode keyDown).enabled = s.enabled := by
  unfold noteKey
  split_ifs <;> rfl

@[simp] theorem noteKey_usb (s : OverrideState P) :
    (s.noteKey now keycode keyDown).usb = s.usb := by
  unfold noteKey
  split_ifs <;> rfl

@[simp] theorem noteKey_reregistersTrigger (o : KeyOverride) (s : OverrideState P) :
    (s.noteKey now keycode keyDown).reregistersTrigger o = s.reregistersTrigger o := by
  unfold noteKey
  split_ifs <;> rfl

variable (held : List (HeldKey K)) (s : OverrideState P)

theorem noteKey_owned (h : Owned deref held s) :
    Owned deref held (s.noteKey now keycode keyDown) := by
  intro b hb
  rw [noteKey_usb] at hb
  refine (h b hb).imp_right (fun ⟨code, ⟨p, hp, hrest⟩, hcode⟩ => ?_)
  exact ⟨code, ⟨p, (noteKey_activeOverride now s).trans hp, hrest⟩, hcode⟩

theorem kept_endOverride (mods : Byte) (held : List (HeldKey K)) (s : OverrideState P)
    (h : Kept deref held s)
    (hlast : isModCode keycode → ∀ p, s.activeOverride = some p →
      (deref p).matchesActiveModifiers mods = false → s.reregistersTrigger (deref p) →
        (deref p).trigger = s.lastKeyDown ∧ Ends held (deref p).trigger) :
    Kept deref held (s.endOverride deref now keycode keyDown mods) := by
  have hno : false → ∀ p, s.activeOverride = some p →
      s.reregistersTrigger (deref p) →
        (deref p).trigger = s.lastKeyDown ∧ Ends held (deref p).trigger :=
    fun hc => Bool.noConfusion hc
  unfold endOverride
  cases hactive : s.activeOverride with
  | none => exact h
  | some p =>
    dsimp only
    split_ifs with hmod hmatch hup hother
    · exact h
    · refine kept_clearActiveOverride deref now true held s h (fun _ q hq hre => ?_)
      rw [hactive, Option.some.injEq] at hq
      rw [← hq] at hre ⊢
      exact hlast hmod p hactive (eq_false_of_ne_true hmatch) hre
    · exact kept_clearActiveOverride deref now false held s.liftTrigger
        ⟨h.off, h.last, h.deferred, h.registers⟩ (fun hc => Bool.noConfusion hc)
    · exact kept_clearActiveOverride deref now false held s h hno
    · exact h

theorem owned_endOverride (mods : Byte) (held : List (HeldKey K)) (s : OverrideState P)
    (h : Owned deref held s) :
    Owned deref held (s.endOverride deref now keycode keyDown mods) := by
  unfold endOverride
  cases hactive : s.activeOverride with
  | none => exact h
  | some p =>
    dsimp only
    split_ifs
    · exact h
    · exact owned_clearActiveOverride deref now true held s h
    · exact owned_clearActiveOverride deref now false held s.liftTrigger h
    · exact owned_clearActiveOverride deref now false held s h
    · exact h

theorem endOverride_release (mods : Byte) (s : OverrideState P) (q : P)
    (h : (s.endOverride deref now keycode false mods).activeOverride = some q) :
    s.activeOverride = some q ∧
      if isModCode keycode then (deref q).matchesActiveModifiers mods = true
      else (deref q).trigger ≠ keycode := by
  unfold endOverride at h
  cases hactive : s.activeOverride with
  | none =>
    rw [hactive] at h
    dsimp only at h
    rw [hactive] at h
    exact absurd h.symm (Option.some_ne_none q)
  | some p =>
    rw [hactive] at h
    dsimp only at h
    split_ifs at h with hmod hmatch hup hother
    · rw [hactive] at h
      rw [if_pos hmod, ← Option.some.inj h]
      exact ⟨rfl, hmatch⟩
    · rw [clearActiveOverride_active] at h
      exact absurd h.symm (Option.some_ne_none q)
    · rw [clearActiveOverride_active] at h
      exact absurd h.symm (Option.some_ne_none q)
    · rw [clearActiveOverride_active] at h
      exact absurd h.symm (Option.some_ne_none q)
    · rw [hactive] at h
      rw [if_neg hmod, ← Option.some.inj h]
      refine ⟨rfl, fun hc => hup ?_⟩
      rw [hc, beq_self_eq_true]
      rfl

theorem off_eq :
    s.off deref now = { s.clearActiveOverride deref now false with enabled := false } := by
  unfold off clearActiveOverride
  obtain ⟨enabled, active, down, last, time, reference, delay, deferred, usb⟩ := s
  cases active with
  | none => rfl
  | some p => rfl

theorem kept_off (h : Kept deref held s) : Kept deref held (s.off deref now) := by
  have hclear := kept_clearActiveOverride deref now false held s h (fun hc => Bool.noConfusion hc)
  rw [off_eq]
  exact ⟨fun _ => clearActiveOverride_active deref now false s, hclear.last, hclear.deferred,
    hclear.registers⟩

theorem owned_off (h : Owned deref held s) : Owned deref held (s.off deref now) := by
  rw [off_eq]
  exact owned_clearActiveOverride deref now false held s h

theorem kept_on (h : Kept deref held s) : Kept deref held s.on :=
  ⟨fun hc => Bool.noConfusion hc, h.last, h.deferred, h.registers⟩

end Parts

section Event

variable [DecidableEq P] (overrides : List P) (flags : Nat → Bool) (now : BitVec 32)
  (keycode : Keycode) (layer : Nat) (keyDown : Bool)

/-- The event gets as far as the overrides. -/
def looks (s : OverrideState P) : Bool :=
  s.enabled && !(keyDown &&
    (keycode == keyOverrideToggle || keycode == keyOverrideOn || keycode == keyOverrideOff))

/-- The override the event activates. The release of a key that is no modifier
    activates none. -/
def chosen (s : OverrideState P) : Option P :=
  if isModCode keycode || keyDown then
    (s.noteKey now keycode keyDown).activated deref overrides flags keycode layer keyDown
      (s.effectiveMods keycode keyDown)
  else none

/-- The event does not end the override, if it activates no other. -/
def spares (p : P) (s : OverrideState P) : Prop :=
  if isModCode keycode then
    (deref p).matchesActiveModifiers (s.effectiveMods keycode keyDown) = true
  else (deref p).trigger ≠ keycode

/-- What an event must meet for the overrides to leave nothing behind. `held` are
    the keys that are held after it. -/
structure Handled (held : List (HeldKey K)) (s : OverrideState P) : Prop where
  /-- the loop over the overrides ends -/
  ends : s.looks keycode keyDown = true →
    s.chosen deref overrides flags now keycode layer keyDown = none →
    isModCode keycode = true ∨ keyDown = true → overrides.length < 256
  /-- a trigger that a modifier puts back is the last key pressed, and is held -/
  putBack : s.looks keycode keyDown = true →
    s.chosen deref overrides flags now keycode layer keyDown = none →
    isModCode keycode = true → ∀ p, s.activeOverride = some p →
      (deref p).matchesActiveModifiers (s.effectiveMods keycode keyDown) = false →
      s.reregistersTrigger (deref p) = true →
        (deref p).trigger = s.lastKeyDown ∧ Ends held (deref p).trigger
  /-- no deferred key is released while overrides are off -/
  deferred : s.enabled = false → keyDown = false →
    s.deferredRegister = 0 ∨ Ends held s.deferredRegister
  /-- no override with a replacement is active when the last key is up -/
  idle : s.looks keycode keyDown = true → held = [] → ∀ p,
    (s.chosen deref overrides flags now keycode layer keyDown = some p ∨
      s.chosen deref overrides flags now keycode layer keyDown = none ∧
        s.activeOverride = some p ∧ s.spares deref keycode keyDown p) →
      (deref p).registersReplacement = false

def Idle (s : OverrideState P) : Prop :=
  ∀ p, s.activeOverride = some p → (deref p).registersReplacement = false

omit [DecidableEq P] in
theorem looks_eq_true (s : OverrideState P) :
    s.looks keycode keyDown ↔
      s.enabled = true ∧ ¬ (keyDown && keycode == keyOverrideToggle) = true ∧
        ¬ (keyDown && keycode == keyOverrideOn) = true ∧
        ¬ (keyDown && keycode == keyOverrideOff) = true := by
  unfold looks
  rw [Bool.and_eq_true, Bool.and_or_distrib_left, Bool.and_or_distrib_left]
  simp only [Bool.not_eq_true', Bool.or_eq_false_iff, Bool.not_eq_true, and_assoc]

theorem processKeyOverride_of_looks (s : OverrideState P) (h : s.looks keycode keyDown) :
    s.processKeyOverride deref overrides flags now keycode layer keyDown =
      match s.chosen deref overrides flags now keycode layer keyDown with
      | some p =>
        let held := (deref p).trigger == keycode && keyDown
        let t := (s.noteKey now keycode keyDown).activate deref now keycode keyDown p
        some (!held, if held then t.onUsb OverrideUsb.sendKeyboardReport else t)
      | none =>
        if (isModCode keycode || keyDown) = true ∧ ¬ overrides.length < 256 then none
        else
          some (true, (s.noteKey now keycode keyDown).endOverride deref now keycode keyDown
            (s.effectiveMods keycode keyDown)) := by
  obtain ⟨henabled, htoggle, hon, hoff⟩ := (looks_eq_true keycode keyDown s).mp h
  unfold processKeyOverride chosen
  rw [if_neg htoggle, if_neg hon, if_neg hoff, if_pos henabled]
  dsimp only
  by_cases hevent : (isModCode keycode || keyDown) = true
  · simp only [hevent, if_true, true_and]
    cases (s.noteKey now keycode keyDown).activated deref overrides flags keycode layer keyDown
        (s.effectiveMods keycode keyDown) with
    | some p => rfl
    | none =>
      dsimp only
      rw [ite_not]
  · simp only [hevent, Bool.false_eq_true, if_false, false_and]

theorem processKeyOverride_of_not_looks (s : OverrideState P)
    (h : s.looks keycode keyDown = false) :
    keyDown ∧ (∃ t, (t = s.on ∨ t = s.off deref now) ∧
      s.processKeyOverride deref overrides flags now keycode layer keyDown = some (false, t)) ∨
    s.enabled = false ∧
      s.processKeyOverride deref overrides flags now keycode layer keyDown = some (true, s) := by
  unfold processKeyOverride
  by_cases htoggle : (keyDown && keycode == keyOverrideToggle) = true
  · rw [if_pos htoggle]
    refine Or.inl ⟨(Bool.and_eq_true_iff.mp htoggle).1, _, ?_, rfl⟩
    unfold toggle
    split_ifs
    · exact Or.inr rfl
    · exact Or.inl rfl
  by_cases hon : (keyDown && keycode == keyOverrideOn) = true
  · rw [if_neg htoggle, if_pos hon]
    exact Or.inl ⟨(Bool.and_eq_true_iff.mp hon).1, _, Or.inl rfl, rfl⟩
  by_cases hoff : (keyDown && keycode == keyOverrideOff) = true
  · rw [if_neg htoggle, if_neg hon, if_pos hoff]
    exact Or.inl ⟨(Bool.and_eq_true_iff.mp hoff).1, _, Or.inr rfl, rfl⟩
  · -- no switch, so overrides are off
    have henabled : ¬ s.enabled := by
      intro hc
      exact Bool.false_ne_true
        (h.symm.trans ((looks_eq_true keycode keyDown s).mpr ⟨hc, htoggle, hon, hoff⟩))
    rw [if_neg htoggle, if_neg hon, if_neg hoff, if_neg henabled]
    exact Or.inr ⟨eq_false_of_ne_true henabled, rfl⟩

/-- The firmware gets through an event, and keeps the invariant. A release goes on, and that of
    the last key leaves no override that matters. `before` are the keys that were held, and the
    one that goes up is the one whose action is still to be ended. -/
def GotThrough (before held : List (HeldKey K)) (s : OverrideState P) : Prop :=
  ∃ goesOn t,
    s.processKeyOverride deref overrides flags now keycode layer keyDown = some (goesOn, t) ∧
    Kept deref held t ∧ Owned deref before t ∧
    (keyDown = false → goesOn = true ∧ (held = [] → t.Idle deref))

variable (before held : List (HeldKey K)) (s : OverrideState P)

theorem gotThrough_chosen (p : P) (hnote : Kept deref held (s.noteKey now keycode keyDown))
    (hown : Owned deref before (s.noteKey now keycode keyDown))
    (hlooks : s.looks keycode keyDown)
    (hchosen : s.chosen deref overrides flags now keycode layer keyDown = some p)
    (hh : Handled deref overrides flags now keycode layer keyDown held s) :
    GotThrough deref overrides flags now keycode layer keyDown before held s := by
  have hon : s.enabled = true := (Bool.and_eq_true_iff.mp hlooks).1
  have hkept := kept_activate deref now keycode keyDown p held _ hnote
    ((noteKey_enabled now s).trans hon)
  have howned := owned_activate deref now keycode keyDown p before _ hown
  unfold GotThrough
  rw [processKeyOverride_of_looks deref overrides flags now keycode layer keyDown s hlooks, hchosen]
  refine ⟨_, _, rfl, ?_, ?_, fun hup => ⟨?_, fun hnone q hq => ?_⟩⟩
  · split_ifs
    · exact ⟨hkept.off, hkept.last, hkept.deferred, hkept.registers⟩
    · exact hkept
  · split_ifs
    · exact howned
    · exact howned
  · rw [hup, Bool.and_false]
    rfl
  · rw [hup, Bool.and_false, if_neg Bool.false_ne_true,
      (activate_spec deref now keycode false p _).active] at hq
    rw [← Option.some.inj hq]
    exact hh.idle hlooks hnone p (Or.inl hchosen)

theorem gotThrough_none (hnote : Kept deref held (s.noteKey now keycode keyDown))
    (hown : Owned deref before (s.noteKey now keycode keyDown))
    (hlooks : s.looks keycode keyDown)
    (hchosen : s.chosen deref overrides flags now keycode layer keyDown = none)
    (hh : Handled deref overrides flags now keycode layer keyDown held s) :
    GotThrough deref overrides flags now keycode layer keyDown before held s := by
  unfold GotThrough
  rw [processKeyOverride_of_looks deref overrides flags now keycode layer keyDown s hlooks, hchosen]
  dsimp only
  rw [if_neg]
  · refine ⟨_, _, rfl, ?_, ?_, fun hup => ⟨rfl, fun hnone q hq => ?_⟩⟩
    · -- Noting the key of a modifier leaves what a trigger that is put back depends on.
      refine kept_endOverride deref now _ held _ hnote (fun hmod p hp hmatch hre => ?_)
      have hlast : (s.noteKey now keycode keyDown).lastKeyDown = s.lastKeyDown := by
        unfold noteKey
        rw [if_pos hmod]
      rw [noteKey_activeOverride] at hp
      rw [noteKey_reregistersTrigger] at hre
      rw [hlast]
      exact hh.putBack hlooks hchosen hmod p hp hmatch hre
    · exact owned_endOverride deref now _ before _ hown
    · subst hup
      obtain ⟨hactive, hspared⟩ := endOverride_release deref now _ _ q hq
      rw [noteKey_activeOverride] at hactive
      exact hh.idle hlooks hnone q (Or.inr ⟨hchosen, hactive, hspared⟩)
  · rintro ⟨hevent, hlong⟩
    -- The loop ends, since the event is handled.
    exact hlong (hh.ends hlooks hchosen (Bool.or_eq_true_iff.mp hevent))

theorem gotThrough_switch (s t : OverrideState P)
    (hheld : ∀ x ∈ before, x ∈ held ∨ x.keycode = keycode ∧ keyDown = false)
    (h : Kept deref before s) (hown : Owned deref before s) (hdown : keyDown)
    (ht : t = s.on ∨ t = s.off deref now)
    (heq : s.processKeyOverride deref overrides flags now keycode layer keyDown =
      some (false, t)) :
    GotThrough deref overrides flags now keycode layer keyDown before held s := by
  -- The press of a switch lets no key go.
  have hk : Kept deref held s :=
    ⟨h.off, h.last, h.deferred.imp_right (Or.imp_left (fun hd =>
      ⟨hd.1, ends_of_subset before held _ hheld (Or.inl hdown) hd.2⟩)), h.registers⟩
  refine ⟨false, t, heq, ?_, ?_, fun hup => ?_⟩
  · rcases ht with rfl | rfl
    · exact kept_on deref held s hk
    · exact kept_off deref now held s hk
  · rcases ht with rfl | rfl
    · exact hown
    · exact owned_off deref now before s hown
  · rw [hdown] at hup
    exact Bool.noConfusion hup

theorem gotThrough_off (hheld : ∀ x ∈ before, x ∈ held ∨ x.keycode = keycode ∧ keyDown = false)
    (h : Kept deref before s) (hown : Owned deref before s) (hoff : s.enabled = false)
    (heq : s.processKeyOverride deref overrides flags now keycode layer keyDown = some (true, s))
    (hh : Handled deref overrides flags now keycode layer keyDown held s) :
    GotThrough deref overrides flags now keycode layer keyDown before held s := by
  have hnone := h.off hoff
  refine ⟨true, s, heq, ⟨h.off, h.last, ?_, h.registers⟩, hown,
    fun _ => ⟨rfl, fun _ q hq => ?_⟩⟩
  · rcases h.deferred with hzero | ⟨hlast, hends⟩ | hrep
    · exact Or.inl hzero
    · cases hkeyDown : keyDown with
      | true =>
        exact Or.inr (Or.inl
          ⟨hlast, ends_of_subset before held _ hheld (Or.inl hkeyDown) hends⟩)
      | false =>
        refine (hh.deferred hoff hkeyDown).imp_right (fun hc => Or.inl ⟨hlast, ?_⟩)
        rwa [hlast] at hc
    · exact absurd hrep (not_replacing deref s _ hnone)
  · rw [hnone] at hq
    exact absurd hq.symm (Option.some_ne_none q)

theorem processKeyOverride_spec
    (hheld : ∀ x ∈ before, x ∈ held ∨ x.keycode = keycode ∧ keyDown = false)
    (h : Kept deref before s) (hown : Owned deref before s)
    (hh : Handled deref overrides flags now keycode layer keyDown held s) :
    GotThrough deref overrides flags now keycode layer keyDown before held s := by
  have hnote := kept_noteKey deref now before held s hheld h
  have hnoteOwned : Owned deref before (s.noteKey now keycode keyDown) :=
    noteKey_owned deref now before s hown
  cases hlooks : s.looks keycode keyDown with
  | true =>
    cases hchosen : s.chosen deref overrides flags now keycode layer keyDown with
    | some p =>
      exact gotThrough_chosen deref overrides flags now keycode layer keyDown before held s p
        hnote hnoteOwned hlooks hchosen hh
    | none =>
      exact gotThrough_none deref overrides flags now keycode layer keyDown before held s
        hnote hnoteOwned hlooks hchosen hh
  | false =>
    rcases processKeyOverride_of_not_looks deref overrides flags now keycode layer keyDown s
        hlooks with ⟨hdown, t, ht, heq⟩ | ⟨hoff, heq⟩
    · exact gotThrough_switch deref overrides flags now keycode layer keyDown before held s t
        hheld h hown hdown ht heq
    · exact gotThrough_off deref overrides flags now keycode layer keyDown before held s
        hheld h hown hoff heq hh

end Event

end OverrideState

namespace OverrideRun

open OverrideState StepRun

variable {P : Type v} {K : Type w} (deref : P → KeyOverride)

/-! ### The invariant of a run -/

structure Sound (s : OverrideRun P K) : Prop where
  awake : s.hung = false
  kept : Kept deref s.held s.state
  owned : Owned deref s.held s.state
  idle : s.held = [] → s.state.Idle deref

theorem start_sound (nkro : Bool) (flags : Nat → Bool) :
    Sound deref (start P K nkro flags) := by
  refine ⟨rfl, ⟨fun _ => rfl, rfl, Or.inl rfl, fun _ => ⟨rfl, rfl⟩⟩, fun b hb => ?_, ?_⟩
  · have hclear := Usb.clear_of_empty (Usb.init nkro) rfl rfl rfl
    rcases hb with ⟨-, hp⟩ | ⟨-, hp⟩
    · exact absurd ((hclear.1.2 b).symm.trans hp) Bool.false_ne_true
    · exact absurd hp (by simp [start, OverrideState.init, OverrideUsb.init, Usb.init, hasMod])
  · intro _ p hp
    exact absurd hp.symm (Option.some_ne_none p)

theorem kept_processMods (held : List (HeldKey K)) (t : OverrideState P) (pressed : Bool)
    (h : HeldKey K) (hk : Kept deref held t) :
    Kept deref held (t.onUsb (OverrideUsb.processMods pressed h.mods h.code)) := by
  have hsame := OverrideUsb.sameRegisters_processMods pressed h.mods h.code t.usb
  refine ⟨hk.off, hk.last, hk.deferred, fun hnone => ?_⟩
  exact ⟨hsame.1.trans (hk.registers hnone).1, hsame.2.trans (hk.registers hnone).2⟩

theorem deferred_of_sound (s : OverrideRun P K) (hs : Sound deref s) (hnone : s.held = []) :
    s.state.deferredRegister = 0 := by
  rcases hs.kept.deferred with hzero | ⟨-, x, hx, -⟩ | ⟨p, hp, hreg, -⟩
  · exact hzero
  · rw [hnone] at hx
    exact absurd hx List.not_mem_nil
  · rw [hs.idle hnone p hp] at hreg
    exact Bool.noConfusion hreg

theorem not_down_of_sound (s : OverrideRun P K) (hs : Sound deref s) (hnone : s.held = [])
    (b : Byte) : ¬ s.state.usb.Down b := by
  intro hb
  rcases hs.owned b hb with ⟨x, hx, -⟩ | ⟨-, ⟨p, hp, hreg, -⟩, -⟩
  · rw [hnone] at hx
    exact absurd hx List.not_mem_nil
  · rw [hs.idle hnone p hp] at hreg
    exact Bool.noConfusion hreg

/-! ### Runs -/

theorem mem_eraseP_or_found {α : Type*} (f : α → Bool) (as : List α) (a : α) (h : a ∈ as) :
    a ∈ as.eraseP f ∨ as.find? f = some a := by
  induction as with
  | nil => exact absurd h List.not_mem_nil
  | cons b as ih =>
    rw [List.eraseP_cons, List.find?_cons]
    cases hb : f b with
    | true =>
      rcases List.mem_cons.mp h with rfl | h
      · exact Or.inr rfl
      · exact Or.inl h
    | false =>
      rcases List.mem_cons.mp h with rfl | h
      · exact Or.inl List.mem_cons_self
      · exact (ih h).imp_left (List.mem_cons_of_mem b)

variable [DecidableEq P] [DecidableEq K] (overrides : List P)

/-- The input is handled: a press that is one and a release that is one are. -/
def Handled (s : OverrideRun P K) : OverrideInput K → Prop
  | .press h => s.held.any (fun e => e.key = h.key) = false →
      s.state.Handled deref overrides s.flags s.clock h.keycode h.layer true (h :: s.held)
  | .release key => ∀ h, s.held.find? (fun e => e.key = key) = some h →
      s.state.Handled deref overrides s.flags s.clock h.keycode h.layer false (s.without key)
  | _ => True

/-- Time passes and the task is called, and that is all. -/
def waits : OverrideInput K → Bool
  | .task => true
  | .tick _ => true
  | _ => false

/-- Nothing is left: when every key is up no later call of the task registers
    anything and no trigger and no replacement is in the report, and without an
    active override its registers are empty. -/
structure LeavesNothing (s : OverrideRun P K) : Prop where
  task : s.held = [] → ∀ later : List (OverrideInput K), (∀ i ∈ later, waits i = true) →
    (run (step deref overrides) s later).state.usb = s.state.usb
  report : s.held = [] → ∀ p ∈ overrides, ¬ s.state.usb.Down (lowByte (deref p).trigger) ∧
    ¬ s.state.usb.Down (lowByte (deref p).modFreeReplacement)
  registers : s.state.activeOverride = none →
    s.state.usb.weakOverrideMods = 0 ∧ s.state.usb.suppressedMods = 0

theorem press_sound (h : HeldKey K) (s : OverrideRun P K) (hs : Sound deref s)
    (hh : Handled deref overrides s (.press h)) : Sound deref (s.press deref overrides h) := by
  unfold press
  split_ifs with hdown
  · exact hs
  · have hmore : ∀ x ∈ h :: s.held, x ∈ h :: s.held ∨ x.keycode = h.keycode ∧ true = false :=
      fun x hx => Or.inl hx
    have hkept : Kept deref (h :: s.held) s.state := by
      refine ⟨hs.kept.off, hs.kept.last, hs.kept.deferred.imp_right (Or.imp_left ?_),
        hs.kept.registers⟩
      rintro ⟨hlast, x, hx, hrest⟩
      exact ⟨hlast, x, List.mem_cons_of_mem h hx, hrest⟩
    have howned : Owned deref (h :: s.held) s.state := by
      intro b hb
      refine (hs.owned b hb).imp_left ?_
      rintro ⟨x, hx, hcarries⟩
      exact ⟨x, List.mem_cons_of_mem h hx, hcarries⟩
    obtain ⟨goesOn, t, heq, hk, ho, -⟩ := processKeyOverride_spec deref overrides s.flags s.clock
      h.keycode h.layer true (h :: s.held) (h :: s.held) s.state hmore hkept howned
      (hh (eq_false_of_ne_true hdown))
    unfold process
    rw [if_neg (by simp [hs.awake]), heq]
    refine ⟨hs.awake, ?_, ?_, fun hc => absurd hc (List.cons_ne_nil h s.held)⟩
    · cases goesOn with
      | true => exact kept_processMods deref (h :: s.held) t true h hk
      | false => exact hk
    · cases goesOn with
      | true =>
        intro b hb
        rcases OverrideUsb.down_processMods_press t.usb h.mods h.code b hb with hb | hb
        · exact ho b hb
        · exact Or.inl ⟨h, List.mem_cons_self, hb⟩
      | false => exact ho

theorem release_sound (key : K) (s : OverrideRun P K) (hs : Sound deref s)
    (hh : Handled deref overrides s (.release key)) :
    Sound deref (s.release deref overrides key) := by
  unfold release
  cases hfound : s.held.find? (fun e => e.key = key) with
  | none => exact hs
  | some h =>
    have hrest : ∀ x ∈ s.held, x ∈ s.without key ∨ x = h := by
      intro x hx
      refine (mem_eraseP_or_found _ s.held x hx).imp_right (fun hc => ?_)
      rw [hfound, Option.some.injEq] at hc
      exact hc.symm
    have hheld : ∀ x ∈ s.held, x ∈ s.without key ∨ x.keycode = h.keycode ∧ false = false := by
      intro x hx
      exact (hrest x hx).imp_right (fun hc => ⟨congrArg HeldKey.keycode hc, rfl⟩)
    obtain ⟨goesOn, t, heq, hk, ho, hup⟩ := processKeyOverride_spec deref overrides s.flags
      s.clock h.keycode h.layer false s.held (s.without key) s.state hheld hs.kept hs.owned
      (hh h hfound)
    obtain ⟨rfl, hidle⟩ := hup rfl
    dsimp only
    unfold process
    rw [if_neg (by simp [hs.awake]), heq]
    refine ⟨hs.awake, kept_processMods deref _ t false h hk, fun b hb => ?_, hidle⟩
    obtain ⟨hdown, hnot⟩ := OverrideUsb.down_processMods_release t.usb h.mods h.code b hb
    rcases ho b hdown with ⟨x, hx, hcarries⟩ | hrep
    · rcases hrest x hx with hin | rfl
      · exact Or.inl ⟨x, hin, hcarries⟩
      · exact absurd hcarries hnot
    · exact Or.inr hrep

variable (s : OverrideRun P K)

theorem task_sound (hs : Sound deref s) : Sound deref (step deref overrides s .task) := by
  unfold step
  dsimp only
  rw [if_neg (by simp [hs.awake])]
  refine ⟨hs.awake, kept_keyOverrideTask deref s.clock s.held s.state hs.kept,
    owned_keyOverrideTask deref s.clock s.held s.state hs.kept hs.owned, fun hnone p hp => ?_⟩
  refine hs.idle hnone p ?_
  rw [← hp]
  dsimp only
  unfold keyOverrideTask
  split_ifs <;> rfl

theorem step_sound (i : OverrideInput K) (hs : Sound deref s) (hh : Handled deref overrides s i) :
    Sound deref (step deref overrides s i) := by
  cases i with
  | press h => exact press_sound deref overrides h s hs hh
  | release key => exact release_sound deref overrides key s hs hh
  | task => exact task_sound deref overrides s hs
  | tick now => exact ⟨hs.awake, hs.kept, hs.owned, hs.idle⟩
  | flag name on => exact ⟨hs.awake, hs.kept, hs.owned, hs.idle⟩
  | oneshot mods locked =>
    exact ⟨hs.awake, ⟨hs.kept.off, hs.kept.last, hs.kept.deferred, hs.kept.registers⟩,
      hs.owned, hs.idle⟩

theorem waiting_registers_nothing (later : List (OverrideInput K))
    (hlater : ∀ i ∈ later, waits i) (hzero : s.state.deferredRegister = 0) :
    (run (step deref overrides) s later).state.usb = s.state.usb := by
  have hstep : ∀ (t : OverrideRun P K) (i : OverrideInput K), t.state = s.state →
      waits i → (step deref overrides t i).state = s.state := by
    intro t i ht hi
    cases i with
    | task =>
      unfold step
      dsimp only
      split_ifs
      · exact ht
      · dsimp only
        unfold keyOverrideTask
        rw [ht, if_pos hzero]
    | tick now => exact ht
    | press h => exact Bool.noConfusion hi
    | release key => exact Bool.noConfusion hi
    | flag name on => exact Bool.noConfusion hi
    | oneshot mods locked => exact Bool.noConfusion hi
  have hrun := run_invariant_along (step deref overrides) (fun _ i => waits i = true)
    (fun t => t.state = s.state) hstep later s rfl
    (along_of_forall (step deref overrides) _ later (fun _ i hi => hlater i hi) s)
  exact congrArg OverrideState.usb hrun

theorem leavesNothing_of_sound (hs : Sound deref s) :
    LeavesNothing deref overrides s where
  task hnone later hlater :=
    waiting_registers_nothing deref overrides s later hlater (deferred_of_sound deref s hs hnone)
  report hnone _ _ :=
    ⟨not_down_of_sound deref s hs hnone _, not_down_of_sound deref s hs hnone _⟩
  registers := hs.kept.registers

/-- Key overrides leave nothing behind in a run all of whose inputs are
    handled. -/
theorem leaves_nothing (nkro : Bool) (flags : Nat → Bool) (inputs : List (OverrideInput K))
    (h : Along (step deref overrides) (Handled deref overrides) (start P K nkro flags) inputs) :
    Always (step deref overrides) (LeavesNothing deref overrides) (start P K nkro flags)
      inputs :=
  always_of_along (step deref overrides) (Handled deref overrides) (Sound deref)
    (LeavesNothing deref overrides) (leavesNothing_of_sound deref overrides)
    (fun s i hs hh => step_sound deref overrides s i hs hh) inputs _
    (start_sound deref nkro flags) h

/-- Shift and backspace are delete, on every layer. -/
def shiftBackspace : KeyOverride :=
  { trigger := kcBackspace, triggerMods := 0x22, layers := 0xFFFFFFFF, negativeModMask := 0,
    suppressedMods := 0x22, replacement := kcDelete, options := KeyOverride.allActivations,
    enabled := none }

/-- A key with a basic keycode, in the first layer. -/
def basicKey (key : Nat) (keycode : Keycode) : HeldKey Nat :=
  { key, keycode, layer := 0, mods := 0, code := lowByte keycode }

theorem leaves_nothing_shift :
    Always (step (fun _ => shiftBackspace) [()]) (LeavesNothing (fun _ => shiftBackspace) [()])
      (start Unit Nat false (fun _ => false))
      [.press (basicKey 0 kcLeftShift), .press (basicKey 1 kcBackspace), .release 1,
        .release 0] := by
  refine leaves_nothing (fun _ => shiftBackspace) [()] false (fun _ => false) _
    ⟨fun _ => ?_, fun _ => ?_, fun h hh => ?_, fun h hh => ?_, trivial⟩
  · exact ⟨fun _ _ _ => by decide, fun _ _ _ p hp => absurd hp.symm (Option.some_ne_none p),
      fun hc => Bool.noConfusion hc, fun _ hc => absurd hc (List.cons_ne_nil _ _)⟩
  · exact ⟨fun _ _ _ => by decide, fun _ _ hc => absurd hc (by decide),
      fun hc => absurd hc (by decide +kernel), fun _ hc => absurd hc (List.cons_ne_nil _ _)⟩
  · obtain rfl := Option.some.inj hh
    exact ⟨fun _ _ _ => by decide, fun _ _ hc => absurd hc (by decide),
      fun hc => absurd hc (by decide +kernel), fun _ hc => absurd hc (by decide +kernel)⟩
  · obtain rfl := Option.some.inj hh
    refine ⟨fun _ _ _ => by decide, fun _ _ _ p hp => ?_, fun hc => absurd hc (by decide +kernel),
      fun _ _ p hp => ?_⟩
    · cases p
      exact absurd hp (by decide +kernel)
    · cases p
      rcases hp with hp | ⟨-, hp, -⟩
      · exact absurd hp (by decide +kernel)
      · exact absurd hp (by decide +kernel)

/-- Shift is let go before backspace, which is to be put back. Overrides are
    switched off, then backspace goes up, and nothing cancels it. -/
theorem leaves_nothing_broken :
    ¬ ∀ inputs : List (OverrideInput Nat),
      Always (step (fun _ => shiftBackspace) [()]) (LeavesNothing (fun _ => shiftBackspace) [()])
        (start Unit Nat false (fun _ => false)) inputs := by
  intro h
  have hrun := (always_iff_visited _ _ _ _).mp (h
    [.tick 1000, .press (basicKey 0 kcLeftShift), .press (basicKey 1 kcBackspace), .release 0,
      .press { key := 2, keycode := keyOverrideOff, layer := 0, mods := 0, code := 0 },
      .release 2, .release 1]) _ [] (List.append_nil _).symm
  have hlater := hrun.task (by decide +kernel) [.tick 2000, .task] (by decide)
  exact absurd hlater (by decide +kernel)

end OverrideRun

end K530
