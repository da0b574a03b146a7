import Mathlib.Data.List.Flatten
import K530.Lib.Run
import K530.Split.Rgblight

/-!
# The Two Halves' Lighting

What the slave will show is its own configuration with the sync it has not looked
at yet applied to it, `ahead`. `Sound` says that it agrees with the master in every
part that is not flagged on the master. The setters keep it, because what they
change they flag, with one exception: a brightness above the limit comes down when
the configuration is written to the EEPROM, and that is flagged only together with
a change of the colour.

A sync clears the flags, so that it has to carry all there is to carry. It does not
when the slave takes the colour while it is off, or in an effect that keeps a value
of its own; or when it overwrites a sync that the slave has not looked at. What is
lost in this way is not made up for, since only a change is flagged.
`converged_along` is the run in which every sync carries and every write flags.

## Main definitions

* `SplitRgblightInput`: A call, a sync or a look at it.

## Theorems

* `converged_along`: The halves agree along a run.
* `converged_broken`: A colour that does not come across.
-/

namespace K530

open StepRun

namespace RgblightBuild

variable (b : RgblightBuild)

theorem modes_pos : 1 ≤ b.modes.toNat := by
  have hupper : b.modeEffects.length ≤ 42 :=
    (List.Sublist.flatMap List.filter_sublist _).length_le
  have hlower : RgblightEffect.staticLight ∈ b.modeEffects := by
    simp [modeEffects, RgblightEffect.all, has, RgblightEffect.count]
  have hpos := List.length_pos_of_mem hlower
  unfold modes
  simp
  omega

theorem clampMode_clampMode (mode : Byte) : b.clampMode (b.clampMode mode) = b.clampMode mode := by
  have hmodes := b.modes_pos
  unfold clampMode
  simp only [BitVec.lt_def]
  grind

end RgblightBuild

namespace RgblightCall

variable (b : RgblightBuild)

/-- The call comes to write to the EEPROM. -/
def writes (r : Rgblight) : RgblightCall → Bool
  | .enable write | .disable write | .toggle write | .setSpeed _ write | .increaseSpeed write
  | .decreaseSpeed write => write
  | .mode _ write | .step write | .stepReverse write | .sethsv _ _ _ write | .increaseHue write
  | .decreaseHue write | .increaseSat write | .decreaseSat write | .increaseVal write
  | .decreaseVal write => write && r.config.enable
  | .increase | .decrease => r.config.enable

/-- The colour the call asks for, if it is about the colour. -/
def colour (r : Rgblight) : RgblightCall → Option (Byte × Byte × Byte)
  | .sethsv hue sat val _ => some (hue, sat, val)
  | .increaseHue _ => some (r.config.hue + b.hueStep, r.config.sat, r.config.val)
  | .decreaseHue _ => some (r.config.hue - b.hueStep, r.config.sat, r.config.val)
  | .increaseSat _ => some (r.config.hue, Rgblight.qadd8 r.config.sat b.satStep, r.config.val)
  | .decreaseSat _ => some (r.config.hue, Rgblight.qsub8 r.config.sat b.satStep, r.config.val)
  | .increaseVal _ => some (r.config.hue, r.config.sat, Rgblight.qadd8 r.config.val b.valStep)
  | .decreaseVal _ => some (r.config.hue, r.config.sat, Rgblight.qsub8 r.config.val b.valStep)
  | _ => none

/-- The call asks for another colour than there is. -/
def recolours (r : Rgblight) (c : RgblightCall) : Bool :=
  (c.colour b r).any (fun hsv =>
    !Rgblight.sameHsv r.config (Rgblight.withHsv b hsv.1 hsv.2.1 hsv.2.2 r.config))

end RgblightCall

namespace Rgblight

variable (b : RgblightBuild)

/-- If the call writes the configuration to the EEPROM, then the brightness is
    within the limit, or a change of the colour is flagged, or the call is one. -/
def Flags (r : Rgblight) (c : RgblightCall) : Prop :=
  c.writes r = true → b.eepromEnable = true →
    r.config.val ≤ b.limitVal ∨ r.flags.hsvs = true ∨ c.recolours b r = true

instance (r : Rgblight) (c : RgblightCall) : Decidable (r.Flags b c) :=
  inferInstanceAs (Decidable (_ → _))

/-- From one state of a half to another: the mode stays in range, no flag is
    cleared, and what is changed is flagged. -/
structure Tracked (r r' : Rgblight) : Prop where
  valid : b.clampMode r'.config.mode = r'.config.mode
  hue : r'.config.hue = r.config.hue ∨ r'.flags.hsvs = true
  sat : r'.config.sat = r.config.sat ∨ r'.flags.hsvs = true
  val : r'.config.val = r.config.val ∨ r'.flags.hsvs = true
  shown : (r'.config.enable = r.config.enable ∧ r'.config.mode = r.config.mode) ∨
    r'.flags.mode = true
  hsvs : r.flags.hsvs = true → r'.flags.hsvs = true
  mode : r.flags.mode = true → r'.flags.mode = true

variable {b}

theorem Tracked.refl {r : Rgblight} (h : b.clampMode r.config.mode = r.config.mode) :
    r.Tracked b r := by
  constructor <;> simp [h]

theorem Tracked.trans {r r' r'' : Rgblight} (h : r.Tracked b r') (h' : r'.Tracked b r'') :
    r.Tracked b r'' := by
  constructor
  · exact h'.valid
  · have := h.hue; have := h'.hue; have := h'.hsvs; grind
  · have := h.sat; have := h'.sat; have := h'.hsvs; grind
  · have := h.val; have := h'.val; have := h'.hsvs; grind
  · have := h.shown; have := h'.shown; have := h'.mode; grind
  · exact fun hhsvs => h'.hsvs (h.hsvs hhsvs)
  · exact fun hmode => h'.mode (h.mode hmode)

variable (b) (r : Rgblight)

@[simp] theorem timerDisable_config : (timerDisable b r).config = r.config := by
  unfold timerDisable; split <;> rfl

@[simp] theorem timerDisable_hsvs : (timerDisable b r).flags.hsvs = r.flags.hsvs := by
  unfold timerDisable; split <;> rfl

@[simp] theorem timerDisable_mode : (timerDisable b r).flags.mode = r.flags.mode := by
  unfold timerDisable; split <;> rfl

@[simp] theorem timerEnable_config : (timerEnable b r).config = r.config := by
  unfold timerEnable; split <;> rfl

@[simp] theorem timerEnable_hsvs : (timerEnable b r).flags.hsvs = r.flags.hsvs := by
  unfold timerEnable; split <;> rfl

@[simp] theorem timerEnable_mode : (timerEnable b r).flags.mode = r.flags.mode := by
  unfold timerEnable; split <;> rfl

@[simp] theorem setTimer_config : (setTimer b r).config = r.config := by
  unfold setTimer; split <;> simp

@[simp] theorem setTimer_hsvs : (setTimer b r).flags.hsvs = r.flags.hsvs := by
  unfold setTimer; split <;> simp

@[simp] theorem setTimer_mode : (setTimer b r).flags.mode = r.flags.mode := by
  unfold setTimer; split <;> simp

variable (write : Bool) (r : Rgblight)

@[simp] theorem updateEeprom_flags : (updateEeprom b write r).flags = r.flags := by
  unfold updateEeprom; split <;> rfl

@[simp] theorem updateEeprom_false : updateEeprom b false r = r := by
  simp [updateEeprom]

theorem updateEeprom_config (hmode : b.clampMode r.config.mode = r.config.mode) :
    (updateEeprom b write r).config =
      { r.config with
        val := if write && b.eepromEnable && decide (b.limitVal < r.config.val) then b.limitVal
          else r.config.val } := by
  unfold updateEeprom checkConfig
  ext <;> grind

@[simp] theorem sameHsv_refl (c : RgblightConfig) : sameHsv c c := by
  simp [sameHsv]

@[simp] theorem withHsv_self (c : RgblightConfig) : withHsv b c.hue c.sat c.val c = c := by
  simp [withHsv]

@[simp] theorem refreshHsv_eq : refreshHsv b r = r := by
  unfold refreshHsv sethsv
  simp

theorem updateEeprom_tracked (hmode : b.clampMode r.config.mode = r.config.mode)
    (hval : write → b.eepromEnable →
      r.config.val ≤ b.limitVal ∨ r.flags.hsvs) : r.Tracked b (updateEeprom b write r) := by
  have hconfig := updateEeprom_config b write r hmode
  constructor
  · simp [hconfig, hmode]
  · simp [hconfig]
  · simp [hconfig]
  · simp only [hconfig, updateEeprom_flags]
    have hlt := BitVec.lt_def (x := b.limitVal) (y := r.config.val)
    have hle := BitVec.le_def (x := r.config.val) (y := b.limitVal)
    grind
  · simp [hconfig]
  · simp
  · simp

theorem flagMode_tracked (enable : Bool) (mode : Byte) (hmode : b.clampMode mode = mode) :
    r.Tracked b
      { r with
        config := { r.config with enable := enable, mode := mode }
        flags := { r.flags with mode := true } } := by
  constructor <;> simp [hmode]

theorem flagHsv_tracked (hue sat val : Byte) (hmode : b.clampMode r.config.mode = r.config.mode) :
    r.Tracked b
      { r with
        config := withHsv b hue sat val r.config
        flags :=
          { r.flags with
            hsvs := r.flags.hsvs || !sameHsv r.config (withHsv b hue sat val r.config) } } := by
  constructor
  · exact hmode
  · simp [sameHsv]; grind
  · simp [sameHsv]; grind
  · simp [sameHsv]; grind
  · exact Or.inl ⟨rfl, rfl⟩
  · intro h; simp [h]
  · exact id


theorem setTimer_tracked (hmode : b.clampMode r.config.mode = r.config.mode) :
    r.Tracked b (setTimer b r) := by
  constructor <;> simp [hmode]

theorem storeMode_tracked (mode : Byte) (write enable : Bool) (r : Rgblight)
    (h : write → b.eepromEnable →
      r.config.val ≤ b.limitVal ∨ r.flags.hsvs) :
    r.Tracked b
      (storeMode b mode write { r with config := { r.config with enable := enable } }) := by
  have hflagged := flagMode_tracked b r enable (b.clampMode mode) (b.clampMode_clampMode mode)
  have hwritten := hflagged.trans (updateEeprom_tracked b write _ hflagged.valid h)
  exact hwritten.trans (setTimer_tracked b _ hwritten.valid)

theorem mode_tracked (m : Byte) (write : Bool) (r : Rgblight)
    (hmode : b.clampMode r.config.mode = r.config.mode)
    (h : (write && r.config.enable) = true → b.eepromEnable = true →
      r.config.val ≤ b.limitVal ∨ r.flags.hsvs) :
    r.Tracked b (mode b m write r) := by
  unfold mode
  rw [refreshHsv_eq]
  split
  · rename_i henable
    exact storeMode_tracked b m write r.config.enable r
      (fun hwrite => h (by simp [hwrite, henable]))
  · exact Tracked.refl hmode

theorem enable_tracked (h : write → b.eepromEnable →
      r.config.val ≤ b.limitVal ∨ r.flags.hsvs) : r.Tracked b (enable b write r) := by
  unfold enable mode
  rw [refreshHsv_eq, if_pos rfl]
  exact storeMode_tracked b r.config.mode write true r h

theorem disable_tracked (hmode : b.clampMode r.config.mode = r.config.mode)
    (h : write → b.eepromEnable →
      r.config.val ≤ b.limitVal ∨ r.flags.hsvs) : r.Tracked b (disable b write r) := by
  have hwritten := updateEeprom_tracked b write
    { r with config := { r.config with enable := false } } hmode h
  unfold disable
  constructor
  · simpa using hwritten.valid
  · simpa using hwritten.hue
  · simpa using hwritten.sat
  · simpa using hwritten.val
  · exact Or.inr rfl
  · simp
  · simp

theorem sethsv_tracked (hue sat val : Byte) (write : Bool) (r : Rgblight)
    (hmode : b.clampMode r.config.mode = r.config.mode)
    (h : (write && r.config.enable) = true → b.eepromEnable = true →
      r.config.val ≤ b.limitVal ∨ r.flags.hsvs ∨
        (!sameHsv r.config (withHsv b hue sat val r.config)) = true) :
    r.Tracked b (sethsv b hue sat val write r) := by
  unfold sethsv
  split
  · rename_i henable
    have hflagged := flagHsv_tracked b r hue sat val hmode
    refine hflagged.trans (updateEeprom_tracked b write _ hmode (fun hwrite heeprom => ?_))
    have hcases := h (by simp [hwrite, henable]) heeprom
    cases hsame : sameHsv r.config (withHsv b hue sat val r.config) with
    | false => simp
    | true =>
      -- nothing is flagged, and the brightness is the one there was
      have hval : r.config.val = (withHsv b hue sat val r.config).val := by
        simp [sameHsv] at hsame
        exact hsame.2
      rw [hsame] at hcases
      simp only [← hval]
      simpa using hcases
  · exact Tracked.refl hmode

theorem setSpeed_tracked (speed : Byte) (write : Bool) (r : Rgblight)
    (hmode : b.clampMode r.config.mode = r.config.mode)
    (h : write → b.eepromEnable →
      r.config.val ≤ b.limitVal ∨ r.flags.hsvs) :
    r.Tracked b (setSpeed b speed write r) := by
  have hspeed : r.Tracked b { r with config := { r.config with speed := speed } } := by
    constructor <;> simp [hmode]
  exact hspeed.trans (updateEeprom_tracked b write _ hmode h)

theorem Flags.uncoloured {b : RgblightBuild} {r : Rgblight} {c : RgblightCall} (h : r.Flags b c)
    (hcolour : c.colour b r = none) (hwrites : c.writes r)
    (heeprom : b.eepromEnable) :
    r.config.val ≤ b.limitVal ∨ r.flags.hsvs := by
  have hcases := h hwrites heeprom
  simpa [RgblightCall.recolours, hcolour] using hcases

theorem call_tracked (c : RgblightCall) (hmode : b.clampMode r.config.mode = r.config.mode)
    (h : r.Flags b c) : r.Tracked b (r.call b c) := by
  cases c with
  | enable write => exact enable_tracked b write r (h.uncoloured rfl)
  | disable write => exact disable_tracked b write r hmode (h.uncoloured rfl)
  | toggle write =>
    change r.Tracked b (toggle b write r)
    unfold toggle
    split
    · exact disable_tracked b write r hmode (h.uncoloured rfl)
    · exact enable_tracked b write r (h.uncoloured rfl)
  | mode m write => exact mode_tracked b m write r hmode (h.uncoloured rfl)
  | increase => exact mode_tracked b _ true r hmode (h.uncoloured rfl)
  | decrease => exact mode_tracked b _ true r hmode (h.uncoloured rfl)
  | step write => exact mode_tracked b _ write r hmode (h.uncoloured rfl)
  | stepReverse write => exact mode_tracked b _ write r hmode (h.uncoloured rfl)
  | sethsv _ _ _ write => exact sethsv_tracked b _ _ _ write r hmode h
  | increaseHue write => exact sethsv_tracked b _ _ _ write r hmode h
  | decreaseHue write => exact sethsv_tracked b _ _ _ write r hmode h
  | increaseSat write => exact sethsv_tracked b _ _ _ write r hmode h
  | decreaseSat write => exact sethsv_tracked b _ _ _ write r hmode h
  | increaseVal write => exact sethsv_tracked b _ _ _ write r hmode h
  | decreaseVal write => exact sethsv_tracked b _ _ _ write r hmode h
  | setSpeed speed write => exact setSpeed_tracked b speed write r hmode (h.uncoloured rfl)
  | increaseSpeed write => exact setSpeed_tracked b _ write r hmode (h.uncoloured rfl)
  | decreaseSpeed write => exact setSpeed_tracked b _ write r hmode (h.uncoloured rfl)

/-- The half is on when it comes to the colour of the sync. -/
def litBy (sync r : Rgblight) : Bool :=
  if sync.flags.mode then sync.config.enable else r.config.enable

/-- The mode it has then. -/
def modeBy (sync r : Rgblight) : Byte :=
  if sync.flags.mode && sync.config.enable then sync.config.mode else r.config.mode

/-- The sync carries the configuration to a half: a value that differs is flagged,
    and the half is on when it takes it, in an effect that does not keep its own;
    the switch and the mode agree, or are flagged. -/
structure Carries (sync r : Rgblight) : Prop where
  hue : r.config.hue = sync.config.hue ∨
    sync.flags.hsvs = true ∧ litBy sync r = true ∧ keepsHue b (modeBy sync r) = false
  sat : r.config.sat = sync.config.sat ∨ sync.flags.hsvs = true ∧ litBy sync r = true
  val : r.config.val = sync.config.val ∨
    sync.flags.hsvs = true ∧ litBy sync r = true ∧ keepsVal b (modeBy sync r) = false
  shown : sync.config.enable = true → litBy sync r = true ∧ modeBy sync r = sync.config.mode

instance (sync r : Rgblight) : Decidable (Carries b sync r) :=
  decidable_of_iff
    ((r.config.hue = sync.config.hue ∨
        sync.flags.hsvs = true ∧ litBy sync r = true ∧ keepsHue b (modeBy sync r) = false) ∧
      (r.config.sat = sync.config.sat ∨ sync.flags.hsvs = true ∧ litBy sync r = true) ∧
      (r.config.val = sync.config.val ∨
        sync.flags.hsvs = true ∧ litBy sync r = true ∧ keepsVal b (modeBy sync r) = false) ∧
      (sync.config.enable = true → litBy sync r = true ∧ modeBy sync r = sync.config.mode))
    ⟨fun h => ⟨h.1, h.2.1, h.2.2.1, h.2.2.2⟩, fun h => ⟨h.hue, h.sat, h.val, h.shown⟩⟩

variable (sync r : Rgblight)

theorem updateMode_config (hmode : b.clampMode sync.config.mode = sync.config.mode) :
    (updateMode b sync false r).config =
      { r.config with enable := litBy sync r, mode := modeBy sync r } := by
  unfold updateMode litBy modeBy
  cases hflag : sync.flags.mode with
  | false => rfl
  | true =>
    cases henable : sync.config.enable with
    | false => simp [disable]
    | true => simp [mode, storeMode, hmode]

theorem updateSync_config (hmode : b.clampMode sync.config.mode = sync.config.mode) :
    (updateSync b sync false r).config =
      if sync.flags.hsvs && litBy sync r then
        withHsv b sync.config.hue sync.config.sat sync.config.val
          { r.config with enable := litBy sync r, mode := modeBy sync r }
      else { r.config with enable := litBy sync r, mode := modeBy sync r } := by
  have htimer (r : Rgblight) : (updateTimer b sync r).config = r.config := by
    unfold updateTimer
    split
    · split <;> simp
    · rfl
  have hswitched := updateMode_config b sync r hmode
  unfold updateSync updateHsv
  rw [htimer]
  cases hflag : sync.flags.hsvs with
  | false => simpa using hswitched
  | true =>
    rw [if_pos rfl]
    unfold sethsv
    rw [hswitched]
    cases hlit : litBy sync r with
    | false => simp [hswitched, hlit]
    | true => simp

theorem updateSync_agrees (hmode : b.clampMode sync.config.mode = sync.config.mode)
    (h : Carries b sync r) :
    (updateSync b sync false r).config.hue = sync.config.hue ∧
      (updateSync b sync false r).config.sat = sync.config.sat ∧
      (updateSync b sync false r).config.val = sync.config.val ∧
      (sync.config.enable →
        (updateSync b sync false r).config.enable ∧
          (updateSync b sync false r).config.mode = sync.config.mode) := by
  have hhue := h.hue
  have hsat := h.sat
  have hval := h.val
  have hshown := h.shown
  rw [updateSync_config b sync r hmode]
  unfold withHsv
  grind

theorem updateSync_unflagged (hmode : b.clampMode sync.config.mode = sync.config.mode)
    (h : sync.flags = .none) : (updateSync b sync false r).config = r.config := by
  rw [updateSync_config b sync r hmode]
  unfold litBy modeBy
  simp [h, ChangeFlags.none]

end Rgblight

/-- What can happen: a call on the master, a sync that gets through, with the clock
    before and after it, or the slave looking for one. -/
inductive SplitRgblightInput where
  | call (c : RgblightCall)
  | sync (now sent : BitVec 32)
  | handle
  deriving DecidableEq

namespace SplitRgblight

variable (b : RgblightBuild)

def step (s : SplitRgblight) : SplitRgblightInput → SplitRgblight
  | .call c => { s with master := s.master.call b c }
  | .sync now sent => (s.handlersMaster { now := now, sent := sent, delivered := true }).2
  | .handle => s.handlersSlave b

/-- Both halves with what `rgblight_init` makes of a stored configuration. -/
def start (c : RgblightConfig) (timerEnabled : Bool) (flags : ChangeFlags) : SplitRgblight :=
  init { config := Rgblight.checkConfig b c, timerEnabled := timerEnabled, flags := flags }

/-- With nothing flagged on the master, nothing to look at on the slave and the
    lighting on, the two halves are lit alike. -/
def Converged (s : SplitRgblight) : Prop :=
  s.master.flags = .none → s.datum.slave.flags = .none → s.master.config.enable = true →
    s.slave.config.enable = s.master.config.enable ∧
      s.slave.config.mode = s.master.config.mode ∧
      s.slave.config.hue = s.master.config.hue ∧
      s.slave.config.sat = s.master.config.sat ∧
      s.slave.config.val = s.master.config.val

instance (s : SplitRgblight) : Decidable s.Converged :=
  inferInstanceAs (Decidable (_ → _))

/-- The master sends when it is called. -/
def sends (now sent : BitVec 32) (s : SplitRgblight) : Bool :=
  s.datum.due { now := now, sent := sent, delivered := true } || decide (s.master.flags ≠ .none)

/-- The condition on an input: a call flags what it changes, and a sync that is sent
    carries what there is to carry. -/
def Carried (s : SplitRgblight) : SplitRgblightInput → Prop
  | .call c => s.master.Flags b c
  | .sync now sent => s.sends now sent = true → s.master.Carries b s.slave
  | .handle => True

instance (s : SplitRgblight) : (i : SplitRgblightInput) → Decidable (s.Carried b i)
  | .call _ => inferInstanceAs (Decidable (Rgblight.Flags _ _ _))
  | .sync _ _ => inferInstanceAs (Decidable (_ → _))
  | .handle => inferInstanceAs (Decidable True)

def ahead (s : SplitRgblight) : Rgblight :=
  if s.datum.slave.flags ≠ .none then Rgblight.updateSync b s.datum.slave false s.slave
  else s.slave

structure Sound (s : SplitRgblight) : Prop where
  valid : b.clampMode s.master.config.mode = s.master.config.mode
  hue : (s.ahead b).config.hue = s.master.config.hue ∨ s.master.flags.hsvs = true
  sat : (s.ahead b).config.sat = s.master.config.sat ∨ s.master.flags.hsvs = true
  val : (s.ahead b).config.val = s.master.config.val ∨ s.master.flags.hsvs = true
  shown : s.master.config.enable = true →
    ((s.ahead b).config.enable = true ∧ (s.ahead b).config.mode = s.master.config.mode) ∨
      s.master.flags.mode = true

theorem start_sound (c : RgblightConfig) (timerEnabled : Bool) (flags : ChangeFlags) :
    (start b c timerEnabled flags).Sound b := by
  have hahead : (start b c timerEnabled flags).ahead b =
      (start b c timerEnabled flags).master := rfl
  constructor
  · exact b.clampMode_clampMode c.mode
  · simp [hahead]
  · simp [hahead]
  · simp [hahead]
  · intro henable
    simp [hahead, henable]

variable (s : SplitRgblight)

theorem call_sound (c : RgblightCall) (hs : s.Sound b) (h : s.master.Flags b c) :
    Sound b { s with master := s.master.call b c } := by
  have htracked := Rgblight.call_tracked b s.master c hs.valid h
  have hahead : ahead b { s with master := s.master.call b c } = s.ahead b := rfl
  constructor
  · exact htracked.valid
  · have := hs.hue; have := htracked.hue; have := htracked.hsvs; grind
  · have := hs.sat; have := htracked.sat; have := htracked.hsvs; grind
  · have := hs.val; have := htracked.val; have := htracked.hsvs; grind
  · have := hs.shown; have := htracked.shown; have := htracked.mode; grind

theorem handlersSlave_ahead : (s.handlersSlave b).ahead b = s.ahead b := by
  unfold handlersSlave ahead
  by_cases hflags : s.datum.slave.flags ≠ .none
  · rw [if_pos hflags, if_pos hflags]
    rfl
  · rw [if_neg hflags, if_neg hflags]

theorem handlersSlave_master : (s.handlersSlave b).master = s.master := by
  unfold handlersSlave
  split <;> rfl

theorem handlersSlave_sound (hs : s.Sound b) : (s.handlersSlave b).Sound b := by
  have hahead := handlersSlave_ahead b s
  have hmaster := handlersSlave_master b s
  constructor
  · rw [hmaster]; exact hs.valid
  · rw [hahead, hmaster]; exact hs.hue
  · rw [hahead, hmaster]; exact hs.sat
  · rw [hahead, hmaster]; exact hs.val
  · rw [hahead, hmaster]; exact hs.shown

theorem handlersMaster_cases (now sent : BitVec 32) (s : SplitRgblight) :
    let s' := (s.handlersMaster { now := now, sent := sent, delivered := true }).2
    s'.master = s.master.clearChangeFlags ∧ s'.slave = s.slave ∧
      (s.sends now sent ∧ s'.datum.slave = s.master ∨
        s.sends now sent = false ∧ s.master.flags = .none ∧ s'.datum.slave = s.datum.slave) := by
  have hdue : s.syncinfo.due { now := now, sent := sent, delivered := true } =
      s.datum.due { now := now, sent := sent, delivered := true } := rfl
  unfold handlersMaster SplitDatum.sendIfCondition
  rw [hdue]
  cases hsends : s.sends now sent with
  | true =>
    unfold sends at hsends
    rw [hsends]
    simp [SplitDatum.transportWrite, syncinfo]
  | false =>
    unfold sends at hsends
    rw [hsends]
    simp at hsends
    simp [syncinfo, hsends.2]

theorem handlersMaster_sound (now sent : BitVec 32) (s : SplitRgblight) (hs : s.Sound b)
    (h : s.sends now sent → s.master.Carries b s.slave) :
    (s.handlersMaster { now := now, sent := sent, delivered := true }).2.Sound b := by
  rcases handlersMaster_cases now sent s with ⟨hmaster, hslave, hsent⟩
  generalize (s.handlersMaster { now := now, sent := sent, delivered := true }).2 = s'
    at hmaster hslave hsent
  rcases hsent with ⟨hsends, hdatum⟩ | ⟨-, hflags, hdatum⟩
  · have hagrees := Rgblight.updateSync_agrees b s.master s.slave hs.valid (h hsends)
    have hahead : (s'.ahead b).config = (Rgblight.updateSync b s.master false s.slave).config := by
      unfold ahead
      rw [hdatum, hslave]
      by_cases hflags : s.master.flags = .none
      · rw [if_neg (by simp [hflags])]
        exact (Rgblight.updateSync_unflagged b s.master s.slave hs.valid hflags).symm
      · rw [if_pos hflags]
    rw [← hahead] at hagrees
    constructor
    · rw [hmaster]; exact hs.valid
    · rw [hmaster]; exact Or.inl hagrees.1
    · rw [hmaster]; exact Or.inl hagrees.2.1
    · rw [hmaster]; exact Or.inl hagrees.2.2.1
    · rw [hmaster]; exact fun henable => Or.inl (hagrees.2.2.2 henable)
  · -- nothing was flagged, and nothing is sent
    have hsame : s.master.clearChangeFlags = s.master := by
      unfold Rgblight.clearChangeFlags
      rw [← hflags]
    have hahead : s'.ahead b = s.ahead b := by
      unfold ahead
      rw [hdatum, hslave]
    rw [hsame] at hmaster
    constructor
    · rw [hmaster]; exact hs.valid
    · rw [hahead, hmaster]; exact hs.hue
    · rw [hahead, hmaster]; exact hs.sat
    · rw [hahead, hmaster]; exact hs.val
    · rw [hahead, hmaster]; exact hs.shown

theorem step_sound (i : SplitRgblightInput) (hs : s.Sound b) (h : s.Carried b i) :
    (s.step b i).Sound b := by
  cases i with
  | call c => exact call_sound b s c hs h
  | sync now sent => exact handlersMaster_sound b now sent s hs h
  | handle => exact handlersSlave_sound b s hs

theorem Sound.converged {s : SplitRgblight} (hs : s.Sound b) : s.Converged := by
  intro hflags hhandled henable
  have hahead : s.ahead b = s.slave := by
    unfold ahead
    rw [if_neg (by simp [hhandled])]
  have hhsvs : s.master.flags.hsvs = false := by rw [hflags]; rfl
  have hmode : s.master.flags.mode = false := by rw [hflags]; rfl
  have hshown := hs.shown henable
  have hhue := hs.hue
  have hsat := hs.sat
  have hval := hs.val
  rw [hahead] at hshown hhue hsat hval
  simp [hhsvs, hmode] at hshown hhue hsat hval
  exact ⟨hshown.1.trans henable.symm, hshown.2, hhue, hsat, hval⟩

/-- From halves that start alike, every state of a run is converged if every write to
    the EEPROM flags what it changes and every sync that is sent carries what there is
    to carry. -/
theorem converged_along (c : RgblightConfig) (timerEnabled : Bool) (flags : ChangeFlags)
    (inputs : List SplitRgblightInput)
    (h : Along (step b) (Carried b) (start b c timerEnabled flags) inputs) :
    Always (step b) Converged (start b c timerEnabled flags) inputs :=
  always_of_along (step b) (Carried b) (Sound b) Converged (fun _ hs => hs.converged b)
    (fun s i hs hC => step_sound b s i hs hC) inputs _ (start_sound b c timerEnabled flags) h

/-- A build with all effects. -/
def allEffects : RgblightBuild :=
  { effects := fun _ => true, limitVal := 255, hueStep := 8, satStep := 17, valStep := 17,
    eepromEnable := true }

/-- A red static light, switched on. -/
def red : RgblightConfig :=
  { enable := true, mode := 1, hue := 0, sat := 255, val := 255, speed := 0 }

/-- Two changes, each of which comes across. -/
theorem converged_along_changes :
    Always (step allEffects) Converged (start allEffects red false .none)
      [.call (.sethsv 85 255 255 true), .sync 1 1, .handle, .call (.mode 6 true), .sync 2 2,
        .handle] :=
  converged_along allEffects red false .none _ (by decide +kernel)

/-- A colour set right before the light goes off arrives at a slave that is off. The
    master is green when it goes on again, and the slave is red. -/
theorem converged_broken :
    ¬ ∀ (b : RgblightBuild) (c : RgblightConfig) (timerEnabled : Bool) (flags : ChangeFlags)
        (inputs : List SplitRgblightInput),
      Always (step b) Converged (start b c timerEnabled flags) inputs := by
  intro h
  have hrun := h allEffects red false .none
    [.call (.sethsv 85 255 255 true), .call (.disable true), .sync 1 1, .handle,
      .call (.enable true), .sync 2 2, .handle]
  have hlast := (always_iff_visited _ _ _ _).mp hrun _ [] (List.append_nil _).symm
  exact absurd hlast (by decide +kernel)

end SplitRgblight

end K530
