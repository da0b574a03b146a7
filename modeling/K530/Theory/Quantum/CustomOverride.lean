import K530.Quantum.CustomOverride
import K530.Theory.Quantum.KeyOverride

/-!
# Deactivating an Override

Whatever activating an override has registered should be unregistered when it is deactivated,
and nothing else. Both functions find out anew which key that is. `clear_active_override` does
it in eight bits, so that a custom keycode, which is never registered, looks like the basic
keycode in its low byte. And it does not know what its custom action had said, nor whether a
replacement that was put off has been registered since.

So the key that is unregistered is the one that was registered exactly when the two agree on
whether there was one, or there is none in the low byte.

## Main definitions

* `CustomState.Undoes`: The active override can be deactivated.

## Theorems

* `CustomRun.deactivation_undoes_iff`: The runs in which every override is undone.
* `CustomRun.deactivation_undoes_broken`: One in which a custom keycode is unregistered.
-/

namespace K530

open StepRun

universe v w

namespace CustomState

variable {P : Type v} {W : Type w} (deref : P → KeyOverride)
  (actions : P → Option (CustomAction W)) {s : CustomState P W}

/-! ### An event that gets as far as the overrides -/

theorem processKeyOverride_of_looks [DecidableEq P] (overrides : List P) (flags : Nat → Bool)
    (now : BitVec 32) (keycode : Keycode) (layer : Nat) (keyDown : Bool) (s : CustomState P W)
    (h : s.state.looks keycode keyDown) :
    s.processKeyOverride deref actions overrides flags now keycode layer keyDown =
      match s.state.chosen deref overrides flags now keycode layer keyDown with
      | some p =>
        let held := (deref p).trigger == keycode && keyDown
        let t := (s.onState (.noteKey now keycode keyDown)).activate deref actions now keycode
          keyDown p
        some (!held, if held then t.onState (.onUsb OverrideUsb.sendKeyboardReport) else t)
      | none =>
        if (isModCode keycode || keyDown) = true ∧ ¬ overrides.length < 256 then none
        else
          some (true, (s.onState (.noteKey now keycode keyDown)).endOverride deref actions now
            keycode keyDown (s.state.effectiveMods keycode keyDown)) := by
  obtain ⟨henabled, htoggle, hon, hoff⟩ := (OverrideState.looks_eq_true keycode keyDown _).mp h
  unfold processKeyOverride OverrideState.chosen
  rw [if_neg htoggle, if_neg hon, if_neg hoff, if_pos henabled]
  dsimp only
  by_cases hevent : (isModCode keycode || keyDown) = true
  · simp only [hevent, if_true, true_and]
    rw [show (s.onState (.noteKey now keycode keyDown)).state =
      s.state.noteKey now keycode keyDown from rfl]
    cases (s.state.noteKey now keycode keyDown).activated deref overrides flags keycode layer
        keyDown (s.state.effectiveMods keycode keyDown) with
    | some p => rfl
    | none =>
      dsimp only
      rw [ite_not]
  · simp only [hevent, Bool.false_eq_true, if_false, false_and]

/-! ### Without custom actions -/

section Plain

variable {actions} (hplain : ∀ p, actions p = none)

include hplain

theorem clearActiveOverride_plain (now : BitVec 32) (allowReregister : Bool)
    (s : CustomState P W) :
    (s.clearActiveOverride deref actions now allowReregister).state =
      s.state.clearActiveOverride deref now allowReregister := by
  unfold clearActiveOverride OverrideState.clearActiveOverride
  cases hactive : s.state.activeOverride with
  | none => rfl
  | some p =>
    dsimp only
    rw [hplain p]
    unfold act onState OverrideState.onUsb
    dsimp only
    rw [if_pos rfl, hactive]

theorem activate_plain (now : BitVec 32) (keycode : Keycode) (keyDown : Bool) (p : P)
    (s : CustomState P W) :
    (s.activate deref actions now keycode keyDown p).state =
      s.state.activate deref now keycode keyDown p := by
  have htake : (s.takeOver deref actions now keycode keyDown p).state =
      s.state.takeOver deref now keycode keyDown p := by
    unfold takeOver OverrideState.takeOver onState
    dsimp only
    rw [clearActiveOverride_plain deref hplain]
  unfold activate OverrideState.activate
  dsimp only
  rw [hplain p, ← htake]
  unfold act
  dsimp only
  rw [Bool.and_true]
  cases (deref p).registersReplacement with
  | false => rfl
  | true => cases isModCode keycode with
    | false => rfl
    | true => rfl

theorem endOverride_plain (now : BitVec 32) (keycode : Keycode) (keyDown : Bool) (mods : Byte)
    (s : CustomState P W) :
    (s.endOverride deref actions now keycode keyDown mods).state =
      s.state.endOverride deref now keycode keyDown mods := by
  unfold endOverride OverrideState.endOverride
  cases hactive : s.state.activeOverride with
  | none => rfl
  | some p =>
    dsimp only
    split_ifs
    · rfl
    · exact clearActiveOverride_plain deref hplain now true s
    · exact clearActiveOverride_plain deref hplain now false _
    · exact clearActiveOverride_plain deref hplain now false s
    · rfl

theorem processKeyOverride_plain [DecidableEq P] (overrides : List P) (flags : Nat → Bool)
    (now : BitVec 32) (keycode : Keycode) (layer : Nat) (keyDown : Bool) (s : CustomState P W) :
    (s.processKeyOverride deref actions overrides flags now keycode layer keyDown).map
        (fun r => (r.1, r.2.state)) =
      s.state.processKeyOverride deref overrides flags now keycode layer keyDown := by
  cases hlooks : s.state.looks keycode keyDown with
  | true =>
    rw [processKeyOverride_of_looks deref actions overrides flags now keycode layer keyDown s
      hlooks, OverrideState.processKeyOverride_of_looks deref overrides flags now keycode layer
      keyDown s.state hlooks]
    cases s.state.chosen deref overrides flags now keycode layer keyDown with
    | some p =>
      dsimp only
      have hactivate := activate_plain deref hplain now keycode keyDown p
        (s.onState (.noteKey now keycode keyDown))
      rw [Option.map_some, ← show _ = (s.state.noteKey now keycode keyDown).activate deref now
        keycode keyDown p from hactivate]
      split
      · rfl
      · rfl
    | none =>
      have hend := endOverride_plain deref hplain now keycode keyDown
        (s.state.effectiveMods keycode keyDown) (s.onState (.noteKey now keycode keyDown))
      dsimp only
      split
      · rfl
      · rw [Option.map_some, hend]
        rfl
  | false =>
    have hoff : (s.off deref actions now).state = s.state.off deref now :=
      clearActiveOverride_plain deref hplain now false _
    unfold processKeyOverride OverrideState.processKeyOverride
    by_cases htoggle : (keyDown && keycode == keyOverrideToggle) = true
    · rw [if_pos htoggle, if_pos htoggle, Option.map_some]
      unfold toggle OverrideState.toggle
      split
      · rw [hoff]
      · rfl
    by_cases hon : (keyDown && keycode == keyOverrideOn) = true
    · rw [if_neg htoggle, if_neg htoggle, if_pos hon, if_pos hon]
      rfl
    by_cases hoffKey : (keyDown && keycode == keyOverrideOff) = true
    · rw [if_neg htoggle, if_neg htoggle, if_neg hon, if_neg hon, if_pos hoffKey,
        if_pos hoffKey, Option.map_some, hoff]
    · -- no switch, so overrides are off
      have henabled : ¬ s.state.enabled = true := fun hc => Bool.false_ne_true (hlooks.symm.trans
        ((OverrideState.looks_eq_true keycode keyDown s.state).mpr ⟨hc, htoggle, hon, hoffKey⟩))
      rw [if_neg htoggle, if_neg htoggle, if_neg hon, if_neg hon, if_neg hoffKey,
        if_neg hoffKey, if_neg henabled, if_neg henabled]
      rfl

end Plain

/-! ### Deactivating -/

/-- What the custom action says when the override is deactivated. The registers of the
    overrides have been cleared by then. -/
def answers (p : P) (s : CustomState P W) : Bool :=
  match actions p with
  | none => true
  | some f =>
    (f false ({ s.state.usb with suppressedMods := 0, weakOverrideMods := 0 }, s.memory)).1

def endsAs (p : P) (s : CustomState P W) : P × Option Byte × Option Byte :=
  (p, s.registered,
    if (deref p).unregistersReplacement && s.answers actions p then
      keyOf (lowByte (deref p).modFreeReplacement)
    else none)

/-- The active override can be deactivated: there is no key in the low byte of its replacement,
    or its custom action agrees exactly when the replacement has been registered. That takes
    that it is no custom keycode, that its custom action agreed then, and that it was not put
    off, or has been registered since. -/
def Undoes (p : P) (s : CustomState P W) : Prop :=
  lowByte (deref p).modFreeReplacement = 0 ∨
    ((deref p).modFreeReplacement < safeRange ∧ s.agreed = true ∧ s.waiting = false ↔
      s.answers actions p = true)

structure Tracked (s : CustomState P W) : Prop where
  registered : ∀ p ∈ s.state.activeOverride, s.registered =
    if (deref p).modFreeReplacement < safeRange ∧ s.agreed = true ∧ s.waiting = false then
      keyOf (lowByte (deref p).modFreeReplacement)
    else none
  deferred : ∀ p ∈ s.state.activeOverride, s.waiting = true →
    (deref p).modFreeReplacement < safeRange ∧ s.agreed = true ∧
      (s.state.deferredRegister = 0 ∨
        s.state.deferredRegister = (deref p).modFreeReplacement)

/-- An override that has been deactivated has unregistered what it had registered, which is
    nothing if it is a custom keycode. -/
def Balanced (e : P × Option Byte × Option Byte) : Prop :=
  e.2.1 = e.2.2 ∧ (safeRange ≤ (deref e.1).replacement → e.2.1 = none)

variable {deref} {actions}

theorem custom_not_safe (p : P) (hcustom : safeRange ≤ (deref p).replacement) :
    ¬ (deref p).modFreeReplacement < safeRange := by
  unfold KeyOverride.modFreeReplacement clearModsFrom
  rw [if_neg]
  · exact BitVec.not_lt.mpr hcustom
  · intro hmods
    have hlow := BitVec.le_trans hcustom hmods.2
    exact absurd hlow (by decide)

theorem unregistersReplacement_eq (o : KeyOverride) :
    o.unregistersReplacement = (lowByte o.modFreeReplacement != 0) := by
  unfold KeyOverride.unregistersReplacement
  have hsafe : (lowByte o.modFreeReplacement).setWidth 16 < safeRange := by
    have hlt := (lowByte o.modFreeReplacement).isLt
    rw [BitVec.lt_def, BitVec.toNat_setWidth, show safeRange.toNat = 0x5DA6 from rfl]
    omega
  rw [decide_eq_true hsafe, Bool.and_true]

theorem Tracked.balanced_iff (h : s.Tracked deref) (p : P) (hactive : p ∈ s.state.activeOverride) :
    Balanced deref (s.endsAs deref actions p) ↔ s.Undoes deref actions p := by
  -- The part about custom keycodes follows from what is known, so the first part decides.
  have hcustom : safeRange ≤ (deref p).replacement → s.registered = none := by
    intro hc
    rw [h.registered p hactive, if_neg (fun hsafe => custom_not_safe p hc hsafe.1)]
  unfold Balanced endsAs Undoes
  rw [and_iff_left hcustom]
  dsimp only
  rw [h.registered p hactive, unregistersReplacement_eq]
  unfold keyOf
  by_cases hzero : lowByte (deref p).modFreeReplacement = 0
  · rw [if_pos hzero, ite_self, ite_self]
    exact ⟨fun _ => Or.inl hzero, fun _ => rfl⟩
  · -- There is a key, so the two are equal when both are there or neither is.
    rw [if_neg hzero, or_iff_right hzero, bne_iff_ne.mpr hzero, Bool.true_and]
    by_cases hsafe : (deref p).modFreeReplacement < safeRange ∧ s.agreed ∧ s.waiting = false
    · rw [if_pos hsafe]
      cases s.answers actions p with
      | false => simp [hsafe]
      | true => simp [hsafe]
    · rw [if_neg hsafe]
      cases s.answers actions p with
      | false => simp [hsafe]
      | true => simp [hsafe]

structure Keeps (s s' : CustomState P W) : Prop where
  active : s'.state.activeOverride = s.state.activeOverride
  deferred : s'.state.deferredRegister = s.state.deferredRegister
  agreed : s'.agreed = s.agreed
  waiting : s'.waiting = s.waiting
  registered : s'.registered = s.registered
  ended : s'.ended = s.ended

theorem act_keeps (action : Option (CustomAction W)) (activated : Bool) (s : CustomState P W) :
    s.Keeps (s.act action activated).2 := by
  unfold act
  cases action with
  | none => exact ⟨rfl, rfl, rfl, rfl, rfl, rfl⟩
  | some f => exact ⟨rfl, rfl, rfl, rfl, rfl, rfl⟩

theorem clearActiveOverride_ended (now : BitVec 32) (allowReregister : Bool) (p : P)
    (hactive : p ∈ s.state.activeOverride) :
    (s.clearActiveOverride deref actions now allowReregister).state.activeOverride = none ∧
      (s.clearActiveOverride deref actions now allowReregister).ended =
        s.ended ++ [s.endsAs deref actions p] := by
  unfold clearActiveOverride
  rw [show s.state.activeOverride = some p from hactive]
  dsimp only
  -- The custom action is asked in the state in which the registers have been cleared.
  obtain ⟨cleared, hcleared⟩ : ∃ cleared, cleared = s.onState (fun t =>
      { t with
        deferredRegister := 0,
        usb := { t.usb with suppressedMods := 0, weakOverrideMods := 0 } }) := ⟨_, rfl⟩
  have hanswer : (cleared.act (actions p) false).1 = s.answers actions p := by
    rw [hcleared]
    unfold act answers
    cases actions p with
    | none => rfl
    | some f => rfl
  have hkeeps := act_keeps (actions p) false cleared
  have hsame : s.registered = cleared.registered ∧ s.ended = cleared.ended := by
    rw [hcleared]
    exact ⟨rfl, rfl⟩
  rw [← hcleared]
  unfold endsAs
  rw [← hanswer, hsame.1, hsame.2, ← hkeeps.registered, ← hkeeps.ended]
  refine ⟨rfl, ?_⟩
  unfold onState
  dsimp only
  split
  · rfl
  · rfl

theorem clearActiveOverride_none (now : BitVec 32) (allowReregister : Bool)
    (hactive : s.state.activeOverride = none) :
    s.clearActiveOverride deref actions now allowReregister = s := by
  unfold clearActiveOverride
  rw [hactive]

theorem tracked_of_none (h : s.state.activeOverride = none) : s.Tracked deref where
  registered := by
    rw [h]
    exact fun _ hp => absurd hp.symm (Option.some_ne_none _)
  deferred := by
    rw [h]
    exact fun _ hp => absurd hp.symm (Option.some_ne_none _)

/-! ### Activating -/

theorem takeOver_active (now : BitVec 32) (keycode : Keycode) (keyDown : Bool) (p : P) :
    (s.takeOver deref actions now keycode keyDown p).state.activeOverride = some p ∧
      (s.takeOver deref actions now keycode keyDown p).ended =
        (s.clearActiveOverride deref actions now false).ended := by
  unfold takeOver onState
  dsimp only
  refine ⟨?_, rfl⟩
  split
  · rfl
  · rfl

theorem activate_tracked (now : BitVec 32) (keycode : Keycode) (keyDown : Bool) (p : P) :
    (s.activate deref actions now keycode keyDown p).Tracked deref ∧
      (s.activate deref actions now keycode keyDown p).ended =
        (s.clearActiveOverride deref actions now false).ended := by
  obtain ⟨hactive, hended⟩ := @takeOver_active P W deref actions s now keycode keyDown p
  unfold activate
  dsimp only
  -- What the custom action does to the USB side and the memory does not matter here.
  generalize s.takeOver deref actions now keycode keyDown p = taken at hactive hended ⊢
  have hkeeps := act_keeps (actions p) true taken
  rw [← hended, ← hkeeps.ended]
  rw [← hkeeps.active] at hactive
  generalize taken.act (actions p) true = acted at hactive ⊢
  obtain ⟨answer, s'⟩ := acted
  dsimp only at hactive ⊢
  -- Nothing is registered for a custom keycode, or if the custom action does not agree.
  by_cases hregisters : ((deref p).registersReplacement && answer) = true
  · rw [if_pos hregisters]
    rw [Bool.and_eq_true] at hregisters
    have hsafe : (deref p).modFreeReplacement < safeRange := by
      have hboth := hregisters.1
      unfold KeyOverride.registersReplacement at hboth
      rw [Bool.and_eq_true, decide_eq_true_iff] at hboth
      exact hboth.2
    by_cases hmod : isModCode keycode
    · -- It is put off.
      rw [if_pos hmod]
      refine ⟨⟨fun q hq => ?_, fun q hq _ => ?_⟩, rfl⟩
      · rw [if_neg (fun hc => Bool.false_ne_true hc.2.2.symm)]
        rfl
      · have hqp : p = q := by
          unfold onState OverrideState.onUsb at hq
          dsimp only at hq
          rw [OverrideState.schedule_activeOverride] at hq
          exact Option.some.inj (hactive.symm.trans hq)
        subst hqp
        refine ⟨hsafe, hregisters.2, Or.inr ?_⟩
        exact OverrideState.schedule_deferredRegister now _ _
    · rw [if_neg hmod]
      refine ⟨⟨fun q hq => ?_, fun q hq hc => absurd hc Bool.false_ne_true⟩, rfl⟩
      obtain rfl : p = q := Option.some.inj (hactive.symm.trans hq)
      rw [if_pos ⟨hsafe, hregisters.2, rfl⟩]
  · -- Nothing is registered. If the replacement could be, there is no key in it.
    rw [if_neg hregisters]
    refine ⟨⟨fun q hq => ?_, fun q hq hc => absurd hc Bool.false_ne_true⟩, rfl⟩
    obtain rfl : p = q := Option.some.inj (hactive.symm.trans hq)
    rw [Bool.and_eq_true, not_and] at hregisters
    by_cases hsafe : (deref p).modFreeReplacement < safeRange ∧ answer
    · have hzero : (deref p).modFreeReplacement = 0 := by
        by_contra hne
        refine hregisters ?_ hsafe.2
        unfold KeyOverride.registersReplacement
        rw [Bool.and_eq_true, bne_iff_ne, decide_eq_true_iff]
        exact ⟨hne, hsafe.1⟩
      rw [hzero]
      exact (ite_self none).symm
    · rw [if_neg (fun hc => hsafe ⟨hc.1, hc.2.1⟩)]
      rfl

/-! ### An event -/

theorem Tracked.congr (h : s.Tracked deref) {s' : CustomState P W} (hkeeps : s.Keeps s') :
    s'.Tracked deref where
  registered := by
    rw [hkeeps.active, hkeeps.registered, hkeeps.agreed, hkeeps.waiting]
    exact h.registered
  deferred := by
    rw [hkeeps.active, hkeeps.agreed, hkeeps.waiting, hkeeps.deferred]
    exact h.deferred

theorem Tracked.noteKey (h : s.Tracked deref) (now : BitVec 32) (keycode : Keycode)
    (keyDown : Bool) : (s.onState (.noteKey now keycode keyDown)).Tracked deref := by
  -- A key that is put off is left, or is given up for another key.
  have hdeferred : (s.state.noteKey now keycode keyDown).deferredRegister = 0 ∨
      (s.state.noteKey now keycode keyDown).deferredRegister = s.state.deferredRegister := by
    unfold OverrideState.noteKey
    split_ifs
    · exact Or.inr rfl
    · exact Or.inl rfl
    · exact Or.inl rfl
    · exact Or.inr rfl
  unfold onState
  refine ⟨?_, ?_⟩
  · dsimp only
    rw [OverrideState.noteKey_activeOverride]
    exact h.registered
  · dsimp only
    rw [OverrideState.noteKey_activeOverride]
    intro p hp hwaiting
    obtain ⟨hsafe, hagreed, hbefore⟩ := h.deferred p hp hwaiting
    refine ⟨hsafe, hagreed, ?_⟩
    rcases hdeferred with hzero | hsame
    · exact Or.inl hzero
    · rw [hsame]
      exact hbefore

end CustomState

namespace OverrideState

variable {P : Type v} (deref : P → KeyOverride) [DecidableEq P] (overrides : List P)
  (flags : Nat → Bool) (now : BitVec 32) (keycode : Keycode) (layer : Nat) (keyDown : Bool)

/-- An event that activates no other override ends an override. -/
def endsOverride (mods : Byte) (p : P) : Bool :=
  if isModCode keycode then !(deref p).matchesActiveModifiers mods
  else
    (keycode == (deref p).trigger && !keyDown) ||
      (keyDown && (deref p).options &&& KeyOverride.noUnregisterOnOtherKeyDown == 0)

/-- The override an event deactivates. -/
def deactivates (s : OverrideState P) : Option P :=
  if keyDown && keycode == keyOverrideToggle then if s.enabled then s.activeOverride else none
  else if keyDown && keycode == keyOverrideOn then none
  else if keyDown && keycode == keyOverrideOff then s.activeOverride
  else if s.enabled then
    match s.chosen deref overrides flags now keycode layer keyDown with
    | some _ => s.activeOverride
    | none =>
      -- the loop over the overrides does not end, or the event may end the active one
      if (isModCode keycode || keyDown) && !(overrides.length < 256) then none
      else
        s.activeOverride.filter
          (endsOverride deref keycode keyDown (s.effectiveMods keycode keyDown))
  else none

theorem deactivates_of_looks (s : OverrideState P) (h : s.looks keycode keyDown) :
    s.deactivates deref overrides flags now keycode layer keyDown =
      match s.chosen deref overrides flags now keycode layer keyDown with
      | some _ => s.activeOverride
      | none =>
        if (isModCode keycode || keyDown) = true ∧ ¬ overrides.length < 256 then none
        else
          s.activeOverride.filter
            (endsOverride deref keycode keyDown (s.effectiveMods keycode keyDown)) := by
  obtain ⟨henabled, htoggle, hon, hoff⟩ := (looks_eq_true keycode keyDown s).mp h
  unfold deactivates
  rw [if_neg htoggle, if_neg hon, if_neg hoff, if_pos henabled]
  simp only [Bool.and_eq_true, Bool.not_eq_true', decide_eq_false_iff_not]

end OverrideState

namespace CustomState

variable {P : Type v} {W : Type w} {deref : P → KeyOverride}
  {actions : P → Option (CustomAction W)} {s : CustomState P W}

theorem clearActiveOverride_cases (now : BitVec 32) (allowReregister : Bool)
    (h : s.Tracked deref) :
    (s.clearActiveOverride deref actions now allowReregister).Tracked deref ∧
      (s.clearActiveOverride deref actions now allowReregister).ended =
        s.ended ++ (s.state.activeOverride.map (s.endsAs deref actions)).toList := by
  cases hactive : s.state.activeOverride with
  | none =>
    rw [clearActiveOverride_none now allowReregister hactive]
    exact ⟨h, (List.append_nil _).symm⟩
  | some p =>
    have hnone := (@clearActiveOverride_ended P W deref actions s now allowReregister p hactive).1
    exact ⟨tracked_of_none hnone, (clearActiveOverride_ended now allowReregister p hactive).2⟩

theorem endOverride_cases (now : BitVec 32) (keycode : Keycode) (keyDown : Bool) (mods : Byte)
    (h : s.Tracked deref) :
    (s.endOverride deref actions now keycode keyDown mods).Tracked deref ∧
      (s.endOverride deref actions now keycode keyDown mods).ended =
        s.ended ++ ((s.state.activeOverride.filter
          (OverrideState.endsOverride deref keycode keyDown mods)).map
            (s.endsAs deref actions)).toList := by
  unfold endOverride
  cases hactive : s.state.activeOverride with
  | none => exact ⟨h, (List.append_nil _).symm⟩
  | some p =>
    dsimp only
    -- Whichever of its branches deactivates the override, it is the same to this account.
    have hclear := fun allow => @clearActiveOverride_cases P W deref actions s now allow h
    have hlift := @clearActiveOverride_cases P W deref actions (s.onState .liftTrigger) now false
      (h.congr ⟨rfl, rfl, rfl, rfl, rfl, rfl⟩)
    rw [hactive] at hclear
    rw [show (s.onState .liftTrigger).state.activeOverride = some p from hactive] at hlift
    rw [Option.filter_some]
    unfold OverrideState.endsOverride
    by_cases hmod : isModCode keycode
    · rw [if_pos hmod, if_pos hmod]
      cases (deref p).matchesActiveModifiers mods with
      | true => exact ⟨h, (List.append_nil _).symm⟩
      | false => exact hclear true
    rw [if_neg hmod, if_neg hmod]
    by_cases hlifted : (keycode == (deref p).trigger && !keyDown) = true
    · rw [if_pos hlifted, hlifted]
      exact hlift
    rw [if_neg hlifted, eq_false_of_ne_true hlifted, Bool.false_or]
    by_cases hother : (keyDown &&
        (deref p).options &&& KeyOverride.noUnregisterOnOtherKeyDown == 0) = true
    · rw [if_pos hother, if_pos hother]
      exact hclear false
    · rw [if_neg hother, if_neg hother]
      exact ⟨h, (List.append_nil _).symm⟩

section Event

variable (actions) [DecidableEq P] (overrides : List P) (flags : Nat → Bool) (now : BitVec 32)
  (keycode : Keycode) (layer : Nat) (keyDown : Bool)

theorem Tracked.event_looks (h : s.Tracked deref)
    (hlooks : s.state.looks keycode keyDown) :
    match s.processKeyOverride deref actions overrides flags now keycode layer keyDown with
    | none => s.state.deactivates deref overrides flags now keycode layer keyDown = none
    | some (_, s') => s'.Tracked deref ∧
        s'.ended = s.ended ++ ((s.state.deactivates deref overrides flags now keycode layer
          keyDown).map (s.endsAs deref actions)).toList := by
  have hnoted := h.noteKey now keycode keyDown
  have hsame : (s.onState (.noteKey now keycode keyDown)).state.activeOverride =
      s.state.activeOverride := OverrideState.noteKey_activeOverride now s.state
  -- Noting the key changes nothing that deactivating reads.
  have hends : (s.onState (.noteKey now keycode keyDown)).endsAs deref actions =
      s.endsAs deref actions := by
    funext p
    unfold endsAs answers onState
    dsimp only
    rw [OverrideState.noteKey_usb]
  rw [processKeyOverride_of_looks deref actions overrides flags now keycode layer keyDown s hlooks,
    OverrideState.deactivates_of_looks deref overrides flags now keycode layer keyDown s.state
      hlooks]
  cases s.state.chosen deref overrides flags now keycode layer keyDown with
  | some p =>
    -- The override before is deactivated.
    have hactivate := @activate_tracked P W deref actions
      (s.onState (.noteKey now keycode keyDown)) now keycode keyDown p
    have hclear := @clearActiveOverride_cases P W deref actions _ now false hnoted
    rw [hsame, hends] at hclear
    rw [hclear.2] at hactivate
    dsimp only
    split
    · exact ⟨hactivate.1.congr ⟨rfl, rfl, rfl, rfl, rfl, rfl⟩, hactivate.2⟩
    · exact hactivate
  | none =>
    have hend := @endOverride_cases P W deref actions _ now keycode keyDown
      (s.state.effectiveMods keycode keyDown) hnoted
    rw [hsame, hends] at hend
    dsimp only
    by_cases hloops : (isModCode keycode || keyDown) = true ∧ ¬ overrides.length < 256
    · rw [if_pos hloops, if_pos hloops]
    · rw [if_neg hloops, if_neg hloops]
      exact hend

theorem Tracked.event (h : s.Tracked deref) :
    match s.processKeyOverride deref actions overrides flags now keycode layer keyDown with
    | none => s.state.deactivates deref overrides flags now keycode layer keyDown = none
    | some (_, s') => s'.Tracked deref ∧
        s'.ended = s.ended ++ ((s.state.deactivates deref overrides flags now keycode layer
          keyDown).map (s.endsAs deref actions)).toList := by
  cases hlooks : s.state.looks keycode keyDown with
  | true => exact h.event_looks actions overrides flags now keycode layer keyDown hlooks
  | false =>
    have hoff := @clearActiveOverride_cases P W deref actions
      (s.onState (fun t => { t with enabled := false })) now false
      (h.congr ⟨rfl, rfl, rfl, rfl, rfl, rfl⟩)
    unfold processKeyOverride OverrideState.deactivates
    by_cases htoggle : (keyDown && keycode == keyOverrideToggle) = true
    · rw [if_pos htoggle, if_pos htoggle]
      unfold toggle
      split_ifs
      · exact hoff
      · exact ⟨h.congr ⟨rfl, rfl, rfl, rfl, rfl, rfl⟩, (List.append_nil _).symm⟩
    by_cases hon : (keyDown && keycode == keyOverrideOn) = true
    · rw [if_neg htoggle, if_neg htoggle, if_pos hon, if_pos hon]
      exact ⟨h.congr ⟨rfl, rfl, rfl, rfl, rfl, rfl⟩, (List.append_nil _).symm⟩
    by_cases hoffKey : (keyDown && keycode == keyOverrideOff) = true
    · rw [if_neg htoggle, if_neg htoggle, if_neg hon, if_neg hon, if_pos hoffKey,
        if_pos hoffKey]
      exact hoff
    · have henabled : ¬ s.state.enabled = true := fun hc => Bool.false_ne_true (hlooks.symm.trans
        ((OverrideState.looks_eq_true keycode keyDown s.state).mpr ⟨hc, htoggle, hon, hoffKey⟩))
      rw [if_neg htoggle, if_neg htoggle, if_neg hon, if_neg hon, if_neg hoffKey,
        if_neg hoffKey, if_neg henabled, if_neg henabled]
      exact ⟨h, (List.append_nil _).symm⟩

end Event

theorem Tracked.task (h : s.Tracked deref) (now : BitVec 32) :
    (s.keyOverrideTask now).Tracked deref ∧ (s.keyOverrideTask now).ended = s.ended := by
  unfold keyOverrideTask
  by_cases hzero : s.state.deferredRegister = 0
  · rw [if_pos hzero]
    exact ⟨h, rfl⟩
  rw [if_neg hzero]
  by_cases hdue : s.state.deferDelay ≤ now - s.state.deferReferenceTime
  · rw [if_pos hdue]
    refine ⟨⟨fun p hp => ?_, fun p hp hc => absurd hc Bool.false_ne_true⟩, rfl⟩
    -- The task leaves the active override as it is.
    have hactive : p ∈ s.state.activeOverride := by
      unfold onState OverrideState.keyOverrideTask at hp
      rw [if_neg hzero, if_pos hdue] at hp
      exact hp
    dsimp only
    cases hwaiting : s.waiting with
    | true =>
      obtain ⟨hsafe, hagreed, hdeferred⟩ := h.deferred p hactive hwaiting
      -- What it registers is the replacement, since a key is put off.
      rw [if_pos rfl, hdeferred.resolve_left hzero]
      exact (if_pos ⟨hsafe, hagreed, rfl⟩).symm
    | false =>
      have hregistered := h.registered p hactive
      rw [hwaiting] at hregistered
      rw [if_neg Bool.false_ne_true]
      exact hregistered
  · rw [if_neg hdue]
    exact ⟨h, rfl⟩

end CustomState

/-! ### Runs -/

namespace CustomRun

variable {P : Type v} {W : Type w} (deref : P → KeyOverride)
  (actions : P → Option (CustomAction W))

/-- Every override that has been deactivated has been undone, and no custom keycode has been
    registered. -/
def Undone (r : CustomRun P W) : Prop :=
  (∀ e ∈ r.state.ended, CustomState.Balanced deref e) ∧
    ∀ p ∈ r.state.state.activeOverride,
      safeRange ≤ (deref p).replacement → r.state.registered = none

variable [DecidableEq P] (overrides : List P)

/-- If the event deactivates an override, it can be deactivated. -/
def CanUndo (r : CustomRun P W) : CustomInput W → Prop
  | .event keycode layer keyDown =>
    r.hung = false → ∀ p ∈ r.state.state.deactivates deref overrides r.flags r.clock keycode
      layer keyDown, r.state.Undoes deref actions p
  | .task => True
  | .tick _ => True
  | .flag _ _ => True
  | .other _ _ => True

structure Sound (r : CustomRun P W) : Prop where
  tracked : r.state.Tracked deref
  balanced : ∀ e ∈ r.state.ended, CustomState.Balanced deref e

variable {deref} {actions} {overrides} {r : CustomRun P W}

omit [DecidableEq P] in
theorem Sound.undone (h : Sound deref r) : Undone deref r := by
  refine ⟨h.balanced, fun p hp hcustom => ?_⟩
  rw [h.tracked.registered p hp]
  exact if_neg (fun hsafe => CustomState.custom_not_safe p hcustom hsafe.1)

theorem active_of_deactivates {flags : Nat → Bool} {now : BitVec 32} {keycode : Keycode}
    {layer : Nat} {keyDown : Bool} {t : OverrideState P} {p : P}
    (h : p ∈ t.deactivates deref overrides flags now keycode layer keyDown) :
    p ∈ t.activeOverride := by
  have hnone : p ∉ (none : Option P) := fun hc => Option.some_ne_none p hc.symm
  unfold OverrideState.deactivates at h
  split_ifs at h
  · exact h
  · exact absurd h hnone
  · exact absurd h hnone
  · exact h
  · cases hchosen : t.chosen deref overrides flags now keycode layer keyDown with
    | some q =>
      rw [hchosen] at h
      exact h
    | none =>
      rw [hchosen] at h
      exact absurd h hnone
  · cases hchosen : t.chosen deref overrides flags now keycode layer keyDown with
    | some q =>
      rw [hchosen] at h
      exact h
    | none =>
      rw [hchosen] at h
      exact (Option.mem_filter_iff.mp h).1
  · exact absurd h hnone

theorem step_event (r : CustomRun P W) (hhung : r.hung = false)
    (keycode : Keycode) (layer : Nat) (keyDown : Bool) :
    r.step deref actions overrides (.event keycode layer keyDown) =
      match r.state.processKeyOverride deref actions overrides r.flags r.clock keycode layer
        keyDown with
      | none => { r with hung := true }
      | some (_, state) => { r with state } :=
  if_neg (ne_true_of_eq_false hhung)

theorem step_sound (h : Sound deref r) (input : CustomInput W)
    (hcan : CanUndo deref actions overrides r input) :
    Sound deref (r.step deref actions overrides input) := by
  cases input with
  | event keycode layer keyDown =>
    cases hhung : r.hung with
    | true =>
      rw [show r.step deref actions overrides (.event keycode layer keyDown) = r from
        if_pos hhung]
      exact h
    | false =>
      have hevent := h.tracked.event actions overrides r.flags r.clock keycode layer keyDown
      rw [step_event r hhung]
      cases hprocess : r.state.processKeyOverride deref actions overrides r.flags r.clock
          keycode layer keyDown with
      | none => exact ⟨h.tracked, h.balanced⟩
      | some out =>
        rw [hprocess] at hevent
        refine ⟨hevent.1, fun e he => ?_⟩
        dsimp only at he
        rw [hevent.2, List.mem_append] at he
        -- It was deactivated before, or by this event, which may deactivate it.
        rcases he with he | he
        · exact h.balanced e he
        · rw [Option.mem_toList, Option.map_eq_some_iff] at he
          obtain ⟨p, hp, rfl⟩ := he
          exact (h.tracked.balanced_iff p (active_of_deactivates hp)).mpr (hcan hhung p hp)
  | task =>
    cases hhung : r.hung with
    | true =>
      rw [show r.step deref actions overrides .task = r from if_pos hhung]
      exact h
    | false =>
      have htask := h.tracked.task r.clock
      rw [show r.step deref actions overrides .task =
        { r with state := r.state.keyOverrideTask r.clock } from
          if_neg (ne_true_of_eq_false hhung)]
      refine ⟨htask.1, ?_⟩
      dsimp only
      rw [htask.2]
      exact h.balanced
  | tick now => exact ⟨h.tracked, h.balanced⟩
  | flag name on => exact ⟨h.tracked, h.balanced⟩
  | other usb memory =>
    exact ⟨h.tracked.congr ⟨rfl, rfl, rfl, rfl, rfl, rfl⟩, h.balanced⟩

theorem step_broken (h : Sound deref r) (input : CustomInput W)
    (hcannot : ¬ CanUndo deref actions overrides r input) :
    ¬ Undone deref (r.step deref actions overrides input) := by
  cases input with
  | event keycode layer keyDown =>
    unfold CanUndo at hcannot
    rw [Classical.not_imp] at hcannot
    obtain ⟨hhung, hcannot⟩ := hcannot
    rw [not_forall] at hcannot
    obtain ⟨p, hcannot⟩ := hcannot
    rw [Classical.not_imp] at hcannot
    have hevent := h.tracked.event actions overrides r.flags r.clock keycode layer keyDown
    rw [step_event r hhung]
    cases hprocess : r.state.processKeyOverride deref actions overrides r.flags r.clock keycode
        layer keyDown with
    | none =>
      -- A loop that does not end deactivates nothing.
      rw [hprocess] at hevent
      exact absurd (hevent.symm.trans hcannot.1) (Option.some_ne_none p).symm
    | some out =>
      rw [hprocess] at hevent
      intro hundone
      -- The override that cannot be deactivated is the last of those that have been.
      refine hcannot.2 ((h.tracked.balanced_iff p (active_of_deactivates hcannot.1)).mp ?_)
      refine hundone.1 _ ?_
      dsimp only
      rw [hevent.2, List.mem_append, Option.mem_toList, Option.map_eq_some_iff]
      exact Or.inr ⟨p, hcannot.1, rfl⟩
  | task => exact absurd trivial hcannot
  | tick now => exact absurd trivial hcannot
  | flag name on => exact absurd trivial hcannot
  | other usb memory => exact absurd trivial hcannot

/-- Whatever the overrides and their custom actions are, and whatever happens: every override
    that is deactivated unregisters what activating it has registered, and custom keycodes are
    neither registered nor unregistered, exactly when every override that an event deactivates
    can be. -/
theorem deactivation_undoes_iff (deref : P → KeyOverride)
    (actions : P → Option (CustomAction W)) (overrides : List P) (nkro : Bool) (memory : W)
    (flags : Nat → Bool) (inputs : List (CustomInput W)) :
    Always (step deref actions overrides) (Undone deref) (start P nkro memory flags) inputs ↔
      Along (step deref actions overrides) (CanUndo deref actions overrides)
        (start P nkro memory flags) inputs :=
  always_iff_along _ _ (Sound deref) _ (fun _ h => h.undone)
    (fun _ input h hcan => step_sound h input hcan)
    (fun _ input h hcannot => step_broken h input hcannot) inputs _
    ⟨CustomState.tracked_of_none rfl, fun _ he => absurd he List.not_mem_nil⟩

/-- Shift and backspace are a custom keycode, which has `KC_A` in its low byte. -/
def shiftIsCustom : KeyOverride :=
  { OverrideRun.shiftBackspace with replacement := 0x5E04 }

def shiftedBackspace : List (CustomInput Unit) :=
  [.other
      { OverrideUsb.init false with usb := { Usb.init false with realMods := 0x02 } } (),
    .event kcBackspace 0 true, .event kcBackspace 0 false]

/-- The basic keycode is unregistered, which has never been registered. -/
theorem deactivation_undoes_broken :
    ¬ ∀ inputs : List (CustomInput Unit),
      Always (step (fun _ : Unit => shiftIsCustom) (fun _ => none) [()])
        (Undone (fun _ : Unit => shiftIsCustom)) (start Unit false () (fun _ => true)) inputs := by
  intro h
  have hlast := ((always_iff_visited _ _ shiftedBackspace _).mp (h shiftedBackspace)
    shiftedBackspace [] (List.append_nil _).symm).1
  have hended : ((), none, some 0x04) ∈
      (StepRun.run (step (fun _ : Unit => shiftIsCustom) (fun _ => none) [()])
        (start Unit false () (fun _ => true)) shiftedBackspace).state.ended := by
    decide +kernel
  exact absurd (hlast _ hended).1 (Option.some_ne_none _).symm

end CustomRun

end K530
