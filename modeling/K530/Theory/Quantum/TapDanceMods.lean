import K530.Quantum.TapDance
import K530.Theory.Quantum.AutoShift

/-!
# Modifiers Held Through a Dance

A modifier whose key is held should be registered, and so it should be after a dance has been
reset, whatever the dance does. But a reset deletes the one-shot modifiers that were there at
the last tap. They have been added when the dance was finished, and nobody has looked whether
one of them was registered already. The functions of a dance may delete a modifier too, as
those of two keycodes do when one of these is a modifier.

So held modifiers are kept in the runs in which no function that is called deletes one, and
none of them is among the one-shot modifiers a reset deletes. The functions may be any.

## Main definitions

* `TapDances.Holds`: The modifiers that are held are registered.

## Theorems

* `TapDanceRun.keeps_held_mods`: Runs in which held modifiers are kept.
* `TapDanceRun.keeps_held_mods_broken`: One in which shift is lost.
-/

namespace K530

open Mask
open StepRun

universe u

namespace TapDances

variable {n : Nat} {M : Type u}

/-- The modifiers that are held are registered. -/
def Holds (d : TapDances n M) : Prop := Within d.heldMods d.usb.realMods

instance (d : TapDances n M) : Decidable d.Holds := inferInstanceAs (Decidable (Within _ _))

/-! ### What a dance must meet -/

section Spares

variable (actions : Fin n → TapDanceAction M)

/-- The function that is called when a dance is finished deletes no modifier that is held. -/
def FinishSpares (i : Fin n) (d : TapDances n M) : Prop :=
  (d.states i).finished = false →
    ((d.finish i).processTapDanceActionFn (actions i).onDanceFinished i).Holds

/-- Nor does the one that is called when it is reset. And none that is held is among the
    one-shot modifiers of the dance. -/
def ResetSpares (i : Fin n) (d : TapDances n M) : Prop :=
  (d.states i).pressed = false → ∀ j ∈ danceOf (n := n) (d.states i).keycode,
    (d.processTapDanceActionFn (actions j).onReset j).Holds ∧
      d.heldMods &&&
        ((d.processTapDanceActionFn (actions j).onReset j).states j).oneshotMods = 0

/-- A dance is finished, and reset if its key is up. -/
def EndSpares (i : Fin n) (d : TapDances n M) : Prop :=
  d.FinishSpares actions i ∧ (d.onDanceFinished actions i).ResetSpares actions i

/-- The dance is marked as interrupted. -/
def marked (keycode : Keycode) (i : Fin n) (d : TapDances n M) : TapDances n M :=
  d.setState i { d.states i with interrupted := true, interruptingKeycode := keycode }

/-- The loop of `preprocess_tap_dance`, for a dance. -/
def InterruptSpares (keycode : Keycode) (d : TapDances n M) (i : Fin n) : Prop :=
  (d.states i).count ≠ 0 → ¬ (keycode = (d.states i).keycode ∧ keycode = d.lastTd) →
    (d.marked keycode i).EndSpares actions i

/-- The loop of `tap_dance_task`, for a dance. -/
def ExpireSpares (getTappingTerm : Keycode → BitVec 16) (now : BitVec 16) (d : TapDances n M)
    (i : Fin n) : Prop :=
  (d.states i).count ≠ 0 →
    d.tappingTerm actions getTappingTerm i < now - (d.states i).timer → d.EndSpares actions i

/-- The key of a dance has gone up. -/
def lifted (i : Fin n) (d : TapDances n M) : TapDances n M :=
  { d with highestTd := max d.highestTd i }.setState i { d.states i with pressed := false }

/-- `process_tap_dance`. -/
def ProcessSpares (now : BitVec 16) (keycode : Keycode) (pressed : Bool) (d : TapDances n M) :
    Prop :=
  ∀ i ∈ danceOf (n := n) keycode,
    (pressed = true →
      (({ d with highestTd := max d.highestTd i }.tap now keycode i).processTapDanceActionFn
        (actions i).onEachTap i).Holds) ∧
    (pressed = false → (d.states i).count ≠ 0 → (d.states i).finished = true →
      (d.lifted i).ResetSpares actions i)

instance (i : Fin n) (d : TapDances n M) : Decidable (d.FinishSpares actions i) :=
  inferInstanceAs (Decidable (_ → _))

instance (i : Fin n) (d : TapDances n M) : Decidable (d.ResetSpares actions i) :=
  inferInstanceAs (Decidable (_ → ∀ j ∈ danceOf _, _ ∧ _ = _))

instance (i : Fin n) (d : TapDances n M) : Decidable (d.EndSpares actions i) :=
  inferInstanceAs (Decidable (_ ∧ _))

instance (keycode : Keycode) (d : TapDances n M) (i : Fin n) :
    Decidable (d.InterruptSpares actions keycode i) :=
  inferInstanceAs (Decidable (_ → _ → _))

instance (getTappingTerm : Keycode → BitVec 16) (now : BitVec 16) (d : TapDances n M)
    (i : Fin n) : Decidable (d.ExpireSpares actions getTappingTerm now i) :=
  inferInstanceAs (Decidable (_ → _ → _))

instance (now : BitVec 16) (keycode : Keycode) (pressed : Bool) (d : TapDances n M) :
    Decidable (d.ProcessSpares actions now keycode pressed) :=
  inferInstanceAs (Decidable (∀ i ∈ danceOf _, (_ → _) ∧ (_ → _ → _ → _)))

end Spares

/-! ### What is kept -/

/-- The modifiers that are held are registered, and each reset has kept those that had been
    held through the dance. -/
structure Kept (d : TapDances n M) : Prop where
  holds : d.Holds
  through : ∀ i, Within (d.heldThrough i) d.heldMods
  resets : ∀ x ∈ d.resets, Within x.1 x.2

variable {actions : Fin n → TapDanceAction M} {d d' : TapDances n M} {i : Fin n}

theorem Kept.of_holds (h : d.Kept) (hholds : d'.Holds) (hheld : d'.heldMods = d.heldMods)
    (hthrough : d'.heldThrough = d.heldThrough) (hresets : d'.resets = d.resets) : d'.Kept where
  holds := hholds
  through := by
    rw [hheld, hthrough]
    exact h.through
  resets := by
    rw [hresets]
    exact h.resets

theorem Kept.fn (h : d.Kept) (fn : Option (TapDanceFn M)) (i : Fin n)
    (hholds : (d.processTapDanceActionFn fn i).Holds) :
    (d.processTapDanceActionFn fn i).Kept := by
  cases fn with
  | none => exact h
  | some f => exact h.of_holds hholds rfl rfl rfl

theorem Kept.onDanceFinished (h : d.Kept) (hspares : d.FinishSpares actions i) :
    (d.onDanceFinished actions i).Kept := by
  unfold TapDances.onDanceFinished
  cases hfinished : (d.states i).finished with
  | true => exact h
  | false =>
    rw [if_neg Bool.false_ne_true]
    have hfinish : (d.finish i).Kept := by
      refine h.of_holds ?_ rfl rfl rfl
      unfold Holds finish onUsb
      dsimp only
      rw [Usb.sendKeyboardReport_realMods]
      exact h.holds.or_right _
    exact hfinish.fn _ i (hspares hfinished)

theorem processTapDanceActionFn_heldMods (fn : Option (TapDanceFn M)) (i : Fin n)
    (d : TapDances n M) : (d.processTapDanceActionFn fn i).heldMods = d.heldMods := by
  cases fn with
  | none => rfl
  | some f => rfl

theorem Kept.resetTapDance (h : d.Kept) (hspares : d.ResetSpares actions i) :
    (d.resetTapDance actions i).Kept := by
  unfold TapDances.resetTapDance
  cases hpressed : (d.states i).pressed with
  | true => exact h
  | false =>
    rw [if_neg Bool.false_ne_true]
    cases hdance : (danceOf (d.states i).keycode : Option (Fin n)) with
    | none => exact h
    | some j =>
      obtain ⟨hholds, hdisjoint⟩ := hspares hpressed j hdance
      -- The function is called first, and may do anything that spares what is held.
      have hfn := h.fn (actions j).onReset j hholds
      have hheld := processTapDanceActionFn_heldMods (actions j).onReset j d
      dsimp only
      unfold onReset
      dsimp only
      generalize d.processTapDanceActionFn (actions j).onReset j = called
        at hfn hdisjoint hheld ⊢
      rw [← hheld] at hdisjoint
      -- What is deleted is not held.
      have hafter : Within called.heldMods
          (called.onUsb (fun u => ((u.delMods (called.states j).oneshotMods).delWeakMods
            (called.states j).weakMods).sendKeyboardReport)).usb.realMods := by
        unfold onUsb
        dsimp only
        rw [Usb.sendKeyboardReport_realMods]
        exact hfn.holds.andNot hdisjoint
      refine ⟨hafter, hfn.through, fun x hx => ?_⟩
      rcases List.mem_append.mp hx with hx | hx
      · exact hfn.resets x hx
      · -- This reset is noted with what has been held through the dance, which is held.
        rw [List.mem_singleton.mp hx]
        exact (hfn.through j).trans hafter

theorem resetTapDance_heldMods (i : Fin n) (d : TapDances n M) :
    (d.resetTapDance actions i).heldMods = d.heldMods := by
  unfold TapDances.resetTapDance
  split
  · rfl
  · split
    · rfl
    · exact processTapDanceActionFn_heldMods _ _ d

theorem Kept.endDance (h : d.Kept) (hspares : d.EndSpares actions i) :
    (d.endDance actions i).Kept :=
  (h.onDanceFinished hspares.1).resetTapDance hspares.2

/-! ### The three entries -/

theorem Kept.interrupt (h : d.Kept) (keycode : Keycode)
    (hspares : d.InterruptSpares actions keycode i) : (d.interrupt actions keycode i).Kept := by
  unfold TapDances.interrupt
  split_ifs with hzero hown
  · exact h
  · exact h
  · have hmarked : (d.marked keycode i).Kept := h.of_holds h.holds rfl rfl rfl
    have hended := hmarked.endDance (hspares hzero hown)
    exact hended.of_holds hended.holds rfl rfl rfl

theorem Kept.expire (h : d.Kept) (getTappingTerm : Keycode → BitVec 16) (now : BitVec 16)
    (hspares : d.ExpireSpares actions getTappingTerm now i) :
    (d.expire actions getTappingTerm now i).Kept := by
  unfold TapDances.expire
  split_ifs with hexpired
  · exact h.endDance (hspares hexpired.1 hexpired.2)
  · exact h

theorem Kept.preprocess (h : d.Kept) (keycode : Keycode) (pressed : Bool)
    (hspares : pressed →
      Along (TapDances.interrupt actions keycode) (InterruptSpares actions keycode) d d.used) :
    (d.preprocessTapDance actions keycode pressed).Kept := by
  unfold preprocessTapDance
  split
  next hpressed =>
    exact run_invariant_along _ _ Kept (fun _ _ h hspares => h.interrupt keycode hspares) _ d h
      (hspares hpressed)
  next => exact h

theorem Kept.task (h : d.Kept) (getTappingTerm : Keycode → BitVec 16) (now : BitVec 16)
    (hspares : Along (TapDances.expire actions getTappingTerm now)
      (ExpireSpares actions getTappingTerm now) d d.used) :
    (d.tapDanceTask actions getTappingTerm now).Kept :=
  run_invariant_along _ _ Kept (fun _ _ h hspares => h.expire getTappingTerm now hspares) _ d h
    hspares

theorem Kept.process (h : d.Kept) (now : BitVec 16) (keycode : Keycode) (pressed : Bool)
    (hspares : d.ProcessSpares actions now keycode pressed) :
    (d.processTapDance actions now keycode pressed).Kept := by
  unfold processTapDance
  cases hdance : (danceOf keycode : Option (Fin n)) with
  | none => exact h
  | some i =>
    have hevent := hspares i hdance
    dsimp only
    cases pressed with
    | true =>
      rw [if_pos rfl]
      have htapped : ({ d with highestTd := max d.highestTd i }.tap now keycode i).Kept := by
        refine ⟨h.holds, fun j => ?_, h.resets⟩
        -- At the first tap it is followed from what is held then.
        unfold tap setState
        dsimp only
        split
        · by_cases hji : j = i
          · rw [hji, Function.update_self, within_iff]
            exact fun _ hbit => hbit
          · rw [Function.update_of_ne hji]
            exact h.through j
        · exact h.through j
      have hcalled := htapped.fn (actions i).onEachTap i (hevent.1 rfl)
      exact hcalled.of_holds hcalled.holds rfl rfl rfl
    | false =>
      rw [if_neg Bool.false_ne_true]
      -- The state is set before it is looked at, which touches no modifier.
      have hlifted : (d.lifted i).Kept := h.of_holds h.holds rfl rfl rfl
      have hstate : (d.lifted i).states i = { d.states i with pressed := false } :=
        Function.update_self i _ _
      change (if ((d.lifted i).states i).count ≠ 0 ∧
        ((d.lifted i).states i).finished = true then (d.lifted i).resetTapDance actions i
        else d.lifted i).Kept
      split
      next hdone =>
        rw [hstate] at hdone
        exact hlifted.resetTapDance (hevent.2 rfl hdone.1 hdone.2)
      next => exact hlifted

theorem processTapDance_heldMods (now : BitVec 16) (keycode : Keycode) (d : TapDances n M) :
    (d.processTapDance actions now keycode false).heldMods = d.heldMods := by
  unfold processTapDance
  split
  · rfl
  · dsimp only
    rw [if_neg Bool.false_ne_true]
    split
    · exact resetTapDance_heldMods _ _
    · rfl

end TapDances

/-! ### Runs -/

namespace TapDanceRun

open TapDances

variable {n : Nat} {M : Type u}

theorem modOf_eq (keycode : Keycode) :
    modOf keycode = if keycode ≤ 0xFF then Usb.modMask (lowByte keycode) else 0 := by
  have hbyte : (lowByte keycode).toNat = keycode.toNat % 256 := BitVec.toNat_setWidth _ _
  have hlow : (0xE0 : Byte).toNat = 224 := rfl
  have hhigh : (0xE7 : Byte).toNat = 231 := rfl
  have hlow16 : (0xE0 : Keycode).toNat = 224 := rfl
  have hhigh16 : (0xE7 : Keycode).toNat = 231 := rfl
  have htop : (0xFF : Keycode).toNat = 255 := rfl
  unfold modOf Usb.modMask isMod
  simp only [BitVec.le_def, Bool.and_eq_true, decide_eq_true_eq, hbyte, hlow, hhigh, hlow16,
    hhigh16, htop]
  by_cases hbasic : keycode.toNat ≤ 255
  · rw [if_pos hbasic, Nat.mod_eq_of_lt (by omega)]
  · rw [if_neg hbasic, if_neg (by omega)]

/-- After each reset, the modifiers that were held through the dance are registered. -/
def KeepsHeld (r : TapDanceRun n M) : Prop := ∀ x ∈ r.dances.resets, Within x.1 x.2

/-- A key goes up, and its modifier is no longer held. -/
def lets (keycode : Keycode) (r : TapDanceRun n M) : TapDances n M :=
  { r.dances with
    heldMods := r.dances.heldMods &&& ~~~modOf keycode,
    heldThrough := fun i => r.dances.heldThrough i &&& ~~~modOf keycode }

variable (actions : Fin n → TapDanceAction M) (getTappingTerm : Keycode → BitVec 16)

/-- No function that is called deletes a modifier that is held, and none that is held is among
    the one-shot modifiers a reset deletes. -/
def Spares (r : TapDanceRun n M) : TapDanceInput → Prop
  | .press keycode => keycode ∉ r.down → r.hung = false →
      Along (interrupt actions keycode) (InterruptSpares actions keycode) r.dances
        r.dances.used ∧
        (r.dances.preprocessTapDance actions keycode true).ProcessSpares actions r.clock keycode
          true
  | .release keycode => keycode ∈ r.down → r.hung = false →
      (r.lets keycode).ProcessSpares actions r.clock keycode false
  | .task =>
    Along (expire actions getTappingTerm r.clock) (ExpireSpares actions getTappingTerm r.clock)
      r.dances r.dances.used
  | .tick _ => True
  | .other _ => True

instance (r : TapDanceRun n M) : DecidablePred (Spares actions getTappingTerm r)
  | .press _ => inferInstanceAs (Decidable (_ → _ → _ ∧ _))
  | .release _ => inferInstanceAs (Decidable (_ → _ → _))
  | .task => inferInstanceAs (Decidable (Along _ _ _ _))
  | .tick _ => inferInstanceAs (Decidable True)
  | .other _ => inferInstanceAs (Decidable True)

variable {actions} {getTappingTerm} {r : TapDanceRun n M}

theorem lets_kept (h : r.dances.Kept) (keycode : Keycode) : (r.lets keycode).Kept := by
  refine ⟨?_, fun i => (h.through i).andNot_both _, h.resets⟩
  unfold Holds lets
  dsimp only
  -- What is still held was held before.
  rw [within_iff]
  intro bit hbit
  rw [BitVec.getLsbD_and, Bool.and_eq_true] at hbit
  exact within_iff.mp h.holds bit hbit.1

theorem step_kept (h : r.dances.Kept) (input : TapDanceInput)
    (hspares : Spares actions getTappingTerm r input) :
    (r.step actions getTappingTerm input).dances.Kept := by
  cases input with
  | press keycode =>
    -- The dances see the press before anything is registered for it.
    have hevent (hdown : keycode ∉ r.down) (hhung : ¬ r.hung) :
        ((r.dances.preprocessTapDance actions keycode true).processTapDance actions r.clock
          keycode true).Kept := by
      obtain ⟨hloop, hprocess⟩ := hspares hdown (eq_false_of_ne_true hhung)
      exact (h.preprocess keycode true (fun _ => hloop)).process r.clock keycode true hprocess
    unfold step press
    dsimp only
    split_ifs with hdown hhung hbasic
    · exact h
    · exact h
    · -- A modifier is registered before it is held.
      have hkept := hevent hdown hhung
      generalize (r.dances.preprocessTapDance actions keycode true).processTapDance actions
        r.clock keycode true = d at hkept
      refine ⟨?_, fun i => (hkept.through i).or_right _, hkept.resets⟩
      unfold Holds onUsb
      dsimp only
      rw [Usb.registerCode_realMods, modOf_eq, if_pos hbasic]
      exact hkept.holds.or _
    · have hkept := hevent hdown hhung
      have hmod : modOf keycode = 0 := by rw [modOf_eq, if_neg hbasic]
      rw [hmod, show ∀ m : Byte, m ||| 0 = m from fun _ => BitVec.or_zero]
      exact hkept
  | release keycode =>
    have hlets := lets_kept h keycode
    unfold step release
    dsimp only
    split_ifs with hdown hhung hbasic
    · exact hlets
    · -- It is no longer held when it is unregistered.
      have hkept := hlets.process r.clock keycode false
        (hspares hdown (eq_false_of_ne_true hhung))
      refine hkept.of_holds ?_ rfl rfl rfl
      change Within ((r.lets keycode).processTapDance actions r.clock keycode false).heldMods
        (((r.lets keycode).processTapDance actions r.clock keycode false).usb.unregisterCode
          (lowByte keycode)).realMods
      rw [Usb.unregisterCode_realMods]
      refine hkept.holds.andNot ?_
      rw [processTapDance_heldMods]
      have hmod : modOf keycode = Usb.modMask (lowByte keycode) := by rw [modOf_eq, if_pos hbasic]
      rw [← hmod]
      exact andNot_and_self _ _
    · exact hlets.process r.clock keycode false (hspares hdown (eq_false_of_ne_true hhung))
    · exact h
  | task => exact h.task getTappingTerm r.clock hspares
  | tick now => exact h
  | other usb =>
    refine h.of_holds ?_ rfl rfl rfl
    unfold Holds step onUsb
    dsimp only
    rw [within_iff]
    intro bit hbit
    rw [BitVec.getLsbD_or, hbit, Bool.or_true]

theorem start_kept (nkro : Bool) (memory : M) : (start n nkro memory).dances.Kept where
  holds := within_zero _
  through := fun _ => within_zero _
  resets := fun _ hx => absurd hx List.not_mem_nil

/-- Whatever the dances are, and however they are tapped, released, interrupted and timed out:
    a modifier that has been held from the first tap on is registered after the reset, if no
    step deletes a modifier that is held. -/
theorem keeps_held_mods (actions : Fin n → TapDanceAction M)
    (getTappingTerm : Keycode → BitVec 16) (nkro : Bool) (memory : M)
    (inputs : List TapDanceInput)
    (hspares : Along (step actions getTappingTerm) (Spares actions getTappingTerm)
      (start n nkro memory) inputs) :
    Always (step actions getTappingTerm) KeepsHeld (start n nkro memory) inputs :=
  always_of_along _ (Spares actions getTappingTerm) (fun r => r.dances.Kept) _
    (fun _ h => h.resets) (fun _ input h hspares => step_kept h input hspares) inputs _
    (start_kept nkro memory) hspares

/-- A dance of two letters. -/
def aOrB (_ : Fin 1) : Keycode × Keycode := (kcA, kcB)

/-- Shift is held, and a one-shot modifier is pending when the dance is tapped. It is finished
    and reset when its term has passed. -/
def tappedWithShift (oneshotMods : Byte) : List TapDanceInput :=
  [.press 0xE1, .other { Usb.init false with oneshotMods }, .press 0x5700, .tick 50,
    .release 0x5700, .tick 300, .task]

/-- Control is pending. -/
theorem keeps_held_mods_control :
    Along (step (TapDanceAction.pair aOrB) (fun _ => 200))
        (Spares (TapDanceAction.pair aOrB) (fun _ => 200)) (start 1 false [])
        (tappedWithShift 0x01) ∧
      Always (step (TapDanceAction.pair aOrB) (fun _ => 200)) KeepsHeld (start 1 false [])
        (tappedWithShift 0x01) :=
  have hspares : Along (step (TapDanceAction.pair aOrB) (fun _ => 200))
      (Spares (TapDanceAction.pair aOrB) (fun _ => 200)) (start 1 false [])
      (tappedWithShift 0x01) := by
    decide +kernel
  ⟨hspares, keeps_held_mods (TapDanceAction.pair aOrB) (fun _ => 200) false []
    (tappedWithShift 0x01) hspares⟩

/-- Shift itself is pending, and is not registered any more although it is held. -/
theorem keeps_held_mods_broken :
    ¬ ∀ inputs : List TapDanceInput,
      Always (step (TapDanceAction.pair aOrB) (fun _ => 200)) KeepsHeld (start 1 false [])
        inputs := by
  intro h
  have hlast := (always_iff_visited _ _ (tappedWithShift 0x02) _).mp (h (tappedWithShift 0x02))
    (tappedWithShift 0x02) [] (List.append_nil _).symm
  have hreset : (0x02, 0x00) ∈ (StepRun.run (step (TapDanceAction.pair aOrB) (fun _ => 200))
      (start 1 false []) (tappedWithShift 0x02)).dances.resets := by
    decide +kernel
  exact absurd (hlast _ hreset) (by decide)

end TapDanceRun

end K530
