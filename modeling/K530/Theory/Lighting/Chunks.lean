import K530.Lighting.Indicators

/-!
# A Frame in Parts

A frame is drawn in parts, and the indicators are drawn over each of them. It makes no
difference to what is seen, nor to what is remembered, where the parts end: two calls for
adjacent ranges do what one call for both does.

Each of the eight layers splits. Seven of them are functions of a state that does not
change meanwhile. The reaction to keys changes the state, but only for the LEDs it goes
over, so the second call goes on where the first has ended.

## Main definitions

* `call`: A call, on the state and the frame.

## Theorems

* `ledRange_append`: The loop over two ranges.
* `adjacent_calls`: And neither paints outside its range.
-/

namespace K530

namespace Indicators

open Painting StepRun

/-- A call, on the state of the keymap and the colors in the driver's frame. -/
def call (p : Panel) (ledMin ledMax : Nat) (s : World × Vector Rgb 63) :
    World × Vector Rgb 63 :=
  let called := rgbMatrixIndicatorsAdvancedUser ledMin ledMax p s.1
  (called.1, Painting.apply called.2 s.2)

section

variable {a b c : Nat} (hab : a ≤ b) (hbc : b ≤ c)

/-! ### The layers that change nothing -/

include hab hbc

theorem setColor_splits (led : Nat) (color : Rgb) :
    Splits a b c (setColor a c led color) (setColor a b led color) (setColor b c led color) :=
  Splits.single hab hbc led _ (fun w hw => by rw [List.mem_singleton.mp hw])

theorem paintKey_splits (layer : Keycode) (color : Rgb) (key : KeyPos) :
    Splits a b c (paintKey a c layer color key) (paintKey a b layer color key)
      (paintKey b c layer color key) := by
  unfold paintKey
  by_cases hled : ledIndex key = Keymap.noLed
  · simp only [hled, if_true]
    exact Splits.nil
  · simp only [hled, if_false]
    refine Splits.single hab hbc (ledIndex key) _ (fun w hw => ?_)
    -- each branch paints that LED, or nothing
    split at hw
    · rw [List.mem_singleton.mp hw]
    · split at hw
      · rw [List.mem_singleton.mp hw]
      · split at hw
        · rw [List.mem_singleton.mp hw]
        · exact absurd hw List.not_mem_nil

theorem paintLayer_splits (w : World) :
    Splits a b c (paintLayer a c w) (paintLayer a b w) (paintLayer b c w) := by
  unfold paintLayer
  cases highlight w with
  | none => exact Splits.nil
  | some held =>
    exact Splits.flatMap allKeys _ _ _
      (fun key _ => paintKey_splits hab hbc held.1 held.2 key)

theorem paintRecording_splits (w : World) :
    Splits a b c (paintRecording a c w) (paintRecording a b w) (paintRecording b c w) := by
  unfold paintRecording
  split
  · exact setColor_splits hab hbc _ _
  · exact Splits.nil

theorem paintSlots_splits (w : World) :
    Splits a b c (paintSlots a c w) (paintSlots a b w) (paintSlots b c w) := by
  unfold paintSlots
  split
  · exact Splits.flatMap _ _ _ _ (fun slot _ => setColor_splits hab hbc _ _)
  · exact Splits.nil

theorem paintCapsLock_splits (p : Panel) :
    Splits a b c (paintCapsLock a c p) (paintCapsLock a b p) (paintCapsLock b c p) := by
  unfold paintCapsLock
  split
  · exact setColor_splits hab hbc _ _
  · exact Splits.nil

theorem paintLink_splits (p : Panel) (w : World) :
    Splits a b c (paintLink a c p w) (paintLink a b p w) (paintLink b c p w) := by
  unfold paintLink
  split
  · split
    · exact setColor_splits hab hbc _ _
    · exact setColor_splits hab hbc _ _
  · exact setColor_splits hab hbc _ _

theorem drawBattLed_splits (p : Panel) (w : World) :
    Splits a b c (drawBattLed a c p w) (drawBattLed a b p w) (drawBattLed b c p w) :=
  setColor_splits hab hbc _ _

/-! ### The loops -/

theorem ledRange_append : ledRange a c = ledRange a b ++ ledRange b c := by
  have hsplit : ∀ leds : List (Fin 63), leds.Pairwise (· < ·) →
      leds.filter (fun i => a ≤ i.val && i.val < c) =
        leds.filter (fun i => a ≤ i.val && i.val < b) ++
          leds.filter (fun i => b ≤ i.val && i.val < c) := by
    intro leds
    induction leds with
    | nil => exact fun _ => rfl
    | cons i leds ih =>
      intro hleds
      obtain ⟨hi, hleds⟩ := List.pairwise_cons.mp hleds
      simp only [List.filter_cons, Bool.and_eq_true, decide_eq_true_eq]
      rw [ih hleds]
      by_cases hside : i.val < b
      · simp only [hside, and_true, Nat.not_le.mpr hside, if_false,
          Nat.lt_of_lt_of_le hside hbc]
        split <;> rfl
      · -- what comes after it is on the right as well
        have hnone : leds.filter (fun j => a ≤ j.val && j.val < b) = [] := by
          refine List.filter_eq_nil_iff.mpr (fun j hj hjb => ?_)
          have hlt := Fin.lt_def.mp (hi j hj)
          simp only [Bool.and_eq_true, decide_eq_true_eq] at hjb
          omega
        rw [hnone]
        simp only [hside, and_false, if_false, List.nil_append, Nat.not_lt.mp hside, true_and,
          Nat.le_trans hab (Nat.not_lt.mp hside)]
  exact hsplit _ (List.pairwise_lt_finRange 63)

end

theorem mem_ledRange {a b : Nat} {i : Fin 63} :
    i ∈ ledRange a b ↔ a ≤ i.val ∧ i.val < b := by
  unfold ledRange
  simp only [List.mem_filter, List.mem_finRange, Bool.and_eq_true, decide_eq_true_eq, true_and]

theorem siren_within (a b : Nat) :
    Within a b (((ledRange a b).filter (fun i => i.val < battLed)).map
      (fun i : Fin 63 => ({ index := i.val, value := rgbRed } : Paint))) := by
  intro w hw
  obtain ⟨i, hi, rfl⟩ := List.mem_map.mp hw
  exact mem_ledRange.mp (List.mem_of_mem_filter hi)

theorem reactiveTurn_index (now : BitVec 32) (s : Reactive) (i : Fin 63) :
    ∀ w ∈ (reactiveTurn now s i).2, w.index = i.val := by
  intro w hw
  unfold reactiveTurn at hw
  dsimp only at hw
  split at hw
  · rw [List.mem_singleton.mp hw]
  · split at hw
    · split at hw
      · rw [List.mem_singleton.mp hw]
      · exact absurd hw List.not_mem_nil
    · exact absurd hw List.not_mem_nil

theorem trace_reactive_index (now : BitVec 32) (leds : List (Fin 63)) :
    ∀ s, ∀ w ∈ (trace (reactiveTurn now) s leds).flatten, ∃ i ∈ leds, w.index = i.val := by
  induction leds with
  | nil =>
    intro s w hw
    exact absurd hw List.not_mem_nil
  | cons i leds ih =>
    intro s w hw
    rw [trace, List.flatten_cons, List.mem_append] at hw
    rcases hw with hw | hw
    · exact ⟨i, List.mem_cons_self, reactiveTurn_index now s i w hw⟩
    · obtain ⟨j, hj, hindex⟩ := ih _ w hw
      exact ⟨j, List.mem_cons_of_mem i hj, hindex⟩

theorem paintKeys_within (a b : Nat) (now : BitVec 32) (s : Reactive) :
    Within a b (paintKeys a b now s) := by
  intro w hw
  obtain ⟨i, hi, hindex⟩ := trace_reactive_index now _ s w hw
  rw [hindex]
  exact mem_ledRange.mp hi

section

variable {a b c : Nat} (hab : a ≤ b) (hbc : b ≤ c)

include hab hbc

theorem paintSiren_splits (p : Panel) (w : World) :
    Splits a b c (paintSiren a c p w) (paintSiren a b p w) (paintSiren b c p w) := by
  unfold paintSiren
  split
  · rw [ledRange_append hab hbc, List.filter_append, List.map_append]
    exact Splits.concat (siren_within a b) (siren_within b c)
  · exact Splits.nil

theorem paintKeys_splits (now : BitVec 32) (s : Reactive) :
    Splits a b c (paintKeys a c now s) (paintKeys a b now s)
      (paintKeys b c now (fadeKeys a b now s)) := by
  have happend : paintKeys a c now s =
      paintKeys a b now s ++ paintKeys b c now (fadeKeys a b now s) := by
    unfold paintKeys fadeKeys
    rw [ledRange_append hab hbc, trace_append, List.flatten_append]
  rw [happend]
  exact Splits.concat (paintKeys_within a b now s) (paintKeys_within b c now _)

theorem fadeKeys_append (now : BitVec 32) (s : Reactive) :
    fadeKeys b c now (fadeKeys a b now s) = fadeKeys a c now s := by
  unfold fadeKeys
  rw [ledRange_append hab hbc, run_append]

/-! ### Calls -/

theorem paints_splits (p : Panel) (w : World) :
    Splits a b c (paints a c p w) (paints a b p w)
      (paints b c p { w with reactive := fadeKeys a b p.now w.reactive }) :=
  (((((((paintLayer_splits hab hbc w).append (paintRecording_splits hab hbc w)).append
    (paintSlots_splits hab hbc w)).append (paintCapsLock_splits hab hbc p)).append
    (paintKeys_splits hab hbc p.now w.reactive)).append (paintLink_splits hab hbc p w)).append
    (drawBattLed_splits hab hbc p w)).append (paintSiren_splits hab hbc p w)

theorem call_call (p : Panel) (s : World × Vector Rgb 63) :
    call p b c (call p a b s) = call p a c s :=
  Prod.ext
    (congrArg (fun reactive => { s.1 with reactive }) (fadeKeys_append hab hbc p.now s.1.reactive))
    ((paints_splits hab hbc p s.1).apply s.2)

/-- Two calls for adjacent ranges leave the colors and the state that one call for both
    leaves, and no call paints a LED outside its range. -/
theorem adjacent_calls (p : Panel) (s : World × Vector Rgb 63) :
    call p b c (call p a b s) = call p a c s ∧
      ∀ paint ∈ (rgbMatrixIndicatorsAdvancedUser a c p s.1).2,
        a ≤ paint.index ∧ paint.index < c :=
  ⟨call_call hab hbc p s, (paints_splits hab hbc p s.1).within hab hbc⟩

end

/-- Caps Lock is on, and the battery has not been heard of. -/
def capsLockPanel : Panel := { now := 0, spi := Spi.reset, capsLock := true }

/-- A frame drawn in two parts, the Caps Lock key in the second. -/
theorem adjacent_calls_capsLock :
    call capsLockPanel 20 63
        (call capsLockPanel 0 20 (World.init KeymapConfig.default true true,
          Vector.replicate 63 rgbOff)) =
      call capsLockPanel 0 63 (World.init KeymapConfig.default true true,
        Vector.replicate 63 rgbOff) ∧
    ∀ paint ∈ (rgbMatrixIndicatorsAdvancedUser 0 63 capsLockPanel
      (World.init KeymapConfig.default true true)).2, 0 ≤ paint.index ∧ paint.index < 63 :=
  adjacent_calls (by decide) (by decide) capsLockPanel _

end Indicators

end K530
