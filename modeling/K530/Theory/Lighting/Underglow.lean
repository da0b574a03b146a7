import K530.Lighting.Underglow

/-!
# Where Underglow Faults

The effects should be safe with every range `rgblight_set_effect_range` accepts, in every mode
and color, however often `rgblight_task` is called: no access outside `led` or
`led_twinkle_state`, and no division by zero.

The range that is accepted ends by `RGBLED_NUM`, so no index is outside. But it may be empty,
and three effects divide by its length when they are not in a loop over it: the snake that
goes up, and the knight if the number of its LEDs is set. Twinkle takes a remainder by half
of the saturation, which is nothing for a gray, and divides by the height of the breathing
curve, which a maximum of 1 makes flat.

## Main definitions

* `Underglow.InRange`: The ranges are inside the LEDs.

## Theorems

* `underglow_safe_iff`: When a run does not fault.
* `underglow_divides_by_zero`: A snake in an empty range.
-/

namespace K530

open Checked

namespace Underglow

variable {b : UnderglowBuild}

structure InRange (s : Underglow b) : Prop where
  effect : s.ranges.effectStartPos.toNat + s.ranges.effectNumLeds.toNat ≤ b.ledNum
  effectEnd : s.ranges.effectEndPos.toNat ≤ b.ledNum
  clipping : s.ranges.clippingStartPos.toNat + s.ranges.clippingNumLeds.toNat ≤ b.ledNum

def Lit (s : Underglow b) : Prop :=
  ∀ (i : Nat) (t : TwinkleState), fetch s.ledTwinkleState i = some t → t.life ≠ 0 → t.maxLife ≠ 0

structure Sound (s : Underglow b) : Prop where
  inRange : s.InRange
  lit : s.Lit

structure Keeps (s t : Underglow b) : Prop where
  ranges : t.ranges = s.ranges
  ledTwinkleState : t.ledTwinkleState = s.ledTwinkleState

theorem Keeps.refl (s : Underglow b) : Keeps s s :=
  ⟨rfl, rfl⟩

theorem Keeps.trans {s t u : Underglow b} (h : Keeps s t) (h' : Keeps t u) : Keeps s u :=
  ⟨h'.ranges.trans h.ranges, h'.ledTwinkleState.trans h.ledTwinkleState⟩

theorem Keeps.inRange {s t : Underglow b} (h : Keeps s t) (hs : s.InRange) : t.InRange := by
  obtain ⟨heffect, hend, hclipping⟩ := hs
  rw [← h.ranges] at heffect hend hclipping
  exact ⟨heffect, hend, hclipping⟩

theorem Keeps.lit {s t : Underglow b} (h : Keeps s t) (hs : s.Lit) : t.Lit := by
  unfold Lit
  rw [h.ledTwinkleState]
  exact hs

theorem Keeps.sound {s t : Underglow b} (h : Keeps s t) (hs : s.Sound) : t.Sound :=
  ⟨h.inRange hs.inRange, h.lit hs.lit⟩

/-! ### The LEDs -/

section

variable {s t : Underglow b}

def Draws (s t : Underglow b) : Prop :=
  ∃ led, t = { s with led := led }

theorem Draws.refl (s : Underglow b) : Draws s s :=
  ⟨s.led, rfl⟩

theorem Draws.trans {u : Underglow b} (h : Draws s t) (h' : Draws t u) : Draws s u := by
  obtain ⟨_, rfl⟩ := h
  obtain ⟨led, rfl⟩ := h'
  exact ⟨led, rfl⟩

theorem Draws.keeps (h : Draws s t) : Keeps s t := by
  obtain ⟨_, rfl⟩ := h
  exact ⟨rfl, rfl⟩

theorem draw_draws (count : Nat)
    (body : Nat → Vector Rgb b.ledNum → Option (Vector Rgb b.ledNum))
    (h : s.draw count body = some t) : Draws s t := by
  obtain ⟨led, _, rfl⟩ := Option.map_eq_some_iff.mp h
  exact ⟨led, rfl⟩

theorem callDriver_draws (h : s.callDriver = some t) : Draws s t :=
  draw_draws _ _ h

theorem set_draws (h : s.set = some t) : Draws s t := by
  obtain ⟨u, hu, ht⟩ := Option.bind_eq_some_iff.mp h
  refine Draws.trans ?_ (callDriver_draws ht)
  by_cases henable : s.light.config.enable
  · rw [if_pos henable] at hu
    cases hu
    exact Draws.refl s
  · rw [if_neg henable] at hu
    exact draw_draws _ _ hu

theorem bind_set_draws {x : Option (Underglow b)} (hx : ∀ u, x = some u → Draws s u)
    (h : x.bind set = some t) : Draws s t := by
  obtain ⟨u, hu, ht⟩ := Option.bind_eq_some_iff.mp h
  exact (hx u hu).trans (set_draws ht)

theorem setrgb_draws (rgb : Rgb) (h : s.setrgb rgb = some t) : Draws s t := by
  unfold setrgb at h
  by_cases henable : s.light.config.enable
  · rw [if_pos henable] at h
    exact bind_set_draws (fun _ => draw_draws _ _) h
  · rw [if_neg henable] at h
    cases h
    exact Draws.refl s

theorem sethsvOld_draws (hue sat val : Byte) (h : s.sethsvOld hue sat val = some t) :
    Draws s t := by
  unfold sethsvOld at h
  by_cases henable : s.light.config.enable
  · rw [if_pos henable] at h
    exact setrgb_draws _ h
  · rw [if_neg henable] at h
    cases h
    exact Draws.refl s

theorem draw_isSome (count : Nat)
    (body : Nat → Vector Rgb b.ledNum → Option (Vector Rgb b.ledNum)) :
    (s.draw count body).isSome ↔ (loop body count s.led).isSome := by
  unfold draw
  rw [Option.isSome_map]

theorem fill_isSome (h : s.InRange) (rgb : Rgb) : (s.fill rgb).isSome := by
  unfold fill
  rw [draw_isSome, loop_isSome_iff _ (fun i => s.ranges.effectStartPos.toNat + i < b.ledNum) _
    (fun i _ led => store_isSome_iff led _ rgb)]
  intro i hi
  have hend := h.effectEnd
  omega

theorem callDriver_isSome (h : s.InRange) : s.callDriver.isSome := by
  unfold callDriver
  rw [draw_isSome, loop_isSome_iff _ (fun i => s.ranges.clippingStartPos.toNat + i < b.ledNum) _
    (fun i _ led => by rw [Option.isSome_map, fetch_isSome_iff])]
  intro i hi
  have hclipping := h.clipping
  omega

theorem set_isSome (h : s.InRange) : s.set.isSome := by
  unfold set
  by_cases henable : s.light.config.enable
  · rw [if_pos henable]
    exact callDriver_isSome h
  · rw [if_neg henable, bind_isSome_iff_of (fun u hu => ?_)]
    · exact fill_isSome h black
    · exact callDriver_isSome ((draw_draws _ _ hu).keeps.inRange h)

theorem bind_set_isSome (h : s.InRange) {x : Option (Underglow b)}
    (hx : ∀ u, x = some u → Draws s u) : (x.bind set).isSome ↔ x.isSome :=
  bind_isSome_iff_of (fun u hu => set_isSome ((hx u hu).keeps.inRange h))

theorem setrgb_isSome (h : s.InRange) (rgb : Rgb) : (s.setrgb rgb).isSome := by
  unfold setrgb
  by_cases henable : s.light.config.enable
  · rw [if_pos henable, bind_set_isSome (x := s.fill rgb) h (fun _ => draw_draws _ _)]
    exact fill_isSome h rgb
  · rw [if_neg henable]
    rfl

theorem sethsvOld_isSome (h : s.InRange) (hue sat val : Byte) :
    (s.sethsvOld hue sat val).isSome := by
  unfold sethsvOld
  by_cases henable : s.light.config.enable
  · rw [if_pos henable]
    exact setrgb_isSome h _
  · rw [if_neg henable]
    rfl

theorem drawEach_isSome_iff (h : s.InRange) (rgb : Nat → Option Rgb) :
    (s.drawEach rgb).isSome ↔ ∀ i < s.ranges.effectNumLeds.toNat, (rgb i).isSome := by
  have heffect := h.effect
  unfold drawEach
  rw [draw_isSome]
  refine loop_isSome_iff _ (fun i => (rgb i).isSome) _ (fun i hi led => ?_) s.led
  refine bind_isSome_iff_of (fun color _ => (store_isSome_iff led _ color).mpr ?_)
  omega

theorem drawEach_set_isSome_iff (h : s.InRange) (rgb : Nat → Option Rgb) :
    ((s.drawEach rgb).bind set).isSome ↔
      ∀ i < s.ranges.effectNumLeds.toNat, (rgb i).isSome := by
  rw [bind_set_isSome (x := s.drawEach rgb) h (fun _ => draw_draws _ _), drawEach_isSome_iff h]

end

/-! ### The interface -/

section

variable {s t : Underglow b}

theorem gradientHue_isSome (hue : Byte) {i : Nat} (h : i < s.ranges.effectNumLeds.toNat) :
    (s.gradientHue hue i).isSome := by
  unfold gradientHue
  rw [Option.isSome_map, quotient_isSome_iff]
  omega

theorem showStatic_isSome (h : s.InRange) (hue sat val : Byte) :
    (s.showStatic hue sat val).isSome := by
  unfold showStatic
  split
  · exact setrgb_isSome h _
  · split
    · rw [drawEach_set_isSome_iff h]
      intro i hi
      rw [Option.isSome_map]
      exact gradientHue_isSome hue hi
    · rfl

theorem showStatic_draws (hue sat val : Byte) (h : s.showStatic hue sat val = some t) :
    Draws s t := by
  unfold showStatic at h
  split at h
  · exact setrgb_draws _ h
  · split at h
    · exact bind_set_draws (fun _ => draw_draws _ _) h
    · cases h
      exact Draws.refl s

theorem sethsv_isSome (h : s.InRange) (hue sat val : Byte) (write : Bool) :
    (s.sethsv hue sat val write).isSome := by
  unfold sethsv
  split
  · rw [Option.isSome_map]
    apply showStatic_isSome
    exact Keeps.inRange (s := s) ⟨rfl, rfl⟩ h
  · rfl

theorem sethsv_keeps (hue sat val : Byte) (write : Bool)
    (h : s.sethsv hue sat val write = some t) : Keeps s t := by
  unfold sethsv at h
  split at h
  · obtain ⟨u, hu, rfl⟩ := Option.map_eq_some_iff.mp h
    obtain ⟨hranges, hstates⟩ := (showStatic_draws hue sat val hu).keeps
    exact ⟨hranges, hstates⟩
  · cases h
    exact Keeps.refl s

theorem mode_isSome (h : s.InRange) (m : Byte) (write : Bool) : (s.mode m write).isSome := by
  unfold mode
  split
  · apply sethsv_isSome
    exact Keeps.inRange (s := s) ⟨rfl, rfl⟩ h
  · rfl

theorem mode_keeps (m : Byte) (write : Bool) (h : s.mode m write = some t) : Keeps s t := by
  unfold mode at h
  split at h
  · obtain ⟨hranges, hstates⟩ := sethsv_keeps _ _ _ _ h
    exact ⟨hranges, hstates⟩
  · cases h
    exact Keeps.refl s

theorem enable_isSome (h : s.InRange) (write : Bool) : (s.enable write).isSome := by
  unfold enable
  apply mode_isSome
  exact Keeps.inRange (s := s) ⟨rfl, rfl⟩ h

theorem enable_keeps (write : Bool) (h : s.enable write = some t) : Keeps s t := by
  obtain ⟨hranges, hstates⟩ := mode_keeps _ write h
  exact ⟨hranges, hstates⟩

theorem disable_isSome (h : s.InRange) (write : Bool) : (s.disable write).isSome := by
  unfold disable
  apply set_isSome
  exact Keeps.inRange (s := s) ⟨rfl, rfl⟩ h

theorem disable_keeps (write : Bool) (h : s.disable write = some t) : Keeps s t := by
  obtain ⟨hranges, hstates⟩ := (set_draws h).keeps
  exact ⟨hranges, hstates⟩

theorem reload_isSome (h : s.InRange) (stored : RgblightConfig) : (s.reload stored).isSome := by
  unfold reload
  dsimp only
  apply mode_isSome
  exact Keeps.inRange (s := s) ⟨rfl, rfl⟩ h

theorem reload_keeps (stored : RgblightConfig) (h : s.reload stored = some t) : Keeps s t := by
  obtain ⟨hranges, hstates⟩ := mode_keeps _ false h
  exact ⟨hranges, hstates⟩

theorem setEffectRange_inRange (h : s.InRange) (startPos numLeds : Byte) :
    (s.setEffectRange startPos numLeds).InRange := by
  unfold setEffectRange
  split
  · exact h
  · split
    · exact h
    · refine ⟨?_, ?_, h.clipping⟩
      · dsimp only
        omega
      · dsimp only
        rw [BitVec.toNat_add]
        omega

end

/-! ### The effects -/

section

variable {s t : Underglow b}

theorem setPos_keeps (pos : Byte) (s : Underglow b) : Keeps s (s.setPos pos) :=
  ⟨rfl, rfl⟩

theorem map_keeps {x : Option (Underglow b)} {f : Underglow b → Underglow b}
    (hx : ∀ u, x = some u → Draws s u) (hf : ∀ u, Keeps u (f u)) (h : x.map f = some t) :
    Keeps s t := by
  obtain ⟨u, hu, rfl⟩ := Option.map_eq_some_iff.mp h
  exact (hx u hu).keeps.trans (hf u)

theorem effectBreathing_isSome (h : s.InRange) : s.effectBreathing.isSome := by
  unfold effectBreathing
  rw [Option.isSome_map]
  exact sethsvOld_isSome h _ _ _

theorem effectBreathing_keeps (h : s.effectBreathing = some t) : Keeps s t :=
  map_keeps (fun _ => sethsvOld_draws _ _ _) (setPos_keeps _) h

theorem effectRainbowMood_isSome (h : s.InRange) : s.effectRainbowMood.isSome := by
  unfold effectRainbowMood
  rw [Option.isSome_map]
  exact sethsvOld_isSome h _ _ _

theorem effectRainbowMood_keeps (h : s.effectRainbowMood = some t) : Keeps s t :=
  map_keeps (fun _ => sethsvOld_draws _ _ _) (setPos_keeps _) h

theorem effectRainbowSwirl_isSome (h : s.InRange) : s.effectRainbowSwirl.isSome := by
  unfold effectRainbowSwirl
  rw [Option.isSome_map, drawEach_set_isSome_iff h]
  intro i hi
  rw [Option.isSome_map, quotient_isSome_iff]
  omega

theorem effectRainbowSwirl_keeps (h : s.effectRainbowSwirl = some t) : Keeps s t :=
  map_keeps (fun _ => bind_set_draws (fun _ => draw_draws _ _)) (setPos_keeps _) h

theorem effectAlternating_isSome (h : s.InRange) : s.effectAlternating.isSome := by
  unfold effectAlternating
  dsimp only
  rw [Option.isSome_map, drawEach_set_isSome_iff h]
  exact fun _ _ => rfl

theorem effectAlternating_keeps (h : s.effectAlternating = some t) : Keeps s t :=
  map_keeps (fun _ => bind_set_draws (fun _ => draw_draws _ _)) (setPos_keeps _) h

theorem effectRgbtest_isSome (h : s.InRange) : s.effectRgbtest.isSome := by
  unfold effectRgbtest
  dsimp only
  rw [Option.isSome_map]
  apply setrgb_isSome
  exact Keeps.inRange (s := s) ⟨rfl, rfl⟩ h

theorem effectRgbtest_keeps (h : s.effectRgbtest = some t) : Keeps s t := by
  obtain ⟨hranges, hstates⟩ := map_keeps (fun _ => setrgb_draws _) (setPos_keeps _) h
  exact ⟨hranges, hstates⟩

/-! ### The snake -/

theorem snakeRestart_keeps (s : Underglow b) : Keeps s s.snakeRestart := by
  unfold snakeRestart
  split
  · exact ⟨rfl, rfl⟩
  · exact Keeps.refl s

theorem snakeRestart_odd (s : Underglow b) : s.snakeRestart.odd = s.odd := by
  unfold snakeRestart
  split <;> rfl

theorem snakeAt_isSome (s : Underglow b) (i j : Nat) : (s.snakeAt i j).isSome := by
  unfold snakeAt
  dsimp only
  rw [Option.isSome_map]
  generalize (if s.odd then s.snakePos - BitVec.ofNat 8 j
    else s.snakePos + BitVec.ofNat 8 j) = k
  split
  · rw [Option.isSome_map, remainder_isSome_iff]
    exact Nat.ne_of_gt b.ledNum_pos
  · rfl

theorem snakeColor_isSome (s : Underglow b) {j : Nat} (h : j < b.snakeLength.toNat) :
    (s.snakeColor j).isSome := by
  unfold snakeColor
  rw [Option.isSome_map, quotient_isSome_iff]
  omega

theorem snakeParts_isSome (h : s.InRange) {i : Nat} (hi : i < s.ranges.effectNumLeds.toNat)
    (led : Vector Rgb b.ledNum) : (s.snakeParts i led).isSome := by
  have heffect := h.effect
  unfold snakeParts
  refine (loop_isSome_iff _ (fun _ => True) _ (fun j hj led => ?_) led).mpr (fun _ _ => trivial)
  refine bind_isSome_iff_right (s.snakeAt_isSome i j) (fun here _ => iff_of_true ?_ trivial)
  cases here with
  | true =>
    obtain ⟨color, hcolor⟩ := Option.isSome_iff_exists.mp (s.snakeColor_isSome hj)
    rw [if_pos rfl, hcolor, Option.bind_some, store_isSome_iff]
    omega
  | false => rfl

theorem snakeMove_isSome_iff (s : Underglow b) :
    s.snakeMove.isSome ↔ (s.odd → s.ranges.effectNumLeds.toNat ≠ 0) := by
  unfold snakeMove
  cases s.odd with
  | true =>
    rw [if_pos rfl, Option.isSome_map, remainder_isSome_iff]
    exact ⟨fun hne _ => hne, fun hne => hne rfl⟩
  | false =>
    rw [if_neg Bool.false_ne_true]
    refine iff_of_true ?_ (fun hodd => Bool.noConfusion hodd)
    split <;> rfl

theorem snakeMove_keeps (h : s.snakeMove = some t) : Keeps s t := by
  unfold snakeMove at h
  split at h
  · obtain ⟨pos, _, rfl⟩ := Option.map_eq_some_iff.mp h
    exact ⟨rfl, rfl⟩
  · split at h
    · cases h
      exact ⟨rfl, rfl⟩
    · cases h
      exact ⟨rfl, rfl⟩

theorem effectSnake_isSome_iff (h : s.InRange) :
    s.effectSnake.isSome ↔ (s.odd → s.ranges.effectNumLeds.toNat ≠ 0) := by
  have hr := s.snakeRestart_keeps.inRange h
  have heffect := hr.effect
  unfold effectSnake
  dsimp only
  refine bind_isSome_iff_right ?_ (fun u hu => ?_)
  · rw [bind_set_isSome hr (fun _ => draw_draws _ _), draw_isSome]
    refine (loop_isSome_iff _ (fun _ => True) _ (fun i hi led => ?_) _).mpr (fun _ _ => trivial)
    refine bind_isSome_iff_right ((store_isSome_iff led _ black).mpr (by omega))
      (fun led' _ => iff_of_true (snakeParts_isSome hr hi led') trivial)
  · obtain ⟨led, rfl⟩ := bind_set_draws (fun _ => draw_draws _ _) hu
    refine (snakeMove_isSome_iff _).trans ?_
    change (s.snakeRestart.odd → s.snakeRestart.ranges.effectNumLeds.toNat ≠ 0) ↔ _
    rw [snakeRestart_odd, s.snakeRestart_keeps.ranges]

theorem effectSnake_keeps (h : s.effectSnake = some t) : Keeps s t := by
  obtain ⟨u, hu, ht⟩ := Option.bind_eq_some_iff.mp h
  exact (s.snakeRestart_keeps.trans (bind_set_draws (fun _ => draw_draws _ _) hu).keeps).trans
    (snakeMove_keeps ht)

/-! ### The knight -/

theorem knightRestart_keeps (s : Underglow b) : Keeps s s.knightRestart := by
  unfold knightRestart
  split
  · exact ⟨rfl, rfl⟩
  · exact Keeps.refl s

theorem knightNum_congr (h : Keeps s t) : t.knightNum = s.knightNum := by
  unfold knightNum
  rw [h.ranges]

theorem knightDraw_isSome_iff (h : s.InRange) :
    s.knightDraw.isSome ↔
      (s.knightNum.toNat ≠ 0 → s.ranges.effectNumLeds.toNat ≠ 0) := by
  have heffect := h.effect
  unfold knightDraw
  rw [draw_isSome,
    loop_isSome_iff _ (fun _ => s.ranges.effectNumLeds.toNat ≠ 0) _ (fun i _ led => ?_)]
  · constructor
    · intro hall hnum
      exact hall 0 (Nat.pos_of_ne_zero hnum)
    · intro hne i hi
      exact hne (by omega)
  · refine (bind_isSome_iff_of (fun r hr => ?_)).trans (remainder_isSome_iff _ _)
    have hlt := remainder_lt hr
    rw [store_isSome_iff]
    exact Nat.lt_of_le_of_lt (Nat.mod_le _ _) (by omega)

theorem effectKnight_isSome_iff (h : s.InRange) :
    s.effectKnight.isSome ↔
      (s.knightNum.toNat ≠ 0 → s.ranges.effectNumLeds.toNat ≠ 0) := by
  have hr := s.knightRestart_keeps.inRange h
  unfold effectKnight
  rw [Option.isSome_map]
  have hdraws : ∀ u, (s.knightRestart.fill black).bind knightDraw = some u →
      Draws s.knightRestart u := by
    intro u hu
    obtain ⟨v, hv, hu⟩ := Option.bind_eq_some_iff.mp hu
    exact (draw_draws _ _ hv).trans (draw_draws _ _ hu)
  rw [bind_set_isSome hr hdraws]
  refine bind_isSome_iff_right (fill_isSome hr black) (fun u hu => ?_)
  have hkeeps := s.knightRestart_keeps.trans (draw_draws _ _ hu).keeps
  rw [knightDraw_isSome_iff (hkeeps.inRange h), knightNum_congr hkeeps, hkeeps.ranges]

theorem effectKnight_keeps (h : s.effectKnight = some t) : Keeps s t := by
  obtain ⟨u, hu, rfl⟩ := Option.map_eq_some_iff.mp h
  obtain ⟨v, hv, hu⟩ := Option.bind_eq_some_iff.mp hu
  obtain ⟨w, hw, hv⟩ := Option.bind_eq_some_iff.mp hv
  have hshown := (draw_draws _ _ hw).trans ((draw_draws _ _ hv).trans (set_draws hu))
  obtain ⟨hranges, hstates⟩ := s.knightRestart_keeps.trans hshown.keeps
  exact ⟨hranges, hstates⟩

/-! ### The Christmas lights -/

theorem cubes_ne_zero : ∀ p < 256,
    (cubed (BitVec.ofNat 32 p) + cubed (32 - BitVec.ofNat 32 p)).toNat ≠ 0 := by
  decide +kernel

theorem christmasHue_isSome (pos : Byte) : (christmasHue pos).isSome := by
  unfold christmasHue
  dsimp only
  rw [Option.isSome_map, quotient_isSome_iff, ← BitVec.ofNat_toNat]
  exact cubes_ne_zero pos.toNat pos.isLt

theorem effectChristmas_isSome_iff (h : s.InRange) :
    s.effectChristmas.isSome ↔ (s.ranges.effectNumLeds.toNat ≠ 0 → b.christmasStep ≠ 0) := by
  unfold effectChristmas
  refine bind_isSome_iff_right (christmasHue_isSome _) (fun hue _ => ?_)
  rw [Option.isSome_map, drawEach_set_isSome_iff h]
  simp only [Option.isSome_map, quotient_isSome_iff]
  constructor
  · intro hall hnum
    exact hall 0 (Nat.pos_of_ne_zero hnum)
  · intro hne i hi
    exact hne (by omega)

theorem effectChristmas_keeps (h : s.effectChristmas = some t) : Keeps s t := by
  obtain ⟨hue, _, h⟩ := Option.bind_eq_some_iff.mp h
  refine map_keeps ?_ (fun u => ?_) h
  · exact fun _ => bind_set_draws (fun _ => draw_draws _ _)
  · exact ⟨rfl, rfl⟩

end

/-! ### Twinkle -/

section

variable {s t : Underglow b}

/-- An LED does not divide by zero: it is on and the curve is not flat, or it is not given a
    random color with a saturation below 2. -/
def TwinkleSafe (rand : TwinkleRand) (state : TwinkleState) (s : Underglow b) : Prop :=
  if state.life ≠ 0 then b.breatheCalc 127 ≠ b.breatheCalc 0
  else s.selected rand = true → s.randomColor = true → 2 ≤ s.light.config.sat.toNat

theorem frac_isSome_iff (a d : Byte) : (frac a d).isSome ↔ d ≠ 0 := by
  unfold frac
  rw [Option.isSome_map, quotient_isSome_iff, not_iff_not]
  exact ⟨fun h => BitVec.eq_of_toNat_eq h, fun h => by rw [h]; rfl⟩

theorem twinkleVal_isSome_iff (s : Underglow b) (life : Byte) {maxLife : Byte}
    (h : maxLife ≠ 0) :
    (s.twinkleVal life maxLife).isSome ↔ b.breatheCalc 127 ≠ b.breatheCalc 0 := by
  unfold twinkleVal
  refine bind_isSome_iff_right ((frac_isSome_iff life maxLife).mpr h) (fun pos _ => ?_)
  rw [Option.isSome_map, frac_isSome_iff, Ne, sub_eq_zero]

theorem twinkleHsv_isSome_iff (s : Underglow b) (rand : TwinkleRand) (hsv : Hsv) :
    (s.twinkleHsv rand hsv).isSome ↔ (s.randomColor → 2 ≤ s.light.config.sat.toNat) := by
  unfold twinkleHsv
  cases s.randomColor with
  | true =>
    dsimp only
    rw [if_pos rfl, Option.isSome_map, remainder_isSome_iff, forall_prop_of_true rfl]
    omega
  | false => exact iff_of_true rfl (fun hrandom => Bool.noConfusion hrandom)

theorem twinkle_isSome_iff (s : Underglow b) (restart : Bool) (rand : TwinkleRand)
    {state : TwinkleState} (hlit : state.life ≠ 0 → state.maxLife ≠ 0) :
    (s.twinkle restart rand state).isSome ↔ (restart = false → s.TwinkleSafe rand state) := by
  unfold twinkle TwinkleSafe
  dsimp only
  cases restart with
  | true => exact iff_of_true rfl (fun hrestart => Bool.noConfusion hrestart)
  | false =>
    rw [if_neg Bool.false_ne_true]
    by_cases hlife : state.life ≠ 0
    · rw [if_pos hlife, if_pos hlife, Option.isSome_map, twinkleVal_isSome_iff s _ (hlit hlife)]
      exact ⟨fun hflat _ => hflat, fun hflat => hflat rfl⟩
    · rw [if_neg hlife, if_neg hlife]
      cases s.selected rand with
      | true =>
        rw [if_pos rfl, Option.isSome_map, twinkleHsv_isSome_iff]
        exact ⟨fun hsat _ _ => hsat, fun hsat => hsat rfl rfl⟩
      | false => exact iff_of_true rfl (fun _ hselected => Bool.noConfusion hselected)

theorem twinkle_lit (s : Underglow b) (restart : Bool) (rand : TwinkleRand)
    {state state' : TwinkleState} (hlit : state.life ≠ 0 → state.maxLife ≠ 0)
    (h : s.twinkle restart rand state = some state') : state'.life ≠ 0 → state'.maxLife ≠ 0 := by
  unfold twinkle at h
  dsimp only at h
  split at h
  · cases h
    exact fun hlife => absurd rfl hlife
  · split at h
    · rename_i hlife
      obtain ⟨val, _, rfl⟩ := Option.map_eq_some_iff.mp h
      exact fun _ => hlit hlife
    · split at h
      · obtain ⟨hsv, _, rfl⟩ := Option.map_eq_some_iff.mp h
        exact fun hlife => hlife
      · cases h
        exact hlit

theorem twinkleTurn_spec {restart : Bool} {rand : Nat → TwinkleRand} {i : Nat}
    {done done' : Vector TwinkleState b.ledNum × Vector Rgb b.ledNum}
    (h : s.twinkleTurn restart rand i done = some done') :
    ∃ state state', fetch done.1 i = some state ∧
      s.twinkle restart (rand i) state = some state' ∧
      ∀ j, fetch done'.1 j = if i = j then some state' else fetch done.1 j := by
  unfold twinkleTurn at h
  obtain ⟨state, hstate, h⟩ := Option.bind_eq_some_iff.mp h
  obtain ⟨state', htwinkle, h⟩ := Option.bind_eq_some_iff.mp h
  obtain ⟨states, hstore, h⟩ := Option.bind_eq_some_iff.mp h
  obtain ⟨led, _, rfl⟩ := Option.map_eq_some_iff.mp h
  exact ⟨state, state', hstate, htwinkle, fetch_store hstore⟩

theorem twinkleTurn_isSome_iff (h : s.InRange) (restart : Bool) (rand : Nat → TwinkleRand) {i : Nat}
    (hi : i < s.ranges.effectNumLeds.toNat)
    (done : Vector TwinkleState b.ledNum × Vector Rgb b.ledNum) {state : TwinkleState}
    (hstate : fetch done.1 i = some state) (hlit : state.life ≠ 0 → state.maxLife ≠ 0) :
    (s.twinkleTurn restart rand i done).isSome ↔
      (restart = false → s.TwinkleSafe (rand i) state) := by
  have heffect := h.effect
  unfold twinkleTurn
  rw [hstate, Option.bind_some]
  refine (bind_isSome_iff_of (fun state' _ => ?_)).trans
    (s.twinkle_isSome_iff restart (rand i) hlit)
  refine (bind_isSome_iff_right ((store_isSome_iff done.1 i state').mpr (by omega))
    (fun states _ => iff_of_true ?_ trivial)).mpr trivial
  rw [Option.isSome_map, store_isSome_iff]
  omega

theorem effectTwinkle_isSome_iff (h : s.Sound) (rand : Nat → TwinkleRand) :
    (s.effectTwinkle rand).isSome ↔
      (s.animation.pos ≠ 0 → ∀ i < s.ranges.effectNumLeds.toNat, ∀ state,
        fetch s.ledTwinkleState i = some state → s.TwinkleSafe (rand i) state) := by
  have hin := h.inRange
  have heffect := hin.effect
  have hpos := (setPos_keeps 1 s).inRange hin
  unfold effectTwinkle
  dsimp only
  refine (bind_isSome_iff_of (fun u hu => ?_)).trans ?_
  · obtain ⟨done, _, rfl⟩ := Option.map_eq_some_iff.mp hu
    apply set_isSome
    exact ⟨hin.effect, hin.effectEnd, hin.clipping⟩
  · rw [Option.isSome_map]
    -- the turns that are left find their states as they were
    refine (loop_isSome_iff_of _
      (fun i done => ∀ j, i ≤ j → fetch done.1 j = fetch s.ledTwinkleState j)
      (fun i => s.animation.pos ≠ 0 → ∀ state, fetch s.ledTwinkleState i = some state →
        s.TwinkleSafe (rand i) state) _ (fun i hi done hsame => ?_)
      (fun i _ done done' hsame hturn j hj => ?_) _ (fun _ _ => rfl)).trans
      ⟨fun hall hne i hi => hall i hi hne, fun hall i hi hne => hall hne i hi⟩
    · have hfetch : (fetch s.ledTwinkleState i).isSome := by
        rw [fetch_isSome_iff]
        change i < s.ranges.effectNumLeds.toNat at hi
        omega
      obtain ⟨state, hstate⟩ := Option.isSome_iff_exists.mp hfetch
      refine (twinkleTurn_isSome_iff hpos _ rand hi done ((hsame i (Nat.le_refl i)).trans hstate)
        (h.lit i state hstate)).trans ?_
      rw [decide_eq_false_iff_not]
      constructor
      · intro hsafe hne state' hstate'
        rw [hstate] at hstate'
        cases hstate'
        exact hsafe hne
      · intro hsafe hne
        exact hsafe hne state hstate
    · obtain ⟨_, _, _, _, hnext⟩ := twinkleTurn_spec hturn
      rw [hnext j, if_neg (by omega)]
      exact hsame j (by omega)

theorem effectTwinkle_sound (h : s.Sound) {rand : Nat → TwinkleRand}
    (ht : s.effectTwinkle rand = some t) : t.Sound := by
  obtain ⟨u, hu, ht⟩ := Option.bind_eq_some_iff.mp ht
  refine (set_draws ht).keeps.sound ?_
  obtain ⟨done, hdone, rfl⟩ := Option.map_eq_some_iff.mp hu
  refine ⟨⟨h.inRange.effect, h.inRange.effectEnd, h.inRange.clipping⟩, ?_⟩
  refine loop_invariant _ (fun _ (done : Vector TwinkleState b.ledNum × Vector Rgb b.ledNum) =>
    ∀ (i : Nat) (state : TwinkleState), fetch done.1 i = some state → state.life ≠ 0 →
      state.maxLife ≠ 0) _
    (fun i _ done done' hlit hturn j state hstate => ?_) (s.ledTwinkleState, s.led) _ h.lit hdone
  obtain ⟨old, new, hold, hnew, hnext⟩ := twinkleTurn_spec hturn
  rw [hnext j] at hstate
  by_cases hij : i = j
  · rw [if_pos hij] at hstate
    cases hstate
    exact twinkle_lit _ _ _ (hlit i old hold) hnew
  · rw [if_neg hij] at hstate
    exact hlit j state hstate

end

/-! ### An event -/

section

variable {s t : Underglow b}

/-- An effect does not divide by zero. -/
def EffectSafe (rand : Nat → TwinkleRand) (e : Option RgblightEffect) (s : Underglow b) : Prop :=
  match e with
  | some .snake => s.odd = true → s.ranges.effectNumLeds.toNat ≠ 0
  | some .knight => s.knightNum.toNat ≠ 0 → s.ranges.effectNumLeds.toNat ≠ 0
  | some .christmas => s.ranges.effectNumLeds.toNat ≠ 0 → b.christmasStep ≠ 0
  | some .twinkle =>
    s.animation.pos ≠ 0 → ∀ i < s.ranges.effectNumLeds.toNat, ∀ state,
      fetch s.ledTwinkleState i = some state → s.TwinkleSafe (rand i) state
  | _ => True

/-- An event does not divide by zero: only `rgblight_task` can, when it calls an effect. -/
def Safe (s : Underglow b) (e : UnderglowEvent) : Prop :=
  match e with
  | .task now rand =>
    s.light.timerEnabled = true →
      timerExpired now (s.prepare now).animation.lastTimer = true →
        (s.prepare now).EffectSafe rand (b.effectAt s.baseMode)
  | _ => True

theorem effect_isSome_iff (h : s.Sound) (rand : Nat → TwinkleRand) (e : Option RgblightEffect) :
    (s.effect rand e).isSome ↔ s.EffectSafe rand e := by
  have hin := h.inRange
  cases e with
  | none => exact iff_of_true rfl trivial
  | some e =>
    cases e with
    | staticLight => exact iff_of_true rfl trivial
    | breathing => exact iff_of_true (effectBreathing_isSome hin) trivial
    | rainbowMood => exact iff_of_true (effectRainbowMood_isSome hin) trivial
    | rainbowSwirl => exact iff_of_true (effectRainbowSwirl_isSome hin) trivial
    | snake => exact effectSnake_isSome_iff hin
    | knight => exact effectKnight_isSome_iff hin
    | christmas => exact effectChristmas_isSome_iff hin
    | staticGradient => exact iff_of_true rfl trivial
    | rgbTest => exact iff_of_true (effectRgbtest_isSome hin) trivial
    | alternating => exact iff_of_true (effectAlternating_isSome hin) trivial
    | twinkle => exact effectTwinkle_isSome_iff h rand

theorem effect_sound (h : s.Sound) (rand : Nat → TwinkleRand) (e : Option RgblightEffect)
    (ht : s.effect rand e = some t) : t.Sound := by
  cases e with
  | none =>
    cases ht
    exact h
  | some e =>
    cases e with
    | staticLight =>
      cases ht
      exact h
    | breathing => exact (effectBreathing_keeps ht).sound h
    | rainbowMood => exact (effectRainbowMood_keeps ht).sound h
    | rainbowSwirl => exact (effectRainbowSwirl_keeps ht).sound h
    | snake => exact (effectSnake_keeps ht).sound h
    | knight => exact (effectKnight_keeps ht).sound h
    | christmas => exact (effectChristmas_keeps ht).sound h
    | staticGradient =>
      cases ht
      exact h
    | rgbTest => exact (effectRgbtest_keeps ht).sound h
    | alternating => exact (effectAlternating_keeps ht).sound h
    | twinkle => exact effectTwinkle_sound h ht

theorem effectSafe_lastTimer (lastTimer : BitVec 16) (rand : Nat → TwinkleRand)
    (e : Option RgblightEffect) :
    { s with animation := { s.animation with lastTimer := lastTimer } }.EffectSafe rand e ↔
      s.EffectSafe rand e := by
  cases e with
  | none => exact Iff.rfl
  | some e => cases e <;> exact Iff.rfl

theorem prepare_keeps (now : BitVec 16) (s : Underglow b) : Keeps s (s.prepare now) := by
  unfold prepare
  dsimp only
  split
  · exact ⟨rfl, rfl⟩
  · exact ⟨rfl, rfl⟩

theorem prepare_baseMode (now : BitVec 16) (s : Underglow b) :
    (s.prepare now).baseMode = s.baseMode := by
  unfold prepare
  dsimp only
  split <;> rfl

theorem prepare_sound (now lastTimer : BitVec 16) (h : s.Sound) :
    ({ s.prepare now with
      animation := { (s.prepare now).animation with lastTimer := lastTimer } } :
        Underglow b).Sound :=
  Keeps.sound (s := s.prepare now) ⟨rfl, rfl⟩ ((prepare_keeps now s).sound h)

theorem task_isSome_iff (h : s.Sound) (now : BitVec 16) (rand : Nat → TwinkleRand) :
    (s.task now rand).isSome ↔ s.Safe (.task now rand) := by
  unfold task Safe
  dsimp only
  by_cases henabled : s.light.timerEnabled
  · rw [if_pos henabled, forall_prop_of_true henabled]
    by_cases hexpired : timerExpired now (s.prepare now).animation.lastTimer
    · rw [if_pos hexpired, forall_prop_of_true hexpired,
        effect_isSome_iff (prepare_sound now _ h), effectSafe_lastTimer, prepare_baseMode]
    · rw [if_neg hexpired]
      exact iff_of_true rfl (fun hdue => absurd hdue hexpired)
  · rw [if_neg henabled]
    exact iff_of_true rfl (fun htimer => absurd htimer henabled)

theorem task_sound (h : s.Sound) (now : BitVec 16) (rand : Nat → TwinkleRand)
    (ht : s.task now rand = some t) : t.Sound := by
  unfold task at ht
  dsimp only at ht
  split at ht
  · split at ht
    · exact effect_sound (prepare_sound now _ h) rand _ ht
    · cases ht
      exact (prepare_keeps now s).sound h
  · cases ht
    exact h

theorem step_isSome_iff (h : s.Sound) (e : UnderglowEvent) : (s.step e).isSome ↔ s.Safe e := by
  have hin := h.inRange
  cases e with
  | setEffectRange startPos numLeds => exact iff_of_true rfl trivial
  | mode m write => exact iff_of_true (mode_isSome hin m write) trivial
  | sethsv hue sat val write => exact iff_of_true (sethsv_isSome hin hue sat val write) trivial
  | enable write => exact iff_of_true (enable_isSome hin write) trivial
  | disable write => exact iff_of_true (disable_isSome hin write) trivial
  | reload stored => exact iff_of_true (reload_isSome hin stored) trivial
  | timerEnable now => exact iff_of_true rfl trivial
  | timerDisable => exact iff_of_true rfl trivial
  | task now rand => exact task_isSome_iff h now rand

theorem step_sound (h : s.Sound) (e : UnderglowEvent) (ht : s.step e = some t) : t.Sound := by
  cases e with
  | setEffectRange startPos numLeds =>
    cases ht
    refine ⟨setEffectRange_inRange h.inRange startPos numLeds, ?_⟩
    unfold setEffectRange
    split
    · exact h.lit
    · split
      · exact h.lit
      · exact h.lit
  | mode m write => exact (mode_keeps m write ht).sound h
  | sethsv hue sat val write => exact (sethsv_keeps hue sat val write ht).sound h
  | enable write => exact (enable_keeps write ht).sound h
  | disable write => exact (disable_keeps write ht).sound h
  | reload stored => exact (reload_keeps stored ht).sound h
  | timerEnable now =>
    cases ht
    exact Keeps.sound (s := s) ⟨rfl, rfl⟩ h
  | timerDisable =>
    cases ht
    exact Keeps.sound (s := s) ⟨rfl, rfl⟩ h
  | task now rand => exact task_sound h now rand ht

theorem init_sound : (init : Underglow b).Sound := by
  have hnum : (BitVec.ofNat 8 b.ledNum).toNat ≤ b.ledNum := by
    rw [BitVec.toNat_ofNat]
    exact Nat.mod_le _ _
  refine ⟨⟨?_, hnum, ?_⟩, fun i state hstate hlife => ?_⟩
  · exact (Nat.zero_add _).trans_le hnum
  · exact (Nat.zero_add _).trans_le hnum
  · -- no LED twinkles yet
    have hi : i < b.ledNum :=
      (fetch_isSome_iff (init : Underglow b).ledTwinkleState i).mp (by rw [hstate]; rfl)
    unfold init at hstate
    rw [fetch_replicate _ i hi] at hstate
    cases hstate
    exact absurd rfl hlife

end

end Underglow

/-- From power-up no access is outside the LEDs and nothing is divided by zero if and only if
    no effect that is called divides by the length of an empty range, by the height of a flat
    curve, or by half of a saturation below 2. -/
theorem underglow_safe_iff (b : UnderglowBuild) (events : List UnderglowEvent) :
    (events.foldlM Underglow.step (Underglow.init : Underglow b)).isSome ↔
      AlongTo Underglow.step Underglow.Safe (Underglow.init : Underglow b) events :=
  foldlM_isSome_iff Underglow.step Underglow.Safe Underglow.Sound
    (fun _ e _ h ht => Underglow.step_sound h e ht)
    (fun _ e h => Underglow.step_isSome_iff h e) events Underglow.init Underglow.init_sound

/-- The range is empty, and a snake that goes up is in it. -/
theorem underglow_divides_by_zero :
    ¬ ((([.reload { enable := true, mode := 16, hue := 0, sat := 255, val := 255, speed := 0 },
        .setEffectRange 0 0, .task 0 (fun _ => { chosen := 0, hue := 0, sat := 0 })] :
          List UnderglowEvent).foldlM Underglow.step
            (Underglow.init : Underglow
              (.defaults 16 (Nat.le_of_ble_eq_true rfl)))).isSome = true) := by
  decide +kernel

end K530
