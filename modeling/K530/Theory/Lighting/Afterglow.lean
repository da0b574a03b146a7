import K530.Theory.Lighting.Chunks
import K530.Theory.Lighting.Idle

/-!
# The Afterglow

A key is lit while it is held and for half a second after, and what is left of that is a
time of sixteen bits, in which zero says that there is none. The time is taken back when a
call finds the key faded, and only then.

So there are two ways to go wrong. A release in the one millisecond of sixty-five seconds
whose time is zero leaves no time. And a time that no call has taken back comes round: if
the lighting is off when the key fades, and goes on again about sixty-five seconds after
the release, the key fades a second time.

`Light` is what a key's light should be, told from the events alone. `InTime` is the
condition on a call, for each LED it goes over, and a run shows what it should exactly
when its calls meet it.

## Main definitions

* `Light`, `Light.Lit`: What is to be seen of a key.

## Theorems

* `fadeKeys_entry`, `painted_iff`: What a call does to one LED.
* `reaction_faithful_iff`: When all calls of a run are right.
-/

namespace K530

namespace Indicators

open StepRun

/-! ### One LED -/

def entryPaints (now : BitVec 32) (held : Bool) (pressTime : BitVec 16) : Prop :=
  held = true ∨ pressTime ≠ 0 ∧
    (World.timerRead now - pressTime).toNat < keyReactiveDuration

def entryAfter (now : BitVec 32) (held : Bool) (pressTime : BitVec 16) : BitVec 16 :=
  if held = false ∧ (World.timerRead now - pressTime).toNat ≥ keyReactiveDuration then 0
  else pressTime

instance (now : BitVec 32) (held : Bool) (pressTime : BitVec 16) :
    Decidable (entryPaints now held pressTime) :=
  inferInstanceAs (Decidable (_ ∨ _))

theorem reactiveTurn_spec (now : BitVec 32) (s : Reactive) (i : Fin 63) :
    (reactiveTurn now s i).1.keyHeld = s.keyHeld ∧
      (∀ j : Fin 63, (reactiveTurn now s i).1.keyPressTime.get j =
        if j = i then entryAfter now (s.keyHeld.get i) (s.keyPressTime.get i)
        else s.keyPressTime.get j) ∧
      ((∃ w ∈ (reactiveTurn now s i).2, w.index = i.val) ↔
        entryPaints now (s.keyHeld.get i) (s.keyPressTime.get i)) := by
  have hsame : ∀ j : Fin 63,
      s.keyPressTime.get j = if j = i then s.keyPressTime.get i else s.keyPressTime.get j := by
    intro j
    split
    · next hj => rw [hj]
    · rfl
  have hone : ∀ color : Rgb, ∃ w ∈ ([{ index := i, value := color }] : List Paint),
      w.index = i.val := fun color => ⟨_, List.mem_singleton_self _, rfl⟩
  unfold reactiveTurn entryPaints entryAfter
  dsimp only
  by_cases hheld : s.keyHeld.get i
  · rw [if_pos hheld]
    refine ⟨rfl, fun j => ?_, iff_of_true (hone rgbWhite) (Or.inl hheld)⟩
    have hkept : (if s.keyHeld.get i = false ∧
        (World.timerRead now - s.keyPressTime.get i).toNat ≥ keyReactiveDuration then 0
        else s.keyPressTime.get i) = s.keyPressTime.get i :=
      if_neg (fun h => absurd (hheld.symm.trans h.1) (by decide))
    rw [hkept]
    exact hsame j
  · have hfree : s.keyHeld.get i = false := Bool.eq_false_iff.mpr hheld
    rw [if_neg hheld]
    by_cases htime : s.keyPressTime.get i = 0
    · rw [if_neg (not_not.mpr htime)]
      refine ⟨rfl, fun j => ?_, iff_of_false (by simp) (by simp [hfree, htime])⟩
      rw [← htime, ite_self]
      exact hsame j
    · rw [if_pos htime]
      by_cases hfresh : (World.timerRead now - s.keyPressTime.get i).toNat < keyReactiveDuration
      · rw [if_pos hfresh, if_neg (by omega)]
        exact ⟨rfl, hsame, iff_of_true (hone _) (Or.inr ⟨htime, hfresh⟩)⟩
      · rw [if_neg hfresh, if_pos ⟨hfree, Nat.not_lt.mp hfresh⟩]
        refine ⟨rfl, fun j => ?_, iff_of_false (by simp) (fun h => ?_)⟩
        · by_cases hj : j = i
          · rw [if_pos hj, hj]
            exact Vector.getElem_setIfInBounds_self i.isLt
          · rw [if_neg hj]
            exact Vector.getElem_setIfInBounds_ne j.isLt (fun h => hj (Fin.ext h.symm))
        · rcases h with h | h
          · exact hheld h
          · exact hfresh h.2

theorem reactive_loop_spec (now : BitVec 32) (leds : List (Fin 63)) (hleds : leds.Nodup) :
    ∀ s : Reactive, (run (next (reactiveTurn now)) s leds).keyHeld = s.keyHeld ∧
      (∀ j : Fin 63, (run (next (reactiveTurn now)) s leds).keyPressTime.get j =
        if j ∈ leds then entryAfter now (s.keyHeld.get j) (s.keyPressTime.get j)
        else s.keyPressTime.get j) ∧
      ∀ j : Fin 63, (∃ w ∈ (trace (reactiveTurn now) s leds).flatten, w.index = j.val) ↔
        j ∈ leds ∧ entryPaints now (s.keyHeld.get j) (s.keyPressTime.get j) := by
  induction leds with
  | nil =>
    intro s
    simp only [run_nil, trace, List.flatten_nil, List.not_mem_nil, if_false, false_and,
      exists_false, implies_true, and_self]
  | cons i leds ih =>
    intro s
    obtain ⟨hi, hleds⟩ := List.nodup_cons.mp hleds
    obtain ⟨hheld, htime, hpaint⟩ := reactiveTurn_spec now s i
    obtain ⟨hheld', htime', hpaint'⟩ := ih hleds (reactiveTurn now s i).1
    refine ⟨hheld'.trans hheld, fun j => ?_, fun j => ?_⟩
    · rw [run_cons, next, htime', hheld, htime]
      by_cases hj : j = i
      · rw [if_neg (hj ▸ hi), if_pos hj, if_pos (hj ▸ List.mem_cons_self), hj]
      · simp only [List.mem_cons, hj, false_or, if_false]
    · rw [trace, List.flatten_cons]
      simp only [List.mem_append, or_and_right, exists_or, hpaint', hheld, htime]
      by_cases hj : j = i
      · rw [hj, hpaint]
        simp only [hi, false_and, or_false, List.mem_cons_self, true_and]
      · have hother : ¬ ∃ w ∈ (reactiveTurn now s i).2, w.index = j.val := by
          rintro ⟨w, hw, hindex⟩
          exact hj (Fin.ext (hindex.symm.trans (reactiveTurn_index now s i w hw)))
        simp only [hother, List.mem_cons, hj, if_false, false_or]

theorem nodup_ledRange (a b : Nat) : (ledRange a b).Nodup :=
  (List.nodup_finRange 63).filter _

theorem fadeKeys_entry (a b : Nat) (now : BitVec 32) (s : Reactive) (j : Fin 63) :
    (fadeKeys a b now s).keyHeld = s.keyHeld ∧
      (fadeKeys a b now s).keyPressTime.get j =
        if a ≤ j.val ∧ j.val < b then entryAfter now (s.keyHeld.get j) (s.keyPressTime.get j)
        else s.keyPressTime.get j := by
  obtain ⟨hheld, htime, -⟩ := reactive_loop_spec now (ledRange a b) (nodup_ledRange a b) s
  refine ⟨hheld, (htime j).trans ?_⟩
  simp only [mem_ledRange]

theorem painted_iff (a b : Nat) (now : BitVec 32) (s : Reactive) (j : Fin 63) :
    (∃ w ∈ paintKeys a b now s, w.index = j.val) ↔
      (a ≤ j.val ∧ j.val < b) ∧ entryPaints now (s.keyHeld.get j) (s.keyPressTime.get j) := by
  obtain ⟨-, -, hpaint⟩ := reactive_loop_spec now (ledRange a b) (nodup_ledRange a b) s
  rw [← mem_ledRange]
  exact hpaint j

/-! ### What is to be seen -/

/-- What the events say about a key: nothing yet, that it is held, or when it was released,
    and whether a call has found it faded since. -/
inductive Light where
  | untouched
  | held
  | released (time : Nat) (faded : Bool)
  deriving DecidableEq

/-- The key is to be seen at this time. -/
def Light.Lit (now : Nat) : Light → Prop
  | .untouched => False
  | .held => True
  | .released time _ => now - time < 500

/-- After a call at this time has gone over it. -/
def Light.after (now : Nat) : Light → Light
  | .released time faded => .released time (faded || decide (500 ≤ now - time))
  | light => light

/-- A call at this time shows it as it should: if it is to be seen, its time is not the one
    that says there is none, and if it is not, its time has been taken back or is none, or
    the clock does not say it is to be seen again. -/
def Light.InTime (now : Nat) : Light → Prop
  | .released time faded =>
    if now - time < 500 then time % 65536 ≠ 0
    else faded = true ∨ time % 65536 = 0 ∨ 500 ≤ (now - time) % 65536
  | _ => True

instance (now : Nat) : (light : Light) → Decidable (light.Lit now)
  | .untouched => inferInstanceAs (Decidable False)
  | .held => inferInstanceAs (Decidable True)
  | .released time _ => inferInstanceAs (Decidable (now - time < 500))

instance (now : Nat) : (light : Light) → Decidable (light.InTime now)
  | .untouched => inferInstanceAs (Decidable True)
  | .held => inferInstanceAs (Decidable True)
  | .released time _ => inferInstanceAs (Decidable (if now - time < 500 then _ else _))

def Light.Kept (now : Nat) (held : Bool) (pressTime : BitVec 16) : Light → Prop
  | .untouched => held = false ∧ pressTime = 0
  | .held => held = true
  | .released time faded =>
    held = false ∧ time ≤ now ∧ (faded = true → 500 ≤ now - time) ∧
      pressTime = if faded then 0 else BitVec.ofNat 16 time

theorem Light.Kept.later {now later : Nat} (hle : now ≤ later) {held : Bool}
    {pressTime : BitVec 16} {light : Light} (h : light.Kept now held pressTime) :
    light.Kept later held pressTime := by
  cases light with
  | untouched => exact h
  | held => exact h
  | released time faded =>
    obtain ⟨hheld, htime, hfaded, hpress⟩ := h
    refine ⟨hheld, Nat.le_trans htime hle, fun hf => ?_, hpress⟩
    have := hfaded hf
    omega

theorem timerRead_ofNat (time : Nat) :
    World.timerRead (BitVec.ofNat 32 time) = BitVec.ofNat 16 time := by
  refine BitVec.eq_of_toNat_eq ?_
  unfold World.timerRead
  rw [BitVec.toNat_setWidth, BitVec.toNat_ofNat, BitVec.toNat_ofNat]
  omega

theorem elapsed_toNat (now time : Nat) (h : time ≤ now) :
    (World.timerRead (BitVec.ofNat 32 now) - BitVec.ofNat 16 time).toNat =
      (now - time) % 65536 := by
  rw [timerRead_ofNat, BitVec.toNat_sub, BitVec.toNat_ofNat, BitVec.toNat_ofNat]
  omega

theorem stamp_eq_zero_iff (time : Nat) : BitVec.ofNat 16 time = 0 ↔ time % 65536 = 0 := by
  rw [← BitVec.toNat_inj, BitVec.toNat_ofNat]
  rfl

theorem entryPaints_iff (now : Nat) (held : Bool) (pressTime : BitVec 16) (light : Light)
    (h : light.Kept now held pressTime) :
    ((entryPaints (BitVec.ofNat 32 now) held pressTime ↔ light.Lit now) ↔ light.InTime now) ∧
      (light.InTime now → (light.after now).Kept now held
        (entryAfter (BitVec.ofNat 32 now) held pressTime)) := by
  unfold entryPaints entryAfter keyReactiveDuration
  cases light with
  | untouched =>
    obtain ⟨hheld, htime⟩ := h
    simp [hheld, htime, Light.Lit, Light.InTime, Light.after, Light.Kept]
  | held =>
    have hheld : held := h
    simp [hheld, Light.Lit, Light.InTime, Light.after, Light.Kept]
  | released time faded =>
    obtain ⟨hheld, hle, hfaded, htime⟩ := h
    cases faded with
    | true =>
      rw [if_pos rfl] at htime
      have hold := hfaded rfl
      simp [hheld, htime, Light.Lit, Light.InTime, Light.after, Light.Kept, hle, hold]
    | false =>
      rw [if_neg (by decide)] at htime
      have helapsed := elapsed_toNat now time hle
      have hzero := stamp_eq_zero_iff time
      by_cases hnew : now - time < 500
      · have hsame : (now - time) % 65536 = now - time := Nat.mod_eq_of_lt (by omega)
        simp only [hheld, htime, Light.Lit, Light.InTime, Light.after, Light.Kept, hle, hnew,
          hsame, helapsed, Bool.false_eq_true, false_or, if_true, ne_eq, hzero, true_and,
          and_true, iff_true, ge_iff_le, Nat.not_le.mpr hnew, decide_false, Bool.or_false,
          if_false, false_implies, and_self, implies_true]
      · have hold : 500 ≤ now - time := Nat.not_lt.mp hnew
        simp only [hheld, htime, Light.Lit, Light.InTime, Light.after, Light.Kept, hle, hnew,
          helapsed, hold, Bool.false_eq_true, false_or, if_false, ne_eq, hzero, true_and,
          ge_iff_le, decide_true, Bool.or_true, if_true, implies_true, iff_false, not_and]
        refine ⟨by omega, fun hgone => ?_⟩
        rcases hgone with hnone | hgone
        · rw [ite_eq_left_iff]
          exact fun _ => hzero.mpr hnone
        · rw [if_pos hgone]

end Indicators

namespace World

/-! ### What the hooks do to the reaction -/

theorem reactToKey_entry (now : BitVec 32) (record : KeyRecord) (w : World) (i : Fin 63) :
    (reactToKey now record w).reactive.keyHeld.get i =
        (if Keymap.reactiveLed record.key = some i then record.pressed
        else w.reactive.keyHeld.get i) ∧
      (reactToKey now record w).reactive.keyPressTime.get i =
        if Keymap.reactiveLed record.key = some i then
          if record.pressed then 0 else timerRead now
        else w.reactive.keyPressTime.get i := by
  unfold reactToKey
  cases hled : Keymap.reactiveLed record.key with
  | none => exact ⟨rfl, rfl⟩
  | some led =>
    by_cases hi : led = i
    · rw [if_pos (congrArg some hi), if_pos (congrArg some hi), ← hi]
      exact ⟨Vector.getElem_set_self .., Vector.getElem_set_self ..⟩
    · have hne : led.val ≠ i.val := fun h => hi (Fin.ext h)
      rw [if_neg (fun h => hi (Option.some.inj h)), if_neg (fun h => hi (Option.some.inj h))]
      exact ⟨Vector.getElem_set_ne led.isLt i.isLt hne, Vector.getElem_set_ne led.isLt i.isLt hne⟩

theorem beforeSwitch_reactive (now : BitVec 32) (keycode : Keycode) (record : KeyRecord)
    (w : World) :
    (beforeSwitch now keycode record w).reactive =
      (reactToKey now record (keyWake now w)).reactive :=
  rfl

theorem keyWake_reactive (now : BitVec 32) (w : World) : (keyWake now w).reactive = w.reactive := by
  unfold keyWake sleepExit noteActivity
  dsimp only
  split
  · split <;> rfl
  · rfl

theorem processRecordUser_reactive (now : BitVec 32) (keycode : Keycode) (record : KeyRecord)
    (w : World) :
    (processRecordUser now keycode record w).1.reactive =
      (reactToKey now record (keyWake now w)).reactive := by
  rw [(processRecordUser_lights now keycode record w).reactive]
  exact beforeSwitch_reactive now keycode record w

theorem matrixScanUser_reactive (now : BitVec 32) (r : Readings) (link : Byte) (anyKeyDown : Bool)
    (w : World) : (matrixScanUser now r link anyKeyDown w).reactive = w.reactive := by
  unfold matrixScanUser unpairTask
  split
  all_goals
    unfold idleTask sleepExit sleepEnter noteActivity bluetoothTask
    dsimp only
    repeat' split
    all_goals rfl

end World

namespace Indicators

open StepRun

/-! ### Runs -/

/-- What happens: a key event, a turn of the main loop, or a call for a part of a frame. -/
inductive GlowEvent where
  | key (keycode : Keycode) (record : KeyRecord)
  | scan (r : Readings) (link : Byte) (anyKeyDown : Bool)
  | render (ledMin ledMax : Nat) (spi : Spi) (capsLock : Bool)

/-- The world, the time in milliseconds, and what the events say about the keys. -/
structure Glow where
  world : World
  time : Nat
  lights : Fin 63 → Light

/-- What can be seen of a call: when and for which LEDs it was made, what its fifth layer
    painted, and what the events say about the keys. -/
structure Shown where
  now : Nat
  ledMin : Nat
  ledMax : Nat
  paints : List Paint
  lights : Fin 63 → Light

namespace Glow

/-- Power-on, at time 0. -/
def powerOn (config : KeymapConfig) (nkro rgbEnabled : Bool) (r : Readings) : Glow :=
  { world := World.powerOn config nkro rgbEnabled r, time := 0, lights := fun _ => .untouched }

/-- An event, so long after the one before it. -/
def step (g : Glow) (e : Nat × GlowEvent) : Glow × Option Shown :=
  let time := g.time + e.1
  let now := BitVec.ofNat 32 time
  match e.2 with
  | .key keycode record =>
    ({ world := (World.processRecordUser now keycode record g.world).1, time,
       lights := fun i =>
        if Keymap.reactiveLed record.key = some i then
          if record.pressed then .held else .released time false
        else g.lights i }, none)
  | .scan r link anyKeyDown =>
    ({ g with world := World.matrixScanUser now r link anyKeyDown g.world, time }, none)
  | .render ledMin ledMax spi capsLock =>
    let called := rgbMatrixIndicatorsAdvancedUser ledMin ledMax { now, spi, capsLock } g.world
    ({ world := called.1, time,
       lights := fun i =>
        if ledMin ≤ i.val ∧ i.val < ledMax then (g.lights i).after time else g.lights i },
      some { now := time, ledMin, ledMax, paints := paintKeys ledMin ledMax now g.world.reactive,
             lights := g.lights })

end Glow

/-- The fifth layer paints exactly the LEDs of the keys that are to be seen. -/
def Faithful (shown : Shown) : Prop :=
  ∀ i : Fin 63, shown.ledMin ≤ i.val → i.val < shown.ledMax →
    ((∃ w ∈ shown.paints, w.index = i.val) ↔ (shown.lights i).Lit shown.now)

instance (shown : Shown) : Decidable (Faithful shown) :=
  inferInstanceAs (Decidable (∀ _ : Fin 63, _))

/-- A call comes in time for every LED it goes over. -/
def InTime (g : Glow) (e : Nat × GlowEvent) : Prop :=
  match e.2 with
  | .render ledMin ledMax _ _ =>
    ∀ i : Fin 63, ledMin ≤ i.val → i.val < ledMax → (g.lights i).InTime (g.time + e.1)
  | _ => True

def Glow.Tied (g : Glow) : Prop :=
  ∀ i : Fin 63, (g.lights i).Kept g.time (g.world.reactive.keyHeld.get i)
    (g.world.reactive.keyPressTime.get i)

theorem powerOn_tied (config : KeymapConfig) (nkro rgbEnabled : Bool) (r : Readings) :
    (Glow.powerOn config nkro rgbEnabled r).Tied := by
  intro i
  exact ⟨Vector.getElem_replicate i.isLt, Vector.getElem_replicate i.isLt⟩

theorem key_tied (g : Glow) (wait : Nat) (keycode : Keycode) (record : KeyRecord) (h : g.Tied) :
    (g.step (wait, .key keycode record)).1.Tied := by
  intro i
  have hle : g.time ≤ g.time + wait := Nat.le_add_right _ _
  obtain ⟨hheld, htime⟩ := World.reactToKey_entry (BitVec.ofNat 32 (g.time + wait)) record
    (World.keyWake (BitVec.ofNat 32 (g.time + wait)) g.world) i
  unfold Glow.step
  dsimp only
  rw [World.processRecordUser_reactive, hheld, htime, World.keyWake_reactive]
  by_cases hled : Keymap.reactiveLed record.key = some i
  · simp only [hled, if_true]
    cases record.pressed with
    | true => exact rfl
    | false => exact ⟨rfl, Nat.le_refl _, fun h => absurd h (by decide), timerRead_ofNat _⟩
  · simp only [hled, if_false]
    exact (h i).later hle

theorem render_tied (g : Glow) (wait ledMin ledMax : Nat) (spi : Spi) (capsLock : Bool)
    (h : g.Tied) :
    ((∀ shown ∈ (g.step (wait, .render ledMin ledMax spi capsLock)).2, Faithful shown) ↔
        InTime g (wait, .render ledMin ledMax spi capsLock)) ∧
      (InTime g (wait, .render ledMin ledMax spi capsLock) →
        (g.step (wait, .render ledMin ledMax spi capsLock)).1.Tied) := by
  have hkept := fun i => (h i).later (Nat.le_add_right g.time wait)
  have hled := fun i => entryPaints_iff (g.time + wait) _ _ (g.lights i) (hkept i)
  constructor
  · unfold Glow.step InTime Faithful
    simp only [Option.mem_some_iff, forall_eq']
    refine forall_congr' (fun i => forall_congr' (fun hmin => forall_congr' (fun hmax => ?_)))
    rw [painted_iff, ← (hled i).1]
    simp only [hmin, hmax, true_and]
  · intro hintime i
    obtain ⟨hheld, htime⟩ := fadeKeys_entry ledMin ledMax (BitVec.ofNat 32 (g.time + wait))
      g.world.reactive i
    unfold Glow.step rgbMatrixIndicatorsAdvancedUser
    dsimp only
    rw [hheld, htime]
    by_cases hin : ledMin ≤ i.val ∧ i.val < ledMax
    · rw [if_pos hin, if_pos hin]
      exact (hled i).2 (hintime i hin.1 hin.2)
    · rw [if_neg hin, if_neg hin]
      exact hkept i

theorem step_tied (g : Glow) (e : Nat × GlowEvent) (h : g.Tied) :
    ((∀ shown ∈ (g.step e).2, Faithful shown) ↔ InTime g e) ∧
      (InTime g e → (g.step e).1.Tied) := by
  have hnone : (∀ shown ∈ (none : Option Shown), Faithful shown) ↔ True :=
    iff_of_true (fun shown hshown => absurd hshown (by simp)) trivial
  obtain ⟨wait, event⟩ := e
  cases event with
  | key keycode record => exact ⟨hnone, fun _ => key_tied g wait keycode record h⟩
  | scan r link anyKeyDown =>
    refine ⟨hnone, fun _ i => ?_⟩
    unfold Glow.step
    dsimp only
    rw [World.matrixScanUser_reactive]
    exact (h i).later (Nat.le_add_right g.time wait)
  | render ledMin ledMax spi capsLock => exact render_tied g wait ledMin ledMax spi capsLock h

/-- From power-on, with events at whatever times and calls whenever and for whatever part of
    a frame: all calls paint exactly the keys that are held or were released less than half
    a second ago, exactly when every call comes in time for the LEDs it goes over. -/
theorem reaction_faithful_iff (config : KeymapConfig) (nkro rgbEnabled : Bool) (r : Readings)
    (events : List (Nat × GlowEvent)) :
    (∀ answer ∈ trace Glow.step (Glow.powerOn config nkro rgbEnabled r) events,
        ∀ shown ∈ answer, Faithful shown) ↔
      Along (next Glow.step) InTime (Glow.powerOn config nkro rgbEnabled r) events :=
  forall_trace_iff_along Glow.step InTime Glow.Tied (fun answer => ∀ shown ∈ answer, Faithful shown)
    (fun g e h => (step_tied g e h).2) (fun g e h => (step_tied g e h).1) events _
    (powerOn_tied config nkro rgbEnabled r)

def escape (wait : Nat) (pressed : Bool) : Nat × GlowEvent :=
  (wait, .key kcEscape { key := { row := 0, col := 0 }, pressed, tapCount := 0 })

def frame (wait : Nat) : Nat × GlowEvent := (wait, .render 0 63 Spi.reset false)

def releasedAtZero : List (Nat × GlowEvent) :=
  [escape 65000 true, escape 536 false, frame 1]

/-- It should fade, and is not painted. -/
theorem release_at_zero_dark :
    ¬ ∀ (config : KeymapConfig) (nkro rgbEnabled : Bool) (r : Readings)
      (events : List (Nat × GlowEvent)),
      ∀ answer ∈ trace Glow.step (Glow.powerOn config nkro rgbEnabled r) events,
        ∀ shown ∈ answer, Faithful shown := by
  intro h
  have hall := h KeymapConfig.default true true atRest releasedAtZero
  exact absurd hall (by decide +kernel)

end Indicators

end K530
