import K530.Theory.Keymap.Hooks

/-!
# Idle Sleep

The keyboard goes dark after twenty minutes without a key, but not while it is
charging, and comes back as it was.

Runs here are timed. Each event says how long after the one before it comes, so
that the times never decrease, and the clock of the keyboard is the low
thirty-two bits of the time. A difference of two clock readings never exceeds
the time between them, so a clock that has gone round can only put the sleep
off.

`lastActivity` is set by every key event, by every turn that finds the keyboard
charging, and by waking up. It is not set when charging ends. The sleep is
therefore counted from the last turn that saw the cable, which is one turn
before the one that missed it.

## Main definitions

* `IdleEvent`: A key event, a toggle of the lighting, or a turn of the main
  loop.

## Theorems

* `processRecordUser_idle`, `matrixScanUser_idle`: What the hooks do to the
  sleep.
* `sleeps_in_time`: Every step sleeps in time, and wakes to what was.
-/

namespace K530

open StepRun

namespace World

/-! ### What the hooks do to the sleep -/

def keyWake (now : BitVec 32) (w : World) : World :=
  let w := noteActivity now w
  if w.idle.asleep then sleepExit now w else w

variable (now : BitVec 32)

theorem reactToKey_idle (record : KeyRecord) (w : World) :
    (reactToKey now record w).idle = w.idle ∧
      (reactToKey now record w).rgbEnabled = w.rgbEnabled := by
  unfold reactToKey
  cases Keymap.reactiveLed record.key with
  | none => exact ⟨rfl, rfl⟩
  | some led => exact ⟨rfl, rfl⟩

variable (keycode : Keycode)

theorem beforeSwitch_idle (record : KeyRecord) (w : World) :
    (beforeSwitch now keycode record w).idle = (keyWake now w).idle ∧
      (beforeSwitch now keycode record w).rgbEnabled = (keyWake now w).rgbEnabled :=
  reactToKey_idle now record (keyWake now w)

structure SameLights (w w' : World) : Prop where
  idle : w.idle = w'.idle
  rgbEnabled : w.rgbEnabled = w'.rgbEnabled
  reactive : w.reactive = w'.reactive

theorem SameLights.trans {w w' w'' : World} (h : SameLights w w') (h' : SameLights w' w'') :
    SameLights w w'' :=
  ⟨h.idle.trans h'.idle, h.rgbEnabled.trans h'.rgbEnabled, h.reactive.trans h'.reactive⟩

theorem btTrackBasicKeycode_lights (pressed : Bool) (w : World) :
    SameLights (btTrackBasicKeycode keycode pressed w) w := by
  unfold btTrackBasicKeycode btSyncAndSend
  split
  · exact ⟨rfl, rfl, rfl⟩
  · split <;> exact ⟨rfl, rfl, rfl⟩

theorem foldl_playEvent_lights (events : List MacroEvent) :
    ∀ w : World, SameLights (events.foldl playEvent w) w := by
  induction events with
  | nil =>
    intro w
    exact ⟨rfl, rfl, rfl⟩
  | cons e events ih =>
    intro w
    have hplay : SameLights (playEvent w e) w := by
      refine (btTrackBasicKeycode_lights _ _ _).trans ?_
      split <;> exact ⟨rfl, rfl, rfl⟩
    exact (ih (playEvent w e)).trans hplay

theorem processRecordUser_lights (record : KeyRecord) (w : World) :
    SameLights (processRecordUser now keycode record w).1 (beforeSwitch now keycode record w) := by
  unfold processRecordUser
  dsimp only
  split
  · unfold handleFn2Rec
    split <;> exact ⟨rfl, rfl, rfl⟩
  · split
    · split <;> exact ⟨rfl, rfl, rfl⟩
    · split
      · unfold handleBtUnpair
        split <;> exact ⟨rfl, rfl, rfl⟩
      · split
        · split
          · exact foldl_playEvent_lights _ _
          · exact ⟨rfl, rfl, rfl⟩
        · exact btTrackBasicKeycode_lights _ _ _

theorem processRecordUser_idle (record : KeyRecord) (w : World) :
    (processRecordUser now keycode record w).1.idle = (keyWake now w).idle ∧
      (processRecordUser now keycode record w).1.rgbEnabled = (keyWake now w).rgbEnabled := by
  have hlights := processRecordUser_lights now keycode record w
  obtain ⟨hidle, hrgb⟩ := beforeSwitch_idle now keycode record w
  exact ⟨hlights.idle.trans hidle, hlights.rgbEnabled.trans hrgb⟩

theorem matrixScanUser_idle (r : Readings) (link : Byte) (anyKeyDown : Bool) (w : World) :
    (matrixScanUser now r link anyKeyDown w).idle =
        (idleTask now anyKeyDown (bluetoothTask r link w)).idle ∧
      (matrixScanUser now r link anyKeyDown w).rgbEnabled =
        (idleTask now anyKeyDown (bluetoothTask r link w)).rgbEnabled := by
  unfold matrixScanUser unpairTask
  split <;> exact ⟨rfl, rfl⟩

def wokenLight (w : World) : Bool :=
  if w.idle.asleep && w.idle.rgbWasOn then true else w.rgbEnabled

theorem sleepExit_idle (w : World) (h : w.idle.asleep) :
    (sleepExit now w).idle = { w.idle with lastActivity := now, asleep := false } ∧
      (sleepExit now w).rgbEnabled = w.wokenLight := by
  unfold sleepExit wokenLight noteActivity
  simp only [h, Bool.not_true, Bool.false_eq_true, if_false, Bool.true_and, and_self]

theorem noteActivity_idle (w : World) (h : w.idle.asleep = false) :
    (noteActivity now w).idle = { w.idle with lastActivity := now, asleep := false } ∧
      (noteActivity now w).rgbEnabled = w.wokenLight := by
  unfold noteActivity wokenLight
  simp only [← h, Bool.and_eq_true, true_and]
  rw [h, if_neg (fun hboth => Bool.noConfusion hboth.1)]

theorem keyWake_idle (w : World) :
    (keyWake now w).idle = { w.idle with lastActivity := now, asleep := false } ∧
      (keyWake now w).rgbEnabled = w.wokenLight := by
  have hsame : (noteActivity now w).idle.asleep = w.idle.asleep := rfl
  unfold keyWake
  dsimp only
  cases hasleep : w.idle.asleep with
  | true =>
    rw [hsame, hasleep, if_pos rfl]
    exact sleepExit_idle now (noteActivity now w) hasleep
  | false =>
    rw [hsame, hasleep, if_neg Bool.false_ne_true]
    exact noteActivity_idle now w hasleep

theorem idleTask_cases (anyKeyDown : Bool) (w : World) :
    ((w.driver.charge.stable ∨ w.idle.asleep) ∧
        (idleTask now anyKeyDown w).idle = { w.idle with lastActivity := now, asleep := false } ∧
        (idleTask now anyKeyDown w).rgbEnabled = w.wokenLight) ∨
      (w.driver.charge.stable = false ∧ w.idle.asleep = false ∧
        (now - w.idle.lastActivity).toNat ≥ idleSleepMs ∧
        (idleTask now anyKeyDown w).idle =
          { w.idle with rgbWasOn := w.rgbEnabled, asleep := true } ∧
        (idleTask now anyKeyDown w).rgbEnabled = false) ∨
      (w.driver.charge.stable = false ∧ (idleTask now anyKeyDown w).idle = w.idle ∧
        (idleTask now anyKeyDown w).rgbEnabled = w.rgbEnabled) := by
  unfold idleTask
  cases hcharging : w.driver.charge.stable with
  | true =>
    rw [if_pos rfl]
    refine Or.inl ⟨Or.inl rfl, ?_⟩
    cases hasleep : w.idle.asleep with
    | true =>
      rw [if_pos rfl]
      obtain ⟨hidle, hlight⟩ := sleepExit_idle now w hasleep
      refine ⟨?_, hlight⟩
      unfold noteActivity
      rw [hidle]
    | false =>
      rw [if_neg Bool.false_ne_true]
      exact noteActivity_idle now w hasleep
  | false =>
    rw [if_neg Bool.false_ne_true]
    cases hasleep : w.idle.asleep with
    | false =>
      rw [Bool.not_false, if_pos rfl]
      by_cases hlong : (now - w.idle.lastActivity).toNat ≥ idleSleepMs
      · rw [if_pos hlong]
        unfold sleepEnter
        rw [hasleep]
        exact Or.inr (Or.inl ⟨rfl, rfl, hlong, rfl, rfl⟩)
      · rw [if_neg hlong]
        exact Or.inr (Or.inr ⟨rfl, rfl, rfl⟩)
    | true =>
      rw [Bool.not_true, if_neg Bool.false_ne_true]
      cases anyKeyDown with
      | true =>
        rw [if_pos rfl]
        exact Or.inl ⟨Or.inr rfl, sleepExit_idle now w hasleep⟩
      | false =>
        rw [if_neg Bool.false_ne_true]
        exact Or.inr (Or.inr ⟨rfl, rfl, rfl⟩)

/-- The sleep began. -/
def FallsAsleep (w w' : World) : Prop :=
  w.idle.asleep = false ∧ w'.idle.asleep = true

/-- The sleep ended. -/
def WakesUp (w w' : World) : Prop :=
  w.idle.asleep = true ∧ w'.idle.asleep = false

instance (w w' : World) : Decidable (FallsAsleep w w') :=
  inferInstanceAs (Decidable (_ ∧ _))

instance (w w' : World) : Decidable (WakesUp w w') :=
  inferInstanceAs (Decidable (_ ∧ _))

end World

/-! ### Timed runs -/

/-- What happens to the keyboard, as far as the sleep is concerned. -/
inductive IdleEvent where
  /-- `process_record_user` -/
  | key (keycode : Keycode) (record : KeyRecord)
  /-- `rgb_matrix_toggle` -/
  | toggle
  /-- `matrix_scan_user`, which polls the charging pin and ends in
      `k530_idle_task` -/
  | scan (r : Readings) (link : Byte) (anyKeyDown : Bool)
  deriving DecidableEq

/-- The world, the time, and the history. -/
structure IdleRun where
  world : World
  /-- in milliseconds -/
  time : Nat
  /-- the last key event -/
  lastKey : Option Nat
  /-- the last turn that found the keyboard charging -/
  lastCharging : Option Nat
  /-- the last turn that found charging to have ended -/
  chargingEnded : Option Nat
  /-- the lighting just before the last sleep began -/
  before : Bool
  /-- the user has changed it since -/
  touched : Bool

namespace IdleRun

/-- Power-on, at time 0. -/
def powerOn (config : KeymapConfig) (nkro rgbEnabled : Bool) (r : Readings) : IdleRun :=
  { world := World.powerOn config nkro rgbEnabled r, time := 0, lastKey := none,
    lastCharging := none, chargingEnded := none, before := rgbEnabled, touched := false }

/-- The world after an event. -/
def next (now : BitVec 32) (w : World) : IdleEvent → World
  | .key keycode record => (World.processRecordUser now keycode record w).1
  | .toggle => { w with rgbEnabled := !w.rgbEnabled }
  | .scan r link anyKeyDown => World.matrixScanUser now r link anyKeyDown w

/-- An event, so long after the one before it. -/
def step (s : IdleRun) (e : Nat × IdleEvent) : IdleRun :=
  let time := s.time + e.1
  let world := next (BitVec.ofNat 32 time) s.world e.2
  { world, time,
    lastKey := match e.2 with
      | .key _ _ => some time
      | _ => s.lastKey,
    lastCharging := match e.2 with
      | .scan _ _ _ => if world.driver.charge.stable then some time else s.lastCharging
      | _ => s.lastCharging,
    chargingEnded :=
      if s.world.driver.charge.stable && !world.driver.charge.stable then some time
      else s.chargingEnded,
    before := if World.FallsAsleep s.world world then s.world.rgbEnabled else s.before,
    touched := if World.FallsAsleep s.world world then false
      else s.touched || decide (e.2 = .toggle) }

/-- So long has passed since a time, if there is one. -/
def Since (ms : Nat) (last : Option Nat) (time : Nat) : Prop :=
  ∀ t, last = some t → t + ms ≤ time

/-- No turn leaves a charging keyboard asleep, the sleep begins only so long
    after the last key event and after what `charging` says about the cable, and
    the keyboard wakes to the lighting it had, unless the user has changed it
    in its sleep. -/
def SleepsSince (charging : IdleRun → Option Nat) (s : IdleRun) (e : Nat × IdleEvent) : Prop :=
  (∀ r link anyKeyDown, e.2 = .scan r link anyKeyDown →
      (step s e).world.driver.charge.stable = true → (step s e).world.idle.asleep = false) ∧
    (World.FallsAsleep s.world (step s e).world →
      Since World.idleSleepMs s.lastKey (step s e).time ∧
        Since World.idleSleepMs (charging (step s e)) (step s e).time) ∧
    (World.WakesUp s.world (step s e).world → s.touched = false →
      (step s e).world.rgbEnabled = s.before)

structure Inv (s : IdleRun) : Prop where
  activity : ∃ t, s.world.idle.lastActivity = BitVec.ofNat 32 t ∧ t ≤ s.time ∧
    (∀ k, s.lastKey = some k → k ≤ t) ∧ ∀ c, s.lastCharging = some c → c ≤ t
  dark : s.world.idle.asleep = true → s.touched = false →
    s.world.rgbEnabled = false ∧ s.world.idle.rgbWasOn = s.before

theorem clock_sub_le (t time : Nat) (h : t ≤ time) :
    (BitVec.ofNat 32 time - BitVec.ofNat 32 t).toNat ≤ time - t := by
  have hsub : BitVec.ofNat 32 time - BitVec.ofNat 32 t = BitVec.ofNat 32 (time - t) := by
    refine BitVec.eq_of_toNat_eq ?_
    rw [BitVec.toNat_sub, BitVec.toNat_ofNat, BitVec.toNat_ofNat, BitVec.toNat_ofNat]
    omega
  rw [hsub, BitVec.toNat_ofNat]
  exact Nat.mod_le _ _

theorem powerOn_inv (config : KeymapConfig) (nkro rgbEnabled : Bool) (r : Readings) :
    Inv (powerOn config nkro rgbEnabled r) :=
  ⟨⟨0, rfl, Nat.le_refl 0, fun _ h => absurd h (Option.some_ne_none _).symm,
    fun _ h => absurd h (Option.some_ne_none _).symm⟩, fun h => Bool.noConfusion h⟩

variable (s : IdleRun)

theorem wokenLight_of_inv (h : Inv s) (hasleep : s.world.idle.asleep)
    (htouched : s.touched = false) : s.world.wokenLight = s.before := by
  obtain ⟨hdark, hwas⟩ := h.dark hasleep htouched
  unfold World.wokenLight
  rw [hasleep, hdark, ← hwas]
  cases s.world.idle.rgbWasOn <;> rfl

theorem next_cases (now : BitVec 32) (w : World) (e : IdleEvent) :
    ((next now w e).idle = { w.idle with lastActivity := now, asleep := false } ∧
        (next now w e).rgbEnabled = w.wokenLight) ∨
      (∃ r link anyKeyDown, e = .scan r link anyKeyDown ∧
        (next now w e).driver.charge.stable = false ∧ w.idle.asleep = false ∧
        (now - w.idle.lastActivity).toNat ≥ World.idleSleepMs ∧
        (next now w e).idle = { w.idle with rgbWasOn := w.rgbEnabled, asleep := true } ∧
        (next now w e).rgbEnabled = false) ∨
      (∃ r link anyKeyDown, e = .scan r link anyKeyDown ∧
        (next now w e).driver.charge.stable = false ∧ (next now w e).idle = w.idle ∧
        (next now w e).rgbEnabled = w.rgbEnabled) ∨
      (e = .toggle ∧ (next now w e).idle = w.idle) := by
  cases e with
  | key keycode record =>
    obtain ⟨hidle, hlight⟩ := World.processRecordUser_idle now keycode record w
    rw [(World.keyWake_idle now w).1] at hidle
    rw [(World.keyWake_idle now w).2] at hlight
    exact Or.inl ⟨hidle, hlight⟩
  | toggle => exact Or.inr (Or.inr (Or.inr ⟨rfl, rfl⟩))
  | scan r link anyKeyDown =>
    obtain ⟨hidle, hlight⟩ := World.matrixScanUser_idle now r link anyKeyDown w
    have hdriver := (World.matrixScanUser_frame now r link anyKeyDown w).2.1
    unfold next
    rw [hidle, hlight, hdriver]
    rcases World.idleTask_cases now anyKeyDown (World.bluetoothTask r link w) with
      ⟨-, hidle, hlight⟩ | ⟨hcharging, hasleep, hlong, hidle, hlight⟩ | ⟨hcharging, hidle, hlight⟩
    · exact Or.inl ⟨hidle, hlight⟩
    · exact Or.inr (Or.inl ⟨r, link, anyKeyDown, rfl, hcharging, hasleep, hlong, hidle, hlight⟩)
    · exact Or.inr (Or.inr (Or.inl ⟨r, link, anyKeyDown, rfl, hcharging, hidle, hlight⟩))

variable (e : Nat × IdleEvent)

theorem lastKey_le (t : Nat) (h : t ≤ s.time) (hold : ∀ k, s.lastKey = some k → k ≤ t) :
    ∀ k, (step s e).lastKey = some k → k ≤ s.time + e.1 := by
  intro k hk
  unfold step at hk
  dsimp only at hk
  split at hk
  · rw [Option.some.injEq] at hk
    exact Nat.le_of_eq hk.symm
  · have hle := hold k hk
    omega

theorem lastCharging_le (t : Nat) (h : t ≤ s.time) (hold : ∀ c, s.lastCharging = some c → c ≤ t) :
    ∀ c, (step s e).lastCharging = some c → c ≤ s.time + e.1 := by
  intro c hc
  unfold step at hc
  dsimp only at hc
  split at hc
  · split at hc
    · rw [Option.some.injEq] at hc
      exact Nat.le_of_eq hc.symm
    · have hle := hold c hc
      omega
  · have hle := hold c hc
    omega

theorem quiet_frame (hkey : ∀ keycode record, e.2 ≠ .key keycode record)
    (hcharging : (∃ r link anyKeyDown, e.2 = .scan r link anyKeyDown) →
      (step s e).world.driver.charge.stable = false) :
    (step s e).lastKey = s.lastKey ∧ (step s e).lastCharging = s.lastCharging := by
  obtain ⟨after, e⟩ := e
  cases e with
  | key keycode record => exact absurd rfl (hkey keycode record)
  | toggle => exact ⟨rfl, rfl⟩
  | scan r link anyKeyDown =>
    have hoff := hcharging ⟨r, link, anyKeyDown, rfl⟩
    refine ⟨rfl, ?_⟩
    unfold step at hoff ⊢
    dsimp only at hoff ⊢
    rw [hoff, if_neg Bool.false_ne_true]

theorem same_frame (h : (step s e).world.idle = s.world.idle) :
    (step s e).before = s.before ∧
      (step s e).touched = (s.touched || decide (e.2 = .toggle)) := by
  have hsame : ¬ World.FallsAsleep s.world (next (BitVec.ofNat 32 (s.time + e.1)) s.world e.2) := by
    intro hfalls
    have hidle : (next (BitVec.ofNat 32 (s.time + e.1)) s.world e.2).idle = s.world.idle := h
    rw [World.FallsAsleep, hidle] at hfalls
    exact Bool.noConfusion (hfalls.1.symm.trans hfalls.2)
  exact ⟨if_neg hsame, if_neg hsame⟩

theorem step_inv (h : Inv s) : Inv (step s e) := by
  obtain ⟨t, hlast, ht, hkeys, hchargings⟩ := h.activity
  have hlater : t ≤ (step s e).time := Nat.le_trans ht (Nat.le_add_right s.time e.1)
  have hworld : (step s e).world = next (BitVec.ofNat 32 (s.time + e.1)) s.world e.2 := rfl
  rcases next_cases (BitVec.ofNat 32 (s.time + e.1)) s.world e.2 with
    ⟨hidle, hlight⟩ | ⟨r, link, anyKeyDown, he, hoff, hawake, -, hidle, hlight⟩ |
    ⟨r, link, anyKeyDown, he, hoff, hidle, hlight⟩ | ⟨he, hidle⟩
  · -- activity: the account starts over
    refine ⟨⟨s.time + e.1, ?_, Nat.le_refl _, lastKey_le s e t ht hkeys,
      lastCharging_le s e t ht hchargings⟩, fun hasleep => ?_⟩
    · rw [hworld, hidle]
    · rw [hworld, hidle] at hasleep
      exact Bool.noConfusion hasleep
  · -- the sleep begins: the lighting is put down
    obtain ⟨hkey, hcharging⟩ := quiet_frame s e (by rw [he]; exact fun _ _ => IdleEvent.noConfusion)
      (fun _ => hoff)
    have hfalls : World.FallsAsleep s.world (next (BitVec.ofNat 32 (s.time + e.1)) s.world e.2) :=
      ⟨hawake, by rw [hidle]⟩
    refine ⟨⟨t, ?_, hlater, by rwa [hkey], by rwa [hcharging]⟩, fun _ _ => ⟨?_, ?_⟩⟩
    · rw [hworld, hidle]
      exact hlast
    · rw [hworld, hlight]
    · rw [hworld, hidle]
      exact (if_pos hfalls).symm
  · obtain ⟨hkey, hcharging⟩ := quiet_frame s e (by rw [he]; exact fun _ _ => IdleEvent.noConfusion)
      (fun _ => hoff)
    obtain ⟨hbefore, htouched⟩ := same_frame s e hidle
    refine ⟨⟨t, ?_, hlater, by rwa [hkey], by rwa [hcharging]⟩, fun hasleep hun => ?_⟩
    · rw [hworld, hidle]
      exact hlast
    · rw [hworld, hidle] at hasleep ⊢
      rw [htouched, Bool.or_eq_false_iff] at hun
      rw [hlight, hbefore]
      exact h.dark hasleep hun.1
  · obtain ⟨hkey, hcharging⟩ := quiet_frame s e (by rw [he]; exact fun _ _ => IdleEvent.noConfusion)
      (by rw [he]; rintro ⟨_, _, _, hscan⟩; exact IdleEvent.noConfusion hscan)
    obtain ⟨-, htouched⟩ := same_frame s e hidle
    refine ⟨⟨t, ?_, hlater, by rwa [hkey], by rwa [hcharging]⟩, fun _ hun => ?_⟩
    · rw [hworld, hidle]
      exact hlast
    · rw [htouched, he, decide_eq_true rfl, Bool.or_true] at hun
      exact Bool.noConfusion hun

theorem step_sleeps (h : Inv s) : SleepsSince lastCharging s e := by
  obtain ⟨t, hlast, ht, hkeys, hchargings⟩ := h.activity
  have hworld : (step s e).world = next (BitVec.ofNat 32 (s.time + e.1)) s.world e.2 := rfl
  unfold SleepsSince World.FallsAsleep World.WakesUp
  rcases next_cases (BitVec.ofNat 32 (s.time + e.1)) s.world e.2 with
    ⟨hidle, hlight⟩ | ⟨r, link, anyKeyDown, he, hoff, hawake, hlong, hidle, hlight⟩ |
    ⟨r, link, anyKeyDown, he, hoff, hidle, hlight⟩ | ⟨he, hidle⟩
  · rw [hworld, hidle, hlight]
    exact ⟨fun _ _ _ _ _ => rfl, fun hfalls => Bool.noConfusion hfalls.2,
      fun hwakes => wokenLight_of_inv s h hwakes.1⟩
  · obtain ⟨hkey, hcharging⟩ := quiet_frame s e (by rw [he]; exact fun _ _ => IdleEvent.noConfusion)
      (fun _ => hoff)
    rw [hcharging, hworld, hidle, hoff]
    refine ⟨fun _ _ _ _ hon => Bool.noConfusion hon, fun _ => ?_,
      fun hwakes => Bool.noConfusion hwakes.2⟩
    have hpassed : t + World.idleSleepMs ≤ s.time + e.1 := by
      have hclock := clock_sub_le t (s.time + e.1) (Nat.le_trans ht (Nat.le_add_right _ _))
      rw [← hlast] at hclock
      have hms : 0 < World.idleSleepMs := by decide
      omega
    exact ⟨fun k hk => Nat.le_trans (Nat.add_le_add_right (hkeys k hk) _) hpassed,
      fun c hc => Nat.le_trans (Nat.add_le_add_right (hchargings c hc) _) hpassed⟩
  · rw [hworld, hidle, hoff]
    exact ⟨fun _ _ _ _ hon => Bool.noConfusion hon,
      fun hfalls => Bool.noConfusion (hfalls.1.symm.trans hfalls.2),
      fun hwakes => Bool.noConfusion (hwakes.1.symm.trans hwakes.2)⟩
  · rw [hworld, hidle, he]
    exact ⟨fun _ _ _ hscan => IdleEvent.noConfusion hscan,
      fun hfalls => Bool.noConfusion (hfalls.1.symm.trans hfalls.2),
      fun hwakes => Bool.noConfusion (hwakes.1.symm.trans hwakes.2)⟩

/-- From power-on, whatever the order and the times of key events, toggles and
    turns of the main loop: a turn that finds the keyboard charging leaves it
    awake, the sleep begins only twenty minutes after the last key event and the
    last turn that found it charging, and it wakes to the lighting it had,
    unless the user has changed it in its sleep. -/
theorem sleeps_in_time (config : KeymapConfig) (nkro rgbEnabled : Bool) (r : Readings)
    (events : List (Nat × IdleEvent)) :
    Along step (SleepsSince lastCharging) (powerOn config nkro rgbEnabled r) events :=
  along_of_invariant step (SleepsSince lastCharging) Inv step_inv step_sleeps events _
    (powerOn_inv config nkro rgbEnabled r)

def turn (charging : Bool) : IdleEvent :=
  .scan { atRest with charging } 0 false

def unplugged : List (Nat × IdleEvent) :=
  List.replicate 10 (0, turn true) ++ List.replicate 9 (0, turn false)

/-- The sleep is not counted from the end of charging. -/
theorem unplugged_sleeps :
    ¬ ∀ config nkro rgbEnabled r events,
      Along step (SleepsSince chargingEnded) (powerOn config nkro rgbEnabled r) events := by
  intro h
  have hlast := along_visited step _ unplugged [] (World.idleSleepMs, turn false) _
    (h KeymapConfig.default true true atRest _)
  have hsince := (hlast.2.1 (by decide +kernel)).2 World.idleSleepMs (by decide +kernel)
  exact absurd hsince (by decide +kernel)

end IdleRun

end K530
