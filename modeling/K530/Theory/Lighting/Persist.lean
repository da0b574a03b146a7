import K530.Lighting.Keyboard
import K530.Theory.Lighting.Bounds
import K530.Theory.Lighting.Idle

/-!
# What Becomes of the Sleep in EEPROM

The sleep puts the lighting off without flagging the settings, so that it is
never saved. But what is saved is the settings as they are when the task gets to
it, and for that it is enough that somebody else has flagged them. A mode that a
host sets and asks to be saved is refused while the lighting is off, and its
color is; its speed is not, and flags them.

`Commanded` is the keyboard with the last command that set the lighting on or
off. A keyboard awake is as commanded; one asleep is dark, and remembers the
command in `rgbWasOn`. What a turn of the task writes is therefore wrong exactly
when it writes while a keyboard sleeps that was lit.

## Main definitions

* `SameLight`: Nothing was turned on or off, and nothing written.

## Theorems

* `processRgb_light`: Of the lighting keycodes only the toggle turns it on or
  off.
* `sleepUnsaved_iff`: The sleep is not saved exactly when nothing is written in
  it.
-/

namespace K530

open StepRun Checked

/-! ### Who turns the lighting on or off -/

def SameLight (m m' : RgbMatrix) : Prop :=
  m'.config.enable = m.config.enable ∧ m'.written = m.written

namespace RgbMatrix

theorem modeHelper_light (effectMax : Nat) (mode : Byte) (save : Bool) (m : RgbMatrix) :
    SameLight m (modeHelper effectMax mode save m) := by
  unfold modeHelper
  split <;> exact ⟨rfl, rfl⟩

theorem sethsvHelper_light (hsv : Hsv) (save : Bool) (m : RgbMatrix) :
    SameLight m (sethsvHelper hsv save m) := by
  unfold sethsvHelper
  split <;> exact ⟨rfl, rfl⟩

theorem setSpeedHelper_light (speed : Byte) (save : Bool) (m : RgbMatrix) :
    SameLight m (setSpeedHelper speed save m) :=
  ⟨rfl, rfl⟩

theorem handleKeycodeRgb_light (shifted : Bool) (incFunc decFunc : RgbMatrix → RgbMatrix)
    (m : RgbMatrix) (hinc : SameLight m (incFunc m)) (hdec : SameLight m (decFunc m)) :
    SameLight m (handleKeycodeRgb shifted incFunc decFunc m) := by
  cases shifted with
  | true => exact hdec
  | false => exact hinc

theorem ite_light {m : RgbMatrix} {c : Prop} [Decidable c] {x y : RgbMatrix × Bool}
    (hx : c → SameLight m x.1) (hy : ¬ c → SameLight m y.1) :
    SameLight m (if c then x else y).1 := by
  by_cases h : c
  · rw [if_pos h]
    exact hx h
  · rw [if_neg h]
    exact hy h

theorem setEnable_written (on : Bool) (m : RgbMatrix) :
    (setEnable on m).written = m.written := by
  cases on <;> rfl

theorem processRgb_light (effectMax : Nat) (keycode : Keycode) (pressed shifted : Bool)
    (m : RgbMatrix) :
    (processRgb effectMax keycode pressed shifted m).1.written = m.written ∧
      (processRgb effectMax keycode pressed shifted m).1.config.enable =
        (m.config.enable != (pressed && keycode == Keymap.rgbTog)) := by
  by_cases htoggle : pressed ∧ keycode = Keymap.rgbTog
  · obtain ⟨rfl, rfl⟩ := htoggle
    exact ⟨rfl, (Bool.xor_true m.config.enable).symm⟩
  · have hnone : (pressed && keycode == Keymap.rgbTog) = false := by
      rw [Bool.and_eq_false_iff, beq_eq_false_iff_ne]
      by_cases hpressed : pressed
      · exact Or.inr (fun htog => htoggle ⟨hpressed, htog⟩)
      · exact Or.inl (Bool.eq_false_iff.mpr hpressed)
    have hsame : SameLight m (processRgb effectMax keycode pressed shifted m).1 := by
      unfold processRgb
      refine ite_light (fun _ => ⟨rfl, rfl⟩) (fun hpressed => ?_)
      refine ite_light (fun htog => ?_) (fun _ => ?_)
      · rw [Bool.not_eq_true, Bool.not_eq_false'] at hpressed
        exact absurd ⟨hpressed, htog⟩ htoggle
      iterate 2
        refine ite_light (fun _ => handleKeycodeRgb_light _ _ _ m (modeHelper_light _ _ true m)
          (modeHelper_light _ _ true m)) (fun _ => ?_)
      -- hue, saturation and value, each up and down
      iterate 6
        refine ite_light (fun _ => handleKeycodeRgb_light _ _ _ m (sethsvHelper_light _ true m)
          (sethsvHelper_light _ true m)) (fun _ => ?_)
      iterate 2
        refine ite_light (fun _ => handleKeycodeRgb_light _ _ _ m (setSpeedHelper_light _ true m)
          (setSpeedHelper_light _ true m)) (fun _ => ?_)
      exact ite_light (fun _ => modeHelper_light effectMax 1 true m) (fun _ => ⟨rfl, rfl⟩)
    rw [hnone, Bool.bne_false]
    exact ⟨hsame.2, hsame.1⟩

theorem taskSync_light (now : BitVec 32) (m : RgbMatrix) :
    (taskSync now m).config = m.config ∧
      (taskSync now m).written = m.written ++ if m.dirty = true then [m.config] else [] := by
  have hflush : (flush false m).config = m.config ∧
      (flush false m).written = m.written ++ if m.dirty = true then [m.config] else [] := by
    unfold flush
    rw [Bool.false_or]
    split_ifs
    · exact ⟨rfl, rfl⟩
    · exact ⟨rfl, (List.append_nil m.written).symm⟩
  unfold taskSync
  by_cases hlate : (now - (flush false m).timer).toNat ≥ ledFlushLimit
  · rw [if_pos hlate]
    exact hflush
  · rw [if_neg hlate]
    exact hflush

end RgbMatrix

namespace Firmware

variable {d : Device}

theorem SameLight.trans {a b c : RgbMatrix} (h : SameLight a b) (h' : SameLight b c) :
    SameLight a c :=
  ⟨h'.1.trans h.1, h'.2.trans h.2⟩

theorem setMode_light (data : Packet) (fw fw' : Firmware d) (h : setMode data fw = some fw') :
    SameLight fw.matrix fw'.matrix := by
  unfold setMode at h
  simp (disch := omega) only [Packet.fetch_of_lt, store_of_lt, Option.bind_eq_bind,
    Option.bind_some, Option.pure_def] at h
  split at h
  · rw [Option.some.injEq] at h
    rw [← h]
    exact ⟨rfl, rfl⟩
  · rw [Option.some.injEq] at h
    rw [← h]
    exact SameLight.trans (RgbMatrix.modeHelper_light _ _ _ _)
      (SameLight.trans (RgbMatrix.setSpeedHelper_light _ _ _) (RgbMatrix.sethsvHelper_light _ _ _))

theorem directModeSetSingleLed_matrix (data : Packet) (fw fw' : Firmware d)
    (h : directModeSetSingleLed data fw = some fw') : fw'.matrix = fw.matrix := by
  unfold directModeSetSingleLed at h
  simp (disch := omega) only [Packet.fetch_of_lt, store_of_lt, Option.bind_eq_bind,
    Option.bind_some, Option.pure_def] at h
  split at h
  · rw [Option.some.injEq] at h
    rw [← h]
  · rw [Option.some.injEq] at h
    rw [← h]

theorem directModeSetLeds_matrix (data : Packet) (fw fw' : Firmware d)
    (h : directModeSetLeds data fw = some fw') : fw'.matrix = fw.matrix := by
  unfold directModeSetLeds at h
  simp (disch := omega) only [Packet.fetch_of_lt, Option.bind_eq_bind, Option.bind_some,
    Option.pure_def] at h
  obtain ⟨colors, -, hcolors⟩ := Option.bind_eq_some_iff.mp h
  rw [Option.some.injEq] at hcolors
  rw [← hcolors]

theorem handleCommand_light (command : Byte) (data : Packet) (fw fw' : Firmware d)
    (h : handleCommand command data fw = some fw') : SameLight fw.matrix fw'.matrix := by
  -- a query only fills the buffer
  have hquery : ∀ answer : Option Packet,
      answer.map (fun buffer => { fw with buffer }) = some fw' →
        SameLight fw.matrix fw'.matrix := by
    intro answer hanswer
    obtain ⟨buffer, -, hbuffer⟩ := Option.map_eq_some_iff.mp hanswer
    rw [← hbuffer]
    exact ⟨rfl, rfl⟩
  unfold handleCommand at h
  split_ifs at h
  iterate 6
    · exact hquery _ h
  · exact setMode_light data fw fw' h
  · rw [directModeSetSingleLed_matrix data fw fw' h]
    exact ⟨rfl, rfl⟩
  · rw [directModeSetLeds_matrix data fw fw' h]
    exact ⟨rfl, rfl⟩
  · rw [Option.some.injEq] at h
    rw [← h]
    exact ⟨rfl, rfl⟩

theorem rawHidReceive_light (data : Packet) (fw : Firmware d)
    (h : (rawHidReceive data fw).isSome) :
    SameLight fw.matrix ((rawHidReceive data fw).get h).1.matrix := by
  have hsome : (handleCommand (data.at 0) data fw).isSome := by
    rwa [← rawHidReceive_isSome_eq]
  obtain ⟨handled, hhandled⟩ := Option.isSome_iff_exists.mp hsome
  have hlight := handleCommand_light _ data fw handled hhandled
  obtain ⟨result, hresult⟩ := Option.isSome_iff_exists.mp h
  simp only [hresult, Option.get_some]
  unfold rawHidReceive at hresult
  simp (disch := omega) only [Packet.fetch_of_lt, hhandled, store_of_lt, Option.bind_eq_bind,
    Option.bind_some, Option.pure_def] at hresult
  split at hresult
  · rw [Option.some.injEq] at hresult
    rw [← hresult]
    exact hlight
  · rw [Option.some.injEq] at hresult
    rw [← hresult]
    exact hlight

end Firmware

/-! ### Runs -/

/-- The keyboard, and what the last command to set its lighting on or off has
    set it to. -/
structure Commanded (d : Device) where
  keyboard : Keyboard d
  command : Bool

namespace Commanded

variable {d : Device}

/-- Power-on: the settings are as the last command before it left them. -/
def powerOn (d : Device) (config : KeymapConfig) (nkro : Bool) (r : Readings)
    (settings : RgbConfig) : Commanded d :=
  { keyboard := Keyboard.powerOn d config nkro r settings, command := settings.enable }

/-- The event is a command that sets the lighting on or off: the toggle, if the
    keymap lets it through. -/
def setsEnable (k : Keyboard d) : LightEvent d → Bool
  | .key now keycode record =>
    (World.processRecordUser now keycode record k.world).2 &&
      (record.pressed && keycode == Keymap.rgbTog)
  | _ => false

/-- The keyboard and the command after an event. -/
def step (s : Commanded d) (e : LightEvent d) : Commanded d :=
  { keyboard := s.keyboard.step e,
    command :=
      if setsEnable s.keyboard e then (s.keyboard.step e).matrix.config.enable else s.command }

/-- The settings a step writes to EEPROM. -/
def writtenBy (s : Commanded d) (e : LightEvent d) : List RgbConfig :=
  (step s e).keyboard.matrix.written.drop s.keyboard.matrix.written.length

/-- A lighting that is off is written only if the last command turned it
    off. -/
def SleepUnsaved (s : Commanded d) (e : LightEvent d) : Prop :=
  ∀ settings ∈ writtenBy s e, settings.enable = false → s.command = false

/-- No turn of the task finds settings to write while a keyboard sleeps that
    was lit when it fell asleep. -/
def NoWriteAsleep (s : Commanded d) : LightEvent d → Prop
  | .task _ _ =>
    s.keyboard.matrix.taskState = .syncing → s.keyboard.matrix.dirty = true →
      ¬ (s.keyboard.world.idle.asleep = true ∧ s.keyboard.world.idle.rgbWasOn = true)
  | _ => True

structure Inv (s : Commanded d) : Prop where
  awake : s.keyboard.world.idle.asleep = false → s.keyboard.world.rgbEnabled = s.command
  asleep : s.keyboard.world.idle.asleep = true →
    s.keyboard.world.rgbEnabled = false ∧ s.keyboard.world.idle.rgbWasOn = s.command

theorem powerOn_inv (config : KeymapConfig) (nkro : Bool) (r : Readings) (settings : RgbConfig) :
    Inv (powerOn d config nkro r settings) :=
  ⟨fun _ => rfl, fun h => Bool.noConfusion h⟩

theorem wokenLight_of_inv (s : Commanded d) (h : Inv s) :
    s.keyboard.world.wokenLight = s.command := by
  unfold World.wokenLight
  cases hasleep : s.keyboard.world.idle.asleep with
  | true =>
    obtain ⟨hdark, hwas⟩ := h.asleep hasleep
    rw [hdark, hwas]
    cases s.command <;> rfl
  | false =>
    rw [Bool.false_and, if_neg Bool.false_ne_true]
    exact h.awake hasleep

theorem onFirmware_inv (f : Firmware d → Firmware d) (s : Commanded d) (h : Inv s)
    (hsame : (f s.keyboard.fw).matrix.config.enable = s.keyboard.fw.matrix.config.enable) :
    Inv { keyboard := s.keyboard.onFirmware f, command := s.command } := by
  have henable : (s.keyboard.onFirmware f).world.rgbEnabled = s.keyboard.world.rgbEnabled :=
    hsame.trans s.keyboard.same.symm
  refine ⟨fun hawake => ?_, fun hasleep => ?_⟩
  · rw [henable]
    exact h.awake hawake
  · rw [henable]
    exact h.asleep hasleep

theorem task_light (now : BitVec 32) (more : Bool) (m : RgbMatrix) :
    (m.task now more).config = m.config ∧
      (m.task now more).written =
        m.written ++ if m.taskState = .syncing ∧ m.dirty = true then [m.config] else [] := by
  unfold RgbMatrix.task
  cases hstate : m.taskState with
  | starting =>
    rw [if_neg (fun h => RgbTaskState.noConfusion h.1), List.append_nil]
    exact ⟨rfl, rfl⟩
  | rendering =>
    rw [if_neg (fun h => RgbTaskState.noConfusion h.1), List.append_nil]
    unfold RgbMatrix.taskRender
    dsimp only
    split_ifs <;> exact ⟨rfl, rfl⟩
  | flushing =>
    rw [if_neg (fun h => RgbTaskState.noConfusion h.1), List.append_nil]
    exact ⟨rfl, rfl⟩
  | syncing =>
    simp only [true_and]
    exact RgbMatrix.taskSync_light now { m with timerBuffer := now, taskState := .syncing }

theorem keyEvent_light (now : BitVec 32) (keycode : Keycode) (record : KeyRecord)
    (k : Keyboard d) :
    (k.keyEvent now keycode record).world.idle.asleep = false ∧
      (k.keyEvent now keycode record).world.rgbEnabled =
        (k.world.wokenLight != setsEnable k (.key now keycode record)) ∧
      (k.keyEvent now keycode record).matrix.written = k.matrix.written := by
  obtain ⟨hidle, hlight⟩ := World.processRecordUser_idle now keycode record k.world
  rw [(World.keyWake_idle now k.world).1] at hidle
  rw [(World.keyWake_idle now k.world).2] at hlight
  have hwritten := RgbMatrix.setEnable_written
    (World.processRecordUser now keycode record k.world).1.rgbEnabled k.matrix
  unfold Keyboard.keyEvent setsEnable
  dsimp only
  cases hgoes : (World.processRecordUser now keycode record k.world).2 with
  | true =>
    rw [if_pos rfl, Bool.true_and, ← hlight]
    obtain ⟨hsame, htoggle⟩ := RgbMatrix.processRgb_light d.effectMax keycode record.pressed
      (k.onWorld (fun w => (World.processRecordUser now keycode record w).1)).shifted
      (k.onWorld (fun w => (World.processRecordUser now keycode record w).1)).matrix
    refine ⟨congrArg Idle.asleep hidle, ?_, hsame.trans hwritten⟩
    exact htoggle.trans (congrArg (· != _) (RgbMatrix.setEnable_enable _ _))
  | false =>
    rw [if_neg Bool.false_ne_true, Bool.false_and, Bool.bne_false]
    exact ⟨congrArg Idle.asleep hidle, hlight, hwritten⟩

theorem step_inv (s : Commanded d) (e : LightEvent d) (h : Inv s) : Inv (step s e) := by
  cases e with
  | key now keycode record =>
    obtain ⟨hawake, hlight, -⟩ := keyEvent_light now keycode record s.keyboard
    refine ⟨fun _ => ?_, fun hasleep => Bool.noConfusion (hawake.symm.trans hasleep)⟩
    cases hsets : setsEnable s.keyboard (.key now keycode record) with
    | true =>
      refine (s.keyboard.keyEvent now keycode record).same.trans ?_
      exact (if_pos hsets).symm
    | false =>
      rw [hsets, Bool.bne_false, wokenLight_of_inv s h] at hlight
      refine hlight.trans ?_
      exact (if_neg (by rw [hsets]; exact Bool.false_ne_true)).symm
  | packet data fits =>
    exact onFirmware_inv (fun fw => ((Firmware.rawHidReceive data fw).get (fits fw)).1) s h
      (Firmware.rawHidReceive_light data s.keyboard.fw (fits s.keyboard.fw)).1
  | scan now r link anyKeyDown =>
    obtain ⟨hidle, hlight⟩ := World.matrixScanUser_idle now r link anyKeyDown s.keyboard.world
    have hwoken := wokenLight_of_inv s h
    rcases World.idleTask_cases now anyKeyDown (World.bluetoothTask r link s.keyboard.world) with
      ⟨-, hidle', hlight'⟩ | ⟨-, hawake, -, hidle', hlight'⟩ | ⟨-, hidle', hlight'⟩
    · -- awake, to what was commanded
      rw [hidle'] at hidle
      refine ⟨fun _ => (hlight.trans hlight').trans hwoken, fun hasleep => ?_⟩
      exact Bool.noConfusion ((congrArg Idle.asleep hidle).symm.trans hasleep)
    · -- asleep, dark, and remembering
      rw [hidle'] at hidle
      refine ⟨fun hawake' => ?_, fun _ => ⟨hlight.trans hlight', ?_⟩⟩
      · exact Bool.noConfusion ((congrArg Idle.asleep hidle).symm.trans hawake')
      · exact (congrArg Idle.rgbWasOn hidle).trans (h.awake hawake)
    · rw [hidle'] at hidle
      refine ⟨fun hawake => ?_, fun hasleep => ?_⟩
      · exact (hlight.trans hlight').trans
          (h.awake ((congrArg Idle.asleep hidle).symm.trans hawake))
      · obtain ⟨hdark, hwas⟩ := h.asleep ((congrArg Idle.asleep hidle).symm.trans hasleep)
        exact ⟨(hlight.trans hlight').trans hdark, (congrArg Idle.rgbWasOn hidle).trans hwas⟩
  | task now more =>
    exact onFirmware_inv (fun fw => { fw with matrix := fw.matrix.task now more }) s h
      (congrArg RgbConfig.enable (task_light now more s.keyboard.matrix).1)

theorem writtenBy_of_same (s : Commanded d) (e : LightEvent d)
    (h : (step s e).keyboard.matrix.written = s.keyboard.matrix.written) : writtenBy s e = [] := by
  unfold writtenBy
  rw [h, List.drop_length]

theorem dark_iff (s : Commanded d) (h : Inv s) :
    (s.keyboard.matrix.config.enable = false ∧ s.command) ↔
      s.keyboard.world.idle.asleep ∧ s.keyboard.world.idle.rgbWasOn := by
  have hsame : s.keyboard.world.rgbEnabled = s.keyboard.matrix.config.enable := s.keyboard.same
  rw [← hsame]
  cases hasleep : s.keyboard.world.idle.asleep with
  | true =>
    obtain ⟨hdark, hwas⟩ := h.asleep hasleep
    rw [hdark, hwas]
    simp only [true_and]
  | false =>
    rw [h.awake hasleep]
    cases s.command <;> simp only [Bool.true_eq_false, Bool.false_eq_true, false_and, and_false]

theorem sleepUnsaved_iff_step (s : Commanded d) (e : LightEvent d) (h : Inv s) :
    SleepUnsaved s e ↔ NoWriteAsleep s e := by
  cases e with
  | key now keycode record =>
    have hnone := writtenBy_of_same s (.key now keycode record)
      (keyEvent_light now keycode record s.keyboard).2.2
    unfold SleepUnsaved NoWriteAsleep
    rw [hnone]
    simp only [List.not_mem_nil, false_implies, implies_true]
  | packet data fits =>
    have hnone := writtenBy_of_same s (.packet data fits)
      (Firmware.rawHidReceive_light data s.keyboard.fw (fits s.keyboard.fw)).2
    unfold SleepUnsaved NoWriteAsleep
    rw [hnone]
    simp only [List.not_mem_nil, false_implies, implies_true]
  | scan now r link anyKeyDown =>
    have hnone := writtenBy_of_same s (.scan now r link anyKeyDown)
      (RgbMatrix.setEnable_written _ s.keyboard.matrix)
    unfold SleepUnsaved NoWriteAsleep
    rw [hnone]
    simp only [List.not_mem_nil, false_implies, implies_true]
  | task now more =>
    have hwritten : writtenBy s (.task now more) =
        if s.keyboard.matrix.taskState = .syncing ∧ s.keyboard.matrix.dirty then
          [s.keyboard.matrix.config] else [] := by
      have htask := (task_light now more s.keyboard.matrix).2
      have hstep : (step s (.task now more)).keyboard.matrix =
          s.keyboard.matrix.task now more := rfl
      unfold writtenBy
      rw [hstep, htask, List.drop_left]
    unfold SleepUnsaved NoWriteAsleep
    rw [hwritten, ← dark_iff s h]
    by_cases hwrites : s.keyboard.matrix.taskState = .syncing ∧ s.keyboard.matrix.dirty
    · rw [if_pos hwrites]
      simp only [List.mem_singleton, forall_eq, hwrites, true_implies, not_and,
        Bool.not_eq_true]
    · rw [if_neg hwrites]
      simp only [List.not_mem_nil, false_implies, implies_true, true_iff]
      exact fun hsyncing hdirty => absurd ⟨hsyncing, hdirty⟩ hwrites

/-- From power-on, and whatever the order of key events, packets, turns of the
    main loop and turns of the lighting task: no step saves the sleep exactly
    when no turn of the task writes while a keyboard sleeps that was lit. -/
theorem sleepUnsaved_iff (config : KeymapConfig) (nkro : Bool) (r : Readings)
    (settings : RgbConfig) (events : List (LightEvent d)) :
    Along step SleepUnsaved (powerOn d config nkro r settings) events ↔
      Along step NoWriteAsleep (powerOn d config nkro r settings) events :=
  along_congr step SleepUnsaved NoWriteAsleep Inv step_inv sleepUnsaved_iff_step events _
    (powerOn_inv config nkro r settings)

def saveMode : Packet := Packet.ofList [OpenRgb.setMode, 0, 0xFF, 0xFF, 1, 10, 1]

theorem saveMode_fits (fw : Firmware (Device.k530 [])) :
    (Firmware.rawHidReceive saveMode fw).isSome := by
  rw [Firmware.rawHidReceive_isSome_eq, Firmware.handleCommand_isSome_iff]
  decide

def savedAsleep : List (LightEvent (Device.k530 [])) :=
  [.scan (BitVec.ofNat 32 World.idleSleepMs) atRest 0 false, .packet saveMode saveMode_fits,
    .task 1200001 false, .task 1200002 false, .task 1200003 false]

/-- The sleep is saved. -/
theorem savedAsleep_dark :
    ¬ ∀ config nkro r settings events,
      Along step SleepUnsaved (powerOn (Device.k530 []) config nkro r settings) events := by
  intro h
  have hlast := along_visited step SleepUnsaved savedAsleep [] (.task 1200004 false) _
    (h KeymapConfig.default true atRest (RgbConfig.default 2) _)
  have hcommand := hlast { RgbConfig.default 2 with enable := false, speed := 10 }
    (by decide +kernel) rfl
  exact absurd hcommand (by decide +kernel)

end Commanded

end K530
