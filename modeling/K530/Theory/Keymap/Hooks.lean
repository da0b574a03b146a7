import K530.Keymap.User

/-!
# What the Hooks Touch

The state of the main loop has many parts and each function of the keymap
touches few of them. One lemma per function and part says which, so that later
modules can speak of the part they are about and never unfold a hook.

The driver is the part that key events never touch: only the main loop does.
The recorder is the part that the main loop never touches. The USB side is
touched by playback and by the key that holds the recording layer, and by
nothing else in the hook.

## Theorems

* `beforeSwitch_recorder`: What precedes the switch captures the event.
* `processRecordUser_driver`: A key event leaves the driver alone.
-/

namespace K530

namespace Recorder

def step (e : MacroEvent) (r : Recorder) : Recorder :=
  let r := r.capture e
  if e.keycode = Keymap.fn2Rec then if e.pressed then r.fn2RecPress else r.fn2RecRelease
  else
    match Keymap.recSlot? e.keycode with
    | some slot => if e.pressed then r.recToggle slot else r
    | none => r

end Recorder

/-- The toggle off, the selector in position 1. -/
def atRest : Readings :=
  { charging := false, toggle := true, slotHi := true, slotLo := true }

namespace World

/-! ### Before the switch -/

variable (now : BitVec 32)

theorem sleepExit_frame (w : World) :
    (sleepExit now w).qmk = w.qmk ∧ (sleepExit now w).driver = w.driver ∧
      (sleepExit now w).tracker = w.tracker ∧ (sleepExit now w).recorder = w.recorder ∧
      (sleepExit now w).loads = w.loads := by
  unfold sleepExit
  split
  · exact ⟨rfl, rfl, rfl, rfl, rfl⟩
  · exact ⟨rfl, rfl, rfl, rfl, rfl⟩

theorem reactToKey_frame (record : KeyRecord) (w : World) :
    (reactToKey now record w).qmk = w.qmk ∧ (reactToKey now record w).driver = w.driver ∧
      (reactToKey now record w).tracker = w.tracker ∧
      (reactToKey now record w).recorder = w.recorder ∧
      (reactToKey now record w).loads = w.loads := by
  unfold reactToKey
  cases Keymap.reactiveLed record.key with
  | none => exact ⟨rfl, rfl, rfl, rfl, rfl⟩
  | some led => exact ⟨rfl, rfl, rfl, rfl, rfl⟩

variable (keycode : Keycode) (record : KeyRecord) (w : World)

theorem beforeSwitch_frame :
    (beforeSwitch now keycode record w).qmk = w.qmk ∧
      (beforeSwitch now keycode record w).driver = w.driver ∧
      (beforeSwitch now keycode record w).tracker = w.tracker ∧
      (beforeSwitch now keycode record w).recorder =
        w.recorder.capture { keycode, pressed := record.pressed } ∧
      (beforeSwitch now keycode record w).loads = w.loads := by
  unfold beforeSwitch watchHeld
  dsimp only
  rw [(reactToKey_frame _ _ _).1, (reactToKey_frame _ _ _).2.1, (reactToKey_frame _ _ _).2.2.1,
    (reactToKey_frame _ _ _).2.2.2.1, (reactToKey_frame _ _ _).2.2.2.2]
  split
  · have hwake := sleepExit_frame now (noteActivity now w)
    rw [hwake.1, hwake.2.1, hwake.2.2.1, hwake.2.2.2.1, hwake.2.2.2.2]
    exact ⟨rfl, rfl, rfl, rfl, rfl⟩
  · exact ⟨rfl, rfl, rfl, rfl, rfl⟩

@[simp] theorem beforeSwitch_qmk : (beforeSwitch now keycode record w).qmk = w.qmk :=
  (beforeSwitch_frame now keycode record w).1

@[simp] theorem beforeSwitch_driver : (beforeSwitch now keycode record w).driver = w.driver :=
  (beforeSwitch_frame now keycode record w).2.1

@[simp] theorem beforeSwitch_tracker : (beforeSwitch now keycode record w).tracker = w.tracker :=
  (beforeSwitch_frame now keycode record w).2.2.1

@[simp] theorem beforeSwitch_recorder :
    (beforeSwitch now keycode record w).recorder =
      w.recorder.capture { keycode, pressed := record.pressed } :=
  (beforeSwitch_frame now keycode record w).2.2.2.1

/-! ### The tracker -/

@[simp] theorem btTrackBasicKeycode_qmk (pressed : Bool) (w : World) :
    (btTrackBasicKeycode keycode pressed w).qmk = w.qmk := by
  unfold btTrackBasicKeycode btSyncAndSend
  split
  · rfl
  · split <;> rfl

@[simp] theorem btTrackBasicKeycode_driver (pressed : Bool) (w : World) :
    (btTrackBasicKeycode keycode pressed w).driver = w.driver := by
  unfold btTrackBasicKeycode btSyncAndSend
  split
  · rfl
  · split <;> rfl

@[simp] theorem btTrackBasicKeycode_recorder (pressed : Bool) (w : World) :
    (btTrackBasicKeycode keycode pressed w).recorder = w.recorder := by
  unfold btTrackBasicKeycode btSyncAndSend
  split
  · rfl
  · split <;> rfl

theorem btTrackBasicKeycode_tracker (pressed : Bool) (w : World) :
    (btTrackBasicKeycode keycode pressed w).tracker =
      if keycode > 0xFF then w.tracker else w.tracker.track keycode pressed := by
  unfold btTrackBasicKeycode btSyncAndSend
  split
  · rfl
  · split <;> rfl

theorem btSyncAndSend_loads :
    (btSyncAndSend w).loads = w.loads ++ w.driver.bluetoothSendKeyboard w.tracker.report := by
  unfold btSyncAndSend
  split
  · rename_i hoff
    unfold Driver.bluetoothSendKeyboard
    rw [if_pos (show (!w.driver.isEnabled) = true from hoff), List.append_nil]
  · rfl

theorem btTrackBasicKeycode_loads (pressed : Bool) (w : World) :
    (btTrackBasicKeycode keycode pressed w).loads =
      w.loads ++
        if keycode > 0xFF then []
        else w.driver.bluetoothSendKeyboard (w.tracker.track keycode pressed).report := by
  unfold btTrackBasicKeycode
  split
  · rw [List.append_nil]
  · exact btSyncAndSend_loads _

/-! ### Playback -/

@[simp] theorem playEvent_driver (e : MacroEvent) : (playEvent w e).driver = w.driver := by
  unfold playEvent
  rw [btTrackBasicKeycode_driver]
  split <;> rfl

@[simp] theorem playEvent_recorder (e : MacroEvent) : (playEvent w e).recorder = w.recorder := by
  unfold playEvent
  rw [btTrackBasicKeycode_recorder]
  split <;> rfl

theorem playEvent_qmk_on (e : MacroEvent) (h : w.btEnabled) :
    (playEvent w e).qmk = w.qmk := by
  unfold playEvent
  rw [btTrackBasicKeycode_qmk, h]
  rfl

theorem foldl_playEvent_qmk_on (events : List MacroEvent) :
    ∀ w : World, w.btEnabled → (events.foldl playEvent w).qmk = w.qmk := by
  induction events with
  | nil =>
    intro w _
    rfl
  | cons e events ih =>
    intro w h
    rw [List.foldl_cons, ih (playEvent w e), playEvent_qmk_on w e h]
    unfold btEnabled at h ⊢
    rw [playEvent_driver]
    exact h

variable (slot : Fin 6)

theorem playMacro_qmk_on (w : World) (h : w.btEnabled) : (playMacro slot w).qmk = w.qmk :=
  foldl_playEvent_qmk_on _ w h

theorem foldl_playEvent_frame (events : List MacroEvent) :
    ∀ w : World, (events.foldl playEvent w).driver = w.driver ∧
      (events.foldl playEvent w).recorder = w.recorder := by
  induction events with
  | nil =>
    intro w
    exact ⟨rfl, rfl⟩
  | cons e events ih =>
    intro w
    rw [List.foldl_cons, (ih _).1, (ih _).2, playEvent_driver, playEvent_recorder]
    exact ⟨rfl, rfl⟩

@[simp] theorem playMacro_driver (w : World) : (playMacro slot w).driver = w.driver :=
  (foldl_playEvent_frame _ w).1

@[simp] theorem playMacro_recorder (w : World) : (playMacro slot w).recorder = w.recorder :=
  (foldl_playEvent_frame _ w).2

/-! ### Key events -/

theorem own_keycode_above (h : keycode ≤ 0xFF) :
    keycode ≠ Keymap.fn2Rec ∧ Keymap.recSlot? keycode = none ∧ keycode ≠ Keymap.btUnpair ∧
      Keymap.playSlot? keycode = none := by
  have hne : ∀ own : Keycode, 0xFF < own → keycode ≠ own := by
    intro own hown hc
    rw [hc] at h
    exact absurd h (BitVec.not_le.mpr hown)
  unfold Keymap.recSlot? Keymap.playSlot?
  simp only [hne _ (show 0xFF < Keymap.rec1Toggle by decide),
    hne _ (show 0xFF < Keymap.rec2Toggle by decide),
    hne _ (show 0xFF < Keymap.rec3Toggle by decide),
    hne _ (show 0xFF < Keymap.rec4Toggle by decide),
    hne _ (show 0xFF < Keymap.rec5Toggle by decide),
    hne _ (show 0xFF < Keymap.rec6Toggle by decide),
    hne _ (show 0xFF < Keymap.macroPlay1 by decide),
    hne _ (show 0xFF < Keymap.macroPlay2 by decide),
    hne _ (show 0xFF < Keymap.macroPlay3 by decide),
    hne _ (show 0xFF < Keymap.macroPlay4 by decide),
    hne _ (show 0xFF < Keymap.macroPlay5 by decide),
    hne _ (show 0xFF < Keymap.macroPlay6 by decide), if_false]
  exact ⟨hne _ (by decide), trivial, hne _ (by decide), trivial⟩

theorem processRecordUser_basic (h : keycode ≤ 0xFF) :
    processRecordUser now keycode record w =
      (btTrackBasicKeycode keycode record.pressed (beforeSwitch now keycode record w),
        !w.btEnabled) := by
  have hown := own_keycode_above keycode h
  unfold processRecordUser
  dsimp only
  rw [if_neg hown.1, hown.2.1]
  dsimp only
  rw [if_neg hown.2.2.1, hown.2.2.2]
  dsimp only
  rw [decide_eq_true h, Bool.and_true]
  unfold btEnabled
  rw [btTrackBasicKeycode_driver, beforeSwitch_driver]

theorem playSlot?_some (h : Keymap.playSlot? keycode = some slot) :
    keycode ≠ Keymap.fn2Rec ∧ Keymap.recSlot? keycode = none ∧ keycode ≠ Keymap.btUnpair := by
  have hone : keycode = Keymap.macroPlay1 ∨ keycode = Keymap.macroPlay2 ∨
      keycode = Keymap.macroPlay3 ∨ keycode = Keymap.macroPlay4 ∨
      keycode = Keymap.macroPlay5 ∨ keycode = Keymap.macroPlay6 := by
    unfold Keymap.playSlot? at h
    grind
  -- six closed comparisons of keycodes, one for each key
  rcases hone with rfl | rfl | rfl | rfl | rfl | rfl <;> decide

theorem processRecordUser_play (h : Keymap.playSlot? keycode = some slot)
    (hpressed : record.pressed) :
    processRecordUser now keycode record w =
      (playMacro slot (beforeSwitch now keycode record w), false) := by
  have hother := playSlot?_some keycode slot h
  unfold processRecordUser
  dsimp only
  rw [if_neg hother.1, hother.2.1]
  dsimp only
  rw [if_neg hother.2.2, h]
  dsimp only
  rw [if_pos hpressed]

theorem processRecordUser_goesOn (h : (processRecordUser now keycode record w).2) :
    (processRecordUser now keycode record w).1.qmk = w.qmk ∧
      (w.btEnabled → keycode > 0xFF) := by
  unfold processRecordUser at h ⊢
  dsimp only at h ⊢
  -- every case of the switch but the default ends the event
  split at h
  · exact Bool.noConfusion h
  · rename_i hfn2
    rw [if_neg hfn2]
    split at h
    · exact Bool.noConfusion h
    · split at h
      · exact Bool.noConfusion h
      · rename_i hunpair
        rw [if_neg hunpair]
        split at h
        · exact Bool.noConfusion h
        · dsimp only at h ⊢
          refine ⟨by rw [btTrackBasicKeycode_qmk, beforeSwitch_qmk], fun hon => ?_⟩
          have hon' : (btTrackBasicKeycode keycode record.pressed
              (beforeSwitch now keycode record w)).btEnabled := by
            unfold btEnabled at hon ⊢
            rw [btTrackBasicKeycode_driver, beforeSwitch_driver]
            exact hon
          rw [hon', Bool.true_and, Bool.not_eq_true', decide_eq_false_iff_not] at h
          exact BitVec.not_le.mp h

theorem processRecordUser_usb_on (hon : w.btEnabled) :
    (processRecordUser now keycode record w).1.qmk.usb = w.qmk.usb ∨
      (processRecordUser now keycode record w).1.qmk.usb =
        w.qmk.usb.clearKeyboardButModsAndKeys := by
  have hbefore := beforeSwitch_qmk now keycode record w
  unfold processRecordUser
  dsimp only
  split
  · unfold handleFn2Rec Qmk.layerOn Qmk.layerOff Qmk.layerStateSet
    split <;> exact Or.inr (by rw [hbefore])
  · -- FN2_REC is the only one that changes layers
    left
    split
    · split <;> rw [← hbefore]
    · split
      · unfold handleBtUnpair
        split <;> rw [← hbefore]
      · split
        · split
          · rw [playMacro_qmk_on, hbefore]
            unfold btEnabled
            rw [beforeSwitch_driver]
            exact hon
          · rw [hbefore]
        · rw [btTrackBasicKeycode_qmk, hbefore]

theorem recordable_of_play (h : Keymap.playSlot? keycode = some slot) :
    Recorder.recordable keycode = false := by
  unfold Recorder.recordable
  rw [decide_eq_false_iff_not]
  rintro ⟨-, -, -, -, hnone, -⟩
  -- the macro keys are on the list of what is not captured
  rw [h] at hnone
  exact absurd hnone (Option.some_ne_none slot)

theorem beforeSwitch_recorder_play (h : Keymap.playSlot? keycode = some slot) :
    (beforeSwitch now keycode record w).recorder = w.recorder := by
  rw [beforeSwitch_recorder]
  unfold Recorder.capture
  rw [recordable_of_play keycode slot h, Bool.and_false, if_neg Bool.false_ne_true]

theorem processRecordUser_driver :
    (processRecordUser now keycode record w).1.driver = w.driver := by
  unfold processRecordUser
  dsimp only
  split
  · unfold handleFn2Rec
    split <;> exact beforeSwitch_driver now keycode record w
  · split
    · split <;> exact beforeSwitch_driver now keycode record w
    · split
      · unfold handleBtUnpair
        split <;> exact beforeSwitch_driver now keycode record w
      · split
        · split
          · rw [playMacro_driver, beforeSwitch_driver]
          · exact beforeSwitch_driver now keycode record w
        · rw [btTrackBasicKeycode_driver, beforeSwitch_driver]

theorem processRecordUser_recorder :
    (processRecordUser now keycode record w).1.recorder =
      w.recorder.step { keycode, pressed := record.pressed } := by
  have hbefore := beforeSwitch_recorder now keycode record w
  unfold processRecordUser Recorder.step
  dsimp only
  by_cases hfn2 : keycode = Keymap.fn2Rec
  · rw [if_pos hfn2, if_pos hfn2]
    unfold handleFn2Rec
    by_cases hpressed : record.pressed
    · rw [if_pos hpressed, if_pos hpressed]
      exact congrArg Recorder.fn2RecPress hbefore
    · rw [if_neg hpressed, if_neg hpressed]
      exact congrArg Recorder.fn2RecRelease hbefore
  · rw [if_neg hfn2, if_neg hfn2]
    cases Keymap.recSlot? keycode with
    | some slot =>
      dsimp only
      by_cases hpressed : record.pressed
      · rw [if_pos hpressed, if_pos hpressed]
        exact congrArg (Recorder.recToggle slot) hbefore
      · rw [if_neg hpressed, if_neg hpressed]
        exact hbefore
    | none =>
      dsimp only
      split
      · unfold handleBtUnpair
        split <;> exact hbefore
      · split
        · split
          · rw [playMacro_recorder]
            exact hbefore
          · exact hbefore
        · rw [btTrackBasicKeycode_recorder]
          exact hbefore

/-! ### The main loop -/

theorem idleTask_frame (anyKeyDown : Bool) (w : World) :
    (idleTask now anyKeyDown w).qmk = w.qmk ∧ (idleTask now anyKeyDown w).driver = w.driver ∧
      (idleTask now anyKeyDown w).tracker = w.tracker ∧
      (idleTask now anyKeyDown w).recorder = w.recorder ∧
      (idleTask now anyKeyDown w).loads = w.loads := by
  unfold idleTask sleepEnter
  split
  · split
    · exact sleepExit_frame now w
    · exact ⟨rfl, rfl, rfl, rfl, rfl⟩
  · split
    · split
      · split <;> exact ⟨rfl, rfl, rfl, rfl, rfl⟩
      · exact ⟨rfl, rfl, rfl, rfl, rfl⟩
    · split
      · exact sleepExit_frame now w
      · exact ⟨rfl, rfl, rfl, rfl, rfl⟩

theorem matrixScanUser_frame (r : Readings) (link : Byte) (anyKeyDown : Bool) (w : World) :
    (matrixScanUser now r link anyKeyDown w).qmk = w.qmk ∧
      (matrixScanUser now r link anyKeyDown w).driver =
        (Driver.bluetoothTask r link w.driver).1 ∧
      (matrixScanUser now r link anyKeyDown w).tracker = w.tracker ∧
      (matrixScanUser now r link anyKeyDown w).recorder = w.recorder := by
  have hidle := idleTask_frame now anyKeyDown (bluetoothTask r link w)
  unfold matrixScanUser unpairTask
  -- the bond reset only adds a frame
  split
  · exact ⟨hidle.1, hidle.2.1, hidle.2.2.1, hidle.2.2.2.1⟩
  · exact ⟨hidle.1, hidle.2.1, hidle.2.2.1, hidle.2.2.2.1⟩

end World

end K530
