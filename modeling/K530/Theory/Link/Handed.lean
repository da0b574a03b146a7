import K530.Theory.Keymap.Dispatch
import Mathlib.Data.List.GetD

/-!
# What Is Handed to the Driver

With Bluetooth on, every basic keycode makes a keyboard report, whether a key or
a macro typed it, and the driver makes a frame of every report. A playback makes
as many reports as its slot has events. No other event makes any, and no turn of
the main loop: its frames are controls, host switches and bond resets.

`handedBy` is the list of reports an event hands over, and `react_reaction` says
that the frames it loads are the frames of those reports. The last of them is
what the tracker ends up with.

`keyboardReport?` goes the other way, from thirty-nine bytes to the report a
module would take them for.

## Main definitions

* `IsKeyboard`: A keyboard frame.

## Theorems

* `keyboardReport?_keyboard`: A keyboard frame carries the report it was built
  from.
* `processRecord_hands`: A key event hands over what it types.
-/

namespace K530

namespace Link

open World

/-! ### Frames and reports -/

/-- A keyboard frame, by its command. -/
def IsKeyboard (bytes : List Byte) : Prop :=
  bytes.getD 0 0 = Frame.cmdKeyboard6key

instance decidableIsKeyboard (bytes : List Byte) : Decidable (IsKeyboard bytes) :=
  inferInstanceAs (Decidable (_ = _))

/-- The report in a keyboard frame, as the module reads it: the modifiers in
    byte 3 and the keys from byte 5 on. -/
def keyboardReport? (bytes : List Byte) : Option Report :=
  if IsKeyboard bytes then
    some (Report.ofKeys (bytes.getD 3 0) (Vector.ofFn (fun i => bytes.getD (i.val + 5) 0)))
  else none

theorem keyboardReport?_eq_none (bytes : List Byte) :
    keyboardReport? bytes = none ↔ ¬ IsKeyboard bytes := by
  unfold keyboardReport?
  by_cases h : IsKeyboard bytes
  · rw [if_pos h]
    exact iff_of_false (Option.some_ne_none _) (not_not_intro h)
  · rw [if_neg h]
    exact iff_of_true rfl h

theorem keys_ofKeys (mods : Byte) (keys : Vector Byte 6) :
    (Report.ofKeys mods keys).keys = keys := by
  unfold Report.keys Report.ofKeys
  refine Vector.ext (fun i hi => ?_)
  simp

theorem isKeyboard_sealFrame (command : Byte) (fields : List Byte) :
    IsKeyboard (Frame.sealFrame (command :: fields)).toList ↔ command = Frame.cmdKeyboard6key := by
  unfold IsKeyboard
  rw [Frame.sealFrame_getD _ 0 (by omega)]
  rfl

theorem keyboardReport?_keyboard (charging : Bool) (t : Tracker) :
    keyboardReport? (Frame.buildKeyboardFrame charging t.report).toList = some t.report := by
  have hkey : IsKeyboard (Frame.buildKeyboardFrame charging t.report).toList :=
    (isKeyboard_sealFrame _ _).mpr rfl
  have hkeys : (Vector.ofFn (fun i : Fin 6 =>
      (Frame.buildKeyboardFrame charging t.report).toList.getD (i.val + 5) 0)) = t.keys := by
    refine Vector.ext (fun i hi => ?_)
    unfold Frame.buildKeyboardFrame Tracker.report
    rw [Vector.getElem_ofFn, Frame.sealFrame_getD _ _ (by omega), keys_ofKeys,
      List.getD_append_right _ _ _ _ (by simp)]
    simp [hi]
  unfold keyboardReport?
  rw [if_pos hkey, hkeys]
  unfold Frame.buildKeyboardFrame
  rw [Frame.sealFrame_getD _ 3 (by omega)]
  rfl

theorem keyboardReport?_sealFrame (command : Byte) (fields : List Byte)
    (h : command ≠ Frame.cmdKeyboard6key) :
    keyboardReport? (Frame.sealFrame (command :: fields)).toList = none :=
  (keyboardReport?_eq_none _).mpr (fun hc => h ((isKeyboard_sealFrame command fields).mp hc))

/-! ### Key events -/

/-- The reports some events make of a tracker. -/
def reportsOf : List MacroEvent → Tracker → List Report
  | [], _ => []
  | e :: events, t =>
    if e.keycode > 0xFF then reportsOf events t
    else
      (t.track e.keycode e.pressed).report :: reportsOf events (t.track e.keycode e.pressed)

/-- What a key event types: what the slot holds if it is the press of a playback
    key, and the keycode itself otherwise. -/
def typedBy (record : KeyRecord) (w : World) : List MacroEvent :=
  match Keymap.playSlot? (getRecordKeycode record w.qmk) with
  | some slot => if record.pressed then w.recorder.stored slot else []
  | none => [{ keycode := getRecordKeycode record w.qmk, pressed := record.pressed }]

/-- The reports an event hands to the driver. -/
def handedBy (w : World) : Event → List Report
  | .key _ record => reportsOf (typedBy record w) w.tracker
  | .scan _ _ _ _ => []

def frameOf (w : World) (report : Report) : TxFrame :=
  Frame.buildKeyboardFrame w.driver.charge.stable report

/-- Some reports have been handed over: their frames have been loaded, the last
    of them is the tracker's, and the driver is as before. -/
structure Hands (reports : List Report) (w w' : World) : Prop where
  loads : w'.loads = w.loads ++ reports.map (frameOf w)
  tracker : reports.getLast?.getD w.tracker.report = w'.tracker.report
  driver : w'.driver = w.driver

theorem hands_nil (w w' : World) (hloads : w'.loads = w.loads) (htracker : w'.tracker = w.tracker)
    (hdriver : w'.driver = w.driver) : Hands [] w w' := by
  refine ⟨?_, ?_, hdriver⟩
  · rw [hloads, List.map_nil, List.append_nil]
  · rw [htracker]
    rfl

theorem hands_congr (reports : List Report) (u v w w' : World) (h : Hands reports u v)
    (hloads : u.loads = w.loads ∧ w'.loads = v.loads)
    (htracker : u.tracker = w.tracker ∧ w'.tracker = v.tracker)
    (hdriver : u.driver = w.driver ∧ w'.driver = v.driver) : Hands reports w w' := by
  obtain ⟨hl, ht, hd⟩ := h
  refine ⟨?_, ?_, ?_⟩
  · rw [hloads.2, hl, hloads.1]
    unfold frameOf
    rw [hdriver.1]
  · rw [htracker.2, ← ht, htracker.1]
  · rw [hdriver.2, hd, hdriver.1]

theorem hands_append (rs ss : List Report) (u v w : World) (huv : Hands rs u v)
    (hvw : Hands ss v w) : Hands (rs ++ ss) u w := by
  obtain ⟨hl, ht, hd⟩ := huv
  obtain ⟨hl', ht', hd'⟩ := hvw
  have hframe : frameOf v = frameOf u := by
    unfold frameOf
    rw [hd]
  refine ⟨?_, ?_, hd'.trans hd⟩
  · rw [hl', hl, hframe, List.map_append, List.append_assoc]
  · rw [← ht', ← ht, List.getLast?_append]
    cases ss.getLast? with
    | none => rfl
    | some r => rfl

theorem btTrackBasicKeycode_hands (e : MacroEvent) (w : World) (hon : w.btEnabled)
    (hready : w.driver.slaveReady) :
    Hands (reportsOf [e] w.tracker) w (btTrackBasicKeycode e.keycode e.pressed w) := by
  have hloads := btTrackBasicKeycode_loads e.keycode e.pressed w
  have htracker := btTrackBasicKeycode_tracker e.keycode e.pressed w
  unfold reportsOf
  by_cases habove : e.keycode > 0xFF
  · rw [if_pos habove] at hloads htracker ⊢
    rw [List.append_nil] at hloads
    exact hands_nil w _ hloads htracker (btTrackBasicKeycode_driver e.keycode e.pressed w)
  · rw [if_neg habove] at hloads htracker ⊢
    refine ⟨?_, ?_, btTrackBasicKeycode_driver e.keycode e.pressed w⟩
    · have hoff : ¬ (!w.driver.isEnabled) = true := by
        rw [show w.driver.isEnabled = true from hon]
        exact Bool.false_ne_true
      rw [hloads]
      unfold Driver.bluetoothSendKeyboard
      rw [if_neg hoff, hready]
      rfl
    · rw [htracker]
      rfl

theorem reportsOf_cons (e : MacroEvent) (events : List MacroEvent) (t : Tracker) :
    reportsOf (e :: events) t =
      reportsOf [e] t ++
        reportsOf events (if e.keycode > 0xFF then t else t.track e.keycode e.pressed) := by
  simp only [reportsOf]
  by_cases habove : e.keycode > 0xFF
  · rw [if_pos habove, if_pos habove, if_pos habove, List.nil_append]
  · rw [if_neg habove, if_neg habove, if_neg habove, List.singleton_append]

theorem foldl_playEvent_hands (events : List MacroEvent) :
    ∀ w : World, w.btEnabled → w.driver.slaveReady →
      Hands (reportsOf events w.tracker) w (events.foldl playEvent w) := by
  -- on the events, for every tracker they may find
  induction events with
  | nil =>
    intro w _ _
    exact hands_nil w w rfl rfl rfl
  | cons e events ih =>
    intro w hon hready
    have hplay : playEvent w e = btTrackBasicKeycode e.keycode e.pressed w := by
      unfold playEvent
      rw [hon]
      rfl
    have hfirst := btTrackBasicKeycode_hands e w hon hready
    have hrest := ih (playEvent w e)
      (by unfold btEnabled at hon ⊢; rw [playEvent_driver]; exact hon)
      (by rw [playEvent_driver]; exact hready)
    have htracker := btTrackBasicKeycode_tracker e.keycode e.pressed w
    rw [hplay, htracker] at hrest
    have hboth := hands_append _ _ _ _ _ hfirst hrest
    rw [List.foldl_cons, hplay]
    rw [reportsOf_cons]
    exact hboth

theorem playSlot?_above (keycode : Keycode) (slot : Fin 6)
    (h : Keymap.playSlot? keycode = some slot) : keycode > 0xFF := by
  by_contra hc
  rw [(own_keycode_above keycode (BitVec.not_lt.mp hc)).2.2.2] at h
  exact absurd h.symm (Option.some_ne_none slot)

theorem processRecordUser_quiet (now : BitVec 32) (keycode : Keycode) (record : KeyRecord)
    (w : World) (habove : keycode > 0xFF)
    (h : Keymap.playSlot? keycode = none ∨ record.pressed = false) :
    (processRecordUser now keycode record w).1.loads = (beforeSwitch now keycode record w).loads ∧
      (processRecordUser now keycode record w).1.tracker =
        (beforeSwitch now keycode record w).tracker := by
  unfold processRecordUser
  dsimp only
  split
  · unfold handleFn2Rec
    split <;> exact ⟨rfl, rfl⟩
  · split
    · split <;> exact ⟨rfl, rfl⟩
    · split
      · unfold handleBtUnpair
        split <;> exact ⟨rfl, rfl⟩
      · split
        · rename_i hplay
          rcases h with h | h
          · rw [h] at hplay
            exact absurd hplay.symm (Option.some_ne_none _)
          · rw [h]
            exact ⟨rfl, rfl⟩
        · unfold btTrackBasicKeycode
          rw [if_pos habove]
          exact ⟨rfl, rfl⟩

theorem processRecordUser_hands (now : BitVec 32) (record : KeyRecord) (w : World)
    (hon : w.btEnabled) (hready : w.driver.slaveReady) :
    Hands (reportsOf (typedBy record w) w.tracker) w
      (processRecordUser now (getRecordKeycode record w.qmk) record (remembered record w)).1 := by
  unfold typedBy
  have hbefore := beforeSwitch_frame now (getRecordKeycode record w.qmk) record
    (remembered record w)
  have hdriver := hbefore.2.1
  have htracker := hbefore.2.2.1
  have hloads := hbefore.2.2.2.2
  have hon' : (beforeSwitch now (getRecordKeycode record w.qmk) record
      (remembered record w)).btEnabled := by
    unfold btEnabled
    rw [hdriver]
    exact hon
  have hready' : (beforeSwitch now (getRecordKeycode record w.qmk) record
      (remembered record w)).driver.slaveReady := by
    rw [hdriver]
    exact hready
  have hhook := processRecordUser_driver now (getRecordKeycode record w.qmk) record
    (remembered record w)
  cases hplay : Keymap.playSlot? (getRecordKeycode record w.qmk) with
  | some slot =>
    cases hpressed : record.pressed with
    | true =>
      -- what precedes the switch captures no playback key
      dsimp only
      rw [if_pos rfl, processRecordUser_play now _ record _ slot hplay hpressed]
      unfold playMacro
      rw [beforeSwitch_recorder_play now _ record _ slot hplay]
      have hhands := foldl_playEvent_hands (w.recorder.stored slot) _ hon' hready'
      rw [htracker] at hhands
      exact hands_congr _ _ _ _ _ hhands ⟨hloads, rfl⟩ ⟨htracker, rfl⟩ ⟨hdriver, rfl⟩
    | false =>
      dsimp only
      rw [if_neg Bool.false_ne_true]
      have habove := playSlot?_above _ slot hplay
      have hquiet := processRecordUser_quiet now _ record (remembered record w) habove
        (Or.inr hpressed)
      exact hands_nil _ _ (hquiet.1.trans hloads) (hquiet.2.trans htracker) hhook
  | none =>
    dsimp only
    by_cases habove : getRecordKeycode record w.qmk > 0xFF
    · have hquiet := processRecordUser_quiet now _ record (remembered record w) habove
        (Or.inl hplay)
      unfold reportsOf
      rw [if_pos habove]
      exact hands_nil _ _ (hquiet.1.trans hloads) (hquiet.2.trans htracker) hhook
    · rw [processRecordUser_basic now _ record _ (BitVec.not_lt.mp habove)]
      have hhands := btTrackBasicKeycode_hands
        { keycode := getRecordKeycode record w.qmk, pressed := record.pressed } _ hon' hready'
      rw [htracker] at hhands
      exact hands_congr _ _ _ _ _ hhands ⟨hloads, rfl⟩ ⟨htracker, rfl⟩ ⟨hdriver, rfl⟩

theorem processRecord_hands (now : BitVec 32) (record : KeyRecord) (w : World)
    (hon : w.btEnabled) (hready : w.driver.slaveReady) :
    Hands (handedBy w (.key now record)) w (processRecord now record w) := by
  have hhook := processRecordUser_hands now record w hon hready
  -- whatever QMK does with the event, it does on the wire
  rcases processRecord_cases now record w _ _ rfl with hc | hc | hc | hc
  · rw [hc.2]
    exact hhook
  · rw [hc.2.2.2]
    exact hands_congr _ _ _ _ _ hhook ⟨rfl, rfl⟩ ⟨rfl, rfl⟩ ⟨rfl, rfl⟩
  · rw [hc.2.2.2]
    exact hands_congr _ _ _ _ _ hhook ⟨rfl, rfl⟩ ⟨rfl, rfl⟩ ⟨rfl, rfl⟩
  · rw [hc.2]
    exact hands_congr _ _ _ _ _ hhook ⟨rfl, rfl⟩ ⟨rfl, rfl⟩ ⟨rfl, rfl⟩

/-! ### The main loop -/

theorem reactEdges_silent (btChanged hostChanged : Bool) (d : Driver) :
    ∀ f ∈ (d.reactEdges btChanged hostChanged).2, keyboardReport? f.toList = none := by
  have hcontrol : ∀ enabled, keyboardReport? (d.sendBtControl enabled).toList = none :=
    fun enabled => keyboardReport?_sealFrame _ _ (by decide)
  have hhost : keyboardReport? d.sendBtHostSwitch.toList = none :=
    keyboardReport?_sealFrame _ _ (by decide)
  unfold Driver.reactEdges
  split
  · split
    · exact List.forall_mem_cons.mpr ⟨hhost, List.forall_mem_singleton.mpr (hcontrol true)⟩
    · exact List.forall_mem_singleton.mpr (hcontrol false)
  · split
    · exact List.forall_mem_singleton.mpr hhost
    · exact List.forall_mem_nil _

theorem holdLink_silent (link : Byte) (d : Driver) :
    ∀ f ∈ (d.holdLink link).2, keyboardReport? f.toList = none := by
  have hcontrol : ∀ enabled, keyboardReport? (d.sendBtControl enabled).toList = none :=
    fun enabled => keyboardReport?_sealFrame _ _ (by decide)
  unfold Driver.holdLink
  split
  · split
    · split
      · exact List.forall_mem_singleton.mpr (hcontrol false)
      · exact List.forall_mem_nil _
    · exact List.forall_mem_nil _
  · split
    · split
      · exact List.forall_mem_singleton.mpr (hcontrol true)
      · exact List.forall_mem_nil _
    · exact List.forall_mem_nil _

theorem sendBtUnpair_silent (d : Driver) :
    ∀ f ∈ d.sendBtUnpair, keyboardReport? f.toList = none := by
  unfold Driver.sendBtUnpair
  split
  · exact List.forall_mem_nil _
  · exact List.forall_mem_singleton.mpr (keyboardReport?_sealFrame _ _ (by decide))

theorem matrixScanUser_loads (now : BitVec 32) (r : Readings) (link : Byte) (anyKeyDown : Bool)
    (w : World) :
    ∃ frames, (matrixScanUser now r link anyKeyDown w).loads = w.loads ++ frames ∧
      ∀ f ∈ frames, keyboardReport? f.toList = none := by
  have hidle := idleTask_frame now anyKeyDown (bluetoothTask r link w)
  have htask : ∀ f ∈ (Driver.bluetoothTask r link w.driver).2, keyboardReport? f.toList = none := by
    unfold Driver.bluetoothTask
    dsimp only
    intro f hf
    rcases List.mem_append.mp hf with hf | hf
    · exact reactEdges_silent _ _ _ f hf
    · exact holdLink_silent _ _ f hf
  unfold matrixScanUser unpairTask
  split
  · refine ⟨(Driver.bluetoothTask r link w.driver).2 ++
      (idleTask now anyKeyDown (bluetoothTask r link w)).driver.sendBtUnpair, ?_, fun f hf => ?_⟩
    · dsimp only
      rw [hidle.2.2.2.2, ← List.append_assoc]
      rfl
    · rcases List.mem_append.mp hf with hf | hf
      · exact htask f hf
      · exact sendBtUnpair_silent _ f hf
  · exact ⟨(Driver.bluetoothTask r link w.driver).2, hidle.2.2.2.2, htask⟩

theorem bluetoothTask_ready (r : Readings) (link : Byte) (d : Driver)
    (h : d.slaveReady) : (d.bluetoothTask r link).1.slaveReady := by
  have hreact : ∀ btChanged hostChanged (d : Driver), d.slaveReady →
      (d.reactEdges btChanged hostChanged).1.slaveReady := by
    intro btChanged hostChanged d hd
    unfold Driver.reactEdges
    split
    · split <;> rfl
    · split <;> exact hd
  have hhold : ∀ d : Driver, d.slaveReady → (d.holdLink link).1.slaveReady := by
    intro d hd
    unfold Driver.holdLink
    split
    · split
      · split <;> exact hd
      · exact hd
    · split
      · split <;> exact hd
      · exact hd
  unfold Driver.bluetoothTask
  dsimp only
  exact hhold _ (hreact _ _ _ h)

/-! ### Events -/

/-- The reports in some frames. -/
def reportsIn (frames : List TxFrame) : List Report :=
  frames.filterMap (fun f => keyboardReport? f.toList)

/-- What an event loads is the frames of what it hands over, and frames that
    carry no report. -/
structure Reaction (w : World) (e : Event) : Prop where
  loads : ∃ frames, (react w e).loads = w.loads ++ frames ∧ reportsIn frames = handedBy w e
  tracker : (handedBy w e).getLast?.getD w.tracker.report = (react w e).tracker.report
  ready : (react w e).driver.slaveReady = true

theorem frameOf_report (w : World) (events : List MacroEvent) :
    ∀ t : Tracker, reportsIn ((reportsOf events t).map (frameOf w)) = reportsOf events t := by
  unfold reportsIn
  induction events with
  | nil =>
    intro t
    rfl
  | cons e events ih =>
    intro t
    simp only [reportsOf]
    split
    · exact ih t
    · unfold frameOf
      rw [List.map_cons, List.filterMap_cons, keyboardReport?_keyboard]
      exact congrArg (List.cons _) (ih _)

theorem react_reaction (w : World) (e : Event) (hon : OnAtKeys w e)
    (hready : w.driver.slaveReady) : Reaction w e := by
  cases e with
  | key now record =>
    have hhands := processRecord_hands now record w hon hready
    refine ⟨⟨_, hhands.loads, frameOf_report w _ _⟩, hhands.tracker, ?_⟩
    show (processRecord now record w).driver.slaveReady
    rw [hhands.driver]
    exact hready
  | scan now r link anyKeyDown =>
    have hframe := matrixScanUser_frame now r link anyKeyDown w
    obtain ⟨frames, hloads, hsilent⟩ := matrixScanUser_loads now r link anyKeyDown w
    refine ⟨⟨frames, hloads, List.filterMap_eq_nil_iff.mpr hsilent⟩, ?_, ?_⟩
    · show w.tracker.report = (matrixScanUser now r link anyKeyDown w).tracker.report
      rw [hframe.2.2.1]
    · show (matrixScanUser now r link anyKeyDown w).driver.slaveReady
      rw [hframe.2.1]
      exact bluetoothTask_ready r link w.driver hready

end Link

end K530
