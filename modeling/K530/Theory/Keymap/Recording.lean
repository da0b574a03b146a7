import K530.Theory.Keymap.Hooks

/-!
# What the Macro Slots Replay

What a recorder is for, and how far this one goes with it.

`Takes` is the recorder without its buffers: what each slot last had saved into
it, and the take in progress. A take is saved whole when its key is pressed
again, thirty-two events of it at most, and is otherwise never seen. So a take
given up leaves no trace.

In the code it does. Events are captured into the buffer the slot plays from, so
recording into a slot that already has a macro overwrites the macro as it goes,
and giving the take up does not bring it back. `Mirrors` ties the two together
for as long as that does not happen, and `slots_replay_iff` says that it is all
that can go wrong: the slots replay what was saved, throughout a run, exactly
when no event is captured over a different one that the slot still plays.

Only key events touch the recorder. `hook` interleaves them with turns of the
main loop, which do not.

## Main definitions

* `Takes`: The recorder without its buffers.

## Theorems

* `step_mirrors`: A step that overwrites nothing keeps the two in agreement.
* `slots_replay_iff`: The slots replay what was saved exactly when nothing is
  overwritten.
-/

namespace K530

open StepRun

/-- The takes: what each slot has saved, the take in progress, and whether a
    recording key was pressed since the recording layer was entered. -/
structure Takes where
  saved : Fin 6 → List MacroEvent
  current : Option (Fin 6 × List MacroEvent)
  keyUsed : Bool

namespace Takes

/-- Nothing saved and nothing in progress. -/
def init : Takes :=
  { saved := fun _ => [], current := none, keyUsed := false }

/-- A recordable event belongs to the take in progress. -/
def append (e : MacroEvent) (t : Takes) : Takes :=
  if Recorder.recordable e.keycode then
    { t with current := t.current.map (fun take => (take.1, take.2 ++ [e])) }
  else t

/-- A recording key starts a take, or saves the one in progress in its slot. -/
def toggle (slot : Fin 6) (t : Takes) : Takes :=
  match t.current with
  | none => { t with current := some (slot, []), keyUsed := true }
  | some (taking, events) =>
    if taking = slot then
      { saved := Function.update t.saved slot (events.take macroMaxEvents), current := none,
        keyUsed := true }
    else { t with keyUsed := true }

/-- A key event. -/
def step (e : MacroEvent) (t : Takes) : Takes :=
  let t := t.append e
  if e.keycode = Keymap.fn2Rec then
    if e.pressed then { t with keyUsed := false }
    else if t.keyUsed then t else { t with current := none }
  else
    match Keymap.recSlot? e.keycode with
    | some slot => if e.pressed then t.toggle slot else t
    | none => t

end Takes

namespace Recorder

/-- The event is captured over an entry that the slot still plays, and is not
    the same. -/
def Overwrites (e : MacroEvent) (r : Recorder) : Prop :=
  r.active = true ∧ recordable e.keycode = true ∧ r.index < r.length r.slot ∧
    (r.entries r.slot)[r.index]? ≠ some e

def Taking (r : Recorder) : Option (Fin 6 × List MacroEvent) → Prop
  | none => r.active = false
  | some (slot, events) =>
    r.active = true ∧ r.slot = slot ∧ r.index = min events.length macroMaxEvents ∧
      (r.entries slot).take r.index = events.take macroMaxEvents

structure Mirrors (r : Recorder) (t : Takes) : Prop where
  keyUsed : r.keyUsed = t.keyUsed
  taking : r.Taking t.current
  fits : ∀ slot : Fin 6, r.length slot ≤ macroMaxEvents
  saved : ∀ slot, r.stored slot = t.saved slot

variable (slot : Fin 6)

theorem length_entries (r : Recorder) : (r.entries slot).length = macroMaxEvents :=
  Vector.length_toList

theorem length_init : init.length slot = 0 :=
  Vector.getElem_replicate slot.isLt

theorem init_mirrors : Mirrors init Takes.init := by
  refine ⟨rfl, rfl, fun slot => ?_, fun slot => ?_⟩
  · rw [length_init]
    exact Nat.zero_le macroMaxEvents
  · unfold stored
    rw [length_init, List.take_zero]
    rfl

/-! ### The capture -/

variable (e : MacroEvent) (r : Recorder)

theorem capture_idle (h : ¬ (r.active ∧ recordable e.keycode)) : r.capture e = r := by
  unfold capture
  rw [if_neg (by rw [Bool.and_eq_true]; exact h)]

theorem not_control_of_recordable (keycode : Keycode) (h : recordable keycode) :
    keycode ≠ Keymap.fn2Rec ∧ Keymap.recSlot? keycode = none := by
  unfold recordable at h
  rw [decide_eq_true_eq] at h
  exact ⟨h.1, h.2.1⟩

theorem capture_len : (r.capture e).len = r.len := by
  unfold capture
  split
  · split <;> rfl
  · rfl

theorem length_capture (slot : Fin 6) : (r.capture e).length slot = r.length slot := by
  unfold length
  rw [capture_len]

theorem entries_capture (slot : Fin 6) (hactive : r.active)
    (hrec : recordable e.keycode) (hroom : r.index < macroMaxEvents) :
    (r.capture e).entries slot =
      if r.slot = slot then (r.entries slot).set r.index e else r.entries slot := by
  unfold capture entries
  rw [if_pos (by rw [hactive, hrec]; rfl), dif_pos hroom]
  dsimp only
  by_cases hslot : r.slot = slot
  · subst hslot
    rw [if_pos rfl]
    rw [← Vector.toList_set hroom]
    exact congrArg Vector.toList (Vector.getElem_setIfInBounds_self r.slot.isLt)
  · have hne : r.slot.val ≠ slot.val := fun hc => hslot (Fin.ext hc)
    rw [if_neg hslot]
    exact congrArg Vector.toList (Vector.getElem_setIfInBounds_ne slot.isLt hne)

theorem stored_capture (slot : Fin 6) (hactive : r.active)
    (hrec : recordable e.keycode) (hroom : r.index < macroMaxEvents) :
    (r.capture e).stored slot =
      if r.slot = slot then (r.stored slot).set r.index e else r.stored slot := by
  unfold stored
  rw [length_capture, entries_capture e r slot hactive hrec hroom]
  by_cases hslot : r.slot = slot
  · rw [if_pos hslot, if_pos hslot, List.take_set]
  · rw [if_neg hslot, if_neg hslot]

variable (t : Takes)

theorem step_of_recordable (h : recordable e.keycode) :
    r.step e = r.capture e ∧ t.step e = t.append e := by
  have hcontrol := not_control_of_recordable e.keycode h
  unfold step Takes.step
  rw [if_neg hcontrol.1, if_neg hcontrol.1, hcontrol.2]
  exact ⟨rfl, rfl⟩

theorem capture_taking (h : r.Taking t.current) : (r.capture e).Taking (t.append e).current := by
  unfold Takes.append
  cases htake : t.current with
  | none =>
    rw [htake] at h
    have hidle : r.active = false := h
    rw [capture_idle e r (by rw [hidle]; exact fun hc => Bool.noConfusion hc.1)]
    split
    · exact h
    · rw [htake]
      exact h
  | some take =>
    obtain ⟨slot, events⟩ := take
    rw [htake] at h
    obtain ⟨hactive, rfl, hindex, hbuf⟩ := h
    by_cases hrec : recordable e.keycode
    · rw [if_pos hrec]
      by_cases hroom : r.index < macroMaxEvents
      · have hlen : r.index = events.length := by omega
        have hentries := entries_capture e r r.slot hactive hrec hroom
        rw [if_pos rfl] at hentries
        unfold capture at hentries ⊢
        rw [if_pos (by rw [hactive, hrec]; rfl), dif_pos hroom] at hentries ⊢
        refine ⟨hactive, rfl, ?_, ?_⟩
        · dsimp only
          rw [List.length_append, List.length_singleton]
          omega
        · -- the new entry stands right behind the old ones
          have hold : (r.entries r.slot).take r.index = events := by
            rw [hbuf, List.take_of_length_le (by omega)]
          have hentry : ((r.entries r.slot).set r.index e)[r.index]? = some e :=
            List.getElem?_set_self (by rw [length_entries]; exact hroom)
          dsimp only at hentries ⊢
          rw [hentries, List.take_add_one, List.take_set_of_le (Nat.le_refl _), hold, hentry,
            List.take_of_length_le (by rw [List.length_append, List.length_singleton]; omega)]
          rfl
      · -- the buffer is full, and so the take goes on without the event
        unfold capture
        rw [if_pos (by rw [hactive, hrec]; rfl), dif_neg hroom]
        refine ⟨hactive, rfl, ?_, ?_⟩
        · dsimp only
          rw [List.length_append]
          omega
        · dsimp only
          rw [List.take_append_of_le_length (by omega)]
          exact hbuf
    · rw [if_neg hrec, capture_idle e r (fun hc => hrec hc.2), htake]
      exact ⟨hactive, rfl, hindex, hbuf⟩

theorem stored_capture_of_kept (h : ¬ r.Overwrites e) (slot : Fin 6) :
    (r.capture e).stored slot = r.stored slot := by
  by_cases hcapture : r.active ∧ recordable e.keycode
  · by_cases hroom : r.index < macroMaxEvents
    · rw [stored_capture e r slot hcapture.1 hcapture.2 hroom]
      by_cases hslot : r.slot = slot
      · subst hslot
        rw [if_pos rfl]
        by_cases hplayed : r.index < r.length r.slot
        · -- the entry is the event itself
          have hsame : (r.entries r.slot)[r.index]? = some e :=
            not_not.mp (fun hne => h ⟨hcapture.1, hcapture.2, hplayed, hne⟩)
          have hentry : (r.stored r.slot)[r.index]? = some e := by
            unfold stored
            rw [List.getElem?_take_of_lt hplayed, hsame]
          rw [List.getElem?_eq_some_iff] at hentry
          obtain ⟨hlt, rfl⟩ := hentry
          exact List.set_getElem_self hlt
        · -- an entry behind those that are played
          refine List.set_eq_of_length_le ?_
          unfold stored
          rw [List.length_take]
          omega
      · rw [if_neg hslot]
    · unfold capture
      rw [if_pos (by rw [hcapture.1, hcapture.2]; rfl), dif_neg hroom]
  · rw [capture_idle e r hcapture]

theorem capture_keyUsed : (r.capture e).keyUsed = r.keyUsed := by
  unfold capture
  split
  · split <;> rfl
  · rfl

theorem append_saved : (t.append e).saved = t.saved := by
  unfold Takes.append
  split <;> rfl

theorem append_keyUsed : (t.append e).keyUsed = t.keyUsed := by
  unfold Takes.append
  split <;> rfl

theorem capture_mirrors (h : r.Mirrors t) (hkept : ¬ r.Overwrites e) :
    (r.capture e).Mirrors (t.append e) := by
  refine ⟨?_, capture_taking e r t h.taking, fun slot => ?_, fun slot => ?_⟩
  · rw [capture_keyUsed, append_keyUsed]
    exact h.keyUsed
  · rw [length_capture]
    exact h.fits slot
  · rw [stored_capture_of_kept e r hkept, append_saved]
    exact h.saved slot

/-! ### The control keys -/

theorem fn2RecPress_mirrors (h : r.Mirrors t) : r.fn2RecPress.Mirrors { t with keyUsed := false } :=
  ⟨rfl, h.taking, h.fits, h.saved⟩

theorem fn2RecRelease_mirrors (h : r.Mirrors t) :
    r.fn2RecRelease.Mirrors (if t.keyUsed then t else { t with current := none }) := by
  unfold fn2RecRelease
  rw [← h.keyUsed]
  by_cases hused : r.keyUsed
  · -- a recording key was pressed on the way, and the take goes on
    rw [if_pos hused, hused, if_neg (by exact Bool.false_ne_true)]
    exact h
  · rw [if_neg hused]
    by_cases hactive : r.active
    · rw [if_pos (by rw [Bool.not_eq_true _ |>.mp hused, hactive]; rfl)]
      exact ⟨rfl, rfl, h.fits, h.saved⟩
    · rw [if_neg (by rw [Bool.and_eq_true]; exact fun hc => hactive hc.2)]
      exact ⟨rfl, Bool.not_eq_true _ |>.mp hactive, h.fits, h.saved⟩

theorem recToggle_start (h : r.active = false) :
    r.recToggle slot = { r with keyUsed := true, active := true, slot, index := 0 } := by
  unfold recToggle
  dsimp only
  rw [h, Bool.not_false, if_pos rfl]

theorem recToggle_finish (h : r.active) :
    r.recToggle r.slot =
      save r.slot { r with keyUsed := true } := by
  unfold recToggle
  dsimp only
  rw [h, Bool.not_true, if_neg Bool.false_ne_true, if_pos rfl]

theorem length_save (other : Fin 6) :
    (r.save slot).length other = if slot = other then r.index else r.length other := by
  unfold length save
  dsimp only
  by_cases hslot : slot = other
  · subst hslot
    rw [if_pos rfl]
    exact Vector.getElem_setIfInBounds_self slot.isLt
  · have hne : slot.val ≠ other.val := fun hc => hslot (Fin.ext hc)
    rw [if_neg hslot]
    exact Vector.getElem_setIfInBounds_ne other.isLt hne

theorem recToggle_other (h : r.active) (hslot : r.slot ≠ slot) :
    r.recToggle slot = { r with keyUsed := true } := by
  unfold recToggle
  dsimp only
  rw [h, Bool.not_true, if_neg Bool.false_ne_true, if_neg hslot]

theorem stored_finish (h : r.active) (other : Fin 6) :
    (r.recToggle r.slot).stored other =
      if r.slot = other then (r.entries r.slot).take r.index else r.stored other := by
  rw [recToggle_finish r h]
  unfold stored
  rw [length_save]
  by_cases hslot : r.slot = other
  · rw [if_pos hslot, if_pos hslot, hslot]
    rfl
  · rw [if_neg hslot, if_neg hslot]
    rfl

theorem recToggle_mirrors (h : r.Mirrors t) : (r.recToggle slot).Mirrors (t.toggle slot) := by
  unfold Takes.toggle
  cases htake : t.current with
  | none =>
    have hidle : r.active = false := by
      have htaking := h.taking
      rw [htake] at htaking
      exact htaking
    rw [recToggle_start slot r hidle]
    refine ⟨rfl, ⟨rfl, rfl, rfl, ?_⟩, h.fits, h.saved⟩
    rw [List.take_zero, List.take_nil]
  | some take =>
    obtain ⟨taking, events⟩ := take
    have htaking := h.taking
    rw [htake] at htaking
    obtain ⟨hactive, rfl, hindex, hbuf⟩ := htaking
    dsimp only
    by_cases hslot : r.slot = slot
    · subst hslot
      rw [if_pos rfl]
      refine ⟨by rw [recToggle_finish r hactive]; rfl, by rw [recToggle_finish r hactive]; rfl,
        fun other => ?_, fun other => ?_⟩
      · rw [recToggle_finish r hactive, length_save]
        by_cases hother : r.slot = other
        · rw [if_pos hother]
          dsimp only
          omega
        · rw [if_neg hother]
          exact h.fits other
      · rw [stored_finish r hactive]
        dsimp only
        by_cases hother : r.slot = other
        · subst hother
          rw [if_pos rfl, Function.update_self]
          exact hbuf
        · rw [if_neg hother, Function.update_of_ne (Ne.symm hother)]
          exact h.saved other
    · -- the key of another slot is no more than a key used
      rw [recToggle_other slot r hactive hslot, if_neg hslot]
      refine ⟨rfl, ?_, h.fits, h.saved⟩
      dsimp only
      exact ⟨hactive, rfl, hindex, hbuf⟩

/-! ### Steps -/

theorem step_mirrors (h : r.Mirrors t) (hkept : ¬ r.Overwrites e) :
    (r.step e).Mirrors (t.step e) := by
  have hcapture := capture_mirrors e r t h hkept
  unfold step Takes.step
  dsimp only
  by_cases hfn2 : e.keycode = Keymap.fn2Rec
  · rw [if_pos hfn2, if_pos hfn2]
    cases e.pressed with
    | true => exact fn2RecPress_mirrors _ _ hcapture
    | false => exact fn2RecRelease_mirrors _ _ hcapture
  · rw [if_neg hfn2, if_neg hfn2]
    -- only the press of a recording key toggles
    cases Keymap.recSlot? e.keycode with
    | none => exact hcapture
    | some slot =>
      cases e.pressed with
      | true => exact recToggle_mirrors slot _ _ hcapture
      | false => exact hcapture

theorem step_overwrites (h : r.Mirrors t) (hover : r.Overwrites e) :
    (r.step e).stored r.slot ≠ (t.step e).saved r.slot := by
  obtain ⟨hactive, hrec, hplayed, hne⟩ := hover
  have hroom : r.index < macroMaxEvents := Nat.lt_of_lt_of_le hplayed (h.fits r.slot)
  have hstep := step_of_recordable e r t hrec
  intro hsame
  -- at the entry written, the slot plays the event and the take another one
  rw [hstep.1, hstep.2, stored_capture e r r.slot hactive hrec hroom, if_pos rfl, append_saved,
    ← h.saved] at hsame
  have hentry := congrArg (fun events => events[r.index]?) hsame
  unfold stored at hentry
  rw [List.getElem?_set_self (by rw [List.length_take, length_entries]; omega),
    List.getElem?_take_of_lt hplayed] at hentry
  exact hne hentry.symm

end Recorder

/-! ### Runs -/

/-- What happens to the recorder's world: a key event, whatever its keycode, or
    a turn of the main loop. -/
inductive HookEvent where
  | key (now : BitVec 32) (keycode : Keycode) (record : KeyRecord)
  | scan (now : BitVec 32) (r : Readings) (link : Byte) (anyKeyDown : Bool)

/-- The world after an event. -/
def hook (w : World) : HookEvent → World
  | .key now keycode record => (World.processRecordUser now keycode record w).1
  | .scan now r link anyKeyDown => World.matrixScanUser now r link anyKeyDown w

/-- The takes after an event. -/
def hookTakes (t : Takes) : HookEvent → Takes
  | .key _ keycode record => t.step { keycode, pressed := record.pressed }
  | .scan _ _ _ _ => t

/-- The two side by side. -/
def hookTaken (s : World × Takes) (e : HookEvent) : World × Takes :=
  (hook s.1 e, hookTakes s.2 e)

/-- The event is a key event that overwrites nothing. -/
def KeepsEntries (s : World × Takes) : HookEvent → Prop
  | .key _ keycode record => ¬ s.1.recorder.Overwrites { keycode, pressed := record.pressed }
  | .scan _ _ _ _ => True

/-- Every slot holds what was last saved in it, and its playback key plays
    that. -/
def Replays (s : World × Takes) : Prop :=
  ∀ slot, s.1.recorder.stored slot = s.2.saved slot ∧
    ∀ now keycode record, Keymap.playSlot? keycode = some slot → record.pressed = true →
      World.processRecordUser now keycode record s.1 =
        ((s.2.saved slot).foldl World.playEvent (World.beforeSwitch now keycode record s.1),
          false)

theorem replays_of_mirrors (s : World × Takes) (h : s.1.recorder.Mirrors s.2) : Replays s := by
  intro slot
  refine ⟨h.saved slot, fun now keycode record hplay hpressed => ?_⟩
  rw [World.processRecordUser_play now keycode record s.1 slot hplay hpressed, ← h.saved slot]
  unfold World.playMacro
  rw [World.beforeSwitch_recorder_play now keycode record s.1 slot hplay]

theorem hookTaken_mirrors (s : World × Takes) (e : HookEvent)
    (h : s.1.recorder.Mirrors s.2) (hkept : KeepsEntries s e) :
    (hookTaken s e).1.recorder.Mirrors (hookTaken s e).2 := by
  cases e with
  | key now keycode record =>
    unfold hookTaken hook hookTakes
    dsimp only
    rw [World.processRecordUser_recorder]
    exact Recorder.step_mirrors _ _ _ h hkept
  | scan now r link anyKeyDown =>
    unfold hookTaken hook hookTakes
    dsimp only
    rw [(World.matrixScanUser_frame now r link anyKeyDown s.1).2.2.2]
    exact h

theorem hookTaken_breaks (s : World × Takes) (e : HookEvent)
    (h : s.1.recorder.Mirrors s.2) (hover : ¬ KeepsEntries s e) :
    ¬ Replays (hookTaken s e) := by
  cases e with
  | key now keycode record =>
    intro hsame
    refine Recorder.step_overwrites _ _ _ h (not_not.mp hover) ?_
    have hslot := (hsame s.1.recorder.slot).1
    unfold hookTaken hook hookTakes at hslot
    dsimp only at hslot
    rw [World.processRecordUser_recorder] at hslot
    exact hslot
  | scan now r link anyKeyDown => exact absurd trivial hover

/-- From power-on, and whatever the order of key events and turns of the main
    loop: every slot replays what was last saved in it, in every state of the
    run, exactly when no event is captured over a different one that is still
    played. -/
theorem slots_replay_iff (config : KeymapConfig) (nkro rgbEnabled : Bool) (r : Readings)
    (events : List HookEvent) :
    Always hookTaken Replays (World.powerOn config nkro rgbEnabled r, Takes.init) events ↔
      Along hookTaken KeepsEntries (World.powerOn config nkro rgbEnabled r, Takes.init) events :=
  always_iff_along hookTaken KeepsEntries (fun s => s.1.recorder.Mirrors s.2) Replays
    replays_of_mirrors hookTaken_mirrors hookTaken_breaks events _ Recorder.init_mirrors

def someKey : KeyPos := { row := 0, col := 7 }

def press (keycode : Keycode) : HookEvent :=
  .key 0 keycode { key := someKey, pressed := true, tapCount := 0 }

def release (keycode : Keycode) : HookEvent :=
  .key 0 keycode { key := someKey, pressed := false, tapCount := 0 }

def tapRec1 : List HookEvent :=
  [press Keymap.fn2Rec, press Keymap.rec1Toggle, release Keymap.rec1Toggle,
    release Keymap.fn2Rec]

def recordedThenGivenUp : List HookEvent :=
  tapRec1 ++ [press kcA, release kcA] ++ tapRec1 ++ tapRec1 ++ [press kcB, release kcB] ++
    [press Keymap.fn2Rec, release Keymap.fn2Rec]

/-- A take that was given up has changed what the slot replays. -/
theorem recordedThenGivenUp_replays :
    ¬ ∀ config nkro rgbEnabled r events,
      Always hookTaken Replays (World.powerOn config nkro rgbEnabled r, Takes.init) events := by
  intro h
  have hend := (always_iff_visited _ _ _ _).mp
    (h KeymapConfig.default true true atRest recordedThenGivenUp) recordedThenGivenUp [] rfl 0
  exact absurd hend.1 (by decide +kernel)

end K530
