import K530.Lib.Run
import K530.Theory.Keymap.Dispatch

/-!
# What Playback Leaves Behind

A slot is played from beginning to end and that is all. Whatever its last event
on a key or a modifier was is how that key or modifier is left. A recording that
was stopped with a key held, or that ran out of places before the release, is
left with the key down.

Which events touch a channel depends on the keycode alone, and on whether
Bluetooth is on. A press turns the channel on if it finds room, and a release
turns it off, so each channel is a latch, and `playback_clears_iff` says when
all of them end up off.

## Main definitions

* `Channel.touches`: The events that touch it.

## Theorems

* `channel_isLatch`: A channel is a latch.
* `playback_clears_iff`: A playback leaves nothing behind exactly when the slot
  is balanced.
-/

namespace K530

open StepRun World

namespace Channel

/-- The event is about the channel. -/
def touches (btOn : Bool) (e : MacroEvent) : Channel → Prop
  | tracked code => e.keycode ≤ 0xFF ∧ code = lowByte e.keycode ∧ code ≠ 0
  | key code => btOn = false ∧ isKey (lowByte e.keycode) = true ∧ code = lowByte e.keycode
  | realMod code => btOn = false ∧ isMod code = true ∧ code = lowByte e.keycode
  | weakMod i => btOn = false ∧ (Usb.extractModBits e.keycode).getLsbD i = true

/-- The event turns the channel on. -/
def sets (ch : Channel) (w : World) (e : MacroEvent) : Prop :=
  e.pressed = true ∧ ch.touches w.btEnabled e ∧ ch.hasRoom w

/-- The event turns the channel off. -/
def resets (ch : Channel) (w : World) (e : MacroEvent) : Prop :=
  e.pressed = false ∧ ch.touches w.btEnabled e

end Channel

/-- Every press that finds room is followed by a release, on every channel. -/
def Balanced (w : World) (events : List MacroEvent) : Prop :=
  ∀ ch : Channel, Answered playEvent ch.sets ch.resets w events

/-! ### Channels are latches -/

theorem playEvent_tracker (w : World) (e : MacroEvent) :
    (playEvent w e).tracker =
      if e.keycode > 0xFF then w.tracker else w.tracker.track e.keycode e.pressed := by
  unfold playEvent
  rw [btTrackBasicKeycode_tracker]
  by_cases hoff : (!w.btEnabled) = true
  · rw [if_pos hoff]
  · rw [if_neg hoff]

theorem playEvent_usb_off (w : World) (e : MacroEvent) (h : w.btEnabled = false) :
    (playEvent w e).qmk.usb =
      if e.pressed then w.qmk.usb.registerCode16 e.keycode
      else w.qmk.usb.unregisterCode16 e.keycode := by
  unfold playEvent
  rw [btTrackBasicKeycode_qmk, h]
  cases e.pressed <;> rfl

theorem tracked_turns (code : Byte) (w : World) (e : MacroEvent) (h : w.Sound) :
    (Channel.tracked code).on (playEvent w e) ↔
      (Channel.tracked code).sets w e ∨
        (Channel.tracked code).on w ∧ ¬ (Channel.tracked code).resets w e := by
  refine turns_iff e.pressed _ _ _ _ (fun hpressed => ?_) (fun hpressed => ?_)
  · unfold Channel.on Channel.touches Channel.hasRoom
    dsimp only
    rw [playEvent_tracker]
    by_cases habove : e.keycode > 0xFF
    · -- the tracker looks at basic keycodes only
      rw [if_pos habove]
      exact (or_iff_left (fun hc => absurd hc.1.1 (BitVec.not_le.mpr habove))).symm
    · have hbasic : e.keycode ≤ 0xFF := BitVec.not_lt.mp habove
      rw [if_neg habove, Tracker.holds_track w.tracker h.packed _ _ hbasic, if_pos hpressed]
      refine or_congr_right ⟨?_, ?_⟩
      · rintro ⟨hsame, hne, hroom⟩
        exact ⟨⟨hbasic, hsame, hne⟩, hroom⟩
      · rintro ⟨⟨-, hsame, hne⟩, hroom⟩
        exact ⟨hsame, hne, hroom⟩
  · unfold Channel.on Channel.touches
    dsimp only
    rw [playEvent_tracker]
    by_cases habove : e.keycode > 0xFF
    · rw [if_pos habove]
      exact (and_iff_left (fun hc => absurd hc.1 (BitVec.not_le.mpr habove))).symm
    · have hbasic : e.keycode ≤ 0xFF := BitVec.not_lt.mp habove
      rw [if_neg habove, Tracker.holds_track w.tracker h.packed _ _ hbasic,
        if_neg (by rw [hpressed]; exact Bool.false_ne_true)]
      -- no place holds the code 0, so its release is none
      refine and_congr_right (fun hon => not_congr ⟨fun hsame => ⟨hbasic, hsame, ?_⟩, ?_⟩)
      · rintro rfl
        exact hon.1 rfl
      · exact fun hc => hc.2.1

theorem Channel.touches_wire (ch : Channel) (h : ch.OnWire) (btOn : Bool) (e : MacroEvent) :
    ch.touches btOn e ↔ btOn = false ∧ ch.Types (lowByte e.keycode) := by
  cases ch with
  | tracked _ => exact h.elim
  | weakMod _ => exact h.elim
  | realMod _ => exact Iff.rfl
  | key _ =>
    refine and_congr_right (fun _ => ⟨?_, ?_⟩)
    · rintro ⟨hkey, rfl⟩
      exact ⟨hkey, rfl⟩
    · rintro ⟨hkey, rfl⟩
      exact ⟨hkey, rfl⟩

theorem wire_turns (ch : Channel) (hwire : ch.OnWire) (w : World) (e : MacroEvent)
    (h : w.Sound) : ch.on (playEvent w e) ↔ ch.sets w e ∨ ch.on w ∧ ¬ ch.resets w e := by
  have htouches := ch.touches_wire hwire w.btEnabled e
  cases hon : w.btEnabled with
  | true =>
    -- nothing is played on the wire
    have hqmk := playEvent_qmk_on w e hon
    have hsame : ch.on (playEvent w e) ↔ ch.on w :=
      ch.on_congr hwire _ _ (fun key => by rw [hqmk]) (by rw [hqmk])
    have hquiet : ¬ ch.touches w.btEnabled e := by
      rw [htouches, hon]
      exact fun hc => Bool.noConfusion hc.1
    refine turns_iff e.pressed _ _ _ _ (fun _ => ?_) (fun _ => ?_)
    · rw [hsame]
      exact (or_iff_left (fun hc => hquiet hc.1)).symm
    · rw [hsame]
      exact (and_iff_left hquiet).symm
  | false =>
    have husb := playEvent_usb_off w e hon
    rw [hon, and_iff_right rfl] at htouches
    refine turns_iff e.pressed _ _ _ _ (fun hpressed => ?_) (fun hpressed => ?_)
    · have hspec := Usb.registerCode16_spec e.keycode w.qmk.usb h.settled
      rw [if_pos hpressed] at husb
      rw [← husb] at hspec
      rw [hon, htouches]
      exact ch.on_of_press hwire _ _ _ hspec.keys hspec.realMods
    · have hspec := Usb.unregisterCode16_spec e.keycode w.qmk.usb h.settled
      rw [if_neg (by rw [hpressed]; exact Bool.false_ne_true)] at husb
      rw [← husb] at hspec
      rw [hon, htouches]
      exact ch.on_of_release hwire _ _ _ hspec.keys hspec.realMods

theorem weakMod_turns (i : Fin 8) (w : World) (e : MacroEvent) (h : w.Sound) :
    (Channel.weakMod i).on (playEvent w e) ↔
      (Channel.weakMod i).sets w e ∨
        (Channel.weakMod i).on w ∧ ¬ (Channel.weakMod i).resets w e := by
  refine turns_iff e.pressed _ _ _ _ (fun hpressed => ?_) (fun hpressed => ?_)
  · unfold Channel.on Channel.touches Channel.hasRoom
    dsimp only
    cases hon : w.btEnabled with
    | true =>
      rw [playEvent_qmk_on w e hon]
      exact (or_iff_left (fun hc => absurd hc.1.1.symm Bool.false_ne_true)).symm
    | false =>
      have hspec := Usb.registerCode16_spec e.keycode w.qmk.usb h.settled
      rw [playEvent_usb_off w e hon, if_pos hpressed, hspec.weakMods, BitVec.getLsbD_or,
        Bool.or_eq_true, and_iff_right rfl, and_true]
  · unfold Channel.on Channel.touches
    dsimp only
    cases hon : w.btEnabled with
    | true =>
      rw [playEvent_qmk_on w e hon]
      exact (and_iff_left (fun hc => absurd hc.1.symm Bool.false_ne_true)).symm
    | false =>
      have hspec := Usb.unregisterCode16_spec e.keycode w.qmk.usb h.settled
      rw [playEvent_usb_off w e hon, if_neg (by rw [hpressed]; exact Bool.false_ne_true),
        hspec.weakMods, BitVec.getLsbD_and, BitVec.getLsbD_not, decide_eq_true i.isLt,
        Bool.true_and, Bool.and_eq_true, Bool.not_eq_true', and_iff_right rfl, Bool.not_eq_true]

theorem channel_isLatch (ch : Channel) :
    IsLatch playEvent (fun _ _ => True) Sound ch.on ch.sets ch.resets := by
  refine ⟨fun w e h _ => playEvent_sound w e h, fun w e h _ => ?_⟩
  cases ch with
  | tracked code => exact tracked_turns code w e h
  | key code => exact wire_turns (.key code) trivial w e h
  | realMod code => exact wire_turns (.realMod code) trivial w e h
  | weakMod i => exact weakMod_turns i w e h

/-! ### Playing a slot -/

theorem foldl_playEvent_clear_iff (events : List MacroEvent) (w : World) (h : w.Sound)
    (hclear : w.qmk.usb.Clear) (hempty : w.tracker = Tracker.empty) :
    (events.foldl playEvent w).qmk.usb.Clear ∧ (events.foldl playEvent w).tracker = Tracker.empty ↔
      Balanced w events := by
  have hend : (run playEvent w events).Sound :=
    run_invariant playEvent Sound playEvent_sound events w h
  have hstart := (clear_iff_channels w h).mp ⟨hclear, hempty⟩
  -- one latch per channel, each off at the start
  rw [show events.foldl playEvent w = run playEvent w events from rfl, clear_iff_channels _ hend]
  unfold Balanced
  refine forall_congr' (fun ch => ?_)
  exact off_run_iff playEvent _ Sound ch.on ch.sets ch.resets (channel_isLatch ch) events w h
    (hstart ch) (along_of_forall playEvent _ events (fun _ _ _ => trivial) w)

/-- The world the playback loop starts in. -/
def loopStart (now : BitVec 32) (record : KeyRecord) (w : World) : World :=
  beforeSwitch now (getRecordKeycode record w.qmk) record (remembered record w)

theorem processRecord_play (now : BitVec 32) (record : KeyRecord) (w : World) (slot : Fin 6)
    (hplay : Keymap.playSlot? (getRecordKeycode record w.qmk) = some slot)
    (hpressed : record.pressed) :
    processRecord now record w =
      (w.recorder.stored slot).foldl playEvent (loopStart now record w) := by
  have huser := processRecordUser_play now _ record (remembered record w) slot hplay hpressed
  rw [processRecord_ended now record w _ huser]
  unfold playMacro loopStart
  rw [beforeSwitch_recorder_play now _ record (remembered record w) slot hplay]
  rfl

/-- Whatever has happened since power-on: a playback that starts with nothing
    down, on the wire or in the tracker, ends with nothing down exactly when the
    slot is balanced. -/
theorem playback_clears_iff (config : KeymapConfig) (nkro rgbEnabled : Bool) (r : Readings)
    (events : List Event) (now : BitVec 32) (record : KeyRecord) (slot : Fin 6) (w : World)
    (hw : w = run react (powerOn config nkro rgbEnabled r) events)
    (hplay : Keymap.playSlot? (getRecordKeycode record w.qmk) = some slot)
    (hpressed : record.pressed = true) (hclear : w.qmk.usb.Clear)
    (hempty : w.tracker = Tracker.empty) :
    (processRecord now record w).qmk.usb.Clear ∧
        (processRecord now record w).tracker = Tracker.empty ↔
      Balanced (loopStart now record w) (w.recorder.stored slot) := by
  -- what precedes the loop leaves the wire and the tracker alone
  have hsound : w.Sound := by
    rw [hw]
    exact run_invariant react Sound react_sound events _
      (powerOn_sound config nkro rgbEnabled r)
  have husb : (loopStart now record w).qmk.usb = w.qmk.usb := by
    unfold loopStart
    rw [beforeSwitch_qmk, remembered_qmk, (rememberLayer_frame record w.qmk).1]
  have htracker : (loopStart now record w).tracker = w.tracker := by
    unfold loopStart
    rw [beforeSwitch_tracker, remembered_tracker]
  rw [processRecord_play now record w slot hplay hpressed]
  refine foldl_playEvent_clear_iff _ _ ⟨?_, ?_⟩ ?_ ?_
  · rw [husb]
    exact hsound.settled
  · rw [htracker]
    exact hsound.packed
  · rw [husb]
    exact hclear
  · rw [htracker]
    exact hempty

/-! ### A recording stopped with a key held -/

/-- The recording layer held, and the first recording key tapped. -/
def tapRec1Keys : List Event :=
  [keyAt 4 12 true, keyAt 0 7 true, keyAt 0 1 true, keyAt 0 1 false, keyAt 0 7 false,
    keyAt 4 12 false]

/-- A is pressed during a recording and let go after it; then the playback layer
    is held. -/
def stoppedWithKeyHeld : List Event :=
  tapRec1Keys ++ [keyAt 2 1 true] ++ tapRec1Keys ++ [keyAt 2 1 false, keyAt 2 0 true]

/-- The playback key of the first slot. -/
def playKey : KeyRecord :=
  { key := { row := 0, col := 1 }, pressed := true, tapCount := 0 }

/-- The world after the recording, with every key up. -/
def afterRecording : World :=
  run react (powerOn KeymapConfig.default true true atRest) stoppedWithKeyHeld

theorem afterRecording_idle :
    Keymap.playSlot? (getRecordKeycode playKey afterRecording.qmk) = some 0 ∧
      afterRecording.qmk.usb.report = Report.empty ∧ afterRecording.qmk.usb.realMods = 0 ∧
      afterRecording.qmk.usb.weakMods = 0 ∧ afterRecording.tracker = Tracker.empty := by
  decide +kernel

/-- The playback leaves A down. -/
theorem stoppedWithKeyHeld_sticks :
    ¬ ∀ (config : KeymapConfig) (nkro rgbEnabled : Bool) (r : Readings) (events : List Event)
      (now : BitVec 32) (record : KeyRecord) (slot : Fin 6) (w : World),
      w = run react (powerOn config nkro rgbEnabled r) events →
      Keymap.playSlot? (getRecordKeycode record w.qmk) = some slot → record.pressed = true →
      w.qmk.usb.Clear → w.tracker = Tracker.empty →
      (processRecord now record w).qmk.usb.Clear ∧
        (processRecord now record w).tracker = Tracker.empty := by
  intro h
  have hidle := afterRecording_idle
  have hclear := Usb.clear_of_empty _ hidle.2.1 hidle.2.2.1 hidle.2.2.2.1
  have hend := h KeymapConfig.default true true atRest stoppedWithKeyHeld 0 playKey 0
    afterRecording rfl hidle.1 rfl hclear hidle.2.2.2.2
  exact absurd hend.2 (by decide +kernel)

/-- The recording above, for the general statement. -/
theorem playback_clears_iff_stopped :
    ((processRecord 0 playKey afterRecording).qmk.usb.Clear ∧
        (processRecord 0 playKey afterRecording).tracker = Tracker.empty ↔
      Balanced (loopStart 0 playKey afterRecording) (afterRecording.recorder.stored 0)) :=
  playback_clears_iff KeymapConfig.default true true atRest stoppedWithKeyHeld 0 playKey 0
    afterRecording rfl afterRecording_idle.1 rfl
    (Usb.clear_of_empty _ afterRecording_idle.2.1 afterRecording_idle.2.2.1
      afterRecording_idle.2.2.2.1) afterRecording_idle.2.2.2.2

end K530
