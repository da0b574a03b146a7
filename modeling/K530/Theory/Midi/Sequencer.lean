import K530.Lib.OnOff
import K530.Midi.Sequencer
import K530.Theory.Midi.Process

/-!
# Notes of the Sequencer

A track whose bit is set starts its note in the attack and ends it in the
release of the same step, if nothing has changed between the two visits. What
can change is all the visits read: the bit, the note, and whether the sequencer
gets to the second visit at all.

`Steady` says that nothing has that matters. When the release comes to a track
with a note on, the bit is still set and the note is the one it started; and
the sequencer is not switched while a note is on. An edit that is taken back in
time, or of another step, or of a track that has not started a note, is no harm.
Along a run whose calls meet it `notes_released` holds: every note is ended
before its track starts another, and nothing sounds in a pause or when the
sequencer is off.

## Main definitions

* `TrackMessage.entry`: A message as an entry of a log of things turned on and
  off.

## Theorems

* `notes_released`: Every note is released along a run that meets the condition.
* `notes_released_step`: A step of one track.
* `notes_released_broken`: The step is cleared under the note.
-/

namespace K530

open StepRun OnOff

/-- A note-on or note-off of a track; nothing else is sent for one. -/
def TrackMessage.entry (m : TrackMessage) : Option (Entry Nat Pitch) :=
  match m.message with
  | .noteOn channel note _ => some { owner := m.track, on := true, thing := (channel, note) }
  | .noteOff channel note _ => some { owner := m.track, on := false, thing := (channel, note) }
  | _ => none

/-- A run: the sequencer, and the notes it has turned on and off, oldest first. -/
structure SequencerRun where
  sequencer : Sequencer
  log : List (Entry Nat Pitch)

namespace SequencerRun

variable (b : SequencerBuild) (midi : MidiConfig)

/-- Before the first call. -/
def start : SequencerRun :=
  { sequencer := Sequencer.init, log := [] }

/-- A call of the interface. -/
def step (s : SequencerRun) (c : SequencerCall) : SequencerRun :=
  let out := s.sequencer.call b midi c
  { sequencer := out.1, log := s.log ++ out.2.filterMap TrackMessage.entry }

/-- The pitch a track would start now. -/
def pitch (track : Nat) (s : Sequencer) : Pitch :=
  (0, (s.note midi track).setWidth 7)

/-- The task is about to make a visit of the release. -/
def Ending (now : BitVec 16) (s : Sequencer) : Prop :=
  s.enabled = true ∧ s.phase = .release ∧ s.releaseDue b now = true

/-- The release of a track finds what the attack has left, and the sequencer is not
    switched on, off or over while a note is on. -/
def Steady (s : SequencerRun) : SequencerCall → Prop
  | .task now =>
    Ending b now s.sequencer → ∀ p ∈ pending s.log s.sequencer.currentTrack,
      s.sequencer.isStepOnForTrack b s.sequencer.currentStep s.sequencer.currentTrack = true ∧
        p = pitch midi s.sequencer.currentTrack s.sequencer
  | .on _ | .off | .toggle _ => ∀ track, pending s.log track = none
  | _ => True

/-- Every note is ended before its track starts another, and no note is on in a
    pause or when the sequencer is off. -/
def Released (s : SequencerRun) : Prop :=
  Paired s.log ∧
    (s.sequencer.phase = .pause ∨ s.sequencer.enabled = false → ∀ p, live s.log p = false)

/-- Only the tracks the attack has passed may have a note on, and only the ones the
    release has not. -/
structure InPhase (s : Sequencer) (log : List (Entry Nat Pitch)) : Prop where
  ahead : s.phase = .attack → ∀ track, s.currentTrack ≤ track → pending log track = none
  behind : s.phase = .release → ∀ track, s.currentTrack < track → pending log track = none
  rest : s.phase = .pause → ∀ track, pending log track = none

structure Sound (s : SequencerRun) : Prop where
  tidy : Tidy s.log
  inPhase : InPhase s.sequencer s.log
  off : s.sequencer.enabled = false → ∀ track, pending s.log track = none

theorem start_sound : start.Sound where
  tidy := Tidy.nil
  inPhase := ⟨fun _ _ _ => rfl, fun _ _ _ => rfl, fun _ _ => rfl⟩
  off := fun _ _ => rfl

theorem Sound.released {s : SequencerRun} (h : s.Sound) : s.Released := by
  refine ⟨h.tidy.paired, fun hrest p => ?_⟩
  by_contra hp
  obtain ⟨track, hpending⟩ := h.tidy.held p (by simpa using hp)
  have hnone : pending s.log track = none := hrest.elim (fun hr => h.inPhase.rest hr track)
    (fun ho => h.off ho track)
  rw [hnone] at hpending
  exact absurd hpending (by simp)

theorem inPhase_of_quiet (s : Sequencer) (log : List (Entry Nat Pitch))
    (h : ∀ track, pending log track = none) : InPhase s log :=
  ⟨fun _ track _ => h track, fun _ track _ => h track, fun _ track => h track⟩

theorem visit_on (s : Sequencer) :
    (s.visit b midi processMidiBasicNoteon).filterMap TrackMessage.entry =
      if s.isStepOnForTrack b s.currentStep s.currentTrack then
        [⟨s.currentTrack, true, pitch midi s.currentTrack s⟩] else [] := by
  unfold Sequencer.visit
  split <;> rfl

theorem visit_off (s : Sequencer) :
    (s.visit b midi processMidiBasicNoteoff).filterMap TrackMessage.entry =
      if s.isStepOnForTrack b s.currentStep s.currentTrack then
        [⟨s.currentTrack, false, pitch midi s.currentTrack s⟩] else [] := by
  unfold Sequencer.visit
  split <;> rfl

variable (now : BitVec 16) (s : Sequencer)

theorem attack_sound (log : List (Entry Nat Pitch)) (hphase : s.phase = .attack) (htidy : Tidy log)
    (hahead : ∀ track, s.currentTrack ≤ track → pending log track = none) :
    Tidy (log ++ (s.attack b midi now).2.filterMap TrackMessage.entry) ∧
      InPhase (s.attack b midi now).1
        (log ++ (s.attack b midi now).2.filterMap TrackMessage.entry) ∧
      (s.attack b midi now).1.enabled = s.enabled := by
  let t : Sequencer := { s with timer := if s.currentTrack = 0 then now else s.timer }
  have hvisit := visit_on b midi t
  have hattack : s.attack b midi now =
      if t.attackDue b now then
        (if t.currentTrack < b.tracks - 1 then { t with currentTrack := t.currentTrack + 1 }
          else { t with phase := .release },
          t.visit b midi processMidiBasicNoteon)
      else (t, []) := rfl
  rw [hattack]
  by_cases hdue : t.attackDue b now
  · rw [if_pos hdue]
    dsimp only
    rw [hvisit]
    -- the tracks beyond the one visited have nothing on, visited or not
    have hbeyond : ∀ track, s.currentTrack < track →
        pending (log ++ if t.isStepOnForTrack b t.currentStep t.currentTrack then
          [⟨t.currentTrack, true, pitch midi t.currentTrack t⟩] else []) track = none := by
      intro track hlt
      split
      · rw [pending_concat, if_neg (show ¬ t.currentTrack = track from hlt.ne)]
        exact hahead track hlt.le
      · rw [List.append_nil]
        exact hahead track hlt.le
    refine ⟨?_, ?_, ?_⟩
    · split
      · exact htidy.on (hahead s.currentTrack le_rfl) _
      · rwa [List.append_nil]
    · by_cases hmore : t.currentTrack < b.tracks - 1
      · rw [if_pos hmore]
        exact ⟨fun _ track hle => hbeyond track (show s.currentTrack < track from hle),
          fun hr => absurd (hphase.symm.trans hr) (by decide),
          fun hr => absurd (hphase.symm.trans hr) (by decide)⟩
      · rw [if_neg hmore]
        exact ⟨fun hr => absurd hr (by simp), fun _ track hlt => hbeyond track hlt,
          fun hr => absurd hr (by simp)⟩
    · by_cases hmore : t.currentTrack < b.tracks - 1
      · rw [if_pos hmore]
      · rw [if_neg hmore]
  · rw [if_neg hdue]
    simp only [List.filterMap_nil, List.append_nil]
    exact ⟨htidy, ⟨fun _ => hahead, fun hr => absurd (hphase.symm.trans hr) (by decide),
      fun hr => absurd (hphase.symm.trans hr) (by decide)⟩, rfl⟩

theorem release_sound (log : List (Entry Nat Pitch)) (hphase : s.phase = .release)
    (htidy : Tidy log) (hbehind : ∀ track, s.currentTrack < track → pending log track = none)
    (hsteady : s.releaseDue b now → ∀ p ∈ pending log s.currentTrack,
      s.isStepOnForTrack b s.currentStep s.currentTrack ∧
        p = pitch midi s.currentTrack s) :
    Tidy (log ++ (s.release b midi now).2.filterMap TrackMessage.entry) ∧
      InPhase (s.release b midi now).1
        (log ++ (s.release b midi now).2.filterMap TrackMessage.entry) ∧
      (s.release b midi now).1.enabled = s.enabled ∧
      (s.release b midi now).1.phase ≠ .attack := by
  unfold Sequencer.release
  by_cases hdue : s.releaseDue b now
  · rw [if_pos hdue]
    dsimp only
    rw [visit_off]
    -- the visit leaves nothing on from its track upwards
    have hfrom : ∀ track, s.currentTrack ≤ track →
        pending (log ++ if s.isStepOnForTrack b s.currentStep s.currentTrack then
          [⟨s.currentTrack, false, pitch midi s.currentTrack s⟩] else []) track = none := by
      intro track hle
      by_cases hon : s.isStepOnForTrack b s.currentStep s.currentTrack
      · rw [if_pos hon, pending_concat]
        by_cases htrack : s.currentTrack = track
        · rw [if_pos htrack, if_neg (by simp)]
        · rw [if_neg htrack]
          exact hbehind track (lt_of_le_of_ne hle htrack)
      · rw [if_neg hon, List.append_nil]
        by_cases htrack : s.currentTrack = track
        · rw [← htrack]
          exact Option.eq_none_iff_forall_not_mem.mpr (fun p hp => hon (hsteady hdue p hp).1)
        · exact hbehind track (lt_of_le_of_ne hle htrack)
    refine ⟨?_, ?_, ?_, ?_⟩
    · split
      · exact htidy.off (fun p hp => (hsteady hdue p hp).2)
      · rwa [List.append_nil]
    · by_cases hmore : 0 < s.currentTrack
      · rw [if_pos hmore]
        exact ⟨fun hr => absurd (hphase.symm.trans hr) (by decide),
          fun _ track hlt => hfrom track (Nat.le_of_pred_lt hlt),
          fun hr => absurd (hphase.symm.trans hr) (by decide)⟩
      · rw [if_neg hmore]
        exact ⟨fun hr => absurd hr (by simp), fun hr => absurd hr (by simp),
          fun _ track => hfrom track (by omega)⟩
    · by_cases hmore : 0 < s.currentTrack
      · rw [if_pos hmore]
      · rw [if_neg hmore]
    · by_cases hmore : 0 < s.currentTrack
      · rw [if_pos hmore]
        exact fun hr => absurd (hphase.symm.trans hr) (by decide)
      · rw [if_neg hmore]
        exact fun hr => absurd hr (by simp)
  · rw [if_neg hdue]
    simp only [List.filterMap_nil, List.append_nil]
    exact ⟨htidy, ⟨fun hr => absurd (hphase.symm.trans hr) (by decide), fun _ => hbehind,
      fun hr => absurd (hphase.symm.trans hr) (by decide)⟩, trivial,
      fun hr => absurd (hphase.symm.trans hr) (by decide)⟩

theorem task_attack (hon : s.enabled) (hphase : s.phase = .attack) :
    s.task b midi now = s.attack b midi now := by
  unfold Sequencer.task
  simp [hon, hphase]

theorem task_release (hon : s.enabled) (hphase : s.phase = .release)
    (hafter : (s.release b midi now).1.phase ≠ .attack) :
    s.task b midi now = s.release b midi now := by
  unfold Sequencer.task
  simp [hon, hphase, hafter]

theorem task_pause (hon : s.enabled) (hphase : s.phase = .pause) :
    s.task b midi now = (s, []) ∨
      s.task b midi now =
        Sequencer.attack b midi now
          { s with currentStep := (s.currentStep + 1) % b.steps, phase := .attack } := by
  unfold Sequencer.task Sequencer.pause
  by_cases hwait : s.elapsed now < getStepDuration s.tempo s.resolution
  · exact Or.inl (by simp [hon, hphase, hwait])
  · exact Or.inr (by simp [hon, hphase, hwait])

theorem task_sound (s : SequencerRun) (h : s.Sound) (hsteady : s.Steady b midi (.task now)) :
    (s.step b midi (.task now)).Sound := by
  have hstep : s.step b midi (.task now) =
      { sequencer := (s.sequencer.task b midi now).1
        log := s.log ++ (s.sequencer.task b midi now).2.filterMap TrackMessage.entry } := rfl
  rw [hstep]
  by_cases hon : s.sequencer.enabled
  · have hoff : ∀ log, s.sequencer.enabled = false → ∀ track,
        pending (ι := Nat) (τ := Pitch) log track = none :=
      fun _ ho => absurd (hon.symm.trans ho) (by decide)
    cases hphase : s.sequencer.phase with
    | attack =>
      rw [task_attack b midi now s.sequencer hon hphase]
      obtain ⟨htidy, hin, hsame⟩ := attack_sound b midi now s.sequencer s.log hphase h.tidy
        (h.inPhase.ahead hphase)
      exact ⟨htidy, hin, fun ho => hoff _ (hsame.symm.trans ho)⟩
    | release =>
      obtain ⟨htidy, hin, hsame, hafter⟩ := release_sound b midi now s.sequencer s.log hphase
        h.tidy (h.inPhase.behind hphase) (fun hdue => hsteady ⟨hon, hphase, hdue⟩)
      rw [task_release b midi now s.sequencer hon hphase hafter]
      exact ⟨htidy, hin, fun ho => hoff _ (hsame.symm.trans ho)⟩
    | pause =>
      rcases task_pause b midi now s.sequencer hon hphase with hwait | hnext
      · rw [hwait]
        simp only [List.filterMap_nil, List.append_nil]
        exact h
      · rw [hnext]
        obtain ⟨htidy, hin, hsame⟩ := attack_sound b midi now
          { s.sequencer with
            currentStep := (s.sequencer.currentStep + 1) % b.steps, phase := .attack }
          s.log rfl h.tidy (fun track _ => h.inPhase.rest hphase track)
        exact ⟨htidy, hin, fun ho => hoff _ (hsame.symm.trans ho)⟩
  · have hstill : s.sequencer.task b midi now = (s.sequencer, []) := by
      unfold Sequencer.task
      rw [if_neg hon]
    rw [hstill]
    simp only [List.filterMap_nil, List.append_nil]
    exact h

structure Frame (s t : Sequencer) : Prop where
  enabled : t.enabled = s.enabled
  phase : t.phase = s.phase
  currentTrack : t.currentTrack = s.currentTrack

theorem Sound.frame {s : SequencerRun} (h : s.Sound) {t : Sequencer}
    (hframe : Frame s.sequencer t) : Sound { sequencer := t, log := s.log ++ [] } := by
  rw [List.append_nil]
  refine ⟨h.tidy, ⟨fun hp track hle => ?_, fun hp track hlt => ?_, fun hp => ?_⟩, fun ho => ?_⟩
  · exact h.inPhase.ahead (hframe.phase.symm.trans hp) track (hframe.currentTrack ▸ hle)
  · exact h.inPhase.behind (hframe.phase.symm.trans hp) track (hframe.currentTrack ▸ hlt)
  · exact h.inPhase.rest (hframe.phase.symm.trans hp)
  · exact h.off (hframe.enabled.symm.trans ho)

theorem frame_setTempo (tempo : Byte) (s : Sequencer) : Frame s (s.setTempo tempo) := by
  unfold Sequencer.setTempo
  split <;> exact ⟨rfl, rfl, rfl⟩

theorem frame_setResolution (resolution : Int) (s : Sequencer) :
    Frame s (s.setResolution resolution) := by
  unfold Sequencer.setResolution
  split <;> exact ⟨rfl, rfl, rfl⟩

theorem frame_setStep (step : Nat) (value : Bool) (s : Sequencer) :
    Frame s (s.setStep b step value) := by
  unfold Sequencer.setStep
  split <;> exact ⟨rfl, rfl, rfl⟩

theorem switch_sound (s : SequencerRun) (t : Sequencer) (h : s.Sound)
    (hquiet : ∀ track, pending s.log track = none) :
    Sound { sequencer := t, log := s.log ++ [] } := by
  rw [List.append_nil]
  exact ⟨h.tidy, inPhase_of_quiet t s.log hquiet, fun _ => hquiet⟩

theorem step_sound (s : SequencerRun) (c : SequencerCall) (h : s.Sound)
    (hsteady : s.Steady b midi c) : (s.step b midi c).Sound := by
  cases c with
  | task now => exact task_sound b midi now s h hsteady
  | on now => exact switch_sound s _ h hsteady
  | off => exact switch_sound s _ h hsteady
  | toggle now => exact switch_sound s _ h hsteady
  | setTrackNotes notes => exact h.frame ⟨rfl, rfl, rfl⟩
  | setTrackActivation track value => exact h.frame ⟨rfl, rfl, rfl⟩
  | toggleTrackActivation track => exact h.frame ⟨rfl, rfl, rfl⟩
  | toggleSingleActiveTrack track => exact h.frame ⟨rfl, rfl, rfl⟩
  | setStep step value => exact h.frame (frame_setStep b step value s.sequencer)
  | toggleStep step => exact h.frame (frame_setStep b step _ s.sequencer)
  | setAllSteps value => exact h.frame ⟨rfl, rfl, rfl⟩
  | setTempo tempo => exact h.frame (frame_setTempo tempo s.sequencer)
  | increaseTempo =>
    refine h.frame ?_
    change Frame s.sequencer s.sequencer.increaseTempo
    unfold Sequencer.increaseTempo
    split
    · exact frame_setTempo _ s.sequencer
    · exact ⟨rfl, rfl, rfl⟩
  | decreaseTempo => exact h.frame (frame_setTempo _ s.sequencer)
  | setResolution resolution => exact h.frame (frame_setResolution resolution s.sequencer)
  | increaseResolution => exact h.frame (frame_setResolution _ s.sequencer)
  | decreaseResolution => exact h.frame (frame_setResolution _ s.sequencer)

/-- Along a run of calls in which the release of a track with a note on finds the
    bit and the note the attack found, and the sequencer is not switched while a
    note is on, every note is ended before its track starts another, and nothing
    sounds in a pause or with the sequencer off. -/
theorem notes_released (calls : List SequencerCall)
    (hsteady : Along (step b midi) (Steady b midi) start calls) :
    Always (step b midi) Released start calls :=
  always_of_along (step b midi) (Steady b midi) Sound Released (fun _ hs => hs.released)
    (fun s c hs hc => step_sound b midi s c hs hc) calls start start_sound hsteady

/-- The build of the tests. -/
def defaultBuild : SequencerBuild :=
  { steps := 16, tracks := 8, trackThrottle := 3, phaseReleaseTimeout := 30 }

/-- One track in the first step, and the sequencer on. -/
def oneNote : List SequencerCall :=
  [.setTrackActivation 0 true, .setStep 0 true, .on 0]

def visits (now : BitVec 16) : List SequencerCall :=
  .task now :: List.replicate 7 (.task (now + 21))

def clearedUnderNote : List SequencerCall :=
  oneNote ++ visits 0 ++ [.setStep 0 false] ++ visits 60

instance (now : BitVec 16) (s : Sequencer) : Decidable (Ending b now s) :=
  inferInstanceAs (Decidable (_ ∧ _ ∧ _))

instance (s : SequencerRun) (now : BitVec 16) : Decidable (s.Steady b midi (.task now)) :=
  inferInstanceAs (Decidable (Ending b now s.sequencer →
    ∀ p ∈ pending s.log s.sequencer.currentTrack,
      s.sequencer.isStepOnForTrack b s.sequencer.currentStep s.sequencer.currentTrack = true ∧
        p = pitch midi s.sequencer.currentTrack s.sequencer))

/-- A sequencer of one track. -/
def soloBuild : SequencerBuild :=
  { defaultBuild with tracks := 1 }

/-- A note is started and ended. -/
theorem notes_released_step :
    Along (step soloBuild Midi.init.config) (Steady soloBuild Midi.init.config) start
        (oneNote ++ [.task 0, .task 30]) ∧
      Always (step soloBuild Midi.init.config) Released start (oneNote ++ [.task 0, .task 30]) :=
  have hsteady : Along (step soloBuild Midi.init.config)
      (Steady soloBuild Midi.init.config) start (oneNote ++ [.task 0, .task 30]) :=
    ⟨trivial, trivial, fun _ => rfl, by decide +kernel, by decide +kernel, trivial⟩
  ⟨hsteady, notes_released soloBuild Midi.init.config _ hsteady⟩

/-- A step that is cleared under its note leaves it on. -/
theorem notes_released_broken :
    ¬ ∀ (b : SequencerBuild) (midi : MidiConfig) (calls : List SequencerCall),
      Always (step b midi) Released start calls := by
  intro h
  have hall := (always_iff_visited (step defaultBuild Midi.init.config) Released
    clearedUnderNote start).mp (h defaultBuild Midi.init.config clearedUnderNote)
    clearedUnderNote [] (List.append_nil _).symm
  exact absurd (hall.2 (Or.inl (by decide)) (0, 1)) (by decide)

end SequencerRun

end K530
