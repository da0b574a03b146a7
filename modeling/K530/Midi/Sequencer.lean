import K530.Midi.Process

/-!
# The Step Sequencer

The sequencer plays a loop of steps on up to eight tracks, each of which has a
note and a bit in every step. A step has three phases. In the attack the tracks
are visited upwards, a few milliseconds apart, and the ones whose bit is set
start their note; in the release they are visited downwards and end it; then
comes a pause until the step is over. One call of the task visits one track.

Both visits read the bit and the note from the configuration, which the rest of
the interface may change between them. The note is computed with the MIDI
settings; they are the business of the MIDI keys and fixed here, and channel and
velocity are those of the basic MIDI calls.

The numbers of the build are `SequencerBuild`; the tests use the defaults. The
timer has sixteen bits. Debug prints and the getters nothing here calls are left
out.

## Main definitions

* `SequencerBuild`: The numbers of the build.
-/

namespace K530

structure SequencerBuild where
  /-- `SEQUENCER_STEPS`, at most 256 -/
  steps : Nat
  /-- `SEQUENCER_TRACKS`, at most 8 -/
  tracks : Nat
  /-- `SEQUENCER_TRACK_THROTTLE` -/
  trackThrottle : Nat
  /-- `SEQUENCER_PHASE_RELEASE_TIMEOUT` -/
  phaseReleaseTimeout : Nat
  deriving DecidableEq

inductive SequencerPhase where
  | attack
  | release
  | pause
  deriving DecidableEq

/-- `sequencer_config_t` and `sequencer_state_t`. -/
structure Sequencer where
  enabled : Bool
  /-- `steps`: the tracks of each step, a bit each -/
  stepTracks : Nat → Byte
  trackNotes : Nat → Keycode
  tempo : Byte
  /-- `sequencer_resolution_t` as its number -/
  resolution : Nat
  activeTracks : Byte
  currentTrack : Nat
  currentStep : Nat
  timer : BitVec 16
  phase : SequencerPhase

def sequencerResolutions : Nat := 9

structure TrackMessage where
  track : Nat
  message : MidiMessage
  deriving DecidableEq

def processMidiBasicNoteon (note : Byte) : MidiMessage :=
  midiSendNoteon 0 note 127

def processMidiBasicNoteoff (note : Byte) : MidiMessage :=
  midiSendNoteoff 0 note 0

def getBeatDuration (tempo : Byte) : Nat :=
  if tempo = 0 then 60000 / 60 else 60000 / tempo.toNat

/-- `get_step_duration`, sixteen bits of it -/
def getStepDuration (tempo : Byte) (resolution : Nat) : Nat :=
  let binarySteps := (2 <<< (resolution / 2)) % 2 ^ 8
  let binaryStepDuration := (getBeatDuration tempo * 4 / binarySteps) % 2 ^ 16
  if resolution % 2 = 0 then binaryStepDuration else (2 * binaryStepDuration / 3) % 2 ^ 16

namespace Sequencer

variable (b : SequencerBuild) (midi : MidiConfig)

def init : Sequencer :=
  { enabled := false, stepTracks := fun _ => 0, trackNotes := fun _ => 0, tempo := 60,
    resolution := 2, activeTracks := 0, currentTrack := 0, currentStep := 0, timer := 0,
    phase := .attack }

/-- `timer_elapsed` of the sequencer's timer. -/
def elapsed (now : BitVec 16) (s : Sequencer) : Nat :=
  (now - s.timer).toNat

def on (now : BitVec 16) (s : Sequencer) : Sequencer :=
  { s with enabled := true, currentTrack := 0, currentStep := 0, timer := now, phase := .attack }

def off (s : Sequencer) : Sequencer :=
  { s with enabled := false, currentStep := 0 }

def toggle (now : BitVec 16) (s : Sequencer) : Sequencer :=
  if s.enabled then s.off else s.on now

/-- `is_sequencer_track_active` -/
def isTrackActive (track : Nat) (s : Sequencer) : Bool :=
  s.activeTracks.getLsbD track

def setTrackActivation (track : Nat) (value : Bool) (s : Sequencer) : Sequencer :=
  { s with
    activeTracks :=
      if value then s.activeTracks ||| (1 : Byte) <<< track
      else s.activeTracks &&& ~~~((1 : Byte) <<< track) }

def toggleTrackActivation (track : Nat) (s : Sequencer) : Sequencer :=
  s.setTrackActivation track (!s.isTrackActive track)

def toggleSingleActiveTrack (track : Nat) (s : Sequencer) : Sequencer :=
  { s with activeTracks := if s.isTrackActive track then 0 else (1 : Byte) <<< track }

/-- `is_sequencer_step_on` -/
def isStepOn (step : Nat) (s : Sequencer) : Bool :=
  decide (step < b.steps) && decide (s.stepTracks step &&& s.activeTracks ≠ 0)

/-- `is_sequencer_step_on_for_track` -/
def isStepOnForTrack (step track : Nat) (s : Sequencer) : Bool :=
  decide (step < b.steps) && (s.stepTracks step).getLsbD track

def withActive (value : Bool) (tracks : Byte) (s : Sequencer) : Byte :=
  if value then tracks ||| s.activeTracks else tracks &&& ~~~s.activeTracks

def setStep (step : Nat) (value : Bool) (s : Sequencer) : Sequencer :=
  if step < b.steps then
    { s with
      stepTracks := Function.update s.stepTracks step (s.withActive value (s.stepTracks step)) }
  else s

def toggleStep (step : Nat) (s : Sequencer) : Sequencer :=
  s.setStep b step (!s.isStepOn b step)

def setAllSteps (value : Bool) (s : Sequencer) : Sequencer :=
  { s with
    stepTracks := fun step =>
      if step < b.steps then s.withActive value (s.stepTracks step) else s.stepTracks step }

def setTrackNotes (notes : Nat → Keycode) (s : Sequencer) : Sequencer :=
  { s with trackNotes := fun track => if track < b.tracks then notes track else s.trackNotes track }

def setTempo (tempo : Byte) (s : Sequencer) : Sequencer :=
  if tempo ≠ 0 then { s with tempo := tempo } else s

def increaseTempo (s : Sequencer) : Sequencer :=
  if s.tempo ≠ 255 then s.setTempo (s.tempo + 1) else s

def decreaseTempo (s : Sequencer) : Sequencer :=
  s.setTempo (s.tempo - 1)

def setResolution (resolution : Int) (s : Sequencer) : Sequencer :=
  if 0 ≤ resolution ∧ resolution < sequencerResolutions then
    { s with resolution := resolution.toNat }
  else s

def increaseResolution (s : Sequencer) : Sequencer :=
  s.setResolution (s.resolution + 1)

def decreaseResolution (s : Sequencer) : Sequencer :=
  s.setResolution (s.resolution - 1)

def note (track : Nat) (s : Sequencer) : Byte :=
  midi.computeNote (s.trackNotes track)

/-- The message of a visit to the current track, if its bit is set. -/
def visit (send : Byte → MidiMessage) (s : Sequencer) : List TrackMessage :=
  if s.isStepOnForTrack b s.currentStep s.currentTrack then
    [{ track := s.currentTrack, message := send (s.note midi s.currentTrack) }]
  else []

/-- The attack has come to the current track. The first one starts the clock. -/
def attackDue (now : BitVec 16) (s : Sequencer) : Bool :=
  decide (s.currentTrack = 0) || decide (s.currentTrack * b.trackThrottle ≤ s.elapsed now)

/-- `sequencer_phase_attack` -/
def attack (now : BitVec 16) (s : Sequencer) : Sequencer × List TrackMessage :=
  let s := { s with timer := if s.currentTrack = 0 then now else s.timer }
  if s.attackDue b now then
    (if s.currentTrack < b.tracks - 1 then { s with currentTrack := s.currentTrack + 1 }
      else { s with phase := .release },
      s.visit b midi processMidiBasicNoteon)
  else (s, [])

def releaseDue (now : BitVec 16) (s : Sequencer) : Bool :=
  decide (b.phaseReleaseTimeout + s.currentTrack * b.trackThrottle ≤ s.elapsed now)

/-- `sequencer_phase_release` -/
def release (now : BitVec 16) (s : Sequencer) : Sequencer × List TrackMessage :=
  if s.releaseDue b now then
    (if 0 < s.currentTrack then { s with currentTrack := s.currentTrack - 1 }
      else { s with phase := .pause },
      s.visit b midi processMidiBasicNoteoff)
  else (s, [])

/-- `sequencer_phase_pause` -/
def pause (now : BitVec 16) (s : Sequencer) : Sequencer :=
  if s.elapsed now < getStepDuration s.tempo s.resolution then s
  else { s with currentStep := (s.currentStep + 1) % b.steps, phase := .attack }

/-- `sequencer_task`: the phases in the order pause, release, attack, each if the
    one before has left the sequencer in it. -/
def task (now : BitVec 16) (s : Sequencer) : Sequencer × List TrackMessage :=
  if s.enabled then
    let paused := if s.phase = .pause then s.pause b now else s
    let released := if paused.phase = .release then paused.release b midi now else (paused, [])
    let attacked :=
      if released.1.phase = .attack then released.1.attack b midi now else (released.1, [])
    (attacked.1, released.2 ++ attacked.2)
  else (s, [])

end Sequencer

inductive SequencerCall where
  | task (now : BitVec 16)
  | on (now : BitVec 16)
  | off
  | toggle (now : BitVec 16)
  | setTrackNotes (notes : Nat → Keycode)
  | setTrackActivation (track : Nat) (value : Bool)
  | toggleTrackActivation (track : Nat)
  | toggleSingleActiveTrack (track : Nat)
  | setStep (step : Nat) (value : Bool)
  | toggleStep (step : Nat)
  | setAllSteps (value : Bool)
  | setTempo (tempo : Byte)
  | increaseTempo
  | decreaseTempo
  | setResolution (resolution : Int)
  | increaseResolution
  | decreaseResolution

def Sequencer.call (b : SequencerBuild) (midi : MidiConfig) (s : Sequencer) :
    SequencerCall → Sequencer × List TrackMessage
  | .task now => s.task b midi now
  | .on now => (s.on now, [])
  | .off => (s.off, [])
  | .toggle now => (s.toggle now, [])
  | .setTrackNotes notes => (s.setTrackNotes b notes, [])
  | .setTrackActivation track value => (s.setTrackActivation track value, [])
  | .toggleTrackActivation track => (s.toggleTrackActivation track, [])
  | .toggleSingleActiveTrack track => (s.toggleSingleActiveTrack track, [])
  | .setStep step value => (s.setStep b step value, [])
  | .toggleStep step => (s.toggleStep b step, [])
  | .setAllSteps value => (s.setAllSteps b value, [])
  | .setTempo tempo => (s.setTempo tempo, [])
  | .increaseTempo => (s.increaseTempo, [])
  | .decreaseTempo => (s.decreaseTempo, [])
  | .setResolution resolution => (s.setResolution resolution, [])
  | .increaseResolution => (s.increaseResolution, [])
  | .decreaseResolution => (s.decreaseResolution, [])

end K530
