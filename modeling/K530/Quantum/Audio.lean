import K530.Core.Keycode
import K530.Lib.Checked

/-!
# Audio

`audio.c`: tones that are played, each for a time or until it is stopped, and melodies. The
tones are kept on a stack with the newest on top, and `audio_update_state` stops the ones whose
time is over. A melody has a place and a timer of its own, and puts its notes on the stack.

Pitches are compared and no more. The timer may go on within a call, so that each time it is
read is given on its own. Audio is on and initialised. What the voices do, and the hardware, is
left out.

## Main definitions

* `AudioBuild`, `MusicalTone`, `Note`, `Audio`: What it is compiled with, and the variables.
-/

namespace K530

open Checked

universe u

structure AudioBuild where
  /-- `AUDIO_TONE_STACKSIZE` -/
  stackSize : Nat
  stackSize_pos : 0 < stackSize
  /-- `active_tones` is a `uint8_t`, and is counted up before it is limited. -/
  stackSize_lt : stackSize < 255
  /-- `AUDIO_ENABLE_TONE_MULTIPLEXING` -/
  multiplexing : Bool
  /-- `AUDIO_MAX_SIMULTANEOUS_TONES` -/
  maxSimultaneous : Nat
  maxSimultaneous_pos : 0 < maxSimultaneous
  /-- `AUDIO_TONE_MULTIPLEXING_RATE_DEFAULT` -/
  rateDefault : BitVec 16
  /-- `audio_duration_to_ms(2)`, the pause between two notes of one pitch. -/
  pause : BitVec 16

/-- `musical_tone_t`. An entry that is not used has a pitch of -1, which is none. -/
structure MusicalTone (P : Type u) where
  timeStarted : BitVec 16
  pitch : Option P
  duration : BitVec 16
deriving DecidableEq

def MusicalTone.unused {P : Type u} : MusicalTone P :=
  { timeStarted := 0, pitch := none, duration := 0 }

/-- A note of a melody, with its duration as `audio_duration_to_ms` gives it. -/
structure Note (P : Type u) where
  pitch : P
  duration : BitVec 16
deriving DecidableEq

/-- What can go wrong: an access outside the stack or outside the notes, and a division by
    zero. -/
inductive AudioFault where
  | stack
  | note
  | division
deriving DecidableEq

def orFault {α : Type u} (fault : AudioFault) : Option α → Except AudioFault α
  | some a => .ok a
  | none => .error fault

/-- The times at which the timer is read in a call of `audio_update_state`. -/
structure AudioClock where
  /-- `current_time` -/
  current : BitVec 16
  /-- when it is asked whether the note is over -/
  check : BitVec 16
  /-- and by how much it is late -/
  late : BitVec 16
  /-- when the next note is put on the stack -/
  play : BitVec 16
  /-- when it is asked whether a tone is over, for each place of the stack -/
  tone : Nat → BitVec 16

structure Audio (b : AudioBuild) (P : Type u) where
  activeTones : Nat
  tones : Vector (MusicalTone P) b.stackSize
  playingMelody : Bool
  playingNote : Bool
  stateChanged : Bool
  /-- `notes_pointer`, of which there are `notes_count` -/
  notes : List (Note P)
  notesRepeat : Bool
  melodyCurrentNoteDuration : BitVec 16
  currentNote : Nat
  noteResting : Bool
  lastTimestamp : BitVec 16
  /-- `tone_multiplexing_rate` -/
  multiplexingRate : BitVec 16
  /-- `tone_multiplexing_index_shift` -/
  indexShift : Nat
  /-- `audio_driver_stopped` -/
  driverStopped : Bool
deriving DecidableEq

namespace Audio

variable {b : AudioBuild} {P : Type u} [DecidableEq P]

def init (b : AudioBuild) (P : Type u) : Audio b P :=
  { activeTones := 0, tones := .replicate b.stackSize .unused, playingMelody := false,
    playingNote := false, stateChanged := false, notes := [], notesRepeat := false,
    melodyCurrentNoteDuration := 0, currentNote := 0, noteResting := false, lastTimestamp := 0,
    multiplexingRate := b.rateDefault, indexShift := 0, driverStopped := true }

/-- The place of a pitch, looked for from a place of the stack downwards. -/
def findTone (pitch : P) (tones : Vector (MusicalTone P) b.stackSize) : Nat → Option (Option Nat)
  | 0 => some none
  | i + 1 =>
    (fetch tones i).bind (fun t =>
      if t.pitch = some pitch then some (some i) else findTone pitch tones i)

/-- The tones above a place are moved down by one. Every time another is put where one was
    taken from. -/
def pullDown (fill : MusicalTone P) (i count : Nat) (tones : Vector (MusicalTone P) b.stackSize) :
    Option (Vector (MusicalTone P) b.stackSize) :=
  loop (fun k tones =>
    (fetch tones (i + k + 1)).bind (fun t =>
      (store tones (i + k) t).bind (fun tones => store tones (i + k + 1) fill))) count tones

def shiftOut (count : Nat) (tones : Vector (MusicalTone P) b.stackSize) :
    Option (Vector (MusicalTone P) b.stackSize) :=
  loop (fun k tones => (fetch tones (k + 1)).bind (store tones k)) count tones

def stopAll (s : Audio b P) : Audio b P :=
  if s.driverStopped then s
  else
    { s with
      activeTones := 0, playingMelody := false, playingNote := false,
      melodyCurrentNoteDuration := 0, tones := .replicate b.stackSize .unused,
      driverStopped := true }

/-- The end of `audio_stop_tone`, with the tones as they are then. -/
def toneStopped (s : Audio b P) (tones : Vector (MusicalTone P) b.stackSize) : Audio b P :=
  let active := s.activeTones - 1
  { s with
    tones, stateChanged := true, activeTones := active,
    indexShift := if b.multiplexing = true ∧ active ≤ s.indexShift then 0 else s.indexShift,
    driverStopped := if active = 0 then true else s.driverStopped,
    playingNote := if active = 0 then false else s.playingNote }

/-- `audio_stop_tone`, of a tone that has been found. -/
def stopAt (i : Nat) (s : Audio b P) : Option (Audio b P) :=
  ((store s.tones i .unused).bind (pullDown .unused i (b.stackSize - 1 - i))).map s.toneStopped

def stopTone (pitch : P) (s : Audio b P) : Option (Audio b P) :=
  if s.playingNote then
    (findTone pitch s.tones b.stackSize).bind (fun found =>
      match found with
      | some i => s.stopAt i
      | none => some s)
  else some s

/-- The end of `audio_play_note`, with the tones as they are then. -/
def tonePlayed (s : Audio b P) (active : Nat) (tones : Vector (MusicalTone P) b.stackSize) :
    Audio b P :=
  { s with
    activeTones := active, tones, stateChanged := true, playingNote := true,
    driverStopped := false }

/-- `audio_play_note`, of a pitch that is not on the stack. -/
def pushTone (new : MusicalTone P) (s : Audio b P) : Option (Audio b P) :=
  let full := b.stackSize < s.activeTones + 1
  let active := if full then b.stackSize else s.activeTones + 1
  ((if full then shiftOut (active - 1) s.tones else some s.tones).bind (fun tones =>
    store tones (active - 1) new)).map (s.tonePlayed active)

/-- `audio_play_note`, of one that is. -/
def raiseTone (new : MusicalTone P) (i : Nat) (s : Audio b P) : Option (Audio b P) :=
  (pullDown new i (s.activeTones - 1 - i) s.tones).map (fun tones => { s with tones })

def playNote (now : BitVec 16) (pitch : P) (duration : BitVec 16) (s : Audio b P) :
    Option (Audio b P) :=
  let new := { timeStarted := now, pitch := some pitch, duration }
  (findTone pitch s.tones s.activeTones).bind (fun found =>
    match found with
    | some i => s.raiseTone new i
    | none => s.pushTone new)

def playTone (now : BitVec 16) (pitch : P) (s : Audio b P) : Option (Audio b P) :=
  s.playNote now pitch 0xFFFF

/-- `(*notes_pointer)[i]` -/
def noteAt (i : Nat) (s : Audio b P) : Except AudioFault (Note P) :=
  orFault .note s.notes[i]?

/-- `audio_play_melody`, with the times at which its first note is put on the stack, and at
    which it is started. -/
def playMelody (play start : BitVec 16) (notes : List (Note P)) (notesRepeat : Bool)
    (s : Audio b P) : Except AudioFault (Audio b P) :=
  let s := if s.playingNote then s.stopAll else s
  let s : Audio b P :=
    { s with playingMelody := true, noteResting := false, notes, notesRepeat, currentNote := 0 }
  (s.noteAt 0).bind (fun n =>
    (orFault .stack (s.playNote play n.pitch n.duration)).map (fun s =>
      { s with lastTimestamp := start, melodyCurrentNoteDuration := n.duration }))

/-- Skip past the notes that have been missed. There are so many behind the current one. -/
def skip (s : Audio b P) :
    Nat → BitVec 16 → Nat → BitVec 16 → Except AudioFault (BitVec 16 × Nat × BitVec 16)
  | 0, delta, current, duration => .ok (delta, current, duration)
  | behind + 1, delta, current, duration =>
    if duration < delta then
      (s.noteAt (current + 1)).bind (fun n =>
        s.skip behind (delta - duration) (current + 1) n.duration)
    else .ok (delta, current, duration)

/-- The current note has the pitch of the one before, and there was no pause. -/
def repeats (previous : Nat) (s : Audio b P) : Except AudioFault Bool :=
  if s.noteResting then .ok false
  else
    (s.noteAt previous).bind (fun p =>
      (s.noteAt s.currentNote).map (fun n => decide (p.pitch = n.pitch)))

/-- The pause between two notes of one pitch. The pitch of a pause is 0. -/
def rest [Zero P] (play : BitVec 16) (previous : Nat) (s : Audio b P) :
    Except AudioFault (Audio b P) :=
  (orFault .stack (playNote play 0 b.pause { s with noteResting := true })).map (fun s =>
    { s with currentNote := previous, melodyCurrentNoteDuration := b.pause })

def startNote (play delta : BitVec 16) (s : Audio b P) : Except AudioFault (Audio b P) :=
  (s.noteAt s.currentNote).bind (fun first =>
    (s.skip (s.notes.length - 1 - s.currentNote) delta s.currentNote first.duration).bind
      (fun out =>
        let duration := if out.1 < out.2.2 then out.2.2 - out.1 else 1
        (s.noteAt out.2.1).bind (fun n =>
          (orFault .stack (playNote play n.pitch duration
            { s with noteResting := false, currentNote := out.2.1 })).map (fun s =>
              { s with melodyCurrentNoteDuration := duration }))))

def noteOver (c : AudioClock) (s : Audio b P) : Prop :=
  s.playingMelody = true ∧ s.melodyCurrentNoteDuration ≤ c.check - s.lastTimestamp

instance (c : AudioClock) (s : Audio b P) : Decidable (s.noteOver c) :=
  inferInstanceAs (Decidable (_ ∧ _))

def advance (now : BitVec 16) (s : Audio b P) : Audio b P :=
  { s with lastTimestamp := now, currentNote := (s.currentNote + 1) % 2 ^ 16 }

/-- What `audio_update_state` does then, and whether it returns at once. -/
def nextNote [Zero P] (c : AudioClock) (s : Audio b P) : Except AudioFault (Bool × Audio b P) :=
  let previous := s.currentNote
  let delta := c.late - s.lastTimestamp - s.melodyCurrentNoteDuration
  let s := s.advance c.current
  if s.notes.length ≤ s.currentNote ∧ s.notesRepeat = false then .ok (true, s.stopAll)
  else
    let s := if s.notes.length ≤ s.currentNote then { s with currentNote := 0 } else s
    (s.repeats previous).bind (fun again =>
      (if again then s.rest c.play previous else s.startNote c.play delta).map
        (fun s => (false, s)))

/-- `tone_multiplexing_index_shift` is set. -/
def multiplex (c : AudioClock) (s : Audio b P) : Except AudioFault (Audio b P) :=
  if b.multiplexing then
    (orFault .division
      ((quotient c.current.toNat s.multiplexingRate.toNat).bind (fun q =>
        remainder q (Nat.min b.maxSimultaneous s.activeTones)))).map
      (fun shift => { s with indexShift := shift })
  else .ok s

def Expired (now : BitVec 16) (t : MusicalTone P) : Prop :=
  t.duration ≠ 0xFFFF ∧ t.duration ≠ 0 ∧ t.duration ≤ now - t.timeStarted

instance (now : BitVec 16) (t : MusicalTone P) : Decidable (Expired now t) :=
  inferInstanceAs (Decidable (_ ∧ _))

def expire (now : BitVec 16) (t : MusicalTone P) (s : Audio b P) : Option (Audio b P) :=
  match t.pitch with
  | some pitch => if Expired now t then s.stopTone pitch else some s
  | none => some s

/-- The loop of `audio_update_state`, from a place of the stack on. There are so many places
    to go. -/
def housekeep (c : AudioClock) : Nat → Nat → Audio b P → Option (Audio b P)
  | 0, i, s => if i < s.activeTones then none else some s
  | left + 1, i, s =>
    if i < s.activeTones then
      (fetch s.tones i).bind (fun t =>
        (s.expire (c.tone i) t).bind (housekeep c left (i + 1)))
    else some s

/-- The part of `audio_update_state` about the tones. -/
def updateTones (c : AudioClock) (s : Audio b P) : Except AudioFault (Audio b P) :=
  if s.playingNote then
    (s.multiplex c).bind (fun s => orFault .stack (s.housekeep c b.stackSize 0))
  else .ok s

def report (goto : Bool) (s : Audio b P) : Bool × Audio b P :=
  if s.stateChanged then (true, { s with stateChanged := false }) else (goto, s)

/-- `audio_update_state`, with `vibrato || glissando`. -/
def update [Zero P] (effects : Bool) (c : AudioClock) (s : Audio b P) :
    Except AudioFault (Bool × Audio b P) :=
  if s.playingNote = false ∧ s.playingMelody = false then .ok (false, s)
  else
    (if s.noteOver c then s.nextNote c else .ok (false, s)).bind (fun out =>
      if out.1 then .ok (false, out.2)
      else
        (out.2.updateTones c).map (fun s' =>
          s'.report (decide (s.noteOver c) ||
            (out.2.playingNote && (b.multiplexing || effects)))))

/-! ### The rate -/

/-- `audio_set_tone_multiplexing_rate`, and with it `audio_enable_tone_multiplexing` and
    `audio_disable_tone_multiplexing`. -/
def setRate (rate : BitVec 16) (s : Audio b P) : Audio b P :=
  { s with multiplexingRate := rate }

/-- `audio_increase_tone_multiplexing_rate` -/
def increaseRate (change : BitVec 16) (s : Audio b P) : Audio b P :=
  if s.multiplexingRate < 0xFFFF - change then s.setRate (s.multiplexingRate + change) else s

/-- `audio_decrease_tone_multiplexing_rate` -/
def decreaseRate (change : BitVec 16) (s : Audio b P) : Audio b P :=
  if change ≤ s.multiplexingRate then s.setRate (s.multiplexingRate - change) else s

end Audio

inductive ToneCall (P : Type u) where
  | playNote (now : BitVec 16) (pitch : P) (duration : BitVec 16)
  | playTone (now : BitVec 16) (pitch : P)
  | stopTone (pitch : P)
  | stopAll
  | update (effects : Bool) (c : AudioClock)
  | setRate (rate : BitVec 16)
  | enableMultiplexing
  | disableMultiplexing
  | increaseRate (change : BitVec 16)
  | decreaseRate (change : BitVec 16)

namespace ToneCall

variable {b : AudioBuild} {P : Type u} [DecidableEq P] [Zero P]

def run (s : Audio b P) : ToneCall P → Except AudioFault (Audio b P)
  | .playNote now pitch duration => orFault .stack (s.playNote now pitch duration)
  | .playTone now pitch => orFault .stack (s.playTone now pitch)
  | .stopTone pitch => orFault .stack (s.stopTone pitch)
  | .stopAll => .ok s.stopAll
  | .update effects c => (s.update effects c).map Prod.snd
  | .setRate rate => .ok (s.setRate rate)
  | .enableMultiplexing => .ok (s.setRate b.rateDefault)
  | .disableMultiplexing => .ok (s.setRate 0)
  | .increaseRate change => .ok (s.increaseRate change)
  | .decreaseRate change => .ok (s.decreaseRate change)

end ToneCall

end K530
