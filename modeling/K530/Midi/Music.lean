import K530.Core.Keycode
import K530.Lib.Checked

/-!
# Music Mode

`process_music.c`: in music mode or MIDI mode every key is a note, which note depends on
where the key is. Five keys are for the recorder instead. Left Control begins a
recording, Left Alt ends it or what is played of it, Left GUI plays it, and Up and Down
make it faster and slower. Left GUI is a note as well as long as nothing is recorded.

A recording is kept in an array, and the player goes round it by the count of its notes.
A place outside the array has no result, and nor has a remainder by zero.

What sounds is what is handed to the sound of the two modes. The songs of the keys that
change the mode are left out, and so are the hooks, which do nothing.

## Main definitions

* `MusicBuild`: What the build fixes.
-/

namespace K530

open Checked

def muOn : Keycode := 0x5C26
def muOff : Keycode := 0x5C27
def muTog : Keycode := 0x5C28
def muMod : Keycode := 0x5C29
def miOn : Keycode := 0x5C2C
def miOff : Keycode := 0x5C2D
def miTog : Keycode := 0x5C2E

/-- `enum music_modes` -/
inductive MusicMode
  | chromatic
  | guitar
  | violin
  | major
  deriving DecidableEq

structure MusicBuild where
  /-- `SCALE` -/
  scale : Int → Int
  /-- `MUSIC_MAP` and its `music_map`, if there is one -/
  musicMap : Option (Nat → Nat → Byte)
  /-- `MATRIX_ROWS` -/
  matrixRows : Nat
  /-- `music_starting_note` -/
  startingNote : Byte
  /-- `music_offset` -/
  offset : Int
  /-- `music_mask` -/
  musicMask : Keycode → Bool

/-- The variables of `process_music.c`. -/
structure Music where
  musicActivated : Bool
  midiActivated : Bool
  mode : MusicMode
  recording : Bool
  recorded : Bool
  playing : Bool
  sequence : Vector Byte 16
  count : Nat
  position : Nat
  timer : BitVec 16
  interval : BitVec 16

inductive MusicCall
  | noteOn (note : Byte)
  | noteOff (note : Byte)
  | allNotesOff
  /-- the notes of MIDI mode only -/
  | midiAllNotesOff
  deriving DecidableEq

def MusicBuild.note (b : MusicBuild) (mode : MusicMode) (row col : Nat) : Byte :=
  match b.musicMap with
  | some musicMap =>
    let position := (musicMap row col).toNat
    match mode with
    | .chromatic => BitVec.ofInt 8 (b.startingNote.toNat + b.offset + 36 + position)
    | _ =>
      BitVec.ofInt 8 (b.startingNote.toNat + b.offset + 36 + b.scale (position % 7 : Nat) +
        (position / 7 : Nat) * 12)
  | none =>
    let up : Int := b.matrixRows - row
    match mode with
    | .chromatic => BitVec.ofInt 8 (b.startingNote.toNat + col + b.offset - 3 + 12 * up)
    | .guitar => BitVec.ofInt 8 (b.startingNote.toNat + col + b.offset + 32 + 5 * up)
    | .violin => BitVec.ofInt 8 (b.startingNote.toNat + col + b.offset + 32 + 7 * up)
    | .major => BitVec.ofInt 8 (b.startingNote.toNat + b.scale (col + b.offset) - 3 + 12 * up)

/-- `music_mode_cycle`, without the notes it ends. -/
def MusicMode.cycle : MusicMode → MusicMode
  | chromatic => guitar
  | guitar => violin
  | violin => major
  | major => chromatic

/-- The key at a place of the matrix, at its press or its release. -/
structure MusicKey where
  keycode : Keycode
  pressed : Bool
  row : Nat
  col : Nat

def fetchInt {α : Type} {n : Nat} (v : Vector α n) (i : Int) : Option α :=
  if i < 0 then none else fetch v i.toNat

namespace Music

def init : Music where
  musicActivated := false
  midiActivated := false
  mode := .major
  recording := false
  recorded := false
  playing := false
  sequence := Vector.replicate 16 0
  count := 0
  position := 0
  timer := 0
  interval := 100

def musicOn (m : Music) : List MusicCall × Music := ([], { m with musicActivated := true })

def musicOff (m : Music) : List MusicCall × Music :=
  ([.allNotesOff], { m with musicActivated := false })

def midiOn (m : Music) : List MusicCall × Music := ([], { m with midiActivated := true })

def midiOff (m : Music) : List MusicCall × Music :=
  ([.midiAllNotesOff], { m with midiActivated := false })

def modeKey (keycode : Keycode) (m : Music) : Option (List MusicCall × Music) :=
  if keycode = muOn then some m.musicOn
  else if keycode = muOff then some m.musicOff
  else if keycode = muTog then some (if m.musicActivated then m.musicOff else m.musicOn)
  else if keycode = miOn then some m.midiOn
  else if keycode = miOff then some m.midiOff
  else if keycode = miTog then some (if m.midiActivated then m.midiOff else m.midiOn)
  else if keycode = muMod then some ([.allNotesOff], { m with mode := m.mode.cycle })
  else none

def recorderKey (keycode : Keycode) (m : Music) : Option (List MusicCall × Music) :=
  if keycode = kcLeftCtrl then
    some ([.allNotesOff],
      { m with recording := true, recorded := false, playing := false, count := 0 })
  else if keycode = kcLeftAlt then
    some ([.allNotesOff],
      { m with recorded := m.recording || m.recorded, recording := false, playing := false })
  else if keycode = kcLeftGui ∧ m.recorded then
    some ([.allNotesOff],
      { m with recording := false, playing := true, position := 0, timer := 0 })
  else if keycode = kcUp then some ([], { m with interval := m.interval - 10 })
  else if keycode = kcDown then some ([], { m with interval := m.interval + 10 })
  else none

def noteOn (note : Byte) (m : Music) : Option Music :=
  if m.recording then
    (store m.sequence m.count note).map (fun sequence =>
      { m with sequence := sequence, count := m.count + 1 })
  else some m

/-- `process_music`: whether the key goes on, what sounds, and the state after it. -/
def processMusic (b : MusicBuild) (key : MusicKey) (m : Music) :
    Option (Bool × List MusicCall × Music) :=
  match if key.pressed then m.modeKey key.keycode else none with
  | some done => some (false, done)
  | none =>
    if m.musicActivated || m.midiActivated then
      match if key.pressed then m.recorderKey key.keycode else none with
      | some done => some (false, done)
      | none =>
        let note := b.note m.mode key.row key.col
        let goesOn := !b.musicMask key.keycode
        if key.pressed then (m.noteOn note).map (fun t => (goesOn, [.noteOn note], t))
        else some (goesOn, [.noteOff note], m)
    else some (true, [], m)

def due (now : BitVec 16) (m : Music) : Bool :=
  m.playing && (m.timer == 0 || decide (m.interval < now - m.timer))

/-- `music_task`: what sounds, and the state after it. -/
def musicTask (now : BitVec 16) (m : Music) : Option (List MusicCall × Music) :=
  if m.due now then
    let before : Int :=
      if (m.position : Int) - 1 < 0 then (m.position : Int) - 1 + m.count
      else (m.position : Int) - 1
    (fetchInt m.sequence before).bind (fun prevNote =>
      (fetch m.sequence m.position).bind (fun nextNote =>
        -- the remainder
        if m.count = 0 then none
        else
          some ([.noteOff prevNote, .noteOn nextNote],
            { m with timer := now, position := (m.position + 1) % m.count })))
  else some ([], m)

end Music

inductive MusicEvent
  | key (key : MusicKey)
  | task (now : BitVec 16)

def Music.step (b : MusicBuild) (m : Music) : MusicEvent → Option Music
  | .key key => (m.processMusic b key).map (fun done => done.2.2)
  | .task now => (m.musicTask now).map (fun done => done.2)

end K530
