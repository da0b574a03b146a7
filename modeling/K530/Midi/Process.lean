import K530.Core.Keycode

/-!
# MIDI Keys

`process_midi` of the advanced MIDI build. Tone keys send note-ons and
note-offs, the other keys change what the next ones sound like or send control
messages.

A tone remembers the note of its first press and how many of its keys are down;
several keys may carry one tone. The settings live in bit fields, and so do
their increments: the channel wraps around, the transposition is signed.

What goes out is the message as the receiver reads it, four bits of channel and
seven of note and velocity; `midi_send_noteon` and its siblings mask their
arguments to that. The modulation that `midi_task` sends is not modelled, only
the step and the interval the keys set for it, and neither is the debug print.

## Main definitions

* `MidiMessage`: A message on the wire.
-/

namespace K530

inductive MidiMessage where
  | noteOn (channel : BitVec 4) (note : BitVec 7) (velocity : BitVec 7)
  | noteOff (channel : BitVec 4) (note : BitVec 7) (velocity : BitVec 7)
  | cc (channel : BitVec 4) (number : BitVec 7) (value : BitVec 7)
  | pitchbend (channel : BitVec 4) (amount : Int)
  deriving DecidableEq

def midiToneMin : Keycode := 0x5C2F
def midiToneMax : Keycode := 0x5C76
def midiOctaveMin : Keycode := 0x5C77
def miOct2 : Keycode := 0x5C7B
def midiOctaveMax : Keycode := 0x5C80
def miOctd : Keycode := 0x5C81
def miOctu : Keycode := 0x5C82
def midiTransposeMin : Keycode := 0x5C83
def miTrns0 : Keycode := 0x5C89
def midiTransposeMax : Keycode := 0x5C8F
def miTrnsd : Keycode := 0x5C90
def miTrnsu : Keycode := 0x5C91
def midiVelocityMin : Keycode := 0x5C92
def midiVelocityMax : Keycode := 0x5C9C
def miVeld : Keycode := 0x5C9D
def miVelu : Keycode := 0x5C9E
def midiChannelMin : Keycode := 0x5C9F
def midiChannelMax : Keycode := 0x5CAE
def miChd : Keycode := 0x5CAF
def miChu : Keycode := 0x5CB0
def miAlloff : Keycode := 0x5CB1
def miSus : Keycode := 0x5CB2
def miPort : Keycode := 0x5CB3
def miSost : Keycode := 0x5CB4
def miSoft : Keycode := 0x5CB5
def miLeg : Keycode := 0x5CB6
def miMod : Keycode := 0x5CB7
def miModsd : Keycode := 0x5CB8
def miModsu : Keycode := 0x5CB9
def miBendd : Keycode := 0x5CBA
def miBendu : Keycode := 0x5CBB

def midiInvalidNote : Byte := 0xFF

/-- A tone: the place of a tone key among the tone keys, below
    `MIDI_TONE_COUNT`. -/
abbrev Tone := Fin 72

structure MidiConfig where
  octave : BitVec 4
  /-- signed -/
  transpose : BitVec 4
  velocity : BitVec 7
  channel : BitVec 4
  modulationInterval : BitVec 4
  deriving DecidableEq

structure Midi where
  config : MidiConfig
  /-- `tone_status[0]`: the note of a tone's first press -/
  toneNote : Tone → Byte
  /-- `tone_status[1]`: how many of its keys are down -/
  toneCount : Tone → Byte
  /-- `midi_modulation_step` -/
  modulationStep : Int

def computeVelocity (setting : Byte) : Byte :=
  BitVec.ofNat 8 (setting.toNat * (128 / (midiVelocityMax.toNat - midiVelocityMin.toNat)))

/-- `midi_compute_note` -/
def MidiConfig.computeNote (c : MidiConfig) (keycode : Keycode) : Byte :=
  12 * c.octave.setWidth 8 + (keycode - midiToneMin).setWidth 8 + c.transpose.signExtend 8

def toneOf (keycode : Keycode) : Option Tone :=
  if h : midiToneMin ≤ keycode ∧ keycode ≤ midiToneMax then
    some ⟨keycode.toNat - midiToneMin.toNat, by
      have hmax : keycode.toNat ≤ 0x5C76 := h.2
      have hmin : midiToneMin.toNat = 0x5C2F := rfl
      omega⟩
  else none

def midiSendNoteon (channel : Byte) (note velocity : Byte) : MidiMessage :=
  .noteOn (channel.setWidth 4) (note.setWidth 7) (velocity.setWidth 7)

def midiSendNoteoff (channel : Byte) (note velocity : Byte) : MidiMessage :=
  .noteOff (channel.setWidth 4) (note.setWidth 7) (velocity.setWidth 7)

namespace Midi

def init : Midi :=
  { config :=
      { octave := (miOct2 - midiOctaveMin).setWidth 4, transpose := 0, velocity := 127,
        channel := 0, modulationInterval := 8 },
    toneNote := fun _ => midiInvalidNote, toneCount := fun _ => 0, modulationStep := 0 }

def pressTone (keycode : Keycode) (tone : Tone) (m : Midi) : Midi × List MidiMessage :=
  let note := m.config.computeNote keycode
  ({ m with
      toneCount := Function.update m.toneCount tone (m.toneCount tone + 1),
      toneNote :=
        if m.toneNote tone = midiInvalidNote then Function.update m.toneNote tone note
        else m.toneNote },
    [midiSendNoteon (m.config.channel.setWidth 8) note (m.config.velocity.setWidth 8)])

/-- A tone key comes up. The last one of its tone ends the note of the first
    press, on the channel of the moment. -/
def releaseTone (tone : Tone) (m : Midi) : Midi × List MidiMessage :=
  let count := m.toneCount tone - 1
  let m' := { m with toneCount := Function.update m.toneCount tone count }
  if count = 0 then
    ({ m' with toneNote := Function.update m.toneNote tone midiInvalidNote },
      [midiSendNoteoff (m.config.channel.setWidth 8) (m.toneNote tone)
        (m.config.velocity.setWidth 8)])
  else (m', [])

/-- `MI_VELD` on its press. -/
def velocityDown (c : MidiConfig) : MidiConfig :=
  if 0 < c.velocity then
    if c.velocity = 127 then { c with velocity := c.velocity - 10 }
    else if 12 < c.velocity then { c with velocity := c.velocity - 13 }
    else { c with velocity := 0 }
  else c

/-- `MI_VELU` on its press. -/
def velocityUp (c : MidiConfig) : MidiConfig :=
  if c.velocity < 127 then
    if c.velocity < 115 then { c with velocity := c.velocity + 13 }
    else { c with velocity := 127 }
  else c

/-- `MI_TRNSU` on its press, with its guard against running over. -/
def transposeUp (c : MidiConfig) : MidiConfig :=
  if c.transpose.toInt < (midiTransposeMax.toNat - miTrns0.toNat : Int) then
    let raised := c.transpose + 1
    if 0 < c.transpose.toInt ∧ raised.toInt < 0 then { c with transpose := raised - 1 }
    else { c with transpose := raised }
  else c

/-- `MI_TRNSD` on its press. -/
def transposeDown (c : MidiConfig) : MidiConfig :=
  if (midiTransposeMin.toNat - miTrns0.toNat : Int) < c.transpose.toInt then
    { c with transpose := c.transpose - 1 }
  else c

/-- `MI_OCTD` on its press. -/
def octaveDown (c : MidiConfig) : MidiConfig :=
  if 0 < c.octave then { c with octave := c.octave - 1 } else c

/-- `MI_OCTU` on its press. -/
def octaveUp (c : MidiConfig) : MidiConfig :=
  if c.octave.toNat < midiOctaveMax.toNat - midiOctaveMin.toNat then
    { c with octave := c.octave + 1 }
  else c

/-- `MI_MODSD` on its press: up to fifteen. -/
def intervalUp (c : MidiConfig) : MidiConfig :=
  if c.modulationInterval + 1 = 0 then c
  else { c with modulationInterval := c.modulationInterval + 1 }

/-- `MI_MODSU` on its press. -/
def intervalDown (c : MidiConfig) : MidiConfig :=
  if 0 < c.modulationInterval then { c with modulationInterval := c.modulationInterval - 1 }
  else c

def setting? (keycode : Keycode) : Option (MidiConfig → MidiConfig) :=
  if midiOctaveMin ≤ keycode ∧ keycode ≤ midiOctaveMax then
    some (fun c => { c with octave := (keycode - midiOctaveMin).setWidth 4 })
  else if keycode = miOctd then some octaveDown
  else if keycode = miOctu then some octaveUp
  else if midiTransposeMin ≤ keycode ∧ keycode ≤ midiTransposeMax then
    some (fun c => { c with transpose := (keycode - miTrns0).setWidth 4 })
  else if keycode = miTrnsd then some transposeDown
  else if keycode = miTrnsu then some transposeUp
  else if midiVelocityMin ≤ keycode ∧ keycode ≤ midiVelocityMax then
    some (fun c =>
      { c with velocity := (computeVelocity ((keycode - midiVelocityMin).setWidth 8)).setWidth 7 })
  else if keycode = miVeld then some velocityDown
  else if keycode = miVelu then some velocityUp
  else if midiChannelMin ≤ keycode ∧ keycode ≤ midiChannelMax then
    some (fun c => { c with channel := (keycode - midiChannelMin).setWidth 4 })
  else if keycode = miChd then some (fun c => { c with channel := c.channel - 1 })
  else if keycode = miChu then some (fun c => { c with channel := c.channel + 1 })
  else if keycode = miModsd then some intervalUp
  else if keycode = miModsu then some intervalDown
  else none

def pedal? (keycode : Keycode) : Option (BitVec 7) :=
  if keycode = miSus then some 0x40
  else if keycode = miPort then some 0x41
  else if keycode = miSost then some 0x42
  else if keycode = miSoft then some 0x43
  else if keycode = miLeg then some 0x43
  else none

/-- The keys that only send: all notes off, the pedals and the pitch bend. -/
def control? (keycode : Keycode) (pressed : Bool) (channel : BitVec 4) :
    Option (List MidiMessage) :=
  if keycode = miAlloff then some (if pressed then [.cc channel 0x7B 0] else [])
  else if keycode = miBendd then some [.pitchbend channel (if pressed then -0x2000 else 0)]
  else if keycode = miBendu then some [.pitchbend channel (if pressed then 0x1fff else 0)]
  else (pedal? keycode).map (fun number => [.cc channel number (if pressed then 127 else 0)])

/-- `process_midi`: whether the key goes on to the next handler, and what is
    sent. -/
def processMidi (keycode : Keycode) (pressed : Bool) (m : Midi) :
    Bool × Midi × List MidiMessage :=
  match toneOf keycode with
  | some tone =>
    (false, if pressed then m.pressTone keycode tone else m.releaseTone tone)
  | none =>
    match setting? keycode with
    | some change =>
      (false, if pressed then { m with config := change m.config } else m, [])
    | none =>
      if keycode = miMod then
        (false, { m with modulationStep := if pressed then 1 else -1 }, [])
      else
        match control? keycode pressed m.config.channel with
        | some messages => (false, m, messages)
        | none => (true, m, [])

end Midi

end K530
