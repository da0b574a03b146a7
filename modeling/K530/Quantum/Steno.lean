import K530.Core.Keycode

/-!
# Chords

`process_steno.c`: what is sent is not keys but chords. The keys that are pressed are
gathered until none of them is held any more, and are then sent as one packet, in one of
two protocols. GeminiPR has six bytes with a bit for each key. TX Bolt has four bytes,
one for each group of keys, of which only those are sent that are not zero, and a zero
behind them. In it several keys are one.

The keys that are held are counted, and not looked up: a key that stands for two counts
twice. A key that changes the protocol empties the chord and leaves the count alone.

The hooks are the ones there are without others. That the protocol is written into the
EEPROM is left out.

## Main definitions

* `Steno`: The variables.
-/

namespace K530

inductive StenoMode
  | bolt
  | gemini
  deriving DecidableEq

/-- The variables of `process_steno.c`. -/
structure Steno where
  state : Vector Byte 6
  chord : Vector Byte 6
  /-- signed -/
  pressed : BitVec 8
  mode : StenoMode

def qkSteno : Keycode := 0x5A00
def stnMax : Keycode := 0x5A29
def qkStenoBolt : Keycode := 0x5A30
def qkStenoGemini : Keycode := 0x5A31
def qkStenoComb : Keycode := 0x5A32
def qkStenoCombMax : Keycode := 0x5A3C

def txbNul : Byte := 0
def txbSL : Byte := 0b00000001
def txbTL : Byte := 0b00000010
def txbKL : Byte := 0b00000100
def txbPL : Byte := 0b00001000
def txbWL : Byte := 0b00010000
def txbHL : Byte := 0b00100000
def txbRL : Byte := 0b01000001
def txbAL : Byte := 0b01000010
def txbOL : Byte := 0b01000100
def txbStr : Byte := 0b01001000
def txbER : Byte := 0b01010000
def txbUR : Byte := 0b01100000
def txbFR : Byte := 0b10000001
def txbRR : Byte := 0b10000010
def txbPR : Byte := 0b10000100
def txbBR : Byte := 0b10001000
def txbLR : Byte := 0b10010000
def txbGR : Byte := 0b10100000
def txbTR : Byte := 0b11000001
def txbSR : Byte := 0b11000010
def txbDR : Byte := 0b11000100
def txbZR : Byte := 0b11001000
def txbNum : Byte := 0b11010000

/-- `boltmap`, without the zeros behind the last key. -/
def boltmap : List Byte :=
  [txbNul, txbNum, txbNum, txbNum, txbNum, txbNum, txbNum, txbSL, txbSL, txbTL, txbKL, txbPL,
    txbWL, txbHL, txbRL, txbAL, txbOL, txbStr, txbStr, txbNul, txbNul, txbNul, txbStr, txbStr,
    txbER, txbUR, txbFR, txbRR, txbPR, txbBR, txbLR, txbGR, txbTR, txbSR, txbDR, txbNum, txbNum,
    txbNum, txbNum, txbNum, txbNum, txbZR]

def boltcode (key : Nat) : Byte := boltmap.getD key txbNul

def txbGetGroup (code : Byte) : Nat := ((code &&& 0b11000000) >>> 6).toNat

/-- `combinedmap_first`: STN_S1, STN_TL, STN_PL, STN_HL, STN_FR, STN_PR, STN_LR, STN_TR,
    STN_DR, STN_A, STN_E -/
def combinedmapFirst : List Nat := [7, 9, 11, 13, 26, 28, 30, 32, 34, 15, 24]

/-- `combinedmap_second`: STN_S2, STN_KL, STN_WL, STN_RL, STN_RR, STN_BR, STN_GR, STN_SR,
    STN_ZR, STN_O, STN_U -/
def combinedmapSecond : List Nat := [8, 10, 12, 14, 27, 29, 31, 33, 41, 16, 25]

def chordByte (v : Vector Byte 6) (i : Nat) : Byte := v.toList.getD i 0

/-- Where a key is in the chord: the byte, and what is set in it. -/
def stenoPlace (mode : StenoMode) (key : Nat) : Nat × Byte :=
  match mode with
  | .bolt => (txbGetGroup (boltcode key), boltcode key)
  | .gemini => (key / 7, (1 : Byte) <<< (6 - key % 7))

namespace Steno

/-- The variables at power-up, with the protocol `steno_init` reads. -/
def init (mode : StenoMode) : Steno where
  state := Vector.replicate 6 0
  chord := Vector.replicate 6 0
  pressed := 0
  mode := mode

def clearState (s : Steno) : Steno :=
  { s with state := Vector.replicate 6 0, chord := Vector.replicate 6 0 }

def setMode (mode : StenoMode) (s : Steno) : Steno := { s.clearState with mode := mode }

def sendStenoState (size : Nat) (sendEmpty : Bool) (chord : Vector Byte 6) : List Byte :=
  (chord.toList.take size).filter (fun b => b != 0 || sendEmpty)

/-- `send_steno_chord`: the packet, and the state after it. -/
def sendStenoChord (s : Steno) : List Byte × Steno :=
  match s.mode with
  | .bolt => (sendStenoState 4 false s.chord ++ [0], s.clearState)
  | .gemini =>
    -- the first bit of a packet
    let chord := s.chord.setIfInBounds 0 (chordByte s.chord 0 ||| 0x80)
    (sendStenoState 6 true chord, s.clearState)

/-- `update_state_bolt` and `update_state_gemini` -/
def updateState (key : Nat) (press : Bool) (s : Steno) : Steno :=
  let i := (stenoPlace s.mode key).1
  let bits := (stenoPlace s.mode key).2
  if press then
    { s with
      state := s.state.setIfInBounds i (chordByte s.state i ||| bits)
      chord := s.chord.setIfInBounds i (chordByte s.chord i ||| bits) }
  else { s with state := s.state.setIfInBounds i (chordByte s.state i &&& ~~~bits) }

/-- `process_steno` of one of the keys of the chord, by its number. -/
def processKey (key : Nat) (press : Bool) (s : Steno) : List Byte × Steno :=
  let s := s.updateState key press
  if press then ([], { s with pressed := s.pressed + 1 })
  else
    let s := { s with pressed := s.pressed - 1 }
    if s.pressed.toInt ≤ 0 then { s with pressed := 0 }.sendStenoChord else ([], s)

/-- `process_steno`: whether the key goes on, what is sent, and the state after it. There
    may be a `STENO_COMBINEDMAP`. -/
def processSteno (combinedMap : Bool) (keycode : Keycode) (press : Bool) (s : Steno) :
    Bool × List Byte × Steno :=
  if keycode = qkStenoBolt then (false, [], if press then s.setMode .bolt else s)
  else if keycode = qkStenoGemini then (false, [], if press then s.setMode .gemini else s)
  else if combinedMap ∧ qkStenoComb ≤ keycode ∧ keycode ≤ qkStenoCombMax then
    let i := (keycode - qkStenoComb).toNat
    let first := s.processKey (combinedmapFirst.getD i 0) press
    let second := first.2.processKey (combinedmapSecond.getD i 0) press
    (false, first.1 ++ second.1, second.2)
  else if qkSteno ≤ keycode ∧ keycode ≤ stnMax then
    let done := s.processKey (keycode - qkSteno).toNat press
    (false, done.1, done.2)
  else (true, [], s)

end Steno

end K530
