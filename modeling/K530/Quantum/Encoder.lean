import K530.Core.Keycode
import Mathlib.Data.List.FinRange

/-!
# Encoders

`encoder.c`: the two pads of a rotary encoder are read over and over, and what
they were and what they are is looked up in a table: a pulse forwards, a pulse
backwards, or none. When there are as many pulses as a detent has, the value
goes up by one, and when there are as many backwards it goes down; either way
there is a callback. What is left over is the remainder of the division, which
has the sign of the pulses.

Of a split keyboard the values of both hands are in one array, and those of the
other hand are brought up to date with what that hand reports,
`encoderUpdateRaw`. A keyboard in one part is a left hand of which the other
half is not used. The rest of the firmware hears of an encoder only through the
callbacks.

## Main definitions

* `EncoderConfig`: What the build fixes.
-/

namespace K530

/-- `ENCODER_CLOCKWISE` and `ENCODER_COUNTER_CLOCKWISE` -/
inductive Rotation where
  | clockwise
  | counterClockwise
  deriving DecidableEq

structure EncoderConfig where
  /-- `NUMBER_OF_ENCODERS`, those of one hand -/
  count : Nat
  /-- `encoder_resolutions` -/
  resolution : Fin count → Byte
  /-- `ENCODER_DEFAULT_POS`, if there is one -/
  defaultPos : Option Byte
  isLeftHand : Bool
  /-- an index of `encoder_value` is a byte -/
  count_le : count + count ≤ 256

namespace EncoderConfig

variable (c : EncoderConfig)

/-- `i + thisHand` -/
def here (i : Fin c.count) : Fin (c.count + c.count) :=
  if c.isLeftHand then i.castAdd c.count else i.natAdd c.count

/-- `i + thatHand` -/
def there (i : Fin c.count) : Fin (c.count + c.count) :=
  if c.isLeftHand then i.natAdd c.count else i.castAdd c.count

end EncoderConfig

structure Pads where
  a : Bool
  b : Bool
  deriving DecidableEq

/-- `(readPin(pad_a) << 0) | (readPin(pad_b) << 1)` -/
def Pads.bits (p : Pads) : Byte :=
  (BitVec.ofBool p.a).setWidth 8 ||| ((BitVec.ofBool p.b).setWidth 8 <<< 1)

def encoderLut : List (BitVec 8) := [0, -1, 1, 0, 1, 0, 0, -1, -1, 0, 0, 1, 0, 1, -1, 0]

/-- The statics of `encoder.c`, and the calls of `encoder_update_kb`, oldest
    first. -/
structure Encoders (c : EncoderConfig) where
  /-- `encoder_state` -/
  state : Fin c.count → Byte
  /-- `encoder_pulses`, signed -/
  pulses : Fin c.count → BitVec 8
  /-- `encoder_value` -/
  value : Fin (c.count + c.count) → Byte
  calls : List (Fin (c.count + c.count) × Rotation)

namespace Encoders

variable {c : EncoderConfig}

/-- `encoder_init`. -/
def init (pads : Fin c.count → Pads) : Encoders c where
  state i := (pads i).bits
  pulses _ := 0
  value _ := 0
  calls := []

def move (index : Fin (c.count + c.count)) (rotation : Rotation) (e : Encoders c) : Encoders c :=
  { e with
    value := Function.update e.value index
      (match rotation with
      | .counterClockwise => e.value index + 1
      | .clockwise => e.value index - 1),
    calls := e.calls ++ [(index, rotation)] }

def encoderUpdate (i : Fin c.count) (state : Byte) (e : Encoders c) : Bool × Encoders c :=
  let resolution : Int := (c.resolution i).toNat
  let pulses := e.pulses i + encoderLut.getD (state &&& 0xF).toNat 0
  -- two comparisons, not one and its opposite: both hold if the resolution is zero
  let above := decide (resolution ≤ pulses.toInt)
  let below := decide (pulses.toInt ≤ -resolution)
  let e := if above then e.move (c.here i) .counterClockwise else e
  let e := if below then e.move (c.here i) .clockwise else e
  let left := BitVec.ofInt 8 (pulses.toInt.tmod resolution)
  let left := if c.defaultPos = some (state &&& 0x3) then 0 else left
  (above || below, { e with pulses := Function.update e.pulses i left })

/-- The turn of `encoder_read` for one encoder. -/
def readOne (pads : Fin c.count → Pads) (s : Bool × Encoders c) (i : Fin c.count) :
    Bool × Encoders c :=
  let state := (s.2.state i <<< 2) ||| (pads i).bits
  let updated := { s.2 with state := Function.update s.2.state i state }.encoderUpdate i state
  (s.1 || updated.1, updated.2)

def encoderRead (pads : Fin c.count → Pads) (e : Encoders c) : Bool × Encoders c :=
  (List.finRange c.count).foldl (readOne pads) (false, e)

/-- A loop that counts `delta` down to zero. -/
def moveTimes (index : Fin (c.count + c.count)) (rotation : Rotation) :
    Nat → Encoders c → Encoders c
  | 0, e => e
  | delta + 1, e => moveTimes index rotation delta (e.move index rotation)

/-- The turn of `encoder_update_raw` for one encoder. Of the two loops one has
    nothing to do. -/
def updateRawOne (slaveState : Fin c.count → Byte) (s : Bool × Encoders c) (i : Fin c.count) :
    Bool × Encoders c :=
  let delta := (slaveState i - s.2.value (c.there i)).toInt
  let e := s.2.moveTimes (c.there i) .counterClockwise delta.toNat
  let e := e.moveTimes (c.there i) .clockwise (-delta).toNat
  (s.1 || decide (delta ≠ 0), e)

/-- `encoder_update_raw`, and whether it calls `last_encoder_activity_trigger`. -/
def encoderUpdateRaw (slaveState : Fin c.count → Byte) (e : Encoders c) : Bool × Encoders c :=
  (List.finRange c.count).foldl (updateRawOne slaveState) (false, e)

end Encoders

end K530
