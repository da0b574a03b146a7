import K530.Core.Keycode
import K530.Lib.Checked

/-!
# Sending a String

`send_string.c`: a string is typed, a character at a time. A character is looked
up in four tables that have an entry or a bit for each of the 128 of ASCII. What
follows `SS_QMK_PREFIX` is an escape: a keycode to tap, to press or to release, or
the digits of a delay and one more character.

The string is memory from some place on, and so is each table. How far a string
goes is not known before it is read, and an index is not compared with the size
of its table, so what is read and looked up is kept as it comes.

## Main definitions

* `AsciiTables`: The tables.
-/

namespace K530

def ssQmkPrefix : Byte := 1

def ssTapCode : Byte := 1

def ssDownCode : Byte := 2

def ssUpCode : Byte := 3

def ssDelayCode : Byte := 4

structure AsciiTables where
  /-- `ascii_to_shift_lut` -/
  toShift : Nat → Byte
  /-- `ascii_to_altgr_lut` -/
  toAltgr : Nat → Byte
  /-- `ascii_to_dead_lut` -/
  toDead : Nat → Byte
  /-- `ascii_to_keycode_lut` -/
  toKeycode : Nat → Byte

structure CharLookup where
  size : Nat
  index : Nat

def CharLookup.InRange (l : CharLookup) : Prop := l.index < l.size

inductive TypingCall where
  /-- `tap_code` -/
  | tap (keycode : Byte)
  /-- `register_code` -/
  | register (keycode : Byte)
  /-- `unregister_code` -/
  | unregister (keycode : Byte)
  /-- `wait_ms(1)`, so many times -/
  | wait (times : Nat)
  deriving DecidableEq

structure Sending where
  /-- The places of the characters. -/
  reads : List Nat
  lookups : List CharLookup
  calls : List TypingCall

def Sending.append (s t : Sending) : Sending :=
  { reads := s.reads ++ t.reads, lookups := s.lookups ++ t.lookups, calls := s.calls ++ t.calls }

instance : Append Sending := ⟨Sending.append⟩

/-- `PGM_LOADBIT` -/
def loadBit (table : Nat → Byte) (pos : Nat) : Bool := (table (pos / 8)).getLsbD (pos % 8)

def sendChar (t : AsciiTables) (asciiCode : Byte) : Sending :=
  let keycode := t.toKeycode asciiCode.toNat
  let isShifted := loadBit t.toShift asciiCode.toNat
  let isAltgred := loadBit t.toAltgr asciiCode.toNat
  let isDead := loadBit t.toDead asciiCode.toNat
  { reads := [],
    lookups := [⟨128, asciiCode.toNat⟩, ⟨16, asciiCode.toNat / 8⟩, ⟨16, asciiCode.toNat / 8⟩,
      ⟨16, asciiCode.toNat / 8⟩],
    calls :=
      (if isShifted then [.register (kcLeftShift.setWidth 8)] else []) ++
      (if isAltgred then [.register (kcRightAlt.setWidth 8)] else []) ++
      [.tap keycode] ++
      (if isAltgred then [.unregister (kcRightAlt.setWidth 8)] else []) ++
      (if isShifted then [.unregister (kcLeftShift.setWidth 8)] else []) ++
      (if isDead then [.tap (kcSpace.setWidth 8)] else []) }

def isDigit (c : Byte) : Bool := 0x30 ≤ c && c ≤ 0x39

/-- The digits of a delay. What is left is the number, the place of the character
    that is not a digit, and the places of all of them. -/
def delayDigits (str : Nat → Byte) : Nat → Nat → BitVec 32 → Option (BitVec 32 × Nat × List Nat)
  | 0, _, _ => none
  | fuel + 1, place, ms =>
    let keycode := str place
    if isDigit keycode then
      (delayDigits str fuel (place + 1) (ms * 10 + (keycode - 0x30).setWidth 32)).map
        (fun r => (r.1, r.2.1, place :: r.2.2))
    else some (ms, place, [place])

def escape (str : Nat → Byte) (fuel place : Nat) : Option (Sending × Nat) :=
  let asciiCode := str place
  if asciiCode = ssTapCode then
    some (⟨[place, place + 1], [], [.tap (str (place + 1))]⟩, place + 1)
  else if asciiCode = ssDownCode then
    some (⟨[place, place + 1], [], [.register (str (place + 1))]⟩, place + 1)
  else if asciiCode = ssUpCode then
    some (⟨[place, place + 1], [], [.unregister (str (place + 1))]⟩, place + 1)
  else if asciiCode = ssDelayCode then
    -- `ms` is an `int`, and `while (ms--)` comes round to 0 whatever it is.
    (delayDigits str fuel (place + 1) 0).map
      (fun r => (⟨place :: r.2.2, [], [.wait r.1.toNat]⟩, r.2.1))
  else some (⟨[place], [], []⟩, place)

def sendStringWithDelay (t : AsciiTables) (str : Nat → Byte) (interval : Byte) :
    Nat → Nat → Option Sending
  | 0, _ => none
  | fuel + 1, place =>
    let asciiCode := str place
    if asciiCode = 0 then some ⟨[place], [], []⟩
    else if asciiCode = ssQmkPrefix then do
      let (sent, last) ← escape str fuel (place + 1)
      let rest ← sendStringWithDelay t str interval fuel (last + 1)
      pure (⟨[place], [], []⟩ ++ sent ++ ⟨[], [], [.wait interval.toNat]⟩ ++ rest)
    else do
      let rest ← sendStringWithDelay t str interval fuel (place + 1)
      pure (⟨[place], [], []⟩ ++ sendChar t asciiCode ++ ⟨[], [], [.wait interval.toNat]⟩ ++ rest)

end K530
