import K530.Core.Keycode
import K530.Lib.Ring
import Mathlib.Data.List.FinRange

/-!
# The Keyboard Report

`report_keyboard_t`, the report the USB host is sent, and the functions that
add a key to it and take one out.

The report is a union. A six-key report is modifiers, a reserved byte and six
places; an NKRO report is modifiers and a bitmap of two hundred and forty keys.
The two views share their bytes: one vector of thirty bytes, and a view of six of
them. Which view is in force is up to the keyboard, `keyboard_protocol &&
keymap_config.nkro`, so every function here takes it as `nkro`.

Six places fill up, a bitmap does not. `addKeyByte` drops the seventh key
without a word.

With `RING_BUFFERED_6KRO_REPORT_ENABLE` the six places are a ring, so that a
seventh key takes the place of the oldest. `cb_head` is the place of the oldest key
and `cb_tail` the next to be written; `cb_count` tells a ring that is full from one
that is empty. A key that is taken out leaves a hole, unless it is the last, and the
holes are closed up when the tail has come round to the head. A loop from a place to
itself goes all the way round. `clear_keys_from_report` clears the places, and not the
three counters.

## Main definitions

* `Report`: Modifiers and thirty bytes of keys.
-/

namespace K530

/-- A literal names a place of the report, or a slot. -/
instance neZeroSlots : NeZero 6 := ⟨by decide⟩

/-- `report_keyboard_t`, without the report identifier. `bits` is the NKRO view
    of the union, `KEYBOARD_REPORT_BITS` bytes of it, and its byte 0 is the
    reserved byte of the other. -/
structure Report where
  mods : Byte
  bits : Vector Byte 30
  deriving DecidableEq

namespace Report

def empty : Report :=
  { mods := 0, bits := Vector.replicate 30 0 }

/-- `keys`, the six-key view of the union, `KEYBOARD_REPORT_KEYS` places. -/
def keys (r : Report) : Vector Byte 6 :=
  Vector.ofFn (fun i => r.bits[i.val + 1])

theorem mem_keys (r : Report) (a : Byte) : a ∈ r.keys ↔ ∃ i : Fin 6, r.bits[i.val + 1] = a := by
  unfold keys
  exact Vector.mem_ofFn

def setKey (r : Report) (i : Fin 6) (code : Byte) : Report :=
  { r with bits := r.bits.set (i.val + 1) code }

/-- A report of modifiers and six places, as `memset` and six assignments make
    it. -/
def ofKeys (mods : Byte) (keys : Vector Byte 6) : Report :=
  { mods, bits := Vector.ofFn (fun i => if i.val = 0 then 0 else keys.toList.getD (i.val - 1) 0) }

/-- `has_anykey`: it counts bytes, not keys. -/
def hasAnykey (nkro : Bool) (r : Report) : Nat :=
  if nkro then r.bits.toList.countP (· ≠ 0) else r.keys.toList.countP (· ≠ 0)

def isKeyPressed (nkro : Bool) (r : Report) (key : Byte) : Bool :=
  if key = 0 then false
  else if nkro then
    if h : key.toNat / 8 < 30 then
      r.bits[key.toNat / 8].getLsbD (key.toNat % 8)
    else false
  else r.keys.contains key

/-- `add_key_byte`: a key already there is not added twice, and a key for which
    there is no place left is not added. -/
def addKeyByte (r : Report) (code : Byte) : Report :=
  if r.keys.contains code then r
  else
    match r.keys.finIdxOf? 0 with
    | some i => r.setKey i code
    | none => r

/-- `del_key_byte`: every place that holds the key is emptied. -/
def delKeyByte (r : Report) (code : Byte) : Report :=
  { r with
    bits := r.bits.mapIdx (fun i byte => if 1 ≤ i ∧ i ≤ 6 ∧ byte = code then 0 else byte) }

def addKeyBit (r : Report) (code : Byte) : Report :=
  if h : code.toNat / 8 < 30 then
    { r with
      bits := r.bits.set (code.toNat / 8) (r.bits[code.toNat / 8] ||| 1#8 <<< (code.toNat % 8)) }
  else r

def delKeyBit (r : Report) (code : Byte) : Report :=
  if h : code.toNat / 8 < 30 then
    { r with
      bits := r.bits.set (code.toNat / 8)
        (r.bits[code.toNat / 8] &&& ~~~(1#8 <<< (code.toNat % 8))) }
  else r

def addKeyToReport (nkro : Bool) (r : Report) (key : Byte) : Report :=
  if nkro then addKeyBit r key else addKeyByte r key

def delKeyFromReport (nkro : Bool) (r : Report) (key : Byte) : Report :=
  if nkro then delKeyBit r key else delKeyByte r key

/-- `clear_keys_from_report`: the modifiers stay. -/
def clearKeysFromReport (nkro : Bool) (r : Report) : Report :=
  if nkro then { r with bits := Vector.replicate 30 0 }
  else
    { r with bits := r.bits.mapIdx (fun i byte => if 1 ≤ i ∧ i ≤ 6 then 0 else byte) }

end Report

/-! ### The report as a ring -/

/-- The six places, `KEYBOARD_REPORT_KEYS` of them, and the counters. -/
structure RingReport where
  keys : Fin 6 → Byte
  /-- `cb_head` -/
  head : Fin 6
  /-- `cb_tail` -/
  tail : Fin 6
  /-- `cb_count`, a signed byte -/
  count : BitVec 8

/-- The places a `do` loop comes to that begins at `first`, goes on with `RO_INC`
    and ends before `stop`. -/
def ringLoop (first stop : Fin 6) : List (Fin 6) :=
  Ring.walk (if stop = first then 6 else (stop - first).val) first

namespace RingReport

def empty : RingReport :=
  { keys := fun _ => 0, head := 0, tail := 0, count := 0 }

structure Shift where
  keys : Fin 6 → Byte
  empty : Fin 6
  offset : Nat

def Shift.turn (s : Shift) (i : Fin 6) : Shift :=
  if s.keys i ≠ 0 then
    { s with
      keys := Function.update (Function.update s.keys s.empty (s.keys i)) i 0,
      empty := s.empty + 1 }
  else { s with offset := s.offset + 1 }

/-- "left shift when has empty space", from the first hole on. The offset is six
    at most, so that `RO_SUB` does not go below zero. -/
def leftShift (r : RingReport) (hole : Fin 6) : RingReport :=
  let s := (ringLoop (hole + 1) r.tail).foldl Shift.turn
    { keys := r.keys, empty := hole, offset := 1 }
  { r with keys := s.keys, tail := Fin.ofNat 6 (r.tail.val + 6 - s.offset) }

def addToTail (r : RingReport) (code : Byte) : RingReport :=
  { r with
    keys := Function.update r.keys r.tail code,
    tail := r.tail + 1,
    count := r.count + 1 }

def addKeyByte (r : RingReport) (code : Byte) : RingReport :=
  if r.count ≠ 0 then
    -- The key is looked for in the window only, holes and all.
    if (ringLoop r.head r.tail).any (fun i => r.keys i == code) then r
    else if r.tail = r.head then
      -- The window has come to be the whole ring, which may have holes.
      match (ringLoop r.head r.tail).find? (fun i => r.keys i == 0) with
      | none =>
        -- "pop head when has no empty space": the tail is where the head was.
        addToTail { r with head := r.head + 1, count := r.count - 1 } code
      | some hole => (r.leftShift hole).addToTail code
    else r.addToTail code
  else r.addToTail code

/-- "left shift when next to tail", a loop of no more turns than there are
    places. -/
def lowerTail (keys : Fin 6 → Byte) (head : Fin 6) : Nat → Fin 6 → Fin 6
  | 0, tail => tail
  | turns + 1, tail =>
    let tail := tail - 1
    if keys (tail - 1) ≠ 0 then tail
    else if tail = head then tail
    else lowerTail keys head turns tail

/-- A key is taken out of its place. With the last one goes what there is in the
    counters: "reset head and tail". -/
def takeOut (r : RingReport) (i : Fin 6) : RingReport :=
  let r := { r with keys := Function.update r.keys i 0, count := r.count - 1 }
  if r.count = 0 then { r with head := 0, tail := 0 } else r

def followTail (r : RingReport) (i : Fin 6) : RingReport :=
  if i = r.tail - 1 then { r with tail := lowerTail r.keys r.head 6 r.tail } else r

def delKeyByte (r : RingReport) (code : Byte) : RingReport :=
  if r.count ≠ 0 then
    match (ringLoop r.head r.tail).find? (fun i => r.keys i == code) with
    | none => r
    | some i => (r.takeOut i).followTail i
  else r

/-- `has_anykey`: the number of places that are not zero. -/
def hasAnykey (r : RingReport) : Nat :=
  (List.finRange 6).countP (fun i => r.keys i ≠ 0)

def clearKeysFromReport (r : RingReport) : RingReport :=
  { r with keys := fun _ => 0 }

end RingReport

/-- The code of a key, which is not `KC_NO`. -/
abbrev KeyCode := { code : Byte // code ≠ 0 }

inductive RingOp where
  | add (code : KeyCode)
  | del (code : KeyCode)
  | clear
  deriving DecidableEq

def RingReport.step (r : RingReport) : RingOp → RingReport
  | .add code => r.addKeyByte code
  | .del code => r.delKeyByte code
  | .clear => r.clearKeysFromReport

def ringReport (ops : List RingOp) : RingReport := ops.foldl RingReport.step RingReport.empty

end K530
