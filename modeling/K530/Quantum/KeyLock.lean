import K530.Core.Keycode
import Mathlib.Data.Finset.Basic

/-!
# Key Lock

`process_key_lock.c`: `KC_LOCK` makes the next key that is pressed stay down.

While a press of `KC_LOCK` is remembered the firmware watches. The next standard key that is
pressed is locked, which is that its releases are masked. Its next press unlocks it, and is
masked itself, so that its release ends it.

The locked keys are kept in four words of 64 bits.

## Main definitions

* `KeyLock`: The static variables.
-/

namespace K530

def kcLock : Keycode := 0x5D2B

def qkOneShotMod : Keycode := 0x5500

def qkOneShotModMax : Keycode := 0x55FF

structure KeyLock where
  keyState : Fin 4 → BitVec 64
  watching : Bool

namespace KeyLock

def init : KeyLock := { keyState := fun _ => 0, watching := false }

/-- The word of `GET_KEY_ARRAY`. -/
def keyArray (code : Keycode) : Fin 4 :=
  if code < 0x40 then 0 else if code < 0x80 then 1 else if code < 0xC0 then 2 else 3

/-- `GET_CODE_INDEX` -/
def codeIndex (code : Keycode) : Nat :=
  (if code < 0x40 then code else if code < 0x80 then code - 0x40
    else if code < 0xC0 then code - 0x80 else code - 0xC0).toNat

def isStandardKeycode (code : Keycode) : Bool := code ≤ 0xFF

/-- `KEY_STATE` -/
def keyStateOf (code : Keycode) (s : KeyLock) : Bool :=
  BitWords.has s.keyState (keyArray code) (codeIndex code)

/-- `SET_KEY_STATE` of a standard keycode. -/
def setKeyState (code : Keycode) (s : KeyLock) : KeyLock :=
  { s with keyState := BitWords.put (keyArray code) (codeIndex code) s.keyState }

/-- `UNSET_KEY_STATE` of a standard keycode. -/
def unsetKeyState (code : Keycode) (s : KeyLock) : KeyLock :=
  { s with keyState := BitWords.take (keyArray code) (codeIndex code) s.keyState }

def translateKeycode (keycode : Keycode) : Keycode :=
  if qkOneShotMod < keycode ∧ keycode ≤ qkOneShotModMax then keycode ^^^ qkOneShotMod
  else keycode

/-- `process_key_lock`: whether the event goes on, the keycode it goes on with, and the
    variables. -/
def processKeyLock (keycode : Keycode) (pressed : Bool) (s : KeyLock) :
    Bool × Keycode × KeyLock :=
  let translated := translateKeycode keycode
  if pressed then
    if !(isStandardKeycode translated || translated == kcLock) then
      (true, keycode, { s with watching := false })
    else if translated == kcLock then (false, keycode, { s with watching := !s.watching })
    else if s.watching then
      -- a key that is locked already is locked again
      (true, translated, { s with watching := false }.setKeyState translated)
    else if s.keyStateOf translated then (false, keycode, s.unsetKeyState translated)
    else (true, keycode, s)
  else (!(isStandardKeycode translated && s.keyStateOf translated), keycode, s)

end KeyLock

/-! ### Runs -/

/-- A key with a standard keycode is pressed or released, or one with `KC_LOCK`. -/
inductive KeyLockInput where
  | press (code : Byte)
  | release (code : Byte)
  | pressLock
  | releaseLock
  deriving DecidableEq

def standard (code : Byte) : Keycode := code.setWidth 16

structure KeyLockRun where
  lock : KeyLock
  /-- the standard keys that are down -/
  down : Finset Keycode
  /-- the keys the host sees as down -/
  host : Finset Keycode

namespace KeyLockRun

def start : KeyLockRun := { lock := .init, down := ∅, host := ∅ }

def event (keycode : Keycode) (pressed : Bool) (r : KeyLockRun) : KeyLockRun :=
  let (goesOn, keycode, lock) := r.lock.processKeyLock keycode pressed
  { r with
    lock,
    host :=
      if goesOn then if pressed then insert keycode r.host else r.host.erase keycode
      else r.host }

def step (r : KeyLockRun) : KeyLockInput → KeyLockRun
  | .press code =>
    if standard code ∈ r.down then r
    else { r with down := insert (standard code) r.down }.event (standard code) true
  | .release code =>
    if standard code ∉ r.down then r
    else { r with down := r.down.erase (standard code) }.event (standard code) false
  | .pressLock => r.event kcLock true
  | .releaseLock => r.event kcLock false

end KeyLockRun

/-! ### What it is for -/

/-- The standard keys that are down, and those that should be locked. -/
structure LockedKeys where
  down : Finset Keycode
  locked : Finset Keycode
  /-- `KC_LOCK` has been pressed an odd number of times since the last standard key -/
  odd : Bool

namespace LockedKeys

def start : LockedKeys := { down := ∅, locked := ∅, odd := false }

/-- The press of a key locks it, after an odd number of presses of `KC_LOCK`, and unlocks it
    otherwise. -/
def step (a : LockedKeys) : KeyLockInput → LockedKeys
  | .press code =>
    if standard code ∈ a.down then a
    else
      { down := insert (standard code) a.down,
        locked :=
          if a.odd then insert (standard code) a.locked else a.locked.erase (standard code),
        odd := false }
  | .release code => { a with down := a.down.erase (standard code) }
  | .pressLock => { a with odd := !a.odd }
  | .releaseLock => a

end LockedKeys

end K530
