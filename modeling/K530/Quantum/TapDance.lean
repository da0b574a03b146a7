import K530.Core.Usb
import K530.Lib.OnOff

/-!
# Tap Dances

`process_tap_dance.c`: a key that does something else when it is tapped several times.

Every dance has up to three functions. One is called at each tap. One is called when the dance
is finished, which is when its term has passed or when another key is pressed. One is called
when it is reset, which is when it is finished and its key is up. They get the state of the
dance, which they may change, and they may use the USB side and a memory of their own.

The modifiers that are there at a tap are kept. The one-shot modifiers are added to those that
are registered when the dance is finished, and deleted from them when it is reset.

`tap_dance_task` counts in eight bits, up to the highest dance that has been used. If that is
the last one there can be, it goes round for ever.

## Main definitions

* `TapDanceAction`, `TapDanceState`: What a dance is, and how far it is.
-/

namespace K530

universe u

def qkTapDance : Keycode := 0x5700

def qkTapDanceMax : Keycode := 0x57FF

/-- `qk_tap_dance_state_t`. -/
structure TapDanceState where
  count : Byte
  oneshotMods : Byte
  weakMods : Byte
  keycode : Keycode
  interruptingKeycode : Keycode
  timer : BitVec 16
  interrupted : Bool
  pressed : Bool
  finished : Bool
  deriving DecidableEq

def TapDanceState.init : TapDanceState :=
  { count := 0, oneshotMods := 0, weakMods := 0, keycode := 0, interruptingKeycode := 0,
    timer := 0, interrupted := false, pressed := false, finished := false }

/-- `qk_tap_dance_user_fn_t`, of a dance with its own user data. -/
abbrev TapDanceFn (M : Type u) := TapDanceState → Usb × M → TapDanceState × Usb × M

/-- `qk_tap_dance_action_t`, without its state. -/
structure TapDanceAction (M : Type u) where
  onEachTap : Option (TapDanceFn M)
  onDanceFinished : Option (TapDanceFn M)
  onReset : Option (TapDanceFn M)
  customTappingTerm : BitVec 16

def danceOf {n : Nat} (keycode : Keycode) : Option (Fin n) :=
  if h : (qkTapDance ≤ keycode ∧ keycode ≤ qkTapDanceMax) ∧ (keycode - qkTapDance).toNat < n then
    some ⟨(keycode - qkTapDance).toNat, h.2⟩
  else none

structure TapDances (n : Nat) (M : Type u) where
  /-- the states in `tap_dance_actions` -/
  states : Fin n → TapDanceState
  lastTd : Keycode
  /-- -1 before any dance has been used -/
  highestTd : Int
  usb : Usb
  /-- the memory of the functions -/
  memory : M
  /-- the modifiers whose keys are held. Nothing reads this. -/
  heldMods : Byte
  /-- for each dance, those that have been held since its first tap. Nothing reads this. -/
  heldThrough : Fin n → Byte
  /-- for each reset, the modifiers that had been held since the first tap, and those that were
      registered after it. Nothing reads this. -/
  resets : List (Byte × Byte)

namespace TapDances

variable {n : Nat} {M : Type u}

def init (n : Nat) (nkro : Bool) (memory : M) : TapDances n M :=
  { states := fun _ => .init, lastTd := 0, highestTd := -1, usb := .init nkro, memory,
    heldMods := 0, heldThrough := fun _ => 0, resets := [] }

def setState (i : Fin n) (st : TapDanceState) (d : TapDances n M) : TapDances n M :=
  { d with states := Function.update d.states i st }

def onUsb (f : Usb → Usb) (d : TapDances n M) : TapDances n M := { d with usb := f d.usb }

def processTapDanceActionFn (fn : Option (TapDanceFn M)) (i : Fin n) (d : TapDances n M) :
    TapDances n M :=
  match fn with
  | none => d
  | some f =>
    let (st, usb, memory) := f (d.states i) (d.usb, d.memory)
    { d.setState i st with usb, memory }

variable (actions : Fin n → TapDanceAction M)

def finish (i : Fin n) (d : TapDances n M) : TapDances n M :=
  (d.setState i { d.states i with finished := true }).onUsb (fun u =>
    ((u.addMods (d.states i).oneshotMods).addWeakMods (d.states i).weakMods).sendKeyboardReport)

/-- `process_tap_dance_action_on_dance_finished`. -/
def onDanceFinished (i : Fin n) (d : TapDances n M) : TapDances n M :=
  if (d.states i).finished then d
  else (d.finish i).processTapDanceActionFn (actions i).onDanceFinished i

/-- `process_tap_dance_action_on_reset`. -/
def onReset (i : Fin n) (d : TapDances n M) : TapDances n M :=
  let d := d.processTapDanceActionFn (actions i).onReset i
  let d := d.onUsb (fun u =>
    ((u.delMods (d.states i).oneshotMods).delWeakMods (d.states i).weakMods).sendKeyboardReport)
  { d with resets := d.resets ++ [(d.heldThrough i, d.usb.realMods)] }

/-- `reset_tap_dance`. The dance is found again by its keycode. -/
def resetTapDance (i : Fin n) (d : TapDances n M) : TapDances n M :=
  if (d.states i).pressed then d
  else
    match danceOf (d.states i).keycode with
    | none => d
    | some j =>
      let d := d.onReset actions j
      { d.setState i
          { d.states i with
            count := 0, interrupted := false, finished := false, interruptingKeycode := 0 } with
        lastTd := 0 }

def endDance (i : Fin n) (d : TapDances n M) : TapDances n M :=
  (d.onDanceFinished actions i).resetTapDance actions i

/-- The dances up to `highest_td`. -/
def used (d : TapDances n M) : List (Fin n) :=
  (List.finRange n).filter (fun i => (i : Int) ≤ d.highestTd)

/-- The loop of `preprocess_tap_dance`, for a dance. -/
def interrupt (keycode : Keycode) (d : TapDances n M) (i : Fin n) : TapDances n M :=
  if (d.states i).count = 0 then d
  else if keycode = (d.states i).keycode ∧ keycode = d.lastTd then d
  else
    ((d.setState i
      { d.states i with interrupted := true, interruptingKeycode := keycode }).endDance
        actions i).onUsb Usb.clearWeakMods

def preprocessTapDance (keycode : Keycode) (pressed : Bool) (d : TapDances n M) :
    TapDances n M :=
  if pressed then d.used.foldl (interrupt actions keycode) d else d

def tap (now : BitVec 16) (keycode : Keycode) (i : Fin n) (d : TapDances n M) : TapDances n M :=
  { d.setState i
      { d.states i with
        pressed := true, keycode, count := (d.states i).count + 1, timer := now,
        oneshotMods := d.usb.oneshotMods, weakMods := d.usb.realMods ||| d.usb.weakMods } with
    heldThrough :=
      if (d.states i).count = 0 then Function.update d.heldThrough i d.heldMods
      else d.heldThrough }

def processTapDance (now : BitVec 16) (keycode : Keycode) (pressed : Bool) (d : TapDances n M) :
    TapDances n M :=
  match danceOf keycode with
  | none => d
  | some i =>
    let d := { d with highestTd := max d.highestTd i }
    if pressed then
      { (d.tap now keycode i).processTapDanceActionFn (actions i).onEachTap i with
        lastTd := keycode }
    else
      let d := d.setState i { d.states i with pressed := false }
      if (d.states i).count ≠ 0 ∧ (d.states i).finished then d.resetTapDance actions i else d

/-- The term of a dance, with `get_tapping_term` as it comes. -/
def tappingTerm (getTappingTerm : Keycode → BitVec 16) (i : Fin n) (d : TapDances n M) :
    BitVec 16 :=
  if 0 < (actions i).customTappingTerm then (actions i).customTappingTerm
  else getTappingTerm (d.states i).keycode

/-- The loop of `tap_dance_task`, for a dance. -/
def expire (getTappingTerm : Keycode → BitVec 16) (now : BitVec 16) (d : TapDances n M)
    (i : Fin n) : TapDances n M :=
  if (d.states i).count ≠ 0 ∧
      d.tappingTerm actions getTappingTerm i < now - (d.states i).timer then
    d.endDance actions i
  else d

/-- `tap_dance_task`, once round. -/
def tapDanceTask (getTappingTerm : Keycode → BitVec 16) (now : BitVec 16) (d : TapDances n M) :
    TapDances n M :=
  d.used.foldl (expire actions getTappingTerm now) d

/-- The body of the loop of `tap_dance_task`, at a value of its counter. -/
def visit (getTappingTerm : Keycode → BitVec 16) (now : BitVec 16) (d : TapDances n M)
    (i : Byte) : TapDances n M :=
  if h : i.toNat < n then d.expire actions getTappingTerm now ⟨i.toNat, h⟩ else d

/-- The loop of `tap_dance_task`, with its counter of eight bits: the indices it visits, and
    the dances after it. There are none while it has not come to its end in so many rounds. -/
def taskLoop (getTappingTerm : Keycode → BitVec 16) (now : BitVec 16) :
    Nat → Byte → TapDances n M → Option (List Byte × TapDances n M)
  | 0, _, _ => none
  | rounds + 1, i, d =>
    if (i.toNat : Int) ≤ d.highestTd then
      (taskLoop getTappingTerm now rounds (i + 1) (d.visit actions getTappingTerm now i)).map
        (fun out => (i :: out.1, out.2))
    else some ([], d)

/-- `tap_dance_task`, for at most so many rounds of its loop. -/
def tapDanceTaskIn (getTappingTerm : Keycode → BitVec 16) (now : BitVec 16) (rounds : Nat)
    (d : TapDances n M) : Option (List Byte × TapDances n M) :=
  if d.highestTd = -1 then some ([], d) else taskLoop actions getTappingTerm now rounds 0 d

end TapDances

/-! ### Dances of two keycodes -/

namespace TapDanceAction

variable {n : Nat}

abbrev Calls (n : Nat) := List (OnOff.Entry (Fin n) Keycode)

/-- `register_code16`, called by a dance. -/
def registers (i : Fin n) (keycode : Keycode) (s : Usb × Calls n) : Usb × Calls n :=
  (s.1.registerCode16 keycode, s.2 ++ [⟨i, true, keycode⟩])

/-- `unregister_code16`, called by a dance. -/
def unregisters (i : Fin n) (keycode : Keycode) (s : Usb × Calls n) : Usb × Calls n :=
  (s.1.unregisterCode16 keycode, s.2 ++ [⟨i, false, keycode⟩])

/-- `qk_tap_dance_pair_on_each_tap`. -/
def pairOnEachTap (i : Fin n) (kc2 : Keycode) : TapDanceFn (Calls n) := fun st s =>
  if st.count = 2 then ({ st with finished := true }, registers i kc2 s) else (st, s)

/-- `qk_tap_dance_pair_finished`. -/
def pairFinished (i : Fin n) (kc1 kc2 : Keycode) : TapDanceFn (Calls n) := fun st s =>
  (st, if st.count = 1 then registers i kc1 s else if st.count = 2 then registers i kc2 s else s)

/-- `qk_tap_dance_pair_reset`. -/
def pairReset (i : Fin n) (kc1 kc2 : Keycode) : TapDanceFn (Calls n) := fun st s =>
  (st, if st.count = 1 then unregisters i kc1 s
    else if st.count = 2 then unregisters i kc2 s else s)

/-- `ACTION_TAP_DANCE_DOUBLE`, for each dance. -/
def pair (pairs : Fin n → Keycode × Keycode) (i : Fin n) : TapDanceAction (Calls n) :=
  { onEachTap := some (pairOnEachTap i (pairs i).2),
    onDanceFinished := some (pairFinished i (pairs i).1 (pairs i).2),
    onReset := some (pairReset i (pairs i).1 (pairs i).2),
    customTappingTerm := 0 }

end TapDanceAction

/-! ### Runs -/

/-- A key is pressed or released, the task goes round, the time changes, or other code does
    something to the USB side. -/
inductive TapDanceInput where
  | press (keycode : Keycode)
  | release (keycode : Keycode)
  | task
  | tick (now : BitVec 16)
  | other (usb : Usb)

structure TapDanceRun (n : Nat) (M : Type u) where
  dances : TapDances n M
  /-- `timer_read` -/
  clock : BitVec 16
  down : Finset Keycode
  /-- `tap_dance_task` goes round for ever -/
  hung : Bool

namespace TapDanceRun

variable {n : Nat} {M : Type u}

def start (n : Nat) (nkro : Bool) (memory : M) : TapDanceRun n M :=
  { dances := .init n nkro memory, clock := 0, down := ∅, hung := false }

def modOf (keycode : Keycode) : Byte :=
  if 0xE0 ≤ keycode ∧ keycode ≤ 0xE7 then modBit (lowByte keycode) else 0

variable (actions : Fin n → TapDanceAction M) (getTappingTerm : Keycode → BitVec 16)

/-- A key goes down, unless it is down. A basic keycode is registered in the end. -/
def press (keycode : Keycode) (r : TapDanceRun n M) : TapDanceRun n M :=
  if keycode ∈ r.down then r
  else if r.hung then { r with down := insert keycode r.down }
  else
    let d := (r.dances.preprocessTapDance actions keycode true).processTapDance actions r.clock
      keycode true
    let d := if keycode ≤ 0xFF then d.onUsb (Usb.registerCode (lowByte keycode)) else d
    { r with
      dances := { d with heldMods := d.heldMods ||| modOf keycode },
      down := insert keycode r.down }

/-- A key goes up, if it is down. Its modifier is no longer held. -/
def release (keycode : Keycode) (r : TapDanceRun n M) : TapDanceRun n M :=
  if keycode ∉ r.down then r
  else
    let d := { r.dances with
      heldMods := r.dances.heldMods &&& ~~~modOf keycode,
      heldThrough := fun i => r.dances.heldThrough i &&& ~~~modOf keycode }
    if r.hung then { r with dances := d, down := r.down.erase keycode }
    else
      let d := (d.preprocessTapDance actions keycode false).processTapDance actions r.clock keycode
        false
      { r with
        dances := if keycode ≤ 0xFF then d.onUsb (Usb.unregisterCode (lowByte keycode)) else d,
        down := r.down.erase keycode }

def step (r : TapDanceRun n M) : TapDanceInput → TapDanceRun n M
  | .press keycode => r.press actions keycode
  | .release keycode => r.release actions keycode
  | .task =>
    { r with
      dances := r.dances.tapDanceTask actions getTappingTerm r.clock,
      hung := r.hung || 255 ≤ r.dances.highestTd }
  | .tick now => { r with clock := now }
  | .other usb =>
    { r with
      dances := r.dances.onUsb (fun _ =>
        { usb with realMods := usb.realMods ||| r.dances.heldMods }) }

end TapDanceRun

end K530
