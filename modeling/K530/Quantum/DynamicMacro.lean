import K530.Lib.TwoStacks

/-!
# Dynamic Macros

`process_dynamic_macro.c`: two macros that are recorded and played while the
keyboard runs.

They share one buffer. Macro 1 is written from its beginning upwards and macro 2
from its end downwards, and a recording stops short of the end of the other macro.
The functions that take a `direction` take which of the two it is. A pointer into
the buffer is an integer, because it may be one beyond either end; an access is
checked, and a function that leaves the buffer has no result.

A played record goes through `process_record` as if its key had been pressed or
released. So it comes back here, under whatever keycode its key has by then, and
may start a play of its own. The plays under way are a stack, the innermost at
its head, and an input is a key event or the next turn of the innermost loop. While
a macro is played a key event does nothing.

The rest of `process_record` is a `MacroHost`.

## Main definitions

* `MacroKey`: The keycodes that matter here.
-/

namespace K530

open TwoStacks

universe u v

/-- `DYN_REC_START1` and `2`, `DYN_REC_STOP`, `DYN_MACRO_PLAY1` and `2`, or any
    other keycode. -/
inductive MacroKey where
  | recStart (id : Side)
  | recStop
  | play (id : Side)
  | other
  deriving DecidableEq

structure MacroHost (σ : Type u) (ρ : Type v) where
  /-- `record->event.pressed` -/
  pressed : ρ → Bool
  /-- `process_record` as far as `process_dynamic_macro` -/
  before : ρ → σ → σ
  /-- the keycode of the record, unless it does not come as far -/
  keycode : σ → ρ → Option MacroKey
  /-- the rest of `process_record`, when the record is let through or not -/
  after : Bool → ρ → σ → σ
  /-- `clear_keyboard` and `layer_clear` -/
  clear : σ → σ
  /-- `clear_keyboard`, and the layers as they were -/
  restore : σ → σ → σ
  /-- `DYNAMIC_MACRO_NO_NESTING` -/
  noNesting : Bool

structure DynamicMacro (n : Nat) (ρ : Type v) where
  /-- `macro_buffer`, of `DYNAMIC_MACRO_SIZE` -/
  buffer : Vector ρ n
  macroEnd : Int
  rMacroEnd : Int
  macroPointer : Int
  /-- `macro_id`, and 0 is none -/
  macroId : Option Side
  deriving DecidableEq

namespace DynamicMacro

variable {n : Nat} {ρ : Type v}

/-- Both macros are empty. `blank` is a record of zeros. -/
def init (n : Nat) (blank : ρ) : DynamicMacro n ρ :=
  { buffer := Vector.replicate n blank, macroEnd := 0, rMacroEnd := n - 1, macroPointer := 0,
    macroId := none }

/-- `macro_end` or `r_macro_end`. -/
def endOf (m : DynamicMacro n ρ) : Side → Int
  | .front => m.macroEnd
  | .back => m.rMacroEnd

/-- `macro_buffer` or `r_macro_buffer`. -/
def beginOf (n : Nat) (id : Side) : Int := id.place n 0

def setEnd (id : Side) (pointer : Int) (m : DynamicMacro n ρ) : DynamicMacro n ρ :=
  match id with
  | .front => { m with macroEnd := pointer }
  | .back => { m with rMacroEnd := pointer }

/-- `dynamic_macro_record_start`, without the clearing. -/
def recordStart (id : Side) (m : DynamicMacro n ρ) : DynamicMacro n ρ :=
  { m with macroPointer := beginOf n id, macroId := some id }

def recordKey (pressed : ρ → Bool) (id : Side) (r : ρ) (m : DynamicMacro n ρ) :
    Option (DynamicMacro n ρ) :=
  -- a leading release
  if !pressed r && m.macroPointer == beginOf n id then some m
  else if m.macroPointer - id.direction ≠ m.endOf id.other then
    (storeAt m.buffer m.macroPointer r).map (fun buffer =>
      { m with buffer, macroPointer := m.macroPointer + id.direction })
  else some m

/-- The loop of `dynamic_macro_record_end`, which looks back over the presses the
    recording ends with. It has no result if it leaves the buffer, or if the
    fuel does not last. -/
def trimmed (pressed : ρ → Bool) (id : Side) (buffer : Vector ρ n) : Nat → Int → Option Int
  | 0, _ => none
  | fuel + 1, pointer =>
    if pointer ≠ beginOf n id then
      (fetchAt buffer (pointer - id.direction)).bind (fun r =>
        if pressed r then trimmed pressed id buffer fuel (pointer - id.direction)
        else some pointer)
    else some pointer

/-- `dynamic_macro_record_end`, and no macro is being recorded. -/
def recordEnd (pressed : ρ → Bool) (id : Side) (m : DynamicMacro n ρ) :
    Option (DynamicMacro n ρ) :=
  (trimmed pressed id m.buffer (n + 1) m.macroPointer).map (fun pointer =>
    { m.setEnd id pointer with macroId := none })

end DynamicMacro

/-- A call of `dynamic_macro_play` that has not returned. -/
structure MacroPlay (σ : Type u) (ρ : Type v) where
  id : Side
  /-- where the loop is -/
  position : Int
  /-- where it ends -/
  stop : Int
  /-- the keyboard at the call, for its layers -/
  saved : σ
  /-- the record whose release was the call -/
  record : ρ
  /-- how many events had been heard at the call. Nothing reads this. -/
  begun : Nat
  /-- the records handed on so far. Nothing reads these. -/
  handed : List ρ

def MacroPlay.start {n : Nat} {σ : Type u} {ρ : Type v} (m : DynamicMacro n ρ) (id : Side)
    (saved : σ) (record : ρ) (begun : Nat) : MacroPlay σ ρ :=
  { id, position := DynamicMacro.beginOf n id, stop := m.endOf id, saved, record, begun,
    handed := [] }

structure MacroRun (n : Nat) (σ : Type u) (ρ : Type v) where
  macros : DynamicMacro n ρ
  keyboard : σ
  /-- the plays under way, the innermost first -/
  plays : List (MacroPlay σ ρ)
  /-- an access has left the buffer -/
  faulted : Bool
  /-- what has come to `process_dynamic_macro`, oldest first. Nothing reads
      this. -/
  heard : List (MacroKey × ρ)
  /-- the plays that have ended: which macro, how many events had been heard, and
      the records handed on. Nothing reads this. -/
  played : List (Side × Nat × List ρ)

inductive MacroInput (ρ : Type v) where
  | event (r : ρ)
  | turn

namespace MacroRun

variable {n : Nat} {σ : Type u} {ρ : Type v}

def start (n : Nat) (keyboard : σ) (blank : ρ) : MacroRun n σ ρ :=
  { macros := DynamicMacro.init n blank, keyboard, plays := [], faulted := false, heard := [],
    played := [] }

/-- The macros as a function has left them, if it has kept to the buffer. -/
def kept (macros : Option (DynamicMacro n ρ)) (s : MacroRun n σ ρ) : MacroRun n σ ρ :=
  match macros with
  | some macros => { s with macros }
  | none => { s with faulted := true }

/-- The rest of `process_record`. -/
def finish (H : MacroHost σ ρ) (through : Bool) (r : ρ) (s : MacroRun n σ ρ) : MacroRun n σ ρ :=
  { s with keyboard := H.after through r s.keyboard }

/-- `dynamic_macro_play`, as far as the loop. -/
def play (H : MacroHost σ ρ) (id : Side) (r : ρ) (s : MacroRun n σ ρ) : MacroRun n σ ρ :=
  { s with
    keyboard := H.clear s.keyboard,
    plays := MacroPlay.start s.macros id s.keyboard r s.heard.length :: s.plays }

/-- `process_dynamic_macro` with no recording in progress. -/
def whenIdle (H : MacroHost σ ρ) (keycode : MacroKey) (r : ρ) (s : MacroRun n σ ρ) :
    MacroRun n σ ρ :=
  if H.pressed r then s.finish H true r
  else
    match keycode with
    | .recStart id =>
      { s with macros := s.macros.recordStart id, keyboard := H.clear s.keyboard }.finish H
        false r
    | .play id => s.play H id r
    | .recStop | .other => s.finish H true r

/-- `process_dynamic_macro` with a macro being recorded. -/
def whenRecording (H : MacroHost σ ρ) (id : Side) (keycode : MacroKey) (r : ρ)
    (s : MacroRun n σ ρ) : MacroRun n σ ρ :=
  match keycode with
  -- the recording ends with a release of a start key or a press of the stop key
  | .recStart _ =>
    if !H.pressed r then (s.kept (s.macros.recordEnd H.pressed id)).finish H false r
    else s.finish H false r
  | .recStop =>
    if H.pressed r then (s.kept (s.macros.recordEnd H.pressed id)).finish H false r
    else s.finish H false r
  | .play _ =>
    if H.noNesting then s.finish H false r
    else (s.kept (s.macros.recordKey H.pressed id r)).finish H true r
  | .other => (s.kept (s.macros.recordKey H.pressed id r)).finish H true r

def processDynamicMacro (H : MacroHost σ ρ) (keycode : MacroKey) (r : ρ) (s : MacroRun n σ ρ) :
    MacroRun n σ ρ :=
  let heard := { s with heard := s.heard ++ [(keycode, r)] }
  match s.macros.macroId with
  | none => heard.whenIdle H keycode r
  | some id => heard.whenRecording H id keycode r

def processRecord (H : MacroHost σ ρ) (r : ρ) (s : MacroRun n σ ρ) : MacroRun n σ ρ :=
  let s := { s with keyboard := H.before r s.keyboard }
  match H.keycode s.keyboard r with
  | some keycode => s.processDynamicMacro H keycode r
  | none => s.finish H false r

/-- The end of `dynamic_macro_play`. -/
def endPlay (H : MacroHost σ ρ) (p : MacroPlay σ ρ) (s : MacroRun n σ ρ) : MacroRun n σ ρ :=
  { s with
    keyboard := H.restore p.saved s.keyboard,
    played := s.played ++ [(p.id, p.begun, p.handed)] }.finish H false p.record

def turn (H : MacroHost σ ρ) (s : MacroRun n σ ρ) : MacroRun n σ ρ :=
  match s.plays with
  | [] => s
  | p :: rest =>
    if p.position = p.stop then { s with plays := rest }.endPlay H p
    else
      match fetchAt s.macros.buffer p.position with
      | some r =>
        { s with
          plays := { p with
            position := p.position + p.id.direction, handed := p.handed ++ [r] } ::
              rest }.processRecord H r
      | none => { s with faulted := true }

def step (H : MacroHost σ ρ) (s : MacroRun n σ ρ) : MacroInput ρ → MacroRun n σ ρ
  | .event r => if s.plays.isEmpty then s.processRecord H r else s
  | .turn => s.turn H

end MacroRun

end K530
