import K530.Core.Keycode
import K530.Lib.Ring

/-!
# Combos

`process_combo.c`: keys that are pressed together stand for another.

A press of a key that some combo has waits in the key buffer, and each combo
remembers which of its keys are down. When all of them are the combo is put into a
second buffer, a ring, and one that has a key in common with it and is there already
is disabled, or it is disabled itself when it has fewer keys. At the next event that
is not a press of such a key, or when enough time has passed, the combos in the ring
are applied: of the waiting presses that belong to a combo the last becomes its
result, and the others are dropped. Then what waits is delivered, and every combo that
is not active starts from nothing. The result of a combo is released with the last of
its keys; until then the releases of its keys go nowhere.

The sizes of the two buffers and of the set of keys a combo remembers are build
options. This is the build without the options for combos that must be held or
tapped, or that look at the release of their keys.

What is delivered is kept in a log. Every press has a number, and a result has the
presses it was made of, which no code reads.

## Main definitions

* `Combo`: The keys of a combo, and its term.
-/

namespace K530

open Ring

/-! ### A combo -/

/-- `COMBO_END`, which is also `KC_NO`. -/
def comboEnd : Keycode := 0

def cmbOn : Keycode := 0x5CF8

def cmbOff : Keycode := 0x5CF9

def cmbTog : Keycode := 0x5CFA

/-- The constant part of `combo_t`: the keys up to `COMBO_END`, and
    `get_combo_term`. A key is told by a bit of an `int`. -/
structure Combo where
  keys : List Keycode
  term : BitVec 16
  keys_ne : ∀ key ∈ keys, key ≠ comboEnd
  length_lt : keys.length < 31

/-- The loop of `_find_key_index_and_count`, from an index on. The end of the keys
    is compared like a key. -/
def findKeyIndex (keycode : Keycode) : List Keycode → Nat → Option Nat → Option Nat
  | [], index, found => if keycode = comboEnd then some index else found
  | key :: keys, index, found =>
    findKeyIndex keycode keys (index + 1) (if keycode = key then some index else found)

def Combo.keyIndex (c : Combo) (keycode : Keycode) : Option Nat :=
  findKeyIndex keycode c.keys 0 none

/-- The rest of `combo_t`. -/
structure ComboState (w : Nat) where
  active : Bool
  disabled : Bool
  state : BitVec w
  deriving DecidableEq

namespace ComboState

variable {w : Nat}

def init (w : Nat) : ComboState w := { active := false, disabled := false, state := 0 }

/-- `ALL_COMBO_KEYS_ARE_DOWN` -/
def allDown (state : BitVec w) (keyCount : Nat) : Bool := 2 ^ keyCount - 1 == state.toNat

/-- `ONLY_ONE_KEY_IS_DOWN`. None is as good as one. -/
def onlyOneDown (state : BitVec w) : Bool := state &&& (state - 1) == 0

/-- `KEY_STATE_DOWN` -/
def keyDown (state : BitVec w) (index : Nat) : BitVec w := state ||| 1#w <<< index

/-- `KEY_STATE_UP` -/
def keyUp (state : BitVec w) (index : Nat) : BitVec w := state &&& ~~~(1#w <<< index)

end ComboState

/-! ### The static variables -/

/-- What is delivered: a key that was pressed, or the result of a combo. -/
inductive ComboOutcome (n : Nat) where
  | key (serial : Nat)
  | result (combo : Fin n) (chord : List (Nat × Keycode))
  deriving DecidableEq

structure QueuedRecord (n : Nat) where
  serial : Nat
  keycode : Keycode
  /-- `event.time`, 0 for no event -/
  time : BitVec 16
  comboIndex : Option (Fin n)
  deriving DecidableEq

structure Combos (n w m : Nat) where
  combos : Fin n → ComboState w
  /-- 0 when it does not run -/
  timer : BitVec 16
  enabled : Bool
  longestTerm : BitVec 16
  keyBuffer : List (QueuedRecord n)
  comboBuffer : Fin m → Option (Fin n)
  read : Fin m
  write : Fin m
  /-- the presses a combo was last made of. Nothing reads this. -/
  chord : Fin n → List (Nat × Keycode)
  /-- what has been pressed and released, oldest first. Nothing reads this. -/
  log : List (Bool × ComboOutcome n)

namespace Combos

variable {n w m : Nat} [NeZero m]

def init (n w m : Nat) [NeZero m] : Combos n w m :=
  { combos := fun _ => .init w, timer := 0, enabled := true, longestTerm := 0, keyBuffer := [],
    comboBuffer := fun _ => none, read := 0, write := 0, chord := fun _ => [], log := [] }

def setCombo (i : Fin n) (cs : ComboState w) (q : Combos n w m) : Combos n w m :=
  { q with combos := Function.update q.combos i cs }

/-- `DISABLE_COMBO` -/
def disable (i : Fin n) (q : Combos n w m) : Combos n w m :=
  q.setCombo i { q.combos i with disabled := true }

/-- `action_tapping_process`, and `process_combo_event` for a combo without a
    keycode. -/
def deliver (pressed : Bool) (x : ComboOutcome n) (q : Combos n w m) : Combos n w m :=
  { q with log := q.log ++ [(pressed, x)] }

def prepared (q : Combos n w m) : List (Fin n) :=
  contents q.comboBuffer q.read q.write

def releaseCombo (i : Fin n) (q : Combos n w m) : Combos n w m :=
  (q.deliver false (.result i (q.chord i))).setCombo i { q.combos i with active := false }

def clearCombos (q : Combos n w m) : Combos n w m :=
  { q with
    longestTerm := 0,
    combos := fun i =>
      if (q.combos i).active then q.combos i
      else { q.combos i with disabled := false, state := 0 } }

/-- What `dump_key_buffer` delivers for a record. -/
def dumps (q : Combos n w m) (r : QueuedRecord n) : Option (ComboOutcome n) :=
  if r.time = 0 then none
  else
    match r.comboIndex with
    | none => some (.key r.serial)
    | some i => some (.result i (q.chord i))

/-- `dump_key_buffer`. What it delivers does not come back here. -/
def dumpKeyBuffer (q : Combos n w m) : Combos n w m :=
  { q with log := q.log ++ (q.keyBuffer.filterMap q.dumps).map (Prod.mk true), keyBuffer := [] }

def dropComboFromBuffer (i : Fin n) (q : Combos n w m) : Combos n w m :=
  match (positions q.read q.write).find? (fun p => q.comboBuffer p = some i) with
  | none => q
  | some p =>
    let q := q.disable i
    if p = q.read then { q with read := q.read + 1 } else q

/-- The loop of `apply_combo` over the key buffer: the buffer after it, and the
    presses the combo is made of if all of its keys are there. -/
def applyTo (c : Combo) (i : Fin n) : BitVec w → List (Nat × Keycode) → List (QueuedRecord n) →
    List (QueuedRecord n) × Option (List (Nat × Keycode))
  | _, _, [] => ([], none)
  | state, chord, r :: rs =>
    match c.keyIndex r.keycode with
    | none =>
      let (rs', all) := applyTo c i state chord rs
      (r :: rs', all)
    | some index =>
      if ComboState.allDown (ComboState.keyDown state index) c.keys.length then
        ({ r with comboIndex := some i } :: rs, some (chord ++ [(r.serial, r.keycode)]))
      else
        let (rs', all) := applyTo c i (ComboState.keyDown state index)
          (chord ++ [(r.serial, r.keycode)]) rs
        ({ r with time := 0 } :: rs', all)

/-- `ACTIVATE_COMBO`, when all of the keys were there. -/
def activate (i : Fin n) (all : Option (List (Nat × Keycode))) (q : Combos n w m) :
    Combos n w m :=
  match all with
  | none => q
  | some chord =>
    { q.setCombo i { q.combos i with active := true } with
      chord := Function.update q.chord i chord }

variable (combos : Fin n → Combo)

def applyCombo (i : Fin n) (q : Combos n w m) : Combos n w m :=
  if (q.combos i).disabled then q
  else
    let (keyBuffer, all) := applyTo (combos i) i (0#w) [] q.keyBuffer
    ({ q with keyBuffer }.activate i all).dropComboFromBuffer i

def applyCombos (q : Combos n w m) : Combos n w m :=
  ((q.prepared.foldl (fun q i => q.applyCombo combos i) q).dumpKeyBuffer).clearCombos

/-- `overlaps`: of two combos with a key in common, the one to drop. -/
def overlaps (i j : Fin n) : Option (Fin n) :=
  if (combos i).keys.any (fun key => (combos j).keys.contains key) then
    if (combos j).keys.length < (combos i).keys.length then some j else some i
  else none

/-- The loop of `process_single_combo` over the ring: whether the combo itself is
    dropped. -/
def dropOverlapping (i : Fin n) : List (Fin m) → Combos n w m → Bool × Combos n w m
  | [], q => (false, q)
  | p :: ps, q =>
    match (q.comboBuffer p).bind (fun buffered => overlaps combos buffered i) with
    | none => dropOverlapping i ps q
    | some d =>
      if d = i then (true, q.disable d)
      else
        -- one at the beginning of the ring leaves it
        dropOverlapping i ps
          (if p = q.read then { q.disable d with read := q.read + 1 } else q.disable d)

/-- Put a combo into the ring, which does not look whether there is room. -/
def enqueue (i : Fin n) (q : Combos n w m) : Combos n w m :=
  { q with
    comboBuffer := Function.update q.comboBuffer q.write (some i), write := q.write + 1 }

/-- The combo was fully pressed, in `process_single_combo`. -/
def fullyPressed (now : BitVec 16) (i : Fin n) (q : Combos n w m) : Combos n w m :=
  if q.timer ≠ 0 ∧ now - q.timer > (combos i).term then q.disable i
  else
    let (dropped, q') := q.dropOverlapping combos i (positions q.read q.write)
    if dropped then q' else q'.enqueue i

/-- A key of a combo that takes part is pressed, in `process_single_combo`. -/
def chordPress (now : BitVec 16) (i : Fin n) (index : Nat) (q : Combos n w m) : Combos n w m :=
  let q' :=
    if (q.combos i).active then q
    else
      { q.setCombo i { q.combos i with state := ComboState.keyDown (q.combos i).state index } with
        longestTerm := if q.longestTerm < (combos i).term then (combos i).term
          else q.longestTerm }
  if ComboState.allDown (q'.combos i).state (combos i).keys.length then
    q'.fullyPressed combos now i
  else q'

/-- Another event of a key of a combo, in `process_single_combo`: whether the key
    is part of it. -/
def chordRelease (i : Fin n) (index : Nat) (q : Combos n w m) : Bool × Combos n w m :=
  let cs := q.combos i
  let (part, q') :=
    if !cs.active && ComboState.allDown cs.state (combos i).keys.length then
      if cs.disabled then (false, q.dropComboFromBuffer i) else (q.enabled, q)
    else if cs.active && ComboState.onlyOneDown cs.state && cs.state.getLsbD index then
      (true, q.releaseCombo i)
    else if cs.active && cs.state.getLsbD index then (true, q)
    else (false, q)
  (part, q'.setCombo i
    { q'.combos i with state := ComboState.keyUp (q'.combos i).state index })

def processSingleCombo (now : BitVec 16) (keycode : Keycode) (pressed : Bool) (i : Fin n)
    (q : Combos n w m) : Bool × Combos n w m :=
  match (combos i).keyIndex keycode with
  | none => (false, q)
  | some index =>
    if pressed && (!(q.combos i).disabled && q.enabled) then
      (true, q.chordPress combos now i index)
    else q.chordRelease combos i index

/-- The loop of `process_combo`: whether the key belongs to a combo. -/
def processCombos (now : BitVec 16) (keycode : Keycode) (pressed : Bool) :
    List (Fin n) → Combos n w m → Bool × Combos n w m
  | [], q => (false, q)
  | i :: is, q =>
    let (part, q) := q.processSingleCombo combos now keycode pressed i
    let (others, q) := processCombos now keycode pressed is q
    (part || others, q)

def flush (q : Combos n w m) : Combos n w m :=
  if q.read ≠ q.write then q.applyCombos combos
  else { q.dumpKeyBuffer with timer := 0 }.clearCombos

/-- `combo_enable`. -/
def enable (q : Combos n w m) : Combos n w m := { q with enabled := true }

/-- `combo_disable`. -/
def disableAll (q : Combos n w m) : Combos n w m :=
  { q with timer := 0, enabled := false, read := q.write }.clearCombos.dumpKeyBuffer

/-- `combo_toggle`. -/
def toggle (q : Combos n w m) : Combos n w m :=
  if q.enabled then q.disableAll else q.enable

/-- `process_combo`: whether the event goes on. -/
def processCombo (capacity : Nat) (now : BitVec 16) (serial : Nat) (keycode : Keycode)
    (pressed : Bool) (q : Combos n w m) : Bool × Combos n w m :=
  if pressed && keycode == cmbOn then (true, q.enable)
  else if pressed && keycode == cmbOff then (true, q.disableAll)
  else if pressed && keycode == cmbTog then (true, q.toggle)
  else
    let (isComboKey, q) := q.processCombos combos now keycode pressed (List.finRange n)
    if pressed && isComboKey then
      (false, { q with
        timer := now,
        keyBuffer :=
          if q.keyBuffer.length < capacity then
            q.keyBuffer ++ [{ serial, keycode, time := now ||| 1, comboIndex := none }]
          else q.keyBuffer })
    else (!isComboKey, q.flush combos)

def comboTask (now : BitVec 16) (q : Combos n w m) : Combos n w m :=
  if !q.enabled then q
  else if q.timer ≠ 0 ∧ now - q.timer > q.longestTerm then
    { q.flush combos with longestTerm := 0, timer := 0 }
  else q

end Combos

/-! ### Runs -/

/-- A key is pressed or released, the task is called, or the time changes. -/
inductive ComboInput where
  | press (keycode : Keycode)
  | release (keycode : Keycode)
  | task
  | tick (now : BitVec 16)
  deriving DecidableEq

/-- Everything. The keys have different keycodes, so a key is told by its
    keycode. -/
structure ComboRun (n w m : Nat) where
  queue : Combos n w m
  /-- `timer_read` -/
  clock : BitVec 16
  /-- the presses of the keys that are held -/
  held : List (Nat × Keycode)
  /-- how many presses there have been -/
  serials : Nat

namespace ComboRun

variable {n w m : Nat} [NeZero m]

def start (n w m : Nat) [NeZero m] : ComboRun n w m :=
  { queue := .init n w m, clock := 0, held := [], serials := 0 }

variable (combos : Fin n → Combo) (capacity : Nat)

def process (pressed : Bool) (h : Nat × Keycode) (r : ComboRun n w m) : ComboRun n w m :=
  let (goesOn, q) := r.queue.processCombo combos capacity r.clock h.1 h.2 pressed
  { r with queue := if goesOn then q.deliver pressed (.key h.1) else q }

def press (keycode : Keycode) (r : ComboRun n w m) : ComboRun n w m :=
  if r.held.any (fun h => h.2 = keycode) then r
  else
    { r with held := (r.serials, keycode) :: r.held, serials := r.serials + 1 }.process combos
      capacity true (r.serials, keycode)

def release (keycode : Keycode) (r : ComboRun n w m) : ComboRun n w m :=
  match r.held.find? (fun h => h.2 = keycode) with
  | none => r
  | some h => { r with held := r.held.erase h }.process combos capacity false h

def step (r : ComboRun n w m) : ComboInput → ComboRun n w m
  | .press keycode => r.press combos capacity keycode
  | .release keycode => r.release combos capacity keycode
  | .task => { r with queue := r.queue.comboTask combos r.clock }
  | .tick now => { r with clock := now }

end ComboRun

end K530
