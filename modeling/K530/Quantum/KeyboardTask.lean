import K530.Lib.Run
import K530.Quantum.Debounce
import Mathlib.Data.List.FinRange

/-!
# From the Matrix to Key Events

`keyboard_task`, as far as it makes key events out of the debounced matrix. The
rows as they were last handled are in `matrix_prev`. The first key found to
differ is handled: its event goes to `action_exec` and its bit in `matrix_prev`
is turned over. The other keys wait for the calls to come, and a call that finds
none sends a tick.

`should_process_keypress` may keep the event from being sent. The bit is turned
over all the same.

A build that declares ghosting, or more keys to a call, has other loops.

## Main definitions

* `MatrixShape`: The size of the matrix.
-/

namespace K530

/-- The size of a matrix: its rows are counted in eight bits, and one of them has
    no more than 32 columns. -/
structure MatrixShape where
  /-- `MATRIX_ROWS` -/
  rows : Nat
  /-- `MATRIX_COLS` -/
  cols : Nat
  rows_lt : rows < 256
  cols_le : cols ≤ 32

namespace MatrixShape

variable (s : MatrixShape)

/-- The bits of `matrix_row_t`. -/
def width : Nat := if s.cols ≤ 8 then 8 else if s.cols ≤ 16 then 16 else 32

theorem cols_le_width : s.cols ≤ s.width := by
  have hcols := s.cols_le
  unfold width
  by_cases h8 : s.cols ≤ 8
  · rw [if_pos h8]
    exact h8
  · rw [if_neg h8]
    by_cases h16 : s.cols ≤ 16
    · rw [if_pos h16]
      exact h16
    · rw [if_neg h16]
      exact hcols

abbrev Matrix := Fin s.rows → BitVec s.width

abbrev Key := Fin s.rows × Fin s.cols

end MatrixShape

/-- `keyevent_t`. -/
structure TaskEvent where
  row : Nat
  col : Nat
  pressed : Bool
  time : BitVec 16
  deriving DecidableEq

namespace TaskEvent

def tick (now : BitVec 16) : TaskEvent :=
  { row := 255, col := 255, pressed := false, time := now ||| 1 }

def isNoEvent (e : TaskEvent) : Bool := e.time == 0 || (e.row == 255 && e.col == 255)

end TaskEvent

variable {s : MatrixShape}

/-- `col_mask` in a column. -/
def colMask (s : MatrixShape) (col : Fin s.cols) : BitVec s.width := 1#s.width <<< col.val

def isDown (matrix : s.Matrix) (key : s.Key) : Bool := (matrix key.1).getLsbD key.2.val

def changedCol (s : MatrixShape) (matrixChange : BitVec s.width) : Option (Fin s.cols) :=
  (List.finRange s.cols).find? (fun col => matrixChange &&& colMask s col != 0)

def changedKey (matrix matrixPrev : s.Matrix) : Option s.Key :=
  (List.finRange s.rows).findSome? fun row =>
    let matrixChange := matrix row ^^^ matrixPrev row
    if matrixChange != 0 then (changedCol s matrixChange).map (Prod.mk row) else none

/-- A call of `keyboard_task`: the matrix after the scan, the timer, and what
    `should_process_keypress` answers. -/
structure TaskCall (s : MatrixShape) where
  matrix : s.Matrix
  now : BitVec 16
  shouldProcessKeypress : Bool

def taskEvent (c : TaskCall s) (key : s.Key) : TaskEvent :=
  { row := key.1.val, col := key.2.val,
    pressed := c.matrix key.1 &&& colMask s key.2 != 0, time := c.now ||| 1 }

/-- A key in `matrix_prev`, turned over. -/
def recordKey (matrixPrev : s.Matrix) (key : s.Key) : s.Matrix :=
  Function.update matrixPrev key.1 (matrixPrev key.1 ^^^ colMask s key.2)

/-- `keyboard_task`: `matrix_prev`, and what it passes to `action_exec`. -/
def keyboardTask (matrixPrev : s.Matrix) (c : TaskCall s) : s.Matrix × List TaskEvent :=
  match changedKey c.matrix matrixPrev with
  | some key =>
    -- The bit is turned over even if the event is not sent, and the rest waits.
    (recordKey matrixPrev key, if c.shouldProcessKeypress then [taskEvent c key] else [])
  -- No key has changed, so the loops end at the tick.
  | none => (matrixPrev, [TaskEvent.tick c.now])

/-- `matrix_prev` after some calls. -/
def matrixPrev (calls : List (TaskCall s)) : s.Matrix :=
  StepRun.run (StepRun.next keyboardTask) (fun _ => 0) calls

/-- What was passed to `action_exec` in some calls that follow others, a list for
    each of them. -/
def executed (before calls : List (TaskCall s)) : List (List TaskEvent) :=
  StepRun.trace keyboardTask (matrixPrev before) calls

/-! ### Behind the debouncer -/

/-- The rows of a matrix, as `matrix_row_t`. -/
def rowBits (m : KeyMatrix s.rows s.cols) : s.Matrix := fun row =>
  (List.finRange s.cols).foldl
    (fun bits col => if m row col then bits ||| colMask s col else bits) 0

/-- A scan and the call of `debounce`, before the loops of `keyboard_task`. -/
def scanCall (debounceTime : Byte) (d : Debounced (Deferred s.Key) s.Key Bool)
    (scan : MatrixScan s.rows s.cols) : Debounced (Deferred s.Key) s.Key Bool × TaskCall s :=
  let d := Deferred.call debounceTime d scan.byKey
  (d, { matrix := rowBits (fun row col => d.state.cooked (row, col)),
        now := BitVec.ofNat 16 scan.time, shouldProcessKeypress := true })

/-- The calls of `keyboard_task` that make these scans, with `sym_defer_pk.c`. -/
def scannedCalls (debounceTime : Byte) (scans : List (MatrixScan s.rows s.cols)) :
    List (TaskCall s) :=
  StepRun.trace (scanCall debounceTime) { state := Deferred.init, last := fun _ => false } scans

end K530
