import K530.Core.Keycode
import Mathlib.Data.Fintype.Prod

/-!
# Debouncing the Matrix

Three of the algorithms that make the debounced matrix out of the scanned one:
`sym_defer_pk.c`, `sym_eager_pk.c` and `sym_eager_pr.c`. Each has an eight-bit
counter for every key, or for every row, that counts down the milliseconds to
zero, `DEBOUNCE_ELAPSED`. All counters share one time of the last call and one
flag that some of them are running.

The deferred algorithm starts a key's counter when the key differs from its
debounced state, stops it when it no longer does, and takes the state over when
the counter runs out. The eager ones take it over at once and start the counter
behind it. What changes while it runs is taken over when it has run out, which a
second flag sees to.

The two eager algorithms differ in what has a counter, a key or a row, and the
deferred one might have been of either kind. What has a counter is a cell here.
It holds a bit of the matrix or a row of it.

The time is that of the 32-bit fast timer.

## Main definitions

* `elapsedTime`, `lower`: The time since the last call, and a counter after it.
-/

namespace K530

/-! ### Counters -/

/-- `TIMER_DIFF_FAST`, and no more than a counter can hold. -/
def elapsedTime (now last : BitVec 32) : Byte :=
  if 255 < (now - last).toNat then 255 else (now - last).setWidth 8

def runsOut (elapsed counter : Byte) : Bool := counter != 0 && counter ≤ elapsed

def runsOn (elapsed counter : Byte) : Bool := counter != 0 && elapsed < counter

def lower (elapsed counter : Byte) : Byte :=
  if counter != 0 then if counter ≤ elapsed then 0 else counter - elapsed else counter

/-! ### The deferred algorithm -/

/-- The state of the deferred algorithm, `cooked` included. -/
structure Deferred (κ : Type) where
  cooked : κ → Bool
  /-- `debounce_counters` -/
  counter : κ → Byte
  /-- `last_time` -/
  lastTime : BitVec 32
  /-- `counters_need_update` -/
  countersNeedUpdate : Bool

namespace Deferred

variable {κ : Type} [Fintype κ]

/-- After `debounce_init`. -/
def init : Deferred κ :=
  { cooked := fun _ => false, counter := fun _ => 0, lastTime := 0, countersNeedUpdate := false }

def updateDebounceCountersAndTransferIfExpired (raw : κ → Bool) (elapsed : Byte)
    (s : Deferred κ) : Deferred κ :=
  { s with
    -- Only a key whose counter runs out in this call is written.
    cooked := fun k => if runsOut elapsed (s.counter k) then raw k else s.cooked k,
    counter := fun k => lower elapsed (s.counter k),
    countersNeedUpdate := decide (∃ k, runsOn elapsed (s.counter k) = true) }

def startDebounceCounters (debounceTime : Byte) (raw : κ → Bool) (s : Deferred κ) : Deferred κ :=
  { s with
    counter := fun k =>
      -- A bounce back to the debounced state stops the counter.
      if raw k != s.cooked k then if s.counter k = 0 then debounceTime else s.counter k else 0,
    countersNeedUpdate := s.countersNeedUpdate ||
      decide (∃ k, raw k ≠ s.cooked k ∧ s.counter k = 0) }

def catchUp (now : BitVec 32) (raw : κ → Bool) (s : Deferred κ) : Deferred κ :=
  if s.countersNeedUpdate then
    let elapsed := elapsedTime now s.lastTime
    let timed := { s with lastTime := now }
    if 0 < elapsed then timed.updateDebounceCountersAndTransferIfExpired raw elapsed else timed
  else s

def debounce (debounceTime : Byte) (now : BitVec 32) (raw : κ → Bool) (changed : Bool)
    (s : Deferred κ) : Deferred κ :=
  -- `updated_last` is set in the branch that brings the counters up to date.
  let updatedLast := s.countersNeedUpdate
  let s := s.catchUp now raw
  if changed then
    let s := if updatedLast then s else { s with lastTime := now }
    s.startDebounceCounters debounceTime raw
  else s

end Deferred

/-! ### The eager algorithms -/

/-- The state of the eager algorithms, `cooked` included. -/
structure Eager (κ β : Type) where
  cooked : κ → β
  /-- `debounce_counters` -/
  counter : κ → Byte
  /-- `last_time` -/
  lastTime : BitVec 32
  /-- `counters_need_update` -/
  countersNeedUpdate : Bool
  /-- `matrix_need_update` -/
  matrixNeedUpdate : Bool

namespace Eager

variable {κ β : Type} [Fintype κ] [DecidableEq β]

/-- After `debounce_init`, with no key down. -/
def init (up : β) : Eager κ β :=
  { cooked := fun _ => up, counter := fun _ => 0, lastTime := 0, countersNeedUpdate := false,
    matrixNeedUpdate := false }

def updateDebounceCounters (elapsed : Byte) (s : Eager κ β) : Eager κ β :=
  { s with
    counter := fun k => lower elapsed (s.counter k),
    countersNeedUpdate := decide (∃ k, runsOn elapsed (s.counter k) = true),
    -- What ran out may differ by now, so the matrix has to be looked at.
    matrixNeedUpdate := decide (∃ k, runsOut elapsed (s.counter k) = true) }

/-- A cell that is taken over: it differs, and its counter has run out. -/
def takes (raw : κ → β) (s : Eager κ β) (k : κ) : Bool :=
  s.cooked k != raw k && s.counter k == 0

def transferMatrixValues (debounceTime : Byte) (raw : κ → β) (s : Eager κ β) : Eager κ β :=
  { s with
    cooked := fun k => if s.takes raw k then raw k else s.cooked k,
    counter := fun k => if s.takes raw k then debounceTime else s.counter k,
    -- A cell that is locked is passed over, and its change stays in `raw`.
    countersNeedUpdate := s.countersNeedUpdate || decide (∃ k, s.takes raw k = true) }

def catchUp (now : BitVec 32) (s : Eager κ β) : Eager κ β :=
  if s.countersNeedUpdate then
    let elapsed := elapsedTime now s.lastTime
    let timed := { s with lastTime := now }
    if 0 < elapsed then timed.updateDebounceCounters elapsed else timed
  else s

def debounce (debounceTime : Byte) (now : BitVec 32) (raw : κ → β) (changed : Bool)
    (s : Eager κ β) : Eager κ β :=
  let updatedLast := s.countersNeedUpdate
  let s := s.catchUp now
  -- `matrix_need_update` is that of the counters as just brought up to date.
  if changed || s.matrixNeedUpdate then
    let s := if updatedLast then s else { s with lastTime := now }
    s.transferMatrixValues debounceTime raw
  else s

end Eager

/-! ### The three algorithms -/

abbrev KeyMatrix (rows cols : Nat) := Fin rows → Fin cols → Bool

def KeyMatrix.keys {rows cols : Nat} (m : KeyMatrix rows cols) (key : Fin rows × Fin cols) : Bool :=
  m key.1 key.2

/-- A call of `debounce` to one of the algorithms: the time, and the scanned
    matrix. -/
structure DebounceCall (κ β : Type) where
  time : Nat
  raw : κ → β

/-- An algorithm and the matrix it was last called with, `last_matrix` of the
    scan. -/
structure Debounced (σ : Type) (κ β : Type) where
  state : σ
  last : κ → β

section

variable {κ β : Type} [Fintype κ] [DecidableEq β]

def matrixChanged (raw last : κ → β) : Bool := decide (∃ k, raw k ≠ last k)

def Deferred.call (debounceTime : Byte) (d : Debounced (Deferred κ) κ Bool)
    (c : DebounceCall κ Bool) : Debounced (Deferred κ) κ Bool :=
  { state := d.state.debounce debounceTime (BitVec.ofNat 32 c.time) c.raw
      (matrixChanged c.raw d.last),
    last := c.raw }

def Eager.call (debounceTime : Byte) (d : Debounced (Eager κ β) κ β) (c : DebounceCall κ β) :
    Debounced (Eager κ β) κ β :=
  { state := d.state.debounce debounceTime (BitVec.ofNat 32 c.time) c.raw
      (matrixChanged c.raw d.last),
    last := c.raw }

end

structure MatrixScan (rows cols : Nat) where
  time : Nat
  raw : KeyMatrix rows cols

variable {rows cols : Nat}

def MatrixScan.byKey (scan : MatrixScan rows cols) : DebounceCall (Fin rows × Fin cols) Bool :=
  { time := scan.time, raw := scan.raw.keys }

def MatrixScan.byRow (scan : MatrixScan rows cols) : DebounceCall (Fin rows) (Fin cols → Bool) :=
  { time := scan.time, raw := scan.raw }

/-- `sym_defer_pk.c`: the debounced matrix after these scans. -/
def symDeferPk (debounceTime : Byte) (scans : List (MatrixScan rows cols)) : KeyMatrix rows cols :=
  let d := (scans.map MatrixScan.byKey).foldl (Deferred.call debounceTime)
    { state := Deferred.init, last := fun _ => false }
  fun row col => d.state.cooked (row, col)

/-- `sym_eager_pk.c`: the debounced matrix after these scans. -/
def symEagerPk (debounceTime : Byte) (scans : List (MatrixScan rows cols)) : KeyMatrix rows cols :=
  let d := (scans.map MatrixScan.byKey).foldl (Eager.call debounceTime)
    { state := Eager.init false, last := fun _ => false }
  fun row col => d.state.cooked (row, col)

/-- `sym_eager_pr.c`: the debounced matrix after these scans. -/
def symEagerPr (debounceTime : Byte) (scans : List (MatrixScan rows cols)) : KeyMatrix rows cols :=
  let d := (scans.map MatrixScan.byRow).foldl (Eager.call debounceTime)
    { state := Eager.init (fun _ => false), last := fun _ => fun _ => false }
  d.state.cooked

end K530

/-!
### Debouncing Presses and Releases Differently

`asym_eager_defer_pk.c`: a press is taken over at once and a release when it has
lasted. A key has one counter for both. While it runs for a press, nothing the
key does is taken over. While it runs for a release, a bounce stops it.

The counter has seven bits, and the eighth tells what it runs for. A release that
begins while the counter runs for a press is not noticed by the call it begins
in. The call in which the counter runs out looks at the matrix again, which
`matrix_need_update` sees to.

The time and the two flags are those of the eager algorithms.
-/

namespace K530

/-- `debounce_counter_t`. -/
structure AsymCounter where
  /-- whether it runs for a press -/
  pressed : Bool
  time : BitVec 7
  deriving DecidableEq

namespace AsymCounter

def byte (c : AsymCounter) : Byte := c.time.setWidth 8

def lower (elapsed : Byte) (c : AsymCounter) : AsymCounter :=
  { c with time := (K530.lower elapsed c.byte).setWidth 7 }

end AsymCounter

/-- The state of the algorithm, `cooked` included. -/
structure Asym (κ : Type) where
  cooked : κ → Bool
  /-- `debounce_counters` -/
  counter : κ → AsymCounter
  /-- `last_time` -/
  lastTime : BitVec 32
  /-- `counters_need_update` -/
  countersNeedUpdate : Bool
  /-- `matrix_need_update` -/
  matrixNeedUpdate : Bool

namespace Asym

variable {κ : Type} [Fintype κ]

/-- After `debounce_init`, which leaves `pressed` as the memory was. -/
def init (stale : κ → Bool) : Asym κ :=
  { cooked := fun _ => false, counter := fun k => { pressed := stale k, time := 0 }, lastTime := 0,
    countersNeedUpdate := false, matrixNeedUpdate := false }

def updateDebounceCountersAndTransferIfExpired (raw : κ → Bool) (elapsed : Byte)
    (s : Asym κ) : Asym κ :=
  { s with
    -- "key-up: defer"
    cooked := fun k =>
      if runsOut elapsed (s.counter k).byte && !(s.counter k).pressed then raw k else s.cooked k,
    counter := fun k => (s.counter k).lower elapsed,
    countersNeedUpdate := decide (∃ k, runsOn elapsed (s.counter k).byte = true),
    -- "key-down: eager"
    matrixNeedUpdate :=
      decide (∃ k, runsOut elapsed (s.counter k).byte = true ∧ (s.counter k).pressed = true) }

/-- A key whose counter is started: it differs, and no counter runs. -/
def starts (raw : κ → Bool) (s : Asym κ) (k : κ) : Bool :=
  raw k != s.cooked k && (s.counter k).time == 0

def transferMatrixValues (debounceTime : BitVec 7) (raw : κ → Bool) (s : Asym κ) : Asym κ :=
  { s with
    cooked := fun k => if s.starts raw k && raw k then !s.cooked k else s.cooked k,
    counter := fun k =>
      if s.starts raw k then { pressed := raw k, time := debounceTime }
      else if raw k == s.cooked k && !(s.counter k).pressed then { s.counter k with time := 0 }
      else s.counter k,
    countersNeedUpdate := s.countersNeedUpdate || decide (∃ k, s.starts raw k = true) }

def catchUp (now : BitVec 32) (raw : κ → Bool) (s : Asym κ) : Asym κ :=
  if s.countersNeedUpdate then
    let elapsed := elapsedTime now s.lastTime
    let timed := { s with lastTime := now }
    if 0 < elapsed then timed.updateDebounceCountersAndTransferIfExpired raw elapsed else timed
  else s

def debounce (debounceTime : BitVec 7) (now : BitVec 32) (raw : κ → Bool) (changed : Bool)
    (s : Asym κ) : Asym κ :=
  let updatedLast := s.countersNeedUpdate
  let s := s.catchUp now raw
  -- Once set, `matrix_need_update` stays so until counters run again.
  if changed || s.matrixNeedUpdate then
    let s := if updatedLast then s else { s with lastTime := now }
    s.transferMatrixValues debounceTime raw
  else s

def call (debounceTime : BitVec 7) (d : Debounced (Asym κ) κ Bool) (c : DebounceCall κ Bool) :
    Debounced (Asym κ) κ Bool :=
  { state := d.state.debounce debounceTime (BitVec.ofNat 32 c.time) c.raw
      (matrixChanged c.raw d.last),
    last := c.raw }

end Asym

variable {rows cols : Nat}

/-- `asym_eager_defer_pk.c`: the debounced matrix after these scans. -/
def asymEagerDeferPk (debounceTime : BitVec 7) (stale : Fin rows × Fin cols → Bool)
    (scans : List (MatrixScan rows cols)) : KeyMatrix rows cols :=
  let d := (scans.map MatrixScan.byKey).foldl (Asym.call debounceTime)
    { state := Asym.init stale, last := fun _ => false }
  fun row col => d.state.cooked (row, col)

end K530
