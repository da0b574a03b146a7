import K530.Core.Keycode
import Mathlib

/-!
# The Split Matrix and Its Link

`matrix_scan` on the master half of a split keyboard. It reads its own pins into
`raw_matrix`, debounces them into its own rows of `matrix`, and then exchanges
data with the other half and copies the other half's rows: `matrix_post_scan`.

The exchange keeps count of its failures. From `SPLIT_MAX_CONNECTION_ERRORS` in
a row on the link counts as disconnected, the other half's rows are cleared, and
from then on one exchange is allowed every `SPLIT_CONNECTION_CHECK_TIMEOUT`
milliseconds until one succeeds. Either number may be zero, which takes the
check or the throttle out of the build.

The debounce algorithm is a choice of the build and writes the master's own rows
only; it is a parameter. What the transport does is an input: whether it
succeeds, and what it leaves in the rows it is handed. `matrix_scan_quantum` has
no say in the rows.

## Main definitions

* `SplitConfig`: The two numbers of the build.
-/

namespace K530

/-- The rows of one half, `ROWS_PER_HAND` of `matrix_row_t`. -/
abbrev HalfMatrix (width rows : Nat) := Vector (BitVec width) rows

structure SplitConfig where
  /-- `SPLIT_MAX_CONNECTION_ERRORS` -/
  maxConnectionErrors : Nat
  /-- `SPLIT_CONNECTION_CHECK_TIMEOUT`, in milliseconds -/
  connectionCheckTimeout : Nat
  deriving DecidableEq

structure Link where
  /-- `connection_errors`, eight bits and saturating -/
  connectionErrors : Nat
  /-- `connection_check_timer` -/
  connectionCheckTimer : BitVec 16
  deriving DecidableEq

/-- One scan: the pins, the clock when the throttle is looked at and when it is
    set, and what the transport does if it is called. -/
structure Scan (width rows : Nat) where
  reading : HalfMatrix width rows
  now : BitVec 16
  later : BitVec 16
  /-- what `transport_master` answers -/
  okay : Bool
  /-- what it leaves in `slave_matrix` -/
  slaveMatrix : HalfMatrix width rows
  deriving DecidableEq

namespace Link

variable (c : SplitConfig)

def isTransportConnected (l : Link) : Bool :=
  decide (l.connectionErrors < c.maxConnectionErrors)

/-- The link counts as disconnected, and it is too early for another attempt. -/
def throttled (now : BitVec 16) (l : Link) : Bool :=
  decide (0 < c.maxConnectionErrors ∧ 0 < c.connectionCheckTimeout) &&
    !l.isTransportConnected c &&
    decide ((now - l.connectionCheckTimer).toNat < c.connectionCheckTimeout)

def countError (l : Link) : Link :=
  if l.connectionErrors < 255 then { l with connectionErrors := l.connectionErrors + 1 } else l

/-- The bookkeeping of `transport_master_if_connected` after an exchange, and its
    answer. -/
def afterExchange (okay : Bool) (later : BitVec 16) (l : Link) : Bool × Link :=
  if c.maxConnectionErrors = 0 then (true, l)
  else if okay then (true, { l with connectionErrors := 0 })
  else if c.connectionCheckTimeout = 0 then
    -- without a timeout a failure is counted and forgotten in one go
    (true, { l.countError with connectionErrors := 0 })
  else if l.countError.isTransportConnected c then (true, l.countError)
  else (false, { l.countError with connectionCheckTimer := later })

end Link

/-- The master half. `δ` is what the debounce algorithm remembers. -/
structure SplitMatrix (width rows : Nat) (δ : Type) where
  /-- `raw_matrix` -/
  raw : HalfMatrix width rows
  /-- the master's own rows of `matrix` -/
  thisHand : HalfMatrix width rows
  /-- the other half's rows of `matrix` -/
  thatHand : HalfMatrix width rows
  /-- `last_connected` -/
  lastConnected : Bool
  link : Link
  debouncer : δ
  deriving DecidableEq

/-- What a scan tells: whether it exchanged data with the other half, and what
    `matrix_scan` returns. -/
structure ScanOut (width rows : Nat) where
  /-- what the exchange handed out, if there was one -/
  exchanged : Option (HalfMatrix width rows)
  changed : Bool
  deriving DecidableEq

namespace SplitMatrix

variable {width rows : Nat} {δ : Type} (c : SplitConfig)

def noRows : HalfMatrix width rows := Vector.replicate rows 0

def init (d : δ) : SplitMatrix width rows δ :=
  { raw := noRows, thisHand := noRows, thatHand := noRows, lastConnected := false,
    link := { connectionErrors := 0, connectionCheckTimer := 0 }, debouncer := d }

/-- The other half's rows after an exchange that left the link connected, or not. -/
def showSlave (connected : Bool) (slaveMatrix : HalfMatrix width rows)
    (s : SplitMatrix width rows δ) : Bool × SplitMatrix width rows δ :=
  if connected then
    (decide (s.thatHand ≠ slaveMatrix), { s with thatHand := slaveMatrix, lastConnected := true })
  else if s.lastConnected then (true, { s with thatHand := noRows, lastConnected := false })
  else (false, s)

/-- `matrix_post_scan` on the master. -/
def matrixPostScan (i : Scan width rows) (s : SplitMatrix width rows δ) :
    ScanOut width rows × SplitMatrix width rows δ :=
  if s.link.throttled c i.now then
    let shown := s.showSlave false i.slaveMatrix
    ({ exchanged := none, changed := shown.1 }, shown.2)
  else
    let answered := s.link.afterExchange c i.okay i.later
    let shown := { s with link := answered.2 }.showSlave answered.1 i.slaveMatrix
    ({ exchanged := some i.slaveMatrix, changed := shown.1 }, shown.2)

/-- The first half of `matrix_scan`: the pins, debounced into the master's own
    rows. -/
def readPins
    (debounce : HalfMatrix width rows → Bool → HalfMatrix width rows × δ →
      HalfMatrix width rows × δ)
    (reading : HalfMatrix width rows) (s : SplitMatrix width rows δ) :
    SplitMatrix width rows δ :=
  let cooked := debounce reading (decide (s.raw ≠ reading)) (s.thisHand, s.debouncer)
  { s with raw := reading, thisHand := cooked.1, debouncer := cooked.2 }

/-- `matrix_scan`. The second half of `changed || matrix_post_scan()` is not
    evaluated when the pins have changed. -/
def matrixScan
    (debounce : HalfMatrix width rows → Bool → HalfMatrix width rows × δ →
      HalfMatrix width rows × δ)
    (s : SplitMatrix width rows δ) (i : Scan width rows) :
    SplitMatrix width rows δ × ScanOut width rows :=
  if s.raw ≠ i.reading then
    (s.readPins debounce i.reading, { exchanged := none, changed := true })
  else
    let post := (s.readPins debounce i.reading).matrixPostScan c i
    (post.2, post.1)

end SplitMatrix

/-!
### A Half That Does Not Answer

`transport_master_if_connected` of `split_util.c`. An exchange with the other half that fails
takes its time, so with so many failures in a row the half is taken to be disconnected, and
then an exchange is attempted only now and then. The failures are counted in eight bits and
not beyond, and the time is one of 16 bits, read after an attempt that has failed and leaves
the half disconnected.

The exchange itself, `transport_master`, is here what it answers and the time at which it
does.
-/

structure SplitThrottle where
  /-- `SPLIT_MAX_CONNECTION_ERRORS` -/
  maxErrors : Nat
  /-- `SPLIT_CONNECTION_CHECK_TIMEOUT` -/
  timeout : Nat
  maxErrors_pos : 1 ≤ maxErrors
  maxErrors_le : maxErrors ≤ 255
  timeout_pos : 1 ≤ timeout
  timeout_lt : timeout < 65536

structure SplitLink where
  /-- `connection_errors` -/
  connectionErrors : Byte
  /-- `connection_check_timer` -/
  connectionCheckTimer : BitVec 16

namespace SplitLink

variable (c : SplitThrottle)

def init : SplitLink where
  connectionErrors := 0
  connectionCheckTimer := 0

def isTransportConnected (s : SplitLink) : Bool :=
  decide (s.connectionErrors.toNat < c.maxErrors)

def throttled (now : BitVec 16) (s : SplitLink) : Bool :=
  !s.isTransportConnected c && decide ((now - s.connectionCheckTimer).toNat < c.timeout)

def failed (done : BitVec 16) (s : SplitLink) : Bool × SplitLink :=
  let s :=
    { s with
      connectionErrors :=
        if s.connectionErrors.toNat < 255 then s.connectionErrors + 1 else s.connectionErrors }
  let connected := s.isTransportConnected c
  (connected, if connected then s else { s with connectionCheckTimer := done })

/-- `transport_master_if_connected`: what it returns, and the variables after it. The
    exchange, if it comes to one, is over at `done` and answers `okay`. -/
def transportMasterIfConnected (now done : BitVec 16) (okay : Bool) (s : SplitLink) :
    Bool × SplitLink :=
  if s.throttled c now then (false, s)
  else if okay then (true, { s with connectionErrors := 0 })
  else s.failed c done

end SplitLink

end K530
