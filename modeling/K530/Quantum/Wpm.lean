import K530.Core.Keycode

/-!
# Words per Minute

`wpm.c`: the presses of keys are counted in periods, of which there are some in a
ring, and `decay_wpm` makes of them how many words a minute they come to. What is
shown moves from the rate before to the rate now in the course of `LATENCY`
milliseconds: it is taken at a point between the two, as far along as the time
that has passed since the rate was last worked out.

Which presses are counted, and which are taken back, is decided by weak functions
of the keycode and is part of the input. The clock does not move in a call. A
signed overflow comes round. A division by zero is not defined, and there is
nothing after it.

## Main definitions

* `WpmConfig`: What the build fixes.
-/

namespace K530

structure WpmConfig where
  /-- `WPM_SAMPLE_PERIODS` -/
  maxPeriods : Nat
  /-- `WPM_SAMPLE_SECONDS` -/
  sampleSeconds : Nat
  /-- `WPM_ESTIMATED_WORD_SIZE` -/
  wordSize : Nat
  /-- `WPM_LAUNCH_CONTROL` -/
  launchControl : Bool
  /-- the periods 0 and 1 are there from the beginning, and their number is a
      byte -/
  periods_range : 2 ≤ maxPeriods ∧ maxPeriods ≤ 255

def WpmConfig.periodDuration (c : WpmConfig) : Nat := 1000 * c.sampleSeconds / c.maxPeriods

/-- `LATENCY` -/
def wpmLatency : Int := 100

/-- The statics of `wpm.c`. -/
structure Wpm where
  /-- `current_wpm` -/
  current : Byte
  /-- `wpm_timer` -/
  timer : BitVec 32
  /-- `smoothing_timer` -/
  smoothingTimer : BitVec 32
  /-- `period_presses`, signed -/
  presses : Nat → BitVec 8
  /-- `current_period` -/
  currentPeriod : Nat
  periods : Nat
  /-- `prev_wpm` -/
  prev : Byte
  /-- `next_wpm` -/
  next : Byte

namespace Wpm

def init : Wpm where
  current := 0
  timer := 0
  smoothingTimer := 0
  presses _ := 0
  currentPeriod := 0
  periods := 1
  prev := 0
  next := 0

/-- `update_wpm`, of a key that counts or does not, and takes a press back or
    does not. -/
def updateWpm (counts regresses : Bool) (w : Wpm) : Wpm :=
  let count := w.presses w.currentPeriod
  let count := if counts then count + 1 else count
  let count := if regresses then count - 1 else count
  { w with presses := Function.update w.presses w.currentPeriod count }

/-- The presses in the periods there are, if they are not fewer than none. -/
def pressesInPeriods (w : Wpm) : Int :=
  max 0 ((List.range (w.periods + 1)).map (fun i => (w.presses i).toInt)).sum

variable (c : WpmConfig)

/-- `wpm_now`: so many presses in a minute, by the length of a word, and 240 at
    most. It is nothing if there have been fewer than two. -/
def wpmNow (now : BitVec 32) (w : Wpm) : Option Byte :=
  let elapsed := now - w.timer
  let duration := BitVec.ofNat 32 (w.periods * c.periodDuration) + elapsed
  let divisor := duration * BitVec.ofNat 32 c.wordSize
  if divisor = 0 then none
  else
    let rate := BitVec.ofInt 32 (60000 * w.pressesInPeriods) / divisor
    let rate : Byte := if 240 < rate.toNat then 240 else rate.setWidth 8
    some (if w.pressesInPeriods < 2 then 0 else rate)

def turnPeriod (now : BitVec 32) (w : Wpm) : Wpm :=
  if (c.periodDuration : Int) < (now - w.timer).toInt then
    let period := (w.currentPeriod + 1) % c.maxPeriods
    { w with
      currentPeriod := period,
      presses := Function.update w.presses period 0,
      periods := if w.periods < c.maxPeriods - 1 then w.periods + 1 else c.maxPeriods - 1,
      timer := now }
  else w

/-- `WPM_LAUNCH_CONTROL` starts over when there are no presses. The rate is
    nothing then in any case. -/
def launch (presses : Int) (w : Wpm) : Wpm :=
  if c.launchControl ∧ presses = 0 then { w with currentPeriod := 0, periods := 0 } else w

/-- What is shown: the rate before, and the way from there to the rate now, by
    the time that has passed. -/
def smooth (latency : BitVec 32) (w : Wpm) : Byte :=
  let way := BitVec.ofInt 32 ((w.next.toNat : Int) - w.prev.toNat)
  BitVec.ofInt 8 (w.prev.toNat + (latency * way).toInt.tdiv wpmLatency)

def decayWpm (now : BitVec 32) (w : Wpm) : Option Wpm := do
  let rate ← w.wpmNow c now
  let w := (w.turnPeriod c now).launch c w.pressesInPeriods
  let latency := now - w.smoothingTimer
  let w :=
    -- the latency is not set back here, and is used below
    if wpmLatency < latency.toInt then
      { w with smoothingTimer := now, prev := w.current, next := rate }
    else w
  pure { w with current := w.smooth latency }

end Wpm

end K530
