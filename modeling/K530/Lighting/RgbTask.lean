import K530.Lighting.OpenRgb

/-!
# Hits and Indicators

`rgb_matrix.c`: the LEDs that have been hit are remembered with the time since, for
the effects that react to keys, and the LEDs are painted over a few calls, to each
of which the functions of the keyboard are passed a range of them.

`last_hit_buffer` has four arrays, of one length and always moved together, which
are one array of entries here. The copies that make room in it go towards the front
and are taken to copy what was there. C does not check an index, and an access
outside an array has no result.

`UINT16_MAX - deltaTime` is computed in thirty-two bits and comes round when more
than 65535 milliseconds have passed. The bounds of a range are bytes, and so is the
number of the call.

## Main definitions

* `HitConfig`: What the build fixes.
-/

namespace K530

open Checked

/-- `RGB_MATRIX_KEYRELEASES` and `RGB_MATRIX_KEYPRESSES`: which of the events of a
    key are hits. -/
inductive HitEdge
  | both
  | releases
  | presses
  deriving DecidableEq

def HitEdge.counts (edge : HitEdge) (pressed : Bool) : Bool :=
  match edge with
  | both => true
  | releases => !pressed
  | presses => pressed

structure HitConfig where
  /-- `LED_HITS_TO_REMEMBER` -/
  hits : Nat
  /-- `DRIVER_LED_TOTAL` -/
  ledTotal : Nat
  rows : Nat
  cols : Nat
  /-- `g_led_config.matrix_co`, without `NO_LED` -/
  matrixCo : Vector (Vector (Option (Fin ledTotal)) cols) rows
  /-- `g_led_config.point` -/
  point : Vector LedPoint ledTotal
  /-- `rgb_matrix_map_row_column_to_led_kb` -/
  mapKb : Fin rows → Fin cols → List (Fin ledTotal)
  edge : HitEdge
  /-- `RGB_MATRIX_SPLIT` -/
  split : Bool
  /-- The count of them is a byte. -/
  hits_le : hits ≤ 255
  /-- LED numbers are bytes. -/
  ledTotal_le : ledTotal ≤ 255

/-- An entry of `last_hit_buffer`. -/
structure HitEntry where
  x : Byte
  y : Byte
  index : Byte
  tick : BitVec 16
  deriving DecidableEq

structure LastHit (c : HitConfig) where
  count : Nat
  entries : Vector HitEntry c.hits

variable {c : HitConfig}

/-- `rgb_matrix_map_row_column_to_led`. -/
def HitConfig.mapRowColumnToLed (c : HitConfig) (row : Fin c.rows) (col : Fin c.cols) :
    List (Fin c.ledTotal) :=
  c.mapKb row col ++ ((c.matrixCo.get row).get col).toList

def HitConfig.ledsOf (c : HitConfig) (row : Fin c.rows) (col : Fin c.cols) (pressed : Bool) :
    List (Fin c.ledTotal) :=
  if c.edge.counts pressed then c.mapRowColumnToLed row col else []

def HitConfig.entry (c : HitConfig) (led : Fin c.ledTotal) (tick : BitVec 16) : HitEntry where
  x := (c.point.get led).x
  y := (c.point.get led).y
  index := BitVec.ofNat 8 led.val
  tick := tick

namespace LastHit

def contents (s : LastHit c) : List HitEntry := s.entries.toList.take s.count

/-- The four `memcpy`, by so many places. -/
def shift (n : Nat) (s : LastHit c) : LastHit c where
  count := c.hits - n
  entries := Vector.ofFn (fun i =>
    if h : i.val + n < c.hits then s.entries.get ⟨i.val + n, h⟩ else s.entries.get i)

def makeRoom (n : Nat) (s : LastHit c) : LastHit c :=
  if c.hits < s.count + n then s.shift n else s

def remember (s : LastHit c) (led : Fin c.ledTotal) : Option (LastHit c) :=
  (store s.entries s.count (c.entry led 0)).map
    (fun entries => { count := s.count + 1, entries := entries })

/-- `deltaTime` is too much for an entry. -/
def Expires (delta : BitVec 32) (e : HitEntry) : Prop :=
  (65535 : BitVec 32) - delta < e.tick.setWidth 32

instance (delta : BitVec 32) (e : HitEntry) : Decidable (Expires delta e) :=
  inferInstanceAs (Decidable ((65535 : BitVec 32) - delta < e.tick.setWidth 32))

def aged (delta : BitVec 32) (e : HitEntry) : HitEntry :=
  { e with tick := e.tick + delta.setWidth 16 }

/-- One turn of the loop of `rgb_task_timers`. -/
def ageEntry (delta : BitVec 32) (i : Nat) (s : LastHit c) : Option (LastHit c) :=
  (fetch s.entries i).bind (fun e =>
    -- the count is less by one, and so it is the last hit that is dropped
    if Expires delta e then some { s with count := s.count - 1 }
    else (store s.entries i (aged delta e)).map (fun entries => { s with entries := entries }))

end LastHit

/-- The statics of `rgb_matrix.c` that are about time and hits. -/
structure RgbTask (c : HitConfig) where
  /-- `rgb_timer_buffer` -/
  timerBuffer : BitVec 32
  /-- `last_hit_buffer` -/
  lastHit : LastHit c

namespace RgbTask

/-- `process_rgb_matrix`. The LEDs are first put into an array that is as long as
    the memory. -/
def processRgbMatrix (isMaster : Bool) (row : Fin c.rows) (col : Fin c.cols) (pressed : Bool)
    (s : RgbTask c) : Option (RgbTask c) :=
  if !c.split && !isMaster then some s
  else
    let led := c.ledsOf row col pressed
    if c.hits < led.length then none
    else
      (led.foldlM LastHit.remember (s.lastHit.makeRoom led.length)).map
        (fun lastHit => { s with lastHit := lastHit })

def rgbTaskTimers (now : BitVec 32) (s : RgbTask c) : Option (RgbTask c) :=
  let deltaTime := now - s.timerBuffer
  (loop (LastHit.ageEntry deltaTime) s.lastHit.count s.lastHit).map
    (fun lastHit => { timerBuffer := now, lastHit := lastHit })

end RgbTask

/-- `rgb_matrix_indicators_advanced`: `min` and `max` at `params->iter`, by
    `DRIVER_LED_TOTAL` and `RGB_MATRIX_LED_PROCESS_LIMIT`. -/
def indicatorsAdvanced (total limit : Nat) (iter : Byte) : Byte × Byte :=
  if 0 < limit ∧ limit < total then
    let min := BitVec.ofInt 8 (limit * ((iter.toNat : Int) - 1))
    let max := BitVec.ofNat 8 (min.toNat + limit)
    (min, if total < max.toNat then BitVec.ofNat 8 total else max)
  else (0, BitVec.ofNat 8 total)

end K530
