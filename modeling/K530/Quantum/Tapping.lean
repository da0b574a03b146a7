import Mathlib.Data.BitVec
import Mathlib.Data.List.Basic

/-!
# Tapping

`action_tapping.c`: whether a key that does one thing when tapped and another
when held is being tapped or held.

A tap key pressed becomes the tapping key and nothing is processed for it yet.
Released within its tapping term it is a tap; if an event comes after the term it
is a hold. What else comes in meanwhile waits in a buffer, and once the matter is
decided the waiting events are examined in their order, the tap keys among them
becoming the tapping key in their turn.

The tapping key goes through three phases: pressed and not decided, its tap
count 0; pressed as a tap; and released, kept for as long as another tap of the
same key would count. A new event is examined before those that wait, and is put
behind them only if it is not consumed.

The host is asked whether a key is a tap key, which releases are to wait, and how
long a term is, and is handed records. It may write to a record, in the two ways of
`Written`, and the tapping key is the record as it is left.

Key events are watched by their number and their full time, and the state keeps
the time, what has arrived and what has been handed over. Nothing reads these.

## Main definitions

* `TapRecord`: A key event and what is known of its tapping.
-/

namespace K530

structure Tap where
  interrupted : Bool
  /-- Four bits; it is not counted beyond 15 -/
  count : Nat
  deriving DecidableEq

def Tap.untapped : Tap := { interrupted := false, count := 0 }

/-- `keyrecord_t`. -/
structure TapRecord (K : Type) where
  key : K
  pressed : Bool
  time : BitVec 16
  tap : Tap
  /-- Watched: the number of the key event -/
  seq : Nat
  /-- Watched: the milliseconds of which `time` has the low bits -/
  ms : Nat
  deriving DecidableEq

/-- What `process_record` can write to the record it is pointed to: it makes the
    press a release when the key has used up a one-shot layer, and sets the tap
    count to 0 when a modifier-tap has been interrupted. -/
structure Written where
  released : Bool
  cancelled : Bool
  deriving DecidableEq

def Written.nothing : Written := { released := false, cancelled := false }

def TapRecord.leave {K : Type} (w : Written) (r : TapRecord K) : TapRecord K :=
  { r with
    pressed := r.pressed && !w.released,
    tap := { r.tap with count := if w.cancelled then 0 else r.tap.count } }

structure TapHost (K H : Type) where
  /-- `is_tap_record` -/
  isTap : H → K → Bool
  /-- The releases that wait until the end of a tapping: those of modifiers -/
  retained : H → TapRecord K → Bool
  /-- `get_tapping_term`, of the keycode of the tapping key, for a record -/
  term : H → TapRecord K → TapRecord K → Nat
  /-- `process_record`, and what it writes to the record -/
  process : H → TapRecord K → H × Written
  /-- `clear_weak_mods` -/
  clearWeakMods : H → H
  /-- `clear_keyboard` -/
  clearKeyboard : H → H

/-- A host for which some keys are tap keys, all with one term, and that does
    nothing else. -/
def TapHost.plain {K : Type} (isTap : K → Bool) (term : Nat) : TapHost K Unit where
  isTap _ key := isTap key
  retained _ _ := false
  term _ _ _ := term
  process _ _ := ((), Written.nothing)
  clearWeakMods _ := ()
  clearKeyboard _ := ()

/-- Why a record has been handed over: as the one examined, as the tapping key,
    or made up to release the tapping key. -/
inductive HandedAs where
  | event
  | tappingKey
  | synthetic
  deriving DecidableEq

structure Handed (K : Type) where
  record : TapRecord K
  handedAs : HandedAs
  deriving DecidableEq

structure TapState (K H : Type) where
  host : H
  /-- `tapping_key` -/
  tapping : Option (TapRecord K)
  /-- `waiting_buffer`, from its tail to its head -/
  waiting : List (TapRecord K)
  /-- Watched: the time of the latest event, a tick included -/
  now : Nat
  /-- Watched: the key events, oldest first -/
  arrived : List (TapRecord K)
  /-- Watched: the records handed over, oldest first -/
  out : List (Handed K)
  deriving DecidableEq

/-- The places of the waiting buffer: one of `WAITING_BUFFER_SIZE` stays free. -/
abbrev waitingPlaces : Nat := 7

/-- What examining a record comes to: the state, the record as it is then, and
    whether it has been processed or consumed. -/
structure Examined (K H : Type) where
  state : TapState K H
  record : TapRecord K
  consumed : Bool

namespace TapState

variable {K H : Type}

def init (host : H) : TapState K H :=
  { host, tapping := none, waiting := [], now := 0, arrived := [], out := [] }

/-- Hand a record over, and give back what the host leaves of it. -/
def handOver (P : TapHost K H) (handedAs : HandedAs) (r : TapRecord K) (s : TapState K H) :
    TapState K H × TapRecord K :=
  let processed := P.process s.host r
  ({ s with host := processed.1, out := s.out ++ [{ record := r, handedAs }] },
    r.leave processed.2)

/-- `WITHIN_TAPPING_TERM`: the difference is of sixteen bits. -/
def within (P : TapHost K H) (tk : TapRecord K) (time : BitVec 16) (s : TapState K H) : Bool :=
  (time - tk.time).toNat < P.term s.host tk tk

variable [DecidableEq K]

/-- `waiting_buffer_typed`: the other half of an event is waiting. -/
def typed (r : TapRecord K) (s : TapState K H) : Bool :=
  s.waiting.any (fun w => w.key = r.key && w.pressed != r.pressed)

/-- The release that `waiting_buffer_scan_tap` looks for. -/
def isTapRelease (P : TapHost K H) (tk : TapRecord K) (s : TapState K H) (w : TapRecord K) : Bool :=
  w.key = tk.key && !w.pressed && s.within P tk w.time

def markTap (r : TapRecord K) : TapRecord K := { r with tap := { r.tap with count := 1 } }

/-- `waiting_buffer_scan_tap`: a tapping key whose release is waiting, and came
    in time, is a tap. -/
def scanTap (P : TapHost K H) (tk : TapRecord K) (s : TapState K H) : TapState K H :=
  if tk.tap.count > 0 || !tk.pressed then s
  else
    match s.waiting.findIdx? (s.isTapRelease P tk) with
    | none => s
    | some i =>
      let s := { s with waiting := s.waiting.modify i markTap }
      let handed := s.handOver P .tappingKey (markTap tk)
      { handed.1 with tapping := some handed.2 }

def start (P : TapHost K H) (r : TapRecord K) (s : TapState K H) : TapState K H :=
  scanTap P r { s with tapping := some r }

/-- The tapping key is pressed and not decided, and the record is in its term. -/
def examineUndecided (P : TapHost K H) (tk r : TapRecord K) (s : TapState K H) : Examined K H :=
  if r.key = tk.key && !r.pressed then
    -- first tap
    let handed := s.handOver P .tappingKey (markTap tk)
    { state := { handed.1 with tapping := some handed.2 }, record := { r with tap := handed.2.tap },
      consumed := false }
  else if P.term s.host tk r ≥ 500 && !r.pressed && s.typed r then
    -- no tap, interfered by a typed key
    { state := { (s.handOver P .tappingKey tk).1 with tapping := none }, record := r,
      consumed := false }
  else if !r.pressed && !s.typed r then
    -- the release of a key pressed before tapping
    if P.retained s.host r then { state := s, record := r, consumed := false }
    else { state := (s.handOver P .event r).1, record := r, consumed := true }
  else if r.pressed then
    { state := { s with tapping := some { tk with tap := { tk.tap with interrupted := true } } },
      record := r, consumed := false }
  else { state := s, record := r, consumed := false }

/-- The tapping key is pressed and not decided, and its term is over. -/
def examineTimeout (P : TapHost K H) (tk r : TapRecord K) (s : TapState K H) : Examined K H :=
  { state := { (s.handOver P .tappingKey tk).1 with tapping := none }, record := r,
    consumed := false }

def examineTapped (P : TapHost K H) (tk r : TapRecord K) (s : TapState K H) : Examined K H :=
  if r.key = tk.key && !r.pressed then
    let handed := s.handOver P .event { r with tap := tk.tap }
    { state := { handed.1 with tapping := if s.within P tk r.time then some handed.2 else none },
      record := r, consumed := true }
  else if P.isTap s.host r.key && r.pressed then
    let s :=
      if tk.tap.count > 1 then
        (s.handOver P .synthetic { tk with time := r.time, ms := r.ms, pressed := false }).1
      else s
    { state := s.start P r, record := r, consumed := true }
  else { state := (s.handOver P .event r).1, record := r, consumed := true }

def nextTap (tap : Tap) : Tap :=
  { tap with count := if tap.count < 15 then tap.count + 1 else tap.count }

def examineReleased (P : TapHost K H) (tk r : TapRecord K) (s : TapState K H) : Examined K H :=
  if s.within P tk r.time then
    if r.pressed then
      if r.key = tk.key then
        if !tk.tap.interrupted && tk.tap.count > 0 then
          -- sequential tap
          let handed := s.handOver P .event { r with tap := nextTap tk.tap }
          { state := { handed.1 with tapping := some handed.2 }, record := r, consumed := true }
        else { state := { s with tapping := some r }, record := r, consumed := true }
      else if P.isTap s.host r.key then { state := s.start P r, record := r, consumed := true }
      else
        let s := { s with tapping := some { tk with tap := { tk.tap with interrupted := true } } }
        { state := (s.handOver P .event r).1, record := r, consumed := true }
    else { state := (s.handOver P .event r).1, record := r, consumed := true }
  else { state := { s with tapping := none }, record := r, consumed := false }

def examineIdle (P : TapHost K H) (r : TapRecord K) (s : TapState K H) : Examined K H :=
  if r.pressed && P.isTap s.host r.key then { state := s.start P r, record := r, consumed := true }
  else { state := (s.handOver P .event r).1, record := r, consumed := true }

/-- `process_tapping`, of a key event. -/
def processTapping (P : TapHost K H) (r : TapRecord K) (s : TapState K H) : Examined K H :=
  match s.tapping with
  | none => s.examineIdle P r
  | some tk =>
    if tk.pressed then
      if tk.tap.count = 0 then
        if s.within P tk r.time then s.examineUndecided P tk r else s.examineTimeout P tk r
      else s.examineTapped P tk r
    else s.examineReleased P tk r

omit [DecidableEq K] in
/-- `process_tapping`, of a tick: it is the event of no key, neither pressed nor
    released, and processing it does nothing. -/
def processTick (P : TapHost K H) (time : BitVec 16) (s : TapState K H) : TapState K H :=
  match s.tapping with
  | none => s
  | some tk =>
    if s.within P tk time then s
    else if tk.pressed then
      if tk.tap.count = 0 then { (s.handOver P .tappingKey tk).1 with tapping := none } else s
    else { s with tapping := none }

/-- The loop over the waiting buffer: it ends at the first record that is not
    consumed, which stays where it is. It has as many turns as records wait. -/
def drain (P : TapHost K H) : Nat → TapState K H → TapState K H
  | 0, s => s
  | turns + 1, s =>
    match s.waiting with
    | [] => s
    | w :: _ =>
      let examined := s.processTapping P w
      let rest := examined.state.waiting.tail
      if examined.consumed then drain P turns { examined.state with waiting := rest }
      else { examined.state with waiting := examined.record :: rest }

omit [DecidableEq K] in
/-- `waiting_buffer_enq`, and the clearing of everything when it is full. -/
def enqueue (P : TapHost K H) (r : TapRecord K) (s : TapState K H) : TapState K H :=
  if s.waiting.length < waitingPlaces then { s with waiting := s.waiting ++ [r] }
  else { s with host := P.clearKeyboard s.host, waiting := [], tapping := none }

/-- A key event examined, and put behind the waiting ones if it is not consumed. -/
def receive (P : TapHost K H) (r : TapRecord K) (s : TapState K H) : TapState K H :=
  let examined := s.processTapping P r
  if examined.consumed then examined.state else examined.state.enqueue P examined.record

/-- `action_tapping_process`, of a key event. -/
def actionTappingProcess (P : TapHost K H) (r : TapRecord K) (s : TapState K H) : TapState K H :=
  let s := s.receive P r
  s.drain P s.waiting.length

/-- `action_tapping_process`, of a tick. -/
def tickTappingProcess (P : TapHost K H) (time : BitVec 16) (s : TapState K H) : TapState K H :=
  let s := s.processTick P time
  s.drain P s.waiting.length

end TapState

inductive TapInput (K : Type) where
  | tick (now : Nat)
  | key (key : K) (pressed : Bool) (now : Nat)
  deriving DecidableEq

/-- The time of an event, `timer_read() | 1`, before it is cut to sixteen bits. -/
def eventMs (now : Nat) : Nat := now ||| 1

def eventTime (now : Nat) : BitVec 16 := BitVec.ofNat 16 (eventMs now)

namespace TapState

variable {K H : Type} [DecidableEq K]

omit [DecidableEq K] in
def record (key : K) (pressed : Bool) (now : Nat) (s : TapState K H) : TapRecord K :=
  { key, pressed, time := eventTime now, tap := Tap.untapped, seq := s.arrived.length,
    ms := eventMs now }

omit [DecidableEq K] in
/-- A key event has arrived: the weak modifiers of earlier keys go with a press. -/
def arrive (P : TapHost K H) (r : TapRecord K) (s : TapState K H) : TapState K H :=
  { s with
    host := if r.pressed then P.clearWeakMods s.host else s.host, now := r.ms,
    arrived := s.arrived ++ [r] }

def actionExec (P : TapHost K H) (s : TapState K H) : TapInput K → TapState K H
  | .tick now => { s with now := eventMs now }.tickTappingProcess P (eventTime now)
  | .key key pressed now =>
    let r := s.record key pressed now
    (s.arrive P r).actionTappingProcess P r

end TapState

end K530
