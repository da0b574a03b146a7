import K530.Lib.Slots

/-!
# Deferred Execution

`deferred_exec.c`: callbacks that the main loop runs when their time has come.

A callback runs in the middle of `deferred_exec_task`, and may call any of the
four functions itself. So the task is taken apart at its calls of a callback:
the calls under way are a stack, the innermost at its head, and `ret` is the
return of the innermost callback. What a callback does before it returns are the
inputs before. Time may pass at any point, so the clock is an input too.

A callback is told by a name, and a null pointer is none.

## Main definitions

* `DeferredExecutor`: An entry of the table.
-/

namespace K530

open Slots

universe u v

structure DeferredExecutor (κ : Type u) (α : Type v) where
  /-- 0 is `INVALID_DEFERRED_TOKEN`, a free entry -/
  token : BitVec 8
  triggerTime : BitVec 32
  callback : Option κ
  cbArg : Option α
  /-- which of all entries ever made this is. Nothing reads this. -/
  serial : Nat
  deriving DecidableEq

def DeferredExecutor.free (κ : Type u) (α : Type v) : DeferredExecutor κ α :=
  { token := 0, triggerTime := 0, callback := none, cbArg := none, serial := 0 }

structure DeferredExec (n : Nat) (κ : Type u) (α : Type v) where
  /-- of `MAX_DEFERRED_EXECUTORS` -/
  executors : Fin n → DeferredExecutor κ α
  currentToken : BitVec 8
  lastDeferredExecCheck : BitVec 32

namespace DeferredExec

variable {n : Nat} {κ : Type u} {α : Type v}

def init (n : Nat) (κ : Type u) (α : Type v) : DeferredExec n κ α :=
  { executors := fun _ => .free κ α, currentToken := 0, lastDeferredExecCheck := 0 }

def withToken (token : BitVec 8) (executors : Fin n → DeferredExecutor κ α) : Option (Fin n) :=
  firstFrom (fun e => e.token == token) 0 executors

def tokenCanBeUsed (executors : Fin n → DeferredExecutor κ α) (token : BitVec 8) : Bool :=
  token != 0 && (withToken token executors).isNone

/-- The loop of `allocate_token`: the token, or 0, and `current_token` after it. -/
def nextToken (executors : Fin n → DeferredExecutor κ α) (first current : BitVec 8) :
    BitVec 8 × BitVec 8 :=
  if tokenCanBeUsed executors current then (current, current)
  else if current + 1 = first then (0, current + 1)
  else nextToken executors first (current + 1)
  termination_by (first - current - 1).toNat
  decreasing_by bv_omega

def allocateToken (d : DeferredExec n κ α) : BitVec 8 × BitVec 8 :=
  nextToken d.executors (d.currentToken + 1) (d.currentToken + 1)

/-- `defer_exec`: the token, or 0. -/
def deferExec (now : BitVec 32) (serial : Nat) (delayMs : BitVec 32) (callback : Option κ)
    (cbArg : Option α) (d : DeferredExec n κ α) : BitVec 8 × DeferredExec n κ α :=
  if delayMs = 0 ∨ callback.isNone then (0, d)
  else
    match withToken 0 d.executors with
    | none => (0, d)
    | some i =>
      if d.allocateToken.1 = 0 then (0, { d with currentToken := d.allocateToken.2 })
      else
        (d.allocateToken.2,
          { d with
            currentToken := d.allocateToken.2,
            executors := Function.update d.executors i
              { token := d.allocateToken.2, triggerTime := now + delayMs, callback, cbArg,
                serial } })

def extendDeferredExec (now : BitVec 32) (token : BitVec 8) (delayMs : BitVec 32)
    (d : DeferredExec n κ α) : Bool × DeferredExec n κ α :=
  if delayMs = 0 ∨ token = 0 then (false, d)
  else
    match withToken token d.executors with
    | none => (false, d)
    | some i =>
      (true, { d with
        executors := Function.update d.executors i
          { d.executors i with triggerTime := now + delayMs } })

def cancelDeferredExec (token : BitVec 8) (d : DeferredExec n κ α) :
    Bool × DeferredExec n κ α :=
  if token = 0 then (false, d)
  else
    match withToken token d.executors with
    | none => (false, d)
    | some i => (true, { d with executors := Function.update d.executors i (.free κ α) })

/-- Whether `deferred_exec_task` runs the callback of an entry. -/
def due (now : BitVec 32) (e : DeferredExecutor κ α) : Bool :=
  e.token != 0 && (e.triggerTime - now).toInt ≤ 0

/-- What `deferred_exec_task` makes of the entry when the callback has returned. -/
def afterCallback (delayMs : BitVec 32) (e : DeferredExecutor κ α) : DeferredExecutor κ α :=
  if delayMs ≠ 0 then { e with triggerTime := e.triggerTime + delayMs } else .free κ α

end DeferredExec

structure ExecutorCall (n : Nat) (κ : Type u) (α : Type v) where
  /-- the entry, to which the task has a pointer -/
  index : Fin n
  /-- `now` in the task -/
  now : BitVec 32
  /-- what the entry was at the call: the callback and what it is given -/
  entry : DeferredExecutor κ α

inductive ExecutorEvent (κ : Type u) (α : Type v) where
  | deferred (e : DeferredExecutor κ α)
  | extended (token : BitVec 8) (triggerTime : BitVec 32)
  | cancelled (token : BitVec 8)
  | returned (serial : Nat) (delayMs : BitVec 32)

structure DeferredRun (n : Nat) (κ : Type u) (α : Type v) where
  exec : DeferredExec n κ α
  /-- `timer_read32` -/
  clock : BitVec 32
  /-- the calls under way, the innermost first -/
  calls : List (ExecutorCall n κ α)
  /-- how many entries have been made. Nothing reads this. -/
  serials : Nat
  /-- what has happened, oldest first. Nothing reads this. -/
  events : List (ExecutorEvent κ α)

/-- A call of one of the functions, a return of the innermost callback, or a
    change of the clock. -/
inductive ExecutorInput (κ : Type u) (α : Type v) where
  | defer (delayMs : BitVec 32) (callback : Option κ) (cbArg : Option α)
  | extend (token : BitVec 8) (delayMs : BitVec 32)
  | cancel (token : BitVec 8)
  | task
  | ret (delayMs : BitVec 32)
  | tick (now : BitVec 32)

namespace DeferredRun

variable {n : Nat} {κ : Type u} {α : Type v}

def start (n : Nat) (κ : Type u) (α : Type v) : DeferredRun n κ α :=
  { exec := .init n κ α, clock := 0, calls := [], serials := 0, events := [] }

def happen (e : ExecutorEvent κ α) (s : DeferredRun n κ α) : DeferredRun n κ α :=
  { s with events := s.events ++ [e] }

def defer (delayMs : BitVec 32) (callback : Option κ) (cbArg : Option α)
    (s : DeferredRun n κ α) : DeferredRun n κ α :=
  let (token, exec) := s.exec.deferExec s.clock s.serials delayMs callback cbArg
  if token = 0 then { s with exec }
  else
    { s with exec, serials := s.serials + 1 }.happen
      (.deferred { token, triggerTime := s.clock + delayMs, callback, cbArg, serial := s.serials })

def extend (token : BitVec 8) (delayMs : BitVec 32) (s : DeferredRun n κ α) :
    DeferredRun n κ α :=
  let s' := { s with exec := (s.exec.extendDeferredExec s.clock token delayMs).2 }
  if delayMs = 0 then s' else s'.happen (.extended token (s.clock + delayMs))

def cancel (token : BitVec 8) (s : DeferredRun n κ α) : DeferredRun n κ α :=
  { s with exec := (s.exec.cancelDeferredExec token).2 }.happen (.cancelled token)

/-- The loop of `deferred_exec_task` from an entry on, as far as the next call of
    a callback. -/
def resume (now : BitVec 32) (k : Nat) (s : DeferredRun n κ α) : DeferredRun n κ α :=
  match firstFrom (DeferredExec.due now) k s.exec.executors with
  | none => s
  | some i =>
    { s with
      calls := { index := i, now, entry := s.exec.executors i } :: s.calls }

/-- `deferred_exec_task`. -/
def task (s : DeferredRun n κ α) : DeferredRun n κ α :=
  if (s.clock - s.exec.lastDeferredExecCheck).toInt > 0 then
    { s with exec := { s.exec with lastDeferredExecCheck := s.clock } }.resume s.clock 0
  else s

def ret (delayMs : BitVec 32) (s : DeferredRun n κ α) : DeferredRun n κ α :=
  match s.calls with
  | [] => s
  | c :: rest =>
    ({ s with
      exec := { s.exec with
        executors := Function.update s.exec.executors c.index
          (DeferredExec.afterCallback delayMs (s.exec.executors c.index)) },
      calls := rest }.happen (.returned c.entry.serial delayMs)).resume c.now (c.index + 1)

def step (s : DeferredRun n κ α) : ExecutorInput κ α → DeferredRun n κ α
  | .defer delayMs callback cbArg => s.defer delayMs callback cbArg
  | .extend token delayMs => s.extend token delayMs
  | .cancel token => s.cancel token
  | .task => s.task
  | .ret delayMs => s.ret delayMs
  | .tick now => { s with clock := now }

end DeferredRun

end K530
