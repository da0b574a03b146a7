import K530.Lib.Cycle
import K530.Theory.Quantum.DeferredExec

/-!
# When a Callback Is Run

A callback should not be run before the delay that was given for its entry is over. The clock
of `deferred_exec.c` wraps after `2 ^ 32` milliseconds, so a run is told here with the time
that does not, and with the times at which the delays are over.

A delay of half a turn of the clock, which is accepted, looks as if it were over at once.
And the delay is counted from the clock when it is given, but `deferred_exec_task` looks at
the other entries with the time at which it was called, which a callback that it runs has
let pass. What that callback returns is added to the trigger time of its entry. That is
harmless, unless the entry has got a new one meanwhile.

So the callbacks are never early when each of these times is less than half a turn ahead of
every call of `deferred_exec_task` that has not returned.

## Main definitions

* `TimedRun`: A run with times that do not wrap, and the calls of callbacks.

## Theorems

* `TimedRun.never_early`: Runs in which no callback is called early.
* `TimedRun.never_early_broken`: One that is, at once.
-/

namespace K530

open Slots
open StepRun
open WrappedTime

universe u v

namespace DeferredExec

variable {n : Nat} {κ : Type u} {α : Type v}

/-- The entry that `defer_exec` takes, if it does. -/
def takesEntry (now : BitVec 32) (serial : Nat) (delayMs : BitVec 32) (callback : Option κ)
    (cbArg : Option α) (d : DeferredExec n κ α) : Option (Fin n) :=
  if (d.deferExec now serial delayMs callback cbArg).1 = 0 then none
  else withToken 0 d.executors

/-- The entry that `extend_deferred_exec` finds, if it does. -/
def extendsEntry (now : BitVec 32) (token : BitVec 8) (delayMs : BitVec 32)
    (d : DeferredExec n κ α) : Option (Fin n) :=
  if (d.extendDeferredExec now token delayMs).1 then withToken token d.executors else none

theorem deferExec_executors (now : BitVec 32) (serial : Nat) (delayMs : BitVec 32)
    (callback : Option κ) (cbArg : Option α) (d : DeferredExec n κ α) :
    (d.takesEntry now serial delayMs callback cbArg = none ∧
      (d.deferExec now serial delayMs callback cbArg).2.executors = d.executors) ∨
    ∃ i token, d.takesEntry now serial delayMs callback cbArg = some i ∧
      (d.deferExec now serial delayMs callback cbArg).2.executors =
        Function.update d.executors i
          { token, triggerTime := now + delayMs, callback, cbArg, serial } := by
  have hnone : (d.deferExec now serial delayMs callback cbArg).1 = 0 →
      d.takesEntry now serial delayMs callback cbArg = none := fun h => if_pos h
  have hsome : (d.deferExec now serial delayMs callback cbArg).1 ≠ 0 →
      d.takesEntry now serial delayMs callback cbArg = withToken 0 d.executors := fun h => if_neg h
  generalize htakes : d.takesEntry now serial delayMs callback cbArg = entry at hnone hsome ⊢
  unfold deferExec at hnone hsome ⊢
  -- Without a delay or a callback, a free entry or a token, nothing is deferred.
  by_cases hignored : delayMs = 0 ∨ callback.isNone
  · rw [if_pos hignored] at hnone ⊢
    exact Or.inl ⟨hnone rfl, rfl⟩
  rw [if_neg hignored] at hnone hsome ⊢
  cases hfree : withToken 0 d.executors with
  | none =>
    rw [hfree] at hnone
    exact Or.inl ⟨hnone rfl, rfl⟩
  | some i =>
    rw [hfree] at hnone hsome
    dsimp only at hnone hsome ⊢
    by_cases htoken : d.allocateToken.1 = 0
    · rw [if_pos htoken] at hnone ⊢
      exact Or.inl ⟨hnone rfl, rfl⟩
    · rw [if_neg htoken] at hsome ⊢
      -- The token that is returned is the one the entry gets, and it is not zero.
      have hcurrent := (nextToken_usable d.executors _ _ htoken).1
      exact Or.inr ⟨i, d.allocateToken.2, hsome (fun hc => htoken (hcurrent.symm.trans hc)), rfl⟩

theorem extendDeferredExec_executors (now : BitVec 32) (token : BitVec 8)
    (delayMs : BitVec 32) (d : DeferredExec n κ α) :
    (d.extendsEntry now token delayMs = none ∧
      (d.extendDeferredExec now token delayMs).2.executors = d.executors) ∨
    ∃ i, d.extendsEntry now token delayMs = some i ∧
      (d.extendDeferredExec now token delayMs).2.executors =
        Function.update d.executors i { d.executors i with triggerTime := now + delayMs } := by
  unfold extendsEntry extendDeferredExec
  by_cases hignored : delayMs = 0 ∨ token = 0
  · rw [if_pos hignored]
    exact Or.inl ⟨rfl, rfl⟩
  · rw [if_neg hignored]
    cases hfound : withToken token d.executors with
    | none => exact Or.inl ⟨rfl, rfl⟩
    | some i => exact Or.inr ⟨i, rfl, rfl⟩

theorem cancelDeferredExec_executors (token : BitVec 8) (d : DeferredExec n κ α) (i : Fin n)
    (hlive : ((d.cancelDeferredExec token).2.executors i).token ≠ 0) :
    (d.cancelDeferredExec token).2.executors i = d.executors i := by
  unfold cancelDeferredExec at hlive ⊢
  by_cases hinvalid : token = 0
  · rw [if_pos hinvalid]
  · rw [if_neg hinvalid] at hlive ⊢
    cases hfound : withToken token d.executors with
    | none => rfl
    | some j =>
      rw [hfound] at hlive
      dsimp only at hlive ⊢
      by_cases hij : i = j
      · -- The entry that is freed is no longer in use.
        rw [hij, Function.update_self] at hlive
        exact absurd rfl hlive
      · rw [Function.update_of_ne hij]

end DeferredExec

/-! ### Runs -/

/-- As `ExecutorInput`, except that time passes. -/
inductive TimedInput (κ : Type u) (α : Type v) where
  | defer (delayMs : BitVec 32) (callback : Option κ) (cbArg : Option α)
  | extend (token : BitVec 8) (delayMs : BitVec 32)
  | cancel (token : BitVec 8)
  | task
  | ret (delayMs : BitVec 32)
  | pass (ms : Nat)

/-- A run, with times that do not wrap. -/
structure TimedRun (n : Nat) (κ : Type u) (α : Type v) where
  run : DeferredRun n κ α
  /-- the milliseconds that have passed -/
  time : Nat
  /-- for each entry, when the delay it was last given is over -/
  overAt : Fin n → Nat
  /-- for each entry, `trigger_time` -/
  triggersAt : Fin n → Nat
  /-- for each call under way, `now` -/
  nows : List Nat
  /-- for each call of a callback, when it was, and when the delay was over -/
  called : List (Nat × Nat)

namespace TimedRun

variable {n : Nat} {κ : Type u} {α : Type v}

def start (n : Nat) (κ : Type u) (α : Type v) : TimedRun n κ α :=
  { run := .start n κ α, time := 0, overAt := fun _ => 0, triggersAt := fun _ => 0, nows := [],
    called := [] }

/-- An entry has been given a delay. -/
def give (delayMs : BitVec 32) (entry : Option (Fin n)) (s : TimedRun n κ α) : TimedRun n κ α :=
  match entry with
  | none => s
  | some i =>
    { s with
      overAt := Function.update s.overAt i (s.time + delayMs.toNat),
      triggersAt := Function.update s.triggersAt i (s.time + delayMs.toNat) }

/-- A task of a time goes on to a state, in which there may be one more call under way than
    there have been. -/
def goOn (now : Nat) (run : DeferredRun n κ α) (s : TimedRun n κ α) : TimedRun n κ α :=
  match run.calls with
  | [] => { s with run }
  | c :: rest =>
    if rest.length = s.nows.length then
      { s with
        run, nows := now :: s.nows, called := s.called ++ [(s.time, s.overAt c.index)] }
    else { s with run }

def step (s : TimedRun n κ α) : TimedInput κ α → TimedRun n κ α
  | .defer delayMs callback cbArg =>
    { s with run := s.run.step (.defer delayMs callback cbArg) }.give delayMs
      (s.run.exec.takesEntry s.run.clock s.run.serials delayMs callback cbArg)
  | .extend token delayMs =>
    { s with run := s.run.step (.extend token delayMs) }.give delayMs
      (s.run.exec.extendsEntry s.run.clock token delayMs)
  | .cancel token => { s with run := s.run.step (.cancel token) }
  | .task => s.goOn s.time (s.run.step .task)
  | .ret delayMs =>
    match s.run.calls, s.nows with
    | c :: _, now :: nows =>
      { s with
        nows,
        triggersAt := Function.update s.triggersAt c.index
          (s.triggersAt c.index + delayMs.toNat) }.goOn now (s.run.step (.ret delayMs))
    | _, _ => s
  | .pass ms =>
    { s with
      time := s.time + ms,
      run := s.run.step (.tick (BitVec.ofNat 32 (s.time + ms))) }

/-- No callback has been called before the delay was over. -/
def Punctual (s : TimedRun n κ α) : Prop := ∀ c ∈ s.called, c.2 ≤ c.1

/-- A time is less than half a turn ahead, also for the calls under way. -/
def Near (s : TimedRun n κ α) (trigger : Nat) : Prop :=
  ∀ now ∈ s.time :: s.nows, trigger < now + 2 ^ 31

/-- The trigger time that an entry gets is near. What a callback returns may be anything if it
    frees the entry, or if the delay of the entry is over. -/
def WithinReach (s : TimedRun n κ α) : TimedInput κ α → Prop
  | .defer delayMs callback cbArg =>
    s.run.exec.takesEntry s.run.clock s.run.serials delayMs callback cbArg ≠ none →
      s.Near (s.time + delayMs.toNat)
  | .extend token delayMs =>
    s.run.exec.extendsEntry s.run.clock token delayMs ≠ none → s.Near (s.time + delayMs.toNat)
  | .ret delayMs =>
    delayMs ≠ 0 → ∀ c ∈ s.run.calls.head?, (s.run.exec.executors c.index).token ≠ 0 →
      s.time < s.overAt c.index → s.Near (s.triggersAt c.index + delayMs.toNat)
  | .cancel _ => True
  | .task => True
  | .pass _ => True

instance (s : TimedRun n κ α) : DecidablePred (WithinReach s)
  | .defer _ _ _ => inferInstanceAs (Decidable (_ → ∀ now ∈ s.time :: s.nows, _))
  | .extend _ _ => inferInstanceAs (Decidable (_ → ∀ now ∈ s.time :: s.nows, _))
  | .ret _ =>
    inferInstanceAs (Decidable (_ → ∀ c ∈ s.run.calls.head?, _ → _ →
      ∀ now ∈ s.time :: s.nows, _))
  | .cancel _ => inferInstanceAs (Decidable True)
  | .task => inferInstanceAs (Decidable True)
  | .pass _ => inferInstanceAs (Decidable True)

/-! ### What a step preserves -/

structure Timely (s : TimedRun n κ α) : Prop where
  clock : s.run.clock = BitVec.ofNat 32 s.time
  nows : s.run.calls.map ExecutorCall.now = s.nows.map (BitVec.ofNat 32)
  past : ∀ now ∈ s.nows, now ≤ s.time
  entries : ∀ i, (s.run.exec.executors i).token ≠ 0 → s.time < s.overAt i →
    s.overAt i ≤ s.triggersAt i ∧
      (s.run.exec.executors i).triggerTime = BitVec.ofNat 32 (s.triggersAt i) ∧
      s.Near (s.triggersAt i)
  punctual : s.Punctual

variable {s : TimedRun n κ α}

theorem over_of_due {now : Nat} (hpast : now ≤ s.time) {i : Fin n}
    (hentry : (s.run.exec.executors i).token ≠ 0 → s.time < s.overAt i →
      s.overAt i ≤ s.triggersAt i ∧
        (s.run.exec.executors i).triggerTime = BitVec.ofNat 32 (s.triggersAt i) ∧
        s.triggersAt i < now + 2 ^ 31)
    (hdue : DeferredExec.due (BitVec.ofNat 32 now) (s.run.exec.executors i)) :
    s.overAt i ≤ s.time := by
  unfold DeferredExec.due at hdue
  rw [Bool.and_eq_true, bne_iff_ne, decide_eq_true_iff] at hdue
  by_contra hahead
  rw [Nat.not_le] at hahead
  obtain ⟨hover, htrigger, hnear⟩ := hentry hdue.1 hahead
  -- Its trigger time is ahead and near, so the difference is positive and it is not due.
  have hdiff := @toInt_sub_of_lt_half 32 now (s.triggersAt i) (by omega) (by omega)
  rw [htrigger, hdiff] at hdue
  omega

theorem Timely.give (h : Timely s) (run : DeferredRun n κ α) (delayMs : BitVec 32)
    (entry : Option (Fin n)) (hclock : run.clock = s.run.clock) (hcalls : run.calls = s.run.calls)
    (hentry : (entry = none ∧ run.exec.executors = s.run.exec.executors) ∨
      ∃ i e, entry = some i ∧ run.exec.executors = Function.update s.run.exec.executors i e ∧
        e.triggerTime = s.run.clock + delayMs)
    (hnear : entry ≠ none → s.Near (s.time + delayMs.toNat)) :
    Timely ({ s with run }.give delayMs entry) := by
  rcases hentry with ⟨rfl, hexec⟩ | ⟨i, e, rfl, hexec, htrigger⟩
  · refine ⟨hclock.trans h.clock, ?_, h.past, ?_, h.punctual⟩
    · exact (congrArg _ hcalls).trans h.nows
    · intro j hj hahead
      unfold TimedRun.give at hj ⊢
      dsimp only at hj ⊢
      rw [hexec] at hj ⊢
      exact h.entries j hj hahead
  · refine ⟨hclock.trans h.clock, (congrArg _ hcalls).trans h.nows, h.past, ?_, h.punctual⟩
    intro j hj hahead
    unfold TimedRun.give at hj hahead ⊢
    dsimp only at hj hahead ⊢
    rw [hexec] at hj ⊢
    by_cases hji : j = i
    · -- The time at which it triggers is the one at which its delay is over.
      subst hji
      rw [Function.update_self, Function.update_self, Function.update_self]
      refine ⟨Nat.le_refl _, ?_, hnear (Option.some_ne_none j)⟩
      rw [htrigger, h.clock, BitVec.ofNat_add, BitVec.ofNat_toNat, BitVec.setWidth_eq]
    · rw [Function.update_of_ne hji] at hj hahead ⊢
      rw [Function.update_of_ne hji, Function.update_of_ne hji]
      exact h.entries j hj hahead

theorem goOn_run (before : DeferredRun n κ α) (now : Nat) (run : DeferredRun n κ α)
    (s : TimedRun n κ α) : { s with run := before }.goOn now run = s.goOn now run := by
  unfold goOn
  cases run.calls with
  | nil => rfl
  | cons c rest => rfl

theorem Timely.length_nows (h : Timely s) : s.run.calls.length = s.nows.length := by
  simpa using congrArg List.length h.nows

theorem Timely.goOn_same (h : Timely s) (now : Nat) (run : DeferredRun n κ α)
    (hcalls : run.calls = s.run.calls) : s.goOn now run = { s with run } := by
  unfold goOn
  rw [hcalls]
  cases hunder : s.run.calls with
  | nil => rfl
  | cons c rest =>
    have hlength := h.length_nows
    rw [hunder, List.length_cons] at hlength
    dsimp only
    -- There are as many calls under way as times, so none is new.
    rw [if_neg (by omega)]

theorem Timely.resume (h : Timely s) {now : Nat} (hpast : now ≤ s.time)
    (hnear : ∀ i, (s.run.exec.executors i).token ≠ 0 → s.time < s.overAt i →
      s.triggersAt i < now + 2 ^ 31) (run : DeferredRun n κ α) (hclock : run.clock = s.run.clock)
    (hcalls : run.calls = s.run.calls) (hexec : run.exec.executors = s.run.exec.executors)
    (k : Nat) : Timely (s.goOn now (run.resume (BitVec.ofNat 32 now) k)) := by
  unfold DeferredRun.resume
  cases hnext : firstFrom (DeferredExec.due (BitVec.ofNat 32 now)) k run.exec.executors with
  | none =>
    dsimp only
    rw [h.goOn_same now run hcalls]
    refine ⟨hclock.trans h.clock, (congrArg _ hcalls).trans h.nows, h.past, ?_, h.punctual⟩
    dsimp only
    rw [hexec]
    exact h.entries
  | some i =>
    have hdue := (firstFrom_eq_some hnext).2
    rw [hexec] at hdue
    -- The entry that is found is due at a time that has passed, so its delay is over.
    have hover : s.overAt i ≤ s.time :=
      over_of_due hpast (fun hlive hahead => by
        obtain ⟨hle, htrigger, -⟩ := h.entries i hlive hahead
        exact ⟨hle, htrigger, hnear i hlive hahead⟩) hdue
    -- Its call is under way from now on, with the time of this task.
    unfold goOn
    dsimp only
    rw [hcalls, if_pos h.length_nows]
    refine ⟨hclock.trans h.clock, ?_, ?_, ?_, ?_⟩
    · dsimp only
      rw [List.map_cons, List.map_cons, h.nows]
    · intro m hm
      rcases List.mem_cons.mp hm with rfl | hm
      · exact hpast
      · exact h.past m hm
    · intro j hj hahead
      dsimp only at hj ⊢
      rw [hexec] at hj ⊢
      obtain ⟨hle, htrigger, hall⟩ := h.entries j hj hahead
      refine ⟨hle, htrigger, fun m hm => ?_⟩
      rcases List.mem_cons.mp hm with rfl | hm
      · exact hall _ List.mem_cons_self
      rcases List.mem_cons.mp hm with rfl | hm
      · exact hnear j hj hahead
      · exact hall m (List.mem_cons_of_mem _ hm)
    · intro c hc
      rcases List.mem_append.mp hc with hc | hc
      · exact h.punctual c hc
      · rw [List.mem_singleton.mp hc]
        exact hover

theorem Timely.task (h : Timely s) : Timely (s.step .task) := by
  have hnear : ∀ i, (s.run.exec.executors i).token ≠ 0 → s.time < s.overAt i →
      s.triggersAt i < s.time + 2 ^ 31 :=
    fun i hlive hahead => (h.entries i hlive hahead).2.2 s.time List.mem_cons_self
  change Timely (s.goOn s.time s.run.task)
  unfold DeferredRun.task
  split
  · -- The task begins with the time it is, and with the first entry.
    have hresumed := h.resume (Nat.le_refl _) hnear
      { s.run with exec := { s.run.exec with lastDeferredExecCheck := s.run.clock } } rfl rfl rfl 0
    rwa [← h.clock] at hresumed
  · rw [h.goOn_same s.time s.run rfl]
    exact h

theorem entries_returned (h : Timely s) (c : ExecutorCall n κ α) (delayMs : BitVec 32)
    (hreach : delayMs ≠ 0 → (s.run.exec.executors c.index).token ≠ 0 →
      s.time < s.overAt c.index → s.Near (s.triggersAt c.index + delayMs.toNat)) (i : Fin n)
    (hlive : (Function.update s.run.exec.executors c.index
      (DeferredExec.afterCallback delayMs (s.run.exec.executors c.index)) i).token ≠ 0)
    (hahead : s.time < s.overAt i) :
    s.overAt i ≤ Function.update s.triggersAt c.index
        (s.triggersAt c.index + delayMs.toNat) i ∧
      (Function.update s.run.exec.executors c.index
        (DeferredExec.afterCallback delayMs (s.run.exec.executors c.index)) i).triggerTime =
        BitVec.ofNat 32 (Function.update s.triggersAt c.index
          (s.triggersAt c.index + delayMs.toNat) i) ∧
      s.Near (Function.update s.triggersAt c.index (s.triggersAt c.index + delayMs.toNat) i) := by
  by_cases hi : i = c.index
  · subst hi
    rw [Function.update_self] at hlive
    rw [Function.update_self, Function.update_self]
    unfold DeferredExec.afterCallback at hlive ⊢
    -- What is returned is added to both, so they agree as before.
    by_cases hdelay : delayMs ≠ 0
    · rw [if_pos hdelay] at hlive ⊢
      obtain ⟨hle, htrigger, -⟩ := h.entries c.index hlive hahead
      refine ⟨Nat.le_add_right_of_le hle, ?_, hreach hdelay hlive hahead⟩
      dsimp only
      rw [htrigger, BitVec.ofNat_add, BitVec.ofNat_toNat, BitVec.setWidth_eq]
    · -- The entry has been freed.
      rw [if_neg hdelay] at hlive
      exact absurd rfl hlive
  · rw [Function.update_of_ne hi] at hlive
    rw [Function.update_of_ne hi, Function.update_of_ne hi]
    exact h.entries i hlive hahead

theorem Timely.ret (h : Timely s) (delayMs : BitVec 32) (hreach : s.WithinReach (.ret delayMs)) :
    Timely (s.step (.ret delayMs)) := by
  have hnows := h.nows
  have hpast := h.past
  unfold WithinReach at hreach
  unfold TimedRun.step DeferredRun.step DeferredRun.ret
  cases hcalls : s.run.calls with
  | nil => exact h
  | cons c rest =>
    cases hunder : s.nows with
    | nil => exact h
    | cons now nows =>
      rw [hcalls, hunder, List.map_cons, List.map_cons, List.cons.injEq] at hnows
      rw [hunder] at hpast
      rw [hcalls] at hreach
      dsimp only at hreach ⊢
      rw [hnows.1]
      obtain ⟨s', hs'⟩ : ∃ s' : TimedRun n κ α, s' =
          { run := { s.run with
              exec := { s.run.exec with
                executors := Function.update s.run.exec.executors c.index
                  (DeferredExec.afterCallback delayMs (s.run.exec.executors c.index)) },
              calls := rest }.happen (.returned c.entry.serial delayMs)
            time := s.time, overAt := s.overAt,
            triggersAt := Function.update s.triggersAt c.index
              (s.triggersAt c.index + delayMs.toNat),
            nows, called := s.called } := ⟨_, rfl⟩
      have hnear := entries_returned h c delayMs (fun hdelay => hreach hdelay c rfl)
      have htimely : Timely s' := by
        rw [hs']
        refine ⟨h.clock, hnows.2, fun m hm => hpast m (List.mem_cons_of_mem _ hm), ?_,
          h.punctual⟩
        intro i hlive hahead
        obtain ⟨hle, htrigger, hall⟩ := hnear i hlive hahead
        refine ⟨hle, htrigger, fun m hm => hall m ?_⟩
        rw [hunder]
        rcases List.mem_cons.mp hm with rfl | hm
        · exact List.mem_cons_self
        · exact List.mem_cons_of_mem _ (List.mem_cons_of_mem _ hm)
      -- The task goes on with the time it had, which the entry is near to as well.
      have hpassed : now ≤ s'.time := by
        rw [hs']
        exact hpast now List.mem_cons_self
      have hresumed := htimely.resume hpassed
        (fun i hlive hahead => by
          rw [hs'] at hlive hahead ⊢
          refine (hnear i hlive hahead).2.2 now ?_
          rw [hunder]
          exact List.mem_cons_of_mem _ List.mem_cons_self)
        s'.run rfl rfl rfl (c.index + 1)
      rw [hs', ← goOn_run s.run] at hresumed
      exact hresumed

theorem Timely.defer (h : Timely s) (delayMs : BitVec 32) (callback : Option κ)
    (cbArg : Option α) (hreach : s.WithinReach (.defer delayMs callback cbArg)) :
    Timely (s.step (.defer delayMs callback cbArg)) := by
  have hrest : (s.run.defer delayMs callback cbArg).clock = s.run.clock ∧
      (s.run.defer delayMs callback cbArg).calls = s.run.calls ∧
      (s.run.defer delayMs callback cbArg).exec =
        (s.run.exec.deferExec s.run.clock s.run.serials delayMs callback cbArg).2 := by
    unfold DeferredRun.defer
    dsimp only
    split
    · exact ⟨rfl, rfl, rfl⟩
    · exact ⟨rfl, rfl, rfl⟩
  refine h.give _ delayMs _ hrest.1 hrest.2.1 ?_ hreach
  rw [show (s.run.step (.defer delayMs callback cbArg)).exec = _ from hrest.2.2]
  rcases DeferredExec.deferExec_executors s.run.clock s.run.serials delayMs callback cbArg
    s.run.exec with hnone | ⟨i, token, htakes, hexec⟩
  · exact Or.inl hnone
  · exact Or.inr ⟨i, _, htakes, hexec, rfl⟩

theorem Timely.extend (h : Timely s) (token : BitVec 8) (delayMs : BitVec 32)
    (hreach : s.WithinReach (.extend token delayMs)) :
    Timely (s.step (.extend token delayMs)) := by
  have hrest : (s.run.extend token delayMs).clock = s.run.clock ∧
      (s.run.extend token delayMs).calls = s.run.calls ∧
      (s.run.extend token delayMs).exec =
        (s.run.exec.extendDeferredExec s.run.clock token delayMs).2 := by
    unfold DeferredRun.extend
    dsimp only
    split
    · exact ⟨rfl, rfl, rfl⟩
    · exact ⟨rfl, rfl, rfl⟩
  refine h.give _ delayMs _ hrest.1 hrest.2.1 ?_ hreach
  rw [show (s.run.step (.extend token delayMs)).exec = _ from hrest.2.2]
  rcases DeferredExec.extendDeferredExec_executors s.run.clock token delayMs s.run.exec with
    hnone | ⟨i, hextends, hexec⟩
  · exact Or.inl hnone
  · exact Or.inr ⟨i, _, hextends, hexec, rfl⟩

theorem Timely.cancel (h : Timely s) (token : BitVec 8) : Timely (s.step (.cancel token)) := by
  refine ⟨h.clock, h.nows, h.past, fun i hlive hahead => ?_, h.punctual⟩
  have hsame := DeferredExec.cancelDeferredExec_executors token s.run.exec i hlive
  have hbefore := h.entries i (by rwa [← hsame]) hahead
  rw [← hsame] at hbefore
  exact hbefore

theorem Timely.pass (h : Timely s) (ms : Nat) : Timely (s.step (.pass ms)) where
  clock := rfl
  nows := h.nows
  past := fun now hnow => Nat.le_add_right_of_le (h.past now hnow)
  entries := by
    intro i hlive hahead
    have hlater : s.time < s.overAt i :=
      Nat.lt_of_le_of_lt (Nat.le_add_right s.time ms) hahead
    obtain ⟨hle, htrigger, hall⟩ := h.entries i hlive hlater
    refine ⟨hle, htrigger, fun now hnow => ?_⟩
    rcases List.mem_cons.mp hnow with rfl | hnow
    · have hnear := hall s.time List.mem_cons_self
      change s.triggersAt i < s.time + ms + 2 ^ 31
      omega
    · exact hall now (List.mem_cons_of_mem _ hnow)
  punctual := h.punctual

theorem step_timely (h : Timely s) (input : TimedInput κ α) (hreach : s.WithinReach input) :
    Timely (s.step input) := by
  cases input with
  | defer delayMs callback cbArg => exact h.defer delayMs callback cbArg hreach
  | extend token delayMs => exact h.extend token delayMs hreach
  | cancel token => exact h.cancel token
  | task => exact h.task
  | ret delayMs => exact h.ret delayMs hreach
  | pass ms => exact h.pass ms

theorem start_timely : Timely (start n κ α) where
  clock := rfl
  nows := rfl
  past := fun _ hnow => absurd hnow List.not_mem_nil
  entries := fun _ hlive => absurd rfl hlive
  punctual := fun _ hc => absurd hc List.not_mem_nil

/-- Whatever is deferred, extended and cancelled, also by the callbacks themselves, and however
    much time passes in between: no callback is called before the delay is over that was last
    given for its entry, if the times at which the entries trigger are near. -/
theorem never_early (n : Nat) (κ : Type u) (α : Type v) (inputs : List (TimedInput κ α))
    (hreach : Along step WithinReach (start n κ α) inputs) :
    Always step Punctual (start n κ α) inputs :=
  always_of_along step WithinReach Timely Punctual (fun _ h => h.punctual)
    (fun _ input h hreach => step_timely h input hreach) inputs _ start_timely hreach

/-- The longest delay that is near, across the end of a turn of the clock. A callback extends
    its own entry, and returns a delay besides. -/
def acrossTheTurn : List (TimedInput Unit Unit) :=
  [.pass 0xFFFFFFF0, .task, .defer 0x7FFFFFFF (some ()) none, .pass 0x7FFFFFFF, .task,
    .extend 1 100, .ret 5, .pass 105, .task]

theorem never_early_across :
    Along step WithinReach (start 1 Unit Unit) acrossTheTurn ∧
      Always step Punctual (start 1 Unit Unit) acrossTheTurn :=
  have hreach : Along step WithinReach (start 1 Unit Unit) acrossTheTurn := by
    decide +kernel
  ⟨hreach, never_early 1 Unit Unit acrossTheTurn hreach⟩

def halfATurn : List (TimedInput Unit Unit) :=
  [.pass 1, .defer 0x80000000 (some ()) none, .task]

/-- The callback is called at once. -/
theorem never_early_broken :
    ¬ ∀ (n : Nat) (inputs : List (TimedInput Unit Unit)),
      Always step Punctual (start n Unit Unit) inputs := by
  intro h
  have hlast := (always_iff_visited step Punctual halfATurn _).mp (h 1 halfATurn) halfATurn []
    (List.append_nil _).symm
  have hcalled : (1, 0x80000001) ∈ (StepRun.run step (start 1 Unit Unit) halfATurn).called := by
    decide +kernel
  exact absurd (hlast _ hcalled) (by decide)

end TimedRun

end K530
