import K530.Lib.Cycle
import K530.Lib.Run
import K530.Split.Matrix

/-!
# When an Exchange Is Attempted

A call answers that the other half is gone exactly if the last attempts have all failed, of
a number that is configured: the counter has the failures since the last success, up to 255,
which is as far as the configuration asks.

After an attempt that fails and leaves the half gone there is none for the timeout, since a
time of 16 bits never shows more than has passed. That there is one when the timeout is over
needs calls in the meantime: the time shows what has passed only while that is less than
65536, and a call that comes in time is the last that can be held back.

## Main definitions

* `LinkRecord`: A call that was made.

## Theorems

* `split_link_throttled`: Both laws hold in every run.
* `split_link_throttled_twice`: Two attempts fail, and two calls follow.
-/

namespace K530

open StepRun

/-- A call: how long after the one before it, how long the exchange takes if there is one,
    and whether it succeeds. -/
structure SplitCall where
  wait : Nat
  took : Nat
  okay : Bool

/-- A call that was made. -/
structure LinkRecord where
  time : Nat
  attempted : Bool
  okay : Bool
  ended : Nat
  returned : Bool

/-- An attempt that failed, and left the half disconnected. -/
def LinkRecord.Cut (f : LinkRecord) : Prop :=
  f.attempted = true ∧ f.okay = false ∧ f.returned = false

/-- The variables, the time of the clock in milliseconds, and the calls, the latest first. -/
structure LinkRun where
  link : SplitLink
  clock : Nat
  log : List LinkRecord

namespace LinkRun

variable (c : SplitThrottle)

/-- Power-up. -/
def init : LinkRun where
  link := SplitLink.init
  clock := 0
  log := []

/-- The record of a call. -/
def record (r : LinkRun) (call : SplitCall) : LinkRecord :=
  let time := r.clock + call.wait
  let attempted := !r.link.throttled c (BitVec.ofNat 16 time)
  let ended := if attempted then time + call.took else time
  { time := time, attempted := attempted, okay := call.okay, ended := ended
    returned := (r.link.transportMasterIfConnected c (BitVec.ofNat 16 time)
      (BitVec.ofNat 16 ended) call.okay).1 }

def step (r : LinkRun) (call : SplitCall) : LinkRun :=
  let last := r.record c call
  { link := (r.link.transportMasterIfConnected c (BitVec.ofNat 16 last.time)
      (BitVec.ofNat 16 last.ended) call.okay).2
    clock := last.ended
    log := last :: r.log }

/-- The attempts among the calls. -/
def attempts (log : List LinkRecord) : List LinkRecord :=
  log.filter LinkRecord.attempted

/-- The last so many attempts have all failed. -/
def AllFailed (n : Nat) (log : List LinkRecord) : Prop :=
  n ≤ (attempts log).length ∧ ∀ f ∈ (attempts log).take n, f.okay = false

/-- Every attempt that left the half disconnected is the timeout ago. -/
def Waited (time : Nat) (log : List LinkRecord) : Prop :=
  ∀ f ∈ log, f.Cut → f.ended + c.timeout ≤ time

/-- The last call returned false exactly if the last attempts have all failed, and was an
    attempt only if those before that left the half disconnected are the timeout ago. -/
def Throttled (r : LinkRun) : Prop :=
  match r.log with
  | [] => True
  | last :: older =>
    (last.returned = false ↔ AllFailed c.maxErrors (last :: older)) ∧
      (last.attempted = true → Waited c last.time older)

/-- If they are, it was one. -/
def Prompt (r : LinkRun) : Prop :=
  match r.log with
  | [] => True
  | last :: older => Waited c last.time older → last.attempted = true

/-! ### Counting -/

def failures (log : List LinkRecord) : Nat :=
  ((attempts log).takeWhile (fun f => !f.okay)).length

end LinkRun

theorem le_length_takeWhile_iff {α : Type*} (p : α → Bool) (l : List α) :
    ∀ n, n ≤ (l.takeWhile p).length ↔ n ≤ l.length ∧ ∀ a ∈ l.take n, p a := by
  induction l with
  | nil =>
    intro n
    simp
  | cons a l ih =>
    intro n
    cases n with
    | zero => simp
    | succ n =>
      cases ha : p a with
      | true => simp [ha, ih n]
      | false => simp [ha]

namespace LinkRun

variable {c : SplitThrottle} {r : LinkRun}

theorem allFailed_iff (n : Nat) (log : List LinkRecord) : AllFailed n log ↔ n ≤ failures log := by
  unfold AllFailed failures
  rw [le_length_takeWhile_iff]
  simp only [Bool.not_eq_true']

def Counted (r : LinkRun) : Prop :=
  r.link.connectionErrors.toNat = min 255 (failures r.log)

theorem Counted.isTransportConnected (h : r.Counted) :
    r.link.isTransportConnected c ↔ failures r.log < c.maxErrors := by
  have hle := c.maxErrors_le
  unfold SplitLink.isTransportConnected
  rw [decide_eq_true_eq, h]
  omega

/-! ### The time of the last failure -/

/-- The last attempt that left the half disconnected was over at `d`, which is the time
    that is kept. -/
structure CutAt (r : LinkRun) (d : Nat) : Prop where
  le_clock : d ≤ r.clock
  timer : r.link.connectionCheckTimer = BitVec.ofNat 16 d
  last : ∀ f ∈ r.log, f.Cut → f.ended ≤ d
  cut : ∃ f ∈ r.log, f.Cut ∧ f.ended = d

def Timed (c : SplitThrottle) (r : LinkRun) : Prop :=
  (r.link.isTransportConnected c = true → Waited c r.clock r.log) ∧
    (r.link.isTransportConnected c = false → ∃ d, r.CutAt d)

def Recent (c : SplitThrottle) (r : LinkRun) : Prop :=
  r.link.isTransportConnected c = false → ∀ d, r.CutAt d → r.clock < d + c.timeout

theorem throttled_iff (s : SplitLink) (now : BitVec 16) : s.throttled c now ↔
    s.isTransportConnected c = false ∧ (now - s.connectionCheckTimer).toNat < c.timeout := by
  unfold SplitLink.throttled
  rw [Bool.and_eq_true, Bool.not_eq_true', decide_eq_true_eq]

theorem CutAt.elapsed {d : Nat} (h : r.CutAt d) (time : Nat) (htime : r.clock ≤ time) :
    (BitVec.ofNat 16 time - r.link.connectionCheckTimer).toNat = (time - d) % 65536 := by
  rw [h.timer, WrappedTime.ofNat_sub_ofNat (Nat.le_trans h.le_clock htime), BitVec.toNat_ofNat]

theorem Timed.waited (h : Timed c r) (time : Nat) (htime : r.clock ≤ time)
    (hfree : r.link.throttled c (BitVec.ofNat 16 time) = false) : Waited c time r.log := by
  intro f hf hcut
  cases hconnected : r.link.isTransportConnected c with
  | true => exact Nat.le_trans (h.1 hconnected f hf hcut) htime
  | false =>
    obtain ⟨d, hd⟩ := h.2 hconnected
    have helapsed : ¬(time - d) % 65536 < c.timeout := by
      rw [← hd.elapsed time htime]
      intro hlt
      rw [(throttled_iff _ _).mpr ⟨hconnected, hlt⟩] at hfree
      cases hfree
    have hover := hd.last f hf hcut
    have hmod := Nat.mod_le (time - d) 65536
    have htimeout := c.timeout_pos
    omega

theorem Recent.held (h : Recent c r) {d : Nat} (hd : r.CutAt d) (call : SplitCall)
    (hsoon : call.wait + c.timeout < 65536)
    (hheld : r.link.throttled c (BitVec.ofNat 16 (r.clock + call.wait))) :
    r.clock + call.wait < d + c.timeout := by
  obtain ⟨hconnected, helapsed⟩ := (throttled_iff _ _).mp hheld
  rw [hd.elapsed _ (Nat.le_add_right _ _)] at helapsed
  have hclock := h hconnected d hd
  have hle := hd.le_clock
  -- less than a turn has passed, so the time shows all of it
  rw [Nat.mod_eq_of_lt (by omega)] at helapsed
  omega

/-! ### A call -/

theorem step_throttled (call : SplitCall)
    (h : r.link.throttled c (BitVec.ofNat 16 (r.clock + call.wait))) :
    step c r call =
      { link := r.link
        clock := r.clock + call.wait
        log := ⟨r.clock + call.wait, false, call.okay, r.clock + call.wait, false⟩ :: r.log } := by
  unfold step record SplitLink.transportMasterIfConnected
  simp [h]

theorem step_okay (call : SplitCall)
    (h : r.link.throttled c (BitVec.ofNat 16 (r.clock + call.wait)) = false)
    (hokay : call.okay) :
    step c r call =
      { link := { r.link with connectionErrors := 0 }
        clock := r.clock + call.wait + call.took
        log := ⟨r.clock + call.wait, true, true, r.clock + call.wait + call.took, true⟩ ::
          r.log } := by
  unfold step record SplitLink.transportMasterIfConnected
  simp [h, hokay]

theorem step_failed (call : SplitCall)
    (h : r.link.throttled c (BitVec.ofNat 16 (r.clock + call.wait)) = false)
    (hokay : call.okay = false) :
    step c r call =
      { link := (r.link.failed c (BitVec.ofNat 16 (r.clock + call.wait + call.took))).2
        clock := r.clock + call.wait + call.took
        log := ⟨r.clock + call.wait, true, false, r.clock + call.wait + call.took,
          (r.link.failed c (BitVec.ofNat 16 (r.clock + call.wait + call.took))).1⟩ ::
          r.log } := by
  unfold step record SplitLink.transportMasterIfConnected
  simp [h, hokay]

/-! ### What a call keeps -/

theorem failures_held (f : LinkRecord) (log : List LinkRecord) (h : f.attempted = false) :
    failures (f :: log) = failures log := by
  simp [failures, attempts, h]

theorem failures_okay (f : LinkRecord) (log : List LinkRecord) (h : f.attempted)
    (hokay : f.okay) : failures (f :: log) = 0 := by
  simp [failures, attempts, h, hokay]

theorem failures_failed (f : LinkRecord) (log : List LinkRecord) (h : f.attempted)
    (hokay : f.okay = false) : failures (f :: log) = failures log + 1 := by
  simp [failures, attempts, h, hokay]

theorem failed_connectionErrors (s : SplitLink) (done : BitVec 16) :
    (s.failed c done).2.connectionErrors.toNat = min 255 (s.connectionErrors.toNat + 1) := by
  have hlt := s.connectionErrors.isLt
  have herrors : (s.failed c done).2.connectionErrors =
      if s.connectionErrors.toNat < 255 then s.connectionErrors + 1 else s.connectionErrors := by
    unfold SplitLink.failed
    dsimp only
    exact (apply_ite SplitLink.connectionErrors _ _ _).trans (ite_self _)
  rw [herrors]
  split
  · rw [BitVec.toNat_add]
    change (s.connectionErrors.toNat + 1) % 256 = _
    omega
  · omega

theorem failed_returned (s : SplitLink) (done : BitVec 16) :
    (s.failed c done).2.isTransportConnected c = (s.failed c done).1 := by
  unfold SplitLink.failed SplitLink.isTransportConnected
  dsimp only
  exact congrArg (fun e => decide (BitVec.toNat e < c.maxErrors))
    ((apply_ite SplitLink.connectionErrors _ _ _).trans (ite_self _))

theorem failed_timer (s : SplitLink) (done : BitVec 16) (h : (s.failed c done).1 = false) :
    (s.failed c done).2.connectionCheckTimer = done := by
  unfold SplitLink.failed at *
  dsimp only at *
  rw [h]
  rfl

theorem Counted.step (h : r.Counted) (call : SplitCall) : (step c r call).Counted := by
  unfold Counted at *
  cases hheld : r.link.throttled c (BitVec.ofNat 16 (r.clock + call.wait)) with
  | true =>
    rw [step_throttled call hheld, failures_held _ _ rfl]
    exact h
  | false =>
    cases hokay : call.okay with
    | true =>
      rw [step_okay call hheld hokay, failures_okay _ _ rfl rfl]
      rfl
    | false =>
      rw [step_failed call hheld hokay, failures_failed _ _ rfl rfl, failed_connectionErrors, h]
      omega

theorem Waited.mono {time later : Nat} {log : List LinkRecord} (h : Waited c time log)
    (hle : time ≤ later) : Waited c later log :=
  fun f hf hcut => Nat.le_trans (h f hf hcut) hle

theorem Waited.cons {time : Nat} {log : List LinkRecord} (h : Waited c time log)
    (f : LinkRecord) (hcut : ¬f.Cut) : Waited c time (f :: log) := by
  intro g hg hgcut
  rcases List.mem_cons.mp hg with rfl | hg
  · exact absurd hgcut hcut
  · exact h g hg hgcut

theorem Timed.step (h : Timed c r) (call : SplitCall) : Timed c (step c r call) := by
  cases hheld : r.link.throttled c (BitVec.ofNat 16 (r.clock + call.wait)) with
  | true =>
    -- the link is as it was, and the clock and the log have gone on
    obtain ⟨hconnected, -⟩ := (throttled_iff _ _).mp hheld
    obtain ⟨d, hd⟩ := h.2 hconnected
    rw [step_throttled call hheld]
    refine ⟨fun htrue => absurd (hconnected.symm.trans htrue) Bool.false_ne_true,
      fun _ => ⟨d, ?_⟩⟩
    have hover : ∀ f ∈ r.log, f.Cut → f.ended ≤ d := hd.last
    obtain ⟨f, hf, hcut⟩ := hd.cut
    refine ⟨Nat.le_trans hd.le_clock (Nat.le_add_right _ _), hd.timer, fun g hg hgcut => ?_,
      f, List.mem_cons_of_mem _ hf, hcut⟩
    rcases List.mem_cons.mp hg with rfl | hg
    · cases hgcut.1
    · exact hover g hg hgcut
  | false =>
    have hwaited := h.waited _ (Nat.le_add_right r.clock call.wait) hheld
    cases hokay : call.okay with
    | true =>
      rw [step_okay call hheld hokay]
      have hpos : decide (0 < c.maxErrors) = true := decide_eq_true c.maxErrors_pos
      refine ⟨fun _ => ?_, fun hfalse => absurd (hpos.symm.trans hfalse) (by decide)⟩
      exact (hwaited.mono (Nat.le_add_right _ _)).cons _ (fun hcut => by cases hcut.2.1)
    | false =>
      rw [step_failed call hheld hokay]
      constructor
      · intro hconnected
        refine (hwaited.mono (Nat.le_add_right _ _)).cons _ (fun hcut => ?_)
        have hreturned := (failed_returned _ _).symm.trans hconnected
        exact absurd (hcut.2.2.symm.trans hreturned) Bool.false_ne_true
      · intro hconnected
        have hreturned := (failed_returned _ _).symm.trans hconnected
        refine ⟨_, le_rfl, failed_timer _ _ hreturned, fun g hg hgcut => ?_,
          _, List.mem_cons_self, ⟨rfl, rfl, hreturned⟩, rfl⟩
        rcases List.mem_cons.mp hg with rfl | hg
        · exact le_rfl
        · have hover := hwaited g hg hgcut
          change g.ended ≤ r.clock + call.wait + call.took
          omega

theorem Recent.step (h : Recent c r) (htimed : Timed c r) (call : SplitCall)
    (hsoon : call.wait + c.timeout < 65536) : Recent c (step c r call) := by
  intro hconnected d hd
  cases hheld : r.link.throttled c (BitVec.ofNat 16 (r.clock + call.wait)) with
  | true =>
    obtain ⟨hbefore, -⟩ := (throttled_iff _ _).mp hheld
    obtain ⟨e, he⟩ := htimed.2 hbefore
    have hsoon := h.held he call hsoon hheld
    rw [step_throttled call hheld] at hd ⊢
    -- it is the failure that was the last before
    obtain ⟨f, hf, hcut, hover⟩ := he.cut
    have hle := hd.last f (List.mem_cons_of_mem _ hf) hcut
    change r.clock + call.wait < d + c.timeout
    omega
  | false =>
    have hpos := c.timeout_pos
    cases hokay : call.okay with
    | true =>
      rw [step_okay call hheld hokay] at hconnected
      have hpos : decide (0 < c.maxErrors) = true := decide_eq_true c.maxErrors_pos
      exact absurd (hpos.symm.trans hconnected) (by decide)
    | false =>
      rw [step_failed call hheld hokay] at hconnected hd ⊢
      have hreturned := (failed_returned _ _).symm.trans hconnected
      have hle := hd.last _ List.mem_cons_self ⟨rfl, rfl, hreturned⟩
      change r.clock + call.wait + call.took ≤ d at hle
      change r.clock + call.wait + call.took < d + c.timeout
      omega

/-! ### The laws -/

theorem throttled_step (hcounted : r.Counted) (htimed : Timed c r) (call : SplitCall) :
    Throttled c (step c r call) := by
  have hcount : (step c r call).link.isTransportConnected c ↔
      failures (step c r call).log < c.maxErrors := (hcounted.step call).isTransportConnected
  have hlaw : ∀ last older, (step c r call).log = last :: older →
      (last.returned = (step c r call).link.isTransportConnected c) →
      (last.returned = false ↔ AllFailed c.maxErrors (last :: older)) := by
    intro last older hlog hreturned
    rw [allFailed_iff, ← hlog, hreturned, Bool.eq_false_iff, ne_eq, hcount, Nat.not_lt]
  cases hheld : r.link.throttled c (BitVec.ofNat 16 (r.clock + call.wait)) with
  | true =>
    obtain ⟨hconnected, -⟩ := (throttled_iff _ _).mp hheld
    rw [step_throttled call hheld] at hlaw ⊢
    exact ⟨hlaw _ _ rfl hconnected.symm, fun h => by cases h⟩
  | false =>
    have hwaited := htimed.waited _ (Nat.le_add_right r.clock call.wait) hheld
    cases hokay : call.okay with
    | true =>
      rw [step_okay call hheld hokay] at hlaw ⊢
      exact ⟨hlaw _ _ rfl (decide_eq_true c.maxErrors_pos).symm, fun _ => hwaited⟩
    | false =>
      rw [step_failed call hheld hokay] at hlaw ⊢
      exact ⟨hlaw _ _ rfl (failed_returned _ _).symm, fun _ => hwaited⟩

theorem prompt_step (htimed : Timed c r) (hrecent : Recent c r) (call : SplitCall)
    (hsoon : call.wait + c.timeout < 65536) : Prompt c (step c r call) := by
  cases hheld : r.link.throttled c (BitVec.ofNat 16 (r.clock + call.wait)) with
  | true =>
    obtain ⟨hconnected, -⟩ := (throttled_iff _ _).mp hheld
    obtain ⟨d, hd⟩ := htimed.2 hconnected
    have hsoon := hrecent.held hd call hsoon hheld
    rw [step_throttled call hheld]
    intro hwaited
    obtain ⟨f, hf, hcut, hover⟩ := hd.cut
    have hle := hwaited f hf hcut
    change f.ended + c.timeout ≤ r.clock + call.wait at hle
    omega
  | false =>
    cases hokay : call.okay with
    | true =>
      rw [step_okay call hheld hokay]
      exact fun _ => rfl
    | false =>
      rw [step_failed call hheld hokay]
      exact fun _ => rfl

theorem timed_init : Timed c init := by
  have hconnected : init.link.isTransportConnected c = true := decide_eq_true c.maxErrors_pos
  exact ⟨fun _ f hf => absurd hf List.not_mem_nil,
    fun hfalse => absurd (hconnected.symm.trans hfalse) (by decide)⟩

theorem recent_init : Recent c init := by
  intro _ d hd
  obtain ⟨f, hf, -⟩ := hd.cut
  exact absurd hf List.not_mem_nil

end LinkRun

/-- Every call returns false exactly if the last attempts have all failed, and none is an
    attempt before its time. If the calls are close enough to each other, each is one after
    it. -/
theorem split_link_throttled (c : SplitThrottle) (calls : List SplitCall) :
    Always (LinkRun.step c) (LinkRun.Throttled c) LinkRun.init calls ∧
      ((∀ call ∈ calls, call.wait + c.timeout < 65536) →
        Always (LinkRun.step c) (LinkRun.Prompt c) LinkRun.init calls) := by
  have hinit : LinkRun.init.Counted ∧ LinkRun.Timed c LinkRun.init :=
    ⟨rfl, LinkRun.timed_init⟩
  constructor
  · exact always_of_along (LinkRun.step c) (fun _ _ => True)
      (fun r => (r.Counted ∧ LinkRun.Timed c r) ∧ LinkRun.Throttled c r) (LinkRun.Throttled c)
      (fun _ h => h.2)
      (fun r call h _ => ⟨⟨h.1.1.step call, h.1.2.step call⟩,
        LinkRun.throttled_step h.1.1 h.1.2 call⟩)
      calls LinkRun.init ⟨hinit, trivial⟩
      (along_of_forall _ _ calls (fun _ _ _ => trivial) _)
  · intro hsoon
    exact always_of_along (LinkRun.step c) (fun _ call => call.wait + c.timeout < 65536)
      (fun r => (LinkRun.Timed c r ∧ LinkRun.Recent c r) ∧ LinkRun.Prompt c r)
      (LinkRun.Prompt c) (fun _ h => h.2)
      (fun r call h hwait => ⟨⟨h.1.1.step call, h.1.2.step h.1.1 call hwait⟩,
        LinkRun.prompt_step h.1.1 h.1.2 call hwait⟩)
      calls LinkRun.init ⟨⟨LinkRun.timed_init, LinkRun.recent_init⟩, trivial⟩
      (along_of_forall _ _ calls (fun _ call hcall => hsoon call hcall) _)

namespace SplitThrottle

theorem two_le : 2 ≤ 255 := by
  decide

/-- Two failures in a row, and half a second. -/
def twoFailures : SplitThrottle where
  maxErrors := 2
  timeout := 500
  maxErrors_pos := Nat.le_of_ble_eq_true rfl
  maxErrors_le := two_le
  timeout_pos := Nat.le_of_ble_eq_true rfl
  timeout_lt := Nat.lt_of_lt_of_le (Nat.lt_succ_self 500) (Nat.le_of_ble_eq_true rfl)

/-- Two exchanges fail, a call comes too soon, and one after the timeout succeeds. -/
def calls : List SplitCall :=
  [⟨5, 20, false⟩, ⟨5, 20, false⟩, ⟨100, 20, true⟩, ⟨400, 20, true⟩]

end SplitThrottle

theorem split_link_throttled_twice :
    ((run (LinkRun.step .twoFailures) LinkRun.init SplitThrottle.calls).log.map
      (fun f => (f.attempted, f.returned))) =
        [(true, true), (false, false), (true, false), (true, true)] ∧
      Always (LinkRun.step .twoFailures) (LinkRun.Prompt .twoFailures) LinkRun.init
        SplitThrottle.calls :=
  ⟨by decide +kernel, (split_link_throttled .twoFailures SplitThrottle.calls).2 (by decide)⟩

end K530
