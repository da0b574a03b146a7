import K530.Lib.Run
import K530.Split.Transactions

/-!
# Lost Updates, and None That Is Not Checked

A transfer that fails leaves the datum in the master's own copy, so to the next
attempt it looks as if the slave had it. That attempt sends only if the throttle
has run out. If it has not, there is nothing to do and the handler reports
success, with the slave still on the old datum. The retries are such attempts,
made within microseconds of the failure.

`Overlooked` says that an attempt comes in this situation. Every success a run
reports is one exactly when no attempt of the run does: `loses_nothing_iff`.

The other way round nothing is lost. What comes from the slave lies in the master's
own copy as well, whatever becomes of the transfer, but it is that copy which is
checked, and only a matrix that has passed is kept as the last one.

## Main definitions

* `SyncInput`: A change on the master, or a call of the handler.

## Theorems

* `loses_nothing_iff`: When a run loses nothing.
* `loses_nothing_broken`: A failed transfer and its retry.
* `slave_matrix_verified`: What a run of them does.
-/

namespace K530

open StepRun

universe u

/-- A step of the master: the datum changes, or the handler is called. -/
inductive SyncInput (α : Type u) where
  | change (source : α)
  | call (connected : Bool) (attempts : Vector Attempt 10)

/-- What a call reports, and what is on the two halves at that moment. -/
structure SyncReport (α : Type u) where
  okay : Bool
  source : α
  slave : α

/-- If the call reports success, the slave has the datum. -/
def SyncReport.Kept {α : Type u} (r : SyncReport α) : Prop :=
  r.okay = true → r.slave = r.source

namespace SplitDatum

variable {α : Type u} [DecidableEq α]

/-- What a call of the handler reports. -/
def report (called : Bool × SplitDatum α) : SyncReport α :=
  { okay := called.1, source := called.2.source, slave := called.2.slave }

/-- A step of a run. A change is no call and reports nothing. -/
def syncStep (s : SplitDatum α) : SyncInput α → SplitDatum α × Option (SyncReport α)
  | .change source => ({ s with source := source }, none)
  | .call connected attempts =>
    let called := s.transactionHandlerMaster connected attempts
    (called.2, some (report called))

/-- An attempt comes while the master's copy is the datum already, the throttle
    is still running, and the slave's copy is another: the transfer that wrote
    the master's copy has failed. -/
def Overlooked (a : Attempt) (s : SplitDatum α) : Prop :=
  s.source = s.shmem ∧ s.due a = false ∧ s.slave ≠ s.shmem

/-- No attempt made out of these is overlooked. -/
def NoneOverlooked : List Attempt → SplitDatum α → Prop
  | [], _ => True
  | a :: attempts, s =>
    ¬ s.Overlooked a ∧
      ((s.sendIfDataMismatch a).1 = false → NoneOverlooked attempts (s.sendIfDataMismatch a).2)

/-- No attempt of the step is overlooked. -/
def Attended (s : SplitDatum α) : SyncInput α → Prop
  | .change _ => True
  | .call connected attempts =>
    NoneOverlooked (attempts.toList.take (if connected then 10 else 1)) s

theorem sendIfDataMismatch_transfer (a : Attempt) (s : SplitDatum α)
    (h : (s.due a || decide (s.source ≠ s.shmem)) = true) :
    (s.sendIfDataMismatch a).1 = a.delivered ∧
      (a.delivered →
        (s.sendIfDataMismatch a).2.slave = (s.sendIfDataMismatch a).2.source) := by
  unfold sendIfDataMismatch sendIfCondition transportWrite
  rw [if_pos h]
  cases a.delivered <;> simp

theorem sendIfDataMismatch_idle (a : Attempt) (s : SplitDatum α)
    (h : ¬ (s.due a || decide (s.source ≠ s.shmem)) = true) :
    s.sendIfDataMismatch a = (true, s) := by
  unfold sendIfDataMismatch sendIfCondition
  rw [if_neg h]

theorem sendIfDataMismatch_kept (a : Attempt) (s : SplitDatum α) :
    (report (s.sendIfDataMismatch a)).Kept ↔ ¬ s.Overlooked a := by
  unfold SyncReport.Kept report Overlooked
  by_cases hsend : (s.due a || decide (s.source ≠ s.shmem)) = true
  · have htransfer := s.sendIfDataMismatch_transfer a hsend
    simp only [htransfer.1]
    refine ⟨fun _ hover => ?_, fun _ => htransfer.2⟩
    simp [hover.1, hover.2.1] at hsend
  · -- nothing to send, so the two copies have to agree by themselves
    rw [s.sendIfDataMismatch_idle a hsend]
    simp only [Bool.or_eq_true, decide_eq_true_eq, not_or, not_not, Bool.not_eq_true] at hsend
    simp [hsend.1, hsend.2]

theorem retry_kept (attempts : List Attempt) :
    ∀ s : SplitDatum α, (report (retry attempts s)).Kept ↔ NoneOverlooked attempts s := by
  induction attempts with
  | nil =>
    intro s
    simp [retry, report, SyncReport.Kept, NoneOverlooked]
  | cons a attempts ih =>
    intro s
    have hattempt := s.sendIfDataMismatch_kept a
    unfold retry NoneOverlooked
    dsimp only
    cases hokay : (s.sendIfDataMismatch a).1 with
    | true =>
      rw [if_pos rfl, hattempt]
      simp
    | false =>
      rw [if_neg (by decide), ih]
      -- an attempt that fails has tried, so it was not overlooked
      have htried : ¬ s.Overlooked a := by
        rw [← hattempt]
        unfold SyncReport.Kept report
        simp [hokay]
      simp [htried]

theorem syncStep_kept (s : SplitDatum α) (input : SyncInput α) :
    (∀ r ∈ (s.syncStep input).2, r.Kept) ↔ s.Attended input := by
  cases input with
  | change source => simp [syncStep, Attended]
  | call connected attempts =>
    simp only [syncStep, Attended, Option.mem_def, Option.some.injEq, forall_eq']
    exact retry_kept _ s

/-- Every success a run reports leaves the slave with the datum exactly when no
    attempt of the run is overlooked. -/
theorem loses_nothing_iff (s : SplitDatum α) (inputs : List (SyncInput α)) :
    (∀ o ∈ trace syncStep s inputs, ∀ r ∈ o, r.Kept) ↔
      Along (next syncStep) Attended s inputs :=
  forall_trace_iff_along syncStep Attended (fun _ => True) (fun o => ∀ r ∈ o, r.Kept)
    (fun _ _ _ _ => trivial) (fun s input _ => s.syncStep_kept input) inputs s trivial

/-- Both halves at power-on, with one datum. -/
def start (datum : α) : SplitDatum α :=
  { source := datum, shmem := datum, slave := datum, lastUpdate := 0 }

def lostAtOnce : List (SyncInput Nat) :=
  [.change 1, .call true (Vector.replicate 10 { now := 1, sent := 1, delivered := false })]

/-- The retry after a failed transfer reports a success that is none. -/
theorem loses_nothing_broken :
    ¬ ∀ (datum : Nat) (inputs : List (SyncInput Nat)),
      ∀ o ∈ trace syncStep (start datum) inputs, ∀ r ∈ o, r.Kept := by
  intro h
  have htrace : trace syncStep (start 0) lostAtOnce =
      [none, some { okay := true, source := 1, slave := 0 }] := rfl
  have hkept := h 0 lostAtOnce
  rw [htrace] at hkept
  exact absurd (hkept _ (List.mem_cons_of_mem _ List.mem_cons_self) _ rfl rfl) (by decide)

end SplitDatum

/-- What a call of `slave_matrix_handlers_master` reports, the matrix it hands out,
    and the byte it has received as the checksum. -/
structure MatrixReport (n : Nat) where
  okay : Bool
  matrix : Vector Byte n
  received : Option Byte

/-- Of the reports after a success that handed out a given matrix: a success hands
    out a matrix that has the checksum it has received, and a failure the matrix of
    the last success. -/
def MatrixReport.Verified {n : Nat} (build : Crc8Build) :
    Vector Byte n → List (MatrixReport n) → Prop
  | _, [] => True
  | good, r :: rs =>
    if r.okay then
      r.received = some (crc8 build r.matrix.toList) ∧ Verified build r.matrix rs
    else r.matrix = good ∧ Verified build good rs

namespace SlaveMatrix

variable {n : Nat} (build : Crc8Build)

/-- At power-on. -/
def init (n : Nat) : SlaveMatrix n where
  shmem := Vector.replicate n 0
  lastUpdate := 0
  lastMatrix := Vector.replicate n 0

/-- A step of a run of calls. -/
def readStep (s : SlaveMatrix n) (a : ReadAttempt n) : SlaveMatrix n × MatrixReport n :=
  let called := s.handlersMaster build a
  (called.2.2, { okay := called.1, matrix := called.2.1, received := a.checksum })

theorem readIfChecksumMismatch_spec (a : ReadAttempt n) (s : SlaveMatrix n)
    (h : (s.readIfChecksumMismatch build a).1) :
    a.checksum = some (crc8 build (s.readIfChecksumMismatch build a).2.1.toList) := by
  unfold readIfChecksumMismatch at h ⊢
  cases hchecksum : a.checksum with
  | none =>
    rw [hchecksum] at h
    exact Bool.noConfusion h
  | some currChecksum =>
    simp only [hchecksum] at h ⊢
    by_cases htransfer : SplitDatum.forcedSyncThrottleMs ≤ (a.now - s.lastUpdate).toNat ∨
        currChecksum ≠ crc8 build s.shmem.toList
    · rw [if_pos htransfer] at h ⊢
      -- what is checked is the shared memory, and that is what was delivered
      obtain ⟨hdelivered, hcheck⟩ := Bool.and_eq_true_iff.mp h
      simp only [hdelivered, if_true]
      exact congrArg some (eq_of_beq hcheck)
    · rw [if_neg htransfer]
      rw [not_or, not_not] at htransfer
      exact congrArg some htransfer.2

theorem handlersMaster_spec (a : ReadAttempt n) (s : SlaveMatrix n) :
    let called := s.handlersMaster build a
    called.2.2.lastMatrix = called.2.1 ∧
      (called.1 → a.checksum = some (crc8 build called.2.1.toList)) ∧
      (called.1 = false → called.2.1 = s.lastMatrix) := by
  dsimp only
  have hread := s.readIfChecksumMismatch_spec build a
  unfold handlersMaster
  dsimp only
  refine ⟨rfl, fun hokay => ?_, fun hfailed => ?_⟩
  · rw [if_pos hokay]
    exact hread hokay
  · rw [hfailed, if_neg Bool.false_ne_true]

theorem verified_from (attempts : List (ReadAttempt n)) :
    ∀ s : SlaveMatrix n,
      MatrixReport.Verified build s.lastMatrix (trace (readStep build) s attempts) := by
  induction attempts with
  | nil =>
    intro s
    trivial
  | cons a attempts ih =>
    intro s
    -- what is kept as the last matrix is what a failure will hand out
    obtain ⟨hkept, hgood, hbad⟩ := s.handlersMaster_spec build a
    have hrest := ih (s.handlersMaster build a).2.2
    rw [hkept] at hrest
    simp only [trace, readStep, MatrixReport.Verified]
    cases hokay : (s.handlersMaster build a).1 with
    | true =>
      rw [if_pos rfl]
      exact ⟨hgood hokay, hrest⟩
    | false =>
      rw [if_neg Bool.false_ne_true]
      rw [hbad hokay] at hrest ⊢
      exact ⟨rfl, hrest⟩

/-- In every run of calls, whatever arrives and whatever fails, a success hands out a
    matrix that has the checksum it has received, and a failure what the last success
    handed out, or zeros. -/
theorem slave_matrix_verified (n : Nat) (attempts : List (ReadAttempt n)) :
    MatrixReport.Verified build (Vector.replicate n 0)
      (trace (readStep build) (init n) attempts) :=
  verified_from build attempts (init n)

end SlaveMatrix

end K530
