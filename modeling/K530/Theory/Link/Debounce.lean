import K530.Lib.Recent
import K530.Theory.Link.HostSlot

/-!
# What the Debouncers Wait For

Each of the three debouncers keeps counters, and each counter is the length of a
streak of equal readings, cut off at a threshold. That is the invariant, and what a
debouncer does is then a property of the readings alone: it changes its mind when
the last so many of them agree against it.

The selector detects a position by two readings of its line. The pair that names
none is taken for the slot it is committed to, so what it detects depends on where
it stands. It commits at the hundred and fifty-second detection in a row, since the
first of them makes the candidate and is not counted, and the count has to reach a
hundred and fifty before the one that commits. The toggle flips at the eighteenth
reading in a row, the charging pin at the tenth.

## Main definitions

* `slotPoll`: A poll of the selector, with what it detects.

## Theorems

* `host_slot_settles`: When the selector commits, and what it answers.
* `debouncers_flip`: When the toggle and the charging state flip.
-/

namespace K530

namespace Debounce

open StepRun
open Streak
open Link

/-! ### The host selector -/

/-- A poll of the selector, its line read with the drive line high and low. It
    answers with the position detected, and with whether the slot changed. -/
def slotPoll (s : Selector) (reading : Bool × Bool) : Selector × (HostSlot × Bool) :=
  let polled := pollHostSlot reading.1 reading.2 s
  (polled.1, (Selector.detect reading.1 reading.2 s.stable, polled.2))

/-- The selector after some polls. -/
def slotAfter (readings : List (Bool × Bool)) : Selector :=
  run (next slotPoll) Selector.reset readings

/-- The positions detected by them. -/
def detections (readings : List (Bool × Bool)) : List HostSlot :=
  (trace slotPoll Selector.reset readings).map Prod.fst

/-- Whether the poll after them answers that the slot changed. -/
def slotChanged (readings : List (Bool × Bool)) (reading : Bool × Bool) : Bool :=
  (slotPoll (slotAfter readings) reading).2.2

def detected (readings : List (Bool × Bool)) (reading : Bool × Bool) : HostSlot :=
  Selector.detect reading.1 reading.2 (slotAfter readings).stable

variable (readings : List (Bool × Bool)) (reading : Bool × Bool)

theorem slotAfter_concat :
    slotAfter (readings ++ [reading]) =
      (settleHostSlot (detected readings reading) (slotAfter readings)).1 :=
  run_concat _ _ _ _

theorem slotChanged_eq :
    slotChanged readings reading =
      (settleHostSlot (detected readings reading) (slotAfter readings)).2 :=
  rfl

theorem detections_concat :
    detections (readings ++ [reading]) = detections readings ++ [detected readings reading] := by
  unfold detections
  rw [trace_append, List.map_append]
  rfl

/-- The selector rests where it was last found, and has counted how often it was found
    there, unless it is committed to that slot. -/
structure Resting (s : Selector) (found : List HostSlot) : Prop where
  last : ∀ d ∈ found.getLast?, s.candidate = d
  first : found = [] → s.candidate = s.stable
  settled : s.candidate = s.stable → s.counter = 0
  counted : s.candidate ≠ s.stable →
    streak (· == s.candidate) found = s.counter + 1 ∧ s.counter ≤ Selector.settlePolls

theorem resting_reset : Resting Selector.reset [] where
  last := by simp
  first _ := rfl
  settled _ := rfl
  counted h := absurd rfl h

theorem Resting.streak_ne {s : Selector} {found : List HostSlot} (h : Resting s found)
    {d : HostSlot} (hd : d ≠ s.candidate) : streak (· == d) found = 0 := by
  refine streak_eq_zero _ found (fun last hlast => ?_)
  rw [← h.last last hlast, beq_eq_false_iff_ne]
  exact hd.symm

theorem Resting.settle {s : Selector} {found : List HostSlot} (h : Resting s found)
    (d : HostSlot) : Resting (settleHostSlot d s).1 (found ++ [d]) := by
  have hself := streak_self found d
  unfold settleHostSlot
  by_cases hcandidate : d = s.candidate
  · rw [if_neg (not_not_intro hcandidate)]
    subst hcandidate
    by_cases hstable : s.candidate = s.stable
    · rw [if_neg (not_not_intro hstable)]
      exact ⟨by simp, by simp, fun _ => rfl, fun hne => absurd hstable hne⟩
    · rw [if_pos hstable]
      have hcounted := h.counted hstable
      by_cases hmore : s.counter < Selector.settlePolls
      · rw [if_pos hmore]
        refine ⟨by simp, by simp, fun heq => absurd heq hstable, fun _ => ?_⟩
        dsimp only
        rw [hself, hcounted.1]
        exact ⟨rfl, hmore⟩
      · rw [if_neg hmore]
        exact ⟨by simp, by simp, fun _ => rfl, fun hne => absurd rfl hne⟩
  · rw [if_pos hcandidate]
    refine ⟨by simp, by simp, fun _ => rfl, fun _ => ?_⟩
    dsimp only
    rw [hself, h.streak_ne hcandidate]
    exact ⟨rfl, Nat.zero_le _⟩

theorem resting_slotAfter : Resting (slotAfter readings) (detections readings) := by
  induction readings using List.reverseRecOn with
  | nil => exact resting_reset
  | append_singleton readings reading ih =>
    rw [slotAfter_concat, detections_concat]
    exact ih.settle _

theorem Resting.commits_iff {s : Selector} {found : List HostSlot} (h : Resting s found)
    (d slot : HostSlot) (hother : s.stable ≠ slot) :
    (settleHostSlot d s).1.stable = slot ↔ LastAll (· == slot) 152 (found ++ [d]) := by
  rw [lastAll_iff]
  by_cases hd : d = slot
  · subst hd
    rw [streak_self]
    unfold settleHostSlot
    by_cases hcandidate : d = s.candidate
    · rw [if_neg (not_not_intro hcandidate), if_pos hother.symm]
      subst hcandidate
      have hcounted := h.counted hother.symm
      rw [hcounted.1]
      by_cases hmore : s.counter < Selector.settlePolls
      · rw [if_pos hmore]
        unfold Selector.settlePolls at hmore
        exact iff_of_false hother (by omega)
      · rw [if_neg hmore]
        unfold Selector.settlePolls at hmore
        exact iff_of_true rfl (by omega)
    · rw [if_pos hcandidate, h.streak_ne hcandidate]
      exact iff_of_false hother (by omega)
  · rw [streak_other found d slot hd]
    refine iff_of_false (fun hcommit => ?_) (by omega)
    -- what it does not detect it does not commit
    rcases settleHostSlot_spec d s with ⟨hkept, -⟩ | ⟨-, -, -, hnew, -⟩
    · exact hother (hkept.symm.trans hcommit)
    · exact hd (hnew.symm.trans hcommit)

theorem settleHostSlot_changed_iff (d : HostSlot) (s : Selector)
    (hd : s.stable ≠ .unknown → d ≠ .unknown) :
    (settleHostSlot d s).2 ↔
      s.stable ≠ .unknown ∧ (settleHostSlot d s).1.stable ≠ .unknown ∧
        s.stable ≠ (settleHostSlot d s).1.stable := by
  unfold settleHostSlot
  by_cases hcandidate : d ≠ s.candidate
  · simp [hcandidate]
  · rw [if_neg hcandidate]
    by_cases hstable : d ≠ s.stable
    · rw [if_pos hstable]
      by_cases hmore : s.counter < Selector.settlePolls
      · simp [hmore]
      · rw [if_neg hmore]
        simp only [decide_eq_true_eq]
        exact ⟨fun hknown => ⟨hknown, hd hknown, hstable.symm⟩, And.left⟩
    · simp [hstable]

theorem detected_known (h : (slotAfter readings).stable ≠ .unknown) :
    detected readings reading ≠ .unknown := by
  unfold detected
  rcases reading with ⟨hi, lo⟩
  cases hi <;> cases lo <;> simp [Selector.detect, h]

/-- The selector becomes committed to a slot exactly at a poll that is the last of a
    hundred and fifty-two to detect it in a row, and a poll answers that the slot changed
    exactly when a known slot has taken the place of another known one. -/
theorem host_slot_settles (readings : List (Bool × Bool)) (reading : Bool × Bool) :
    (∀ slot, (slotAfter readings).stable ≠ slot ∧
          (slotAfter (readings ++ [reading])).stable = slot ↔
        (slotAfter readings).stable ≠ slot ∧
          LastAll (· == slot) 152 (detections (readings ++ [reading]))) ∧
      (slotChanged readings reading = true ↔
        (slotAfter readings).stable ≠ .unknown ∧
          (slotAfter (readings ++ [reading])).stable ≠ .unknown ∧
          (slotAfter readings).stable ≠ (slotAfter (readings ++ [reading])).stable) := by
  rw [slotAfter_concat, detections_concat, slotChanged_eq]
  refine ⟨fun slot => and_congr_right (fun hother => ?_), ?_⟩
  · exact (resting_slotAfter readings).commits_iff _ slot hother
  · exact settleHostSlot_changed_iff _ _ (detected_known readings reading)

/-! ### The Bluetooth toggle and the charging pin -/

/-- The toggle after these levels of its line. -/
def toggleAfter (levels : List Bool) : Toggle :=
  run (next (fun t level => pollBtToggle level t)) Toggle.reset levels

/-- The charging state after these readings of its pin. -/
def chargeAfter (readings : List Bool) : Charge :=
  run (fun c reading => pollCharge reading c) Charge.reset readings

/-- Whether the poll after these levels answers that the toggle changed. -/
def toggleChanged (levels : List Bool) (level : Bool) : Bool :=
  (pollBtToggle level (toggleAfter levels)).2

theorem toggleAfter_concat (levels : List Bool) (level : Bool) :
    toggleAfter (levels ++ [level]) = (pollBtToggle level (toggleAfter levels)).1 :=
  run_concat _ _ _ _

theorem chargeAfter_concat (readings : List Bool) (reading : Bool) :
    chargeAfter (readings ++ [reading]) = pollCharge reading (chargeAfter readings) :=
  run_concat _ _ _ _

structure CountsLevels (t : Toggle) (levels : List Bool) : Prop where
  hi : t.hi = min (streak (· == true) levels) 17
  lo : t.lo = min (streak (· == false) levels) 17
  prev : t.prev = t.enabled

/-- The counters of the charging pin are the streaks of its readings, up to ten, and
    the state is what the full one says. -/
structure CountsReadings (c : Charge) (readings : List Bool) : Prop where
  on : c.cntOn = min (streak (· == true) readings) 10
  off : c.cntOff = min (streak (· == false) readings) 10
  charging : c.cntOn = 10 → c.stable = true
  discharging : c.cntOff = 10 → c.stable = false

theorem CountsLevels.poll {t : Toggle} {levels : List Bool} (h : CountsLevels t levels)
    (level : Bool) : CountsLevels (pollBtToggle level t).1 (levels ++ [level]) := by
  obtain ⟨hhi, hlo, -⟩ := h
  generalize hhighs : streak (· == true) levels = highs at hhi
  generalize hlows : streak (· == false) levels = lows at hlo
  unfold pollBtToggle Toggle.threshold
  cases level with
  | true =>
    refine ⟨?_, ?_, rfl⟩
    · rw [streak_self, hhighs]
      by_cases hfull : t.hi > 16
      · rw [if_pos rfl, if_pos hfull]
        dsimp only
        omega
      · rw [if_pos rfl, if_neg hfull]
        dsimp only
        omega
    · rw [streak_other _ _ _ (by decide)]
      by_cases hfull : t.hi > 16 <;> simp [hfull]
  | false =>
    refine ⟨?_, ?_, rfl⟩
    · rw [streak_other _ _ _ (by decide)]
      by_cases hfull : t.lo > 16 <;> simp [hfull]
    · rw [streak_self, hlows]
      by_cases hfull : t.lo > 16
      · rw [if_neg Bool.false_ne_true, if_pos hfull]
        dsimp only
        omega
      · rw [if_neg Bool.false_ne_true, if_neg hfull]
        dsimp only
        omega

theorem counts_toggleAfter (levels : List Bool) : CountsLevels (toggleAfter levels) levels := by
  induction levels using List.reverseRecOn with
  | nil => exact ⟨rfl, rfl, rfl⟩
  | append_singleton levels level ih =>
    rw [toggleAfter_concat]
    exact ih.poll level

theorem CountsReadings.poll {c : Charge} {readings : List Bool} (h : CountsReadings c readings)
    (reading : Bool) : CountsReadings (pollCharge reading c) (readings ++ [reading]) := by
  obtain ⟨hon, hoff, hcharging, hdischarging⟩ := h
  generalize hons : streak (· == true) readings = ons at hon
  generalize hoffs : streak (· == false) readings = offs at hoff
  unfold pollCharge Charge.debounce
  cases reading with
  | true =>
    rw [if_pos rfl]
    by_cases hmore : c.cntOn < 10
    · rw [if_pos hmore]
      refine ⟨?_, ?_, fun hfull => if_pos (Nat.le_of_eq hfull.symm), fun hfull => ?_⟩
      · rw [streak_self, hons]
        dsimp only
        omega
      · rw [streak_other _ _ _ (by decide)]
        rfl
      · exact absurd hfull (Nat.zero_ne_add_one 9)
    · rw [if_neg hmore]
      refine ⟨?_, ?_, hcharging, fun hfull => ?_⟩
      · rw [streak_self, hons]
        dsimp only
        omega
      · rw [streak_other _ _ _ (by decide)]
        rfl
      · exact absurd hfull (Nat.zero_ne_add_one 9)
  | false =>
    rw [if_neg Bool.false_ne_true]
    by_cases hmore : c.cntOff < 10
    · rw [if_pos hmore]
      refine ⟨?_, ?_, fun hfull => ?_, fun hfull => if_pos (Nat.le_of_eq hfull.symm)⟩
      · rw [streak_other _ _ _ (by decide)]
        rfl
      · rw [streak_self, hoffs]
        dsimp only
        omega
      · exact absurd hfull (Nat.zero_ne_add_one 9)
    · rw [if_neg hmore]
      refine ⟨?_, ?_, fun hfull => ?_, hdischarging⟩
      · rw [streak_other _ _ _ (by decide)]
        rfl
      · rw [streak_self, hoffs]
        dsimp only
        omega
      · exact absurd hfull (Nat.zero_ne_add_one 9)

theorem counts_chargeAfter (readings : List Bool) :
    CountsReadings (chargeAfter readings) readings := by
  induction readings using List.reverseRecOn with
  | nil => exact ⟨rfl, rfl, fun h => absurd h (by decide), fun h => absurd h (by decide)⟩
  | append_singleton readings reading ih =>
    rw [chargeAfter_concat]
    exact ih.poll reading

theorem CountsLevels.flips_iff {t : Toggle} {levels : List Bool} (h : CountsLevels t levels)
    (level : Bool) : (pollBtToggle level t).1.enabled ≠ t.enabled ↔
      LastAll (fun level => (!level) == !t.enabled) 18 (levels ++ [level]) := by
  obtain ⟨hhi, hlo, -⟩ := h
  have hsame : (fun level => (!level) == !t.enabled) = (· == t.enabled) := by
    funext level
    cases level <;> cases t.enabled <;> rfl
  rw [hsame, lastAll_iff]
  generalize hhighs : streak (· == true) levels = highs at hhi
  generalize hlows : streak (· == false) levels = lows at hlo
  unfold pollBtToggle Toggle.threshold
  cases level with
  | true =>
    rw [if_pos rfl]
    cases hon : t.enabled with
    | true =>
      rw [streak_self, hhighs]
      by_cases hfull : t.hi > 16
      · rw [if_pos hfull]
        exact iff_of_true Bool.false_ne_true (by omega)
      · rw [if_neg hfull]
        exact iff_of_false (not_not_intro rfl) (by omega)
    | false =>
      rw [streak_other _ _ _ (by decide)]
      by_cases hfull : t.hi > 16 <;> simp [hfull]
  | false =>
    rw [if_neg Bool.false_ne_true]
    cases hon : t.enabled with
    | true =>
      rw [streak_other _ _ _ (by decide)]
      by_cases hfull : t.lo > 16 <;> simp [hfull]
    | false =>
      rw [streak_self, hlows]
      by_cases hfull : t.lo > 16
      · rw [if_pos hfull]
        exact iff_of_true Bool.false_ne_true.symm (by omega)
      · rw [if_neg hfull]
        exact iff_of_false (not_not_intro rfl) (by omega)

theorem CountsReadings.flips_iff {c : Charge} {readings : List Bool}
    (h : CountsReadings c readings) (reading : Bool) :
    (pollCharge reading c).stable ≠ c.stable ↔
      LastAll (· == !c.stable) 10 (readings ++ [reading]) := by
  obtain ⟨hon, hoff, hcharging, hdischarging⟩ := h
  rw [lastAll_iff]
  generalize hons : streak (· == true) readings = ons at hon
  generalize hoffs : streak (· == false) readings = offs at hoff
  unfold pollCharge Charge.debounce
  cases reading with
  | true =>
    rw [if_pos rfl]
    cases hstable : c.stable with
    | true =>
      rw [Bool.not_true, streak_other _ _ _ (by decide)]
      by_cases hmore : c.cntOn < 10 <;> simp [hmore]
    | false =>
      have hmore : c.cntOn < 10 := by
        have hnot : c.cntOn ≠ 10 := fun hfull =>
          Bool.false_ne_true (hstable.symm.trans (hcharging hfull))
        omega
      rw [Bool.not_false, streak_self, hons, if_pos hmore]
      by_cases hfull : c.cntOn + 1 ≥ 10
      · simp [hfull]
        omega
      · simp [hfull]
        omega
  | false =>
    rw [if_neg Bool.false_ne_true]
    cases hstable : c.stable with
    | true =>
      have hmore : c.cntOff < 10 := by
        have hnot : c.cntOff ≠ 10 := fun hfull =>
          Bool.false_ne_true ((hdischarging hfull).symm.trans hstable)
        omega
      rw [Bool.not_true, streak_self, hoffs, if_pos hmore]
      by_cases hfull : c.cntOff + 1 ≥ 10
      · simp [hfull]
        omega
      · simp [hfull]
        omega
    | false =>
      rw [Bool.not_false, streak_other _ _ _ (by decide)]
      by_cases hmore : c.cntOff < 10 <;> simp [hmore]

/-- The toggle flips exactly with the last of eighteen readings in a row against it, and
    only then does its poll answer that it changed. The charging state flips exactly with
    the last of ten against it. A low line is the toggle on. -/
theorem debouncers_flip (samples : List Bool) (sample : Bool) :
    ((toggleAfter (samples ++ [sample])).enabled ≠ (toggleAfter samples).enabled ↔
        LastAll (fun level => (!level) == !(toggleAfter samples).enabled) 18
          (samples ++ [sample])) ∧
      (toggleChanged samples sample = true ↔
        (toggleAfter (samples ++ [sample])).enabled ≠ (toggleAfter samples).enabled) ∧
      ((chargeAfter (samples ++ [sample])).stable ≠ (chargeAfter samples).stable ↔
        LastAll (· == !(chargeAfter samples).stable) 10 (samples ++ [sample])) := by
  have hlevels := counts_toggleAfter samples
  have hreadings := counts_chargeAfter samples
  rw [toggleAfter_concat, chargeAfter_concat]
  refine ⟨hlevels.flips_iff sample, ?_, hreadings.flips_iff sample⟩
  obtain ⟨-, hchanged, -⟩ := pollBtToggle_spec sample (toggleAfter samples)
  unfold toggleChanged
  rw [hchanged, hlevels.prev, bne_iff_ne]

end Debounce

end K530
