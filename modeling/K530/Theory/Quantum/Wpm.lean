import K530.Lib.Run
import K530.Quantum.Wpm
import Mathlib.Algebra.Order.Ring.Abs

/-!
# Smoothing Goes Too Far

What is shown lies between the rate before and the rate now as long as the way is
not more than all of it. The way is measured by a latency of a hundred
milliseconds at most, but for one call: the one in which the latency is found to
be over works out a new rate and uses the latency that is over all the same. It
goes too far, by as much as the call is late, and when the two rates are a
hundred apart one millisecond is enough.

A rate that goes too far is put into a byte, and may be any other.

## Main definitions

* `between_iff`: When a point is between the ends.

## Theorems

* `wpm_between`: In every state of a run of such calls.
* `wpm_between_broken`: Five presses and one call.
-/

namespace K530

open StepRun

theorem tdiv_between_iff (t d T : Int) (hT : 0 < T) (hd : 0 ≤ d) :
    (0 ≤ (t * d).tdiv T ∧ (t * d).tdiv T ≤ d) ↔ -T < t * d ∧ (t - T) * d < T := by
  have hTd : 0 ≤ T * d := Int.mul_nonneg (Int.le_of_lt hT) hd
  rw [Int.sub_mul]
  rcases Int.lt_or_le (t * d) 0 with hneg | hnonneg
  · -- the way back counts only in whole steps
    have hback : (t * d).tdiv T = -(-(t * d) / T) := by
      rw [← Int.tdiv_eq_ediv_of_nonneg (by omega), Int.neg_tdiv, Int.neg_neg]
    have hsteps : 0 ≤ -(t * d) / T := Int.ediv_nonneg (by omega) (Int.le_of_lt hT)
    have hone : -(t * d) / T < 1 ↔ -(t * d) < 1 * T := Int.ediv_lt_iff_lt_mul hT
    rw [hback]
    omega
  · have hforth : (t * d).tdiv T = t * d / T := Int.tdiv_eq_ediv_of_nonneg hnonneg
    -- the way forth is too long by what is left of a step, at most
    have hsteps : 0 ≤ t * d / T := Int.ediv_nonneg hnonneg (Int.le_of_lt hT)
    have hall : t * d / T < d + 1 ↔ t * d < (d + 1) * T := Int.ediv_lt_iff_lt_mul hT
    rw [Int.add_mul, Int.one_mul, Int.mul_comm d T] at hall
    rw [hforth]
    omega

theorem between_iff (a b t T : Int) (hT : 0 < T) :
    (min a b ≤ a + (t * (b - a)).tdiv T ∧ a + (t * (b - a)).tdiv T ≤ max a b) ↔
      -T < t * |b - a| ∧ (t - T) * |b - a| < T := by
  rcases Int.le_total a b with hle | hle
  · have hiff := tdiv_between_iff t (b - a) T hT (by omega)
    rw [abs_of_nonneg (by omega), min_eq_left hle, max_eq_right hle, ← hiff]
    omega
  · -- the other way round
    have hiff := tdiv_between_iff t (a - b) T hT (by omega)
    have hturned : (t * (b - a)).tdiv T = -(t * (a - b)).tdiv T := by
      rw [← Int.neg_tdiv, ← Int.mul_neg, Int.neg_sub]
    rw [abs_of_nonpos (by omega), min_eq_right hle, max_eq_left hle, Int.neg_sub, ← hiff, hturned]
    omega

namespace Wpm

/-- What is shown is between the rate before and the rate now. -/
structure Between (w : Wpm) : Prop where
  low : min w.prev.toNat w.next.toNat ≤ w.current.toNat
  high : w.current.toNat ≤ max w.prev.toNat w.next.toNat

structure Moderate (w : Wpm) : Prop extends w.Between where
  prev_le : w.prev.toNat ≤ 240
  next_le : w.next.toNat ≤ 240

/-- The way is not back by a whole step, and not too far by one. -/
def OnTheWay (latency : Int) (a b : Byte) : Prop :=
  -wpmLatency < latency * |(b.toNat : Int) - a.toNat| ∧
    (latency - wpmLatency) * |(b.toNat : Int) - a.toNat| < wpmLatency

instance (latency : Int) (a b : Byte) : Decidable (OnTheWay latency a b) :=
  inferInstanceAs (Decidable (_ ∧ _))

theorem smooth_between (latency : BitVec 32) (w : Wpm)
    (h : OnTheWay latency.toInt w.prev w.next) :
    min w.prev.toNat w.next.toNat ≤ (w.smooth latency).toNat ∧
      (w.smooth latency).toNat ≤ max w.prev.toNat w.next.toNat := by
  have hprev := w.prev.isLt
  have hnext := w.next.isLt
  have hpoint := (between_iff w.prev.toNat w.next.toNat latency.toInt wpmLatency (by decide)).mpr h
  have hway : (BitVec.ofInt 32 ((w.next.toNat : Int) - w.prev.toNat)).toInt =
      w.next.toNat - w.prev.toNat := by
    rw [BitVec.toInt_ofInt]
    exact Int.bmod_eq_of_le (by omega) (by omega)
  -- on the way the product does not come round
  have hproduct : (latency * BitVec.ofInt 32 ((w.next.toNat : Int) - w.prev.toNat)).toInt =
      latency.toInt * (w.next.toNat - w.prev.toNat) := by
    have hsmall : |(w.next.toNat : Int) - w.prev.toNat| ≤ 255 := by
      rw [abs_le]
      omega
    have hbound : |latency.toInt * ((w.next.toNat : Int) - w.prev.toNat)| < 25600 := by
      have hfar := h.2
      have hnear := h.1
      rw [Int.sub_mul] at hfar
      unfold wpmLatency at hfar hnear
      have hsame : ∀ a b : Int, |a * b| = |(a * |b|)| := by
        intro a b
        rw [abs_mul, abs_mul, abs_abs]
      rw [hsame, abs_lt]
      omega
    rw [abs_lt] at hbound
    rw [BitVec.toInt_mul, hway]
    exact Int.bmod_eq_of_le (by omega) (by omega)
  unfold smooth
  dsimp only
  rw [hproduct]
  generalize (latency.toInt * ((w.next.toNat : Int) - w.prev.toNat)).tdiv wpmLatency = step at *
  have hbyte : (BitVec.ofInt 8 ((w.prev.toNat : Int) + step)).toNat = w.prev.toNat + step := by
    rw [BitVec.toNat_ofInt]
    omega
  omega

theorem wpmNow_le {c : WpmConfig} {now : BitVec 32} {w : Wpm} {rate : Byte}
    (h : w.wpmNow c now = some rate) : rate.toNat ≤ 240 := by
  unfold wpmNow at h
  dsimp only at h
  split at h
  · exact nomatch h
  · rw [← Option.some.inj h]
    split
    · exact Nat.zero_le _
    · split
      · exact Nat.le_refl _
      next hle =>
        rw [BitVec.toNat_setWidth]
        exact Nat.le_trans (Nat.mod_le _ _) (Nat.not_lt.mp hle)

/-- The two rates a call goes between: a new way begins where the last one has led
    to. -/
def ends (now : BitVec 32) (rate : Byte) (w : Wpm) : Byte × Byte :=
  if wpmLatency < (now - w.smoothingTimer).toInt then (w.current, rate) else (w.prev, w.next)

theorem turnPeriod_same (c : WpmConfig) (now : BitVec 32) (w : Wpm) :
    (w.turnPeriod c now).current = w.current ∧ (w.turnPeriod c now).prev = w.prev ∧
      (w.turnPeriod c now).next = w.next ∧
      (w.turnPeriod c now).smoothingTimer = w.smoothingTimer := by
  unfold turnPeriod
  split
  · exact ⟨rfl, rfl, rfl, rfl⟩
  · exact ⟨rfl, rfl, rfl, rfl⟩

theorem launch_same (c : WpmConfig) (presses : Int) (w : Wpm) :
    (w.launch c presses).current = w.current ∧ (w.launch c presses).prev = w.prev ∧
      (w.launch c presses).next = w.next ∧
      (w.launch c presses).smoothingTimer = w.smoothingTimer := by
  unfold launch
  split
  · exact ⟨rfl, rfl, rfl, rfl⟩
  · exact ⟨rfl, rfl, rfl, rfl⟩

theorem decayWpm_spec {c : WpmConfig} {now : BitVec 32} {w w' : Wpm}
    (h : w.decayWpm c now = some w') : ∃ rate, w.wpmNow c now = some rate ∧
      w'.prev = (w.ends now rate).1 ∧ w'.next = (w.ends now rate).2 ∧
      w'.current = w'.smooth (now - w.smoothingTimer) := by
  unfold decayWpm at h
  rw [Option.bind_eq_bind, Option.bind_eq_some_iff] at h
  rcases h with ⟨rate, hrate, h⟩
  -- the periods are turned between the two, and have no part in it
  rcases turnPeriod_same c now w with ⟨hcurrent, hprev, hnext, htimer⟩
  rcases launch_same c w.pressesInPeriods (w.turnPeriod c now) with
    ⟨hcurrent', hprev', hnext', htimer'⟩
  rw [Option.pure_def, Option.some.injEq] at h
  rw [htimer', htimer, hcurrent', hcurrent] at h
  refine ⟨rate, hrate, ?_⟩
  unfold ends
  by_cases hover : wpmLatency < (now - w.smoothingTimer).toInt
  · rw [if_pos hover] at h
    rw [if_pos hover, ← h]
    exact ⟨rfl, rfl, rfl⟩
  · rw [if_neg hover] at h
    rw [if_neg hover, ← h]
    exact ⟨hprev'.trans hprev, hnext'.trans hnext, rfl⟩

end Wpm

/-- A press, of a key that counts or takes one back, or a call of `decay_wpm`. -/
inductive WpmInput where
  | press (counts regresses : Bool)
  | decay (now : BitVec 32)

namespace Wpm

/-- A step. There is nothing after a division by zero. -/
def step (c : WpmConfig) (s : Option Wpm) : WpmInput → Option Wpm
  | .press counts regresses => s.map (updateWpm counts regresses)
  | .decay now => s.bind (decayWpm c now)

/-- The divisor of the rate is not zero, and the latency of the call does not lead
    beyond the rates it goes between. -/
def Smooth (c : WpmConfig) (s : Option Wpm) : WpmInput → Prop
  | .press _ _ => True
  | .decay now => ∀ w ∈ s, ∃ rate ∈ w.wpmNow c now,
      OnTheWay (now - w.smoothingTimer).toInt (w.ends now rate).1 (w.ends now rate).2

instance decidableSmooth (c : WpmConfig) (s : Option Wpm) :
    (input : WpmInput) → Decidable (Smooth c s input)
  | .press _ _ => inferInstanceAs (Decidable True)
  | .decay now => inferInstanceAs (Decidable (∀ w ∈ s, ∃ rate ∈ w.wpmNow c now,
      OnTheWay (now - w.smoothingTimer).toInt (w.ends now rate).1 (w.ends now rate).2))

theorem Moderate.decay {c : WpmConfig} {now : BitVec 32} {w w' : Wpm} {rate : Byte}
    (hw : w.Moderate) (h : w.decayWpm c now = some w') (hrate : w.wpmNow c now = some rate)
    (hway : OnTheWay (now - w.smoothingTimer).toInt (w.ends now rate).1 (w.ends now rate).2) :
    w'.Moderate := by
  rcases decayWpm_spec h with ⟨rate', hrate', hprev, hnext, hcurrent⟩
  obtain rfl : rate = rate' := Option.some.inj (hrate.symm.trans hrate')
  rw [← hprev, ← hnext] at hway
  have hbetween := smooth_between (now - w.smoothingTimer) w' hway
  rw [← hcurrent] at hbetween
  have hle := wpmNow_le hrate
  have hcurrent_le : w.current.toNat ≤ 240 :=
    Nat.le_trans hw.high (max_le hw.prev_le hw.next_le)
  refine ⟨⟨hbetween.1, hbetween.2⟩, ?_, ?_⟩
  · -- a new way begins at what was shown, and that was between two rates
    rw [hprev, ends]
    split
    · exact hcurrent_le
    · exact hw.prev_le
  · rw [hnext, ends]
    split
    · exact hle
    · exact hw.next_le

theorem decayWpm_isSome {c : WpmConfig} {now : BitVec 32} {w : Wpm} {rate : Byte}
    (h : w.wpmNow c now = some rate) : ∃ w', w.decayWpm c now = some w' := by
  unfold decayWpm
  rw [h]
  exact ⟨_, rfl⟩

theorem step_moderate (c : WpmConfig) (s : Option Wpm) (input : WpmInput)
    (hs : ∃ w ∈ s, w.Moderate) (hsmooth : Smooth c s input) :
    ∃ w ∈ step c s input, w.Moderate := by
  rcases hs with ⟨w, hmem, hw⟩
  obtain rfl := Option.mem_def.mp hmem
  cases input with
  | press counts regresses => exact ⟨_, rfl, ⟨⟨hw.low, hw.high⟩, hw.prev_le, hw.next_le⟩⟩
  | decay now =>
    rcases hsmooth w rfl with ⟨rate, hrate, hway⟩
    rcases decayWpm_isSome hrate with ⟨w', hw'⟩
    exact ⟨w', hw', hw.decay hw' hrate hway⟩

theorem init_moderate : ∃ w ∈ some init, w.Moderate :=
  ⟨init, rfl, ⟨⟨Nat.le_refl _, Nat.le_refl _⟩, Nat.zero_le _, Nat.zero_le _⟩⟩

end Wpm

/-- In every state of a run whose calls are defined and do not go too far, what is
    shown is between the rate before and the rate now, and not more than 240. -/
theorem wpm_between (c : WpmConfig) (inputs : List WpmInput)
    (hsmooth : Along (Wpm.step c) (Wpm.Smooth c) (some Wpm.init) inputs) :
    Always (Wpm.step c) (fun s => ∃ w ∈ s, w.Between ∧ w.current.toNat ≤ 240) (some Wpm.init)
      inputs := by
  refine always_of_along (Wpm.step c) (Wpm.Smooth c) (fun s => ∃ w ∈ s, w.Moderate) _ ?_ ?_ inputs
    (some Wpm.init) Wpm.init_moderate hsmooth
  · rintro s ⟨w, hw, hmoderate⟩
    exact ⟨w, hw, hmoderate.toBetween,
      Nat.le_trans hmoderate.high (max_le hmoderate.prev_le hmoderate.next_le)⟩
  · exact fun s input hs hC => Wpm.step_moderate c s input hs hC

/-- The numbers of `wpm.h`. -/
def wpmDefaults : WpmConfig where
  maxPeriods := 50
  sampleSeconds := 5
  wordSize := 5
  launchControl := false
  periods_range := by decide

/-- A press and a call, twice, a hundred and one milliseconds apart. -/
def twoCalls : List WpmInput :=
  [.press true false, .decay 101, .press true false, .decay 202]

theorem wpm_between_two :
    Along (Wpm.step wpmDefaults) (Wpm.Smooth wpmDefaults) (some Wpm.init) twoCalls ∧
      Always (Wpm.step wpmDefaults) (fun s => ∃ w ∈ s, w.Between ∧ w.current.toNat ≤ 240)
        (some Wpm.init) twoCalls :=
  have hsmooth :
      Along (Wpm.step wpmDefaults) (Wpm.Smooth wpmDefaults) (some Wpm.init) twoCalls := by
    decide +kernel
  ⟨hsmooth, wpm_between wpmDefaults twoCalls hsmooth⟩

def lateCall : List WpmInput :=
  List.replicate 5 (.press true false) ++ [.decay 101]

/-- What is shown is 242. -/
theorem wpm_between_broken :
    ¬ ∀ (c : WpmConfig) (inputs : List WpmInput),
      Always (Wpm.step c) (fun s => ∃ w ∈ s, w.Between ∧ w.current.toNat ≤ 240) (some Wpm.init)
        inputs := by
  intro h
  have hlast := (always_iff_visited (Wpm.step wpmDefaults) _ lateCall (some Wpm.init)).mp
    (h wpmDefaults lateCall) lateCall [] (List.append_nil _).symm
  rcases hlast with ⟨w, hw, _, hle⟩
  have hshown : (run (Wpm.step wpmDefaults) (some Wpm.init) lateCall).map Wpm.current =
      some 242 := by
    decide +kernel
  rw [Option.mem_def.mp hw, Option.map_some, Option.some.injEq] at hshown
  rw [hshown] at hle
  exact absurd hle (by decide)

end K530
