import K530.Quantum.Debounce
import Mathlib.Data.List.Chain

/-!
# Counters That Count Down Together

The counters of a debounce algorithm are brought up to date in one go, by the
time since the last call, and that time is kept in thirty-two bits and cut down
to eight. Neither matters as long as two calls are less than 2^32 milliseconds
apart: a counter that is due at some time is, after any call, that time less the
time of the call.

## Main definitions

* `Timed`: Calls in the order of time, and not too far apart.

## Theorems

* `timed_concat`, `timed_next`: One more call.
* `elapsedTime_toNat`: The time since the last call.
-/

namespace K530

/-- Times that do not decrease, each less than 2^32 after the one before it. -/
def Timed (times : List Nat) : Prop :=
  times.IsChain (fun t t' => t ≤ t' ∧ t' - t < 2 ^ 32)

theorem timed_concat (times : List Nat) (now : Nat) :
    Timed (times ++ [now]) ↔
      Timed times ∧ ∀ t ∈ times.getLast?, t ≤ now ∧ now - t < 2 ^ 32 := by
  unfold Timed
  rw [List.isChain_append]
  simp

theorem timed_next {α : Type} (time : α → Nat) (calls : List α) (c : α)
    (h : Timed ((calls ++ [c]).map time)) :
    Timed (calls.map time) ∧
      ∃ t, (∀ a ∈ calls.getLast?, time a = t) ∧ t ≤ time c ∧ time c - t < 2 ^ 32 := by
  rw [List.map_append, List.map_singleton, timed_concat] at h
  refine ⟨h.1, ?_⟩
  cases hcalls : calls.getLast? with
  | none => exact ⟨time c, by simp, Nat.le_refl _, by rw [Nat.sub_self]; decide⟩
  | some a =>
    have ha := h.2 (time a) (by rw [List.getLast?_map, hcalls]; rfl)
    exact ⟨time a, by simp, ha.1, ha.2⟩

theorem elapsedTime_toNat (t now : Nat) (hle : t ≤ now) (hgap : now - t < 2 ^ 32) :
    (elapsedTime (BitVec.ofNat 32 now) (BitVec.ofNat 32 t)).toNat = min 255 (now - t) := by
  -- The timer may have wrapped around between the two, the difference has not.
  have hdiff : (BitVec.ofNat 32 now - BitVec.ofNat 32 t).toNat = now - t := by
    rw [BitVec.toNat_sub, BitVec.toNat_ofNat, BitVec.toNat_ofNat]
    omega
  unfold elapsedTime
  rw [hdiff]
  by_cases h : 255 < now - t
  · rw [if_pos h, Nat.min_eq_left (by omega)]
    rfl
  · rw [if_neg h, BitVec.toNat_setWidth, hdiff]
    omega

theorem lower_toNat (elapsed counter : Byte) :
    (lower elapsed counter).toNat = counter.toNat - elapsed.toNat := by
  unfold lower
  by_cases hzero : counter = 0
  · rw [hzero, if_neg (by decide)]
    exact (Nat.zero_sub _).symm
  · rw [if_pos (bne_iff_ne.mpr hzero)]
    by_cases hle : counter ≤ elapsed
    · rw [if_pos hle]
      exact (Nat.sub_eq_zero_of_le hle).symm
    · rw [if_neg hle]
      exact BitVec.toNat_sub_of_le (BitVec.le_of_lt (BitVec.not_le.mp hle))

theorem toNat_eq_zero (counter : Byte) : counter.toNat = 0 ↔ counter = 0 :=
  ⟨fun h => BitVec.eq_of_toNat_eq h, fun h => congrArg BitVec.toNat h⟩

theorem runsOut_iff (elapsed counter : Byte) :
    runsOut elapsed counter ↔ counter ≠ 0 ∧ lower elapsed counter = 0 := by
  unfold runsOut
  rw [Bool.and_eq_true, bne_iff_ne, decide_eq_true_iff, ← toNat_eq_zero (lower _ _), lower_toNat,
    Nat.sub_eq_zero_iff_le]
  rfl

theorem runsOn_iff (elapsed counter : Byte) :
    runsOn elapsed counter ↔ lower elapsed counter ≠ 0 := by
  unfold runsOn
  rw [Bool.and_eq_true, bne_iff_ne, decide_eq_true_iff, ne_eq (lower _ _),
    ← toNat_eq_zero (lower _ _), lower_toNat, Nat.sub_eq_zero_iff_le, Nat.not_le, ne_eq,
    ← toNat_eq_zero]
  constructor
  · exact fun h => h.2
  · exact fun h => ⟨by omega, h⟩

theorem lower_due (t now due : Nat) (counter : Byte) (hle : t ≤ now) (hgap : now - t < 2 ^ 32)
    (h : counter.toNat = due - t) :
    (lower (elapsedTime (BitVec.ofNat 32 now) (BitVec.ofNat 32 t)) counter).toNat = due - now := by
  -- Time that is cut down to 255 is still enough for any counter to run out.
  have hcounter := counter.isLt
  rw [lower_toNat, elapsedTime_toNat t now hle hgap, h]
  omega

theorem elapsedTime_zero (t now : Nat) (hle : t ≤ now) (hgap : now - t < 2 ^ 32)
    (h : ¬ 0 < elapsedTime (BitVec.ofNat 32 now) (BitVec.ofNat 32 t)) : now = t := by
  have helapsed := elapsedTime_toNat t now hle hgap
  have hzero : elapsedTime (BitVec.ofNat 32 now) (BitVec.ofNat 32 t) = 0 := by
    rw [← toNat_eq_zero]
    exact Nat.eq_zero_of_not_pos h
  rw [hzero] at helapsed
  have hnat : (0 : Byte).toNat = 0 := rfl
  omega

/-! ### All counters -/

section

variable {κ : Type}

structure Running (counter : κ → Byte) (lastTime : BitVec 32) (needUpdate : Bool) (t : Nat)
    (due : κ → Nat) : Prop where
  clock : needUpdate = true → lastTime = BitVec.ofNat 32 t
  armed : ∀ k, counter k ≠ 0 → needUpdate = true
  counts : ∀ k, (counter k).toNat = due k - t

variable {counter : κ → Byte} {lastTime : BitVec 32} {t now : Nat} {due : κ → Nat}

theorem Running.zero_iff {needUpdate : Bool} (h : Running counter lastTime needUpdate t due)
    (k : κ) : counter k = 0 ↔ due k ≤ t := by
  rw [← toNat_eq_zero, h.counts k]
  omega

theorem Running.lower [Fintype κ] (h : Running counter lastTime true t due) (hle : t ≤ now)
    (hgap : now - t < 2 ^ 32) :
    Running (fun k => lower (elapsedTime (BitVec.ofNat 32 now) lastTime) (counter k))
      (BitVec.ofNat 32 now)
      (decide (∃ k, runsOn (elapsedTime (BitVec.ofNat 32 now) lastTime) (counter k) = true))
      now due := by
  rw [h.clock rfl]
  -- A counter that is not at zero afterwards is one that goes on running.
  exact ⟨fun _ => rfl, fun k hk => decide_eq_true ⟨k, (runsOn_iff _ _).mpr hk⟩,
    fun k => lower_due t now (due k) _ hle hgap (h.counts k)⟩

theorem Running.still (h : Running counter lastTime true t due) (hle : t ≤ now)
    (hgap : now - t < 2 ^ 32) (helapsed : ¬ 0 < elapsedTime (BitVec.ofNat 32 now) lastTime) :
    Running counter (BitVec.ofNat 32 now) true now due := by
  rw [h.clock rfl] at helapsed
  have hsame := elapsedTime_zero t now hle hgap helapsed
  exact ⟨fun _ => rfl, h.armed, fun k => by rw [hsame, h.counts k]⟩

theorem Running.idle (h : Running counter lastTime false t due) (hle : t ≤ now) :
    Running counter lastTime false now due := by
  refine ⟨fun hneed => absurd hneed Bool.false_ne_true, h.armed, fun k => ?_⟩
  have hzero : counter k = 0 := by
    by_contra hk
    exact Bool.false_ne_true (h.armed k hk)
  have hdue := (h.zero_iff k).mp hzero
  rw [hzero]
  exact (Nat.sub_eq_zero_of_le (Nat.le_trans hdue hle)).symm

theorem Running.clocked {needUpdate : Bool} (h : Running counter lastTime needUpdate now due) :
    Running counter (BitVec.ofNat 32 now) needUpdate now due :=
  ⟨fun _ => rfl, h.armed, h.counts⟩

end

end K530
