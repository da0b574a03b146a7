import K530.Theory.Debounce.Phases

/-!
# The Asymmetric Debouncer

Every key goes through its four phases by itself. Its counter is due when the
lock or the release is over, and in the other phases it is at zero. What else a
phase says of the state tells the call what to do with the key: whether the key
counts as down, what the counter runs for, and what the key was last found.

A call that does not look at the matrix leaves out no key. Nothing has changed in
it, so a key that is up or down is still found so, and no lock is over, or else
`matrix_need_update` would have been set. So none of the keys would be touched.

## Main definitions

* `AsymPhase.due`: When the counter of a phase is due.

## Theorems

* `asym_eager_defer_pk_law`: The law.
* `asym_eager_defer_pk_broken`: Why two calls have to be less than 2^32
  milliseconds apart.
-/

namespace K530

def AsymPhase.due : AsymPhase → Nat
  | up => 0
  | locked due => due
  | down => 0
  | releasing due => due

namespace AsymCounter

theorem byte_toNat (c : AsymCounter) : c.byte.toNat = c.time.toNat := by
  unfold byte
  rw [BitVec.toNat_setWidth]
  have hlt := c.time.isLt
  omega

theorem byte_eq_zero (c : AsymCounter) : c.byte = 0 ↔ c.time = 0 := by
  rw [← toNat_eq_zero, byte_toNat]
  exact ⟨fun h => BitVec.eq_of_toNat_eq h, fun h => congrArg BitVec.toNat h⟩

theorem lower_byte (elapsed : Byte) (c : AsymCounter) :
    (c.lower elapsed).byte = K530.lower elapsed c.byte := by
  apply BitVec.eq_of_toNat_eq
  have hlt := c.time.isLt
  rw [byte_toNat]
  unfold lower
  rw [BitVec.toNat_setWidth, lower_toNat, byte_toNat]
  omega

end AsymCounter

namespace Asym

variable {κ : Type} [Fintype κ]

def RunsTo (s : Asym κ) (t : Nat) (due : κ → Nat) : Prop :=
  Running (fun k => (s.counter k).byte) s.lastTime s.countersNeedUpdate t due

def Agrees (s : Asym κ) (last : κ → Bool) (t : Nat) (k : κ) : AsymPhase → Prop
  | .up => s.cooked k = false ∧ last k = false
  | .locked due => s.cooked k = true ∧ (s.counter k).pressed = true ∧ t < due
  | .down => s.cooked k = true ∧ last k = true
  | .releasing due =>
    s.cooked k = true ∧ (s.counter k).pressed = false ∧ last k = false ∧ t < due

def Caught (s : Asym κ) (raw : κ → Bool) (now : Nat) (k : κ) : AsymPhase → Prop
  | .up => s.cooked k = false
  | .locked _ => s.cooked k = true ∧ (s.counter k).pressed = true
  | .down => s.cooked k = true
  | .releasing due =>
    (s.counter k).pressed = false ∧ s.cooked k = if due ≤ now then raw k else true

/-! ### A call -/

theorem catchUp_spec (s : Asym κ) (raw : κ → Bool) (t now : Nat) (due : κ → Nat)
    (hle : t ≤ now) (hgap : now - t < 2 ^ 32) (hruns : s.RunsTo t due) :
    ∀ s₁, s₁ = s.catchUp (BitVec.ofNat 32 now) raw →
      s₁.RunsTo now due ∧
      (∀ k, s₁.cooked k =
        if ((s.counter k).byte ≠ 0 ∧ due k ≤ now) ∧ (s.counter k).pressed = false then raw k
        else s.cooked k) ∧
      (∀ k, (s₁.counter k).pressed = (s.counter k).pressed) ∧
      (s.countersNeedUpdate → s₁.lastTime = BitVec.ofNat 32 now) ∧
      ∀ k, (s.counter k).byte ≠ 0 ∧ due k ≤ now → (s.counter k).pressed →
        s₁.matrixNeedUpdate := by
  intro s₁ hs₁
  unfold RunsTo at hruns ⊢
  unfold catchUp at hs₁
  by_cases hneed : s.countersNeedUpdate
  · rw [hneed] at hruns
    rw [if_pos hneed] at hs₁
    dsimp only at hs₁
    by_cases helapsed : 0 < elapsedTime (BitVec.ofNat 32 now) s.lastTime
    · rw [if_pos helapsed] at hs₁
      subst hs₁
      have hlower := hruns.lower hle hgap
      have hout : ∀ k, runsOut (elapsedTime (BitVec.ofNat 32 now) s.lastTime)
          (s.counter k).byte ↔ (s.counter k).byte ≠ 0 ∧ due k ≤ now := by
        intro k
        rw [runsOut_iff]
        exact and_congr_right (fun _ => hlower.zero_iff k)
      -- a release is taken over at once, and a press has the matrix looked at
      refine ⟨?_, fun k => ?_, fun k => rfl, fun _ => rfl, fun k hk hpressed => ?_⟩
      · simp only [updateDebounceCountersAndTransferIfExpired, AsymCounter.lower_byte]
        exact hlower
      · refine if_congr ?_ rfl rfl
        rw [Bool.and_eq_true, hout k, Bool.not_eq_true']
      · exact decide_eq_true ⟨k, (hout k).mpr hk, hpressed⟩
    · -- Within the same millisecond nothing runs out.
      rw [if_neg helapsed] at hs₁
      subst hs₁
      have hstill := hruns.still hle hgap helapsed
      have hnone : ∀ k, ¬ ((s.counter k).byte ≠ 0 ∧ due k ≤ now) :=
        fun k h => h.1 ((hstill.zero_iff k).mpr h.2)
      refine ⟨?_, fun k => (if_neg (fun h => hnone k h.1)).symm, fun k => rfl, fun _ => rfl,
        fun k hk => absurd hk (hnone k)⟩
      dsimp only
      rw [hneed]
      exact hstill
  · -- None is running.
    rw [if_neg hneed] at hs₁
    subst hs₁
    rw [Bool.not_eq_true] at hneed
    rw [hneed] at hruns ⊢
    have hidle := hruns.idle hle
    have hnone : ∀ k, ¬ ((s₁.counter k).byte ≠ 0 ∧ due k ≤ now) :=
      fun k h => h.1 ((hidle.zero_iff k).mpr h.2)
    exact ⟨hidle, fun k => (if_neg (fun h => hnone k h.1)).symm, fun k => rfl,
      fun h => absurd h Bool.false_ne_true, fun k hk => absurd hk (hnone k)⟩

omit [Fintype κ] in
theorem clocked_spec (s s₁ : Asym κ) (now : Nat) (due : κ → Nat) (hruns : s₁.RunsTo now due)
    (hlast : s.countersNeedUpdate → s₁.lastTime = BitVec.ofNat 32 now) :
    ∀ s₂, s₂ = (if s.countersNeedUpdate = true then s₁
        else { s₁ with lastTime := BitVec.ofNat 32 now }) →
      s₂.RunsTo now due ∧ s₂.lastTime = BitVec.ofNat 32 now ∧
        s₂.cooked = s₁.cooked ∧ s₂.counter = s₁.counter := by
  intro s₂ hs₂
  by_cases hneed : s.countersNeedUpdate
  · rw [if_pos hneed] at hs₂
    subst hs₂
    exact ⟨hruns, hlast hneed, rfl, rfl⟩
  · rw [if_neg hneed] at hs₂
    subst hs₂
    exact ⟨hruns.clocked, rfl, rfl, rfl⟩

/-! ### Looking at the matrix -/

section Transfer

variable (debounceTime : BitVec 7) {s : Asym κ} {raw : κ → Bool} {k : κ}

theorem transfer_starts (hraw : raw k ≠ s.cooked k) (htime : (s.counter k).time = 0) :
    (s.transferMatrixValues debounceTime raw).cooked k = (raw k || s.cooked k) ∧
      (s.transferMatrixValues debounceTime raw).counter k =
        { pressed := raw k, time := debounceTime } := by
  have hstarts : s.starts raw k := by simp [starts, hraw, htime]
  refine ⟨?_, if_pos hstarts⟩
  simp only [transferMatrixValues, hstarts, Bool.true_and]
  revert hraw
  cases raw k <;> cases s.cooked k <;> simp

theorem transfer_runs (hraw : raw k ≠ s.cooked k) (htime : (s.counter k).time ≠ 0) :
    (s.transferMatrixValues debounceTime raw).cooked k = s.cooked k ∧
      (s.transferMatrixValues debounceTime raw).counter k = s.counter k := by
  have hstarts : s.starts raw k = false := by
    unfold starts
    rw [beq_false_of_ne htime, Bool.and_false]
  simp [transferMatrixValues, hstarts, hraw]

theorem transfer_stops (hraw : raw k = s.cooked k) :
    (s.transferMatrixValues debounceTime raw).cooked k = s.cooked k ∧
      (s.transferMatrixValues debounceTime raw).counter k =
        if (s.counter k).pressed = false then { s.counter k with time := 0 } else s.counter k := by
  have hstarts : s.starts raw k = false := by simp [starts, hraw]
  simp [transferMatrixValues, hstarts, hraw]

theorem transfer_idle (hraw : raw k = s.cooked k)
    (htime : (s.counter k).pressed ∨ (s.counter k).time = 0) :
    (s.transferMatrixValues debounceTime raw).cooked k = s.cooked k ∧
      (s.transferMatrixValues debounceTime raw).counter k = s.counter k := by
  obtain ⟨hcooked, hcounter⟩ := transfer_stops debounceTime hraw
  refine ⟨hcooked, hcounter.trans ?_⟩
  rcases htime with hpressed | hzero
  · rw [hpressed, if_neg (by decide)]
  · rw [← hzero, ite_self]

end Transfer

def Kept (s : Asym κ) (raw : κ → Bool) (now : Nat) (k : κ) (phase : AsymPhase) : Prop :=
  s.Agrees raw now k phase ∧ (s.counter k).time.toNat = phase.due - now

section Kept

variable (debounceTime : BitVec 7) {s : Asym κ} {raw : κ → Bool} {now : Nat} {k : κ}

theorem transfer_kept_up (hpos : debounceTime.toNat ≠ 0) (hup : s.cooked k = false)
    (htime : (s.counter k).time = 0) :
    (s.transferMatrixValues debounceTime raw).Kept raw now k
      (AsymPhase.up.next debounceTime.toNat (now, raw k)) := by
  unfold Kept
  cases hraw : raw k with
  | false =>
    obtain ⟨hcooked, hcounter⟩ := transfer_idle debounceTime (hraw.trans hup.symm) (Or.inr htime)
    simp only [AsymPhase.next, Agrees, AsymPhase.due, hcooked, hcounter]
    exact ⟨⟨hup, hraw⟩, by rw [htime]; simp⟩
  | true =>
    obtain ⟨hcooked, hcounter⟩ := transfer_starts debounceTime
      (show raw k ≠ s.cooked k by rw [hraw, hup]; decide) htime
    simp only [AsymPhase.next, Agrees, AsymPhase.due, hcooked, hcounter, hraw]
    exact ⟨⟨rfl, trivial, by omega⟩, (Nat.add_sub_cancel_left ..).symm⟩

theorem transfer_kept_down (hpos : debounceTime.toNat ≠ 0) (hdown : s.cooked k)
    (htime : (s.counter k).time = 0) :
    (s.transferMatrixValues debounceTime raw).Kept raw now k
      (AsymPhase.down.next debounceTime.toNat (now, raw k)) := by
  unfold Kept
  cases hraw : raw k with
  | false =>
    obtain ⟨hcooked, hcounter⟩ := transfer_starts debounceTime
      (show raw k ≠ s.cooked k by rw [hraw, hdown]; decide) htime
    simp only [AsymPhase.next, Agrees, AsymPhase.due, hcooked, hcounter, hraw]
    exact ⟨⟨hdown, trivial, trivial, by omega⟩, (Nat.add_sub_cancel_left ..).symm⟩
  | true =>
    obtain ⟨hcooked, hcounter⟩ := transfer_idle debounceTime (hraw.trans hdown.symm)
      (Or.inr htime)
    simp only [AsymPhase.next, Agrees, AsymPhase.due, hcooked, hcounter]
    exact ⟨⟨hdown, hraw⟩, by rw [htime]; simp⟩

end Kept

variable (debounceTime : BitVec 7)

theorem transferMatrixValues_kept (hpos : debounceTime ≠ 0) (s : Asym κ) (raw : κ → Bool)
    (now : Nat) (k : κ) (phase : AsymPhase) (hcaught : s.Caught raw now k phase)
    (hdue : (s.counter k).time.toNat = phase.due - now) :
    (s.transferMatrixValues debounceTime raw).Kept raw now k
      (phase.next debounceTime.toNat (now, raw k)) := by
  have hnat : debounceTime.toNat ≠ 0 := fun h => hpos (BitVec.eq_of_toNat_eq h)
  have hzero : (s.counter k).time = 0 ↔ phase.due ≤ now := by
    constructor
    · intro h
      rw [h] at hdue
      have hnone : (0 : BitVec 7).toNat = 0 := rfl
      omega
    · intro h
      rw [Nat.sub_eq_zero_of_le h] at hdue
      exact BitVec.eq_of_toNat_eq hdue
  cases phase with
  | up => exact transfer_kept_up debounceTime hnat hcaught (hzero.mpr (Nat.zero_le now))
  | locked due =>
    obtain ⟨hdown, hpressed⟩ := hcaught
    by_cases hlocked : now < due
    · -- It stays locked, whatever it does.
      have hkeep : (s.transferMatrixValues debounceTime raw).cooked k = s.cooked k ∧
          (s.transferMatrixValues debounceTime raw).counter k = s.counter k := by
        by_cases hraw : raw k = s.cooked k
        · exact transfer_idle debounceTime hraw (Or.inl hpressed)
        · exact transfer_runs debounceTime hraw (fun h => Nat.not_le.mpr hlocked (hzero.mp h))
      unfold Kept
      simp only [AsymPhase.next, if_pos hlocked, Agrees, hkeep.1, hkeep.2]
      exact ⟨⟨hdown, hpressed, hlocked⟩, hdue⟩
    · -- It is as any other key that is down.
      have htime := hzero.mpr (Nat.le_of_not_lt hlocked)
      have hkept : (s.transferMatrixValues debounceTime raw).Kept raw now k
          (AsymPhase.down.next debounceTime.toNat (now, raw k)) :=
        transfer_kept_down debounceTime hnat hdown htime
      simp only [AsymPhase.next] at hkept
      simp only [AsymPhase.next, if_neg hlocked]
      exact hkept
  | down => exact transfer_kept_down debounceTime hnat hcaught (hzero.mpr (Nat.zero_le now))
  | releasing due =>
    obtain ⟨hpressed, hcooked₁⟩ := hcaught
    unfold Kept
    cases hraw : raw k with
    | true =>
      -- It is back before the release was over, or in the call in which it is.
      have hdown : s.cooked k := by rw [hcooked₁, hraw, ite_self]
      obtain ⟨hcooked, hcounter⟩ := transfer_stops debounceTime (hraw.trans hdown.symm)
      simp only [AsymPhase.next, Agrees, AsymPhase.due, hcooked, hcounter, if_pos hpressed,
        if_true]
      exact ⟨⟨hdown, hraw⟩, (Nat.zero_sub now).symm⟩
    | false =>
      by_cases hlong : now < due
      · rw [if_neg (Nat.not_le.mpr hlong)] at hcooked₁
        obtain ⟨hcooked, hcounter⟩ := transfer_runs debounceTime
          (show raw k ≠ s.cooked k by rw [hraw, hcooked₁]; decide)
          (fun h => Nat.not_le.mpr hlong (hzero.mp h))
        simp only [AsymPhase.next, if_pos hlong, Agrees, hcooked, hcounter]
        exact ⟨⟨hcooked₁, hpressed, hraw, hlong⟩, hdue⟩
      · have htime := hzero.mpr (Nat.le_of_not_lt hlong)
        rw [if_pos (Nat.le_of_not_lt hlong)] at hcooked₁
        obtain ⟨hcooked, hcounter⟩ := transfer_idle debounceTime hcooked₁.symm (Or.inr htime)
        simp only [AsymPhase.next, if_neg hlong, Agrees, AsymPhase.due, hcooked, hcounter]
        exact ⟨⟨hcooked₁.trans hraw, hraw⟩, by rw [htime]; simp⟩

theorem transferMatrixValues_armed (s : Asym κ) (raw : κ → Bool)
    (harmed : ∀ k, (s.counter k).byte ≠ 0 → s.countersNeedUpdate) (k : κ)
    (hk : ((s.transferMatrixValues debounceTime raw).counter k).byte ≠ 0) :
    (s.transferMatrixValues debounceTime raw).countersNeedUpdate := by
  have hneed : (s.transferMatrixValues debounceTime raw).countersNeedUpdate =
      (s.countersNeedUpdate || decide (∃ k, s.starts raw k = true)) := rfl
  rw [hneed, Bool.or_eq_true]
  by_cases hstarts : s.starts raw k
  · exact Or.inr (decide_eq_true ⟨k, hstarts⟩)
  · refine Or.inl (harmed k (fun hzero => hk ?_))
    rw [AsymCounter.byte_eq_zero] at hzero ⊢
    simp only [transferMatrixValues, if_neg hstarts]
    by_cases hstops : (raw k == s.cooked k && !(s.counter k).pressed) = true
    · rw [if_pos hstops]
    · rw [if_neg hstops]
      exact hzero

/-! ### A call -/

section Call

variable {s s₁ : Asym κ} {raw last : κ → Bool} {t now : Nat} {phase : κ → AsymPhase} {k : κ}

omit [Fintype κ] in
theorem runsOut_of_due (now : Nat) (hcounts : (s.counter k).byte.toNat = (phase k).due - t)
    (hlate : t < (phase k).due) (hover : (phase k).due ≤ now) :
    (s.counter k).byte ≠ 0 ∧ (phase k).due ≤ now := by
  refine ⟨fun hzero => ?_, hover⟩
  rw [← toNat_eq_zero, hcounts] at hzero
  omega

omit [Fintype κ] in
theorem Agrees.caught (h : s.Agrees last t k (phase k))
    (hcounts : (s.counter k).byte.toNat = (phase k).due - t)
    (hcooked : s₁.cooked k =
      if ((s.counter k).byte ≠ 0 ∧ (phase k).due ≤ now) ∧ (s.counter k).pressed = false then raw k
      else s.cooked k)
    (hpressed : (s₁.counter k).pressed = (s.counter k).pressed) :
    s₁.Caught raw now k (phase k) := by
  have hidle : (phase k).due = 0 → (s.counter k).byte = 0 := by
    intro hdue
    rw [← toNat_eq_zero, hcounts, hdue, Nat.zero_sub]
  cases hphase : phase k with
  | up =>
    rw [hphase] at h hidle
    exact hcooked.trans ((if_neg (fun hout => hout.1.1 (hidle rfl))).trans h.1)
  | locked due =>
    rw [hphase] at h
    -- Its counter runs for the press, so the key is left as it is.
    refine ⟨hcooked.trans ((if_neg (fun hout => ?_)).trans h.1), hpressed.trans h.2.1⟩
    exact Bool.false_ne_true (hout.2.symm.trans h.2.1)
  | down =>
    rw [hphase] at h hidle
    exact hcooked.trans ((if_neg (fun hout => hout.1.1 (hidle rfl))).trans h.1)
  | releasing due =>
    have hout := runsOut_of_due now hcounts
    rw [hphase] at h hout hcooked
    obtain ⟨hdown, hrelease, _, hlate⟩ := h
    refine ⟨hpressed.trans hrelease, hcooked.trans ?_⟩
    rw [hdown]
    exact if_congr ⟨fun h => h.1.2, fun hover => ⟨hout hlate hover, hrelease⟩⟩ rfl rfl

omit [Fintype κ] in
theorem Agrees.kept_unseen (h : s.Agrees last t k (phase k)) (hraw : raw k = last k)
    (hcaught : s₁.Caught raw now k (phase k))
    (hdue : (s₁.counter k).time.toNat = (phase k).due - now)
    (hunseen : ∀ due, phase k = AsymPhase.locked due → now < due) (debounceTime : Nat) :
    s₁.Kept raw now k ((phase k).next debounceTime (now, raw k)) := by
  unfold Kept
  cases hphase : phase k with
  | up =>
    rw [hphase] at h hcaught hdue
    have hup := hraw.trans h.2
    simp only [AsymPhase.next, hup, Bool.false_eq_true, if_false]
    exact ⟨⟨hcaught, hup⟩, hdue⟩
  | locked due =>
    have hlocked := hunseen due hphase
    rw [hphase] at hcaught hdue
    simp only [AsymPhase.next, if_pos hlocked]
    exact ⟨⟨hcaught.1, hcaught.2, hlocked⟩, hdue⟩
  | down =>
    rw [hphase] at h hcaught hdue
    have hdown := hraw.trans h.2
    simp only [AsymPhase.next, hdown, if_true]
    exact ⟨⟨hcaught, hdown⟩, hdue⟩
  | releasing due =>
    rw [hphase] at h hcaught hdue
    have hup := hraw.trans h.2.2.1
    simp only [AsymPhase.next, hup, Bool.false_eq_true, if_false]
    obtain ⟨hpressed, hcooked⟩ := hcaught
    by_cases hlong : now < due
    · rw [if_neg (Nat.not_le.mpr hlong)] at hcooked
      rw [if_pos hlong]
      exact ⟨⟨hcooked, hpressed, hup, hlong⟩, hdue⟩
    · -- The release is over, and the key was found up in this call too.
      rw [if_pos (Nat.le_of_not_lt hlong)] at hcooked
      rw [if_neg hlong]
      refine ⟨⟨hcooked.trans hup, hup⟩, ?_⟩
      rw [hdue]
      exact (Nat.sub_eq_zero_of_le (Nat.le_of_not_lt hlong)).trans (Nat.zero_sub now).symm

end Call

theorem debounce_spec (hpos : debounceTime ≠ 0) (s : Asym κ) (raw last : κ → Bool) (t now : Nat)
    (phase : κ → AsymPhase) (hle : t ≤ now) (hgap : now - t < 2 ^ 32)
    (hruns : s.RunsTo t (fun k => (phase k).due)) (hagrees : ∀ k, s.Agrees last t k (phase k)) :
    ∀ s', s' = s.debounce debounceTime (BitVec.ofNat 32 now) raw (matrixChanged raw last) →
      s'.RunsTo now (fun k => ((phase k).next debounceTime.toNat (now, raw k)).due) ∧
      ∀ k, s'.Agrees raw now k ((phase k).next debounceTime.toNat (now, raw k)) := by
  intro s' hs'
  obtain ⟨hruns₁, hcooked, hpressed, hlast, hover⟩ :=
    s.catchUp_spec raw t now _ hle hgap hruns _ rfl
  have hcaught : ∀ k, (s.catchUp (BitVec.ofNat 32 now) raw).Caught raw now k (phase k) :=
    fun k => (hagrees k).caught (hruns.counts k) (hcooked k) (hpressed k)
  have hdue : ∀ k, ((s.catchUp (BitVec.ofNat 32 now) raw).counter k).time.toNat =
      (phase k).due - now := by
    intro k
    rw [← AsymCounter.byte_toNat]
    exact hruns₁.counts k
  unfold debounce at hs'
  dsimp only at hs'
  by_cases hlooks : (matrixChanged raw last ||
      (s.catchUp (BitVec.ofNat 32 now) raw).matrixNeedUpdate)
  · rw [if_pos hlooks] at hs'
    obtain ⟨hruns₂, hclock₂, hcooked₂, hcounter₂⟩ := clocked_spec s _ now _ hruns₁ hlast _ rfl
    generalize (if s.countersNeedUpdate = true then s.catchUp (BitVec.ofNat 32 now) raw
      else { s.catchUp (BitVec.ofNat 32 now) raw with lastTime := BitVec.ofNat 32 now }) = s₂
      at hs' hruns₂ hclock₂ hcooked₂ hcounter₂
    have hkept : ∀ k, s'.Kept raw now k ((phase k).next debounceTime.toNat (now, raw k)) := by
      intro k
      rw [hs']
      refine transferMatrixValues_kept debounceTime hpos s₂ raw now k (phase k) ?_ ?_
      · have hk := hcaught k
        unfold Caught at hk ⊢
        rwa [hcooked₂, hcounter₂]
      · rw [hcounter₂]
        exact hdue k
    refine ⟨⟨fun _ => ?_, ?_, fun k => ?_⟩, fun k => (hkept k).1⟩
    · rw [hs']
      exact hclock₂
    · rw [hs']
      exact transferMatrixValues_armed debounceTime s₂ raw hruns₂.armed
    · exact (AsymCounter.byte_toNat _).trans (hkept k).2
  · rw [if_neg hlooks] at hs'
    rw [Bool.not_eq_true, Bool.or_eq_false_iff] at hlooks
    have hraw : ∀ k, raw k = last k := by
      intro k
      by_contra hk
      exact of_decide_eq_false hlooks.1 ⟨k, hk⟩
    have hunseen : ∀ k due, phase k = AsymPhase.locked due → now < due := by
      intro k due hphase
      -- A lock that is over would have the matrix looked at.
      by_contra hlate
      have hk := hagrees k
      have hout := runsOut_of_due now (hruns.counts k)
      have hcalls := hover k
      rw [hphase] at hk hout hcalls
      rw [hcalls (hout hk.2.2 (Nat.le_of_not_lt hlate)) hk.2.1] at hlooks
      exact Bool.noConfusion hlooks.2
    have hkept : ∀ k, s'.Kept raw now k ((phase k).next debounceTime.toNat (now, raw k)) := by
      intro k
      rw [hs']
      exact (hagrees k).kept_unseen (hraw k) (hcaught k) (hdue k) (hunseen k) debounceTime.toNat
    refine ⟨⟨?_, ?_, fun k => ?_⟩, fun k => (hkept k).1⟩
    · rw [hs']
      exact hruns₁.clock
    · rw [hs']
      exact hruns₁.armed
    · exact (AsymCounter.byte_toNat _).trans (hkept k).2

/-! ### Runs -/

def after (debounceTime : BitVec 7) (stale : κ → Bool) (calls : List (DebounceCall κ Bool)) :
    Debounced (Asym κ) κ Bool :=
  calls.foldl (Asym.call debounceTime) { state := init stale, last := fun _ => false }

theorem after_concat (stale : κ → Bool) (calls : List (DebounceCall κ Bool))
    (c : DebounceCall κ Bool) :
    after debounceTime stale (calls ++ [c]) =
      Asym.call debounceTime (after debounceTime stale calls) c :=
  List.foldl_concat ..

def phaseOf (debounceTime : BitVec 7) (calls : List (DebounceCall κ Bool)) (k : κ) : AsymPhase :=
  phaseAfter DebounceCall.time (fun c => c.raw k) debounceTime.toNat calls

structure Sound (debounceTime : BitVec 7) (stale : κ → Bool) (calls : List (DebounceCall κ Bool)) :
    Prop where
  runs : ∀ t, (∀ c ∈ calls.getLast?, c.time = t) →
    (after debounceTime stale calls).state.RunsTo t (fun k => (phaseOf debounceTime calls k).due)
  agrees : ∀ t, (∀ c ∈ calls.getLast?, c.time = t) → ∀ k,
    (after debounceTime stale calls).state.Agrees (after debounceTime stale calls).last t k
      (phaseOf debounceTime calls k)

theorem Sound.next {debounceTime : BitVec 7} {stale : κ → Bool}
    {calls : List (DebounceCall κ Bool)} (hpos : debounceTime ≠ 0)
    (h : Sound debounceTime stale calls) (c : DebounceCall κ Bool)
    (htimed : Timed ((calls ++ [c]).map DebounceCall.time)) :
    Sound debounceTime stale (calls ++ [c]) := by
  obtain ⟨_, t, hlast, hle, hgap⟩ := timed_next DebounceCall.time calls c htimed
  obtain ⟨hruns, hagrees⟩ := debounce_spec debounceTime hpos _ c.raw
    (after debounceTime stale calls).last t c.time (phaseOf debounceTime calls) hle hgap
    (h.runs t hlast) (h.agrees t hlast) _ rfl
  have hphase : ∀ k, phaseOf debounceTime (calls ++ [c]) k =
      (phaseOf debounceTime calls k).next debounceTime.toNat (c.time, c.raw k) :=
    fun k => phaseAfter_concat
  constructor
  · intro now hnow
    have htime : c.time = now := hnow c (by simp)
    subst htime
    rw [after_concat]
    simp only [hphase]
    exact hruns
  · intro now hnow k
    have htime : c.time = now := hnow c (by simp)
    subst htime
    rw [after_concat, hphase k]
    exact hagrees k

theorem after_sound (hpos : debounceTime ≠ 0) (stale : κ → Bool)
    (calls : List (DebounceCall κ Bool)) (htimed : Timed (calls.map DebounceCall.time)) :
    Sound debounceTime stale calls := by
  induction calls using List.reverseRecOn with
  | nil =>
    -- No counter runs, whatever it would be running for.
    refine ⟨fun t _ => ⟨fun h => absurd h Bool.false_ne_true, fun k hk => absurd rfl hk,
      fun k => (Nat.zero_sub t).symm⟩, fun t _ k => ⟨rfl, rfl⟩⟩
  | append_singleton calls c ih =>
    exact (ih (timed_next DebounceCall.time calls c htimed).1).next hpos c htimed

omit [Fintype κ] in
theorem Agrees.cooked {s : Asym κ} {last : κ → Bool} {t : Nat} {k : κ} {phase : AsymPhase}
    (h : s.Agrees last t k phase) : s.cooked k = phase.cooked := by
  cases phase with
  | up => exact h.1
  | locked due => exact h.1
  | down => exact h.1
  | releasing due => exact h.1

theorem after_cooked (hpos : debounceTime ≠ 0) (stale : κ → Bool)
    (calls : List (DebounceCall κ Bool)) (htimed : Timed (calls.map DebounceCall.time)) (k : κ) :
    (after debounceTime stale calls).state.cooked k =
      downAfter DebounceCall.time (fun c => c.raw k) debounceTime.toNat calls := by
  have hsound := after_sound debounceTime hpos stale calls htimed
  cases hcalls : calls.getLast? with
  | none => exact (hsound.agrees 0 (by rw [hcalls]; simp) k).cooked
  | some c => exact (hsound.agrees c.time (by rw [hcalls]; simp) k).cooked

end Asym

/-! ### The algorithm -/

variable {rows cols : Nat}

/-- When keys go down and up. A key goes down in a scan that finds it down, if it
    was up. It goes up in a scan that ends the release. Other keys do not influence
    it: it is the same after any two runs that have the same samples of it. -/
structure AsymLaw (timing : List Nat → Prop)
    (debounced : List (MatrixScan rows cols) → KeyMatrix rows cols) (debounceTime : BitVec 7) :
    Prop where
  presses : ∀ scans scan, timing ((scans ++ [scan]).map MatrixScan.time) → ∀ key,
    ((debounced scans).keys key = false ∧ (debounced (scans ++ [scan])).keys key = true ↔
      (debounced scans).keys key = false ∧ scan.raw.keys key = true)
  releases : ∀ scans scan, timing ((scans ++ [scan]).map MatrixScan.time) → ∀ key,
    ((debounced scans).keys key = true ∧ (debounced (scans ++ [scan])).keys key = false ↔
      (debounced scans).keys key = true ∧
        ReleaseDue MatrixScan.time (fun scan => scan.raw.keys key)
          (fun scans => (debounced scans).keys key) debounceTime.toNat (scans ++ [scan]) scan.time)
  alone : ∀ scans scans', timing (scans.map MatrixScan.time) → ∀ key,
    keySamples key scans = keySamples key scans' →
      (debounced scans).keys key = (debounced scans').keys key

theorem Timed.of_isPrefix {α : Type} {time : α → Nat} {before calls : List α}
    (h : Timed (calls.map time)) (hb : before <+: calls) : Timed (before.map time) := by
  obtain ⟨rest, rfl⟩ := hb
  unfold Timed at h ⊢
  rw [List.map_append, List.isChain_append] at h
  exact h.1

theorem asymEagerDeferPk_keys (debounceTime : BitVec 7) (hpos : debounceTime ≠ 0)
    (stale : Fin rows × Fin cols → Bool) (scans : List (MatrixScan rows cols))
    (htimed : Timed (scans.map MatrixScan.time)) (key : Fin rows × Fin cols) :
    (asymEagerDeferPk debounceTime stale scans).keys key =
      downAfter MatrixScan.time (fun scan => scan.raw.keys key) debounceTime.toNat scans := by
  have htimes : Timed ((scans.map MatrixScan.byKey).map DebounceCall.time) := by
    rwa [List.map_map]
  have hcooked := Asym.after_cooked debounceTime hpos stale _ htimes key
  unfold downAfter phaseAfter at hcooked ⊢
  rw [List.map_map] at hcooked
  exact hcooked

theorem AsymLaw.of_phases {debounced : List (MatrixScan rows cols) → KeyMatrix rows cols}
    {debounceTime : BitVec 7} (hpos : debounceTime ≠ 0)
    (h : ∀ scans, Timed (scans.map MatrixScan.time) → ∀ key, (debounced scans).keys key =
      downAfter MatrixScan.time (fun scan => scan.raw.keys key) debounceTime.toNat scans) :
    AsymLaw Timed debounced debounceTime := by
  have hnat : debounceTime.toNat ≠ 0 := fun hzero => hpos (BitVec.eq_of_toNat_eq hzero)
  constructor
  · intro scans scan htimed key
    have hbefore := (timed_next MatrixScan.time scans scan htimed).1
    refine and_congr_right (fun hup => ?_)
    rw [h scans hbefore] at hup
    rw [h (scans ++ [scan]) htimed, goes_down_iff hup]
  · intro scans scan htimed key
    have hbefore := (timed_next MatrixScan.time scans scan htimed).1
    refine and_congr_right (fun hdown => ?_)
    rw [h scans hbefore] at hdown
    rw [h (scans ++ [scan]) htimed, goes_up_iff hnat htimed hdown]
    exact ReleaseDue.congr (fun before hb => (h before (htimed.of_isPrefix hb) key).symm)
  · intro scans scans' htimed key hsamples
    -- The same samples are taken at the same times.
    have htimes : scans'.map MatrixScan.time = scans.map MatrixScan.time := by
      have hfst := congrArg (List.map Prod.fst) hsamples
      unfold keySamples at hfst
      rw [List.map_map, List.map_map] at hfst
      exact hfst.symm
    rw [h scans htimed, h scans' (by rwa [htimes])]
    unfold downAfter phaseAfter
    exact congrArg (fun samples => (AsymPhase.after debounceTime.toNat samples).cooked) hsamples

theorem asym_eager_defer_pk_law (rows cols : Nat) (debounceTime : BitVec 7)
    (hpos : debounceTime ≠ 0) (stale : Fin rows × Fin cols → Bool) :
    AsymLaw Timed (asymEagerDeferPk debounceTime stale) debounceTime :=
  AsymLaw.of_phases hpos (asymEagerDeferPk_keys debounceTime hpos stale)

theorem asym_eager_defer_pk_law_five :
    (5 : BitVec 7) ≠ 0 ∧ AsymLaw Timed
      (asymEagerDeferPk 5 (fun _ => true) : List (MatrixScan 5 14) → KeyMatrix 5 14) 5 :=
  ⟨by decide, asym_eager_defer_pk_law 5 14 5 (by decide) (fun _ => true)⟩

/-- A key released exactly 2^32 milliseconds after it was pressed. By the timer no
    time has passed, so the lock is not over, and the release that begins when it
    is has not lasted five milliseconds later. -/
theorem asym_eager_defer_pk_broken :
    ¬ ∀ (rows cols : Nat) (debounceTime : BitVec 7), debounceTime ≠ 0 →
      ∀ stale : Fin rows × Fin cols → Bool,
        AsymLaw (fun times => times.IsChain (· ≤ ·)) (asymEagerDeferPk debounceTime stale)
          debounceTime := by
  intro h
  have hlaw := ((h 1 1 5 (by decide) (fun _ => false)).releases
    [⟨0, fun _ _ => true⟩, ⟨2 ^ 32, fun _ _ => false⟩] ⟨2 ^ 32 + 5, fun _ _ => false⟩
    (by simp) (0, 0)).mpr ⟨by decide +kernel, ?_⟩
  · exact absurd hlaw.2 (by decide +kernel)
  · -- The call at 2^32 ends the lock and is the first to find the key up.
    refine ⟨⟨0, fun _ _ => true⟩, [⟨2 ^ 32, fun _ _ => false⟩, ⟨2 ^ 32 + 5, fun _ _ => false⟩],
      ⟨2 ^ 32, fun _ _ => false⟩, 2 ^ 32, ⟨[], rfl, ⟨rfl, by decide +kernel⟩, ?_⟩, rfl, rfl,
      by decide⟩
    -- The key counts as down in both calls behind the press.
    intro during d rest hsplit hdown
    cases during with
    | nil => exact absurd hdown.1 (by decide +kernel)
    | cons b during =>
      rw [List.cons_append, List.cons.injEq] at hsplit
      obtain ⟨rfl, hsplit⟩ := hsplit
      cases during with
      | nil => exact absurd hdown.1 (by decide +kernel)
      | cons c during => exact absurd hsplit (by simp)

end K530
