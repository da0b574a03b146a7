import K530.Theory.Debounce.Countdown

/-!
# The Deferred Debouncer

A key changes in the first call in which it has differed from its debounced
state for `DEBOUNCE` milliseconds, in every call from then on. The time it has
differed for is that since the first of the calls at the end of the run that
find it different, and what the algorithm keeps of it is a counter.

A counter runs exactly while its key differs, since a call in which nothing has
changed would neither start it nor stop it. It is due `DEBOUNCE` after that
first call. That every key has its own counter is why none is influenced by the
others, although they share the time of the last call: the counters are brought
up to date together, in every call that finds one running.

## Main definitions

* `firstDiffering`: When the samples at the end began to differ.

## Theorems

* `Deferred.catchUp_spec`, `Deferred.debounce_spec`: A call.
* `sym_defer_pk_law`: The law.
-/

namespace K530

/-- The time of the first of the samples at the end that differ from a value. -/
def firstDiffering (value : Bool) (samples : List (Nat × Bool)) : Option Nat :=
  ((samples.reverse.takeWhile (fun x => x.2 != value)).getLast?).map Prod.fst

theorem firstDiffering_nil (value : Bool) : firstDiffering value [] = none := rfl

theorem firstDiffering_concat (value : Bool) (samples : List (Nat × Bool)) (x : Nat × Bool) :
    firstDiffering value (samples ++ [x]) =
      if x.2 ≠ value then some ((firstDiffering value samples).getD x.1) else none := by
  unfold firstDiffering
  rw [List.reverse_concat, List.takeWhile_cons]
  by_cases h : x.2 ≠ value
  · rw [if_pos (bne_iff_ne.mpr h), if_pos h, List.getLast?_cons, Option.map_some]
    cases (samples.reverse.takeWhile (fun x => x.2 != value)).getLast? with
    | none => rfl
    | some y => rfl
  · rw [if_neg (fun hne => h (bne_iff_ne.mp hne)), if_neg h]
    rfl

namespace Deferred

variable {κ : Type} [Fintype κ]

/-! ### A call -/

def RunsTo (s : Deferred κ) (t : Nat) (due : κ → Nat) : Prop :=
  Running s.counter s.lastTime s.countersNeedUpdate t due

theorem catchUp_spec (s : Deferred κ) (raw : κ → Bool) (t now : Nat) (due : κ → Nat)
    (hle : t ≤ now) (hgap : now - t < 2 ^ 32) (hruns : s.RunsTo t due) :
    ∀ s₁, s₁ = s.catchUp (BitVec.ofNat 32 now) raw →
      s₁.RunsTo now due ∧
      (∀ k, s₁.cooked k = if s.counter k ≠ 0 ∧ due k ≤ now then raw k else s.cooked k) ∧
      (s.countersNeedUpdate → s₁.lastTime = BitVec.ofNat 32 now) := by
  intro s₁ hs₁
  unfold RunsTo at hruns ⊢
  unfold catchUp at hs₁
  by_cases hneed : s.countersNeedUpdate
  · -- Some are running, so the time since the last call is taken off them.
    rw [hneed] at hruns
    rw [if_pos hneed] at hs₁
    dsimp only at hs₁
    by_cases helapsed : 0 < elapsedTime (BitVec.ofNat 32 now) s.lastTime
    · rw [if_pos helapsed] at hs₁
      subst hs₁
      have hlower := hruns.lower hle hgap
      refine ⟨hlower, fun k => ?_, fun _ => rfl⟩
      have hout : runsOut (elapsedTime (BitVec.ofNat 32 now) s.lastTime) (s.counter k) ↔
          s.counter k ≠ 0 ∧ due k ≤ now := by
        rw [runsOut_iff]
        exact and_congr_right (fun _ => hlower.zero_iff k)
      exact if_congr hout rfl rfl
    · -- Within the same millisecond nothing runs out.
      rw [if_neg helapsed] at hs₁
      subst hs₁
      have hstill := hruns.still hle hgap helapsed
      refine ⟨?_, fun k => ?_, fun _ => rfl⟩
      · dsimp only
        rw [hneed]
        exact hstill
      · exact (if_neg (fun h => h.1 ((hstill.zero_iff k).mpr h.2))).symm
  · -- None is running, and the time of the last call is left as it is.
    rw [if_neg hneed] at hs₁
    subst hs₁
    rw [Bool.not_eq_true] at hneed
    rw [hneed] at hruns ⊢
    have hidle := hruns.idle hle
    exact ⟨hidle, fun k => (if_neg (fun h => h.1 ((hidle.zero_iff k).mpr h.2))).symm,
      fun h => absurd h Bool.false_ne_true⟩

def startedAt (debounceTime : Byte) (raw cooked : κ → Bool) (now : Nat) (due : κ → Nat) (k : κ) :
    Nat :=
  if raw k ≠ cooked k then if due k ≤ now then now + debounceTime.toNat else due k else now

theorem startDebounceCounters_spec (debounceTime : Byte) (s : Deferred κ) (raw : κ → Bool)
    (now : Nat) (due : κ → Nat) (hruns : s.RunsTo now due)
    (hclock : s.lastTime = BitVec.ofNat 32 now) :
    (s.startDebounceCounters debounceTime raw).RunsTo now
        (startedAt debounceTime raw s.cooked now due) ∧
      (s.startDebounceCounters debounceTime raw).cooked = s.cooked := by
  unfold startDebounceCounters RunsTo
  refine ⟨⟨fun _ => hclock, fun k hk => ?_, fun k => ?_⟩, rfl⟩
  · dsimp only at hk ⊢
    rw [Bool.or_eq_true]
    -- A counter that is running has been started here or was running before.
    by_cases hraw : raw k ≠ s.cooked k
    · by_cases hzero : s.counter k = 0
      · exact Or.inr (decide_eq_true ⟨k, hraw, hzero⟩)
      · exact Or.inl (hruns.armed k hzero)
    · rw [if_neg (fun h => hraw (bne_iff_ne.mp h))] at hk
      exact absurd rfl hk
  · dsimp only
    unfold startedAt
    by_cases hraw : raw k ≠ s.cooked k
    · rw [if_pos (bne_iff_ne.mpr hraw), if_pos hraw]
      by_cases hdue : due k ≤ now
      · rw [if_pos ((hruns.zero_iff k).mpr hdue), if_pos hdue, Nat.add_sub_cancel_left]
      · rw [if_neg (fun h => hdue ((hruns.zero_iff k).mp h)), if_neg hdue, hruns.counts k]
    · rw [if_neg (fun h => hraw (bne_iff_ne.mp h)), if_neg hraw, Nat.sub_self]
      rfl

def cookedAfter (s : Deferred κ) (raw last : κ → Bool) (now : Nat) (due : κ → Nat) (k : κ) :
    Bool :=
  if last k ≠ s.cooked k ∧ due k ≤ now then raw k else s.cooked k

def dueAfter (debounceTime : Byte) (s : Deferred κ) (raw last : κ → Bool) (now : Nat)
    (due : κ → Nat) (k : κ) : Nat :=
  if raw k = s.cookedAfter raw last now due k then now
  else if last k = s.cooked k then now + debounceTime.toNat
  else due k

omit [Fintype κ] in
theorem cookedAfter_of_differs (s : Deferred κ) (raw last : κ → Bool) (now : Nat) (due : κ → Nat)
    (k : κ) (h : raw k ≠ s.cookedAfter raw last now due k) :
    s.cookedAfter raw last now due k = s.cooked k := by
  unfold cookedAfter at h ⊢
  by_cases hdue : last k ≠ s.cooked k ∧ due k ≤ now
  · rw [if_pos hdue] at h
    exact absurd rfl h
  · rw [if_neg hdue]

omit [Fintype κ] in
theorem dueAfter_le_iff (debounceTime : Byte) (s : Deferred κ) (raw last : κ → Bool) (now : Nat)
    (due : κ → Nat) (k : κ) (hnat : debounceTime.toNat ≠ 0) :
    dueAfter debounceTime s raw last now due k ≤ now ↔
      raw k = s.cookedAfter raw last now due k := by
  unfold dueAfter
  by_cases hsame : raw k = s.cookedAfter raw last now due k
  · rw [if_pos hsame]
    exact iff_of_true (Nat.le_refl now) hsame
  · rw [if_neg hsame]
    refine iff_of_false (fun hle => ?_) hsame
    by_cases hk : last k = s.cooked k
    · rw [if_pos hk] at hle
      omega
    · rw [if_neg hk] at hle
      exact hsame (if_pos (show last k ≠ s.cooked k ∧ due k ≤ now from ⟨hk, hle⟩)).symm

omit [Fintype κ] in
theorem startedAt_eq (debounceTime : Byte) (s : Deferred κ) (raw last : κ → Bool) (now : Nat)
    (due : κ → Nat) (hidle : ∀ k, last k = s.cooked k → due k ≤ now) :
    startedAt debounceTime raw (s.cookedAfter raw last now due) now due =
      dueAfter debounceTime s raw last now due := by
  funext k
  unfold startedAt dueAfter
  by_cases hsame : raw k = s.cookedAfter raw last now due k
  · rw [if_neg (not_not_intro hsame), if_pos hsame]
  · rw [if_pos hsame, if_neg hsame]
    by_cases hk : last k = s.cooked k
    · rw [if_pos (hidle k hk), if_pos hk]
    · -- A key that differed and is due would be as it is scanned.
      have hnot : ¬ due k ≤ now := by
        intro hnow
        exact hsame (if_pos (show last k ≠ s.cooked k ∧ due k ≤ now from ⟨hk, hnow⟩)).symm
      rw [if_neg hnot, if_neg hk]

omit [Fintype κ] in
theorem dueAfter_unchanged (debounceTime : Byte) (s : Deferred κ) (raw last : κ → Bool)
    (now : Nat) (due : κ → Nat) (k : κ) (hidle : last k = s.cooked k → due k ≤ now)
    (hraw : raw k = last k) :
    dueAfter debounceTime s raw last now due k - now = due k - now := by
  unfold dueAfter cookedAfter
  rw [hraw]
  by_cases hk : last k = s.cooked k
  · rw [if_pos (by rw [if_neg (fun h => h.1 hk), hk]), Nat.sub_self,
      Nat.sub_eq_zero_of_le (hidle hk)]
  · by_cases hnow : due k ≤ now
    · rw [if_pos (if_pos ⟨hk, hnow⟩).symm, Nat.sub_self, Nat.sub_eq_zero_of_le hnow]
    · rw [if_neg (fun h => hk (h.trans (if_neg (fun h' => hnow h'.2)))), if_neg hk]

omit [Fintype κ] in
theorem clocked_spec (s s₁ : Deferred κ) (now : Nat) (due : κ → Nat) (hruns : s₁.RunsTo now due)
    (hlast : s.countersNeedUpdate → s₁.lastTime = BitVec.ofNat 32 now) :
    ∀ s₂, s₂ = (if s.countersNeedUpdate = true then s₁
        else { s₁ with lastTime := BitVec.ofNat 32 now }) →
      s₂.RunsTo now due ∧ s₂.lastTime = BitVec.ofNat 32 now ∧ s₂.cooked = s₁.cooked := by
  intro s₂ hs₂
  by_cases hneed : s.countersNeedUpdate
  · rw [if_pos hneed] at hs₂
    subst hs₂
    exact ⟨hruns, hlast hneed, rfl⟩
  · rw [if_neg hneed] at hs₂
    subst hs₂
    exact ⟨hruns.clocked, rfl, rfl⟩

theorem debounce_spec (debounceTime : Byte) (s : Deferred κ) (raw last : κ → Bool) (t now : Nat)
    (due : κ → Nat) (hle : t ≤ now) (hgap : now - t < 2 ^ 32) (hruns : s.RunsTo t due)
    (hdiffer : ∀ k, s.counter k ≠ 0 ↔ last k ≠ s.cooked k) :
    ∀ s', s' = s.debounce debounceTime (BitVec.ofNat 32 now) raw (matrixChanged raw last) →
      s'.RunsTo now (dueAfter debounceTime s raw last now due) ∧
      ∀ k, s'.cooked k = s.cookedAfter raw last now due k := by
  intro s' hs'
  obtain ⟨hruns₁, hcooked₁, hlast⟩ := s.catchUp_spec raw t now due hle hgap hruns _ rfl
  have hcooked : (s.catchUp (BitVec.ofNat 32 now) raw).cooked = s.cookedAfter raw last now due := by
    funext k
    rw [hcooked₁ k]
    exact if_congr (and_congr_left (fun _ => hdiffer k)) rfl rfl
  have hidle : ∀ k, last k = s.cooked k → due k ≤ now := by
    intro k hk
    -- A key that did not differ has a counter at zero, which is due.
    have hzero : s.counter k = 0 := by
      by_contra h
      exact (hdiffer k).mp h hk
    exact Nat.le_trans ((hruns.zero_iff k).mp hzero) hle
  unfold debounce at hs'
  dsimp only at hs'
  by_cases hchanged : matrixChanged raw last
  · rw [if_pos hchanged] at hs'
    obtain ⟨hruns₂, hclock₂, hcooked₂⟩ := clocked_spec s _ now due hruns₁ hlast _ rfl
    have hspec := startDebounceCounters_spec debounceTime _ raw now due hruns₂ hclock₂
    rw [← hs', hcooked₂, hcooked, startedAt_eq debounceTime s raw last now due hidle] at hspec
    exact ⟨hspec.1, fun k => congrFun hspec.2 k⟩
  · rw [if_neg hchanged] at hs'
    subst hs'
    -- Nothing is started or stopped, and nothing should have been.
    refine ⟨⟨hruns₁.clock, hruns₁.armed, fun k => ?_⟩, fun k => congrFun hcooked k⟩
    have hraw : raw k = last k := by
      by_contra hk
      exact hchanged (decide_eq_true ⟨k, hk⟩)
    rw [hruns₁.counts k, dueAfter_unchanged debounceTime s raw last now due k (hidle k) hraw]

/-! ### Runs -/

def after (debounceTime : Byte) (calls : List (DebounceCall κ Bool)) :
    Debounced (Deferred κ) κ Bool :=
  calls.foldl (Deferred.call debounceTime) { state := init, last := fun _ => false }

theorem after_concat (debounceTime : Byte) (calls : List (DebounceCall κ Bool))
    (c : DebounceCall κ Bool) :
    after debounceTime (calls ++ [c]) = Deferred.call debounceTime (after debounceTime calls) c :=
  List.foldl_concat ..

def samples (k : κ) (calls : List (DebounceCall κ Bool)) : List (Nat × Bool) :=
  calls.map (fun c => (c.time, c.raw k))

omit [Fintype κ] in
theorem samples_concat (k : κ) (calls : List (DebounceCall κ Bool)) (c : DebounceCall κ Bool) :
    samples k (calls ++ [c]) = samples k calls ++ [(c.time, c.raw k)] :=
  List.map_append

/-- The counters agree with the samples: a key's counter runs exactly while the
    key differs, and is due `DEBOUNCE` after the first sample that did. -/
structure Sound (debounceTime : Byte) (calls : List (DebounceCall κ Bool)) (due : κ → Nat) :
    Prop where
  runs : ∀ t, (∀ c ∈ calls.getLast?, c.time = t) →
    (after debounceTime calls).state.RunsTo t due
  differ : ∀ k, (after debounceTime calls).state.counter k ≠ 0 ↔
    (after debounceTime calls).last k ≠ (after debounceTime calls).state.cooked k
  started : ∀ k,
    if (after debounceTime calls).last k ≠ (after debounceTime calls).state.cooked k then
      ∃ start, firstDiffering ((after debounceTime calls).state.cooked k) (samples k calls) =
        some start ∧ due k = start + debounceTime.toNat
    else firstDiffering ((after debounceTime calls).state.cooked k) (samples k calls) = none

section Next

variable {debounceTime : Byte} {calls : List (DebounceCall κ Bool)} {due : κ → Nat}

theorem Sound.first (h : Sound debounceTime calls due) (c : DebounceCall κ Bool) (k : κ)
    (hk : c.raw k ≠ (after debounceTime calls).state.cooked k) :
    firstDiffering ((after debounceTime calls).state.cooked k) (samples k (calls ++ [c])) =
      some (if (after debounceTime calls).last k ≠ (after debounceTime calls).state.cooked k then
        due k - debounceTime.toNat else c.time) := by
  rw [samples_concat, firstDiffering_concat, if_pos hk]
  have hstarted := h.started k
  by_cases hdiff : (after debounceTime calls).last k ≠ (after debounceTime calls).state.cooked k
  · rw [if_pos hdiff] at hstarted
    obtain ⟨start, hstart, hdue⟩ := hstarted
    rw [hstart, if_pos hdiff, hdue, Nat.add_sub_cancel, Option.getD_some]
  · rw [if_neg hdiff] at hstarted
    rw [hstarted, if_neg hdiff, Option.getD_none]

omit [Fintype κ] in
theorem first_of_same (calls : List (DebounceCall κ Bool)) (c : DebounceCall κ Bool) (k : κ)
    (value : Bool) (hk : c.raw k = value) :
    firstDiffering value (samples k (calls ++ [c])) = none := by
  rw [samples_concat, firstDiffering_concat, if_neg (not_not_intro hk)]

theorem Sound.debounceTime_le (h : Sound debounceTime calls due) (k : κ)
    (hk : (after debounceTime calls).last k ≠ (after debounceTime calls).state.cooked k) :
    debounceTime.toNat ≤ due k := by
  have hstarted := h.started k
  rw [if_pos hk] at hstarted
  obtain ⟨start, _, hdue⟩ := hstarted
  omega

theorem Sound.changes (h : Sound debounceTime calls due) (c : DebounceCall κ Bool)
    (hpos : debounceTime.toNat ≠ 0) (k : κ) :
    cookedAfter (after debounceTime calls).state c.raw (after debounceTime calls).last c.time due
        k ≠ (after debounceTime calls).state.cooked k ↔
      ∃ start, firstDiffering ((after debounceTime calls).state.cooked k)
        (samples k (calls ++ [c])) = some start ∧ debounceTime.toNat ≤ c.time - start := by
  unfold cookedAfter
  by_cases hk : c.raw k ≠ (after debounceTime calls).state.cooked k
  · rw [h.first c k hk]
    by_cases hdiff : (after debounceTime calls).last k ≠ (after debounceTime calls).state.cooked k
    · -- It differed before, so its counter has been running since it began to.
      have hlate := h.debounceTime_le k hdiff
      by_cases hnow : due k ≤ c.time
      · rw [if_pos ⟨hdiff, hnow⟩, if_pos hdiff]
        exact ⟨fun _ => ⟨_, rfl, by omega⟩, fun _ => hk⟩
      · rw [if_neg (fun h => hnow h.2), if_pos hdiff]
        refine ⟨fun hne => absurd rfl hne, ?_⟩
        rintro ⟨start, hstart, hlong⟩
        rw [Option.some.injEq] at hstart
        omega
    · -- It begins to differ now, and `DEBOUNCE` is not over at once.
      rw [if_neg (fun h => hdiff h.1), if_neg hdiff]
      refine ⟨fun hne => absurd rfl hne, ?_⟩
      rintro ⟨start, hstart, hlong⟩
      rw [Option.some.injEq] at hstart
      omega
  · rw [first_of_same calls c k _ (not_not.mp hk), not_not.mp hk, ite_self]
    exact ⟨fun hne => absurd rfl hne, fun ⟨_, hstart, _⟩ => absurd hstart (by simp)⟩

theorem Sound.still_differs (h : Sound debounceTime calls due) (c : DebounceCall κ Bool) (k : κ)
    (hk : c.raw k ≠ cookedAfter (after debounceTime calls).state c.raw
      (after debounceTime calls).last c.time due k) :
    ∃ start, firstDiffering (cookedAfter (after debounceTime calls).state c.raw
        (after debounceTime calls).last c.time due k) (samples k (calls ++ [c])) = some start ∧
      dueAfter debounceTime (after debounceTime calls).state c.raw (after debounceTime calls).last
        c.time due k = start + debounceTime.toNat := by
  -- It has not changed, for it would be as it is scanned.
  have hsame := cookedAfter_of_differs _ _ _ _ _ k hk
  have hdiffers : c.raw k ≠ (after debounceTime calls).state.cooked k := by
    rwa [hsame] at hk
  rw [hsame]
  refine ⟨_, h.first c k hdiffers, ?_⟩
  unfold dueAfter
  rw [if_neg hk]
  by_cases hdiff : (after debounceTime calls).last k = (after debounceTime calls).state.cooked k
  · rw [if_pos hdiff, if_neg (not_not_intro hdiff)]
  · rw [if_neg hdiff, if_pos hdiff, Nat.sub_add_cancel (h.debounceTime_le k hdiff)]

theorem Sound.next (hpos : debounceTime ≠ 0) (h : Sound debounceTime calls due)
    (c : DebounceCall κ Bool) (htimed : Timed ((calls ++ [c]).map DebounceCall.time)) :
    (∀ k, (after debounceTime (calls ++ [c])).state.cooked k ≠
        (after debounceTime calls).state.cooked k ↔
      ∃ start, firstDiffering ((after debounceTime calls).state.cooked k)
        (samples k (calls ++ [c])) = some start ∧ debounceTime.toNat ≤ c.time - start) ∧
    Sound debounceTime (calls ++ [c])
      (dueAfter debounceTime (after debounceTime calls).state c.raw
        (after debounceTime calls).last c.time due) := by
  have hnat : debounceTime.toNat ≠ 0 := fun hzero => hpos ((toNat_eq_zero _).mp hzero)
  obtain ⟨_, t, hlast, hle, hgap⟩ := timed_next DebounceCall.time calls c htimed
  obtain ⟨hruns, hcooked⟩ := debounce_spec debounceTime _ c.raw (after debounceTime calls).last t
    c.time due hle hgap (h.runs t hlast) h.differ _ rfl
  have hafter : ∀ k, (after debounceTime (calls ++ [c])).state.cooked k =
      cookedAfter (after debounceTime calls).state c.raw (after debounceTime calls).last c.time due
        k := by
    intro k
    rw [after_concat]
    exact hcooked k
  have hraw : (after debounceTime (calls ++ [c])).last = c.raw := by
    rw [after_concat]
    rfl
  refine ⟨fun k => ?_, fun now hnow => ?_, fun k => ?_, fun k => ?_⟩
  · rw [hafter k]
    exact h.changes c hnat k
  · have htime : c.time = now := hnow c (by simp)
    subst htime
    rw [after_concat]
    exact hruns
  · -- A counter runs exactly if it is not due, that is if its key differs.
    have hdue := dueAfter_le_iff debounceTime (after debounceTime calls).state c.raw
      (after debounceTime calls).last c.time due k hnat
    rw [hraw, hafter k, ne_eq, ne_eq, ← hdue, ← Running.zero_iff hruns k, after_concat]
    rfl
  · rw [hraw, hafter k]
    by_cases hk : c.raw k = cookedAfter (after debounceTime calls).state c.raw
        (after debounceTime calls).last c.time due k
    · rw [if_neg (not_not_intro hk)]
      exact first_of_same calls c k _ hk
    · rw [if_pos hk]
      exact h.still_differs c k hk

end Next

theorem after_sound (debounceTime : Byte) (hpos : debounceTime ≠ 0)
    (calls : List (DebounceCall κ Bool)) (htimed : Timed (calls.map DebounceCall.time)) :
    ∃ due, Sound debounceTime calls due := by
  induction calls using List.reverseRecOn with
  | nil =>
    refine ⟨fun _ => 0, fun t _ => ⟨fun h => absurd h Bool.false_ne_true,
      fun k hk => absurd rfl hk, fun k => (Nat.zero_sub t).symm⟩, fun k => ?_, fun k => ?_⟩
    · exact iff_of_false (not_not_intro rfl) (not_not_intro rfl)
    · exact firstDiffering_nil false
  | append_singleton calls c ih =>
    obtain ⟨due, hsound⟩ := ih (timed_next DebounceCall.time calls c htimed).1
    exact ⟨_, (hsound.next hpos c htimed).2⟩

theorem law (debounceTime : Byte) (hpos : debounceTime ≠ 0) (calls : List (DebounceCall κ Bool))
    (c : DebounceCall κ Bool) (htimed : Timed ((calls ++ [c]).map DebounceCall.time)) (k : κ) :
    (after debounceTime (calls ++ [c])).state.cooked k ≠
        (after debounceTime calls).state.cooked k ↔
      ∃ start, firstDiffering ((after debounceTime calls).state.cooked k)
        (samples k (calls ++ [c])) = some start ∧ debounceTime.toNat ≤ c.time - start := by
  obtain ⟨due, hsound⟩ :=
    after_sound debounceTime hpos calls (timed_next DebounceCall.time calls c htimed).1
  exact (hsound.next hpos c htimed).1 k

end Deferred

/-! ### The algorithm -/

variable {rows cols : Nat}

/-- A key's samples: when it was scanned, and whether it was down. -/
def keySamples (key : Fin rows × Fin cols) (scans : List (MatrixScan rows cols)) :
    List (Nat × Bool) :=
  scans.map (fun scan => (scan.time, scan.raw.keys key))

/-- The window law: a key changes in a scan exactly if the first of the scans up
    to this one that all find it different was `DEBOUNCE` ago or more. Other keys
    do not influence it: it is the same after any two runs that have the same
    samples of it. -/
structure DeferLaw (debounced : List (MatrixScan rows cols) → KeyMatrix rows cols)
    (debounceTime : Byte) : Prop where
  changes : ∀ scans scan, Timed ((scans ++ [scan]).map MatrixScan.time) → ∀ key,
    ((debounced (scans ++ [scan])).keys key ≠ (debounced scans).keys key ↔
      ∃ start, firstDiffering ((debounced scans).keys key) (keySamples key (scans ++ [scan])) =
        some start ∧ debounceTime.toNat ≤ scan.time - start)
  alone : ∀ scans scans', Timed (scans.map MatrixScan.time) → ∀ key,
    keySamples key scans = keySamples key scans' →
      (debounced scans).keys key = (debounced scans').keys key

theorem eq_of_changes_alike {before x y : Bool} (h : y ≠ before ↔ x ≠ before) : x = y := by
  cases before <;> cases x <;> cases y <;> simp at h <;> rfl

theorem DeferLaw.of_changes {debounced : List (MatrixScan rows cols) → KeyMatrix rows cols}
    {debounceTime : Byte}
    (h : ∀ scans scan, Timed ((scans ++ [scan]).map MatrixScan.time) → ∀ key,
      ((debounced (scans ++ [scan])).keys key ≠ (debounced scans).keys key ↔
        ∃ start, firstDiffering ((debounced scans).keys key) (keySamples key (scans ++ [scan])) =
          some start ∧ debounceTime.toNat ≤ scan.time - start)) :
    DeferLaw debounced debounceTime := by
  refine ⟨h, fun scans => ?_⟩
  -- On the scans: what a scan does to a key depends on its samples and on what
  -- it was before.
  induction scans using List.reverseRecOn with
  | nil =>
    intro scans' _ key hsamples
    rw [List.map_eq_nil_iff.mp hsamples.symm]
  | append_singleton scans scan ih =>
    intro scans' htimed key hsamples
    rcases List.eq_nil_or_concat scans' with rfl | ⟨before, scan', rfl⟩
    · exact absurd hsamples (by simp [keySamples])
    · rw [List.concat_eq_append] at hsamples ⊢
      -- The same samples mean the same times, so both runs are timed.
      have hsplit : keySamples key scans = keySamples key before ∧
          scan.time = scan'.time := by
        have hmap := hsamples
        unfold keySamples at hmap ⊢
        rw [List.map_append, List.map_append] at hmap
        have hinj := List.append_inj' hmap rfl
        exact ⟨hinj.1, (Prod.ext_iff.mp (List.singleton_inj.mp hinj.2)).1⟩
      have htimes : (before ++ [scan']).map MatrixScan.time =
          (scans ++ [scan]).map MatrixScan.time := by
        have hfst := congrArg (List.map Prod.fst) hsamples
        unfold keySamples at hfst
        rw [List.map_map, List.map_map] at hfst
        exact hfst.symm
      have hbefore := ih before (timed_next MatrixScan.time scans scan htimed).1 key hsplit.1
      have hscan := h scans scan htimed key
      have hscan' := h before scan' (by rwa [htimes]) key
      rw [← hsamples, ← hbefore, ← hsplit.2, ← hscan] at hscan'
      exact eq_of_changes_alike hscan'

theorem sym_defer_pk_law (rows cols : Nat) (debounceTime : Byte) (hpos : debounceTime ≠ 0) :
    DeferLaw (symDeferPk debounceTime : List (MatrixScan rows cols) → KeyMatrix rows cols)
      debounceTime := by
  refine DeferLaw.of_changes (fun scans scan ht key => ?_)
  have htimed : Timed ((scans.map MatrixScan.byKey ++ [scan.byKey]).map DebounceCall.time) := by
    rwa [← List.map_singleton, ← List.map_append, List.map_map]
  have hlaw := Deferred.law debounceTime hpos _ scan.byKey htimed key
  rw [← List.map_singleton, ← List.map_append] at hlaw
  have hsamples : Deferred.samples key ((scans ++ [scan]).map MatrixScan.byKey) =
      keySamples key (scans ++ [scan]) := by
    unfold Deferred.samples keySamples
    rw [List.map_map]
    rfl
  rw [hsamples] at hlaw
  exact hlaw

theorem sym_defer_pk_law_five :
    (5 : Byte) ≠ 0 ∧
      DeferLaw (symDeferPk 5 : List (MatrixScan 5 14) → KeyMatrix 5 14) 5 :=
  ⟨by decide, sym_defer_pk_law 5 14 5 (by decide)⟩

end K530
