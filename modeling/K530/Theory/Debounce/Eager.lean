import K530.Theory.Debounce.Countdown

/-!
# The Eager Debouncers

A cell takes over what is scanned unless it did so less than `DEBOUNCE`
milliseconds ago, and that is all it does.

The counter of a cell that was taken over last at some time is due `DEBOUNCE`
after it, and locks the cell until then. What the algorithm must not miss is a
cell that changed while it was locked. It is taken over in the call its counter
runs out in, since a counter that runs out has the whole matrix looked at. So
whenever a counter is at zero, its cell is as it was scanned, and a call that
does not look at the matrix misses nothing.

## Main definitions

* `Eager.after`: The state after some calls.

## Theorems

* `Eager.catchUp_spec`, `Eager.debounce_spec`: A call.
* `Eager.after_sound`: Along any run.
-/

namespace K530

namespace Eager

variable {κ β : Type} [Fintype κ] [DecidableEq β]

/-! ### A call -/

def RunsTo (s : Eager κ β) (t : Nat) (due : κ → Nat) : Prop :=
  Running s.counter s.lastTime s.countersNeedUpdate t due

omit [DecidableEq β] in
theorem catchUp_spec (s : Eager κ β) (t now : Nat) (due : κ → Nat) (hle : t ≤ now)
    (hgap : now - t < 2 ^ 32) (hruns : s.RunsTo t due) :
    ∀ s₁, s₁ = s.catchUp (BitVec.ofNat 32 now) →
      s₁.RunsTo now due ∧ s₁.cooked = s.cooked ∧
      (s.countersNeedUpdate → s₁.lastTime = BitVec.ofNat 32 now) ∧
      ∀ k, s.counter k ≠ 0 → s₁.counter k = 0 → s₁.matrixNeedUpdate := by
  intro s₁ hs₁
  unfold RunsTo at hruns ⊢
  unfold catchUp at hs₁
  by_cases hneed : s.countersNeedUpdate
  · -- Some are running, so the time since the last call is taken off them.
    rw [hneed] at hruns
    rw [if_pos hneed] at hs₁
    dsimp only at hs₁
    by_cases helapsed : 0 < elapsedTime (BitVec.ofNat 32 now) s.lastTime
    · rw [if_pos helapsed] at hs₁
      subst hs₁
      refine ⟨hruns.lower hle hgap, rfl, fun _ => rfl, fun k hk hzero => ?_⟩
      -- This counter was running and is at zero, so it is one that ran out.
      exact decide_eq_true ⟨k, (runsOut_iff _ _).mpr ⟨hk, hzero⟩⟩
    · rw [if_neg helapsed] at hs₁
      subst hs₁
      refine ⟨?_, rfl, fun _ => rfl, fun k hk hzero => absurd hzero hk⟩
      dsimp only
      rw [hneed]
      exact hruns.still hle hgap helapsed
  · rw [if_neg hneed] at hs₁
    subst hs₁
    rw [Bool.not_eq_true] at hneed
    rw [hneed] at hruns ⊢
    -- None is running, and none can run out.
    exact ⟨hruns.idle hle, rfl, fun h => absurd h Bool.false_ne_true,
      fun k hk hzero => absurd hzero hk⟩

def dueAfter (debounceTime : Byte) (cooked raw : κ → β) (now : Nat) (due : κ → Nat)
    (k : κ) : Nat :=
  if due k ≤ now ∧ cooked k ≠ raw k then now + debounceTime.toNat else due k

variable (debounceTime : Byte)

theorem transferMatrixValues_spec (s : Eager κ β) (raw : κ → β) (now : Nat) (due : κ → Nat)
    (hruns : s.RunsTo now due) (hclock : s.lastTime = BitVec.ofNat 32 now) :
    (s.transferMatrixValues debounceTime raw).RunsTo now
        (dueAfter debounceTime s.cooked raw now due) ∧
      ∀ k, (s.transferMatrixValues debounceTime raw).cooked k =
        if due k ≤ now then raw k else s.cooked k := by
  have htakes : ∀ k, s.takes raw k ↔ due k ≤ now ∧ s.cooked k ≠ raw k := by
    intro k
    unfold takes
    rw [Bool.and_eq_true, bne_iff_ne, beq_iff_eq, hruns.zero_iff k]
    exact and_comm
  -- The counter of a cell that is taken over is started, every other one kept.
  unfold transferMatrixValues RunsTo
  refine ⟨⟨fun _ => hclock, fun k hk => ?_, fun k => ?_⟩, fun k => ?_⟩
  · dsimp only at hk ⊢
    by_cases hk' : s.takes raw k
    · rw [Bool.or_eq_true]
      exact Or.inr (decide_eq_true ⟨k, hk'⟩)
    · rw [if_neg hk'] at hk
      rw [hruns.armed k hk, Bool.true_or]
  · dsimp only
    unfold dueAfter
    by_cases hk : s.takes raw k
    · rw [if_pos hk, if_pos ((htakes k).mp hk), Nat.add_sub_cancel_left]
    · rw [if_neg hk, if_neg (fun h => hk ((htakes k).mpr h)), hruns.counts k]
  · dsimp only
    by_cases hk : s.takes raw k
    · rw [if_pos hk, if_pos ((htakes k).mp hk).1]
    · rw [if_neg hk]
      by_cases hdue : due k ≤ now
      · rw [if_pos hdue]
        by_contra hne
        exact hk ((htakes k).mpr ⟨hdue, hne⟩)
      · rw [if_neg hdue]

omit [Fintype κ] [DecidableEq β] in
theorem clocked_spec (s s₁ : Eager κ β) (now : Nat) (due : κ → Nat) (hruns : s₁.RunsTo now due)
    (hlast : s.countersNeedUpdate → s₁.lastTime = BitVec.ofNat 32 now) :
    ∀ s₂, s₂ = (if s.countersNeedUpdate = true then s₁
        else { s₁ with lastTime := BitVec.ofNat 32 now }) →
      s₂.RunsTo now due ∧ s₂.lastTime = BitVec.ofNat 32 now ∧ s₂.cooked = s₁.cooked := by
  intro s₂ hs₂
  by_cases hneed : s.countersNeedUpdate
  · rw [if_pos hneed] at hs₂
    subst hs₂
    exact ⟨hruns, hlast hneed, rfl⟩
  · rw [if_neg hneed] at hs₂
    subst hs₂
    exact ⟨hruns.clocked, rfl, rfl⟩

theorem due_settled (s : Eager κ β) (raw last : κ → β) (now : Nat) (due : κ → Nat)
    (s₁ : Eager κ β) (hruns : s₁.RunsTo now due)
    (hout : ∀ k, s.counter k ≠ 0 → s₁.counter k = 0 → s₁.matrixNeedUpdate)
    (hsettled : ∀ k, s.counter k = 0 → s.cooked k = last k)
    (hlooks : (matrixChanged raw last || s₁.matrixNeedUpdate) = false) (k : κ)
    (hdue : due k ≤ now) : s.cooked k = raw k := by
  rw [Bool.or_eq_false_iff] at hlooks
  have hsame : raw k = last k := by
    by_contra hk
    exact of_decide_eq_false hlooks.1 ⟨k, hk⟩
  -- Had its counter run out just now the matrix would be looked at.
  rw [hsame]
  refine hsettled k ?_
  by_contra hk
  rw [hout k hk ((hruns.zero_iff k).mpr hdue)] at hlooks
  exact Bool.noConfusion hlooks.2

theorem debounce_takes (s : Eager κ β) (raw last : κ → β) (t now : Nat) (due : κ → Nat)
    (hle : t ≤ now) (hgap : now - t < 2 ^ 32) (hruns : s.RunsTo t due)
    (hsettled : ∀ k, s.counter k = 0 → s.cooked k = last k) :
    ∀ s', s' = s.debounce debounceTime (BitVec.ofNat 32 now) raw (matrixChanged raw last) →
      s'.RunsTo now (dueAfter debounceTime s.cooked raw now due) ∧
      ∀ k, s'.cooked k = if due k ≤ now then raw k else s.cooked k := by
  intro s' hs'
  obtain ⟨hruns₁, hcooked, hlast, hout⟩ := s.catchUp_spec t now due hle hgap hruns _ rfl
  unfold debounce at hs'
  dsimp only at hs'
  by_cases hlooks : (matrixChanged raw last ||
      (s.catchUp (BitVec.ofNat 32 now)).matrixNeedUpdate)
  · rw [if_pos hlooks] at hs'
    obtain ⟨hruns₂, hclock₂, hcooked₂⟩ := clocked_spec s _ now due hruns₁ hlast _ rfl
    have hspec := transferMatrixValues_spec debounceTime _ raw now due hruns₂ hclock₂
    rw [← hs'] at hspec
    rwa [hcooked₂, hcooked] at hspec
  · -- What is due is as it was scanned already, so nothing is missed.
    rw [if_neg hlooks] at hs'
    rw [Bool.not_eq_true] at hlooks
    have hdone := due_settled s raw last now due _ hruns₁ hout hsettled hlooks
    subst hs'
    refine ⟨?_, fun k => ?_⟩
    · have hdueAfter : dueAfter debounceTime s.cooked raw now due = due := by
        funext k
        exact if_neg (fun h => h.2 (hdone k h.1))
      rw [hdueAfter]
      exact hruns₁
    · rw [hcooked]
      by_cases hdue : due k ≤ now
      · rw [if_pos hdue, hdone k hdue]
      · rw [if_neg hdue]

theorem debounce_spec (hpos : debounceTime ≠ 0) (s : Eager κ β) (raw last : κ → β) (t now : Nat)
    (due : κ → Nat) (hle : t ≤ now) (hgap : now - t < 2 ^ 32) (hruns : s.RunsTo t due)
    (hsettled : ∀ k, s.counter k = 0 → s.cooked k = last k) :
    ∀ s', s' = s.debounce debounceTime (BitVec.ofNat 32 now) raw (matrixChanged raw last) →
      s'.RunsTo now (dueAfter debounceTime s.cooked raw now due) ∧
      (∀ k, s'.cooked k = if due k ≤ now then raw k else s.cooked k) ∧
      ∀ k, s'.counter k = 0 → s'.cooked k = raw k := by
  intro s' hs'
  obtain ⟨hruns', hcooked'⟩ :=
    s.debounce_takes debounceTime raw last t now due hle hgap hruns hsettled s' hs'
  refine ⟨hruns', hcooked', fun k hk => ?_⟩
  -- A counter at zero is due, and was not started in this call.
  have hdue := (hruns'.zero_iff k).mp hk
  have hnat : debounceTime.toNat ≠ 0 := fun h => hpos ((toNat_eq_zero _).mp h)
  unfold dueAfter at hdue
  rw [hcooked' k]
  by_cases hnow : due k ≤ now
  · rw [if_pos hnow]
  · rw [if_neg (fun h => hnow h.1)] at hdue
    exact absurd hdue hnow

/-! ### Runs -/

def after (debounceTime : Byte) (up : β) (calls : List (DebounceCall κ β)) :
    Debounced (Eager κ β) κ β :=
  calls.foldl (Eager.call debounceTime) { state := init up, last := fun _ => up }

theorem after_concat (up : β) (calls : List (DebounceCall κ β)) (c : DebounceCall κ β) :
    after debounceTime up (calls ++ [c]) =
      Eager.call debounceTime (after debounceTime up calls) c :=
  List.foldl_concat ..

def Flips (debounceTime : Byte) (up : β) (k : κ) (before : List (DebounceCall κ β))
    (c : DebounceCall κ β) : Prop :=
  (after debounceTime up (before ++ [c])).state.cooked k ≠
    (after debounceTime up before).state.cooked k

def Locked (debounceTime : Byte) (up : β) (k : κ) (calls : List (DebounceCall κ β))
    (now : Nat) : Prop :=
  ∃ before c behind, calls = before ++ c :: behind ∧ Flips debounceTime up k before c ∧
    now - c.time < debounceTime.toNat

structure LastFlip (debounceTime : Byte) (up : β) (k : κ) (calls : List (DebounceCall κ β))
    (due : Nat) : Prop where
  none_later : ∀ before c behind, calls = before ++ c :: behind →
    Flips debounceTime up k before c → c.time + debounceTime.toNat ≤ due
  attained : due = 0 ∨ ∃ before c behind, calls = before ++ c :: behind ∧
    Flips debounceTime up k before c ∧ c.time + debounceTime.toNat = due

theorem LastFlip.locked_iff {debounceTime : Byte} {up : β} {k : κ}
    {calls : List (DebounceCall κ β)} {due : Nat} (hpos : debounceTime ≠ 0)
    (h : LastFlip debounceTime up k calls due) (now : Nat) :
    Locked debounceTime up k calls now ↔ now < due := by
  have hnat : debounceTime.toNat ≠ 0 := fun hzero => hpos ((toNat_eq_zero _).mp hzero)
  constructor
  · rintro ⟨before, c, behind, hcalls, hflips, hlate⟩
    have hdue := h.none_later before c behind hcalls hflips
    omega
  · intro hnow
    rcases h.attained with hzero | ⟨before, c, behind, hcalls, hflips, hdue⟩
    · omega
    · exact ⟨before, c, behind, hcalls, hflips, by omega⟩

theorem split_concat {α : Type} {calls before behind : List α} {a c : α}
    (h : calls ++ [a] = before ++ c :: behind) :
    (before = calls ∧ c = a) ∨ ∃ rest, calls = before ++ c :: rest := by
  rcases List.eq_nil_or_concat behind with rfl | ⟨rest, last, rfl⟩
  · have hinj := List.append_inj' h rfl
    exact Or.inl ⟨hinj.1.symm, (List.singleton_inj.mp hinj.2).symm⟩
  · rw [List.concat_eq_append, ← List.cons_append, ← List.append_assoc] at h
    exact Or.inr ⟨rest, (List.append_inj' h rfl).1⟩

theorem LastFlip.next {debounceTime : Byte} {up : β} {k : κ} {calls : List (DebounceCall κ β)}
    {due : Nat} (h : LastFlip debounceTime up k calls due) (c : DebounceCall κ β)
    (hflips : Flips debounceTime up k calls c → due ≤ c.time) (due' : Nat)
    (hdue : (Flips debounceTime up k calls c ∧ due' = c.time + debounceTime.toNat) ∨
      (¬ Flips debounceTime up k calls c ∧ due' = due)) :
    LastFlip debounceTime up k (calls ++ [c]) due' := by
  constructor
  · intro before a behind hsplit ha
    -- A flip is the last call or one of those before, which the old time covers.
    rcases split_concat hsplit with ⟨rfl, rfl⟩ | ⟨rest, hrest⟩
    · rcases hdue with ⟨_, hdue⟩ | ⟨hnot, _⟩
      · exact Nat.le_of_eq hdue.symm
      · exact absurd ha hnot
    · have hle := h.none_later before a rest hrest ha
      rcases hdue with ⟨hc, hdue⟩ | ⟨_, hdue⟩
      · have hlate := hflips hc
        omega
      · omega
  · rcases hdue with ⟨hc, hdue⟩ | ⟨_, hdue⟩
    · exact Or.inr ⟨calls, c, [], rfl, hc, hdue.symm⟩
    · rw [hdue]
      rcases h.attained with hzero | ⟨before, a, behind, hcalls, ha, hat⟩
      · exact Or.inl hzero
      · exact Or.inr ⟨before, a, behind ++ [c], by rw [hcalls]; simp, ha, hat⟩

/-- The state agrees with the flips: every counter runs to the time its cell may
    change again, and a cell whose counter is at zero is as it was scanned. -/
structure Sound (debounceTime : Byte) (up : β) (calls : List (DebounceCall κ β))
    (due : κ → Nat) : Prop where
  runs : ∀ t, (∀ c ∈ calls.getLast?, c.time = t) →
    (after debounceTime up calls).state.RunsTo t due
  settled : ∀ k, (after debounceTime up calls).state.counter k = 0 →
    (after debounceTime up calls).state.cooked k = (after debounceTime up calls).last k
  flips : ∀ k, LastFlip debounceTime up k calls (due k)

theorem Sound.next {debounceTime : Byte} {up : β} {calls : List (DebounceCall κ β)}
    {due : κ → Nat} (hpos : debounceTime ≠ 0) (h : Sound debounceTime up calls due)
    (c : DebounceCall κ β) (htimed : Timed ((calls ++ [c]).map DebounceCall.time)) :
    (∀ k, (after debounceTime up (calls ++ [c])).state.cooked k =
      if due k ≤ c.time then c.raw k else (after debounceTime up calls).state.cooked k) ∧
    Sound debounceTime up (calls ++ [c])
      (dueAfter debounceTime (after debounceTime up calls).state.cooked c.raw c.time due) := by
  obtain ⟨_, t, hlast, hle, hgap⟩ := timed_next DebounceCall.time calls c htimed
  obtain ⟨hruns, hcooked, hsettled⟩ := debounce_spec debounceTime hpos _ c.raw
    (after debounceTime up calls).last t c.time due hle hgap (h.runs t hlast) h.settled _ rfl
  have hstate : (after debounceTime up (calls ++ [c])).state.cooked =
      ((after debounceTime up calls).state.debounce debounceTime (BitVec.ofNat 32 c.time) c.raw
        (matrixChanged c.raw (after debounceTime up calls).last)).cooked := by
    rw [after_concat]
    rfl
  rw [← hstate] at hcooked
  refine ⟨hcooked, ?_, ?_, fun k => ?_⟩
  · intro now hnow
    have htime : c.time = now := hnow c (by simp)
    subst htime
    rw [after_concat]
    exact hruns
  · rw [after_concat]
    exact hsettled
  · -- A cell flips exactly if it is due and differs from what is scanned.
    have hflips : Flips debounceTime up k calls c ↔
        due k ≤ c.time ∧ (after debounceTime up calls).state.cooked k ≠ c.raw k := by
      unfold Flips
      rw [hcooked k]
      by_cases hdue : due k ≤ c.time
      · rw [if_pos hdue]
        exact ⟨fun hne => ⟨hdue, fun heq => hne heq.symm⟩, fun hne heq => hne.2 heq.symm⟩
      · rw [if_neg hdue]
        exact ⟨fun hne => absurd rfl hne, fun hne => absurd hne.1 hdue⟩
    refine (h.flips k).next c (fun hf => (hflips.mp hf).1) _ ?_
    unfold dueAfter
    by_cases hf : Flips debounceTime up k calls c
    · exact Or.inl ⟨hf, if_pos (hflips.mp hf)⟩
    · exact Or.inr ⟨hf, if_neg (fun hd => hf (hflips.mpr hd))⟩

theorem after_sound (hpos : debounceTime ≠ 0) (up : β) (calls : List (DebounceCall κ β))
    (htimed : Timed (calls.map DebounceCall.time)) : ∃ due, Sound debounceTime up calls due := by
  induction calls using List.reverseRecOn with
  | nil =>
    refine ⟨fun _ => 0, fun t _ => ⟨fun h => absurd h Bool.false_ne_true,
      fun k hk => absurd rfl hk, fun k => (Nat.zero_sub t).symm⟩, fun k _ => rfl, fun k => ?_⟩
    exact ⟨fun before c behind h => absurd h (by simp), Or.inl rfl⟩
  | append_singleton calls c ih =>
    obtain ⟨due, hsound⟩ := ih (timed_next DebounceCall.time calls c htimed).1
    exact ⟨_, (hsound.next hpos c htimed).2⟩

theorem law (hpos : debounceTime ≠ 0) (up : β) (calls : List (DebounceCall κ β))
    (c : DebounceCall κ β) (htimed : Timed ((calls ++ [c]).map DebounceCall.time)) (k : κ) :
    (Locked debounceTime up k calls c.time →
      (after debounceTime up (calls ++ [c])).state.cooked k =
        (after debounceTime up calls).state.cooked k) ∧
    (¬ Locked debounceTime up k calls c.time →
      (after debounceTime up (calls ++ [c])).state.cooked k = c.raw k) := by
  obtain ⟨due, hsound⟩ :=
    after_sound debounceTime hpos up calls (timed_next DebounceCall.time calls c htimed).1
  have hnext := (hsound.next hpos c htimed).1 k
  have hlocked := (hsound.flips k).locked_iff hpos c.time
  constructor
  · intro h
    rw [hnext, if_neg (Nat.not_le.mpr (hlocked.mp h))]
  · intro h
    rw [hnext, if_pos (Nat.le_of_not_lt (fun hlt => h (hlocked.mpr hlt)))]

end Eager

/-! ### The two algorithms -/

variable {rows cols : Nat}

/-- A key changes in a scan. -/
def ChangesIn (debounced : List (MatrixScan rows cols) → KeyMatrix rows cols)
    (key : Fin rows × Fin cols) (before : List (MatrixScan rows cols))
    (scan : MatrixScan rows cols) : Prop :=
  (debounced (before ++ [scan])).keys key ≠ (debounced before).keys key

/-- One of the keys that lock this one changed in one of the scans, less than
    `DEBOUNCE` before this time. -/
def LockedOut (debounced : List (MatrixScan rows cols) → KeyMatrix rows cols)
    (debounceTime : Byte) (locks : Fin rows × Fin cols → Fin rows × Fin cols → Prop)
    (key : Fin rows × Fin cols) (scans : List (MatrixScan rows cols)) (now : Nat) : Prop :=
  ∃ before c behind other, scans = before ++ c :: behind ∧ locks other key ∧
    ChangesIn debounced other before c ∧ now - c.time < debounceTime.toNat

/-- At every scan of a run a key that differs and is not locked out becomes what
    is scanned, and otherwise stays as it was. No key changes that is locked out,
    so two changes that lock each other are never closer than `DEBOUNCE`. -/
structure EagerLaw (timing : List Nat → Prop)
    (debounced : List (MatrixScan rows cols) → KeyMatrix rows cols) (debounceTime : Byte)
    (locks : Fin rows × Fin cols → Fin rows × Fin cols → Prop) : Prop where
  takes : ∀ scans scan, timing ((scans ++ [scan]).map MatrixScan.time) → ∀ key,
    (debounced scans).keys key ≠ scan.raw.keys key →
      ¬ LockedOut debounced debounceTime locks key scans scan.time →
        (debounced (scans ++ [scan])).keys key = scan.raw.keys key
  stays : ∀ scans scan, timing ((scans ++ [scan]).map MatrixScan.time) → ∀ key,
    ((debounced scans).keys key = scan.raw.keys key ∨
      LockedOut debounced debounceTime locks key scans scan.time) →
        (debounced (scans ++ [scan])).keys key = (debounced scans).keys key
  apart : ∀ scans scan, timing ((scans ++ [scan]).map MatrixScan.time) → ∀ key,
    ChangesIn debounced key scans scan →
      ¬ LockedOut debounced debounceTime locks key scans scan.time

theorem EagerLaw.of_halves {timing : List Nat → Prop}
    {debounced : List (MatrixScan rows cols) → KeyMatrix rows cols} {debounceTime : Byte}
    {locks : Fin rows × Fin cols → Fin rows × Fin cols → Prop}
    (h : ∀ scans scan, timing ((scans ++ [scan]).map MatrixScan.time) → ∀ key,
      (LockedOut debounced debounceTime locks key scans scan.time →
        (debounced (scans ++ [scan])).keys key = (debounced scans).keys key) ∧
      (¬ LockedOut debounced debounceTime locks key scans scan.time →
        (debounced (scans ++ [scan])).keys key = scan.raw.keys key)) :
    EagerLaw timing debounced debounceTime locks := by
  -- A key that is not locked is as it is scanned, which may be as it was.
  refine ⟨fun scans scan ht key _ => (h scans scan ht key).2, fun scans scan ht key hstays => ?_,
    fun scans scan ht key hchanges hlock => hchanges ((h scans scan ht key).1 hlock)⟩
  by_cases hlock : LockedOut debounced debounceTime locks key scans scan.time
  · exact (h scans scan ht key).1 hlock
  · rcases hstays with hsame | hlock'
    · rw [(h scans scan ht key).2 hlock, hsame]
    · exact absurd hlock' hlock

theorem split_map {α γ : Type} (f : α → γ) (before behind : List γ) (c : γ) (l : List α)
    (h : l.map f = before ++ c :: behind) :
    ∃ before' c' behind', l = before' ++ c' :: behind' ∧ before'.map f = before ∧ f c' = c := by
  obtain ⟨l₁, l₂, rfl, h₁, h₂⟩ := List.map_eq_append_iff.mp h
  obtain ⟨c', l₃, rfl, hc, _⟩ := List.map_eq_cons_iff.mp h₂
  exact ⟨l₁, c', l₃, rfl, h₁, hc⟩

variable (debounceTime : Byte)

theorem lockedOut_pk (key : Fin rows × Fin cols) (scans : List (MatrixScan rows cols)) (now : Nat) :
    LockedOut (symEagerPk debounceTime) debounceTime (fun other key => other = key) key scans now ↔
      Eager.Locked debounceTime false key (scans.map MatrixScan.byKey) now := by
  have hchanges : ∀ before c, ChangesIn (symEagerPk debounceTime) key before c ↔
      Eager.Flips debounceTime false key (before.map MatrixScan.byKey) c.byKey := by
    intro before c
    unfold ChangesIn symEagerPk Eager.Flips Eager.after
    rw [List.map_append]
    rfl
  constructor
  · rintro ⟨before, c, behind, other, rfl, rfl, hchange, hlate⟩
    exact ⟨before.map MatrixScan.byKey, c.byKey, behind.map MatrixScan.byKey, by simp,
      (hchanges before c).mp hchange, hlate⟩
  · rintro ⟨before, c, behind, hsplit, hflips, hlate⟩
    obtain ⟨before', c', behind', rfl, rfl, rfl⟩ := split_map _ _ _ _ _ hsplit
    exact ⟨before', c', behind', key, rfl, rfl, (hchanges before' c').mpr hflips, hlate⟩

theorem lockedOut_pr (key : Fin rows × Fin cols) (scans : List (MatrixScan rows cols)) (now : Nat) :
    LockedOut (symEagerPr debounceTime) debounceTime (fun other key => other.1 = key.1) key scans
        now ↔
      Eager.Locked debounceTime (fun _ => false) key.1 (scans.map MatrixScan.byRow) now := by
  have hchanges : ∀ (before : List (MatrixScan rows cols)) (c : MatrixScan rows cols),
      (∃ col, ChangesIn (symEagerPr debounceTime) (key.1, col) before c) ↔
      Eager.Flips debounceTime (fun _ => false) key.1 (before.map MatrixScan.byRow) c.byRow := by
    intro before c
    unfold ChangesIn symEagerPr Eager.Flips Eager.after KeyMatrix.keys
    -- A row has changed exactly if one of its keys has.
    rw [List.map_append, ne_eq, funext_iff, not_forall]
    rfl
  constructor
  · rintro ⟨before, c, behind, ⟨row, col⟩, rfl, rfl, hchange, hlate⟩
    exact ⟨before.map MatrixScan.byRow, c.byRow, behind.map MatrixScan.byRow, by simp,
      (hchanges before c).mp ⟨col, hchange⟩, hlate⟩
  · rintro ⟨before, c, behind, hsplit, hflips, hlate⟩
    obtain ⟨before', c', behind', rfl, rfl, rfl⟩ := split_map _ _ _ _ _ hsplit
    obtain ⟨col, hchange⟩ := (hchanges before' c').mpr hflips
    exact ⟨before', c', behind', (key.1, col), rfl, rfl, hchange, hlate⟩

theorem sym_eager_pk_law (hpos : debounceTime ≠ 0) :
    EagerLaw Timed (symEagerPk debounceTime : List (MatrixScan rows cols) → KeyMatrix rows cols)
      debounceTime (fun other key => other = key) := by
  refine EagerLaw.of_halves (fun scans scan ht key => ?_)
  have htimed : Timed ((scans.map MatrixScan.byKey ++ [scan.byKey]).map DebounceCall.time) := by
    rwa [← List.map_singleton, ← List.map_append, List.map_map]
  have hlaw := Eager.law debounceTime hpos false _ scan.byKey htimed key
  rw [← lockedOut_pk, ← List.map_singleton, ← List.map_append] at hlaw
  exact hlaw

theorem sym_eager_pr_law (hpos : debounceTime ≠ 0) :
    EagerLaw Timed (symEagerPr debounceTime : List (MatrixScan rows cols) → KeyMatrix rows cols)
      debounceTime (fun other key => other.1 = key.1) := by
  refine EagerLaw.of_halves (fun scans scan ht key => ?_)
  have htimed : Timed ((scans.map MatrixScan.byRow ++ [scan.byRow]).map DebounceCall.time) := by
    rwa [← List.map_singleton, ← List.map_append, List.map_map]
  have hlaw := Eager.law debounceTime hpos (fun _ => false) _ scan.byRow htimed key.1
  rw [← lockedOut_pr, ← List.map_singleton, ← List.map_append] at hlaw
  exact ⟨fun h => congrFun (hlaw.1 h) key.2, fun h => congrFun (hlaw.2 h) key.2⟩

/-- Both algorithms follow the law, the one by the key and the other by the row. -/
theorem sym_eager_law (rows cols : Nat) (debounceTime : Byte) (hpos : debounceTime ≠ 0) :
    EagerLaw Timed (symEagerPk debounceTime : List (MatrixScan rows cols) → KeyMatrix rows cols)
        debounceTime (fun other key => other = key) ∧
      EagerLaw Timed (symEagerPr debounceTime : List (MatrixScan rows cols) → KeyMatrix rows cols)
        debounceTime (fun other key => other.1 = key.1) :=
  ⟨sym_eager_pk_law debounceTime hpos, sym_eager_pr_law debounceTime hpos⟩

theorem sym_eager_law_five :
    (5 : Byte) ≠ 0 ∧
      EagerLaw Timed (symEagerPk 5 : List (MatrixScan 5 14) → KeyMatrix 5 14) 5
          (fun other key => other = key) ∧
        EagerLaw Timed (symEagerPr 5 : List (MatrixScan 5 14) → KeyMatrix 5 14) 5
          (fun other key => other.1 = key.1) :=
  ⟨by decide, sym_eager_law 5 14 5 (by decide)⟩

/-- A key released exactly 2^32 milliseconds after it was pressed: the timer is
    where it was, and the counter of the press still runs. -/
theorem sym_eager_law_broken :
    ¬ ∀ (rows cols : Nat) (debounceTime : Byte), debounceTime ≠ 0 →
      EagerLaw (fun times => times.IsChain (· ≤ ·))
        (symEagerPk debounceTime : List (MatrixScan rows cols) → KeyMatrix rows cols)
        debounceTime (fun other key => other = key) := by
  intro h
  have htakes := (h 1 1 5 (by decide)).takes [⟨0, fun _ _ => true⟩] ⟨2 ^ 32, fun _ _ => false⟩
    (by simp) (0, 0) (by decide +kernel)
  refine absurd (htakes ?_) (by decide +kernel)
  -- The press is the only change, and by the clock it is long ago.
  rintro ⟨before, c, behind, other, hsplit, _, _, hlate⟩
  have hc : c ∈ [(⟨0, fun _ _ => true⟩ : MatrixScan 1 1)] := by
    rw [hsplit]
    simp
  rw [List.mem_singleton.mp hc] at hlate
  exact absurd hlate (by decide)

end K530
