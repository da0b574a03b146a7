import K530.Quantum.Tapping
import K530.Lib.Run

/-!
# What Examining a Record Can Do

`process_tapping` has some thirty paths and does ten things. `Outcome` lists
them, each with what is known of the tapping key and of the record when it
happens, and `processTapping_outcome` says that there are no others. Whatever
is proved about tapping is proved by going through the ten.

An invariant of tapping has two halves: what arrives is examined first, and
then the waiting records are, one after another. `drain_invariant` is the
second half. A condition on the examinations, where one is needed, is asked of
those that happen, `DrainAlong`.

## Main definitions

* `Undecided`, `Tapped`, `Released`: The phases of a tapping key.

## Theorems

* `processTapping_outcome`: There is nothing else it can do.
* `start_cases`: A new tapping key, and the release it may find waiting.
-/

namespace K530

namespace TapState

variable {K H : Type}

/-- The tapping key is pressed and not decided. -/
def Undecided (tk : TapRecord K) (s : TapState K H) : Prop :=
  s.tapping = some tk ∧ tk.pressed = true ∧ tk.tap.count = 0

/-- The tapping key is pressed as a tap. -/
def Tapped (tk : TapRecord K) (s : TapState K H) : Prop :=
  s.tapping = some tk ∧ tk.pressed = true ∧ 0 < tk.tap.count

/-- The tapping key has been released. -/
def Released (tk : TapRecord K) (s : TapState K H) : Prop :=
  s.tapping = some tk ∧ tk.pressed = false

def Decided (s : TapState K H) : Prop := ∀ tk, ¬ s.Undecided tk

def interrupt (tk : TapRecord K) : TapRecord K :=
  { tk with tap := { tk.tap with interrupted := true } }

/-! ### Handing over -/

section

variable (P : TapHost K H) (handedAs : HandedAs) (r : TapRecord K) (s : TapState K H)

@[simp] theorem handOver_tapping : (s.handOver P handedAs r).1.tapping = s.tapping := rfl

@[simp] theorem handOver_waiting : (s.handOver P handedAs r).1.waiting = s.waiting := rfl

@[simp] theorem handOver_arrived : (s.handOver P handedAs r).1.arrived = s.arrived := rfl

@[simp] theorem handOver_out :
    (s.handOver P handedAs r).1.out = s.out ++ [{ record := r, handedAs }] := rfl

@[simp] theorem handOver_host : (s.handOver P handedAs r).1.host = (P.process s.host r).1 := rfl

@[simp] theorem handOver_left :
    (s.handOver P handedAs r).2 = r.leave (P.process s.host r).2 := rfl

end

variable (w : Written) (r : TapRecord K)

@[simp] theorem leave_key : (r.leave w).key = r.key := rfl

@[simp] theorem leave_seq : (r.leave w).seq = r.seq := rfl

@[simp] theorem leave_time : (r.leave w).time = r.time := rfl

@[simp] theorem leave_ms : (r.leave w).ms = r.ms := rfl

variable (r : TapRecord K)

@[simp] theorem leave_nothing : r.leave Written.nothing = r := by
  simp only [TapRecord.leave, Written.nothing, Bool.not_false, Bool.and_true, Bool.false_eq_true,
    if_false]

theorem leave_released (h : r.pressed = false) : (r.leave w).pressed = false := by
  simp only [TapRecord.leave, h, Bool.false_and]

@[simp] theorem markTap_key : (markTap r).key = r.key := rfl

@[simp] theorem markTap_seq : (markTap r).seq = r.seq := rfl

@[simp] theorem markTap_pressed : (markTap r).pressed = r.pressed := rfl

@[simp] theorem markTap_time : (markTap r).time = r.time := rfl

@[simp] theorem markTap_ms : (markTap r).ms = r.ms := rfl

@[simp] theorem markTap_count : (markTap r).tap.count = 1 := rfl

@[simp] theorem interrupt_key : (interrupt r).key = r.key := rfl

@[simp] theorem interrupt_seq : (interrupt r).seq = r.seq := rfl

@[simp] theorem interrupt_pressed : (interrupt r).pressed = r.pressed := rfl

@[simp] theorem interrupt_time : (interrupt r).time = r.time := rfl

@[simp] theorem interrupt_ms : (interrupt r).ms = r.ms := rfl

@[simp] theorem interrupt_count : (interrupt r).tap.count = r.tap.count := rfl

theorem nextTap_lt {tap : Tap} (h : 0 < tap.count) : 1 < (nextTap tap).count := by
  unfold nextTap
  dsimp only
  split
  · exact Nat.succ_lt_succ h
  · omega

theorem nextTap_pos {tap : Tap} (h : 0 < tap.count) : 0 < (nextTap tap).count :=
  Nat.lt_of_succ_lt (nextTap_lt h)

variable [DecidableEq K]

/-! ### A new tapping key -/

/-- The state when a new tapping key has found its release waiting. -/
def startTap (P : TapHost K H) (r : TapRecord K) (i : Nat) (s : TapState K H) : TapState K H :=
  { s with
    waiting := s.waiting.modify i markTap, host := (P.process s.host (markTap r)).1,
    out := s.out ++ [{ record := markTap r, handedAs := .tappingKey }],
    tapping := some ((markTap r).leave (P.process s.host (markTap r)).2) }

variable (P : TapHost K H)

theorem start_cases (r : TapRecord K) (s : TapState K H) :
    s.start P r = { s with tapping := some r } ∨
      ∃ i w, s.waiting[i]? = some w ∧ w.key = r.key ∧ w.pressed = false ∧
        s.within P r w.time ∧
        (∀ j v, j < i → s.waiting[j]? = some v → v.key = r.key → v.pressed = false →
          s.within P r v.time = false) ∧
        r.tap.count = 0 ∧ r.pressed ∧ s.start P r = s.startTap P r i := by
  unfold start scanTap
  by_cases hsettled : (decide (r.tap.count > 0) || !r.pressed) = true
  · rw [if_pos hsettled]
    exact Or.inl rfl
  · rw [if_neg hsettled]
    simp only [Bool.or_eq_true, decide_eq_true_eq, Bool.not_eq_true', not_or, Nat.not_lt,
      Nat.le_zero, Bool.not_eq_false] at hsettled
    -- the scan stops at the first release of the key that is in time
    cases hfind : s.waiting.findIdx? (isTapRelease P r { s with tapping := some r }) with
    | none => exact Or.inl rfl
    | some i =>
      rw [List.findIdx?_eq_some_iff_getElem] at hfind
      rcases hfind with ⟨hi, hfound, hbefore⟩
      have hrelease : isTapRelease P r { s with tapping := some r } s.waiting[i] := hfound
      simp only [isTapRelease, Bool.and_eq_true, decide_eq_true_eq, Bool.not_eq_true'] at hrelease
      refine Or.inr ⟨i, s.waiting[i], List.getElem?_eq_getElem hi, hrelease.1.1, hrelease.1.2,
        hrelease.2, ?_, hsettled.1, hsettled.2, ?_⟩
      · intro j v hj hv hkey hpressed
        have hlt : j < s.waiting.length := Nat.lt_trans hj hi
        have hnot := hbefore j hj
        rw [List.getElem?_eq_getElem hlt, Option.some.injEq] at hv
        simp only [isTapRelease, hv, hkey, hpressed, decide_true, Bool.not_false, Bool.and_true,
          Bool.true_and, Bool.not_eq_true] at hnot
        exact hnot
      · rfl

/-! ### The outcomes -/

/-- The state in which a record becomes the tapping key: if the last one was
    tapped more than once and is not released, a release has been made up. -/
def Cleared (P : TapHost K H) (r : TapRecord K) (s t : TapState K H) : Prop :=
  (t = s ∧ ∀ tk, s.Tapped tk → tk.tap.count = 1) ∨
    ∃ tk, s.Tapped tk ∧ 1 < tk.tap.count ∧
      t = (s.handOver P .synthetic { tk with time := r.time, ms := r.ms, pressed := false }).1

inductive Outcome (P : TapHost K H) (r : TapRecord K) (s : TapState K H) : Examined K H → Prop where
  /-- It is handed over, there being nothing to decide. -/
  | pass (t : Option (TapRecord K)) (hdecided : s.Decided)
      (ht : t = s.tapping ∨ ∃ tk, s.Released tk ∧ t = some (interrupt tk))
      (hother : ∀ tk, s.Tapped tk → r.key = tk.key → r.pressed = true)
      (hin : ∀ tk, s.Released tk → s.within P tk r.time = true ∧
        (r.key = tk.key → r.pressed = false))
      (hplain : r.pressed = true → P.isTap s.host r.key = false) :
      Outcome P r s
        { state := { (s.handOver P .event r).1 with tapping := t }, record := r, consumed := true }
  /-- It is a release handed over past the undecided key. -/
  | slip (tk : TapRecord K) (hundecided : s.Undecided tk) (hin : s.within P tk r.time = true)
      (hkey : r.key ≠ tk.key) (hpressed : r.pressed = false) (htyped : s.typed r = false) :
      Outcome P r s { state := (s.handOver P .event r).1, record := r, consumed := true }
  /-- It becomes the tapping key. -/
  | start (t : TapState K H) (hpressed : r.pressed = true) (htap : P.isTap s.host r.key = true)
      (hdecided : s.Decided)
      (hin : ∀ tk, s.Released tk → s.within P tk r.time = true ∧ r.key ≠ tk.key)
      (ht : Cleared P r s t) :
      Outcome P r s { state := t.start P r, record := r, consumed := true }
  /-- It becomes the tapping key again, just after it was. -/
  | restart (tk : TapRecord K) (hpressed : r.pressed = true) (hreleased : s.Released tk)
      (hin : s.within P tk r.time = true) (hkey : r.key = tk.key) :
      Outcome P r s { state := { s with tapping := some r }, record := r, consumed := true }
  /-- It is the next tap of a sequence. -/
  | sequential (tk : TapRecord K) (hpressed : r.pressed = true) (hreleased : s.Released tk)
      (hin : s.within P tk r.time = true) (hkey : r.key = tk.key) (hcount : 0 < tk.tap.count)
      (halone : tk.tap.interrupted = false) :
      Outcome P r s
        { state :=
            { (s.handOver P .event { r with tap := nextTap tk.tap }).1 with
              tapping := some (s.handOver P .event { r with tap := nextTap tk.tap }).2 },
          record := r, consumed := true }
  /-- It is the release of a tap. -/
  | tapRelease (tk : TapRecord K) (hpressed : r.pressed = false) (htapped : s.Tapped tk)
      (hkey : r.key = tk.key) :
      Outcome P r s
        { state :=
            { (s.handOver P .event { r with tap := tk.tap }).1 with
              tapping :=
                if s.within P tk r.time then
                  some (s.handOver P .event { r with tap := tk.tap }).2
                else none },
          record := r, consumed := true }
  /-- It is the release that makes the tapping key a tap, and waits. -/
  | firstTap (tk : TapRecord K) (hpressed : r.pressed = false) (hundecided : s.Undecided tk)
      (hin : s.within P tk r.time = true) (hkey : r.key = tk.key) :
      Outcome P r s
        { state :=
            { (s.handOver P .tappingKey (markTap tk)).1 with
              tapping := some (s.handOver P .tappingKey (markTap tk)).2 },
          record := { r with tap := (s.handOver P .tappingKey (markTap tk)).2.tap },
          consumed := false }
  /-- The tapping key is a hold, and the record waits. -/
  | settle (tk : TapRecord K) (hundecided : s.Undecided tk)
      (hwhy : s.within P tk r.time = false ∨ 500 ≤ P.term s.host tk r) :
      Outcome P r s
        { state := { (s.handOver P .tappingKey tk).1 with tapping := none }, record := r,
          consumed := false }
  /-- It waits. -/
  | wait (tk : TapRecord K) (t : Option (TapRecord K)) (hundecided : s.Undecided tk)
      (hin : s.within P tk r.time = true) (ht : t = s.tapping ∨ t = some (interrupt tk))
      (hkey : r.key = tk.key → r.pressed = true) :
      Outcome P r s { state := { s with tapping := t }, record := r, consumed := false }
  /-- The tapping key is forgotten, and the record waits. -/
  | forget (tk : TapRecord K) (hreleased : s.Released tk) (hin : s.within P tk r.time = false) :
      Outcome P r s { state := { s with tapping := none }, record := r, consumed := false }

omit [DecidableEq K] in
theorem Tapped.decided {tk : TapRecord K} {s : TapState K H} (h : s.Tapped tk) : s.Decided := by
  intro tk' htk'
  have hcount := htk'.2.2
  rw [Option.some.inj (htk'.1.symm.trans h.1)] at hcount
  exact absurd h.2.2 (by omega)

omit [DecidableEq K] in
theorem Released.decided {tk : TapRecord K} {s : TapState K H} (h : s.Released tk) :
    s.Decided := by
  intro tk' htk'
  have hpressed := htk'.2.1
  rw [Option.some.inj (htk'.1.symm.trans h.1), h.2] at hpressed
  exact Bool.noConfusion hpressed

omit [DecidableEq K] in
theorem phases (tk : TapRecord K) (s : TapState K H) (h : s.tapping = some tk) :
    s.Undecided tk ∨ s.Tapped tk ∨ s.Released tk := by
  cases hpressed : tk.pressed with
  | false => exact Or.inr (Or.inr ⟨h, hpressed⟩)
  | true =>
    rcases Nat.eq_zero_or_pos tk.tap.count with hcount | hcount
    · exact Or.inl ⟨h, hpressed, hcount⟩
    · exact Or.inr (Or.inl ⟨h, hpressed, hcount⟩)

omit [DecidableEq K] in
/-- The state in which a new tapping key is looked for in the buffer. -/
def makeRoom (P : TapHost K H) (r : TapRecord K) (s : TapState K H) : TapState K H :=
  match s.tapping with
  | none => s
  | some tk =>
    if tk.pressed && decide (1 < tk.tap.count) then
      (s.handOver P .synthetic { tk with time := r.time, ms := r.ms, pressed := false }).1
    else s

omit [DecidableEq K] in
theorem Cleared.eq_makeRoom {P : TapHost K H} {r : TapRecord K} {s t : TapState K H}
    (h : Cleared P r s t) : t = s.makeRoom P r := by
  unfold makeRoom
  rcases h with ⟨ht, hone⟩ | ⟨tk, htapped, hcount, ht⟩
  · rw [ht]
    cases htapping : s.tapping with
    | none => rfl
    | some tk =>
      rcases phases tk s htapping with hphase | hphase | hphase
      · -- only a tap that is not the first is released here
        simp only [hphase.2.1, hphase.2.2, Nat.not_lt_zero, decide_false, Bool.and_false,
          Bool.false_eq_true, if_false]
      · simp only [hone tk hphase, Nat.lt_irrefl, decide_false, Bool.and_false,
          Bool.false_eq_true, if_false]
      · simp only [hphase.2, Bool.false_and, Bool.false_eq_true, if_false]
  · simp only [htapped.1, htapped.2.1, hcount, decide_true, Bool.and_self, if_true]
    exact ht

theorem examineIdle_outcome (r : TapRecord K) (s : TapState K H) (h : s.tapping = none) :
    Outcome P r s (s.examineIdle P r) := by
  have hnone : ∀ tk, s.tapping ≠ some tk := by
    intro tk htk
    rw [h] at htk
    simp only [reduceCtorEq] at htk
  unfold examineIdle
  by_cases htap : (r.pressed && P.isTap s.host r.key) = true
  · rw [if_pos htap]
    rw [Bool.and_eq_true] at htap
    exact Outcome.start s htap.1 htap.2 (fun tk htk => hnone tk htk.1)
      (fun tk htk => absurd htk.1 (hnone tk))
      (Or.inl ⟨rfl, fun tk htk => absurd htk.1 (hnone tk)⟩)
  · rw [if_neg htap]
    refine Outcome.pass s.tapping (fun tk htk => hnone tk htk.1) (Or.inl rfl)
      (fun tk htk => absurd htk.1 (hnone tk)) (fun tk htk => absurd htk.1 (hnone tk)) ?_
    intro hpressed
    simpa [hpressed] using htap

theorem examineUndecided_outcome (tk r : TapRecord K) (s : TapState K H) (h : s.Undecided tk)
    (hin : s.within P tk r.time = true) : Outcome P r s (s.examineUndecided P tk r) := by
  unfold examineUndecided
  by_cases hfirst : (decide (r.key = tk.key) && !r.pressed) = true
  · rw [if_pos hfirst]
    simp only [Bool.and_eq_true, decide_eq_true_eq, Bool.not_eq_true'] at hfirst
    exact Outcome.firstTap tk hfirst.2 h hin hfirst.1
  · rw [if_neg hfirst]
    simp only [Bool.and_eq_true, decide_eq_true_eq, Bool.not_eq_true', not_and,
      Bool.not_eq_false] at hfirst
    -- a long term makes a hold of the key at the release of another that was typed in it
    by_cases htyped : (decide (P.term s.host tk r ≥ 500) && !r.pressed && s.typed r) = true
    · rw [if_pos htyped]
      simp only [Bool.and_eq_true, decide_eq_true_eq] at htyped
      exact Outcome.settle tk h (Or.inr htyped.1.1)
    · rw [if_neg htyped]
      -- the key of this release was down before the tapping key was
      by_cases hbefore : (!r.pressed && !s.typed r) = true
      · rw [if_pos hbefore]
        simp only [Bool.and_eq_true, Bool.not_eq_true'] at hbefore
        have hkey : r.key ≠ tk.key := by
          intro hkey
          rw [hfirst hkey] at hbefore
          exact Bool.noConfusion hbefore.1
        cases P.retained s.host r with
        | true => exact Outcome.wait tk s.tapping h hin (Or.inl rfl) (fun hk => absurd hk hkey)
        | false => exact Outcome.slip tk h hin hkey hbefore.1 hbefore.2
      · rw [if_neg hbefore]
        cases hpressed : r.pressed with
        | true =>
          exact Outcome.wait tk (some (interrupt tk)) h hin (Or.inr rfl) (fun _ => hpressed)
        | false =>
          exact Outcome.wait tk s.tapping h hin (Or.inl rfl)
            (fun hk => absurd (hfirst hk) (by simp [hpressed]))

theorem examineTapped_outcome (tk r : TapRecord K) (s : TapState K H) (h : s.Tapped tk) :
    Outcome P r s (s.examineTapped P tk r) := by
  have hunique : ∀ tk', s.tapping = some tk' → tk' = tk :=
    fun tk' htk' => Option.some.inj (htk'.symm.trans h.1)
  have hdecided : s.Decided := h.decided
  have hnot : ∀ tk', ¬ s.Released tk' := by
    intro tk' htk'
    have hpressed := htk'.2
    rw [hunique tk' htk'.1, h.2.1] at hpressed
    exact Bool.noConfusion hpressed
  unfold examineTapped
  by_cases hrelease : (decide (r.key = tk.key) && !r.pressed) = true
  · rw [if_pos hrelease]
    simp only [Bool.and_eq_true, decide_eq_true_eq, Bool.not_eq_true'] at hrelease
    exact Outcome.tapRelease tk hrelease.2 h hrelease.1
  · rw [if_neg hrelease]
    simp only [Bool.and_eq_true, decide_eq_true_eq, Bool.not_eq_true', not_and,
      Bool.not_eq_false] at hrelease
    by_cases htap : (P.isTap s.host r.key && r.pressed) = true
    · rw [if_pos htap]
      rw [Bool.and_eq_true] at htap
      -- another tap key takes its place, and a sequence of taps is ended by a release of its own
      by_cases hcount : tk.tap.count > 1
      · rw [if_pos hcount]
        exact Outcome.start _ htap.2 htap.1 hdecided (fun tk' htk' => absurd htk' (hnot tk'))
          (Or.inr ⟨tk, h, hcount, rfl⟩)
      · rw [if_neg hcount]
        refine Outcome.start s htap.2 htap.1 hdecided (fun tk' htk' => absurd htk' (hnot tk'))
          (Or.inl ⟨rfl, fun tk' htk' => ?_⟩)
        have hpos := h.2.2
        rw [hunique tk' htk'.1]
        omega
    · rw [if_neg htap]
      refine Outcome.pass s.tapping hdecided (Or.inl rfl) ?_
        (fun tk' htk' => absurd htk' (hnot tk')) ?_
      · intro tk' htk' hkey
        rw [hunique tk' htk'.1] at hkey
        exact hrelease hkey
      · intro hpressed
        simpa [hpressed] using htap

theorem examineReleased_outcome (tk r : TapRecord K) (s : TapState K H) (h : s.Released tk) :
    Outcome P r s (s.examineReleased P tk r) := by
  have hunique : ∀ tk', s.tapping = some tk' → tk' = tk :=
    fun tk' htk' => Option.some.inj (htk'.symm.trans h.1)
  have hnot : ∀ tk', s.tapping = some tk' → tk'.pressed = false := by
    intro tk' htk'
    rw [hunique tk' htk']
    exact h.2
  have hdecided : s.Decided := h.decided
  have htapped : ∀ tk', ¬ s.Tapped tk' := by
    intro tk' htk'
    have hpressed := htk'.2.1
    rw [hnot tk' htk'.1] at hpressed
    exact Bool.noConfusion hpressed
  unfold examineReleased
  cases hin : s.within P tk r.time with
  | false => exact Outcome.forget tk h hin
  | true =>
    simp only [if_true]
    by_cases hpressed : r.pressed
    · rw [if_pos hpressed]
      by_cases hkey : r.key = tk.key
      · rw [if_pos hkey]
        by_cases hcount : (!tk.tap.interrupted && decide (tk.tap.count > 0)) = true
        · rw [if_pos hcount]
          simp only [Bool.and_eq_true, Bool.not_eq_true', decide_eq_true_eq] at hcount
          exact Outcome.sequential tk hpressed h hin hkey hcount.2 hcount.1
        · rw [if_neg hcount]
          exact Outcome.restart tk hpressed h hin hkey
      · rw [if_neg hkey]
        have hin' : ∀ tk', s.Released tk' → s.within P tk' r.time ∧ r.key ≠ tk'.key := by
          intro tk' htk'
          rw [hunique tk' htk'.1]
          exact ⟨hin, hkey⟩
        cases htap : P.isTap s.host r.key with
        | true =>
          exact Outcome.start s hpressed htap hdecided hin'
            (Or.inl ⟨rfl, fun tk' htk' => absurd htk' (htapped tk')⟩)
        | false =>
          exact Outcome.pass (some (interrupt tk)) hdecided (Or.inr ⟨tk, h, rfl⟩)
            (fun tk' htk' => absurd htk' (htapped tk'))
            (fun tk' htk' => ⟨(hin' tk' htk').1, fun hk => absurd hk (hin' tk' htk').2⟩)
            (fun _ => htap)
    · rw [if_neg hpressed]
      refine Outcome.pass s.tapping hdecided (Or.inl rfl)
        (fun tk' htk' => absurd htk' (htapped tk')) ?_ (fun hp => absurd hp hpressed)
      intro tk' htk'
      rw [hunique tk' htk'.1]
      exact ⟨hin, fun _ => Bool.eq_false_of_not_eq_true hpressed⟩

theorem processTapping_outcome (r : TapRecord K) (s : TapState K H) :
    Outcome P r s (s.processTapping P r) := by
  unfold processTapping
  cases htapping : s.tapping with
  | none => exact s.examineIdle_outcome P r htapping
  | some tk =>
    dsimp only
    cases hpressed : tk.pressed with
    | false => exact s.examineReleased_outcome P tk r ⟨htapping, hpressed⟩
    | true =>
      simp only [if_true]
      by_cases hcount : tk.tap.count = 0
      · rw [if_pos hcount]
        have hundecided : s.Undecided tk := ⟨htapping, hpressed, hcount⟩
        cases hin : s.within P tk r.time with
        | true => exact s.examineUndecided_outcome P tk r hundecided hin
        | false => exact Outcome.settle tk hundecided (Or.inl hin)
      · rw [if_neg hcount]
        exact s.examineTapped_outcome P tk r ⟨htapping, hpressed, Nat.pos_of_ne_zero hcount⟩

omit [DecidableEq K] in
theorem processTick_cases (time : BitVec 16) (s : TapState K H) :
    s.processTick P time = s ∨
      (∃ tk, s.Undecided tk ∧ s.within P tk time = false ∧
        s.processTick P time = { (s.handOver P .tappingKey tk).1 with tapping := none }) ∨
      ∃ tk, s.Released tk ∧ s.within P tk time = false ∧
        s.processTick P time = { s with tapping := none } := by
  unfold processTick
  cases htapping : s.tapping with
  | none => exact Or.inl rfl
  | some tk =>
    dsimp only
    by_cases hin : s.within P tk time
    · rw [if_pos hin]
      exact Or.inl rfl
    · rw [if_neg hin]
      rw [Bool.not_eq_true] at hin
      rcases phases tk s htapping with hphase | hphase | hphase
      · rw [if_pos hphase.2.1, if_pos hphase.2.2]
        exact Or.inr (Or.inl ⟨tk, hphase, hin, rfl⟩)
      · rw [if_pos hphase.2.1, if_neg (Nat.pos_iff_ne_zero.mp hphase.2.2)]
        exact Or.inl rfl
      · rw [hphase.2, if_neg Bool.false_ne_true]
        exact Or.inr (Or.inr ⟨tk, hphase, hin, rfl⟩)

/-! ### The waiting records -/

/-- Every waiting record the loop examines is examined under a condition. -/
def DrainAlong (P : TapHost K H) (C : TapState K H → TapRecord K → Prop) :
    Nat → TapState K H → Prop
  | 0, _ => True
  | turns + 1, s =>
    match s.waiting with
    | [] => True
    | w :: _ =>
      C s w ∧ ((s.processTapping P w).consumed = true →
        DrainAlong P C turns
          { (s.processTapping P w).state with
            waiting := (s.processTapping P w).state.waiting.tail })

instance decidableDrainAlong (P : TapHost K H) (C : TapState K H → TapRecord K → Prop)
    [∀ s r, Decidable (C s r)] :
    (turns : Nat) → (s : TapState K H) → Decidable (DrainAlong P C turns s)
  | 0, _ => inferInstanceAs (Decidable True)
  | turns + 1, s =>
    match h : s.waiting with
    | [] => decidable_of_iff True (by simp only [DrainAlong, h])
    | w :: _ =>
      have := decidableDrainAlong P C turns
        { (s.processTapping P w).state with
          waiting := (s.processTapping P w).state.waiting.tail }
      decidable_of_iff (C s w ∧ ((s.processTapping P w).consumed = true →
        DrainAlong P C turns
          { (s.processTapping P w).state with
            waiting := (s.processTapping P w).state.waiting.tail }))
        (by simp only [DrainAlong, h])

def afterWaiting (e : Examined K H) : TapState K H :=
  if e.consumed then { e.state with waiting := e.state.waiting.tail }
  else { e.state with waiting := e.record :: e.state.waiting.tail }

variable (C : TapState K H → TapRecord K → Prop)

theorem drain_invariant (I : TapState K H → Prop)
    (hstep : ∀ s w rest, I s → s.waiting = w :: rest → C s w →
      I (afterWaiting (s.processTapping P w))) (turns : Nat) :
    ∀ s, I s → DrainAlong P C turns s → I (s.drain P turns) := by
  induction turns with
  | zero =>
    intro s hs _
    exact hs
  | succ turns ih =>
    intro s hs hC
    unfold drain
    unfold DrainAlong at hC
    cases hwaiting : s.waiting with
    | nil => exact hs
    | cons w rest =>
      rw [hwaiting] at hC
      have hafter := hstep s w rest hs hwaiting hC.1
      unfold afterWaiting at hafter
      dsimp only
      cases hconsumed : (s.processTapping P w).consumed with
      | true =>
        rw [hconsumed] at hafter
        exact ih _ hafter (hC.2 hconsumed)
      | false =>
        rw [hconsumed] at hafter
        exact hafter

theorem drainAlong_of_forall (h : ∀ s w, C s w) (turns : Nat) : ∀ s, DrainAlong P C turns s := by
  induction turns with
  | zero =>
    intro s
    trivial
  | succ turns ih =>
    intro s
    unfold DrainAlong
    cases s.waiting with
    | nil => trivial
    | cons w rest => exact ⟨h s w, fun _ => ih _⟩

/-! ### A step -/

omit [DecidableEq K] in
/-- A condition on a key event when it arrives. -/
def OnArrival (P : TapHost K H) (A : TapState K H → TapRecord K → Prop) (s : TapState K H) :
    TapInput K → Prop
  | .tick _ => True
  | .key key pressed now =>
    A (s.arrive P (s.record key pressed now)) (s.record key pressed now)

omit [DecidableEq K] in
instance (P : TapHost K H) (A : TapState K H → TapRecord K → Prop) [∀ s r, Decidable (A s r)]
    (s : TapState K H) : (input : TapInput K) → Decidable (OnArrival P A s input)
  | .tick _ => inferInstanceAs (Decidable True)
  | .key key pressed now => inferInstanceAs
      (Decidable (A (s.arrive P (s.record key pressed now)) (s.record key pressed now)))

/-- A condition on the records when they are examined. -/
def OnExamination (P : TapHost K H) (C : TapState K H → TapRecord K → Prop) (s : TapState K H) :
    TapInput K → Prop
  | .tick now =>
    let s := { s with now := eventMs now }.processTick P (eventTime now)
    DrainAlong P C s.waiting.length s
  | .key key pressed now =>
    let r := s.record key pressed now
    let received := (s.arrive P r).receive P r
    C (s.arrive P r) r ∧ DrainAlong P C received.waiting.length received

instance (P : TapHost K H) (C : TapState K H → TapRecord K → Prop) [∀ s r, Decidable (C s r)]
    (s : TapState K H) : (input : TapInput K) → Decidable (OnExamination P C s input)
  | .tick now => inferInstanceAs
      (Decidable (DrainAlong P C
        ({ s with now := eventMs now }.processTick P (eventTime now)).waiting.length
        ({ s with now := eventMs now }.processTick P (eventTime now))))
  | .key key pressed now => inferInstanceAs
      (Decidable (C (s.arrive P (s.record key pressed now)) (s.record key pressed now) ∧
        DrainAlong P C
          ((s.arrive P (s.record key pressed now)).receive P
            (s.record key pressed now)).waiting.length
          ((s.arrive P (s.record key pressed now)).receive P (s.record key pressed now))))

theorem onExamination_of_forall (h : ∀ s r, C s r) (s : TapState K H) (input : TapInput K) :
    OnExamination P C s input := by
  cases input with
  | tick now => exact drainAlong_of_forall P C h _ _
  | key key pressed now => exact ⟨h _ _, drainAlong_of_forall P C h _ _⟩

theorem actionExec_invariant (A C : TapState K H → TapRecord K → Prop) (I : TapState K H → Prop)
    (harrive : ∀ s key pressed now, I s →
      A (s.arrive P (s.record key pressed now)) (s.record key pressed now) →
      C (s.arrive P (s.record key pressed now)) (s.record key pressed now) →
      I ((s.arrive P (s.record key pressed now)).receive P (s.record key pressed now)))
    (hwaiting : ∀ s w rest, I s → s.waiting = w :: rest → C s w →
      I (afterWaiting (s.processTapping P w)))
    (htick : ∀ s now, I s → I ({ s with now := eventMs now }.processTick P (eventTime now)))
    (s : TapState K H) (input : TapInput K) (hs : I s) (hA : OnArrival P A s input)
    (hC : OnExamination P C s input) : I (s.actionExec P input) := by
  cases input with
  | tick now => exact drain_invariant P C I hwaiting _ _ (htick s now hs) hC
  | key key pressed now =>
    exact drain_invariant P C I hwaiting _ _ (harrive s key pressed now hs hA hC.1) hC.2

end TapState

end K530
