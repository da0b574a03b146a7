import K530.Theory.Combo.Chord

/-!
# A Key Goes Up

The loop of `process_combo` for the release of a key. Each combo looks at it alone, and what
it does is told by the state it was in before the loop: the key's bit is gone, a result whose
last key it was is released, and a combo that is disabled may leave the ring.

## Main definitions

* `raise`, `lets`, `counts`: What becomes of a combo, whether its result is released, and
  whether it keeps the release to itself.

## Theorems

* `lets_iff`: The result is released with the last key.
* `processCombos_release`: The loop.
-/

namespace K530

open Ring

namespace Combos

variable {n w m : Nat} (combos : Fin n → Combo)

/-! ### A key goes up -/

def raise (keycode : Keycode) (q : Combos n w m) (i : Fin n) : ComboState w :=
  let cs := q.combos i
  match (combos i).keyIndex keycode with
  | none => cs
  | some index =>
    { active := cs.active && !(cs.state.getLsbD index && ComboState.onlyOneDown cs.state)
      disabled := cs.disabled, state := ComboState.keyUp cs.state index }

def lets (keycode : Keycode) (q : Combos n w m) (i : Fin n) : Bool :=
  let cs := q.combos i
  match (combos i).keyIndex keycode with
  | none => false
  | some index => cs.active && (cs.state.getLsbD index && ComboState.onlyOneDown cs.state)

def counts (keycode : Keycode) (q : Combos n w m) (i : Fin n) : Bool :=
  let cs := q.combos i
  match (combos i).keyIndex keycode with
  | none => false
  | some index =>
    cs.active && cs.state.getLsbD index ||
      !cs.active && ComboState.allDown cs.state (combos i).keys.length && !cs.disabled &&
        q.enabled

variable {combos} (keycode : Keycode) (i : Fin n) (index : Nat)

theorem lets_eq (q : Combos n w m) (hindex : (combos i).keyIndex keycode = some index) :
    q.lets combos keycode i = ((q.combos i).active && ((q.combos i).state.getLsbD index &&
      ComboState.onlyOneDown (q.combos i).state)) := by
  unfold lets
  rw [hindex]

theorem raise_eq (q : Combos n w m) (hindex : (combos i).keyIndex keycode = some index) :
    q.raise combos keycode i =
      { active := (q.combos i).active && !q.lets combos keycode i
        disabled := (q.combos i).disabled
        state := ComboState.keyUp (q.combos i).state index } := by
  rw [lets_eq keycode i index q hindex]
  unfold raise
  rw [hindex]
  dsimp only
  cases (q.combos i).active <;> rfl

theorem counts_eq (q : Combos n w m) (hindex : (combos i).keyIndex keycode = some index) :
    q.counts combos keycode i =
      ((q.combos i).active && (q.combos i).state.getLsbD index ||
        !(q.combos i).active && ComboState.allDown (q.combos i).state (combos i).keys.length &&
          !(q.combos i).disabled && q.enabled) := by
  unfold counts
  rw [hindex]

variable (q : Combos n w m)

theorem raise_none (hindex : (combos i).keyIndex keycode = none) :
    q.raise combos keycode i = q.combos i ∧ q.lets combos keycode i = false ∧
      q.counts combos keycode i = false := by
  unfold raise lets counts
  rw [hindex]
  exact ⟨rfl, rfl, rfl⟩

theorem raise_congr (q q' : Combos n w m) (h : q'.combos i = q.combos i)
    (henabled : q'.enabled = q.enabled) :
    q'.raise combos keycode i = q.raise combos keycode i ∧
      q'.lets combos keycode i = q.lets combos keycode i ∧
      q'.counts combos keycode i = q.counts combos keycode i := by
  unfold raise lets counts
  rw [h, henabled]
  exact ⟨rfl, rfl, rfl⟩

theorem raise_disabled : (q.raise combos keycode i).disabled = (q.combos i).disabled := by
  cases hindex : (combos i).keyIndex keycode with
  | none => rw [(raise_none keycode i q hindex).1]
  | some index => rw [raise_eq keycode i index q hindex]

theorem raise_state (j : Nat) :
    (q.raise combos keycode i).state.getLsbD j ↔
      (q.combos i).state.getLsbD j ∧ (combos i).keyIndex keycode ≠ some j := by
  cases hindex : (combos i).keyIndex keycode with
  | none =>
    rw [(raise_none keycode i q hindex).1]
    simp
  | some index =>
    rw [raise_eq keycode i index q hindex]
    dsimp only
    rw [ComboState.getLsbD_keyUp]
    simp

theorem raise_active :
    (q.raise combos keycode i).active ↔
      (q.combos i).active ∧ q.lets combos keycode i = false := by
  cases hindex : (combos i).keyIndex keycode with
  | none =>
    obtain ⟨hraise, hlets, -⟩ := raise_none keycode i q hindex
    rw [hraise, hlets]
    simp
  | some index =>
    rw [raise_eq keycode i index q hindex]
    simp

theorem lets_iff (keycode : Keycode) (i : Fin n) (q : Combos n w m) :
    q.lets combos keycode i ↔ (q.combos i).active ∧
      ∃ index, (combos i).keyIndex keycode = some index ∧
        (q.combos i).state.getLsbD index ∧
        ∀ j, (q.combos i).state.getLsbD j → j = index := by
  cases hindex : (combos i).keyIndex keycode with
  | none =>
    rw [(raise_none keycode i q hindex).2.1]
    simp
  | some index =>
    rw [lets_eq keycode i index q hindex, Bool.and_eq_true, Bool.and_eq_true]
    simp only [Option.some.injEq, exists_eq_left']
    refine and_congr_right (fun _ => and_congr_right (fun hbit => ?_))
    exact ComboState.onlyOneDown_iff _ index hbit

variable [NeZero m]

variable (combos) in
structure Raised (keycode : Keycode) (is : List (Fin n)) (q q' : Combos n w m) : Prop where
  states : ∀ j, q'.combos j = if j ∈ is then q.raise combos keycode j else q.combos j
  log : q'.log = q.log ++
    (is.filter (q.lets combos keycode)).map (fun i => (false, .result i (q.chord i)))
  chord : q'.chord = q.chord
  keyBuffer : q'.keyBuffer = q.keyBuffer
  enabled : q'.enabled = q.enabled
  sub : q'.prepared.Sublist q.prepared
  keeps : ∀ j ∈ q.prepared, (q.combos j).disabled = false → j ∈ q'.prepared

theorem dropComboFromBuffer_disabled (hdisabled : (q.combos i).disabled) :
    ∃ read, q.dropComboFromBuffer i = { q with read } ∧
      (contents q.comboBuffer read q.write).Sublist q.prepared ∧
      ∀ j ∈ q.prepared, (q.combos j).disabled = false →
        j ∈ contents q.comboBuffer read q.write := by
  have hsame : q.disable i = q := by
    have hstate : ({ q.combos i with disabled := true } : ComboState w) = q.combos i := by
      rw [← hdisabled]
    unfold disable setCombo
    rw [hstate, Function.update_eq_self]
  rcases q.dropComboFromBuffer_spec i with ⟨-, heq⟩ | ⟨-, read, heq, hread⟩
  · exact ⟨q.read, heq, List.Sublist.refl _, fun j hj _ => hj⟩
  · rw [hsame] at heq
    refine ⟨read, heq, ?_⟩
    rcases hread with rfl | hnext
    · exact ⟨List.Sublist.refl _, fun j hj _ => hj⟩
    · rw [hnext]
      refine ⟨List.sublist_cons_self i _, fun j hj hidle => ?_⟩
      rcases List.mem_cons.mp hj with rfl | hj
      · exact absurd (hidle.symm.trans hdisabled) Bool.false_ne_true
      · exact hj

theorem raised_setCombo (hindex : (combos i).keyIndex keycode = some index)
    (hlets : q.lets combos keycode i = false) (read : Fin m)
    (hsub : (contents q.comboBuffer read q.write).Sublist q.prepared)
    (hkeeps : ∀ j ∈ q.prepared, (q.combos j).disabled = false →
      j ∈ contents q.comboBuffer read q.write) :
    Raised combos keycode [i] q
      ({ q with read }.setCombo i
        { q.combos i with state := ComboState.keyUp (q.combos i).state index }) := by
  refine ⟨fun j => ?_, ?_, rfl, rfl, rfl, hsub, hkeeps⟩
  · by_cases hji : j = i
    · subst hji
      rw [if_pos (List.mem_singleton_self j), raise_eq keycode j index q hindex, hlets,
        Bool.not_false, Bool.and_true]
      exact Function.update_self _ _ _
    · rw [if_neg (by simpa using hji)]
      exact Function.update_of_ne hji _ _
  · rw [List.filter_cons_of_neg (by rw [hlets]; exact Bool.false_ne_true), List.filter_nil,
      List.map_nil, List.append_nil]
    rfl

theorem raised_releaseCombo (hindex : (combos i).keyIndex keycode = some index)
    (hlets : q.lets combos keycode i) :
    Raised combos keycode [i] q
      ((q.releaseCombo i).setCombo i
        { (q.releaseCombo i).combos i with
          state := ComboState.keyUp ((q.releaseCombo i).combos i).state index }) := by
  have hreleased : (q.releaseCombo i).combos i = { q.combos i with active := false } :=
    Function.update_self _ _ _
  refine ⟨fun j => ?_, ?_, rfl, rfl, rfl, List.Sublist.refl _, fun j hj _ => hj⟩
  · by_cases hji : j = i
    · subst hji
      rw [if_pos (List.mem_singleton_self j), raise_eq keycode j index q hindex, hlets,
        Bool.not_true, Bool.and_false, hreleased]
      exact Function.update_self _ _ _
    · rw [if_neg (by simpa using hji)]
      exact (Function.update_of_ne hji _ _).trans (Function.update_of_ne hji _ _)
  · rw [List.filter_cons_of_pos hlets, List.filter_nil, List.map_cons, List.map_nil]
    rfl

theorem chordRelease_spec (hindex : (combos i).keyIndex keycode = some index) :
    (q.chordRelease combos i index).1 = q.counts combos keycode i ∧
      Raised combos keycode [i] q (q.chordRelease combos i index).2 := by
  rw [counts_eq keycode i index q hindex]
  have hlets := lets_eq keycode i index q hindex
  have hstay := fun hnot : q.lets combos keycode i = false =>
    raised_setCombo keycode i index q hindex hnot q.read (List.Sublist.refl _) (fun j hj _ => hj)
  unfold chordRelease
  by_cases hactive : (q.combos i).active
  · by_cases hbit : (q.combos i).state.getLsbD index
    · by_cases hone : ComboState.onlyOneDown (q.combos i).state
      · have hlast := raised_releaseCombo keycode i index q hindex (by
          rw [hlets, hactive, hbit, hone]
          rfl)
        simpa [hactive, hbit, hone] using hlast
      · have hsame := hstay (by rw [hlets, Bool.eq_false_of_not_eq_true hone]; simp)
        simpa [hactive, hbit, hone] using hsame
    · have hsame := hstay (by rw [hlets, Bool.eq_false_of_not_eq_true hbit]; simp)
      simpa [hactive, hbit] using hsame
  · have hnot : q.lets combos keycode i = false := by
      rw [hlets, Bool.eq_false_of_not_eq_true hactive]
      rfl
    by_cases hall : ComboState.allDown (q.combos i).state (combos i).keys.length = true
    · by_cases hdisabled : (q.combos i).disabled
      · obtain ⟨read, heq, hsub, hkeeps⟩ := dropComboFromBuffer_disabled i q hdisabled
        have hdropped := raised_setCombo keycode i index q hindex hnot read hsub hkeeps
        simpa [hactive, hall, hdisabled, heq] using hdropped
      · simpa [hactive, hall, hdisabled] using hstay hnot
    · simpa [hactive, hall] using hstay hnot

variable (combos) in
theorem processSingleCombo_release (now : BitVec 16) (keycode : Keycode) (i : Fin n)
    (q : Combos n w m) :
    (q.processSingleCombo combos now keycode false i).1 = q.counts combos keycode i ∧
      Raised combos keycode [i] q (q.processSingleCombo combos now keycode false i).2 := by
  unfold processSingleCombo
  cases hindex : (combos i).keyIndex keycode with
  | none =>
    obtain ⟨hraise, hlets, hcounts⟩ := raise_none keycode i q hindex
    refine ⟨hcounts.symm, fun j => ?_, ?_, rfl, rfl, rfl, List.Sublist.refl _,
      fun j hj _ => hj⟩
    · by_cases hji : j = i
      · subst hji
        rw [if_pos (List.mem_singleton_self j), hraise]
      · rw [if_neg (by simpa using hji)]
    · rw [List.filter_cons_of_neg (by rw [hlets]; exact Bool.false_ne_true), List.filter_nil,
        List.map_nil, List.append_nil]
  | some index => exact chordRelease_spec keycode i index q hindex

theorem Raised.cons {keycode : Keycode} {i : Fin n} {is : List (Fin n)} {q q' q'' : Combos n w m}
    (hi : Raised combos keycode [i] q q') (his : Raised combos keycode is q' q'')
    (hnot : i ∉ is) : Raised combos keycode (i :: is) q q'' := by
  have hother : ∀ j, j ≠ i → q'.combos j = q.combos j := by
    intro j hji
    rw [hi.states j, if_neg (by simpa using hji)]
  have hcongr : ∀ j ∈ is, q'.raise combos keycode j = q.raise combos keycode j ∧
      q'.lets combos keycode j = q.lets combos keycode j ∧
      q'.counts combos keycode j = q.counts combos keycode j := by
    intro j hj
    have hji : j ≠ i := by
      rintro rfl
      exact hnot hj
    exact raise_congr keycode j q q' (hother j hji) hi.enabled
  refine ⟨fun j => ?_, ?_, his.chord.trans hi.chord, his.keyBuffer.trans hi.keyBuffer,
    his.enabled.trans hi.enabled, his.sub.trans hi.sub, fun j hj hidle => ?_⟩
  · rw [his.states j]
    by_cases hj : j ∈ is
    · rw [if_pos hj, if_pos (List.mem_cons_of_mem i hj), (hcongr j hj).1]
    · rw [if_neg hj, hi.states j]
      by_cases hji : j = i
      · rw [if_pos (by simp [hji]), if_pos (by simp [hji])]
      · rw [if_neg (by simp [hji]), if_neg (by simp [hji, hj])]
  · have hfilter : is.filter (q'.lets combos keycode) = is.filter (q.lets combos keycode) :=
      List.filter_congr (fun j hj => (hcongr j hj).2.1)
    rw [his.log, hi.log, hfilter, hi.chord, List.append_assoc, ← List.map_append,
      ← List.filter_append, List.singleton_append]
  · refine his.keeps j (hi.keeps j hj hidle) ?_
    by_cases hji : j = i
    · rw [hi.states j, if_pos (by simp [hji]), raise_disabled]
      exact hidle
    · rw [hother j hji]
      exact hidle

variable (combos) in
theorem processCombos_release (now : BitVec 16) (keycode : Keycode) (is : List (Fin n))
    (hnodup : is.Nodup) (q : Combos n w m) :
    (q.processCombos combos now keycode false is).1 = is.any (q.counts combos keycode) ∧
      Raised combos keycode is q (q.processCombos combos now keycode false is).2 := by
  induction is generalizing q with
  | nil =>
    refine ⟨rfl, fun j => ?_, ?_, rfl, rfl, rfl, List.Sublist.refl _, fun j hj _ => hj⟩
    · rw [if_neg List.not_mem_nil]
      rfl
    · simp [processCombos]
  | cons i is ih =>
    obtain ⟨hnot, hrest⟩ := List.nodup_cons.mp hnodup
    obtain ⟨hpart, hone⟩ := processSingleCombo_release combos now keycode i q
    obtain ⟨hothers, hmany⟩ :=
      ih hrest (q.processSingleCombo combos now keycode false i).2
    refine ⟨?_, hone.cons hmany hnot⟩
    have hsame :
        is.any ((q.processSingleCombo combos now keycode false i).2.counts combos keycode) =
          is.any (q.counts combos keycode) := by
      rw [Bool.eq_iff_iff, List.any_eq_true, List.any_eq_true]
      refine exists_congr (fun j => and_congr_right (fun hj => ?_))
      have hji : j ≠ i := by
        rintro rfl
        exact hnot hj
      have hstate :
          (q.processSingleCombo combos now keycode false i).2.combos j = q.combos j := by
        rw [hone.states j, if_neg (by simpa using hji)]
      rw [(raise_congr keycode j q _ hstate hone.enabled).2.2]
    rw [processCombos, List.any_cons]
    dsimp only
    rw [hpart, hothers, hsame]

end Combos

end K530
