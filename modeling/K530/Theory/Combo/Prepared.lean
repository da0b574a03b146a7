import K530.Theory.Combo.Lossless

/-!
# Prepared Combos Stay in the Ring

A combo that has been fully pressed in time is owed until it is applied, dropped for
another that shares a key with it, dropped where keys are released, or until combos
are turned off. Until then it is in the ring. Whatever takes an entry out of the
ring disables its combo for one of these reasons, and a combo that is put there
comes behind the others.

But the ring has no count, and the combo that fills its last slot makes it look empty.
So this is said of runs in which a combo that is put into the ring finds a place
there.

Nothing is asked of the keys here. Several may have the same keycode, and a key may
be pressed twice.

## Main definitions

* `Combos.owedFull`, `Combos.owedSingle`, `Combos.owedCombos`, `Combos.owedFlush`,
  `Combos.owedEvent`: What becomes of the combos that are owed.

## Theorems

* `prepared_combos_stay`: The combos that are owed are in the ring.
* `prepared_combos_broken`: Turning combos off empties the ring, and so does filling it.
-/

namespace K530

open Ring
open StepRun

namespace Combos

variable {n w m : Nat} [NeZero m] (combos : Fin n → Combo)

/-! ### What is owed -/

/-- The combos that the loop of `process_single_combo` over the ring drops. -/
def overlapDrops (i : Fin n) (ring : Fin m → Option (Fin n)) : List (Fin m) → List (Fin n)
  | [] => []
  | p :: ps =>
    match (ring p).bind (fun buffered => overlaps combos buffered i) with
    | none => overlapDrops i ring ps
    | some d => if d = i then [d] else d :: overlapDrops i ring ps

/-- A combo has been fully pressed. -/
def owedFull (now : BitVec 16) (i : Fin n) (q : Combos n w m) (owed : Finset (Fin n)) :
    Finset (Fin n) :=
  if q.timer ≠ 0 ∧ now - q.timer > (combos i).term then owed
  else
    let drops := overlapDrops combos i q.comboBuffer (positions q.read q.write)
    if i ∈ drops then owed \ drops.toFinset else insert i (owed \ drops.toFinset)

/-- The turn of a combo. -/
def owedSingle (now : BitVec 16) (keycode : Keycode) (pressed : Bool) (i : Fin n)
    (q : Combos n w m) (owed : Finset (Fin n)) : Finset (Fin n) :=
  match (combos i).keyIndex keycode with
  | none => owed
  | some index =>
    if pressed && (!(q.combos i).disabled && q.enabled) then
      let q' := q.takeKey combos i index
      if ComboState.allDown (q'.combos i).state (combos i).keys.length then
        owedFull combos now i q' owed
      else owed
    -- "combo wasn't tappable, disable it and drop it from buffer."
    else if !(q.combos i).active &&
        ComboState.allDown (q.combos i).state (combos i).keys.length && (q.combos i).disabled then
      owed.erase i
    else owed

/-- The turns of all combos. -/
def owedCombos (now : BitVec 16) (keycode : Keycode) (pressed : Bool) :
    List (Fin n) → Combos n w m → Finset (Fin n) → Finset (Fin n)
  | [], _, owed => owed
  | i :: is, q, owed =>
    owedCombos now keycode pressed is (q.processSingleCombo combos now keycode pressed i).2
      (owedSingle combos now keycode pressed i q owed)

/-- The loop of `apply_combos`. One that is disabled is not applied. -/
def owedApply : List (Fin n) → Combos n w m → Finset (Fin n) → Finset (Fin n)
  | [], _, owed => owed
  | i :: is, q, owed =>
    owedApply is (q.applyCombo combos i) (if (q.combos i).disabled then owed else owed.erase i)

/-- A flush. -/
def owedFlush (q : Combos n w m) (owed : Finset (Fin n)) : Finset (Fin n) :=
  if q.read ≠ q.write then owedApply combos q.prepared q owed else owed

/-- An event. `off` is what is still owed when combos have been turned off. -/
def owedEvent (off : Finset (Fin n) → Finset (Fin n)) (now : BitVec 16) (keycode : Keycode)
    (pressed : Bool) (q : Combos n w m) (owed : Finset (Fin n)) : Finset (Fin n) :=
  if pressed && keycode == cmbOn then owed
  else if pressed && keycode == cmbOff then off owed
  else if pressed && keycode == cmbTog then if q.enabled then off owed else owed
  else
    let (isComboKey, q') := q.processCombos combos now keycode pressed (List.finRange n)
    let owed := owedCombos combos now keycode pressed (List.finRange n) q owed
    if pressed && isComboKey then owed else q'.owedFlush combos owed

/-- `combo_task`. -/
def owedTask (now : BitVec 16) (q : Combos n w m) (owed : Finset (Fin n)) : Finset (Fin n) :=
  if !q.enabled then owed
  else if q.timer ≠ 0 ∧ now - q.timer > q.longestTerm then q.owedFlush combos owed
  else owed

/-- The combos that are owed are in the ring. -/
def Kept (q : Combos n w m) (owed : Finset (Fin n)) : Prop := ∀ i ∈ owed, i ∈ q.prepared

instance (q : Combos n w m) (owed : Finset (Fin n)) : Decidable (q.Kept owed) :=
  inferInstanceAs (Decidable (∀ i ∈ owed, i ∈ q.prepared))

/-! ### Taking entries out of the ring -/

variable {combos} {q : Combos n w m} {owed : Finset (Fin n)}

theorem mem_contents_next (q : Combos n w m) (hne : q.read ≠ q.write) {j : Fin n}
    (hj : j ∈ q.prepared) (hfirst : q.comboBuffer q.read ≠ some j) :
    j ∈ contents q.comboBuffer (q.read + 1) q.write := by
  unfold prepared contents at hj
  unfold contents
  rw [positions_cons q.read q.write hne] at hj
  obtain ⟨p, hp, hslot⟩ := List.mem_filterMap.mp hj
  rcases List.mem_cons.mp hp with rfl | hp
  · exact absurd hslot hfirst
  · exact List.mem_filterMap.mpr ⟨p, hp, hslot⟩

theorem dropComboFromBuffer_keeps (i : Fin n) (q : Combos n w m) {j : Fin n} (hj : j ∈ q.prepared)
    (hji : j ≠ i) : j ∈ (q.dropComboFromBuffer i).prepared := by
  unfold dropComboFromBuffer
  cases hfind : (positions q.read q.write).find? (fun p => q.comboBuffer p = some i) with
  | none => exact hj
  | some p =>
    dsimp only
    have hslot : q.comboBuffer p = some i := by simpa using List.find?_some hfind
    by_cases hread : p = q.read
    · -- It was the first one.
      rw [if_pos (show p = (q.disable i).read from hread)]
      have hmem := List.mem_of_find?_eq_some hfind
      have hne : q.read ≠ q.write := hread ▸ positions_last q.read q.write p hmem
      refine mem_contents_next q hne hj (fun hfirst => hji ?_)
      rw [← hread, hslot] at hfirst
      exact (Option.some.inj hfirst).symm
    · rw [if_neg (show ¬ p = (q.disable i).read from hread)]
      exact hj

theorem applyCombo_keeps (i : Fin n) (q : Combos n w m) {j : Fin n} (hj : j ∈ q.prepared)
    (hji : (q.combos i).disabled = false → j ≠ i) : j ∈ (q.applyCombo combos i).prepared := by
  unfold applyCombo
  cases hdisabled : (q.combos i).disabled with
  | true => exact hj
  | false =>
    rw [if_neg Bool.false_ne_true]
    dsimp only
    -- Activating a combo does nothing to the ring.
    refine dropComboFromBuffer_keeps i _ ?_ (hji hdisabled)
    unfold activate
    split
    · exact hj
    · exact hj

theorem dropOverlapping_keeps (combos : Fin n → Combo) (i : Fin n) (ps : List (Fin m))
    (q : Combos n w m)
    (hps : ∀ p ∈ ps, p ≠ q.write) :
    (q.dropOverlapping combos i ps).2.comboBuffer = q.comboBuffer ∧
      (q.dropOverlapping combos i ps).2.write = q.write ∧
      ((q.dropOverlapping combos i ps).1 ↔ i ∈ overlapDrops combos i q.comboBuffer ps) ∧
      ∀ j ∈ q.prepared, j ∉ overlapDrops combos i q.comboBuffer ps →
        j ∈ (q.dropOverlapping combos i ps).2.prepared := by
  induction ps generalizing q with
  | nil => exact ⟨rfl, rfl, by simp [dropOverlapping, overlapDrops], fun j hj _ => hj⟩
  | cons p ps ih =>
    have hrest : ∀ p ∈ ps, p ≠ q.write := fun p hp => hps p (List.mem_cons_of_mem _ hp)
    rw [dropOverlapping, overlapDrops]
    cases hover : (q.comboBuffer p).bind (fun buffered => overlaps combos buffered i) with
    | none => exact ih q hrest
    | some d =>
      dsimp only
      by_cases hdi : d = i
      · rw [if_pos hdi, if_pos hdi, hdi]
        exact ⟨rfl, rfl, by simp, fun j hj _ => hj⟩
      rw [if_neg hdi, if_neg hdi]
      -- What is dropped is the combo of the slot, so that no other leaves the ring.
      have hslot : q.comboBuffer p = some d := by
        obtain ⟨buffered, hbuffered, hd⟩ := Option.bind_eq_some_iff.mp hover
        rw [hbuffered, (overlaps_eq_some buffered i d hd).resolve_right hdi]
      obtain ⟨q', hq', hring, hwrite, hkeeps⟩ : ∃ q', q' =
          (if p = q.read then { q.disable d with read := q.read + 1 } else q.disable d) ∧
          q'.comboBuffer = q.comboBuffer ∧ q'.write = q.write ∧
          ∀ j ∈ q.prepared, j ≠ d → j ∈ q'.prepared := by
        refine ⟨_, rfl, ?_⟩
        by_cases hread : p = q.read
        · rw [if_pos hread]
          refine ⟨rfl, rfl, fun j hj hjd => ?_⟩
          have hne : q.read ≠ q.write := hread ▸ hps p List.mem_cons_self
          refine mem_contents_next q hne hj (fun hfirst => hjd ?_)
          rw [← hread, hslot] at hfirst
          exact (Option.some.inj hfirst).symm
        · rw [if_neg hread]
          exact ⟨rfl, rfl, fun j hj _ => hj⟩
      rw [← hq']
      obtain ⟨hring', hwrite', hself, hkeeps'⟩ := ih q' (by rw [hwrite]; exact hrest)
      rw [hring] at hring' hself hkeeps'
      refine ⟨hring', hwrite'.trans hwrite, ?_, fun j hj hnot => ?_⟩
      · rw [hself, List.mem_cons]
        exact (or_iff_right (Ne.symm hdi)).symm
      · rw [List.mem_cons, not_or] at hnot
        exact hkeeps' j (hkeeps j hj hnot.1) hnot.2

theorem enqueue_prepared (i : Fin n) (q : Combos n w m) (hplace : q.write + 1 ≠ q.read) :
    (q.enqueue i).prepared = q.prepared ++ [i] := by
  have hpush := contents_push q.comboBuffer q.read q.write i
  rw [if_neg hplace] at hpush
  exact hpush

theorem chordRelease_keeps (i : Fin n) (index : Nat) (q : Combos n w m) {j : Fin n}
    (hj : j ∈ q.prepared)
    (hji : (!(q.combos i).active &&
      ComboState.allDown (q.combos i).state (combos i).keys.length &&
        (q.combos i).disabled) → j ≠ i) :
    j ∈ (q.chordRelease combos i index).2.prepared := by
  unfold chordRelease
  dsimp only
  by_cases hready : (!(q.combos i).active &&
      ComboState.allDown (q.combos i).state (combos i).keys.length) = true
  · rw [if_pos hready]
    rw [hready, Bool.true_and] at hji
    by_cases hdisabled : (q.combos i).disabled
    · rw [if_pos hdisabled]
      exact dropComboFromBuffer_keeps i q hj (hji hdisabled)
    · rw [if_neg hdisabled]
      exact hj
  · -- Nothing is done to the ring.
    rw [if_neg hready]
    split
    · exact hj
    · split
      · exact hj
      · exact hj

/-! ### The parts of an event -/

theorem Kept.full (h : q.Kept owed) (now : BitVec 16) (i : Fin n)
    (hplace : ¬ (q.timer ≠ 0 ∧ now - q.timer > (combos i).term) →
      (q.dropOverlapping combos i (positions q.read q.write)).1 = false →
      (q.dropOverlapping combos i (positions q.read q.write)).2.write + 1 ≠
        (q.dropOverlapping combos i (positions q.read q.write)).2.read) :
    (q.fullyPressed combos now i).Kept (owedFull combos now i q owed) := by
  unfold fullyPressed owedFull
  by_cases hlate : q.timer ≠ 0 ∧ now - q.timer > (combos i).term
  · rw [if_pos hlate, if_pos hlate]
    exact h
  rw [if_neg hlate, if_neg hlate]
  obtain ⟨hring, hwrite, hself, hkeeps⟩ := dropOverlapping_keeps combos i
    (positions q.read q.write) q (positions_last _ _)
  -- What is still owed when the overlapping ones have been dropped is in the ring.
  have hrest : ∀ j ∈ owed \ (overlapDrops combos i q.comboBuffer
      (positions q.read q.write)).toFinset,
      j ∈ (q.dropOverlapping combos i (positions q.read q.write)).2.prepared := by
    intro j hj
    rw [Finset.mem_sdiff, List.mem_toFinset] at hj
    exact hkeeps j (h j hj.1) hj.2
  dsimp only
  cases hdropped : (q.dropOverlapping combos i (positions q.read q.write)).1 with
  | true =>
    -- The combo itself has been dropped for one that is in the ring.
    rw [if_pos rfl, if_pos (hself.mp hdropped)]
    exact hrest
  | false =>
    have hnot : i ∉ overlapDrops combos i q.comboBuffer (positions q.read q.write) :=
      fun hi => Bool.false_ne_true (hdropped.symm.trans (hself.mpr hi))
    rw [if_neg Bool.false_ne_true, if_neg hnot]
    intro j hj
    -- It is put behind the others, for which there is a place.
    rw [enqueue_prepared i _ (hplace hlate hdropped), List.mem_append, List.mem_singleton]
    rcases Finset.mem_insert.mp hj with rfl | hj
    · exact Or.inr rfl
    · exact Or.inl (hrest j hj)

theorem Kept.single (h : q.Kept owed) (now : BitVec 16) (keycode : Keycode) (pressed : Bool)
    (i : Fin n)
    (hplace : pressed → ∀ index ∈ (combos i).keyIndex keycode,
      q.takesPart combos keycode i → (q.takeKey combos i index).FindsPlace combos now i) :
    (q.processSingleCombo combos now keycode pressed i).2.Kept
      (owedSingle combos now keycode pressed i q owed) := by
  unfold processSingleCombo owedSingle
  cases hindex : (combos i).keyIndex keycode with
  | none => exact h
  | some index =>
    dsimp only
    by_cases hpart : (pressed && (!(q.combos i).disabled && q.enabled)) = true
    · rw [if_pos hpart, if_pos hpart]
      rw [Bool.and_eq_true] at hpart
      have htakes : q.takesPart combos keycode i := by
        unfold takesPart
        rw [hpart.2, hindex]
        rfl
      have hfinds := hplace hpart.1 index hindex htakes
      -- Taking the key leaves the ring.
      have hprepared := (takeKey_rest combos i index q).2.2.2.2
      have htaken : (q.takeKey combos i index).Kept owed := by
        intro j hj
        rw [hprepared]
        exact h j hj
      change (if ComboState.allDown ((q.takeKey combos i index).combos i).state
        (combos i).keys.length then (q.takeKey combos i index).fullyPressed combos now i
        else q.takeKey combos i index).Kept _
      by_cases hall : ComboState.allDown ((q.takeKey combos i index).combos i).state
          (combos i).keys.length
      · rw [if_pos hall, if_pos hall]
        exact htaken.full now i (hfinds hall)
      · rw [if_neg hall, if_neg hall]
        exact htaken
    · rw [if_neg hpart, if_neg hpart]
      intro j hj
      by_cases hdrops : (!(q.combos i).active &&
          ComboState.allDown (q.combos i).state (combos i).keys.length &&
            (q.combos i).disabled)
      · -- Its combo is dropped, and is owed no longer.
        rw [if_pos hdrops, Finset.mem_erase] at hj
        exact chordRelease_keeps i index q (h j hj.2) (fun _ => hj.1)
      · rw [if_neg hdrops] at hj
        exact chordRelease_keeps i index q (h j hj) (fun hc => absurd hc hdrops)

theorem Kept.turns (h : q.Kept owed) (now : BitVec 16) (keycode : Keycode) (pressed : Bool)
    (is : List (Fin n)) (hplaces : pressed → q.FindPlaces combos now keycode is) :
    (q.processCombos combos now keycode pressed is).2.Kept
      (owedCombos combos now keycode pressed is q owed) := by
  induction is generalizing q owed with
  | nil => exact h
  | cons i is ih =>
    refine ih (h.single now keycode pressed i (fun hpressed => (hplaces hpressed).1))
      (fun hpressed => ?_)
    subst hpressed
    exact (hplaces rfl).2

theorem Kept.apply (h : q.Kept owed) (is : List (Fin n)) :
    (is.foldl (fun q i => q.applyCombo combos i) q).Kept (owedApply combos is q owed) := by
  induction is generalizing q owed with
  | nil => exact h
  | cons i is ih =>
    refine ih (fun j hj => ?_)
    cases hdisabled : (q.combos i).disabled with
    | true =>
      rw [hdisabled, if_pos rfl] at hj
      exact applyCombo_keeps i q (h j hj)
        (fun hc => absurd (hdisabled.symm.trans hc) Bool.false_ne_true.symm)
    | false =>
      rw [hdisabled, if_neg Bool.false_ne_true, Finset.mem_erase] at hj
      exact applyCombo_keeps i q (h j hj.2) (fun _ => hj.1)

theorem Kept.flush (h : q.Kept owed) : (q.flush combos).Kept (q.owedFlush combos owed) := by
  unfold Combos.flush owedFlush
  by_cases hsome : q.read ≠ q.write
  · rw [if_pos hsome, if_pos hsome]
    exact h.apply q.prepared
  · rw [if_neg hsome, if_neg hsome]
    exact h

theorem Kept.event {off : Finset (Fin n) → Finset (Fin n)} (hoff : ∀ owed, off owed = ∅)
    (h : q.Kept owed) (capacity : Nat) (now : BitVec 16) (serial : Nat) (keycode : Keycode)
    (pressed : Bool)
    (hplaces : pressed → q.FindPlaces combos now keycode (List.finRange n)) :
    (q.processCombo combos capacity now serial keycode pressed).2.Kept
      (owedEvent combos off now keycode pressed q owed) := by
  unfold processCombo owedEvent
  by_cases hon : (pressed && keycode == cmbOn) = true
  · rw [if_pos hon, if_pos hon]
    exact h
  rw [if_neg hon, if_neg hon]
  -- When combos are turned off nothing is owed any more.
  have hnone : ∀ q : Combos n w m, q.Kept (off owed) := by
    intro q i hi
    rw [hoff] at hi
    exact absurd hi (Finset.notMem_empty i)
  by_cases hoffKey : (pressed && keycode == cmbOff) = true
  · rw [if_pos hoffKey, if_pos hoffKey]
    exact hnone _
  rw [if_neg hoffKey, if_neg hoffKey]
  by_cases htoggle : (pressed && keycode == cmbTog) = true
  · rw [if_pos htoggle, if_pos htoggle]
    unfold toggle
    dsimp only
    by_cases henabled : q.enabled
    · rw [if_pos henabled, if_pos henabled]
      exact hnone _
    · rw [if_neg henabled, if_neg henabled]
      exact h
  rw [if_neg htoggle, if_neg htoggle]
  have hturns := h.turns now keycode pressed (List.finRange n) hplaces
  generalize q.processCombos combos now keycode pressed (List.finRange n) = turns at hturns ⊢
  obtain ⟨isComboKey, q'⟩ := turns
  dsimp only at hturns ⊢
  by_cases hwaits : (pressed && isComboKey) = true
  · rw [if_pos hwaits, if_pos hwaits]
    exact hturns
  · rw [if_neg hwaits, if_neg hwaits]
    exact hturns.flush

theorem Kept.task (h : q.Kept owed) (now : BitVec 16) :
    (q.comboTask combos now).Kept (q.owedTask combos now owed) := by
  unfold comboTask owedTask
  by_cases henabled : (!q.enabled) = true
  · rw [if_pos henabled, if_pos henabled]
    exact h
  rw [if_neg henabled, if_neg henabled]
  by_cases hlate : q.timer ≠ 0 ∧ now - q.timer > q.longestTerm
  · rw [if_pos hlate, if_pos hlate]
    exact h.flush
  · rw [if_neg hlate, if_neg hlate]
    exact h

end Combos

/-! ### Runs -/

/-- A run, with the combos that are owed. -/
structure Owing (n w m : Nat) where
  queue : Combos n w m
  /-- `timer_read` -/
  clock : BitVec 16
  /-- how many presses there have been -/
  serials : Nat
  owed : Finset (Fin n)

namespace Owing

variable {n w m : Nat} [NeZero m]

def start (n w m : Nat) [NeZero m] : Owing n w m :=
  { queue := .init n w m, clock := 0, serials := 0, owed := ∅ }

variable (combos : Fin n → Combo) (capacity : Nat) (off : Finset (Fin n) → Finset (Fin n))

/-- An event, whatever the keys are. -/
def event (keycode : Keycode) (pressed : Bool) (r : Owing n w m) : Owing n w m :=
  let (goesOn, q) := r.queue.processCombo combos capacity r.clock r.serials keycode pressed
  { r with
    queue := if goesOn then q.deliver pressed (.key r.serials) else q,
    serials := r.serials + 1,
    owed := r.queue.owedEvent combos off r.clock keycode pressed r.owed }

def step (r : Owing n w m) : ComboInput → Owing n w m
  | .press keycode => r.event combos capacity off keycode true
  | .release keycode => r.event combos capacity off keycode false
  | .task =>
    { r with
      queue := r.queue.comboTask combos r.clock,
      owed := r.queue.owedTask combos r.clock r.owed }
  | .tick now => { r with clock := now }

/-- A combo that is put into the ring finds a place there. -/
def HasPlaces (r : Owing n w m) : ComboInput → Prop
  | .press keycode => r.queue.FindPlaces combos r.clock keycode (List.finRange n)
  | .release _ => True
  | .task => True
  | .tick _ => True

instance (r : Owing n w m) : DecidablePred (HasPlaces combos r)
  | .press keycode =>
    inferInstanceAs (Decidable (r.queue.FindPlaces combos r.clock keycode (List.finRange n)))
  | .release _ => inferInstanceAs (Decidable True)
  | .task => inferInstanceAs (Decidable True)
  | .tick _ => inferInstanceAs (Decidable True)

variable {combos capacity off} {r : Owing n w m}

theorem step_kept (hoff : ∀ owed, off owed = ∅) (h : r.queue.Kept r.owed) (input : ComboInput)
    (hplaces : HasPlaces combos r input) :
    (r.step combos capacity off input).queue.Kept (r.step combos capacity off input).owed := by
  have hevent : ∀ keycode pressed,
      (pressed = true → r.queue.FindPlaces combos r.clock keycode (List.finRange n)) →
      (r.event combos capacity off keycode pressed).queue.Kept
        (r.event combos capacity off keycode pressed).owed := by
    intro keycode pressed hpressed
    have hkept := h.event hoff capacity r.clock r.serials keycode pressed hpressed
    unfold event
    dsimp only
    split
    · exact hkept
    · exact hkept
  cases input with
  | press keycode => exact hevent keycode true (fun _ => hplaces)
  | release keycode => exact hevent keycode false (fun hc => absurd hc Bool.false_ne_true)
  | task => exact h.task r.clock
  | tick now => exact h

/-- However many combos there are and however the keys are pressed: if those that are put into
    the ring find a place, they stay there for as long as they are owed. -/
theorem prepared_combos_stay (combos : Fin n → Combo) (capacity : Nat)
    (inputs : List ComboInput)
    (hplaces : Along (step combos capacity (fun _ => ∅)) (HasPlaces combos) (start n w m) inputs) :
    Always (step combos capacity (fun _ => ∅)) (fun r => r.queue.Kept r.owed) (start n w m)
      inputs :=
  always_of_along _ (HasPlaces combos) (fun r => r.queue.Kept r.owed) _ (fun _ h => h)
    (fun _ input h hplaces => step_kept (fun _ => rfl) h input hplaces) inputs _
    (fun _ hi => absurd hi (Finset.notMem_empty _)) hplaces

theorem prepared_combos_stay_three :
    Along (step ComboRun.threePairs 8 (fun _ => ∅)) (HasPlaces ComboRun.threePairs) (start 3 8 4)
        ComboRun.chordThatStays ∧
      Always (step ComboRun.threePairs 8 (fun _ => ∅)) (fun r => r.queue.Kept r.owed)
        (start 3 8 4) ComboRun.chordThatStays :=
  have hplaces : Along (step ComboRun.threePairs 8 (fun _ => ∅)) (HasPlaces ComboRun.threePairs)
      (start 3 8 4) ComboRun.chordThatStays := by
    decide +kernel
  ⟨hplaces, prepared_combos_stay ComboRun.threePairs 8 ComboRun.chordThatStays hplaces⟩

/-- Four pairs without a key in common. -/
def fourPairs (i : Fin 4) : Combo :=
  if i.val = 0 then ComboRun.pair 9 10 (by decide) (by decide)
  else if i.val = 1 then ComboRun.pair 11 12 (by decide) (by decide)
  else if i.val = 2 then ComboRun.pair 13 14 (by decide) (by decide)
  else ComboRun.pair 15 16 (by decide) (by decide)

/-- The first is pressed, and combos are turned off. -/
def pressedThenOff : List ComboInput := [.press 9, .press 10, .press cmbOff]

/-- All four are pressed. -/
def pressedAtOnce : List ComboInput :=
  [.press 9, .press 10, .press 11, .press 12, .press 13, .press 14, .press 15, .press 16]

/-- A combo is no longer in the ring when combos have been turned off, and none is when the
    last slot of the ring has been filled. -/
theorem prepared_combos_broken :
    (¬ ∀ (n w m : Nat) [NeZero m] (combos : Fin n → Combo) (capacity : Nat)
      (inputs : List ComboInput),
      Always (step combos capacity id) (fun r => r.queue.Kept r.owed) (start n w m) inputs) ∧
      ¬ (StepRun.run (step fourPairs 8 id) (start 4 8 4) pressedThenOff).queue.Kept
        (StepRun.run (step fourPairs 8 id) (start 4 8 4) pressedThenOff).owed ∧
      ¬ (StepRun.run (step fourPairs 8 id) (start 4 8 4) pressedAtOnce).queue.Kept
        (StepRun.run (step fourPairs 8 id) (start 4 8 4) pressedAtOnce).owed := by
  have hoff : ¬ (StepRun.run (step fourPairs 8 id) (start 4 8 4) pressedThenOff).queue.Kept
      (StepRun.run (step fourPairs 8 id) (start 4 8 4) pressedThenOff).owed := by
    decide +kernel
  have hfull : ¬ (StepRun.run (step fourPairs 8 id) (start 4 8 4) pressedAtOnce).queue.Kept
      (StepRun.run (step fourPairs 8 id) (start 4 8 4) pressedAtOnce).owed := by
    decide +kernel
  refine ⟨fun h => hoff ?_, hoff, hfull⟩
  have hvisited := (always_iff_visited (step fourPairs 8 id) (fun r => r.queue.Kept r.owed)
    pressedThenOff (start 4 8 4)).mp (h 4 8 4 fourPairs 8 pressedThenOff)
  exact hvisited pressedThenOff [] (List.append_nil _).symm

end Owing

end K530
