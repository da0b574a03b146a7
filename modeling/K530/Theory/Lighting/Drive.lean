import K530.Theory.Lighting.Scan

/-!
# What the Row Scan Lights

Two things the interrupt ought not to do, and does: it reads `led_state` at
`NO_LED`, and it drives a row that is dark.

A cell without an LED is read like any other, at index 255. That is inside
`led_state` only when the keyboard has more than 255 LEDs. The layout of the
K530 has such cells in its last three rows.

The outputs of an interrupt are enabled by a flag that every interrupt shares.
It goes up when any channel of any cell in the row is found lit, the channel
whose turn it is or not, and never comes down. So the outputs are enabled only
for what is lit exactly when, from the first turn on that finds a cell lit,
every turn has something lit in its own row and channel.

## Main definitions

* `RowTurn.Drives`: An output is enabled in the turn.

## Theorems

* `reads_only_leds`: When every one of them is an LED's.
* `drives_only_lit`: When every turn that drives has something lit.
-/

namespace K530

variable {b : LedBoard}

/-- An output is enabled in the turn: a column's or the row pin's. -/
def RowTurn.Drives (t : RowTurn b) : Prop := t.drive.enabled ≠ [] ∨ t.raised ≠ none

/-- An LED of the row has a value in the channel whose turn it is. -/
def RowTurn.Lit (t : RowTurn b) : Prop :=
  ∃ col < b.cols, (b.matrixCo t.row col).toNat < b.total ∧
    Pwm.channelOf (Pwm.readLed t.ledState t.beyond (b.matrixCo t.row col)) t.channel ≠ 0

instance decidableLit (t : RowTurn b) : Decidable t.Lit :=
  inferInstanceAs (Decidable (∃ col, col < b.cols ∧ _))

/-! ### Indexes -/

theorem Pwm.mem_accessed (beyond : Byte → Rgb) (s : Pwm b) (i : Byte) :
    i ∈ (Pwm.updatePwmChannels beyond s).2.accessed ↔
      ∃ col < b.cols, i = b.matrixCo s.rowIdx.toNat col := by
  have hloop : ∀ (cols : List Nat) (r : Pwm b × Drive),
      i ∈ (cols.foldl (Pwm.updateColumn beyond) r).2.accessed ↔
        i ∈ r.2.accessed ∨ ∃ col ∈ cols, i = b.matrixCo r.1.rowIdx.toNat col := by
    intro cols
    induction cols with
    | nil =>
      intro r
      simp
    | cons col cols ih =>
      intro r
      -- A column is read three times or four, always at its own cell.
      have hcolumn : i ∈ (Pwm.updateColumn beyond r col).2.accessed ↔
          i ∈ r.2.accessed ∨ i = b.matrixCo r.1.rowIdx.toNat col := by
        simp only [Pwm.updateColumn, List.mem_append, List.mem_replicate]
        split <;> simp
      rw [List.foldl_cons, ih, hcolumn, List.exists_mem_cons_iff, or_assoc]
      rfl
  unfold Pwm.updatePwmChannels
  rw [hloop]
  simp

/-- Every index is an LED's exactly when the row has no cell without one, or the
    array goes so far that `NO_LED` is the number of an LED. -/
theorem reads_only_leds (b : LedBoard) (hform : b.WellFormed) (s : Pwm b) (beyond : Byte → Rgb)
    (hrow : s.rowIdx.toNat < b.rows) :
    (∀ i ∈ (Pwm.updatePwmChannels beyond s).2.accessed, i.toNat < b.total) ↔
      (∀ col < b.cols, b.matrixCo s.rowIdx.toNat col ≠ LedBoard.noLed) ∨ 255 < b.total := by
  constructor
  · intro h
    by_cases htotal : 255 < b.total
    · exact Or.inr htotal
    · -- The index of a cell without an LED is 255, and it is read.
      refine Or.inl (fun col hcol hnone => htotal ?_)
      have hread := h _ ((s.mem_accessed beyond _).mpr ⟨col, hcol, rfl⟩)
      rwa [hnone] at hread
  · intro h i hi
    obtain ⟨col, hcol, rfl⟩ := (s.mem_accessed beyond i).mp hi
    rcases hform s.rowIdx.toNat hrow col hcol with hled | hnone
    · exact hled
    · rcases h with hall | htotal
      · exact absurd hnone (hall col hcol)
      · rw [hnone]
        exact htotal

/-- The first row of the K530 is full and is read as it should be, the third is not. -/
theorem reads_only_leds_k530 :
    (∀ i ∈ (Pwm.updatePwmChannels (fun _ => ⟨0, 0, 0⟩) (Pwm.init k530Board)).2.accessed,
      i.toNat < 63) ∧
    ¬ ∀ i ∈ (Pwm.updatePwmChannels (fun _ => ⟨0, 0, 0⟩)
        { Pwm.init k530Board with rowIdx := 2 }).2.accessed, i.toNat < 63 := by
  have hform : k530Board.WellFormed := by unfold LedBoard.WellFormed; decide
  constructor
  · exact (reads_only_leds k530Board hform (Pwm.init k530Board) (fun _ => ⟨0, 0, 0⟩)
      (by decide)).mpr (Or.inl (by decide))
  · intro hall
    rcases (reads_only_leds k530Board hform { Pwm.init k530Board with rowIdx := 2 }
      (fun _ => ⟨0, 0, 0⟩) (by decide)).mp hall with hfull | htotal
    · exact absurd rfl (hfull 12 (by decide))
    · exact absurd htotal (by decide)

/-- On the third row the cell of column 12 has no LED. -/
theorem reads_only_leds_broken :
    ¬ ∀ b : LedBoard, b.WellFormed →
      ∀ (s : Pwm b) (beyond : Byte → Rgb), s.rowIdx.toNat < b.rows →
      ∀ i ∈ (Pwm.updatePwmChannels beyond s).2.accessed, i.toNat < b.total := by
  intro h
  have hread := h k530Board (by unfold LedBoard.WellFormed; decide)
    { Pwm.init k530Board with rowIdx := 2 } (fun _ => ⟨0, 0, 0⟩) (by decide) LedBoard.noLed
    ((Pwm.mem_accessed _ _ _).mpr ⟨12, by decide, by decide⟩)
  exact absurd hread (by decide)

/-! ### Outputs -/

theorem drives_iff (enabled : Bool) (t : RowTurn b) (ts : List (RowTurn b))
    (h : Enabling enabled (t :: ts)) : t.Drives ↔ (enabled || t.met) = true := by
  constructor
  · intro hdrives
    rcases hdrives with hcolumn | hpin
    · exact h.2.1 hcolumn
    · -- The pin is raised if the outputs are enabled, and not otherwise.
      by_contra hoff
      rw [h.1, if_neg hoff] at hpin
      exact hpin rfl
  · intro hon
    refine Or.inr ?_
    rw [h.1, if_pos hon]
    exact Option.some_ne_none _

theorem drives_lit_iff (ts : List (RowTurn b)) : ∀ enabled, Enabling enabled ts →
    ((∀ t ∈ ts, t.Drives → t.Lit) ↔
      (enabled → ∀ t ∈ ts, t.Lit) ∧ (∀ t ∈ ts, t.met → t.Lit) ∧
        ts.Pairwise (fun t u => t.met = true → u.Lit)) := by
  induction ts with
  | nil =>
    intro enabled _
    simp
  | cons t ts ih =>
    intro enabled h
    have hfirst := drives_iff enabled t ts h
    rw [List.forall_mem_cons, hfirst, ih _ h.2.2, List.pairwise_cons, List.forall_mem_cons,
      List.forall_mem_cons]
    simp only [Bool.or_eq_true]
    -- A turn that finds a cell lit speaks for all that come after it.
    constructor
    · rintro ⟨hlit, hlater, hmet, hpairs⟩
      refine ⟨fun hon => ⟨hlit (Or.inl hon), hlater (Or.inl hon)⟩,
        ⟨fun hon => hlit (Or.inr hon), hmet⟩, fun u hu hon => hlater (Or.inr hon) u hu, hpairs⟩
    · rintro ⟨hon, ⟨hlit, hmet⟩, hlater, hpairs⟩
      refine ⟨fun h => ?_, fun h => ?_, hmet, hpairs⟩
      · exact h.elim (fun h => (hon h).1) hlit
      · exact h.elim (fun h => (hon h).2) (fun h u hu => hlater u hu h)

/-- Every turn that drives has something lit exactly when, from the first turn on
    that finds a cell of its row lit, every turn has an LED lit in its own row
    and channel. -/
theorem drives_only_lit (b : LedBoard) (es : List (PwmEvent b)) (s : Pwm b)
    (turns : List (RowTurn b)) (h : (Pwm.init b).run es = some (s, turns)) :
    (∀ t ∈ turns, t.Drives → t.Lit) ↔
      (∀ t ∈ turns, t.met = true → t.Lit) ∧
        turns.Pairwise (fun t u => t.met = true → u.Lit) := by
  -- The outputs are disabled to begin with, so that clause is empty.
  rw [drives_lit_iff turns false (Pwm.run_enabling es _ s turns h)]
  simp only [Bool.false_eq_true, false_implies, true_and]

/-- One LED. -/
def oneLed : LedBoard :=
  { rows := 1, cols := 1, total := 1, matrixCo := fun _ _ => 0, chanColOrder := fun _ => 0,
    underglow := [], cols_le := by decide }

/-- Dark, then white for two turns. -/
def whitened : List (PwmEvent oneLed) :=
  [.interrupt (fun _ => ⟨0, 0, 0⟩), .setColor ⟨0, by decide⟩ 255 255 255,
    .interrupt (fun _ => ⟨0, 0, 0⟩), .interrupt (fun _ => ⟨0, 0, 0⟩)]

theorem drives_only_lit_white :
    ∃ s turns, (Pwm.init oneLed).run whitened = some (s, turns) ∧ turns.length = 3 ∧
      ∀ t ∈ turns, t.Drives → t.Lit := by
  have hreturns : ((Pwm.init oneLed).run whitened).isSome := by decide
  have hrun : (Pwm.init oneLed).run whitened =
      some (((Pwm.init oneLed).run whitened).get hreturns) := (Option.some_get _).symm
  refine ⟨_, _, hrun, by decide, ?_⟩
  exact (drives_only_lit oneLed whitened _ _ hrun).mpr (by decide +kernel)

/-- An LED that has been red for one turn keeps its row driven after it has been
    set to black. -/
theorem drives_only_lit_broken :
    ¬ ∀ (b : LedBoard) (es : List (PwmEvent b)) (s : Pwm b) (turns : List (RowTurn b)),
      (Pwm.init b).run es = some (s, turns) → ∀ t ∈ turns, t.Drives → t.Lit := by
  intro h
  have hblack : ∃ s t u,
      (Pwm.init oneLed).run [.setColor ⟨0, by decide⟩ 255 0 0, .interrupt (fun _ => ⟨0, 0, 0⟩),
          .setColorAll 0 0 0, .interrupt (fun _ => ⟨0, 0, 0⟩)] = some (s, [t, u]) ∧
        u.raised = some 2 ∧ ¬ u.Lit := by
    refine ⟨_, _, _, rfl, rfl, ?_⟩
    decide +kernel
  obtain ⟨s, t, u, hrun, hraised, hdark⟩ := hblack
  have hdrives : u.Drives := by
    refine Or.inr ?_
    rw [hraised]
    exact Option.some_ne_none _
  exact hdark (h oneLed _ s _ hrun u (by simp) hdrives)

end K530
