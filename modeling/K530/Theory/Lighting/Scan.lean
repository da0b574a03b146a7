import K530.Lib.Cycle
import K530.Lighting.Pwm

/-!
# The Row Scan Goes Round

The two counters of the row scan have different moduli and wrap at different
points. Counted from the start, the interrupt after `n` others finds them where
`n` says: the pin counter at `n` modulo the number of pins, and the row counter
a third of the way through it. So what an interrupt serves repeats with the
pins, and a window of as many interrupts as there are pins serves everything
once, wherever it is placed.

Both counters have eight bits, and so have the loops that turn the row pins
off: up to 85 rows fit. With more the first interrupt does not return.

## Main definitions

* `Pwm.At`: The counters after so many interrupts.

## Theorems

* `advance_at`: The counters move on.
* `rows_in_step`: The counters stay in step, and every window serves
  everything once.
-/

namespace K530

variable {b : LedBoard}

def LedBoard.rowOf (b : LedBoard) (pin : Nat) : Nat := (pin + 1) / 3 % b.rows

structure Pwm.At (s : Pwm b) (n : Nat) : Prop where
  pin : s.currentRow.toNat = n % b.rowsHw
  row : s.rowIdx.toNat = b.rowOf s.currentRow.toNat

structure RowTurn.Follows (t : RowTurn b) (n : Nat) : Prop where
  pin : t.pin = (n + 1) % b.rowsHw
  row : t.row = b.rowOf t.pin
  channel : t.channel = t.pin % 3
  scanned : t.scanned = t.row

/-- A window serves each channel of each row once and each row pin once, and
    scans each row of keys three times. -/
structure ServesOnce (b : LedBoard) (window : List (RowTurn b)) : Prop where
  channels : ∀ row < b.rows, ∀ channel < 3,
    window.countP (fun t => t.row = row ∧ t.channel = channel) = 1
  pins : ∀ pin < b.rowsHw, window.countP (fun t => t.pin = pin) = 1
  keys : ∀ row < b.rows, window.countP (fun t => t.scanned = row) = 3

/-- Whether a turn reads an LED that is not black. -/
def RowTurn.met (t : RowTurn b) : Bool :=
  (List.range b.cols).any
    (fun col => Pwm.isLit (Pwm.readLed t.ledState t.beyond (b.matrixCo t.row col)))

def Enabling : Bool → List (RowTurn b) → Prop
  | _, [] => True
  | enabled, t :: ts =>
    t.raised = (if enabled || t.met then some t.pin else none) ∧
      (t.drive.enabled ≠ [] → (enabled || t.met) = true) ∧ Enabling (enabled || t.met) ts

theorem LedBoard.rowOf_eq (b : LedBoard) (pin : Nat) (h : pin < b.rowsHw) :
    b.rowOf pin = if (pin + 1) / 3 = b.rows then 0 else (pin + 1) / 3 := by
  unfold LedBoard.rowsHw at h
  unfold LedBoard.rowOf
  by_cases hlast : (pin + 1) / 3 = b.rows
  · rw [if_pos hlast, hlast, Nat.mod_self]
  · rw [if_neg hlast, Nat.mod_eq_of_lt]
    omega

/-! ### The counters -/

theorem toNat_succ (x : Byte) (h : x.toNat < 255) : (x + 1).toNat = x.toNat + 1 := by
  rw [BitVec.toNat_add]
  exact Nat.mod_eq_of_lt (Nat.succ_lt_succ h)

theorem Pwm.advance_pin (s : Pwm b) (hfit : b.rowsHw ≤ 255)
    (hlt : s.currentRow.toNat < b.rowsHw) :
    s.advance.currentRow.toNat =
      if s.currentRow.toNat + 1 = b.rowsHw then 0 else s.currentRow.toNat + 1 := by
  have hnext : (s.currentRow + 1).toNat = s.currentRow.toNat + 1 := toNat_succ _ (by omega)
  unfold Pwm.advance
  dsimp only
  rw [hnext]
  by_cases h : s.currentRow.toNat + 1 = b.rowsHw
  · rw [if_pos h, if_pos (by omega)]
    rfl
  · rw [if_neg h, if_neg (by omega), hnext]

theorem Pwm.advance_row (s : Pwm b) (hfit : b.rows ≤ 255) (hlt : s.rowIdx.toNat < b.rows) :
    s.advance.rowIdx.toNat =
      if s.advance.currentRow.toNat % 3 = 2 then
        if s.rowIdx.toNat + 1 = b.rows then 0 else s.rowIdx.toNat + 1
      else s.rowIdx.toNat := by
  have hnext : (s.rowIdx + 1).toNat = s.rowIdx.toNat + 1 := toNat_succ _ (by omega)
  have hadvance : s.advance.rowIdx.toNat =
      if b.rows ≤ (if s.advance.currentRow.toNat % 3 = 2 then s.rowIdx + 1 else s.rowIdx).toNat
      then 0
      else (if s.advance.currentRow.toNat % 3 = 2 then s.rowIdx + 1 else s.rowIdx).toNat := by
    unfold Pwm.advance
    dsimp only
    rw [apply_ite BitVec.toNat]
    rfl
  rw [hadvance]
  by_cases hkeys : s.advance.currentRow.toNat % 3 = 2
  · rw [if_pos hkeys, if_pos hkeys, hnext]
    by_cases hlast : s.rowIdx.toNat + 1 = b.rows
    · rw [if_pos (by omega), if_pos hlast]
    · rw [if_neg (by omega), if_neg hlast]
  · -- The row stays, and it was in range.
    rw [if_neg hkeys, if_neg hkeys, if_neg (by omega)]

theorem Pwm.advance_at (s : Pwm b) (n : Nat) (hpos : 0 < b.rows) (hfit : b.rowsHw ≤ 255)
    (h : s.At n) : s.advance.At (n + 1) := by
  have hrows : b.rowsHw = b.rows * 3 := rfl
  have hlt : s.currentRow.toNat < b.rowsHw := by
    rw [h.pin]
    exact Nat.mod_lt _ (by omega)
  have hpin := s.advance_pin hfit hlt
  have hrow := h.row
  rw [b.rowOf_eq _ hlt] at hrow
  have hnext : s.advance.currentRow.toNat < b.rowsHw := by
    rw [hpin]
    split <;> omega
  constructor
  · -- The pin counter goes on by one, or from the last pin to the first.
    rw [h.pin] at hlt
    rw [hpin, h.pin, ← Nat.mod_add_mod n b.rowsHw 1]
    by_cases hlast : n % b.rowsHw + 1 = b.rowsHw
    · rw [if_pos hlast, hlast, Nat.mod_self]
    · rw [if_neg hlast]
      exact (Nat.mod_eq_of_lt (by omega)).symm
  · rw [b.rowOf_eq _ hnext, s.advance_row (by omega) (by split at hrow <;> omega), hrow, hpin]
    -- The row counter wraps at the last pin but one, before the pin counter does.
    split_ifs <;> omega

/-! ### Runs -/

theorem Pwm.rgbCallback_at (s : Pwm b) (n : Nat) (beyond : Byte → Rgb) (hpos : 0 < b.rows)
    (hfit : b.rowsHw ≤ 255) (h : s.At n) :
    ∃ s' t, s.rgbCallback beyond = some (s', t) ∧ s'.At (n + 1) ∧ t.Follows n := by
  have hnext := s.advance_at n hpos hfit h
  unfold Pwm.rgbCallback
  rw [if_neg (by omega)]
  refine ⟨_, _, rfl, ?_, ⟨hnext.pin, hnext.row, rfl, rfl⟩⟩
  rw [Pwm.updatePwmChannels_state]
  exact ⟨hnext.pin, hnext.row⟩

theorem Pwm.run_at (hpos : 0 < b.rows) (hfit : b.rowsHw ≤ 255) (es : List (PwmEvent b)) :
    ∀ (s : Pwm b) (n : Nat), s.At n →
      ∃ s' turns, s.run es = some (s', turns) ∧ s'.At (n + turns.length) ∧
        turns.length = es.countP PwmEvent.isInterrupt ∧
        ∀ i (h : i < turns.length), turns[i].Follows (n + i) := by
  induction es with
  | nil =>
    intro s n h
    exact ⟨s, [], rfl, h, rfl, by simp⟩
  | cons e es ih =>
    intro s n h
    cases e with
    | setColor index red green blue =>
      obtain ⟨s', turns, hrun, hat, hlength, hturns⟩ :=
        ih (s.setColor index.val red green blue) n ⟨h.pin, h.row⟩
      refine ⟨s', turns, ?_, hat, hlength, hturns⟩
      simp [Pwm.run, Pwm.step, hrun]
    | setColorAll red green blue =>
      obtain ⟨s', turns, hrun, hat, hlength, hturns⟩ :=
        ih (s.setColorAll red green blue) n (by
          rw [Pwm.setColorAll_frame]
          exact ⟨h.pin, h.row⟩)
      refine ⟨s', turns, ?_, hat, hlength, hturns⟩
      simp [Pwm.run, Pwm.step, hrun]
    | interrupt beyond =>
      -- Only the interrupt moves the counters, and it is one turn more.
      obtain ⟨s₁, t, hback, hat₁, hturn⟩ := s.rgbCallback_at n beyond hpos hfit h
      obtain ⟨s', turns, hrun, hat, hlength, hturns⟩ := ih s₁ (n + 1) hat₁
      refine ⟨s', t :: turns, ?_, ?_, ?_, ?_⟩
      · simp [Pwm.run, Pwm.step, hback, hrun]
      · rw [List.length_cons, show n + (turns.length + 1) = n + 1 + turns.length by omega]
        exact hat
      · rw [List.length_cons, hlength, List.countP_cons_of_pos rfl]
      · intro i hi
        cases i with
        | zero => exact hturn
        | succ i =>
          rw [List.getElem_cons_succ, show n + (i + 1) = n + 1 + i by omega]
          exact hturns i (Nat.lt_of_succ_lt_succ hi)

/-! ### The outputs -/

theorem Pwm.updatePwmChannels_enabled (beyond : Byte → Rgb) (s : Pwm b)
    (h : (Pwm.updatePwmChannels beyond s).2.enabled ≠ []) :
    (Pwm.updatePwmChannels beyond s).1.enablePwm := by
  have hloop : ∀ (cols : List Nat) (r : Pwm b × Drive),
      (r.2.enabled ≠ [] → r.1.enablePwm) →
        (cols.foldl (Pwm.updateColumn beyond) r).2.enabled ≠ [] →
          (cols.foldl (Pwm.updateColumn beyond) r).1.enablePwm := by
    intro cols
    induction cols with
    | nil => exact fun r hr => hr
    | cons col cols ih =>
      refine fun r hr => ih _ (fun hne => ?_)
      dsimp only [Pwm.updateColumn] at hne ⊢
      -- Either something was enabled before this column, or it is by it.
      by_cases hon : (r.1.enablePwm || Pwm.isLit (Pwm.readLed r.1.ledState beyond
          (b.matrixCo r.1.rowIdx.toNat col)))
      · exact hon
      · rw [if_neg hon, List.append_nil] at hne
        rw [hr hne, Bool.true_or]
  exact hloop (List.range b.cols) _ (fun hne => absurd rfl hne) h

theorem Pwm.rgbCallback_enabling (s s' : Pwm b) (t : RowTurn b) (beyond : Byte → Rgb)
    (h : s.rgbCallback beyond = some (s', t)) :
    s'.enablePwm = (s.enablePwm || t.met) ∧
      t.raised = (if s.enablePwm || t.met then some t.pin else none) ∧
      (t.drive.enabled ≠ [] → (s.enablePwm || t.met) = true) := by
  unfold Pwm.rgbCallback at h
  split at h
  · cases h
  · rw [Option.some.injEq, Prod.mk.injEq] at h
    obtain ⟨rfl, rfl⟩ := h
    have hstate := congrArg Pwm.enablePwm (Pwm.updatePwmChannels_state beyond s.advance)
    refine ⟨hstate, ?_, ?_⟩
    · dsimp only
      rw [hstate]
      rfl
    · intro hne
      exact hstate.symm.trans (Pwm.updatePwmChannels_enabled beyond s.advance hne)

theorem Pwm.run_enabling (es : List (PwmEvent b)) :
    ∀ (s s' : Pwm b) (turns : List (RowTurn b)), s.run es = some (s', turns) →
      Enabling s.enablePwm turns := by
  induction es with
  | nil =>
    intro s s' turns h
    cases h
    trivial
  | cons e es ih =>
    intro s s' turns h
    simp only [Pwm.run, Option.bind_eq_some_iff, Option.map_eq_some_iff] at h
    obtain ⟨⟨s₁, first⟩, hstep, ⟨s₂, rest⟩, hrest, hpair⟩ := h
    rw [Prod.mk.injEq] at hpair
    obtain ⟨rfl, rfl⟩ := hpair
    have hlater := ih s₁ _ rest hrest
    cases e with
    | setColor index red green blue =>
      cases hstep
      exact hlater
    | setColorAll red green blue =>
      -- New colors leave the outputs as they are.
      cases hstep
      rwa [Pwm.setColorAll_frame] at hlater
    | interrupt beyond =>
      simp only [Pwm.step, Option.map_eq_some_iff, Prod.mk.injEq] at hstep
      obtain ⟨⟨s₁', t⟩, hback, rfl, rfl⟩ := hstep
      have hturn := s.rgbCallback_enabling s₁' t beyond hback
      rw [hturn.1] at hlater
      exact ⟨hturn.2.1, hturn.2.2, hlater⟩

theorem Enabling.raised (ts : List (RowTurn b)) (h : Enabling true ts) :
    ∀ t ∈ ts, t.raised = some t.pin := by
  induction ts with
  | nil => exact fun t ht => absurd ht List.not_mem_nil
  | cons t ts ih =>
    simp only [Enabling, Bool.true_or, if_true] at h
    exact List.forall_mem_cons.mpr ⟨h.1, ih h.2.2⟩

theorem Enabling.drop (ts : List (RowTurn b)) (k : Nat) :
    ∀ enabled, Enabling enabled ts → ∃ enabled', Enabling enabled' (ts.drop k) := by
  induction k generalizing ts with
  | zero => exact fun enabled h => ⟨enabled, h⟩
  | succ k ih =>
    intro enabled h
    cases ts with
    | nil => exact ⟨enabled, h⟩
    | cons t ts => exact ih ts (enabled || t.met) h.2.2

theorem Enabling.raised_from (enabled : Bool) (t : RowTurn b) (ts : List (RowTurn b))
    (h : Enabling enabled (t :: ts)) (ht : t.raised.isSome) :
    ∀ u ∈ t :: ts, u.raised = some u.pin := by
  by_cases hon : (enabled || t.met) = true
  · -- It finds the outputs enabled, or enables them, and they stay so.
    refine Enabling.raised (t :: ts) ⟨?_, fun _ => rfl, ?_⟩
    · rw [h.1, if_pos hon, Bool.true_or, if_pos rfl]
    · rw [Bool.true_or, ← hon]
      exact h.2.2
  · rw [h.1, if_neg hon] at ht
    exact absurd ht Bool.false_ne_true

/-! ### Windows -/

theorem countP_turns (turns : List (RowTurn b)) (k : Nat)
    (h : ∀ i (hi : i < turns.length), turns[i].Follows i) (hk : k + b.rowsHw ≤ turns.length)
    (p : RowTurn b → Bool) (q : Nat → Prop) [DecidablePred q]
    (hq : ∀ (t : RowTurn b) (n : Nat), t.Follows n → (p t ↔ q t.pin)) :
    ((turns.drop k).take b.rowsHw).countP p = ((Finset.range b.rowsHw).filter q).card := by
  -- The `i`-th turn shows pin `i + 1` of a cycle of all pins.
  have hperiodic : Function.Periodic (fun i => q (i % b.rowsHw)) b.rowsHw :=
    fun i => congrArg q (Nat.add_mod_right i b.rowsHw)
  rw [Cycle.countP_window b.rowsHw 1 (fun i => q (i % b.rowsHw)) hperiodic p turns ?_ k hk]
  · refine congrArg Finset.card (Finset.filter_congr (fun i hi => ?_))
    rw [Nat.mod_eq_of_lt (Finset.mem_range.mp hi)]
  · intro i hi
    rw [hq turns[i] i (h i hi), (h i hi).pin]

def LedBoard.pinOf (b : LedBoard) (row channel : Nat) : Nat :=
  if channel = 2 then (if row = 0 then b.rowsHw - 1 else 3 * row - 1) else 3 * row + channel

theorem LedBoard.rowOf_iff (b : LedBoard) (pin row channel : Nat) (hpin : pin < b.rowsHw)
    (hrow : row < b.rows) (hchannel : channel < 3) :
    b.rowOf pin = row ∧ pin % 3 = channel ↔ pin = b.pinOf row channel := by
  have hrows : b.rowsHw = b.rows * 3 := rfl
  rw [b.rowOf_eq pin hpin]
  unfold LedBoard.pinOf
  split_ifs <;> omega

theorem LedBoard.pinOf_lt (b : LedBoard) (row channel : Nat) (hrow : row < b.rows)
    (hchannel : channel < 3) : b.pinOf row channel < b.rowsHw := by
  have hrows : b.rowsHw = b.rows * 3 := rfl
  unfold LedBoard.pinOf
  split_ifs <;> omega

theorem LedBoard.rowOf_filter (b : LedBoard) (row : Nat) (hrow : row < b.rows) :
    (Finset.range b.rowsHw).filter (fun pin => b.rowOf pin = row) =
      {b.pinOf row 0, b.pinOf row 1, b.pinOf row 2} := by
  ext pin
  simp only [Finset.mem_filter, Finset.mem_range, Finset.mem_insert, Finset.mem_singleton]
  constructor
  · intro h
    have hpin : ∀ channel < 3, pin % 3 = channel → pin = b.pinOf row channel :=
      fun channel hchannel heq => (b.rowOf_iff pin row channel h.1 hrow hchannel).mp ⟨h.2, heq⟩
    -- One pin for each of the three channels.
    rcases (show pin % 3 = 0 ∨ pin % 3 = 1 ∨ pin % 3 = 2 by omega) with h0 | h1 | h2
    · exact Or.inl (hpin 0 (by omega) h0)
    · exact Or.inr (Or.inl (hpin 1 (by omega) h1))
    · exact Or.inr (Or.inr (hpin 2 (by omega) h2))
  · intro h
    have hserved : ∀ channel < 3, pin = b.pinOf row channel →
        pin < b.rowsHw ∧ b.rowOf pin = row := by
      intro channel hchannel hpin
      have hlt := b.pinOf_lt row channel hrow hchannel
      rw [← hpin] at hlt
      exact ⟨hlt, ((b.rowOf_iff pin row channel hlt hrow hchannel).mpr hpin).1⟩
    rcases h with h | h | h
    · exact hserved 0 (by omega) h
    · exact hserved 1 (by omega) h
    · exact hserved 2 (by omega) h

theorem LedBoard.rowOf_card (b : LedBoard) (row : Nat) (hrow : row < b.rows) :
    ((Finset.range b.rowsHw).filter (fun pin => b.rowOf pin = row)).card = 3 := by
  have hrows : b.rowsHw = b.rows * 3 := rfl
  have hne : ∀ c < 3, ∀ d < 3, c ≠ d → b.pinOf row c ≠ b.pinOf row d := by
    intro c hc d hd hcd
    unfold LedBoard.pinOf
    split_ifs <;> omega
  rw [b.rowOf_filter row hrow, Finset.card_eq_three]
  exact ⟨_, _, _, hne 0 (by omega) 1 (by omega) (by omega),
    hne 0 (by omega) 2 (by omega) (by omega), hne 1 (by omega) 2 (by omega) (by omega), rfl⟩

theorem follows_servesOnce (turns : List (RowTurn b)) (k : Nat)
    (h : ∀ i (hi : i < turns.length), turns[i].Follows i) (hk : k + b.rowsHw ≤ turns.length) :
    ServesOnce b ((turns.drop k).take b.rowsHw) := by
  constructor
  · intro row hrow channel hchannel
    rw [countP_turns turns k h hk _ (fun pin => b.rowOf pin = row ∧ pin % 3 = channel)
      (fun t n ht => by rw [decide_eq_true_iff, ht.row, ht.channel])]
    exact Cycle.card_eq_one b.rowsHw (b.pinOf row channel) _ (b.pinOf_lt row channel hrow hchannel)
      (fun pin hpin => b.rowOf_iff pin row channel hpin hrow hchannel)
  · intro pin hpin
    rw [countP_turns turns k h hk _ (fun i => i = pin)
      (fun t n ht => by rw [decide_eq_true_iff])]
    exact Cycle.card_eq_one b.rowsHw pin _ hpin (fun i _ => Iff.rfl)
  · intro row hrow
    rw [countP_turns turns k h hk _ (fun pin => b.rowOf pin = row)
      (fun t n ht => by rw [decide_eq_true_iff, ht.scanned, ht.row])]
    exact b.rowOf_card row hrow

/-- The counters stay in step, whatever the number of interrupts, and a window
    of as many interrupts as there are row pins serves everything once. A turn
    raises its pin when the outputs are enabled, which they stay. -/
theorem rows_in_step (b : LedBoard) (hpos : 0 < b.rows) (hfit : b.rows ≤ 85)
    (es : List (PwmEvent b)) :
    ∃ s turns, (Pwm.init b).run es = some (s, turns) ∧
      turns.length = es.countP PwmEvent.isInterrupt ∧
      s.rowIdx.toNat = (s.currentRow.toNat + 1) / 3 % b.rows ∧
      ∀ k, k + b.rowsHw ≤ turns.length →
        ServesOnce b ((turns.drop k).take b.rowsHw) ∧
        ∀ t ∈ (turns.drop k).head?, t.raised.isSome = true →
          ∀ u ∈ (turns.drop k).take b.rowsHw, u.raised = some u.pin := by
  have hrows : b.rowsHw = b.rows * 3 := rfl
  have hstart : (Pwm.init b).At 0 :=
    ⟨(Nat.zero_mod _).symm, by simp [Pwm.init, LedBoard.rowOf]⟩
  obtain ⟨s, turns, hrun, hat, hlength, hturns⟩ := Pwm.run_at hpos (by omega) es _ 0 hstart
  refine ⟨s, turns, hrun, hlength, hat.row, fun k hk => ⟨?_, ?_⟩⟩
  · exact follows_servesOnce turns k (fun i hi => by simpa using hturns i hi) hk
  · intro t ht hraised u hu
    obtain ⟨enabled, hdrop⟩ := Enabling.drop turns k false (Pwm.run_enabling es _ s turns hrun)
    cases htail : turns.drop k with
    | nil =>
      rw [htail] at ht
      exact absurd ht (by simp)
    | cons first rest =>
      rw [htail, List.head?_cons, Option.mem_some_iff] at ht
      subst ht
      rw [htail] at hdrop hu
      exact hdrop.raised_from enabled first rest hraised u (List.mem_of_mem_take hu)

theorem rows_in_step_k530 :
    (0 < k530Board.rows ∧ k530Board.rows ≤ 85) ∧
      ∃ s turns,
        (Pwm.init k530Board).run (List.replicate 15 (.interrupt (fun _ => ⟨0, 0, 0⟩))) =
            some (s, turns) ∧
          s.rowIdx.toNat = (s.currentRow.toNat + 1) / 3 % 5 ∧ ServesOnce k530Board turns := by
  obtain ⟨s, turns, hrun, hlength, hrow, hwindow⟩ :=
    rows_in_step k530Board (by decide) (by decide)
      (List.replicate 15 (.interrupt (fun _ => ⟨0, 0, 0⟩)))
  have hfifteen : turns.length = 15 := hlength
  have hserves := (hwindow 0 (by rw [hfifteen]; decide)).1
  rw [List.drop_zero, List.take_of_length_le (by rw [hfifteen]; decide)] at hserves
  exact ⟨⟨by decide, by decide⟩, s, turns, hrun, hrow, hserves⟩

/-- One row more than there is room for: the loop over its 258 pins does not
    end, and the first interrupt does not return. -/
theorem rows_in_step_broken :
    ¬ ∀ b : LedBoard, 0 < b.rows → ∀ es : List (PwmEvent b),
      ∃ s turns, (Pwm.init b).run es = some (s, turns) ∧
        turns.length = es.countP PwmEvent.isInterrupt ∧
        s.rowIdx.toNat = (s.currentRow.toNat + 1) / 3 % b.rows ∧
        ∀ k, k + b.rowsHw ≤ turns.length → ServesOnce b ((turns.drop k).take b.rowsHw) := by
  intro h
  obtain ⟨s, turns, hrun, _⟩ :=
    h { k530Board with rows := 86 } (by decide) [.interrupt (fun _ => ⟨0, 0, 0⟩)]
  exact absurd hrun (by simp [Pwm.run, Pwm.step, Pwm.rgbCallback, LedBoard.rowsHw])

end K530
