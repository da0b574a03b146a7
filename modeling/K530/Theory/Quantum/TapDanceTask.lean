import K530.Theory.Quantum.TapDance

/-!
# The Loop of `tap_dance_task`

The loop counts in eight bits up to the highest dance that has been used, and that is one of
256. Below the last of them the counter gets past it, and the loop has visited every dance that
has been used, once. At the last the counter comes back to 0 instead, and there is no number of
rounds after which the loop is at its end.

The highest dance is that last one exactly if its key has been pressed.

## Main definitions

* `TapDances.TaskReturns`: `tap_dance_task` visits what it should, and returns.

## Theorems

* `TapDanceRun.task_returns_iff`: The runs after which `tap_dance_task` returns.
* `TapDanceRun.task_hangs`: One after which it does not.
-/

namespace K530

open StepRun
open TapDanceAction

universe u

/-! ### The highest dance -/

namespace TapDances

variable {n : Nat} {M : Type u} (actions : Fin n → TapDanceAction M)
  (getTappingTerm : Keycode → BitVec 16) (now : BitVec 16) (d : TapDances n M) (i : Fin n)

@[simp] theorem processTapDanceActionFn_highestTd (fn : Option (TapDanceFn M)) :
    (d.processTapDanceActionFn fn i).highestTd = d.highestTd := by
  cases fn with
  | none => rfl
  | some f => rfl

@[simp] theorem onDanceFinished_highestTd :
    (d.onDanceFinished actions i).highestTd = d.highestTd := by
  unfold onDanceFinished
  split
  · rfl
  · exact processTapDanceActionFn_highestTd (d.finish i) i _

@[simp] theorem onReset_highestTd : (d.onReset actions i).highestTd = d.highestTd :=
  processTapDanceActionFn_highestTd d i _

@[simp] theorem resetTapDance_highestTd :
    (d.resetTapDance actions i).highestTd = d.highestTd := by
  unfold resetTapDance
  split
  · rfl
  · cases danceOf (d.states i).keycode with
    | none => rfl
    | some j => exact onReset_highestTd actions d j

@[simp] theorem endDance_highestTd : (d.endDance actions i).highestTd = d.highestTd := by
  unfold endDance
  rw [resetTapDance_highestTd, onDanceFinished_highestTd]

@[simp] theorem interrupt_highestTd (keycode : Keycode) :
    (d.interrupt actions keycode i).highestTd = d.highestTd := by
  unfold interrupt
  split_ifs with hcount hlast
  · rfl
  · rfl
  · exact endDance_highestTd actions _ i

@[simp] theorem expire_highestTd :
    (d.expire actions getTappingTerm now i).highestTd = d.highestTd := by
  unfold expire
  split
  · exact endDance_highestTd actions d i
  · rfl

theorem foldl_highestTd {f : TapDances n M → Fin n → TapDances n M}
    (hround : ∀ d i, (f d i).highestTd = d.highestTd) (dances : List (Fin n)) :
    (dances.foldl f d).highestTd = d.highestTd := by
  induction dances generalizing d with
  | nil => rfl
  | cons i rest ih => rw [List.foldl_cons, ih, hround]

@[simp] theorem preprocessTapDance_highestTd (keycode : Keycode) (pressed : Bool) :
    (d.preprocessTapDance actions keycode pressed).highestTd = d.highestTd := by
  unfold preprocessTapDance
  split
  · exact foldl_highestTd d (fun d i => interrupt_highestTd actions d i keycode) d.used
  · rfl

@[simp] theorem tapDanceTask_highestTd :
    (d.tapDanceTask actions getTappingTerm now).highestTd = d.highestTd :=
  foldl_highestTd d (expire_highestTd actions getTappingTerm now) d.used

theorem processTapDance_highestTd (keycode : Keycode) (pressed : Bool) :
    (d.processTapDance actions now keycode pressed).highestTd =
      match (danceOf keycode : Option (Fin n)) with
      | none => d.highestTd
      | some i => max d.highestTd i := by
  unfold processTapDance
  cases hdance : (danceOf keycode : Option (Fin n)) with
  | none => rfl
  | some i =>
    dsimp only
    split_ifs with hpressed hfinished
    · exact processTapDanceActionFn_highestTd _ i _
    · exact resetTapDance_highestTd actions _ i
    · rfl

theorem danceOf_last_iff {keycode : Keycode} (h : danceOf keycode = some i) :
    (255 : Int) ≤ i ↔ keycode = qkTapDanceMax := by
  obtain ⟨hi, hkeycode⟩ := danceOf_eq_some h
  unfold qkTapDance at hkeycode
  unfold qkTapDanceMax
  subst hkeycode
  constructor
  · intro hlast
    rw [show (i : Nat) = 255 by omega]
    rfl
  · intro hlast
    bv_omega

/-! ### The loop -/

@[simp] theorem visit_highestTd (i : Byte) :
    (d.visit actions getTappingTerm now i).highestTd = d.highestTd := by
  unfold visit
  split
  · exact expire_highestTd actions getTappingTerm now d _
  · rfl

/-- The indices a loop should visit, from one of them on. -/
def indices (first count : Nat) : List Byte := (List.range' first count).map (BitVec.ofNat 8)

theorem taskLoop_of_lt (count first : Nat) (hcount : (first + count : Int) = d.highestTd + 1)
    (hlt : d.highestTd < 255) :
    d.taskLoop actions getTappingTerm now (count + 1) (BitVec.ofNat 8 first) =
      some (indices first count,
        (indices first count).foldl (visit actions getTappingTerm now) d) := by
  have hfirst : (BitVec.ofNat 8 first).toNat = first := by
    rw [BitVec.toNat_ofNat]
    omega
  induction count generalizing first d with
  | zero =>
    rw [taskLoop, hfirst, if_neg (by omega)]
    rfl
  | succ count ih =>
    have hnext : BitVec.ofNat 8 first + 1 = BitVec.ofNat 8 (first + 1) :=
      (BitVec.ofNat_add first 1).symm
    rw [taskLoop, hfirst, if_pos (by omega), hnext,
      ih _ (first + 1) (by rw [visit_highestTd]; omega) (by rwa [visit_highestTd])
        (by rw [BitVec.toNat_ofNat]; omega)]
    rfl

theorem taskLoop_eq_none (rounds : Nat) (i : Byte) (h : 255 ≤ d.highestTd) :
    d.taskLoop actions getTappingTerm now rounds i = none := by
  induction rounds generalizing i d with
  | zero => rfl
  | succ rounds ih =>
    have hi := i.isLt
    rw [taskLoop, if_pos (by omega), ih _ _ (by rwa [visit_highestTd])]
    rfl

theorem foldl_range_of_le {α : Type u} {f : α → Nat → α} {k m : Nat} (hle : k ≤ m)
    (hnothing : ∀ a j, k ≤ j → f a j = a) (a : α) :
    (List.range m).foldl f a = (List.range k).foldl f a := by
  induction m, hle using Nat.le_induction with
  | base => rfl
  | succ m hle ih => rw [List.range_succ, List.foldl_concat, ih, hnothing _ m hle]

theorem foldl_visit_eq_tapDanceTask (hlt : d.highestTd < 255) :
    (indices 0 (d.highestTd + 1).toNat).foldl (visit actions getTappingTerm now) d =
      d.tapDanceTask actions getTappingTerm now := by
  -- both loops go over all numbers, and do something about the same of them
  let round (d' : TapDances n M) (j : Nat) : TapDances n M :=
    if (j : Int) ≤ d.highestTd then d'.visit actions getTappingTerm now (BitVec.ofNat 8 j) else d'
  have hhigh : ∀ (d' : TapDances n M) j, (d.highestTd + 1).toNat ≤ j → round d' j = d' :=
    fun d' j hj => if_neg (by omega)
  have hmany : ∀ (d' : TapDances n M) j, n ≤ j → round d' j = d' := by
    intro d' j hj
    dsimp only [round]
    split
    · exact dif_neg (by rw [BitVec.toNat_ofNat]; omega)
    · rfl
  have hleft : (indices 0 (d.highestTd + 1).toNat).foldl (visit actions getTappingTerm now) d =
      (List.range (d.highestTd + 1).toNat).foldl round d := by
    unfold indices
    rw [← List.range_eq_range', List.foldl_map]
    refine List.foldl_ext _ _ d (fun d' j hj => (if_pos ?_).symm)
    have := List.mem_range.mp hj
    omega
  have hright : d.tapDanceTask actions getTappingTerm now = (List.range n).foldl round d := by
    unfold tapDanceTask used
    rw [List.foldl_filter, ← List.map_coe_finRange_eq_range, List.foldl_map]
    refine List.foldl_ext _ _ d (fun d' i _ => ?_)
    simp only [round, decide_eq_true_eq]
    split
    · have hi : (BitVec.ofNat 8 (i : Nat)).toNat = i := by
        rw [BitVec.toNat_ofNat]
        omega
      unfold visit
      rw [dif_pos (hi.symm ▸ i.isLt)]
      congr 1
      exact Fin.ext hi.symm
    · rfl
  rw [hleft, hright]
  rcases le_total n (d.highestTd + 1).toNat with hle | hle
  · exact foldl_range_of_le hle hmany d
  · exact (foldl_range_of_le hle hhigh d).symm

/-- `tap_dance_task` visits each dance up to the highest once, and returns. -/
def TaskReturns : Prop :=
  ∃ rounds, d.tapDanceTaskIn actions getTappingTerm now rounds =
    some (indices 0 (d.highestTd + 1).toNat, d.tapDanceTask actions getTappingTerm now)

theorem taskReturns_iff (hnone : -1 ≤ d.highestTd) :
    d.TaskReturns actions getTappingTerm now ↔ d.highestTd < 255 := by
  constructor
  · rintro ⟨rounds, hreturns⟩
    by_contra hlast
    unfold tapDanceTaskIn at hreturns
    rw [if_neg (by omega), taskLoop_eq_none actions getTappingTerm now d _ _ (by omega)]
      at hreturns
    exact absurd hreturns.symm (Option.some_ne_none _)
  · intro hlt
    rw [TaskReturns, ← foldl_visit_eq_tapDanceTask actions getTappingTerm now d hlt]
    unfold tapDanceTaskIn
    split
    · next hempty =>
        refine ⟨0, ?_⟩
        rw [hempty]
        rfl
    · exact ⟨_, taskLoop_of_lt actions getTappingTerm now d _ 0 (by omega) hlt⟩

end TapDances

/-! ### Runs -/

namespace TapDanceRun

variable {n : Nat} {M : Type u} (actions : Fin n → TapDanceAction M)
  (getTappingTerm : Keycode → BitVec 16)

/-- The key of the last dance is pressed. -/
def UsesLast (n : Nat) : TapDanceInput → Prop
  | .press keycode => keycode = qkTapDanceMax ∧ 255 < n
  | _ => False

structure Counted (r : TapDanceRun n M) : Prop where
  none : -1 ≤ r.dances.highestTd
  hung : r.hung = true → 255 ≤ r.dances.highestTd
  down : 255 < n → qkTapDanceMax ∈ r.down → 255 ≤ r.dances.highestTd

theorem start_counted (nkro : Bool) (memory : M) : (start n nkro memory).Counted where
  none := Int.le_refl _
  hung h := absurd h Bool.false_ne_true
  down _ h := absurd h (Finset.notMem_empty _)

variable (r : TapDanceRun n M) (keycode : Keycode)

theorem processTapDance_le (d : TapDances n M) (now : BitVec 16) (pressed : Bool) :
    d.highestTd ≤ (d.processTapDance actions now keycode pressed).highestTd := by
  rw [d.processTapDance_highestTd]
  split
  · exact Int.le_refl _
  · exact Int.le_max_left _ _

theorem processTapDance_last_iff (d : TapDances n M) (now : BitVec 16) (pressed : Bool) :
    255 ≤ (d.processTapDance actions now keycode pressed).highestTd ↔
      255 ≤ d.highestTd ∨ keycode = qkTapDanceMax ∧ 255 < n := by
  rw [d.processTapDance_highestTd]
  cases hdance : (danceOf keycode : Option (Fin n)) with
  | none =>
    refine ⟨Or.inl, fun h => h.resolve_right ?_⟩
    rintro ⟨rfl, hn⟩
    unfold danceOf at hdance
    rw [dif_pos ⟨⟨by decide, by decide⟩, hn⟩] at hdance
    exact Option.some_ne_none _ hdance
  | some i =>
    have hlast := TapDances.danceOf_last_iff i hdance
    have hi := i.isLt
    dsimp only
    rw [le_max_iff, hlast]
    refine or_congr_right ⟨fun hkeycode => ⟨hkeycode, ?_⟩, And.left⟩
    have := hlast.mpr hkeycode
    omega

theorem press_highestTd (hdown : keycode ∉ r.down) (hhung : r.hung = false) :
    (r.press actions keycode).dances.highestTd =
      ((r.dances.preprocessTapDance actions keycode true).processTapDance actions r.clock keycode
        true).highestTd := by
  unfold press
  rw [if_neg hdown, if_neg (ne_true_of_eq_false hhung)]
  dsimp only
  split
  · rfl
  · rfl

theorem release_highestTd (hdown : keycode ∈ r.down) (hhung : r.hung = false) :
    (r.release actions keycode).dances.highestTd =
      ((TapDances.preprocessTapDance actions keycode false { r.dances with
        heldMods := r.dances.heldMods &&& ~~~modOf keycode,
        heldThrough := fun i => r.dances.heldThrough i &&& ~~~modOf keycode }).processTapDance
          actions r.clock keycode false).highestTd := by
  unfold release
  rw [if_neg (not_not.mpr hdown), if_neg (ne_true_of_eq_false hhung)]
  dsimp only
  split
  · rfl
  · rfl

variable {r}

theorem Counted.press (h : r.Counted) :
    (r.press actions keycode).Counted ∧
      (255 ≤ (r.press actions keycode).dances.highestTd ↔
        255 ≤ r.dances.highestTd ∨ keycode = qkTapDanceMax ∧ 255 < n) := by
  by_cases hdown : keycode ∈ r.down
  · -- a key that is down already does nothing
    have hsame : r.press actions keycode = r := if_pos hdown
    rw [hsame]
    refine ⟨h, Or.inl, fun hlast => hlast.elim id ?_⟩
    rintro ⟨rfl, hn⟩
    exact h.down hn hdown
  cases hhung : r.hung with
  | true =>
    have hlast := h.hung hhung
    have hsame : r.press actions keycode = { r with down := insert keycode r.down } := by
      unfold TapDanceRun.press
      rw [if_neg hdown, if_pos hhung]
    rw [hsame]
    exact ⟨⟨h.none, h.hung, fun _ _ => hlast⟩, Or.inl, fun _ => hlast⟩
  | false =>
    have hhighest := press_highestTd actions r keycode hdown hhung
    have hiff := processTapDance_last_iff actions keycode
      (r.dances.preprocessTapDance actions keycode true) r.clock true
    have hle := processTapDance_le actions keycode
      (r.dances.preprocessTapDance actions keycode true) r.clock true
    rw [← hhighest, TapDances.preprocessTapDance_highestTd] at hiff hle
    have hrest : (r.press actions keycode).hung = r.hung ∧
        (r.press actions keycode).down = insert keycode r.down := by
      unfold TapDanceRun.press
      rw [if_neg hdown, if_neg (ne_true_of_eq_false hhung)]
      exact ⟨rfl, rfl⟩
    refine ⟨⟨h.none.trans hle, fun hh => (h.hung (hrest.1 ▸ hh)).trans hle, ?_⟩, hiff⟩
    intro hn hmem
    rw [hrest.2, Finset.mem_insert] at hmem
    rcases hmem with hmem | hmem
    · exact hiff.mpr (Or.inr ⟨hmem.symm, hn⟩)
    · exact (h.down hn hmem).trans hle

theorem Counted.release (h : r.Counted) :
    (r.release actions keycode).Counted ∧
      (255 ≤ (r.release actions keycode).dances.highestTd ↔ 255 ≤ r.dances.highestTd) := by
  by_cases hdown : keycode ∈ r.down
  · cases hhung : r.hung with
    | true =>
      have hsame : (r.release actions keycode).dances.highestTd = r.dances.highestTd ∧
          (r.release actions keycode).hung = r.hung ∧
          (r.release actions keycode).down = r.down.erase keycode := by
        unfold TapDanceRun.release
        rw [if_neg (not_not.mpr hdown), if_pos hhung]
        exact ⟨rfl, rfl, rfl⟩
      have hlast := h.hung hhung
      rw [← hsame.1] at hlast
      exact ⟨⟨hsame.1 ▸ h.none, fun _ => hlast, fun _ _ => hlast⟩, by rw [hsame.1]⟩
    | false =>
      have hhighest := release_highestTd actions r keycode hdown hhung
      have hiff := processTapDance_last_iff actions keycode
        (TapDances.preprocessTapDance actions keycode false { r.dances with
          heldMods := r.dances.heldMods &&& ~~~modOf keycode,
          heldThrough := fun i => r.dances.heldThrough i &&& ~~~modOf keycode }) r.clock false
      have hle := processTapDance_le actions keycode
        (TapDances.preprocessTapDance actions keycode false { r.dances with
          heldMods := r.dances.heldMods &&& ~~~modOf keycode,
          heldThrough := fun i => r.dances.heldThrough i &&& ~~~modOf keycode }) r.clock false
      rw [← hhighest, TapDances.preprocessTapDance_highestTd] at hiff hle
      dsimp only at hiff hle
      have hrest : (r.release actions keycode).hung = r.hung ∧
          (r.release actions keycode).down = r.down.erase keycode := by
        unfold TapDanceRun.release
        rw [if_neg (not_not.mpr hdown), if_neg (ne_true_of_eq_false hhung)]
        exact ⟨rfl, rfl⟩
      refine ⟨⟨h.none.trans hle, fun hh => (h.hung (hrest.1 ▸ hh)).trans hle, ?_⟩, ?_⟩
      · intro hn hmem
        rw [hrest.2] at hmem
        exact (h.down hn (Finset.mem_of_mem_erase hmem)).trans hle
      · -- its key was down, so that the dance had been used
        rw [hiff]
        refine ⟨fun hlast => hlast.elim id ?_, Or.inl⟩
        rintro ⟨rfl, hn⟩
        exact h.down hn hdown
  · have hsame : r.release actions keycode = r := if_pos hdown
    rw [hsame]
    exact ⟨h, Iff.rfl⟩

theorem Counted.step (h : r.Counted) (a : TapDanceInput) :
    (r.step actions getTappingTerm a).Counted ∧
      (255 ≤ (r.step actions getTappingTerm a).dances.highestTd ↔
        255 ≤ r.dances.highestTd ∨ UsesLast n a) := by
  cases a with
  | press keycode => exact h.press actions keycode
  | release keycode =>
    refine ⟨(h.release actions keycode).1, (h.release actions keycode).2.trans ?_⟩
    exact (or_iff_left id).symm
  | task =>
    have hsame := r.dances.tapDanceTask_highestTd actions getTappingTerm r.clock
    refine ⟨⟨hsame.symm ▸ h.none, fun hhung => ?_, fun hn hmem => ?_⟩, ?_⟩
    · rw [TapDanceRun.step, Bool.or_eq_true, decide_eq_true_eq] at hhung
      exact hsame.symm ▸ hhung.elim h.hung id
    · exact hsame.symm ▸ h.down hn hmem
    · exact (iff_of_eq (congrArg (255 ≤ ·) hsame)).trans (or_iff_left id).symm
  | tick now => exact ⟨⟨h.none, h.hung, h.down⟩, (or_iff_left id).symm⟩
  | other usb => exact ⟨⟨h.none, h.hung, h.down⟩, (or_iff_left id).symm⟩

theorem last_used_iff (inputs : List TapDanceInput) (h : r.Counted) :
    (run (step actions getTappingTerm) r inputs).Counted ∧
      (255 ≤ (run (step actions getTappingTerm) r inputs).dances.highestTd ↔
        255 ≤ r.dances.highestTd ∨ ∃ a ∈ inputs, UsesLast n a) := by
  induction inputs generalizing r with
  | nil =>
    refine ⟨h, Or.inl, fun hlast => hlast.elim id ?_⟩
    rintro ⟨a, ha, -⟩
    exact absurd ha List.not_mem_nil
  | cons a rest ih =>
    have hstep := h.step actions getTappingTerm a
    have hrest := ih hstep.1
    rw [run_cons]
    refine ⟨hrest.1, hrest.2.trans ?_⟩
    rw [hstep.2, List.exists_mem_cons_iff, or_assoc]

/-- `tap_dance_task` visits each dance up to the highest that has been used once and returns,
    as long as the key of the last of 256 dances has not been pressed. -/
theorem task_returns_iff (nkro : Bool) (memory : M) (inputs : List TapDanceInput)
    (now : BitVec 16) :
    (run (step actions getTappingTerm) (start n nkro memory) inputs).dances.TaskReturns actions
        getTappingTerm now ↔
      ∀ a ∈ inputs, ¬ UsesLast n a := by
  obtain ⟨hcounted, hlast⟩ :=
    last_used_iff actions getTappingTerm inputs (start_counted nkro memory)
  rw [TapDances.taskReturns_iff _ _ _ _ hcounted.none, ← Int.not_le, hlast]
  have hstart : ¬ (255 : Int) ≤ (start n nkro memory).dances.highestTd := by
    show ¬ (255 : Int) ≤ -1
    decide
  rw [or_iff_right hstart, not_exists]
  exact forall_congr' (fun a => not_and)

/-- There are 256 dances, and the key of the last of them is pressed. -/
theorem task_hangs :
    ¬ (run (step (pair fun _ : Fin 256 => (0x04, 0x05)) (fun _ => 200))
        (start 256 false []) [.press qkTapDanceMax]).dances.TaskReturns
          (pair fun _ => (0x04, 0x05)) (fun _ => 200) 0 := by
  obtain ⟨hcounted, hlast⟩ := last_used_iff (pair fun _ : Fin 256 => (0x04, 0x05)) (fun _ => 200)
    [.press qkTapDanceMax] (start_counted false [])
  rw [TapDances.taskReturns_iff _ _ _ _ hcounted.none, Int.not_lt, hlast]
  exact Or.inr ⟨_, List.mem_singleton_self _, rfl, by decide⟩

end TapDanceRun

end K530
