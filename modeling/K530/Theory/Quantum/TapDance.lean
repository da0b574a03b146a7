import K530.Lib.Run
import K530.Quantum.TapDance

/-!
# Dances of Two Keycodes

A dance of two keycodes registers one of them when it is finished, or at its second tap, and
unregisters it when it is reset. Between the two it is finished and its key is down, so that
whenever the key of a dance is up the dance has unregistered whatever it has registered.

That is so as long as `tap_dance_task` returns. It does, unless the last of 256 dances has
been used.

## Main definitions

* `TapDances.InStep`: The state of a dance, and what it has registered.

## Theorems

* `TapDanceRun.pairs_balanced_iff`: The runs that go on, and are balanced.
* `TapDanceRun.pairs_balanced_broken`: One that does not.
-/

namespace K530

open OnOff
open StepRun
open TapDanceAction

/-! ### Dances and keycodes -/

section DanceOf

variable {n : Nat}

theorem danceOf_eq_some {keycode : Keycode} {i : Fin n} (h : danceOf keycode = some i) :
    (i : Nat) < 256 ∧ keycode = qkTapDance + BitVec.ofNat 16 i := by
  unfold danceOf at h
  split at h
  next hrange =>
    have hi := congrArg Fin.val (Option.some.inj h)
    dsimp only at hi
    obtain ⟨⟨hlow, hhigh⟩, -⟩ := hrange
    rw [← hi]
    unfold qkTapDance qkTapDanceMax at *
    constructor
    · bv_omega
    · rw [BitVec.ofNat_toNat, BitVec.setWidth_eq, add_sub_cancel]
  next => exact absurd h.symm (Option.some_ne_none i)

theorem danceOf_inj {k k' : Keycode} {i : Fin n} (h : danceOf k = some i)
    (h' : danceOf k' = some i) : k = k' :=
  (danceOf_eq_some h).2.trans (danceOf_eq_some h').2.symm

end DanceOf

namespace TapDances

variable {n : Nat} {pairs : Fin n → Keycode × Keycode} {d d' : TapDances n (Calls n)}
  {down : Finset Keycode} {i j : Fin n}

def chosen (pairs : Fin n → Keycode × Keycode) (i : Fin n) (count : Byte) : Keycode :=
  if count = 1 then (pairs i).1 else (pairs i).2

def registered (pairs : Fin n → Keycode × Keycode) (i : Fin n) (st : TapDanceState) :
    Option Keycode := if st.finished then some (chosen pairs i st.count) else none

structure InStep (pairs : Fin n → Keycode × Keycode) (down : Finset Keycode)
    (d : TapDances n (Calls n)) (i : Fin n) : Prop where
  own : (d.states i).count ≠ 0 → danceOf (d.states i).keycode = some i
  highest : (d.states i).count ≠ 0 → (i : Int) ≤ d.highestTd
  counts : (d.states i).count = 0 ∧ (d.states i).finished = false ∨ (d.states i).count = 1 ∨
    (d.states i).count = 2 ∧ (d.states i).finished = true
  pressed : (d.states i).pressed = true ↔ ∃ k ∈ down, danceOf k = some i
  held : (d.states i).finished = true → (d.states i).pressed = true
  calls : Alternates i d.memory (registered pairs i (d.states i))

theorem registered_finished (i : Fin n) (st : TapDanceState) (h : st.finished) :
    registered pairs i st = some (chosen pairs i st.count) := if_pos h

theorem registered_not_finished (i : Fin n) (st : TapDanceState) (h : st.finished = false) :
    registered pairs i st = none := if_neg (ne_true_of_eq_false h)

theorem inStep_of_state {st : TapDanceState} (hstate : d.states i = st)
    (hown : st.count ≠ 0 → danceOf st.keycode = some i)
    (hhighest : st.count ≠ 0 → (i : Int) ≤ d.highestTd)
    (hcounts : st.count = 0 ∧ st.finished = false ∨ st.count = 1 ∨
      st.count = 2 ∧ st.finished)
    (hpressed : st.pressed ↔ ∃ k ∈ down, danceOf k = some i)
    (hheld : st.finished → st.pressed)
    (hcalls : Alternates i d.memory (registered pairs i st)) : d.InStep pairs down i := by
  subst hstate
  exact ⟨hown, hhighest, hcounts, hpressed, hheld, hcalls⟩

structure Only (i : Fin n) (d d' : TapDances n (Calls n)) : Prop where
  states : ∀ j, j ≠ i → d'.states j = d.states j
  highest : d.highestTd ≤ d'.highestTd
  calls : ∃ more, d'.memory = d.memory ++ more ∧ ∀ e ∈ more, e.owner = i

theorem Only.refl (i : Fin n) (d : TapDances n (Calls n)) : Only i d d :=
  ⟨fun _ _ => rfl, Int.le_refl _, [], (List.append_nil _).symm,
    fun _ he => absurd he List.not_mem_nil⟩

theorem Only.trans {d'' : TapDances n (Calls n)} (h : Only i d d') (h' : Only i d' d'') :
    Only i d d'' := by
  obtain ⟨more, hmemory, howners⟩ := h.calls
  obtain ⟨more', hmemory', howners'⟩ := h'.calls
  refine ⟨fun j hj => (h'.states j hj).trans (h.states j hj), h.highest.trans h'.highest,
    more ++ more', by rw [hmemory', hmemory, List.append_assoc], fun e he => ?_⟩
  rcases List.mem_append.mp he with he | he
  · exact howners e he
  · exact howners' e he

theorem Only.of_update {st : TapDanceState} (hstates : d'.states = Function.update d.states i st)
    (hhighest : d.highestTd ≤ d'.highestTd) (hmemory : d'.memory = d.memory) : Only i d d' where
  states j hj := by
    rw [hstates]
    exact Function.update_of_ne hj _ _
  highest := hhighest
  calls := ⟨[], hmemory.trans (List.append_nil _).symm, fun _ he => absurd he List.not_mem_nil⟩

theorem Only.of_call {st : TapDanceState} {pressed : Bool} {keycode : Keycode}
    (hstates : d'.states = Function.update d.states i st) (hhighest : d.highestTd ≤ d'.highestTd)
    (hmemory : d'.memory = d.memory ++ [⟨i, pressed, keycode⟩]) : Only i d d' where
  states j hj := by
    rw [hstates]
    exact Function.update_of_ne hj _ _
  highest := hhighest
  calls := by
    refine ⟨_, hmemory, fun e he => ?_⟩
    rw [List.mem_singleton.mp he]

theorem InStep.other (h : d.InStep pairs down j) (honly : Only i d d') (hij : j ≠ i) :
    d'.InStep pairs down j := by
  obtain ⟨more, hmemory, howners⟩ := honly.calls
  have hstate := honly.states j hij
  refine ⟨?_, ?_, ?_, ?_, ?_, ?_⟩
  · rw [hstate]
    exact h.own
  · rw [hstate]
    exact fun hcount => (h.highest hcount).trans honly.highest
  · rw [hstate]
    exact h.counts
  · rw [hstate]
    exact h.pressed
  · rw [hstate]
    exact h.held
  · rw [hstate, hmemory]
    exact h.calls.others (fun e he hc => hij (hc.symm.trans (howners e he)))

/-! ### Finishing and resetting -/

theorem InStep.onDanceFinished (h : d.InStep pairs down i) (hcount : (d.states i).count ≠ 0) :
    Only i d (d.onDanceFinished (pair pairs) i) ∧
      (d.onDanceFinished (pair pairs) i).states i = { d.states i with finished := true } ∧
      Alternates i (d.onDanceFinished (pair pairs) i).memory
        (some (chosen pairs i (d.states i).count)) := by
  unfold TapDances.onDanceFinished
  have hcalls := h.calls
  by_cases hfinished : (d.states i).finished
  · rw [registered_finished i _ hfinished] at hcalls
    rw [if_pos hfinished]
    refine ⟨Only.refl i d, ?_, hcalls⟩
    rw [← hfinished]
  · rw [registered_not_finished i _ (eq_false_of_ne_true hfinished)] at hcalls
    rw [if_neg hfinished]
    -- It has been tapped once, as the second tap finishes it.
    have hone : (d.states i).count = 1 := by
      rcases h.counts with hzero | hone | htwo
      · exact absurd hzero.1 hcount
      · exact hone
      · exact absurd htwo.2 hfinished
    -- What its function does is one call, and that the dance is finished.
    have hfn : (d.finish i).processTapDanceActionFn (pair pairs i).onDanceFinished i =
        { d.finish i with
          states := Function.update d.states i { d.states i with finished := true },
          usb := (d.finish i).usb.registerCode16 (pairs i).1,
          memory := d.memory ++ [⟨i, true, (pairs i).1⟩] } := by
      unfold processTapDanceActionFn pair pairFinished TapDances.finish setState onUsb registers
      dsimp only
      rw [Function.update_self, if_pos hone, Function.update_idem]
    rw [hfn]
    refine ⟨Only.of_call rfl (Int.le_refl _) rfl, Function.update_self i _ _, ?_⟩
    rw [chosen, if_pos hone]
    exact hcalls.on _

theorem resetTapDance_pair (hown : danceOf (d.states i).keycode = some i)
    (hcount : (d.states i).count = 1 ∨ (d.states i).count = 2)
    (hpressed : (d.states i).pressed = false)
    (hcalls : Alternates i d.memory (some (chosen pairs i (d.states i).count))) :
    Only i d (d.resetTapDance (pair pairs) i) ∧
      (d.resetTapDance (pair pairs) i).states i =
        { d.states i with
          count := 0, interrupted := false, finished := false, interruptingKeycode := 0 } ∧
      Alternates i (d.resetTapDance (pair pairs) i).memory none := by
  have hfn : pairReset i (pairs i).1 (pairs i).2 (d.states i) (d.usb, d.memory) =
      (d.states i, d.usb.unregisterCode16 (chosen pairs i (d.states i).count),
        d.memory ++ [⟨i, false, chosen pairs i (d.states i).count⟩]) := by
    unfold pairReset unregisters chosen
    rcases hcount with hone | htwo
    · rw [if_pos hone, if_pos hone]
    · have hne : (2 : Byte) ≠ 1 := by decide
      rw [htwo, if_neg hne, if_pos rfl, if_neg hne]
  -- Only the memory matters, to which one call is added.
  have hreset : ∃ usb resets, d.onReset (pair pairs) i =
      { d with
        usb, resets, memory := d.memory ++ [⟨i, false, chosen pairs i (d.states i).count⟩] } := by
    unfold TapDances.onReset processTapDanceActionFn pair setState onUsb
    dsimp only
    rw [hfn, Function.update_eq_self]
    exact ⟨_, _, rfl⟩
  obtain ⟨usb, resets, hreset⟩ := hreset
  unfold TapDances.resetTapDance
  rw [hpressed, if_neg Bool.false_ne_true, hown]
  dsimp only
  rw [hreset]
  exact ⟨Only.of_call rfl (Int.le_refl _) rfl, Function.update_self i _ _, hcalls.off⟩

theorem InStep.endDance (h : d.InStep pairs down i) (hcount : (d.states i).count ≠ 0) :
    Only i d (d.endDance (pair pairs) i) ∧ (d.endDance (pair pairs) i).InStep pairs down i := by
  obtain ⟨honly, hstate, hcalls⟩ := h.onDanceFinished hcount
  have hcounts : (d.states i).count = 1 ∨ (d.states i).count = 2 := by
    rcases h.counts with hzero | hone | htwo
    · exact absurd hzero.1 hcount
    · exact Or.inl hone
    · exact Or.inr htwo.1
  unfold TapDances.endDance
  generalize d.onDanceFinished (pair pairs) i = finished at honly hstate hcalls ⊢
  have hhighest := (h.highest hcount).trans honly.highest
  cases hpressed : (d.states i).pressed with
  | true =>
    -- The reset is left for the release.
    unfold TapDances.resetTapDance
    rw [hstate, if_pos hpressed]
    refine ⟨honly, inStep_of_state hstate (fun _ => h.own hcount) (fun _ => hhighest) ?_ h.pressed
      (fun _ => hpressed) hcalls⟩
    exact Or.inr (hcounts.imp_right (fun htwo => ⟨htwo, rfl⟩))
  | false =>
    -- Its key is up, so it is reset at once.
    obtain ⟨honly', hstate', hcalls'⟩ := @resetTapDance_pair n pairs finished i
      (by rw [hstate]; exact h.own hcount) (by rw [hstate]; exact hcounts)
      (by rw [hstate]; exact hpressed) (by rw [hstate]; exact hcalls)
    rw [hstate] at hstate'
    exact ⟨honly.trans honly', inStep_of_state hstate' (fun hc => absurd rfl hc)
      (fun hc => absurd rfl hc) (Or.inl ⟨rfl, rfl⟩) h.pressed
      (fun hc => absurd hc Bool.false_ne_true) hcalls'⟩

/-! ### The three entries -/

def AllInStep (pairs : Fin n → Keycode × Keycode) (down : Finset Keycode)
    (d : TapDances n (Calls n)) : Prop := ∀ i, d.InStep pairs down i

theorem AllInStep.only (h : d.AllInStep pairs down) (honly : Only i d d')
    (hi : d'.InStep pairs down i) : d'.AllInStep pairs down := by
  intro j
  by_cases hij : j = i
  · rw [hij]
    exact hi
  · exact (h j).other honly hij

theorem InStep.congr (h : d.InStep pairs down i) (hhighest : d'.highestTd = d.highestTd)
    (hmemory : d'.memory = d.memory) (hcount : (d'.states i).count = (d.states i).count)
    (hkeycode : (d'.states i).keycode = (d.states i).keycode)
    (hpressed : (d'.states i).pressed = (d.states i).pressed)
    (hfinished : (d'.states i).finished = (d.states i).finished) : d'.InStep pairs down i where
  own := by rw [hcount, hkeycode]; exact h.own
  highest := by rw [hcount, hhighest]; exact h.highest
  counts := by rw [hcount, hfinished]; exact h.counts
  pressed := by rw [hpressed]; exact h.pressed
  held := by rw [hfinished, hpressed]; exact h.held
  calls := by
    unfold registered
    rw [hmemory, hfinished, hcount]
    exact h.calls

theorem setState_field {α : Type} (field : TapDanceState → α) (d : TapDances n (Calls n))
    (st : TapDanceState) (h : field st = field (d.states i)) (j : Fin n) :
    field ((d.setState i st).states j) = field (d.states j) := by
  unfold setState
  dsimp only
  by_cases hji : j = i
  · rw [hji, Function.update_self, h]
  · rw [Function.update_of_ne hji]

theorem AllInStep.setState (h : d.AllInStep pairs down) (i : Fin n) (st : TapDanceState)
    (hcount : st.count = (d.states i).count) (hkeycode : st.keycode = (d.states i).keycode)
    (hpressed : st.pressed = (d.states i).pressed)
    (hfinished : st.finished = (d.states i).finished) : (d.setState i st).AllInStep pairs down :=
  fun j => (h j).congr rfl rfl (setState_field (·.count) d st hcount j)
    (setState_field (·.keycode) d st hkeycode j) (setState_field (·.pressed) d st hpressed j)
    (setState_field (·.finished) d st hfinished j)

theorem AllInStep.interrupt (h : d.AllInStep pairs down) (keycode : Keycode) (i : Fin n) :
    (d.interrupt (pair pairs) keycode i).AllInStep pairs down := by
  unfold TapDances.interrupt
  split_ifs with hzero hown
  · exact h
  · exact h
  · have hmarked : (d.setState i { d.states i with
        interrupted := true, interruptingKeycode := keycode }).AllInStep pairs down :=
      h.setState i _ rfl rfl rfl rfl
    -- It has been tapped, so it is finished now, and reset if its key is up.
    have hcount := setState_field (·.count) d
      { d.states i with interrupted := true, interruptingKeycode := keycode } rfl i
    obtain ⟨honly, hended⟩ := (hmarked i).endDance (ne_of_eq_of_ne hcount hzero)
    have hall := hmarked.only honly hended
    exact fun j => (hall j).congr rfl rfl rfl rfl rfl rfl

theorem AllInStep.expire (h : d.AllInStep pairs down) (getTappingTerm : Keycode → BitVec 16)
    (now : BitVec 16) (i : Fin n) :
    (d.expire (pair pairs) getTappingTerm now i).AllInStep pairs down := by
  unfold TapDances.expire
  split_ifs with hexpired
  · obtain ⟨honly, hended⟩ := (h i).endDance hexpired.1
    exact h.only honly hended
  · exact h

theorem AllInStep.task (h : d.AllInStep pairs down) (getTappingTerm : Keycode → BitVec 16)
    (now : BitVec 16) : (d.tapDanceTask (pair pairs) getTappingTerm now).AllInStep pairs down :=
  run_invariant _ (AllInStep pairs down) (fun _ i h => h.expire getTappingTerm now i) _ d h

theorem AllInStep.preprocess (h : d.AllInStep pairs down) (keycode : Keycode) (pressed : Bool) :
    (d.preprocessTapDance (pair pairs) keycode pressed).AllInStep pairs down := by
  unfold TapDances.preprocessTapDance
  split
  · exact run_invariant _ (AllInStep pairs down) (fun _ i h => h.interrupt keycode i) _ d h
  · exact h

theorem InStep.of_down (h : d.InStep pairs down i) {down' : Finset Keycode}
    (hdown : (∃ k ∈ down', danceOf k = some i) ↔ ∃ k ∈ down, danceOf k = some i) :
    d.InStep pairs down' i :=
  { h with pressed := h.pressed.trans hdown.symm }

theorem InStep.tap (h : d.InStep pairs down i) {keycode : Keycode} (hown : danceOf keycode = some i)
    (hup : keycode ∉ down) (now : BitVec 16) :
    Only i d (d.processTapDance (pair pairs) now keycode true) ∧
      (d.processTapDance (pair pairs) now keycode true).InStep pairs (insert keycode down) i := by
  -- Only the key of the dance could have been down, and a finished dance is pressed.
  have hpressed : (d.states i).pressed = false := by
    refine eq_false_of_ne_true (fun hc => ?_)
    obtain ⟨k, hk, hdance⟩ := h.pressed.mp hc
    exact hup (danceOf_inj hdance hown ▸ hk)
  have hfinished : (d.states i).finished = false := by
    refine eq_false_of_ne_true (fun hc => ?_)
    exact Bool.false_ne_true (hpressed.symm.trans (h.held hc))
  have hcalls := h.calls
  rw [registered_not_finished i _ hfinished] at hcalls
  have hdown : ∃ k ∈ insert keycode down, danceOf k = some i :=
    ⟨keycode, Finset.mem_insert_self keycode down, hown⟩
  have hhighest : (i : Int) ≤ max d.highestTd i := Int.le_max_right _ _
  unfold TapDances.processTapDance
  rw [hown]
  dsimp only
  rw [if_pos rfl]
  unfold processTapDanceActionFn pair pairOnEachTap TapDances.tap setState registers
  dsimp only
  rw [Function.update_self]
  rcases h.counts with ⟨hzero, -⟩ | hone | ⟨-, hc⟩
  · -- The first tap registers nothing.
    have hcount : (d.states i).count + 1 = 1 := by rw [hzero]; rfl
    rw [hcount]
    dsimp only
    rw [if_neg (show ¬ (1 : Byte) = 2 by decide), Function.update_idem]
    refine ⟨Only.of_update rfl (Int.le_max_left _ _) rfl, ?_⟩
    refine inStep_of_state (Function.update_self i _ _) (fun _ => hown) (fun _ => hhighest)
      (Or.inr (Or.inl rfl)) (iff_of_true rfl hdown) (fun _ => rfl) ?_
    unfold registered
    dsimp only
    rw [hfinished, if_neg Bool.false_ne_true]
    exact hcalls
  · -- The second tap finishes the dance.
    have hcount : (d.states i).count + 1 = 2 := by rw [hone]; rfl
    rw [hcount]
    dsimp only
    rw [if_pos rfl, Function.update_idem]
    refine ⟨Only.of_call rfl (Int.le_max_left _ _) rfl, ?_⟩
    exact inStep_of_state (Function.update_self i _ _) (fun _ => hown) (fun _ => hhighest)
      (Or.inr (Or.inr ⟨rfl, rfl⟩)) (iff_of_true rfl hdown) (fun _ => rfl) (hcalls.on _)
  · exact absurd (hfinished.symm.trans hc) Bool.false_ne_true

theorem InStep.lift (h : d.InStep pairs down i) {keycode : Keycode}
    (hown : danceOf keycode = some i) (now : BitVec 16) :
    Only i d (d.processTapDance (pair pairs) now keycode false) ∧
      (d.processTapDance (pair pairs) now keycode false).InStep pairs (down.erase keycode) i := by
  have hup : ¬ ∃ k ∈ down.erase keycode, danceOf k = some i := by
    rintro ⟨k, hk, hdance⟩
    exact Finset.ne_of_mem_erase hk (danceOf_inj hdance hown)
  have hcalls := h.calls
  unfold TapDances.processTapDance
  rw [hown]
  dsimp only
  rw [if_neg Bool.false_ne_true]
  -- The key is up before it is looked whether the dance is finished.
  obtain ⟨lifted, hlifted⟩ : ∃ lifted, { d with highestTd := max d.highestTd i }.setState i
      { d.states i with pressed := false } = lifted := ⟨_, rfl⟩
  have hstate : lifted.states i = { d.states i with pressed := false } := by
    rw [← hlifted]
    exact Function.update_self i _ _
  have hmemory : lifted.memory = d.memory := by
    rw [← hlifted]
    rfl
  have hhighest : d.highestTd ≤ lifted.highestTd := by
    rw [← hlifted]
    exact Int.le_max_left _ _
  have honly : Only i d lifted :=
    Only.of_update (by rw [← hlifted]; rfl) hhighest hmemory
  rw [hlifted]
  rw [← hmemory] at hcalls
  cases hfinished : (d.states i).finished with
  | true =>
    have hcounts : (d.states i).count = 1 ∨ (d.states i).count = 2 := by
      rcases h.counts with hzero | hone | htwo
      · exact absurd (hfinished.symm.trans hzero.2) Bool.false_ne_true.symm
      · exact Or.inl hone
      · exact Or.inr htwo.1
    have hcount : (d.states i).count ≠ 0 := by
      rcases hcounts with hone | htwo
      · rw [hone]
        decide
      · rw [htwo]
        decide
    rw [registered_finished i _ hfinished] at hcalls
    rw [hstate, if_pos ⟨hcount, hfinished⟩]
    obtain ⟨honly', hstate', hcalls'⟩ := @resetTapDance_pair n pairs lifted i
      (by rw [hstate]; exact h.own hcount) (by rw [hstate]; exact hcounts)
      (by rw [hstate]) (by rw [hstate]; exact hcalls)
    rw [hstate] at hstate'
    exact ⟨honly.trans honly', inStep_of_state hstate' (fun hc => absurd rfl hc)
      (fun hc => absurd rfl hc) (Or.inl ⟨rfl, rfl⟩) (iff_of_false Bool.false_ne_true hup)
      (fun hc => absurd hc Bool.false_ne_true) hcalls'⟩
  | false =>
    rw [hstate, if_neg (fun hc => ne_true_of_eq_false hfinished hc.2)]
    refine ⟨honly, inStep_of_state hstate h.own (fun hc => (h.highest hc).trans hhighest) h.counts
      (iff_of_false Bool.false_ne_true hup)
      (fun hc => absurd (hfinished.symm.trans hc) Bool.false_ne_true) hcalls⟩

theorem AllInStep.event (h : d.AllInStep pairs down) {keycode : Keycode} {pressed : Bool}
    {now : BitVec 16} {down' : Finset Keycode}
    (hothers : ∀ k, k ≠ keycode → (k ∈ down' ↔ k ∈ down))
    (hown : ∀ i, danceOf keycode = some i →
      Only i d (d.processTapDance (pair pairs) now keycode pressed) ∧
        (d.processTapDance (pair pairs) now keycode pressed).InStep pairs down' i) :
    (d.processTapDance (pair pairs) now keycode pressed).AllInStep pairs down' := by
  have hsame : ∀ j : Fin n, danceOf keycode ≠ some j →
      ((∃ k ∈ down', danceOf k = some j) ↔ ∃ k ∈ down, danceOf k = some j) := by
    intro j hj
    refine exists_congr (fun k => and_congr_left (fun hdance => hothers k ?_))
    rintro rfl
    exact hj hdance
  cases hdance : (danceOf keycode : Option (Fin n)) with
  | none =>
    unfold processTapDance
    rw [hdance]
    refine fun j => (h j).of_down (hsame j ?_)
    rw [hdance]
    exact (Option.some_ne_none j).symm
  | some i =>
    obtain ⟨honly, hi⟩ := hown i hdance
    intro j
    by_cases hji : j = i
    · rw [hji]
      exact hi
    · refine ((h j).other honly hji).of_down (hsame j ?_)
      rw [hdance]
      exact fun hc => hji (Option.some.inj hc).symm

theorem AllInStep.press (h : d.AllInStep pairs down) {keycode : Keycode} (hup : keycode ∉ down)
    (now : BitVec 16) :
    (d.processTapDance (pair pairs) now keycode true).AllInStep pairs (insert keycode down) :=
  h.event (fun _ hk => Finset.mem_insert.trans (or_iff_right hk))
    (fun i hown => (h i).tap hown hup now)

theorem AllInStep.release (h : d.AllInStep pairs down) (keycode : Keycode) (now : BitVec 16) :
    (d.processTapDance (pair pairs) now keycode false).AllInStep pairs (down.erase keycode) :=
  h.event (fun _ hk => Finset.mem_erase.trans (and_iff_right hk))
    (fun i hown => (h i).lift hown now)

end TapDances

/-! ### Runs -/

namespace TapDanceRun

open TapDances

variable {n : Nat} (pairs : Fin n → Keycode × Keycode) (getTappingTerm : Keycode → BitVec 16)

/-- Every keycode that a dance has registered it has unregistered, once, before it registers
    the next, and whenever its key is up it has unregistered them all. -/
def Balanced (r : TapDanceRun n (Calls n)) : Prop :=
  ∀ i, ∃ x, Alternates i r.dances.memory x ∧
    ((∀ k ∈ r.down, danceOf k ≠ some i) → x = none)

/-- The task is not called when the last of 256 dances has been used. -/
def Returns (r : TapDanceRun n (Calls n)) : TapDanceInput → Prop
  | .press _ => True
  | .release _ => True
  | .task => r.dances.highestTd < 255
  | .tick _ => True
  | .other _ => True

structure Sound (r : TapDanceRun n (Calls n)) : Prop where
  awake : r.hung = false
  inStep : r.dances.AllInStep pairs r.down

variable {pairs} {getTappingTerm} {r : TapDanceRun n (Calls n)}

theorem Sound.balanced (h : Sound pairs r) : r.hung = false ∧ r.Balanced := by
  refine ⟨h.awake, fun i => ⟨_, (h.inStep i).calls, fun hup => ?_⟩⟩
  refine registered_not_finished i _ (eq_false_of_ne_true (fun hc => ?_))
  obtain ⟨k, hk, hdance⟩ := (h.inStep i).pressed.mp ((h.inStep i).held hc)
  exact hup k hk hdance

theorem step_sound (h : Sound pairs r) (input : TapDanceInput) (hreturns : r.Returns input) :
    Sound pairs (r.step (pair pairs) getTappingTerm input) := by
  -- What else a step changes is not about the dances.
  have hcongr : ∀ {down : Finset Keycode} {d d' : TapDances n (Calls n)},
      d.AllInStep pairs down → d'.states = d.states → d'.highestTd = d.highestTd →
        d'.memory = d.memory → d'.AllInStep pairs down := by
    intro down d d' h hstates hhighest hmemory i
    have hi := congrFun hstates i
    exact (h i).congr hhighest hmemory (by rw [hi]) (by rw [hi]) (by rw [hi]) (by rw [hi])
  cases input with
  | press keycode =>
    unfold step press
    dsimp only
    by_cases hdown : keycode ∈ r.down
    · rw [if_pos hdown]
      exact h
    · rw [if_neg hdown, h.awake, if_neg Bool.false_ne_true]
      refine ⟨rfl, ?_⟩
      have hpressed := (h.inStep.preprocess keycode true).press hdown r.clock
      dsimp only
      split
      · exact hcongr hpressed rfl rfl rfl
      · exact hcongr hpressed rfl rfl rfl
  | release keycode =>
    unfold step release
    dsimp only
    by_cases hdown : keycode ∉ r.down
    · rw [if_pos hdown]
      exact h
    · rw [if_neg hdown, h.awake, if_neg Bool.false_ne_true]
      refine ⟨rfl, ?_⟩
      have hbefore : { r.dances with
          heldMods := r.dances.heldMods &&& ~~~modOf keycode,
          heldThrough := fun i => r.dances.heldThrough i &&& ~~~modOf keycode }.AllInStep pairs
            r.down := hcongr h.inStep rfl rfl rfl
      have hreleased := (hbefore.preprocess keycode false).release keycode r.clock
      dsimp only
      split
      · exact hcongr hreleased rfl rfl rfl
      · exact hreleased
  | task =>
    refine ⟨?_, h.inStep.task getTappingTerm r.clock⟩
    unfold step
    dsimp only
    rw [h.awake, Bool.false_or, decide_eq_false_iff_not, Int.not_le]
    exact hreturns
  | tick now => exact ⟨h.awake, h.inStep⟩
  | other usb => exact ⟨h.awake, hcongr h.inStep rfl rfl rfl⟩

theorem start_sound (nkro : Bool) : Sound pairs (start n nkro ([] : Calls n)) where
  awake := rfl
  inStep := fun _ =>
    inStep_of_state rfl (fun hc => absurd rfl hc) (fun hc => absurd rfl hc) (Or.inl ⟨rfl, rfl⟩)
      (iff_of_false Bool.false_ne_true (fun ⟨_, hk, _⟩ => Finset.notMem_empty _ hk))
      (fun hc => absurd hc Bool.false_ne_true) .nil

/-- Whatever keys are pressed and released, and whenever the task is called: it goes on
    returning, and all dances are balanced, exactly when it is not called after the last of 256
    dances has been used. -/
theorem pairs_balanced_iff (pairs : Fin n → Keycode × Keycode)
    (getTappingTerm : Keycode → BitVec 16) (nkro : Bool) (inputs : List TapDanceInput) :
    Always (step (pair pairs) getTappingTerm) (fun r => r.hung = false ∧ r.Balanced)
        (start n nkro []) inputs ↔
      Along (step (pair pairs) getTappingTerm) Returns (start n nkro []) inputs := by
  refine always_iff_along _ Returns (Sound pairs) _ (fun _ h => h.balanced)
    (fun _ input h hreturns => step_sound h input hreturns) (fun r input h hnot hbalanced => ?_)
    inputs _ (start_sound nkro)
  cases input with
  | press keycode => exact hnot trivial
  | release keycode => exact hnot trivial
  | task =>
    have hhung := hbalanced.1
    unfold step at hhung
    dsimp only at hhung
    rw [Bool.or_eq_false_iff, decide_eq_false_iff_not] at hhung
    exact hnot (Int.not_le.mp hhung.2)
  | tick now => exact hnot trivial
  | other usb => exact hnot trivial

/-- Every key of 256 dances is one letter at the first tap, and another at the second. -/
def twoLetters (_ : Fin 256) : Keycode × Keycode := (kcA, kcB)

def lastDanceHeld : List TapDanceInput :=
  [.press 0x57FF, .tick 300, .task, .release 0x57FF]

/-- The keycode is never unregistered. -/
theorem pairs_balanced_broken :
    ¬ ∀ inputs : List TapDanceInput,
      Always (step (pair twoLetters) (fun _ => 200)) Balanced (start 256 false []) inputs := by
  intro h
  have hlast := (always_iff_visited _ _ lastDanceHeld _).mp (h lastDanceHeld) lastDanceHeld []
    (List.append_nil _).symm
  obtain ⟨x, hcalls, hup⟩ := hlast 255
  have hdown : (StepRun.run (step (pair twoLetters) (fun _ => 200)) (start 256 false [])
      lastDanceHeld).down = ∅ := by
    decide +kernel
  have hpending : pending (StepRun.run (step (pair twoLetters) (fun _ => 200))
      (start 256 false []) lastDanceHeld).dances.memory 255 = some kcA := by
    decide +kernel
  have hnone := hup (by rw [hdown]; exact fun k hk => absurd hk (Finset.notMem_empty k))
  rw [hcalls.pending_eq, hnone] at hpending
  exact absurd hpending (Option.some_ne_none kcA).symm

end TapDanceRun

end K530
