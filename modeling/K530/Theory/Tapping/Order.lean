import K530.Theory.Tapping.Line

/-!
# The Order of Presses

Presses should be handed over in the order of the key events, and no release
before a press of its key. In the line of key events this is a matter of every
two: a press may be behind an event that came later only if that is the release
of another key.

Nothing in the line moves but the event that goes ahead, and only one that has
just arrived goes ahead of events that wait. It does if there is no tapping key,
or if the tapping key has been tapped: nobody looks at the buffer then, on the
understanding that it is empty. It need not be. The loop over the buffer ends at
a record that is not consumed, and the record at which the term of the tapping
key is over is not consumed: it stays, and there is no tapping key.

## Main definitions

* `InTurn`: Two events in the line are in turn.

## Theorems

* `press_order`: Presses are handed over in order if no event overtakes.
* `press_order_broken`: Two tap keys and two others, without a tick.
-/

namespace K530

namespace TapState

open StepRun Overtaking

variable {K H : Type} [DecidableEq K]

def InTurn (x y : KeyEvent K) : Prop :=
  y.pressed = true → x.pressed = true ∨ y.key = x.key → x.seq ≤ y.seq

def MayPass (x y : KeyEvent K) : Prop :=
  y.pressed = true → ¬ (x.pressed = true ∨ y.key = x.key)

/-- Presses are handed over in the order of the key events, and a release after
    the presses of its key that came before it. -/
structure PressOrder (s : TapState K H) : Prop where
  presses : (s.handed.filter KeyEvent.pressed).Pairwise (fun x y => x.seq ≤ y.seq)
  releases : ∀ before x after, s.handed = before ++ x :: after → x.pressed = false →
    ∀ p ∈ s.arrived, p.pressed = true → p.key = x.key → p.seq < x.seq → p.event ∈ before

/-- An event goes ahead of a press that waits and that it should be behind. -/
def overtakes (P : TapHost K H) (s : TapState K H) (r : TapRecord K) : Bool :=
  s.goesAhead P r && s.waiting.any (fun w => w.pressed && (r.pressed || w.key = r.key))

structure InLine (s : TapState K H) : Prop where
  inTurn : s.line.Pairwise InTurn
  complete : ∀ p ∈ s.arrived, p.event ∈ s.line
  numbered : ∀ x ∈ s.line, x.seq < s.arrived.length
  unmarked : s.Unmarked

omit [DecidableEq K] in
theorem InLine.pressOrder {s : TapState K H} (h : s.InLine) : s.PressOrder := by
  have hline : s.line = s.handed ++ (s.undecided ++ s.behind) := by
    rw [line, List.append_assoc]
  constructor
  · have hhanded : s.handed.Pairwise InTurn := by
      have hturn := h.inTurn
      rw [hline, List.pairwise_append] at hturn
      exact hturn.1
    rw [List.pairwise_filter]
    refine hhanded.imp ?_
    intro x y hxy hx hy
    exact hxy hy (Or.inl hx)
  · intro before x after hsplit hx p hp hpressed hkey hseq
    have hmem := h.complete p hp
    rw [hline, hsplit, List.append_assoc] at hmem
    rcases List.mem_append.mp hmem with hmem | hmem
    · exact hmem
    · -- one that stands behind `x` is not a press that it must be behind
      have hturn := h.inTurn
      rw [hline, hsplit, List.append_assoc, List.pairwise_append, List.cons_append,
        List.pairwise_cons] at hturn
      rcases List.mem_cons.mp hmem with heq | hmem
      · rw [← heq] at hx
        exact absurd (hpressed.symm.trans hx) Bool.noConfusion
      · exact absurd (hturn.2.1.1 p.event hmem hpressed (Or.inr hkey)) (by
          simp only [TapRecord.event, Nat.not_le]
          exact hseq)

omit [DecidableEq K] in
theorem inLine_of_passes {s : TapState K H} {x : KeyEvent K} {before l : List (KeyEvent K)}
    (hpass : Passes MayPass x before l) (hs : s.line = l ∨ Twice l s.line)
    (hturn : before.Pairwise InTurn) (hcomplete : ∀ p ∈ s.arrived, p.event ∈ before)
    (hnumbered : ∀ y ∈ before, y.seq < s.arrived.length) (hunmarked : s.Unmarked) :
    s.InLine := by
  have hl : l.Pairwise InTurn := by
    refine hpass.pairwise InTurn (fun y hmay => ?_) hturn
    intro hy hxy
    exact absurd hxy (hmay hy)
  have hmem : ∀ y, y ∈ s.line ↔ y ∈ before := by
    intro y
    rw [← hpass.perm.mem_iff]
    rcases hs with hs | hs
    · rw [hs]
    · exact hs.mem_iff y
  refine ⟨?_, fun p hp => (hmem _).mpr (hcomplete p hp),
    fun y hy => hnumbered y ((hmem y).mp hy), hunmarked⟩
  rcases hs with hs | hs
  · rw [hs]
    exact hl
  · exact hs.pairwise InTurn (fun x _ _ => Nat.le_refl x.seq) hl

theorem mayPass_of_arrived (P : TapHost K H) (r : TapRecord K) (s : TapState K H)
    (hturn : s.overtakes P r = false) (hconsumed : (s.processTapping P r).consumed) :
    ∀ y ∈ s.undecided ++ s.behind, MayPass r.event y := by
  have hpast : (∀ w ∈ s.waiting, w.pressed → ¬ (r.pressed ∨ w.key = r.key)) →
      ∀ y ∈ s.behind, MayPass r.event y := by
    intro h y hy
    rcases List.mem_map.mp hy with ⟨w, hw, heq⟩
    rw [← heq]
    exact h w hw
  rcases (processTapping_outcome P r s).consumed_cases hconsumed with
    ⟨hund, hahead⟩ | ⟨tk, hundecided, _, hkey, hpressed, htyped⟩
  · rw [hund, List.nil_append]
    refine hpast (fun w hw hpressed hpass => ?_)
    simp only [overtakes, hahead, Bool.true_and, List.any_eq_false, Bool.and_eq_true,
      Bool.or_eq_true, decide_eq_true_eq, not_and] at hturn
    exact hturn w hw hpressed hpass
  · rw [typed_eq_false_iff s r hpressed] at htyped
    intro y hy
    rcases List.mem_append.mp hy with hy | hy
    · rw [undecided_of s tk hundecided, List.mem_singleton] at hy
      rw [hy]
      rintro _ (hpress | hsame)
      · exact Bool.noConfusion (hpressed.symm.trans hpress)
      · exact hkey hsame.symm
    · refine hpast (fun w hw hwpressed => ?_) y hy
      rintro (hpress | hsame)
      · exact Bool.noConfusion (hpressed.symm.trans hpress)
      · exact Bool.noConfusion (hwpressed.symm.trans (htyped w hw hsame))

theorem receive_inLine (P : TapHost K H) (s : TapState K H) (key : K) (pressed : Bool) (now : Nat)
    (hs : s.InLine)
    (hroom :
      (s.arrive P (s.record key pressed now)).overflows P (s.record key pressed now) = false)
    (hturn :
      (s.arrive P (s.record key pressed now)).overtakes P (s.record key pressed now) = false) :
    ((s.arrive P (s.record key pressed now)).receive P (s.record key pressed now)).InLine := by
  let r := s.record key pressed now
  have harrived : ((s.arrive P r).receive P r).arrived = s.arrived ++ [r] :=
    receive_arrived P r (s.arrive P r) hroom
  rcases receive_line P r (s.arrive P r) (fun _ => rfl) hroom MayPass
    (mayPass_of_arrived P r (s.arrive P r) hturn) with ⟨l, hpass, hl⟩
  refine inLine_of_passes hpass (hl.imp_right And.right) ?_ ?_ ?_
    (receive_unmarked P r (s.arrive P r) hs.unmarked (fun _ => rfl) hroom)
  · rw [List.pairwise_append]
    refine ⟨hs.inTurn, List.pairwise_singleton _ _, fun y hy x hx _ _ => ?_⟩
    rw [List.mem_singleton.mp hx]
    exact Nat.le_of_lt (hs.numbered y hy)
  · intro p hp
    rw [harrived] at hp
    rcases List.mem_append.mp hp with hp | hp
    · exact List.mem_append_left _ (hs.complete p hp)
    · rw [List.mem_singleton.mp hp]
      exact List.mem_append_right _ (List.mem_singleton_self _)
  · intro y hy
    rw [harrived, List.length_append, List.length_singleton]
    rcases List.mem_append.mp hy with hy | hy
    · exact Nat.lt_succ_of_lt (hs.numbered y hy)
    · rw [List.mem_singleton.mp hy]
      exact Nat.lt_succ_self s.arrived.length

theorem afterWaiting_inLine (P : TapHost K H) (s : TapState K H) (w : TapRecord K)
    (rest : List (TapRecord K)) (hs : s.InLine) (hwaiting : s.waiting = w :: rest) :
    (afterWaiting (s.processTapping P w)).InLine := by
  have hmay : (s.processTapping P w).consumed = true → ∀ y ∈ s.undecided, MayPass w.event y := by
    intro hconsumed y hy
    rcases (processTapping_outcome P w s).consumed_cases hconsumed with
      ⟨hund, _⟩ | ⟨tk, hundecided, _, hkey, hpressed, _⟩
    · rw [hund] at hy
      exact absurd hy List.not_mem_nil
    · rw [undecided_of s tk hundecided, List.mem_singleton] at hy
      rw [hy]
      rintro _ (hpress | hsame)
      · exact Bool.noConfusion (hpressed.symm.trans hpress)
      · exact hkey hsame.symm
  rcases afterWaiting_line P w rest s hwaiting (hs.unmarked w (hwaiting ▸ List.mem_cons_self))
    MayPass hmay with ⟨l, hpass, hl⟩
  have harrived := afterWaiting_arrived P w s
  refine inLine_of_passes hpass (hl.imp_right And.right) hs.inTurn ?_ ?_
    (afterWaiting_unmarked P w rest s hwaiting hs.unmarked)
  · rw [harrived]
    exact hs.complete
  · rw [harrived]
    exact hs.numbered

omit [DecidableEq K] in
theorem processTick_inLine (P : TapHost K H) (s : TapState K H) (now : Nat) (hs : s.InLine) :
    ({ s with now := eventMs now }.processTick P (eventTime now)).InLine := by
  rcases processTick_line P (eventTime now) { s with now := eventMs now } with
    ⟨hline, hwaiting, harrived⟩
  have hline' : ({ s with now := eventMs now }.processTick P (eventTime now)).line = s.line := hline
  constructor
  · rw [hline']
    exact hs.inTurn
  · rw [hline', harrived]
    exact hs.complete
  · rw [hline', harrived]
    exact hs.numbered
  · unfold Unmarked
    rw [hwaiting]
    exact hs.unmarked

omit [DecidableEq K] in
theorem init_inLine (host : H) : (init (K := K) host).InLine := by
  refine ⟨List.Pairwise.nil, ?_, ?_, ?_⟩
  · intro p hp
    exact absurd hp List.not_mem_nil
  · intro x hx
    exact absurd hx List.not_mem_nil
  · intro w hw
    exact absurd hw List.not_mem_nil

/-- Presses are handed over in the order of the key events, and no release
    before a press of its key, in a run in which the waiting buffer has room and
    no event goes ahead of a press that it must be behind. -/
theorem press_order (P : TapHost K H) (host : H) (inputs : List (TapInput K))
    (hroom : Along (actionExec P) (OnArrival P (fun s r => s.overflows P r = false))
      (init host) inputs)
    (hturn : Along (actionExec P) (OnArrival P (fun s r => s.overtakes P r = false))
      (init host) inputs) :
    Always (actionExec P) PressOrder (init host) inputs := by
  refine always_of_along (actionExec P) _ InLine PressOrder (fun s hs => hs.pressOrder) ?_ inputs
    (init host) (init_inLine host) ((along_and _ _ _ _ _).mpr ⟨hroom, hturn⟩)
  intro s input hs hC
  refine actionExec_invariant P
    (fun s r => s.overflows P r = false ∧ s.overtakes P r = false) (fun _ _ => True) InLine
    (fun s key pressed now hs hA _ => receive_inLine P s key pressed now hs hA.1 hA.2)
    (fun s w rest hs hwaiting _ => afterWaiting_inLine P s w rest hs hwaiting)
    (fun s now hs => processTick_inLine P s now hs) s input hs ?_
    (onExamination_of_forall P _ (fun _ _ => trivial) s input)
  cases input with
  | tick now => trivial
  | key key pressed now => exact hC

/-- A tap key, another key while it is undecided, and both releases. -/
theorem press_order_tap :
    Always (actionExec (TapHost.plain (fun key : Nat => key = 0) 200)) PressOrder (init ())
      [.key 0 true 0, .key 2 true 20, .tick 30, .key 0 false 50, .key 2 false 60] :=
  press_order _ () _ (by decide +kernel) (by decide +kernel)

/-- Two tap keys, and two others after the first term is over, with no tick in
    between: the second of the others is handed over before the first. -/
theorem press_order_broken :
    let P := TapHost.plain (fun key : Nat => key < 2) 200
    let inputs := [.key 0 true 0, .key 1 true 10, .key 2 true 250, .key 3 true 260]
    Along (actionExec P) (OnArrival P (fun s r => s.overflows P r = false)) (init ()) inputs ∧
      ¬ Always (actionExec P) PressOrder (init ()) inputs := by
  refine ⟨by decide +kernel, fun h => ?_⟩
  have hlast := ((always_iff_visited _ _ _ _).mp h _ [] (List.append_nil _).symm).presses
  revert hlast
  decide +kernel

end TapState

end K530
