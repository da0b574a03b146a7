import Mathlib.Data.List.Basic
import Mathlib.Tactic.Common

/-!
# Runs of a Step Function

A program that takes one input at a time is a function `σ → α → σ`, and a run
of it is a fold over the list of inputs. The induction over that list is packaged
here once, in the forms the rest of the development asks for.

`Along` says that every step of a run meets a condition on the state it starts
from, and `run_invariant_along` turns an invariant kept by the steps that meet it
into one that holds at the end of every run all of whose steps do.

`Always` says that a property holds in every state a run visits.
`always_iff_along` is exact: when a property is kept by the steps that meet a
condition and broken by the others, it holds throughout a run exactly when every
step meets it.

A step that also answers is a function `σ → α → σ × β`. `trace` collects the
answers, and `trace_related` is the two-run argument: related states that
answer alike and stay related answer alike for ever.

## Main definitions

* `run`: The state after a list of inputs.
* `Along`: Every step of a run meets a condition.
* `Always`: Every state of a run has a property.
* `next`: The state part of an answering step.
* `trace`: The answers of an answering step over a list of inputs.

## Theorems

* `run_append`: A run over two lists is one run after the other.
* `run_invariant`: An invariant of the step is one of the run.
* `run_invariant_along`: The same, for the steps that meet a condition.
* `run_related`: Two machines that take the same inputs stay related.
* `run_separate`: A run over inputs that each see to a part of their own.
* `along_and`: Two conditions along a run.
* `along_of_forall`: A condition every step meets is met along any run.
* `along_of_invariant`: A condition that follows from an invariant.
* `along_congr`: Two conditions that come to the same under an invariant.
* `along_visited`: Each step of the run meets the condition.
* `always_of_along`: An invariant kept along a run holds throughout it.
* `always_iff_along`: A property holds throughout exactly when no step breaks
  it.
* `along_imp`: What follows from a condition under an invariant.
* `trace_append`: The answers over two lists are the answers one after the
  other.
* `trace_comap`: Answering to a part of the input.
* `trace_related`: Related states of two machines answer alike, up to a view.
* `trace_eq_of_related`: Related states of one machine answer alike.
* `forall_trace_iff_along`: Every answer is good exactly when every step meets
  the condition that makes it so.
-/

namespace StepRun

universe u v w

variable {σ : Type u} {α : Type v} {β : Type w}

/-- The state after feeding a list of inputs to a step function. -/
def run (step : σ → α → σ) (s : σ) (inputs : List α) : σ :=
  inputs.foldl step s

variable (step : σ → α → σ)

@[simp] theorem run_nil (s : σ) : run step s [] = s := rfl

@[simp] theorem run_cons (s : σ) (a : α) (as : List α) :
    run step s (a :: as) = run step (step s a) as := rfl

theorem run_append (s : σ) (as bs : List α) : run step s (as ++ bs) = run step (run step s as) bs :=
  List.foldl_append

theorem run_concat (s : σ) (as : List α) (a : α) :
    run step s (as ++ [a]) = step (run step s as) a := by
  rw [run_append, run_cons, run_nil]

theorem run_invariant (I : σ → Prop) (hstep : ∀ s a, I s → I (step s a)) (as : List α) :
    ∀ s, I s → I (run step s as) := by
  induction as with
  | nil =>
    intro s hs
    exact hs
  | cons a as ih =>
    intro s hs
    exact ih (step s a) (hstep s a hs)

theorem run_related {τ : Type v} {α : Type w} (step : σ → α → σ) (step' : τ → α → τ)
    (R : σ → τ → Prop) (hstep : ∀ s t a, R s t → R (step s a) (step' t a)) (as : List α) :
    ∀ s t, R s t → R (run step s as) (run step' t as) := by
  induction as with
  | nil =>
    intro s t h
    exact h
  | cons a as ih =>
    intro s t h
    exact ih (step s a) (step' t a) (hstep s t a h)

section

variable {V : Type w} (step : σ → α → σ) (part : σ → α → V)
  (hother : ∀ s a b, b ≠ a → part (step s a) b = part s b)

include hother

theorem run_apart (as : List α) (b : α) (hb : b ∉ as) :
    ∀ s, part (run step s as) b = part s b := by
  induction as with
  | nil =>
    intro s
    rfl
  | cons a as ih =>
    intro s
    rw [List.mem_cons, not_or] at hb
    rw [run_cons, ih hb.2, hother s a b hb.1]

theorem run_separate (own : α → V → V) (hself : ∀ s a, part (step s a) a = own a (part s a))
    (as : List α) (hnodup : as.Nodup) (b : α) (hb : b ∈ as) :
    ∀ s, part (run step s as) b = own b (part s b) := by
  induction as with
  | nil => exact absurd hb List.not_mem_nil
  | cons a as ih =>
    intro s
    rw [List.nodup_cons] at hnodup
    rw [run_cons]
    rcases List.mem_cons.mp hb with rfl | hrest
    · rw [run_apart step part hother as b hnodup.1, hself]
    · -- the first input sees to another part, for none comes twice
      have hne : b ≠ a := fun heq => hnodup.1 (heq ▸ hrest)
      rw [ih hnodup.2 hrest, hother s a b hne]

end

/-- Every step of the run meets the condition `C` on the state it starts from
    and the input it takes. -/
def Along (step : σ → α → σ) (C : σ → α → Prop) : σ → List α → Prop
  | _, [] => True
  | s, a :: as => C s a ∧ Along step C (step s a) as

instance decidableAlong (step : σ → α → σ) (C : σ → α → Prop) [∀ s a, Decidable (C s a)] :
    (s : σ) → (as : List α) → Decidable (Along step C s as)
  | _, [] => inferInstanceAs (Decidable True)
  | s, a :: as =>
    have := decidableAlong step C (step s a) as
    inferInstanceAs (Decidable (C s a ∧ Along step C (step s a) as))

variable (step : σ → α → σ)

theorem along_and (C D : σ → α → Prop) (as : List α) :
    ∀ s, Along step (fun s a => C s a ∧ D s a) s as ↔ Along step C s as ∧ Along step D s as := by
  induction as with
  | nil =>
    intro s
    simp only [Along, and_self]
  | cons a as ih =>
    intro s
    simp only [Along, ih (step s a)]
    exact and_and_and_comm

variable (C : σ → α → Prop)

theorem along_of_forall (as : List α) (h : ∀ s, ∀ a ∈ as, C s a) : ∀ s, Along step C s as := by
  induction as with
  | nil =>
    intro s
    trivial
  | cons a as ih =>
    intro s
    refine ⟨h s a List.mem_cons_self, ih (fun t b hb => h t b ?_) (step s a)⟩
    exact List.mem_cons_of_mem a hb

theorem along_of_invariant (I : σ → Prop) (hstep : ∀ s a, I s → I (step s a))
    (hC : ∀ s a, I s → C s a) (as : List α) : ∀ s, I s → Along step C s as := by
  induction as with
  | nil =>
    intro s _
    trivial
  | cons a as ih =>
    intro s hs
    exact ⟨hC s a hs, ih (step s a) (hstep s a hs)⟩

theorem along_congr (C D : σ → α → Prop) (I : σ → Prop) (hstep : ∀ s a, I s → I (step s a))
    (h : ∀ s a, I s → (C s a ↔ D s a)) (as : List α) :
    ∀ s, I s → (Along step C s as ↔ Along step D s as) := by
  induction as with
  | nil =>
    intro s _
    rfl
  | cons a as ih =>
    intro s hs
    simp only [Along, h s a hs, ih (step s a) (hstep s a hs)]

theorem along_append (as bs : List α) :
    ∀ s, Along step C s (as ++ bs) ↔ Along step C s as ∧ Along step C (run step s as) bs := by
  induction as with
  | nil =>
    intro s
    simp only [List.nil_append, Along, run_nil, true_and]
  | cons a as ih =>
    intro s
    simp only [List.cons_append, Along, run_cons, ih (step s a), and_assoc]

theorem along_visited (pre post : List α) (a : α) (s : σ) (h : Along step C s (pre ++ a :: post)) :
    C (run step s pre) a :=
  ((along_append step C pre (a :: post) s).mp h).2.1

theorem run_invariant_along (I : σ → Prop) (hstep : ∀ s a, I s → C s a → I (step s a))
    (as : List α) :
    ∀ s, I s → Along step C s as → I (run step s as) := by
  induction as with
  | nil =>
    intro s hs _
    exact hs
  | cons a as ih =>
    intro s hs hC
    exact ih (step s a) (hstep s a hs hC.1) hC.2

/-- Every state the run visits has the property `P`. -/
def Always (step : σ → α → σ) (P : σ → Prop) : σ → List α → Prop
  | s, [] => P s
  | s, a :: as => P s ∧ Always step P (step s a) as

theorem always_head (P : σ → Prop) (s : σ) (as : List α) (h : Always step P s as) : P s := by
  cases as with
  | nil => exact h
  | cons a as => exact h.1

theorem always_iff_visited (P : σ → Prop) (as : List α) :
    ∀ s, Always step P s as ↔ ∀ pre post, as = pre ++ post → P (run step s pre) := by
  induction as with
  | nil =>
    intro s
    constructor
    · intro h pre post he
      rw [(List.append_eq_nil_iff.mp he.symm).1]
      exact h
    · intro h
      exact h [] [] rfl
  | cons a as ih =>
    intro s
    constructor
    · intro h pre post he
      cases pre with
      | nil => exact h.1
      | cons b pre =>
        rw [List.cons_append, List.cons.injEq] at he
        rw [← he.1]
        exact (ih (step s a)).mp h.2 pre post he.2
    · intro h
      refine ⟨h [] (a :: as) rfl, (ih (step s a)).mpr (fun pre post he => ?_)⟩
      exact h (a :: pre) post (by rw [he, List.cons_append])

theorem always_of_along (I P : σ → Prop) (hP : ∀ s, I s → P s)
    (hstep : ∀ s a, I s → C s a → I (step s a)) (as : List α) :
    ∀ s, I s → Along step C s as → Always step P s as := by
  induction as with
  | nil =>
    intro s hs _
    exact hP s hs
  | cons a as ih =>
    intro s hs hC
    exact ⟨hP s hs, ih (step s a) (hstep s a hs hC.1) hC.2⟩

/-- When an invariant is kept by the steps that meet a condition, and a step
    that does not meet it lands in a state without the property, the property
    holds throughout a run exactly when every step meets the condition. The
    steps may be taken to meet a hypothesis `H` besides. -/
theorem always_iff_along_of (H C : σ → α → Prop) (I P : σ → Prop) (hP : ∀ s, I s → P s)
    (hstep : ∀ s a, I s → H s a → C s a → I (step s a))
    (hbreak : ∀ s a, I s → H s a → ¬ C s a → ¬ P (step s a)) (as : List α) :
    ∀ s, I s → Along step H s as → (Always step P s as ↔ Along step C s as) := by
  induction as with
  | nil =>
    intro s hs _
    exact ⟨fun _ => trivial, fun _ => hP s hs⟩
  | cons a as ih =>
    intro s hs hH
    by_cases hC : C s a
    · have hrest := ih (step s a) (hstep s a hs hH.1 hC) hH.2
      exact ⟨fun h => ⟨hC, hrest.mp h.2⟩, fun h => ⟨hP s hs, hrest.mpr h.2⟩⟩
    · constructor
      · intro h
        exact absurd (always_head step P (step s a) as h.2) (hbreak s a hs hH.1 hC)
      · intro h
        exact absurd h.1 hC

theorem always_iff_along (I P : σ → Prop) (hP : ∀ s, I s → P s)
    (hstep : ∀ s a, I s → C s a → I (step s a)) (hbreak : ∀ s a, I s → ¬ C s a → ¬ P (step s a))
    (as : List α) (s : σ) (hs : I s) : Always step P s as ↔ Along step C s as :=
  always_iff_along_of step (fun _ _ => True) C I P hP (fun s a hI _ hC => hstep s a hI hC)
    (fun s a hI _ hC => hbreak s a hI hC) as s hs
    (along_of_forall step _ as (fun _ _ _ => trivial) s)

theorem along_imp (C D : σ → α → Prop) (I : σ → Prop) (hstep : ∀ s a, I s → C s a → I (step s a))
    (hD : ∀ s a, I s → C s a → D s a) (as : List α) :
    ∀ s, I s → Along step C s as → Along step D s as := by
  induction as with
  | nil =>
    intro s _ _
    trivial
  | cons a as ih =>
    intro s hs hC
    exact ⟨hD s a hs hC.1, ih (step s a) (hstep s a hs hC.1) hC.2⟩

/-- The state part of a step that also answers. -/
def next (step : σ → α → σ × β) (s : σ) (a : α) : σ :=
  (step s a).1

/-- The answers of a step over a list of inputs, oldest first. -/
def trace (step : σ → α → σ × β) : σ → List α → List β
  | _, [] => []
  | s, a :: as => (step s a).2 :: trace step (step s a).1 as

variable (step : σ → α → σ × β)

theorem trace_append (as bs : List α) :
    ∀ s, trace step s (as ++ bs) =
      trace step s as ++ trace step (run (next step) s as) bs := by
  induction as with
  | nil =>
    intro s
    rfl
  | cons a as ih =>
    intro s
    simp only [List.cons_append, trace, run_cons, next, ih]

theorem trace_comap {γ : Type*} (step : σ → α → σ × β) (f : γ → α) (cs : List γ) :
    ∀ s, trace (fun s c => step s (f c)) s cs = trace step s (cs.map f) := by
  induction cs with
  | nil =>
    intro s
    rfl
  | cons c cs ih =>
    intro s
    simp only [trace, List.map_cons, ih]

/-- Two answering steps that agree on a view of their answers from related
    states, and stay related, agree on that view along every list of inputs
    whose steps meet a hypothesis on the second machine. -/
theorem trace_related_of {τ γ δ : Type*} (step : σ → α → σ × β) (step' : τ → α → τ × γ)
    (f : β → δ) (g : γ → δ) (R : σ → τ → Prop) (H : τ → α → Prop)
    (hstep : ∀ s t a, R s t → H t a →
      f (step s a).2 = g (step' t a).2 ∧ R (step s a).1 (step' t a).1)
    (as : List α) : ∀ s t, R s t → Along (next step') H t as →
      (trace step s as).map f = (trace step' t as).map g := by
  induction as with
  | nil =>
    intro s t _ _
    rfl
  | cons a as ih =>
    intro s t h hH
    have hst := hstep s t a h hH.1
    simp only [trace, List.map_cons, hst.1, ih _ _ hst.2 hH.2]

theorem trace_related {τ γ δ : Type*} (step : σ → α → σ × β) (step' : τ → α → τ × γ)
    (f : β → δ) (g : γ → δ) (R : σ → τ → Prop)
    (hstep : ∀ s t a, R s t →
      f (step s a).2 = g (step' t a).2 ∧ R (step s a).1 (step' t a).1)
    (as : List α) (s : σ) (t : τ) (h : R s t) :
    (trace step s as).map f = (trace step' t as).map g :=
  trace_related_of step step' f g R (fun _ _ => True) (fun s t a hst _ => hstep s t a hst) as s t h
    (along_of_forall (next step') _ as (fun _ _ _ => trivial) t)

theorem trace_eq_of_related (R : σ → σ → Prop)
    (hstep : ∀ s t a, R s t → (step s a).2 = (step t a).2 ∧ R (step s a).1 (step t a).1)
    (as : List α) (s t : σ) (h : R s t) : trace step s as = trace step t as := by
  have hmap := trace_related step step id id R hstep as s t h
  rwa [List.map_id, List.map_id] at hmap

/-- When an invariant is kept by the steps that meet a condition, and under it
    a step's answer is good exactly when the step meets the condition, every
    answer of a run is good exactly when every step meets it. The steps may be
    taken to meet a hypothesis `H` besides. -/
theorem forall_trace_iff_along_of (H C : σ → α → Prop) (I : σ → Prop) (Q : β → Prop)
    (hstep : ∀ s a, I s → H s a → C s a → I (step s a).1)
    (hQ : ∀ s a, I s → H s a → (Q (step s a).2 ↔ C s a)) (as : List α) :
    ∀ s, I s → Along (next step) H s as →
      ((∀ o ∈ trace step s as, Q o) ↔ Along (next step) C s as) := by
  induction as with
  | nil =>
    intro s _ _
    simp only [trace, List.not_mem_nil, false_implies, implies_true, Along]
  | cons a as ih =>
    intro s hs hH
    simp only [trace, List.forall_mem_cons, Along]
    rw [hQ s a hs hH.1]
    exact and_congr_right (fun hC => ih (step s a).1 (hstep s a hs hH.1 hC) hH.2)

theorem forall_trace_iff_along (C : σ → α → Prop) (I : σ → Prop) (Q : β → Prop)
    (hstep : ∀ s a, I s → C s a → I (step s a).1) (hQ : ∀ s a, I s → (Q (step s a).2 ↔ C s a))
    (as : List α) (s : σ) (hs : I s) : (∀ o ∈ trace step s as, Q o) ↔ Along (next step) C s as :=
  forall_trace_iff_along_of step (fun _ _ => True) C I Q
    (fun s a hI _ hC => hstep s a hI hC) (fun s a hI _ => hQ s a hI) as s hs
    (along_of_forall (next step) _ as (fun _ _ _ => trivial) s)

end StepRun

namespace StepRun

/-! ### Latches

Something that some steps of a run turn on, some turn off, and the rest leave as
it is: a key that is down, a modifier that is set, a light that is lit.

Whether it is off at the end depends on the last step that touched it. Put
forward rather than backward: every step that turned it on was followed by one
that turned it off. `Answered` is that condition, read off the run step by step,
and `off_run_iff` says it is exact.
-/

universe u v

variable {σ : Type u} {α : Type v}

/-- Some step of the run meets the condition `C` on the state it starts from
    and the input it takes. -/
def Sometime (step : σ → α → σ) (C : σ → α → Prop) : σ → List α → Prop
  | _, [] => False
  | s, a :: as => C s a ∨ Sometime step C (step s a) as

/-- Every step of the run that turns it on is followed by one that turns it
    off. -/
def Answered (step : σ → α → σ) (sets resets : σ → α → Prop) : σ → List α → Prop
  | _, [] => True
  | s, a :: as =>
    (sets s a → Sometime step resets (step s a) as) ∧ Answered step sets resets (step s a) as

/-- Under an invariant, kept by the steps that meet a hypothesis `H`, it is on
    after such a step that turns it on, and after one that leaves it on. -/
structure IsLatch (step : σ → α → σ) (H : σ → α → Prop) (I on : σ → Prop)
    (sets resets : σ → α → Prop) : Prop where
  keeps : ∀ s a, I s → H s a → I (step s a)
  turns : ∀ s a, I s → H s a → (on (step s a) ↔ sets s a ∨ on s ∧ ¬ resets s a)

theorem turns_iff (pressed : Bool) (on on' touches room : Prop)
    (hpress : pressed → (on' ↔ on ∨ touches ∧ room))
    (hrelease : pressed = false → (on' ↔ on ∧ ¬ touches)) :
    on' ↔ (pressed ∧ touches ∧ room) ∨ on ∧ ¬ (pressed = false ∧ touches) := by
  cases pressed with
  | true =>
    rw [hpress rfl]
    simp only [true_and, Bool.true_eq_false, false_and, not_false_eq_true, and_true]
    exact or_comm
  | false =>
    rw [hrelease rfl]
    simp only [Bool.false_eq_true, false_and, true_and, false_or]

theorem off_run (step : σ → α → σ) (H : σ → α → Prop) (I on : σ → Prop)
    (sets resets : σ → α → Prop) (h : IsLatch step H I on sets resets) (as : List α) :
    ∀ s, I s → Along step H s as → (¬ on (run step s as) ↔
      (on s → Sometime step resets s as) ∧ Answered step sets resets s as) := by
  induction as with
  | nil =>
    intro s _ _
    simp only [run_nil, Sometime, Answered, and_true, imp_false]
  | cons a as ih =>
    intro s hs hH
    have hturns := h.turns s a hs hH.1
    rw [run_cons, ih (step s a) (h.keeps s a hs hH.1) hH.2, hturns]
    simp only [Sometime, Answered]
    constructor
    · rintro ⟨hsince, hanswered⟩
      refine ⟨fun hon => ?_, fun hset => hsince (Or.inl hset), hanswered⟩
      by_cases hreset : resets s a
      · exact Or.inl hreset
      · exact Or.inr (hsince (Or.inr ⟨hon, hreset⟩))
    · rintro ⟨hsince, hset, hanswered⟩
      refine ⟨fun hon => ?_, hanswered⟩
      rcases hon with hon | ⟨hon, hreset⟩
      · exact hset hon
      · exact (hsince hon).resolve_left hreset

theorem off_run_iff (step : σ → α → σ) (H : σ → α → Prop) (I on : σ → Prop)
    (sets resets : σ → α → Prop) (h : IsLatch step H I on sets resets) (as : List α) (s : σ)
    (hs : I s) (hoff : ¬ on s) (hH : Along step H s as) :
    ¬ on (run step s as) ↔ Answered step sets resets s as := by
  rw [off_run step H I on sets resets h as s hs hH]
  exact and_iff_right (fun hon => absurd hon hoff)

end StepRun
