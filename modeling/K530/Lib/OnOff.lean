import Mathlib.Data.List.Basic
import Mathlib.Data.List.Induction
import Mathlib.Data.List.Nodup
import Mathlib.Logic.Function.Basic
import Mathlib.Tactic.Common

/-!
# Logs of What Begins and Ends

A log in which owners turn things on and off: tracks that start and end notes,
clients that take and free locks. Two owners may turn on the same thing, and an
entry that turns a thing off ends it whoever turned it on.

An owner is pending on a thing if turning it on is the last it did. If owners
turn something on only when they are pending on nothing, and turn off what they
are pending on, then between two times an owner turns something on the first
thing was turned off, and a thing is live only while some owner is pending on
it. `Tidy` is the invariant that carries this, with a lemma for each entry that
may be added.

## Main definitions

* `Entry`: A thing is turned on or off by an owner.
* `live`: The last entry about a thing turned it on.
* `pending`: What an owner has turned on last, if it has done nothing since.
* `Paired`: Between two things an owner turns on, the first is turned off.
* `Tidy`: The invariant of such a log.
* `Alternates`: An owner turns on one thing at a time, and turns off the same thing.
* `history`: The entries for one thing, without its name.

## Theorems

* `concat_eq_iff`: Where an entry of a longer log is.
* `Tidy.on`: An owner that is pending on nothing turns something on.
* `Tidy.off`: An owner turns off what it is pending on.
* `Alternates.pending_eq`: What an owner has turned on and not off.
* `Alternates.others`: What other owners do.
* `history_append`, `history_concat`: A longer log.
* `history_each`: A log that begins things, or ends them, none of them twice.
-/

namespace OnOff

universe u v

variable {ι : Type u} {τ : Type v}

/-- An owner turns a thing on or off. -/
structure Entry (ι : Type u) (τ : Type v) where
  owner : ι
  on : Bool
  thing : τ
  deriving DecidableEq

section Live

variable [DecidableEq τ]

/-- The last entry about the thing turned it on. -/
def live (log : List (Entry ι τ)) (x : τ) : Bool :=
  log.foldl (fun on e => if e.thing = x then e.on else on) false

@[simp] theorem live_nil (x : τ) : live ([] : List (Entry ι τ)) x = false := rfl

theorem live_concat (log : List (Entry ι τ)) (e : Entry ι τ) (x : τ) :
    live (log ++ [e]) x = if e.thing = x then e.on else live log x := by
  unfold live
  rw [List.foldl_append]
  rfl

end Live

section Pending

variable [DecidableEq ι]

/-- The thing the owner has turned on, if that is the last it did. -/
def pending (log : List (Entry ι τ)) (i : ι) : Option τ :=
  log.foldl (fun p e => if e.owner = i then (if e.on then some e.thing else none) else p) none

@[simp] theorem pending_nil (i : ι) : pending ([] : List (Entry ι τ)) i = none := rfl

theorem pending_concat (log : List (Entry ι τ)) (e : Entry ι τ) (i : ι) :
    pending (log ++ [e]) i =
      if e.owner = i then (if e.on then some e.thing else none) else pending log i := by
  unfold pending
  rw [List.foldl_append]
  rfl

end Pending

/-- Between two entries in which an owner turns something on, the first thing is
    turned off. -/
def Paired (log : List (Entry ι τ)) : Prop :=
  ∀ pre mid post i x y,
    log = pre ++ ⟨i, true, x⟩ :: mid ++ ⟨i, true, y⟩ :: post → ∃ e ∈ mid, e.on = false ∧ e.thing = x

theorem concat_eq_iff {α : Type u} {log pre mid : List α} {e a : α} :
    log ++ [e] = pre ++ a :: mid ↔
      (mid = [] ∧ log = pre ∧ e = a) ∨ ∃ mid', mid = mid' ++ [e] ∧ log = pre ++ a :: mid' := by
  rcases List.eq_nil_or_concat mid with rfl | ⟨front, b, rfl⟩
  · constructor
    · intro h
      obtain ⟨hlog, he⟩ := List.append_inj' h rfl
      exact Or.inl ⟨rfl, hlog, List.singleton_inj.mp he⟩
    · rintro (⟨-, rfl, rfl⟩ | ⟨mid', hmid, -⟩)
      · rfl
      · exact absurd hmid (by simp)
  · rw [List.concat_eq_append, ← List.cons_append, ← List.append_assoc]
    constructor
    · intro h
      obtain ⟨hlog, hb⟩ := List.append_inj' h rfl
      rw [List.cons.injEq] at hb
      exact Or.inr ⟨front, by rw [hb.1], hlog⟩
    · rintro (⟨hnil, -, -⟩ | ⟨mid', hmid, hlog⟩)
      · exact absurd hnil (by simp)
      · obtain ⟨rfl, hb⟩ := List.append_inj' hmid rfl
        rw [hlog, hb]

/-- Each thing that an owner has turned on it has turned off, once, before it turned on the
    next. What it has turned on and not off is given besides. -/
inductive Alternates (i : ι) : List (Entry ι τ) → Option τ → Prop where
  | nil : Alternates i [] none
  | other {log x} (h : Alternates i log x) (e : Entry ι τ) (howner : e.owner ≠ i) :
      Alternates i (log ++ [e]) x
  | on {log} (h : Alternates i log none) (x : τ) : Alternates i (log ++ [⟨i, true, x⟩]) (some x)
  | off {log} {x : τ} (h : Alternates i log (some x)) :
      Alternates i (log ++ [⟨i, false, x⟩]) none

theorem Alternates.pending_eq [DecidableEq ι] {i : ι} {log : List (Entry ι τ)} {x : Option τ}
    (h : Alternates i log x) : pending log i = x := by
  induction h with
  | nil => rfl
  | other h e howner ih => rw [pending_concat, if_neg howner, ih]
  | on h x ih => rw [pending_concat, if_pos rfl, if_pos rfl]
  | off h ih => rw [pending_concat, if_pos rfl, if_neg Bool.false_ne_true]

theorem Alternates.others {i : ι} {log more : List (Entry ι τ)} {x : Option τ}
    (h : Alternates i log x) (howners : ∀ e ∈ more, e.owner ≠ i) :
    Alternates i (log ++ more) x := by
  induction more using List.reverseRecOn with
  | nil => rwa [List.append_nil]
  | append_singleton more e ih =>
    rw [← List.append_assoc]
    refine (ih (fun e he => howners e (List.mem_append_left _ he))).other e ?_
    exact howners e (List.mem_append_right _ (List.mem_singleton_self e))

variable [DecidableEq ι] [DecidableEq τ]

/-- What is live is pending, what was turned on has been turned off unless it is
    pending, and what an owner turned on was turned off before it went on. -/
structure Tidy (log : List (Entry ι τ)) : Prop where
  held : ∀ x, live log x = true → ∃ i, pending log i = some x
  answered : ∀ pre mid i x, log = pre ++ ⟨i, true, x⟩ :: mid →
    (∃ e ∈ mid, e.on = false ∧ e.thing = x) ∨ pending log i = some x
  paired : Paired log

theorem Tidy.nil : Tidy ([] : List (Entry ι τ)) where
  held := fun x hx => absurd hx (by simp)
  answered := fun pre mid i x h => absurd h (by simp)
  paired := fun pre mid post i x y h => absurd h (by simp)

theorem Tidy.on {log : List (Entry ι τ)} (h : Tidy log) {i : ι} (hfree : pending log i = none)
    (x : τ) : Tidy (log ++ [⟨i, true, x⟩]) where
  held := by
    intro y hy
    rw [live_concat] at hy
    by_cases hxy : x = y
    · exact ⟨i, by rw [pending_concat, if_pos rfl, if_pos rfl, hxy]⟩
    · rw [if_neg hxy] at hy
      obtain ⟨j, hj⟩ := h.held y hy
      refine ⟨j, ?_⟩
      rw [pending_concat, if_neg ?_, hj]
      rintro rfl
      exact absurd (hfree.symm.trans hj) (by simp)
  answered := by
    intro pre mid j y heq
    rw [pending_concat]
    rcases concat_eq_iff.mp heq with ⟨-, -, he⟩ | ⟨mid', rfl, hlog⟩
    · rw [Entry.mk.injEq] at he
      exact Or.inr (by rw [if_pos he.1, if_pos rfl, he.2.2])
    · rcases h.answered pre mid' j y hlog with ⟨e, he, hoff⟩ | hpending
      · exact Or.inl ⟨e, List.mem_append_left _ he, hoff⟩
      · refine Or.inr ?_
        rw [if_neg ?_, hpending]
        rintro rfl
        exact absurd (hfree.symm.trans hpending) (by simp)
  paired := by
    intro pre mid post j y z heq
    rcases concat_eq_iff.mp heq with ⟨-, hlog, he⟩ | ⟨post', -, hlog⟩
    · -- the new entry is the second of the two
      rw [Entry.mk.injEq] at he
      rcases h.answered pre mid j y hlog with hoff | hpending
      · exact hoff
      · rw [← he.1, hfree] at hpending
        exact absurd hpending (by simp)
    · exact h.paired pre mid post' j y z hlog

theorem Tidy.off {log : List (Entry ι τ)} (h : Tidy log) {i : ι} {x : τ}
    (hmatch : ∀ y ∈ pending log i, y = x) : Tidy (log ++ [⟨i, false, x⟩]) where
  held := by
    intro y hy
    rw [live_concat] at hy
    by_cases hxy : x = y
    · rw [if_pos hxy] at hy
      exact absurd hy Bool.false_ne_true
    · rw [if_neg hxy] at hy
      obtain ⟨j, hj⟩ := h.held y hy
      refine ⟨j, ?_⟩
      rw [pending_concat, if_neg ?_, hj]
      rintro rfl
      exact hxy (hmatch y hj).symm
  answered := by
    intro pre mid j y heq
    rw [pending_concat]
    rcases concat_eq_iff.mp heq with ⟨-, -, he⟩ | ⟨mid', rfl, hlog⟩
    · exact absurd (congrArg Entry.on he) Bool.false_ne_true
    · rcases h.answered pre mid' j y hlog with ⟨e, he, hoff⟩ | hpending
      · exact Or.inl ⟨e, List.mem_append_left _ he, hoff⟩
      · by_cases hij : i = j
        · -- the owner's own thing is what it turns off
          subst hij
          exact Or.inl ⟨⟨i, false, x⟩, List.mem_append_right _ (by simp), rfl,
            (hmatch y hpending).symm⟩
        · exact Or.inr (by rw [if_neg hij, hpending])
  paired := by
    intro pre mid post j y z heq
    rcases concat_eq_iff.mp heq with ⟨-, -, he⟩ | ⟨post', -, hlog⟩
    · exact absurd (congrArg Entry.on he) Bool.false_ne_true
    · exact h.paired pre mid post' j y z hlog

end OnOff

/-!
### Histories

A log of things that are begun and ended, many of them at a time. The history of
one of them is what the log says of it alone: `[true]` when it has been begun,
`[true, false]` when it has been begun once and then ended once.
-/

namespace History

universe u

variable {ι : Type u} [DecidableEq ι]

/-- What has happened to one thing. -/
def history (log : List (Bool × ι)) (x : ι) : List Bool :=
  (log.filter (fun e => e.2 = x)).map Prod.fst

@[simp] theorem history_nil (x : ι) : history [] x = [] := rfl

theorem history_append (log more : List (Bool × ι)) (x : ι) :
    history (log ++ more) x = history log x ++ history more x := by
  unfold history
  rw [List.filter_append, List.map_append]

theorem history_concat (log : List (Bool × ι)) (begun : Bool) (x y : ι) :
    history (log ++ [(begun, y)]) x = history log x ++ if y = x then [begun] else [] := by
  rw [history_append]
  congr 1
  unfold history
  by_cases h : y = x
  · simp [h]
  · simp [h]

theorem history_concat_of_ne (log : List (Bool × ι)) (begun : Bool) (x y : ι) (h : y ≠ x) :
    history (log ++ [(begun, y)]) x = history log x := by
  rw [history_concat, if_neg h, List.append_nil]

theorem history_concat_self (log : List (Bool × ι)) (begun : Bool) (x : ι) :
    history (log ++ [(begun, x)]) x = history log x ++ [begun] := by
  rw [history_concat, if_pos rfl]

theorem history_each (begun : Bool) (xs : List ι) (x : ι) (h : xs.Nodup) :
    history (xs.map (Prod.mk begun)) x = if x ∈ xs then [begun] else [] := by
  induction xs with
  | nil => rfl
  | cons y ys ih =>
    obtain ⟨hy, hys⟩ := List.nodup_cons.mp h
    have hrest := ih hys
    rw [List.map_cons, ← List.singleton_append, history_append, hrest]
    by_cases hyx : y = x
    · subst hyx
      rw [if_neg hy, if_pos List.mem_cons_self]
      simp [history]
    · have hxy : x ∈ y :: ys ↔ x ∈ ys := by
        rw [List.mem_cons, or_iff_right (Ne.symm hyx)]
      simp [history, hyx, hxy]

end History
