import Mathlib.Data.List.Basic
import Mathlib.Data.Option.Basic

/-!
# The Lane of One Key

What tapping looks like to a single key. Its events wait in a lane, each with a
mark if it is known to be half of a tap. They are handed over from the front,
the press as tapped or as held, and its release should be handed over the same
way. The press itself may be undecided, and then it is in no lane; and after it
has been tapped the tapping key remembers it, with a count.

A release is known for a tap by its mark, or because the tapping key still
remembers the press. `Lane.Sound` says that one of the two is always the case,
and that nothing else is marked. It does not say that a release is preceded by
a press: a press may have been lost, and a tap released by a made-up release.

## Main definitions

* `Stroke`: A press or a release, tapped or held.

## Theorems

* `Turn.sound`: The invariant is kept, and what is handed over fits.
* `Fits.append`: Strokes that fit, and more that fit after them.
-/

namespace K530

/-- A press or a release, as a tap or as a hold. -/
structure Stroke where
  pressed : Bool
  tapped : Bool
  deriving DecidableEq

/-- The class of the press that a stroke leaves to be released. -/
def Stroke.holding (x : Stroke) : Option Bool := if x.pressed then some x.tapped else none

/-- The class of the press that is not released yet, after some strokes. -/
def heldAfter : Option Bool → List Stroke → Option Bool
  | held, [] => held
  | _, x :: xs => heldAfter x.holding xs

def Fits : Option Bool → List Stroke → Prop
  | _, [] => True
  | held, x :: xs => (∀ c, held = some c → x = { pressed := false, tapped := c }) ∧
      Fits x.holding xs

theorem heldAfter_append (held : Option Bool) (xs ys : List Stroke) :
    heldAfter held (xs ++ ys) = heldAfter (heldAfter held xs) ys := by
  induction xs generalizing held with
  | nil => rfl
  | cons x xs ih => exact ih x.holding

theorem fits_append (held : Option Bool) (xs ys : List Stroke) :
    Fits held (xs ++ ys) ↔ Fits held xs ∧ Fits (heldAfter held xs) ys := by
  induction xs generalizing held with
  | nil => simp only [List.nil_append, Fits, heldAfter, true_and]
  | cons x xs ih =>
    simp only [List.cons_append, Fits, heldAfter, ih x.holding, and_assoc]

theorem Fits.class_eq {held : Option Bool} {before after : List Stroke} {x y : Stroke}
    (h : Fits held (before ++ x :: y :: after)) (hx : x.pressed) :
    y = { pressed := false, tapped := x.tapped } := by
  rw [fits_append] at h
  refine h.2.2.1 x.tapped ?_
  rw [Stroke.holding, if_pos hx]

structure Lane where
  /-- The class of the press handed over last, if it is not released yet -/
  held : Option Bool
  /-- Whether the undecided press is of this key -/
  undecided : Bool
  /-- The count of the tapping key, if it is this one and a tap -/
  tapped : Option Nat
  /-- The marks of the events that wait -/
  waits : List Bool
  deriving DecidableEq

theorem Lane.eq_of {l l' : Lane} (hheld : l.held = l'.held)
    (hundecided : l.undecided = l'.undecided) (htapped : l.tapped = l'.tapped)
    (hwaits : l.waits = l'.waits) : l = l' := by
  cases l
  cases l'
  cases hheld
  cases hundecided
  cases htapped
  cases hwaits
  rfl

structure Lane.Sound (l : Lane) : Prop where
  /-- The release of a tap is marked, or the tapping key remembers the press -/
  released : l.held = some true → l.tapped = none → l.waits.head? = some true
  /-- Only the first event is marked, -/
  first : ∀ m ∈ l.waits.tail, m = false
  /-- and only if it is the release of a tap -/
  marked : l.waits.head? = some true → l.held = some true
  /-- The tapping key is a tap not released; after the first tap the release is
      waiting, after later ones it is not -/
  tap : ∀ n, l.tapped = some n → l.held = some true ∧ (n = 1 ↔ l.waits.head? = some true)
  /-- The press before an undecided one has been released -/
  free : l.undecided = true → l.held = none

inductive Turn (l : Lane) : List Stroke → Lane → Prop where
  /-- Nothing -/
  | stay : Turn l [] l
  /-- A press is handed over -/
  | press (rest : List Bool) (hwaits : l.waits = false :: rest) (hheld : l.held = none)
      (hdecided : l.undecided = false) :
      Turn l [{ pressed := true, tapped := false }] { l with held := some false, waits := rest }
  /-- A release is handed over -/
  | release (m : Bool) (rest : List Bool) (hwaits : l.waits = m :: rest)
      (htapped : l.tapped = none) :
      Turn l [{ pressed := false, tapped := m }] { l with held := none, waits := rest }
  /-- The release of a tap that the tapping key remembers -/
  | tapRelease (m : Bool) (rest : List Bool) (n : Nat) (hwaits : l.waits = m :: rest)
      (htapped : l.tapped = some n) :
      Turn l [{ pressed := false, tapped := true }]
        { l with held := none, tapped := none, waits := rest }
  /-- A press becomes undecided -/
  | start (rest : List Bool) (hwaits : l.waits = false :: rest) (hheld : l.held = none) :
      Turn l [] { l with undecided := true, tapped := none, waits := rest }
  /-- A press is a tap, as its release is waiting -/
  | startTap (m : Bool) (rest : List Bool) (tapped : Option Nat)
      (hwaits : l.waits = false :: m :: rest) (hheld : l.held = none)
      (htapped : ∀ n, tapped = some n → n = 1) :
      Turn l [{ pressed := true, tapped := true }]
        { held := some true, undecided := false, tapped, waits := true :: rest }
  /-- A press is the next tap of a sequence -/
  | next (n : Nat) (rest : List Bool) (hwaits : l.waits = false :: rest) (hheld : l.held = none)
      (hn : 1 < n) :
      Turn l [{ pressed := true, tapped := true }]
        { held := some true, undecided := false, tapped := some n, waits := rest }
  /-- The undecided press is a tap, as its release has come -/
  | firstTap (m : Bool) (rest : List Bool) (tapped : Option Nat) (hundecided : l.undecided = true)
      (hwaits : l.waits = m :: rest) (htapped : ∀ n, tapped = some n → n = 1) :
      Turn l [{ pressed := true, tapped := true }]
        { held := some true, undecided := false, tapped, waits := true :: rest }
  /-- The undecided press is a hold -/
  | settle (hundecided : l.undecided = true) :
      Turn l [{ pressed := true, tapped := false }]
        { l with held := some false, undecided := false }
  /-- The tapping key forgets a first tap -/
  | cleared (htapped : ∀ n, l.tapped = some n → n = 1) : Turn l [] { l with tapped := none }
  /-- The tapping key forgets a later tap, with a release made up -/
  | broken (n : Nat) (htapped : l.tapped = some n) (hn : 1 < n) :
      Turn l [{ pressed := false, tapped := true }] { l with held := none, tapped := none }

theorem Turn.congr {l l' l'' : Lane} {xs ys : List Stroke} (h : Turn l xs l') (hxs : ys = xs)
    (hl : l'' = l') : Turn l ys l'' := by
  rw [hxs, hl]
  exact h

theorem Lane.Sound.tapped_none {l : Lane} (h : l.Sound) (hheld : l.held = none) :
    l.tapped = none := by
  cases htapped : l.tapped with
  | none => rfl
  | some n =>
    have htap := (h.tap n htapped).1
    rw [hheld] at htap
    exact nomatch htap

theorem fits_of_none (x : Stroke) : Fits none [x] :=
  ⟨fun _ hc => (nomatch hc), trivial⟩

theorem fits_release {held : Option Bool} {m : Bool} (h : ∀ c, held = some c → m = c) :
    Fits held [{ pressed := false, tapped := m }] :=
  ⟨fun c hc => by rw [h c hc], trivial⟩

theorem Lane.Sound.mark_eq {l : Lane} (h : l.Sound) {m c : Bool} {rest : List Bool}
    (hwaits : l.waits = m :: rest) (htapped : l.tapped = none) (hheld : l.held = some c) :
    m = c := by
  have hmarked := h.marked
  have hreleased := h.released
  simp only [hwaits, hheld, htapped, List.head?_cons, Option.some.injEq, forall_const]
    at hmarked hreleased
  cases c with
  | true => exact hreleased rfl
  | false =>
    cases m with
    | true => exact absurd (hmarked rfl) Bool.false_ne_true
    | false => rfl

theorem Lane.sound_of_none {l : Lane} (hheld : l.held = none) (htapped : l.tapped = none)
    (hmarks : ∀ m ∈ l.waits, m = false) : l.Sound where
  released h := by
    rw [hheld] at h
    exact nomatch h
  first m hm := hmarks m (List.mem_of_mem_tail hm)
  marked h := absurd (hmarks true (List.mem_of_head? h)) Bool.noConfusion
  tap n hn := by
    rw [htapped] at hn
    exact nomatch hn
  free _ := hheld

theorem Lane.sound_of_held {l : Lane} (hheld : l.held = some false) (hdecided : l.undecided = false)
    (htapped : l.tapped = none) (hmarks : ∀ m ∈ l.waits, m = false) : l.Sound where
  released h := by
    rw [hheld] at h
    exact absurd (Option.some.inj h) Bool.false_ne_true
  first m hm := hmarks m (List.mem_of_mem_tail hm)
  marked h := absurd (hmarks true (List.mem_of_head? h)) Bool.noConfusion
  tap n hn := by
    rw [htapped] at hn
    exact nomatch hn
  free h := by
    rw [hdecided] at h
    exact absurd h Bool.false_ne_true

theorem Lane.sound_of_marked {l : Lane} {rest : List Bool} (hheld : l.held = some true)
    (hdecided : l.undecided = false) (htapped : ∀ n, l.tapped = some n → n = 1)
    (hwaits : l.waits = true :: rest) (hmarks : ∀ m ∈ rest, m = false) : l.Sound where
  released _ _ := by rw [hwaits, List.head?_cons]
  first m hm := by
    rw [hwaits] at hm
    exact hmarks m hm
  marked _ := hheld
  tap n hn := by
    refine ⟨hheld, ?_⟩
    simp only [htapped n hn, hwaits, List.head?_cons]
  free h := by
    rw [hdecided] at h
    exact absurd h Bool.false_ne_true

theorem Lane.Sound.rest {l : Lane} (h : l.Sound) {m : Bool} {rest : List Bool}
    (hwaits : l.waits = m :: rest) : ∀ m ∈ rest, m = false := by
  have hfirst := h.first
  rw [hwaits] at hfirst
  exact hfirst

theorem Lane.Sound.unmarked {l : Lane} (h : l.Sound) (hheld : l.held ≠ some true) :
    ∀ m ∈ l.waits, m = false := by
  intro m hm
  cases hwaits : l.waits with
  | nil =>
    rw [hwaits] at hm
    exact absurd hm List.not_mem_nil
  | cons first rest =>
    rw [hwaits] at hm
    rcases List.mem_cons.mp hm with heq | hm
    · cases m with
      | false => rfl
      | true =>
        refine absurd (h.marked ?_) hheld
        rw [hwaits, List.head?_cons, heq]
    · exact h.rest hwaits m hm

theorem Turn.sound {xs : List Stroke} {l l' : Lane} (h : Turn l xs l') (hl : l.Sound) :
    l'.Sound ∧ Fits l.held xs ∧ l'.held = heldAfter l.held xs := by
  cases h with
  | stay => exact ⟨hl, trivial, rfl⟩
  | press rest hwaits hheld hdecided =>
    refine ⟨Lane.sound_of_held rfl hdecided (hl.tapped_none hheld) (hl.rest hwaits), ?_, rfl⟩
    rw [hheld]
    exact fits_of_none _
  | release m rest hwaits htapped =>
    refine ⟨Lane.sound_of_none rfl htapped (hl.rest hwaits), ?_, rfl⟩
    exact fits_release (fun c hc => hl.mark_eq hwaits htapped hc)
  | tapRelease m rest n hwaits htapped =>
    refine ⟨Lane.sound_of_none rfl rfl (hl.rest hwaits), ?_, rfl⟩
    rw [(hl.tap n htapped).1]
    exact fits_release (fun c hc => Option.some.inj hc)
  | start rest hwaits hheld =>
    exact ⟨Lane.sound_of_none hheld rfl (hl.rest hwaits), trivial, rfl⟩
  | startTap m rest tapped hwaits hheld htapped =>
    have hrest : ∀ m ∈ rest, m = false :=
      fun v hv => hl.rest hwaits v (List.mem_cons_of_mem m hv)
    refine ⟨Lane.sound_of_marked rfl rfl htapped rfl hrest, ?_, rfl⟩
    rw [hheld]
    exact fits_of_none _
  | next n rest hwaits hheld hn =>
    have hrest := hl.rest hwaits
    refine ⟨⟨fun _ h => (nomatch h), fun v hv => hrest v (List.mem_of_mem_tail hv),
      fun _ => rfl, fun k hk => ⟨rfl, ?_⟩, fun h => Bool.noConfusion h⟩, ?_, rfl⟩
    · -- with a count above one, no mark is left on what waits
      have hkn : n = k := Option.some.inj hk
      constructor
      · intro h1
        omega
      · intro hhead
        exact Bool.noConfusion (hrest true (List.mem_of_head? hhead))
    · rw [hheld]
      exact fits_of_none _
  | firstTap m rest tapped hundecided hwaits htapped =>
    refine ⟨Lane.sound_of_marked rfl rfl htapped rfl (hl.rest hwaits), ?_, rfl⟩
    rw [hl.free hundecided]
    exact fits_of_none _
  | settle hundecided =>
    have hheld := hl.free hundecided
    refine ⟨Lane.sound_of_held rfl rfl (hl.tapped_none hheld) (hl.unmarked ?_), ?_, rfl⟩
    · rw [hheld]
      exact fun h => nomatch h
    · rw [hheld]
      exact fits_of_none _
  | cleared htapped =>
    refine ⟨⟨fun hheld _ => ?_, hl.first, hl.marked, fun n hn => (nomatch hn), hl.free⟩,
      trivial, rfl⟩
    cases hl' : l.tapped with
    | none => exact hl.released hheld hl'
    | some n => exact (hl.tap n hl').2.mp (htapped n hl')
  | broken n htapped hn =>
    refine ⟨Lane.sound_of_none rfl rfl (fun m hm => ?_), ?_, rfl⟩
    · cases hwaits : l.waits with
      | nil =>
        rw [hwaits] at hm
        exact absurd hm List.not_mem_nil
      | cons first rest =>
        rw [hwaits] at hm
        rcases List.mem_cons.mp hm with heq | hm
        · -- only the first that waits may have a mark, and a count of one goes with it
          cases m with
          | false => rfl
          | true =>
            have hhead : l.waits.head? = some true := by rw [hwaits, List.head?_cons, heq]
            have hone := (hl.tap n htapped).2.mpr hhead
            omega
        · exact hl.rest hwaits m hm
    · rw [(hl.tap n htapped).1]
      exact fits_release (fun c hc => Option.some.inj hc)

theorem Lane.Sound.push {l : Lane} (h : l.Sound) :
    { l with waits := l.waits ++ [false] }.Sound := by
  have hhead : (l.waits ++ [false]).head? = some true ↔ l.waits.head? = some true := by
    cases l.waits with
    | nil => simp only [List.nil_append, List.head?_cons, Option.some.injEq, Bool.false_eq_true,
        List.head?_nil, reduceCtorEq]
    | cons m rest => rfl
  refine ⟨fun hheld htapped => hhead.mpr (h.released hheld htapped), ?_,
    fun hmarked => h.marked (hhead.mp hmarked), fun n hn => ?_, h.free⟩
  · intro m hm
    cases hwaits : l.waits with
    | nil =>
      simp only [hwaits, List.nil_append, List.tail_cons, List.not_mem_nil] at hm
    | cons first rest =>
      simp only [hwaits, List.cons_append, List.tail_cons, List.mem_append,
        List.mem_singleton] at hm
      rcases hm with hm | hm
      · exact h.rest hwaits m hm
      · exact hm
  · rw [(h.tap n hn).2, hhead]
    exact ⟨(h.tap n hn).1, Iff.rfl⟩

end K530
