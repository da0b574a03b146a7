import K530.Theory.Tapping.OwnOrder
import K530.Theory.Tapping.Lane

/-!
# The Lanes of All Keys

What examining a record does to the lane of each key. The record examined is
the first of its key in the lane: if it has just arrived, because no other
waits; if it was waiting, because it is the first of all.

The lanes are taken with the classes of the presses not released as a
parameter, since these can be known from what has been handed over or, when
something has been thrown away, from what it has done.

## Main definitions

* `strokesOf`, `marksOf`, `laneOf`: The lane of a key.

## Theorems

* `Outcome.turn`: What examining a record does to the lanes.
* `processTick_turn`: What a tick does to them.
-/

namespace K530

/-- Whether a record is half of a tap. -/
def TapRecord.tapped {K : Type} (r : TapRecord K) : Bool := decide (0 < r.tap.count)

/-- A record as the stroke of its key. -/
def TapRecord.stroke {K : Type} (r : TapRecord K) : Stroke :=
  { pressed := r.pressed, tapped := r.tapped }

namespace TapState

variable {K H : Type} [DecidableEq K]

/-- The strokes of a key among records handed over. -/
def strokesOf (k : K) (out : List (Handed K)) : List Stroke :=
  (out.filter (fun h => h.record.key = k)).map (fun h => h.record.stroke)

def marksOf (k : K) (waiting : List (TapRecord K)) : List Bool :=
  (waiting.filter (fun w => w.key = k)).map TapRecord.tapped

def undecidedIn (tapping : Option (TapRecord K)) (k : K) : Bool :=
  match tapping with
  | none => false
  | some tk => tk.pressed && tk.tap.count = 0 && tk.key = k

def tappedIn (tapping : Option (TapRecord K)) (k : K) : Option Nat :=
  match tapping with
  | none => none
  | some tk => if tk.pressed && tk.tapped && tk.key = k then some tk.tap.count else none

def laneOf (held : K → Option Bool) (tapping : Option (TapRecord K))
    (waiting : List (TapRecord K)) (k : K) : Lane where
  held := held k
  undecided := undecidedIn tapping k
  tapped := tappedIn tapping k
  waits := marksOf k waiting

/-! ### The parts of a lane -/

variable (k : K)

theorem strokesOf_append (out new : List (Handed K)) :
    strokesOf k (out ++ new) = strokesOf k out ++ strokesOf k new := by
  simp only [strokesOf, List.filter_append, List.map_append]

@[simp] theorem strokesOf_nil : strokesOf k [] = [] := rfl

theorem strokesOf_cons_self (h : Handed K) (out : List (Handed K)) :
    strokesOf h.record.key (h :: out) = h.record.stroke :: strokesOf h.record.key out := by
  simp only [strokesOf, List.filter_cons, decide_true, if_true, List.map_cons]

theorem strokesOf_one (r : TapRecord K) (handedAs : HandedAs) :
    strokesOf r.key [{ record := r, handedAs }] = [r.stroke] :=
  strokesOf_cons_self { record := r, handedAs } []

omit [DecidableEq K] in
theorem stroke_tap (r : TapRecord K) (hcount : 0 < r.tap.count) :
    r.stroke = { pressed := r.pressed, tapped := true } := by
  simp only [TapRecord.stroke, TapRecord.tapped, hcount, decide_true]

omit [DecidableEq K] in
theorem tapped_of_count (r : TapRecord K) (hcount : r.tap.count = 0) : r.tapped = false := by
  rw [TapRecord.tapped, hcount]
  rfl

theorem strokesOf_cons_other (h : Handed K) (out : List (Handed K)) (hk : h.record.key ≠ k) :
    strokesOf k (h :: out) = strokesOf k out := by
  simp only [strokesOf, List.filter_cons, hk, decide_false, Bool.false_eq_true, if_false]

theorem marksOf_append (xs ys : List (TapRecord K)) :
    marksOf k (xs ++ ys) = marksOf k xs ++ marksOf k ys := by
  simp only [marksOf, List.filter_append, List.map_append]

theorem marksOf_cons_self (r : TapRecord K) (xs : List (TapRecord K)) :
    marksOf r.key (r :: xs) = r.tapped :: marksOf r.key xs := by
  simp only [marksOf, List.filter_cons, decide_true, if_true, List.map_cons]

theorem marksOf_cons_other (r : TapRecord K) (xs : List (TapRecord K)) (hk : r.key ≠ k) :
    marksOf k (r :: xs) = marksOf k xs := by
  simp only [marksOf, List.filter_cons, hk, decide_false, Bool.false_eq_true, if_false]

theorem marksOf_nil_of (xs : List (TapRecord K)) (h : ∀ w ∈ xs, w.key ≠ k) : marksOf k xs = [] := by
  rw [marksOf, List.map_eq_nil_iff, List.filter_eq_nil_iff]
  intro w hw
  simpa only [decide_eq_true_eq] using h w hw

theorem marksOf_place_self (r : TapRecord K) (pre post : List (TapRecord K))
    (hfirst : ∀ w ∈ pre, w.key ≠ r.key) :
    marksOf r.key (pre ++ r :: post) = r.tapped :: marksOf r.key post ∧
      marksOf r.key (pre ++ post) = marksOf r.key post := by
  simp only [marksOf_append, marksOf_cons_self, marksOf_nil_of r.key pre hfirst, List.nil_append,
    and_self]

theorem marksOf_place_other (r : TapRecord K) (pre post : List (TapRecord K)) (hk : r.key ≠ k) :
    marksOf k (pre ++ r :: post) = marksOf k (pre ++ post) := by
  simp only [marksOf_append, marksOf_cons_other k r post hk]

theorem undecidedIn_decided (s : TapState K H) (h : s.Decided) (k : K) :
    undecidedIn s.tapping k = false := by
  unfold undecidedIn
  cases htapping : s.tapping with
  | none => rfl
  | some tk =>
    refine Bool.eq_false_iff.mpr (fun hall => h tk ⟨htapping, ?_⟩)
    simp only [Bool.and_eq_true, decide_eq_true_eq] at hall
    exact hall.1

theorem undecidedIn_undecided (s : TapState K H) (tk : TapRecord K) (h : s.Undecided tk) (k : K) :
    undecidedIn s.tapping k = decide (tk.key = k) := by
  simp only [undecidedIn, h.1, h.2.1, h.2.2, decide_true, Bool.true_and]

theorem tappedIn_undecided (s : TapState K H) (tk : TapRecord K) (h : s.Undecided tk) (k : K) :
    tappedIn s.tapping k = none := by
  simp only [tappedIn, h.1, TapRecord.tapped, h.2.2, Nat.lt_irrefl, decide_false, Bool.and_false,
    Bool.false_and, Bool.false_eq_true, if_false]

theorem tappedIn_tapped (s : TapState K H) (tk : TapRecord K) (h : s.Tapped tk) (k : K) :
    tappedIn s.tapping k = if tk.key = k then some tk.tap.count else none := by
  simp only [tappedIn, h.1, h.2.1, TapRecord.tapped, h.2.2, decide_true, Bool.true_and,
    decide_eq_true_eq]

variable (tk : TapRecord K)

theorem tappedIn_released (h : tk.pressed = false) (k : K) : tappedIn (some tk) k = none := by
  simp only [tappedIn, h, Bool.false_and, Bool.false_eq_true, if_false]

theorem undecidedIn_released (h : tk.pressed = false) (k : K) :
    undecidedIn (some tk) k = false := by
  simp only [undecidedIn, h, Bool.false_and]

theorem undecidedIn_leave (r : TapRecord K) (w : Written) (hcount : 0 < r.tap.count)
    (hw : w.cancelled = false) (k : K) : undecidedIn (some (r.leave w)) k = false := by
  simp only [undecidedIn, TapRecord.leave, hw, Bool.false_eq_true, if_false,
    Nat.pos_iff_ne_zero.mp hcount, decide_false, Bool.and_false, Bool.false_and]

theorem tappedIn_leave (r : TapRecord K) (w : Written) (hw : w.cancelled = false) (k : K) :
    tappedIn (some (r.leave w)) k = none ∨
      r.key = k ∧ tappedIn (some (r.leave w)) k = some r.tap.count := by
  unfold tappedIn
  dsimp only
  split
  · rename_i hall
    simp only [Bool.and_eq_true, decide_eq_true_eq] at hall
    refine Or.inr ⟨hall.2, ?_⟩
    simp only [TapRecord.leave, hw, Bool.false_eq_true, if_false]
  · exact Or.inl rfl

theorem count_of_tappedIn_leave {r : TapRecord K} {w : Written} (hw : w.cancelled = false) {k : K}
    {n : Nat} (hn : tappedIn (some (r.leave w)) k = some n) : n = r.tap.count := by
  rcases tappedIn_leave r w hw k with hin | ⟨_, hin⟩
  · rw [hin] at hn
    exact nomatch hn
  · rw [hin] at hn
    exact (Option.some.inj hn).symm

/-! ### Examining a record -/

/-- Where the record examined stands among those that wait, and what waits after
    it has been put where it belongs. -/
inductive Place (s : TapState K H) (r : TapRecord K) (e : Examined K H) :
    List (TapRecord K) → List (TapRecord K) → List (TapRecord K) → Prop where
  /-- It has just arrived -/
  | arriving : Place s r e s.waiting [] (e.state.waiting ++ if e.consumed then [] else [e.record])
  /-- It was the first to wait -/
  | waiting (rest : List (TapRecord K)) (hwaiting : s.waiting = r :: rest) :
      Place s r e [] rest ((if e.consumed then [] else [e.record]) ++ e.state.waiting.tail)

omit [DecidableEq K] in
theorem Place.final_eq {s : TapState K H} {r : TapRecord K} {e : Examined K H}
    {pre post final : List (TapRecord K)} (h : Place s r e pre post final)
    (hsame : e.state.waiting = s.waiting) :
    final = pre ++ (if e.consumed then [] else [e.record]) ++ post := by
  cases h with
  | arriving => rw [hsame, List.append_nil]
  | waiting rest hwaiting => rw [hsame, hwaiting, List.tail_cons, List.nil_append]

omit [DecidableEq K] in
theorem Place.final_consumed {s : TapState K H} {r : TapRecord K} {e : Examined K H}
    {pre post final : List (TapRecord K)} (h : Place s r e pre post final)
    (hsame : e.state.waiting = s.waiting) (hconsumed : e.consumed) :
    final = pre ++ post := by
  rw [h.final_eq hsame, if_pos hconsumed, List.append_nil]

omit [DecidableEq K] in
theorem Place.final_waits {s : TapState K H} {r : TapRecord K} {e : Examined K H}
    {pre post final : List (TapRecord K)} (h : Place s r e pre post final)
    (hsame : e.state.waiting = s.waiting) (hconsumed : e.consumed = false) :
    final = pre ++ e.record :: post := by
  rw [h.final_eq hsame, if_neg (Bool.eq_false_iff.mp hconsumed), List.append_assoc,
    List.singleton_append]

/-- The classes of the presses not released, after some more have been handed
    over. -/
def heldWith (held : K → Option Bool) (new : List (Handed K)) (k : K) : Option Bool :=
  heldAfter (held k) (strokesOf k new)

theorem turn_stay (held : K → Option Bool) (tapping tapping' : Option (TapRecord K))
    (waiting waiting' : List (TapRecord K)) (new : List (Handed K)) (k : K)
    (hnew : strokesOf k new = [])
    (hundecided : undecidedIn tapping' k = undecidedIn tapping k)
    (htapped : tappedIn tapping' k = tappedIn tapping k)
    (hwaits : marksOf k waiting' = marksOf k waiting) :
    Turn (laneOf held tapping waiting k) (strokesOf k new)
      (laneOf (heldWith held new) tapping' waiting' k) := by
  refine (Turn.stay (l := laneOf held tapping waiting k)).congr hnew ?_
  refine Lane.eq_of ?_ hundecided htapped hwaits
  simp only [laneOf, heldWith, hnew, heldAfter]

theorem turn_handed (held : K → Option Bool) (tapping tapping' : Option (TapRecord K))
    (pre post : List (TapRecord K)) (r : TapRecord K) (handedAs : HandedAs) (k : K)
    (hfirst : ∀ w ∈ pre, w.key ≠ r.key) (hfresh : r.pressed → r.tapped = false)
    (hpress : r.pressed = true → held r.key = none ∧ undecidedIn tapping r.key = false)
    (hrelease : r.pressed = false → tappedIn tapping r.key = none)
    (hundecided : ∀ k, undecidedIn tapping' k = undecidedIn tapping k)
    (htapped : ∀ k, tappedIn tapping' k = tappedIn tapping k) :
    Turn (laneOf held tapping (pre ++ r :: post) k) (strokesOf k [{ record := r, handedAs }])
      (laneOf (heldWith held [{ record := r, handedAs }]) tapping' (pre ++ post) k) := by
  by_cases hk : r.key = k
  · subst hk
    have hmarks := marksOf_place_self r pre post hfirst
    have hstroke : strokesOf r.key [{ record := r, handedAs }] = [r.stroke] :=
      strokesOf_one r handedAs
    cases hpressed : r.pressed with
    | true =>
      have hr : r.stroke = { pressed := true, tapped := false } := by
        rw [TapRecord.stroke, hpressed, hfresh hpressed]
      refine (Turn.press (l := laneOf held tapping (pre ++ r :: post) r.key)
        (marksOf r.key post) ?_ (hpress hpressed).1 (hpress hpressed).2).congr
        (hstroke.trans (by rw [hr])) ?_
      · rw [← hfresh hpressed]
        exact hmarks.1
      · refine Lane.eq_of ?_ (hundecided r.key) (htapped r.key) hmarks.2
        simp only [laneOf, heldWith, hstroke, hr, heldAfter, Stroke.holding, if_true]
    | false =>
      have hr : r.stroke = { pressed := false, tapped := r.tapped } := by
        rw [TapRecord.stroke, hpressed]
      refine (Turn.release (l := laneOf held tapping (pre ++ r :: post) r.key) r.tapped
        (marksOf r.key post) hmarks.1 (hrelease hpressed)).congr
        (hstroke.trans (by rw [hr])) ?_
      refine Lane.eq_of ?_ (hundecided r.key) (htapped r.key) hmarks.2
      simp only [laneOf, heldWith, hstroke, hr, heldAfter, Stroke.holding, Bool.false_eq_true,
        if_false]
  · exact turn_stay held tapping tapping' _ _ _ k (strokesOf_cons_other k _ [] hk)
      (hundecided k) (htapped k) (marksOf_place_other k r pre post hk).symm

theorem marksOf_modify_self (w : TapRecord K) (hk : w.key = k) :
    ∀ (post : List (TapRecord K)) (i : Nat), post[i]? = some w →
      (∀ j v, j < i → post[j]? = some v → v.key ≠ k) →
      ∃ rest, marksOf k post = w.tapped :: rest ∧
        marksOf k (post.modify i markTap) = true :: rest
  | [], i, hw, _ => nomatch hw
  | v :: post, 0, hw, _ => by
    rw [List.getElem?_cons_zero, Option.some.injEq] at hw
    subst hw
    subst hk
    exact ⟨marksOf v.key post, marksOf_cons_self v post, marksOf_cons_self (markTap v) post⟩
  | v :: post, i + 1, hw, hbefore => by
    rw [List.getElem?_cons_succ] at hw
    have hv : v.key ≠ k := hbefore 0 v (Nat.succ_pos i) List.getElem?_cons_zero
    rcases marksOf_modify_self w hk post i hw (fun j u hj hu =>
      hbefore (j + 1) u (Nat.succ_lt_succ hj) (by rw [List.getElem?_cons_succ, hu])) with
      ⟨rest, hpost, hmodify⟩
    rw [List.modify_succ_cons]
    exact ⟨rest, (marksOf_cons_other k v post hv).trans hpost,
      (marksOf_cons_other k v _ hv).trans hmodify⟩

theorem marksOf_modify_other (w : TapRecord K) (hk : w.key ≠ k) :
    ∀ (post : List (TapRecord K)) (i : Nat), post[i]? = some w →
      marksOf k (post.modify i markTap) = marksOf k post
  | [], i, hw => nomatch hw
  | v :: post, 0, hw => by
    rw [List.getElem?_cons_zero, Option.some.injEq] at hw
    subst hw
    rw [List.modify_zero_cons, marksOf_cons_other k v post hk]
    exact marksOf_cons_other k (markTap v) post hk
  | v :: post, i + 1, hw => by
    rw [List.getElem?_cons_succ] at hw
    rw [List.modify_succ_cons]
    simp only [marksOf, List.filter_cons]
    have hrest := marksOf_modify_other w hk post i hw
    simp only [marksOf] at hrest
    split
    · rw [List.map_cons, List.map_cons, hrest]
    · exact hrest

/-- A release is made up: a tap key is pressed while another has been tapped more
    than once and is not released. -/
def breaksTap (P : TapHost K H) (s : TapState K H) (r : TapRecord K) : Bool :=
  match s.tapping with
  | none => false
  | some tk => tk.pressed && 1 < tk.tap.count && r.pressed && P.isTap s.host r.key

structure Ready (P : TapHost K H) (held : K → Option Bool) (r : TapRecord K) (s : TapState K H)
    (e : Examined K H) (pre post : List (TapRecord K)) : Prop where
  fresh : r.pressed = true → r.tap.count = 0
  sound : ∀ k, (laneOf held s.tapping (pre ++ r :: post) k).Sound
  /-- It is the first of its key, if it is consumed or makes the undecided key a tap -/
  first : e.consumed = true ∨ s.isFirstTap P r = true → ∀ w ∈ pre, w.key ≠ r.key
  /-- A press that is the first of its key comes when the key has been released -/
  free : (∀ w ∈ pre, w.key ≠ r.key) → r.pressed = true → s.Decided → held r.key = none
  unspoilt : ¬ Spoilt P r s
  /-- The scan for its release finds the first event of its key -/
  scans : (∀ w ∈ pre, w.key ≠ r.key) → r.pressed = true → P.isTap s.host r.key = true →
    s.Decided → ∀ t i w, Cleared P r s t → t.waiting[i]? = some w → w.key = r.key →
    w.pressed = false → t.within P r w.time = true →
    (∀ j v, j < i → t.waiting[j]? = some v → v.key = r.key → v.pressed = false →
      t.within P r v.time = false) →
    ∀ j v, 0 < j → j < i → t.waiting[j]? = some v → v.key ≠ r.key

theorem Cleared.turn {P : TapHost K H} {r : TapRecord K} {s t : TapState K H}
    (h : Cleared P r s t) (hother : ∀ tk, s.Tapped tk → tk.key ≠ r.key) :
    ∃ gone, t.out = s.out ++ gone ∧ strokesOf r.key gone = [] ∧
      (∀ g ∈ gone, ∃ tk, s.Tapped tk ∧ 1 < tk.tap.count) ∧
      ∀ (held : K → Option Bool) (tapping' : Option (TapRecord K))
        (waiting waiting' : List (TapRecord K)) (k : K),
        undecidedIn tapping' k = undecidedIn s.tapping k → tappedIn tapping' k = none →
        marksOf k waiting' = marksOf k waiting →
        Turn (laneOf held s.tapping waiting k) (strokesOf k gone)
          (laneOf (heldWith held gone) tapping' waiting' k) := by
  rcases h with ⟨ht, hone⟩ | ⟨tk, htapped, hcount, ht⟩
  · refine ⟨[], by rw [ht, List.append_nil], rfl, fun g hg => absurd hg List.not_mem_nil, ?_⟩
    intro held tapping' waiting waiting' k hundecided htapped' hmarks
    -- No release is made up, so the tap that is forgotten was the first one.
    refine (Turn.cleared (l := laneOf held s.tapping waiting k) ?_).congr rfl ?_
    · intro n hn
      change tappedIn s.tapping k = some n at hn
      cases htapping : s.tapping with
      | none =>
        rw [htapping] at hn
        exact nomatch hn
      | some tk =>
        rcases phases tk s htapping with hphase | hphase | hphase
        · rw [tappedIn_undecided s tk hphase k] at hn
          exact nomatch hn
        · rw [tappedIn_tapped s tk hphase k] at hn
          split at hn
          · rw [← Option.some.inj hn]
            exact hone tk hphase
          · exact nomatch hn
        · rw [htapping, tappedIn_released tk hphase.2 k] at hn
          exact nomatch hn
    · exact Lane.eq_of rfl hundecided htapped' hmarks
  · -- A release of the tapping key is made up, which has been tapped more than once.
    let made : Handed K :=
      { record := { tk with time := r.time, ms := r.ms, pressed := false }, handedAs := .synthetic }
    refine ⟨[made], by rw [ht]; rfl, strokesOf_cons_other r.key made [] (hother tk htapped),
      fun g _ => ⟨tk, htapped, hcount⟩, ?_⟩
    intro held tapping' waiting waiting' k hundecided htapped' hmarks
    by_cases hk : tk.key = k
    · subst hk
      have hstroke : strokesOf tk.key [made] = [{ pressed := false, tapped := true }] := by
        exact (strokesOf_one made.record .synthetic).trans
          (congrArg (fun s => [s]) (stroke_tap made.record htapped.2.2))
      refine (Turn.broken (l := laneOf held s.tapping waiting tk.key) tk.tap.count ?_
        hcount).congr hstroke ?_
      · have hin := tappedIn_tapped s tk htapped tk.key
        rwa [if_pos rfl] at hin
      · refine Lane.eq_of ?_ hundecided htapped' hmarks
        simp only [laneOf, heldWith, hstroke, heldAfter, Stroke.holding, Bool.false_eq_true,
          if_false]
    · refine turn_stay held s.tapping tapping' waiting waiting' [made] k
        (strokesOf_cons_other k made [] hk) hundecided ?_ hmarks
      rw [htapped', tappedIn_tapped s tk htapped k, if_neg hk]

theorem Ready.other {P : TapHost K H} {held : K → Option Bool} {r : TapRecord K}
    {s : TapState K H} {e : Examined K H} {pre post : List (TapRecord K)}
    (h : Ready P held r s e pre post) (hfree : held r.key = none) :
    ∀ tk, s.Tapped tk → tk.key ≠ r.key := by
  intro tk htapped hkey
  have htap := tappedIn_tapped s tk htapped tk.key
  rw [if_pos rfl] at htap
  -- Its lane is sound, so the tap it remembers is held.
  have hheld := ((h.sound tk.key).tap tk.tap.count htap).1
  simp only [laneOf, hkey, hfree] at hheld
  exact nomatch hheld

theorem turn_start (held : K → Option Bool) (tapping : Option (TapRecord K)) (r : TapRecord K)
    (pre post : List (TapRecord K)) (gone : List (Handed K))
    (hfirst : ∀ w ∈ pre, w.key ≠ r.key) (hpressed : r.pressed) (hcount : r.tap.count = 0)
    (hfree : held r.key = none) (hgone : strokesOf r.key gone = []) :
    Turn (laneOf held tapping (pre ++ r :: post) r.key) (strokesOf r.key gone)
      (laneOf (heldWith held gone) (some r) (pre ++ post) r.key) := by
  have hmarks := marksOf_place_self r pre post hfirst
  have htapped := tapped_of_count r hcount
  refine (Turn.start (l := laneOf held tapping (pre ++ r :: post) r.key) (marksOf r.key post)
    ?_ hfree).congr hgone ?_
  · rw [← htapped]
    exact hmarks.1
  · refine Lane.eq_of ?_ ?_ ?_ hmarks.2
    · simp only [laneOf, heldWith, hgone, heldAfter]
    · simp only [laneOf, undecidedIn, hpressed, hcount, decide_true, Bool.and_true]
    · simp only [laneOf, tappedIn, htapped, Bool.and_false, Bool.false_and, Bool.false_eq_true,
        if_false]

theorem turn_startTap (held : K → Option Bool) (tapping : Option (TapRecord K))
    (r w : TapRecord K) (rest : List (TapRecord K)) (i : Nat) (gone : List (Handed K))
    (left : Written) (hw : rest[i]? = some w) (hkey : w.key = r.key)
    (hnone : ∀ j v, j < i → rest[j]? = some v → v.key ≠ r.key) (hpressed : r.pressed)
    (hcount : r.tap.count = 0) (hfree : held r.key = none) (hgone : strokesOf r.key gone = [])
    (hleft : left.cancelled = false) :
    Turn (laneOf held tapping (r :: rest) r.key)
      (strokesOf r.key (gone ++ [{ record := markTap r, handedAs := .tappingKey }]))
      (laneOf (heldWith held (gone ++ [{ record := markTap r, handedAs := .tappingKey }]))
        (some ((markTap r).leave left)) (rest.modify i markTap) r.key) := by
  -- The release is the first event of the key behind the press, and is marked.
  rcases marksOf_modify_self r.key w hkey rest i hw hnone with ⟨marks, hrest, hmodify⟩
  have hstroke : strokesOf r.key (gone ++ [{ record := markTap r, handedAs := .tappingKey }]) =
      [{ pressed := true, tapped := true }] := by
    rw [strokesOf_append, hgone]
    refine (strokesOf_one (markTap r) .tappingKey).trans ?_
    rw [stroke_tap (markTap r) Nat.one_pos, markTap_pressed, hpressed]
  have htapped := tapped_of_count r hcount
  refine (Turn.startTap (l := laneOf held tapping (r :: rest) r.key) w.tapped marks
    (tappedIn (some ((markTap r).leave left)) r.key) ?_ hfree ?_).congr hstroke ?_
  · rw [← htapped, ← hrest]
    exact marksOf_cons_self r rest
  · exact fun n hn => count_of_tappedIn_leave hleft hn
  · refine Lane.eq_of ?_ (undecidedIn_leave (markTap r) left Nat.one_pos hleft r.key) rfl hmodify
    simp only [laneOf, heldWith, hstroke, heldAfter, Stroke.holding, if_true]

theorem turn_next (held : K → Option Bool) (tapping : Option (TapRecord K)) (r : TapRecord K)
    (tap : Tap) (pre post : List (TapRecord K)) (hfirst : ∀ w ∈ pre, w.key ≠ r.key)
    (hpressed : r.pressed) (hcount : r.tap.count = 0) (hfree : held r.key = none)
    (htap : 1 < tap.count) :
    Turn (laneOf held tapping (pre ++ r :: post) r.key)
      (strokesOf r.key [{ record := { r with tap }, handedAs := .event }])
      (laneOf (heldWith held [{ record := { r with tap }, handedAs := .event }])
        (some { r with tap }) (pre ++ post) r.key) := by
  have hmarks := marksOf_place_self r pre post hfirst
  -- A next tap has a count of two or more.
  have hpos : 0 < tap.count := Nat.lt_of_succ_lt htap
  have hstroke : strokesOf r.key [{ record := { r with tap }, handedAs := .event }] =
      [{ pressed := true, tapped := true }] := by
    refine (strokesOf_one { r with tap } .event).trans ?_
    rw [stroke_tap { r with tap } hpos, hpressed]
  have htapped := tapped_of_count r hcount
  refine (Turn.next (l := laneOf held tapping (pre ++ r :: post) r.key) tap.count
    (marksOf r.key post) ?_ hfree htap).congr hstroke ?_
  · rw [← htapped]
    exact hmarks.1
  · refine Lane.eq_of ?_ ?_ ?_ hmarks.2
    · simp only [laneOf, heldWith, hstroke, heldAfter, Stroke.holding, if_true]
    · simp only [laneOf, undecidedIn, Nat.pos_iff_ne_zero.mp hpos, decide_false, Bool.and_false,
        Bool.false_and]
    · simp only [laneOf, tappedIn, TapRecord.tapped, hpressed, hpos, decide_true, Bool.and_true,
        if_true]

theorem turn_tapRelease (held : K → Option Bool) (s : TapState K H)
    (tapping' : Option (TapRecord K)) (tk r : TapRecord K) (pre post : List (TapRecord K))
    (hfirst : ∀ w ∈ pre, w.key ≠ r.key) (hpressed : r.pressed = false) (htapped : s.Tapped tk)
    (hkey : r.key = tk.key) (hundecided : undecidedIn tapping' r.key = false)
    (htapped' : tappedIn tapping' r.key = none) :
    Turn (laneOf held s.tapping (pre ++ r :: post) r.key)
      (strokesOf r.key [{ record := { r with tap := tk.tap }, handedAs := .event }])
      (laneOf (heldWith held [{ record := { r with tap := tk.tap }, handedAs := .event }])
        tapping' (pre ++ post) r.key) := by
  have hmarks := marksOf_place_self r pre post hfirst
  have hstroke : strokesOf r.key [{ record := { r with tap := tk.tap }, handedAs := .event }] =
      [{ pressed := false, tapped := true }] := by
    refine (strokesOf_one { r with tap := tk.tap } .event).trans ?_
    rw [stroke_tap { r with tap := tk.tap } htapped.2.2, hpressed]
  refine (Turn.tapRelease (l := laneOf held s.tapping (pre ++ r :: post) r.key) r.tapped
    (marksOf r.key post) tk.tap.count hmarks.1 ?_).congr hstroke ?_
  · have hin := tappedIn_tapped s tk htapped r.key
    rwa [if_pos hkey.symm] at hin
  · refine Lane.eq_of ?_ ?_ htapped' hmarks.2
    · simp only [laneOf, heldWith, hstroke, heldAfter, Stroke.holding, Bool.false_eq_true, if_false]
    · exact hundecided.trans (undecidedIn_decided s htapped.decided r.key).symm

theorem turn_firstTap (held : K → Option Bool) (s : TapState K H) (tk r r' : TapRecord K)
    (left : Written) (pre post : List (TapRecord K)) (hfirst : ∀ w ∈ pre, w.key ≠ r.key)
    (hundecided : s.Undecided tk) (hkey : r.key = tk.key) (hr' : r'.key = r.key)
    (hmark : r'.tapped) (hleft : left.cancelled = false) :
    Turn (laneOf held s.tapping (pre ++ r :: post) tk.key)
      (strokesOf tk.key [{ record := markTap tk, handedAs := .tappingKey }])
      (laneOf (heldWith held [{ record := markTap tk, handedAs := .tappingKey }])
        (some ((markTap tk).leave left)) (pre ++ r' :: post) tk.key) := by
  have hmarks := (marksOf_place_self r pre post hfirst).1
  -- The release stays where it is, with the mark of a tap.
  have hmarks' := (marksOf_place_self r' pre post (fun w hw => hr' ▸ hfirst w hw)).1
  rw [hkey] at hmarks
  rw [hr', hkey, hmark] at hmarks'
  have hstroke : strokesOf tk.key [{ record := markTap tk, handedAs := .tappingKey }] =
      [{ pressed := true, tapped := true }] := by
    refine (strokesOf_one (markTap tk) .tappingKey).trans ?_
    rw [stroke_tap (markTap tk) Nat.one_pos, markTap_pressed, hundecided.2.1]
  refine (Turn.firstTap (l := laneOf held s.tapping (pre ++ r :: post) tk.key) r.tapped
    (marksOf tk.key post) (tappedIn (some ((markTap tk).leave left)) tk.key) ?_ hmarks
    ?_).congr hstroke ?_
  · refine (undecidedIn_undecided s tk hundecided tk.key).trans ?_
    simp only [decide_true]
  · exact fun n hn => count_of_tappedIn_leave hleft hn
  · refine Lane.eq_of ?_ (undecidedIn_leave (markTap tk) left Nat.one_pos hleft tk.key) rfl hmarks'
    simp only [laneOf, heldWith, hstroke, heldAfter, Stroke.holding, if_true]

theorem turn_settle (held : K → Option Bool) (s : TapState K H) (tk : TapRecord K)
    (waiting : List (TapRecord K)) (hundecided : s.Undecided tk) (k : K) :
    Turn (laneOf held s.tapping waiting k)
      (strokesOf k [{ record := tk, handedAs := .tappingKey }])
      (laneOf (heldWith held [{ record := tk, handedAs := .tappingKey }]) none waiting k) := by
  by_cases hk : tk.key = k
  · subst hk
    have hstroke : strokesOf tk.key [{ record := tk, handedAs := .tappingKey }] =
        [{ pressed := true, tapped := false }] := by
      rw [strokesOf_one tk .tappingKey, TapRecord.stroke, tapped_of_count tk hundecided.2.2,
        hundecided.2.1]
    refine (Turn.settle (l := laneOf held s.tapping waiting tk.key) ?_).congr hstroke ?_
    · refine (undecidedIn_undecided s tk hundecided tk.key).trans ?_
      simp only [decide_true]
    · refine Lane.eq_of ?_ rfl (tappedIn_undecided s tk hundecided tk.key).symm rfl
      simp only [laneOf, heldWith, hstroke, heldAfter, Stroke.holding, if_true]
  · refine turn_stay held s.tapping none waiting waiting _ k (strokesOf_cons_other k _ [] hk) ?_
      (tappedIn_undecided s tk hundecided k).symm rfl
    rw [undecidedIn_undecided s tk hundecided k]
    simp only [undecidedIn, hk, decide_false]

theorem in_released (s : TapState K H) (tk : TapRecord K) (h : s.Released tk) (k : K) :
    undecidedIn s.tapping k = false ∧ tappedIn s.tapping k = none := by
  rw [h.1]
  exact ⟨undecidedIn_released tk h.2 k, tappedIn_released tk h.2 k⟩

theorem in_other (k : K) (hk : tk.key ≠ k) :
    undecidedIn (some tk) k = false ∧ tappedIn (some tk) k = none := by
  simp only [undecidedIn, tappedIn, hk, decide_false, Bool.and_false, Bool.false_eq_true, if_false,
    and_self]

omit [DecidableEq K] in
theorem physical_singleton (r : TapRecord K) (handedAs : HandedAs) (h : handedAs ≠ .synthetic)
    (Q : Prop) : ∀ g ∈ [{ record := r, handedAs : Handed K }], g.isPhysical ∨ Q := by
  intro g hg
  rw [List.mem_singleton.mp hg]
  exact Or.inl (bne_iff_ne.mpr h)

/-! ### All lanes -/

def Turns (s t : TapState K H) (broken : Bool) (held : K → Option Bool)
    (before after : List (TapRecord K)) : Prop :=
  ∃ new, t.out = s.out ++ new ∧ (∀ g ∈ new, g.isPhysical = true ∨ broken = true) ∧
    ∀ k, Turn (laneOf held s.tapping before k) (strokesOf k new)
      (laneOf (heldWith held new) t.tapping after k)

section Cases

variable {P : TapHost K H} {r : TapRecord K} {s : TapState K H} {broken : Bool}
  {held : K → Option Bool} {pre post : List (TapRecord K)}

theorem turns_nothing (s t : TapState K H) (hout : t.out = s.out)
    (before after : List (TapRecord K))
    (h : ∀ k, Turn (laneOf held s.tapping before k) []
      (laneOf (heldWith held []) t.tapping after k)) : Turns s t broken held before after :=
  ⟨[], hout.trans (List.append_nil s.out).symm, fun _ hg => absurd hg List.not_mem_nil, h⟩

theorem turns_one (s t : TapState K H) (g : Handed K) (hphysical : g.handedAs ≠ .synthetic)
    (hout : t.out = s.out ++ [g]) (before after : List (TapRecord K))
    (h : ∀ k, Turn (laneOf held s.tapping before k) (strokesOf k [g])
      (laneOf (heldWith held [g]) t.tapping after k)) : Turns s t broken held before after :=
  ⟨[g], hout, physical_singleton g.record g.handedAs hphysical _, h⟩

theorem turns_pass (t : Option (TapRecord K)) (hdecided : s.Decided)
    (ht : t = s.tapping ∨ ∃ tk, s.Released tk ∧ t = some (interrupt tk))
    (hother : ∀ tk, s.Tapped tk → r.key = tk.key → r.pressed)
    (hfirst : ∀ w ∈ pre, w.key ≠ r.key) (hfresh : r.pressed → r.tapped = false)
    (hfree : r.pressed → held r.key = none) :
    Turns s { (s.handOver P .event r).1 with tapping := t } broken held (pre ++ r :: post)
      (pre ++ post) := by
  have hsame : ∀ k, undecidedIn t k = undecidedIn s.tapping k ∧
      tappedIn t k = tappedIn s.tapping k := by
    intro k
    rcases ht with ht | ⟨tk, hreleased, ht⟩
    · rw [ht]
      exact ⟨rfl, rfl⟩
    · rw [ht, (in_released s tk hreleased k).1, (in_released s tk hreleased k).2]
      exact ⟨undecidedIn_released (interrupt tk) hreleased.2 k,
        tappedIn_released (interrupt tk) hreleased.2 k⟩
  refine turns_one s _ { record := r, handedAs := .event } nofun rfl _ _ (fun k => ?_)
  refine turn_handed held s.tapping t pre post r .event k hfirst hfresh
    (fun hpressed => ⟨hfree hpressed, undecidedIn_decided s hdecided r.key⟩) ?_
    (fun k => (hsame k).1) (fun k => (hsame k).2)
  intro hpressed
  cases htapping : s.tapping with
  | none => rfl
  | some tk =>
    rcases phases tk s htapping with hphase | hphase | hphase
    · exact absurd hphase (hdecided tk)
    · rw [← htapping, tappedIn_tapped s tk hphase, if_neg]
      intro hkey
      exact Bool.noConfusion (hpressed.symm.trans (hother tk hphase hkey.symm))
    · exact tappedIn_released tk hphase.2 r.key

theorem turns_slip (hundecided : s.Undecided tk) (hpressed : r.pressed = false)
    (hfirst : ∀ w ∈ pre, w.key ≠ r.key) (hfresh : r.pressed → r.tapped = false) :
    Turns s (s.handOver P .event r).1 broken held (pre ++ r :: post) (pre ++ post) := by
  refine turns_one s _ { record := r, handedAs := .event } nofun rfl _ _ (fun k => ?_)
  refine turn_handed held s.tapping s.tapping pre post r .event k hfirst hfresh
    (fun hpress => absurd (hpressed.symm.trans hpress) Bool.false_ne_true)
    (fun _ => tappedIn_undecided s tk hundecided r.key) (fun _ => rfl) (fun _ => rfl)

omit [DecidableEq K] in
theorem breaksTap_of_gone (hpressed : r.pressed) (htap : P.isTap s.host r.key)
    {gone : List (Handed K)} (hlong : ∀ g ∈ gone, ∃ tk, s.Tapped tk ∧ 1 < tk.tap.count) :
    ∀ g ∈ gone, s.breaksTap P r := by
  intro g hg
  rcases hlong g hg with ⟨tk, htapped, hlt⟩
  simp only [breaksTap, htapped.1, htapped.2.1, hlt, hpressed, htap, decide_true, Bool.and_true]

theorem turns_start (t : TapState K H) (hpressed : r.pressed)
    (htap : P.isTap s.host r.key = true) (hdecided : s.Decided) (ht : Cleared P r s t)
    (hother : ∀ tk, s.Tapped tk → tk.key ≠ r.key) (hfirst : ∀ w ∈ pre, w.key ≠ r.key)
    (hcount : r.tap.count = 0) (hfree : held r.key = none) :
    Turns s { t with tapping := some r } (s.breaksTap P r) held (pre ++ r :: post)
      (pre ++ post) := by
  rcases ht.turn hother with ⟨gone, hout, hgone, hlong, hturn⟩
  refine ⟨gone, hout, fun g hg => Or.inr (breaksTap_of_gone hpressed htap hlong g hg),
    fun k => ?_⟩
  -- Its own lane starts, and the one that made room for it is cleared or broken.
  by_cases hk : r.key = k
  · subst hk
    exact turn_start held s.tapping r pre post gone hfirst hpressed hcount hfree hgone
  · refine hturn held (some r) (pre ++ r :: post) (pre ++ post) k ?_ ?_
      (marksOf_place_other k r pre post hk).symm
    · rw [(in_other r k hk).1, undecidedIn_decided s hdecided k]
    · exact (in_other r k hk).2

theorem turns_startTap (t : TapState K H) (w : TapRecord K) (i : Nat) (hpressed : r.pressed)
    (htap : P.isTap s.host r.key = true) (hdecided : s.Decided) (ht : Cleared P r s t)
    (hother : ∀ tk, s.Tapped tk → tk.key ≠ r.key) (hcount : r.tap.count = 0)
    (hfree : held r.key = none) (hw : post[i]? = some w) (hkey : w.key = r.key)
    (hnone : ∀ j v, j < i → post[j]? = some v → v.key ≠ r.key)
    (hleft : (P.process t.host (markTap r)).2.cancelled = false) :
    Turns s (t.startTap P r (i + 1)) (s.breaksTap P r) held (r :: post)
      (post.modify i markTap) := by
  rcases ht.turn hother with ⟨gone, hout, hgone, hlong, hturn⟩
  refine ⟨gone ++ [{ record := markTap r, handedAs := .tappingKey }], ?_, ?_, fun k => ?_⟩
  · rw [← List.append_assoc, ← hout]
    rfl
  · intro g hg
    rcases List.mem_append.mp hg with hg | hg
    · exact Or.inr (breaksTap_of_gone hpressed htap hlong g hg)
    · exact physical_singleton (markTap r) .tappingKey (by decide) _ g hg
  · by_cases hk : r.key = k
    · subst hk
      exact turn_startTap held s.tapping r w post i gone _ hw hkey hnone hpressed hcount hfree
        hgone hleft
    · have hnew : strokesOf k (gone ++ [{ record := markTap r, handedAs := .tappingKey }]) =
          strokesOf k gone := by
        rw [strokesOf_append]
        simp only [strokesOf_cons_other k { record := markTap r, handedAs := .tappingKey } [] hk,
          strokesOf_nil, List.append_nil]
      -- In another lane only what made room for the press can be seen.
      let left := (markTap r).leave (P.process t.host (markTap r)).2
      refine (hturn held (some left) (r :: post) (post.modify i markTap) k ?_ ?_ ?_).congr hnew ?_
      · rw [undecidedIn_decided s hdecided k]
        exact (in_other left k hk).1
      · exact (in_other left k hk).2
      · rw [marksOf_cons_other k r post hk]
        exact marksOf_modify_other k w (hkey ▸ hk) post i hw
      · refine Lane.eq_of ?_ rfl rfl rfl
        simp only [laneOf, heldWith, hnew]

theorem turns_restart (hpressed : r.pressed) (hreleased : s.Released tk)
    (hfirst : ∀ w ∈ pre, w.key ≠ r.key) (hcount : r.tap.count = 0) (hfree : held r.key = none) :
    Turns s { s with tapping := some r } broken held (pre ++ r :: post) (pre ++ post) := by
  refine turns_nothing s { s with tapping := some r } rfl _ _ (fun k => ?_)
  by_cases hk : r.key = k
  · subst hk
    exact turn_start held s.tapping r pre post [] hfirst hpressed hcount hfree rfl
  · refine turn_stay held s.tapping (some r) _ _ [] k rfl ?_ ?_
      (marksOf_place_other k r pre post hk).symm
    · rw [(in_other r k hk).1, (in_released s tk hreleased k).1]
    · rw [(in_other r k hk).2, (in_released s tk hreleased k).2]

theorem turns_sequential (hpressed : r.pressed) (hreleased : s.Released tk)
    (hcount : 0 < tk.tap.count) (hfirst : ∀ w ∈ pre, w.key ≠ r.key) (hfresh : r.tap.count = 0)
    (hfree : held r.key = none) (hleft : (s.handOver P .event { r with tap := nextTap tk.tap }).2 =
      { r with tap := nextTap tk.tap }) :
    Turns s
      { (s.handOver P .event { r with tap := nextTap tk.tap }).1 with
        tapping := some (s.handOver P .event { r with tap := nextTap tk.tap }).2 }
      broken held (pre ++ r :: post) (pre ++ post) := by
  let tapped : TapRecord K := { r with tap := nextTap tk.tap }
  refine turns_one s _ { record := tapped, handedAs := .event } nofun rfl _ _ (fun k => ?_)
  -- The host leaves the record alone, so the tap that is remembered is this one.
  dsimp only
  rw [hleft]
  by_cases hk : r.key = k
  · subst hk
    exact turn_next held s.tapping r (nextTap tk.tap) pre post hfirst hpressed hfresh hfree
      (nextTap_lt hcount)
  · refine turn_stay held s.tapping (some tapped) _ _ _ k (strokesOf_cons_other k _ [] hk) ?_ ?_
      (marksOf_place_other k r pre post hk).symm
    · rw [(in_other tapped k hk).1, (in_released s tk hreleased k).1]
    · rw [(in_other tapped k hk).2, (in_released s tk hreleased k).2]

theorem turns_tapRelease (hpressed : r.pressed = false) (htapped : s.Tapped tk)
    (hkey : r.key = tk.key) (hfirst : ∀ w ∈ pre, w.key ≠ r.key) :
    Turns s
      { (s.handOver P .event { r with tap := tk.tap }).1 with
        tapping :=
          if s.within P tk r.time then some (s.handOver P .event { r with tap := tk.tap }).2
          else none }
      broken held (pre ++ r :: post) (pre ++ post) := by
  let tapped : TapRecord K := { r with tap := tk.tap }
  have hin : ∀ k, undecidedIn
      (if s.within P tk r.time then some (s.handOver P .event tapped).2 else none) k = false ∧
      tappedIn (if s.within P tk r.time then some (s.handOver P .event tapped).2 else none) k =
        none := by
    intro k
    -- Within the term the release becomes the tapping key, which no lane sees.
    cases s.within P tk r.time with
    | true =>
      have hreleased : ((s.handOver P .event tapped).2).pressed = false :=
        leave_released _ tapped hpressed
      exact ⟨undecidedIn_released _ hreleased k, tappedIn_released _ hreleased k⟩
    | false => exact ⟨rfl, rfl⟩
  refine turns_one s _ { record := tapped, handedAs := .event } nofun rfl _ _ (fun k => ?_)
  by_cases hk : r.key = k
  · subst hk
    exact turn_tapRelease held s _ tk r pre post hfirst hpressed htapped hkey (hin r.key).1
      (hin r.key).2
  · refine turn_stay held s.tapping _ _ _ _ k (strokesOf_cons_other k _ [] hk) ?_ ?_
      (marksOf_place_other k r pre post hk).symm
    · exact (hin k).1.trans (undecidedIn_decided s htapped.decided k).symm
    · refine (hin k).2.trans ?_
      rw [tappedIn_tapped s tk htapped k, if_neg (fun heq => hk (hkey.trans heq))]

theorem turns_firstTap (hundecided : s.Undecided tk) (hkey : r.key = tk.key)
    (hfirst : ∀ w ∈ pre, w.key ≠ r.key)
    (hleft : (P.process s.host (markTap tk)).2.cancelled = false) :
    Turns s
      { (s.handOver P .tappingKey (markTap tk)).1 with
        tapping := some (s.handOver P .tappingKey (markTap tk)).2 }
      broken held (pre ++ r :: post)
      (pre ++ { r with tap := (s.handOver P .tappingKey (markTap tk)).2.tap } :: post) := by
  refine turns_one s _ { record := markTap tk, handedAs := .tappingKey } nofun rfl _ _
    (fun k => ?_)
  by_cases hk : tk.key = k
  · subst hk
    refine turn_firstTap held s tk r _ _ pre post hfirst hundecided hkey rfl ?_ hleft
    simp only [TapRecord.tapped, handOver_left, TapRecord.leave, hleft, markTap_count,
      Bool.false_eq_true, if_false, Nat.one_pos, decide_true]
  · have hrk : r.key ≠ k := fun heq => hk (hkey.symm.trans heq)
    refine turn_stay held s.tapping _ _ _ _ k (strokesOf_cons_other k _ [] hk) ?_ ?_ ?_
    · rw [undecidedIn_undecided s tk hundecided k]
      simp only [hk, decide_false]
      exact (in_other (s.handOver P .tappingKey (markTap tk)).2 k hk).1
    · rw [tappedIn_undecided s tk hundecided k]
      exact (in_other (s.handOver P .tappingKey (markTap tk)).2 k hk).2
    · rw [marksOf_place_other k r pre post hrk]
      exact marksOf_place_other k _ pre post hrk

theorem turns_wait (t : Option (TapRecord K)) (hundecided : s.Undecided tk)
    (ht : t = s.tapping ∨ t = some (interrupt tk)) :
    Turns s { s with tapping := t } broken held (pre ++ r :: post) (pre ++ r :: post) := by
  refine turns_nothing s { s with tapping := t } rfl _ _ (fun k => ?_)
  have hsame : undecidedIn t k = undecidedIn s.tapping k ∧
      tappedIn t k = tappedIn s.tapping k := by
    rcases ht with ht | ht
    · rw [ht]
      exact ⟨rfl, rfl⟩
    · rw [ht, hundecided.1]
      exact ⟨rfl, rfl⟩
  exact turn_stay held s.tapping t _ _ [] k rfl hsame.1 hsame.2 rfl

theorem turns_forget (hreleased : s.Released tk) (waiting : List (TapRecord K)) :
    Turns s { s with tapping := none } broken held waiting waiting :=
  turns_nothing s { s with tapping := none } rfl _ _
    (fun k => turn_stay held s.tapping none _ _ [] k rfl (in_released s tk hreleased k).1.symm
      (in_released s tk hreleased k).2.symm rfl)

theorem turns_settle (hundecided : s.Undecided tk) (waiting : List (TapRecord K)) :
    Turns s { (s.handOver P .tappingKey tk).1 with tapping := none } broken held waiting
      waiting :=
  turns_one s _ { record := tk, handedAs := .tappingKey } nofun rfl _ _
    (fun k => turn_settle held s tk waiting hundecided k)

end Cases

theorem Ready.starts_tap {P : TapHost K H} {r : TapRecord K} {s t : TapState K H}
    {held : K → Option Bool} {pre post final : List (TapRecord K)}
    (hplace : Place s r { state := t.start P r, record := r, consumed := true } pre post final)
    (hready : Ready P held r s { state := t.start P r, record := r, consumed := true } pre post)
    (hpressed : r.pressed = true) (htap : P.isTap s.host r.key = true) (hdecided : s.Decided)
    (ht : Cleared P r s t) (i : Nat) (w : TapRecord K) (hw : t.waiting[i]? = some w)
    (hkey : w.key = r.key) (hrelease : w.pressed = false) (hterm : t.within P r w.time)
    (hbefore : ∀ j v, j < i → t.waiting[j]? = some v → v.key = r.key → v.pressed = false →
      t.within P r v.time = false)
    (hstart : t.start P r = t.startTap P r i) :
    Turns s (t.start P r) (s.breaksTap P r) held (pre ++ r :: post) final := by
  have hfirst := hready.first (Or.inl rfl)
  have hfree := hready.free hfirst hpressed hdecided
  have hwaiting := ht.eqs.2.1
  have hleft : (P.process t.host (markTap r)).2.cancelled = false := by
    by_cases hwritten : (P.process t.host (markTap r)).2.cancelled
    · exact absurd (Spoilt.new t i hpressed htap ht hstart hwritten) hready.unspoilt
    · exact Bool.eq_false_of_not_eq_true hwritten
  have hscans :=
    hready.scans hfirst hpressed htap hdecided t i w ht hw hkey hrelease hterm hbefore
  rw [hwaiting] at hw hscans
  cases hplace with
  -- A press that has just arrived has no event of its key waiting.
  | arriving => exact absurd hkey (hfirst w (List.mem_of_getElem? hw))
  | waiting _ hrest =>
    rw [hrest] at hw hscans
    cases i with
    | zero =>
      rw [List.getElem?_cons_zero, Option.some.injEq] at hw
      -- The first that waits is the press itself.
      rw [← hw, hpressed] at hrelease
      exact Bool.noConfusion hrelease
    | succ i =>
      rw [List.getElem?_cons_succ] at hw
      -- What the scan passes on its way is of other keys.
      have hnone : ∀ j v, j < i → post[j]? = some v → v.key ≠ r.key := by
        intro j v hj hv
        exact hscans (j + 1) v (Nat.succ_pos j) (Nat.succ_lt_succ hj)
          (by rw [List.getElem?_cons_succ, hv])
      have hfinal : (t.start P r).waiting.tail = post.modify i markTap := by
        simp only [hstart, startTap, hwaiting, hrest, List.modify_succ_cons, List.tail_cons]
      simp only [if_true, List.nil_append, hfinal]
      rw [hstart]
      exact turns_startTap t w i hpressed htap hdecided ht (hready.other hfree)
        (hready.fresh hpressed) hfree hw hkey hnone hleft

theorem Outcome.turn {P : TapHost K H} {r : TapRecord K} {s : TapState K H} {e : Examined K H}
    (h : Outcome P r s e) {pre post final : List (TapRecord K)}
    (hplace : Place s r e pre post final) (held : K → Option Bool)
    (hready : Ready P held r s e pre post) :
    Turns s e.state (s.breaksTap P r) held (pre ++ r :: post) final := by
  have hfresh : r.pressed → r.tapped = false :=
    fun hpressed => tapped_of_count r (hready.fresh hpressed)
  cases h with
  | pass t hdecided ht hother hin hplain =>
    have hfirst := hready.first (Or.inl rfl)
    rw [hplace.final_consumed rfl rfl]
    exact turns_pass t hdecided ht hother hfirst hfresh
      (fun hpressed => hready.free hfirst hpressed hdecided)
  | slip tk hundecided hin hkey hpressed htyped =>
    rw [hplace.final_consumed rfl rfl]
    exact turns_slip tk hundecided hpressed (hready.first (Or.inl rfl)) hfresh
  | start t hpressed htap hdecided hin ht =>
    rcases start_cases P r t with hstart |
      ⟨i, w, hw, hkey, hrelease, hterm, hbefore, _, _, hstart⟩
    · have hfirst := hready.first (Or.inl rfl)
      have hfree := hready.free hfirst hpressed hdecided
      rw [hplace.final_consumed (by rw [hstart]; exact ht.eqs.2.1) rfl]
      dsimp only
      rw [hstart]
      exact turns_start t hpressed htap hdecided ht (hready.other hfree) hfirst
        (hready.fresh hpressed) hfree
    · -- a release that waits has made a tap of it at once
      exact Ready.starts_tap hplace hready hpressed htap hdecided ht i w hw hkey hrelease hterm
        hbefore hstart
  | restart tk hpressed hreleased hin hkey =>
    have hfirst := hready.first (Or.inl rfl)
    rw [hplace.final_consumed rfl rfl]
    exact turns_restart tk hpressed hreleased hfirst (hready.fresh hpressed)
      (hready.free hfirst hpressed hreleased.decided)
  | sequential tk hpressed hreleased hin hkey hcount halone =>
    have hfirst := hready.first (Or.inl rfl)
    have hleft : (s.handOver P .event { r with tap := nextTap tk.tap }).2 =
        { r with tap := nextTap tk.tap } := by
      rw [handOver_left]
      by_cases hwritten :
          (P.process s.host { r with tap := nextTap tk.tap }).2 = Written.nothing
      · rw [hwritten, leave_nothing]
      · -- the tap that is going on would have been interfered with
        exact absurd (Spoilt.next tk hpressed hreleased hin hkey hcount halone hwritten)
          hready.unspoilt
    rw [hplace.final_consumed rfl rfl]
    exact turns_sequential tk hpressed hreleased hcount hfirst (hready.fresh hpressed)
      (hready.free hfirst hpressed hreleased.decided) hleft
  | tapRelease tk hpressed htapped hkey =>
    rw [hplace.final_consumed rfl rfl]
    exact turns_tapRelease tk hpressed htapped hkey (hready.first (Or.inl rfl))
  | firstTap tk hpressed hundecided hin hkey =>
    have hfirst := hready.first (Or.inr (by
      simp only [isFirstTap, hundecided.1, hundecided.2.1, hundecided.2.2, hkey, hpressed, hin,
        decide_true, Bool.not_false, Bool.and_true]))
    have hleft : (P.process s.host (markTap tk)).2.cancelled = false := by
      by_cases hwritten : (P.process s.host (markTap tk)).2.cancelled
      · exact absurd (Spoilt.first tk hpressed hundecided hin hkey hwritten) hready.unspoilt
      · exact Bool.eq_false_of_not_eq_true hwritten
    rw [hplace.final_waits rfl rfl]
    exact turns_firstTap tk hundecided hkey hfirst hleft
  | settle tk hundecided hwhy =>
    rw [hplace.final_waits rfl rfl]
    exact turns_settle tk hundecided (pre ++ r :: post)
  | wait tk t hundecided hin ht hkey =>
    rw [hplace.final_waits rfl rfl]
    exact turns_wait tk t hundecided ht
  | forget tk hreleased hin =>
    rw [hplace.final_waits rfl rfl]
    exact turns_forget tk hreleased (pre ++ r :: post)

theorem processTick_turn (P : TapHost K H) (time : BitVec 16) (s : TapState K H)
    (held : K → Option Bool) :
    ∃ new, (s.processTick P time).out = s.out ++ new ∧ (∀ g ∈ new, g.isPhysical) ∧
      ∀ k, Turn (laneOf held s.tapping s.waiting k) (strokesOf k new)
        (laneOf (heldWith held new) (s.processTick P time).tapping
          (s.processTick P time).waiting k) := by
  rcases processTick_cases P time s with h | ⟨tk, hundecided, _, h⟩ | ⟨tk, hreleased, _, h⟩
  · rw [h]
    exact ⟨[], (List.append_nil s.out).symm, fun g hg => absurd hg List.not_mem_nil,
      fun k => turn_stay held s.tapping s.tapping _ _ [] k rfl rfl rfl rfl⟩
  · rw [h]
    refine ⟨[{ record := tk, handedAs := .tappingKey }], rfl, ?_,
      fun k => turn_settle held s tk s.waiting hundecided k⟩
    intro g hg
    rw [List.mem_singleton.mp hg]
    rfl
  · rw [h]
    exact ⟨[], (List.append_nil s.out).symm, fun g hg => absurd hg List.not_mem_nil,
      fun k => turn_stay held s.tapping none _ _ [] k rfl (in_released s tk hreleased k).1.symm
        (in_released s tk hreleased k).2.symm rfl⟩

end TapState

end K530
