import K530.Theory.Tapping.Lanes

/-!
# Presses and Their Releases

The records handed over for a key should be a press and its release in turn,
the release as a tap if the press was one, and no key event should be handed
over twice.

Four things break this. An event goes ahead of one of its own key that waits. A
release is made up for a key tapped more than once, when another tap key is
pressed, and the key's own release still comes. The scan for the release of a
new tapping key finds one that is not its own, the difference of times being of
sixteen bits. And the host may write to the tapping key when it is handed over:
it cancels the tap of a modifier, and the key is handed over again; or it makes a
release of the press that uses up a one-shot layer, and the tapping key is taken
for released.

Nothing else does. What has been handed over of a key is then the beginning of
what has arrived of it, and the classes come out right in its lane.

## Main definitions

* `alternates`: A press and a release in turn.

## Theorems

* `tapping_pairs`: Presses and releases are paired if no event cuts in and all
  examinations are regular.
* `tapping_pairs_broken`: One key tapped twice and held, and another pressed.
-/

namespace K530

/-- A press and a release in turn, beginning with a press or with a release. -/
def alternates : Bool → List Bool → Bool
  | _, [] => true
  | b, x :: xs => x == b && alternates (!b) xs

theorem heldAfter_of_alternates (b p : Bool) (xs : List Stroke) (rest : List Bool)
    (held : Option Bool) (h : alternates b (xs.map Stroke.pressed ++ p :: rest))
    (hheld : held.isSome = !b) : (heldAfter held xs).isSome = !p := by
  induction xs generalizing b held with
  | nil =>
    simp only [List.map_nil, List.nil_append, alternates, Bool.and_eq_true, beq_iff_eq] at h
    rw [heldAfter, hheld, h.1]
  | cons x xs ih =>
    simp only [List.map_cons, List.cons_append, alternates, Bool.and_eq_true, beq_iff_eq] at h
    refine ih (!b) x.holding h.2 ?_
    rw [Stroke.holding, h.1, Bool.not_not]
    cases b with
    | true => rfl
    | false => rfl

theorem alternates_next (b x y : Bool) (before after : List Bool)
    (h : alternates b (before ++ x :: y :: after) = true) : x = !y := by
  induction before generalizing b with
  | nil =>
    simp only [List.nil_append, alternates, Bool.and_eq_true, beq_iff_eq] at h
    rw [h.1, h.2.1, Bool.not_not]
  | cons v before ih =>
    simp only [List.cons_append, alternates, Bool.and_eq_true] at h
    exact ih (!b) h.2

theorem alternates_left (b : Bool) (xs ys : List Bool) (h : alternates b (xs ++ ys)) :
    alternates b xs := by
  induction xs generalizing b with
  | nil => rfl
  | cons x xs ih =>
    simp only [List.cons_append, alternates, Bool.and_eq_true] at h ⊢
    exact ⟨h.1, ih (!b) h.2⟩

theorem alternates_right (b x : Bool) (before after : List Bool)
    (h : alternates b (before ++ x :: after) = true) : alternates (!x) after = true := by
  induction before generalizing b with
  | nil =>
    simp only [List.nil_append, alternates, Bool.and_eq_true, beq_iff_eq] at h
    rw [h.1]
    exact h.2
  | cons v before ih =>
    simp only [List.cons_append, alternates, Bool.and_eq_true] at h
    exact ih (!b) h.2

namespace TapState

open StepRun

variable {K H : Type} [DecidableEq K]

/-- The presses and releases of a key among the key events. -/
def pressesOf (k : K) (s : TapState K H) : List Bool :=
  (s.arrived.filter (fun r => r.key = k)).map TapRecord.pressed

/-- The records handed over for every key are a press and its release in turn,
    of one class, and no key event is handed over twice. -/
structure Paired (s : TapState K H) : Prop where
  inTurn : ∀ k, alternates true ((strokesOf k s.out).map Stroke.pressed) = true
  classes : ∀ k before x y after, strokesOf k s.out = before ++ x :: y :: after →
    x.pressed = true → y.tapped = x.tapped
  once : (s.handed.map KeyEvent.seq).Nodup

/-- The scan for the release of a new tapping key finds one that is not the first
    of its key. -/
def misses (P : TapHost K H) (s : TapState K H) (r : TapRecord K) : Bool :=
  match s.waiting.find? (fun w => w.key = r.key && !w.pressed) with
  | none => false
  | some w => r.pressed && !s.within P r w.time && s.waiting.any (s.isTapRelease P r)

/-- An examination without a fault. -/
structure Regular (P : TapHost K H) (s : TapState K H) (r : TapRecord K) : Prop where
  unspoilt : ¬ Spoilt P r s
  unbroken : s.breaksTap P r = false
  found : s.misses P r = false

/-- The classes of the presses not released. -/
def heldOf (s : TapState K H) : K → Option Bool := heldWith (fun _ => none) s.out

/-- The invariant: what has been handed over of a key is the beginning of what
    has arrived of it, and its lane is sound. -/
structure Coupled (s : TapState K H) : Prop where
  order : s.OwnOrder (fun _ => True)
  alternate : ∀ k, alternates true (s.pressesOf k) = true
  physical : ∀ g ∈ s.out, g.isPhysical = true
  lanes : ∀ k, (laneOf s.heldOf s.tapping s.waiting k).Sound
  fits : ∀ k, Fits none (strokesOf k s.out)

theorem Coupled.strokes_pressed {s : TapState K H} (h : s.Coupled) (k : K) :
    (strokesOf k s.out).map Stroke.pressed =
      (s.handed.filter (fun x => x.key = k)).map KeyEvent.pressed := by
  have hall : s.out.filter Handed.isPhysical = s.out := List.filter_eq_self.mpr h.physical
  rw [strokesOf, handed, hall, List.filter_map, List.map_map, List.map_map]
  rfl

theorem Coupled.pressesOf_eq {s : TapState K H} (h : s.Coupled) (k : K) :
    s.pressesOf k = (strokesOf k s.out).map Stroke.pressed ++
      (((s.undecided ++ s.behind).filter (fun x => x.key = k)).map KeyEvent.pressed) := by
  rw [h.strokes_pressed k, ← List.map_append, ← List.filter_append, ← List.append_assoc]
  change _ = (s.line.filter (fun x => x.key = k)).map KeyEvent.pressed
  rw [h.order.sameOrder k trivial, List.filter_map, List.map_map]
  rfl

theorem Coupled.paired {s : TapState K H} (h : s.Coupled) : s.Paired where
  inTurn k := by
    have halternate := h.alternate k
    rw [h.pressesOf_eq k] at halternate
    exact alternates_left true _ _ halternate
  classes k before x y after hsplit hx := by
    have hfits := h.fits k
    rw [hsplit] at hfits
    rw [hfits.class_eq hx]
  once := by
    have hperm : s.line.Perm (s.arrived.map TapRecord.event) := by
      rw [List.perm_iff_count]
      intro x
      have hx := congrArg (List.count x) (h.order.sameOrder x.key trivial)
      have hcount : ∀ l : List (KeyEvent K),
          (l.filter (fun y => y.key = x.key)).count x = l.count x :=
        fun l => List.count_filter (decide_eq_true rfl)
      rwa [hcount, hcount] at hx
    have hnodup : (s.line.map KeyEvent.seq).Nodup := by
      rw [(hperm.map KeyEvent.seq).nodup_iff, List.map_map]
      exact h.order.numbered ▸ List.nodup_range
    rw [line, List.append_assoc, List.map_append] at hnodup
    exact (List.nodup_append.mp hnodup).1

/-! ### The record examined -/

theorem sound_arriving (held : K → Option Bool) (tapping : Option (TapRecord K))
    (waiting : List (TapRecord K)) (r : TapRecord K) (hr : r.tapped = false)
    (h : ∀ k, (laneOf held tapping waiting k).Sound) (k : K) :
    (laneOf held tapping (waiting ++ [r]) k).Sound := by
  by_cases hk : r.key = k
  · subst hk
    have hmarks : marksOf r.key (waiting ++ [r]) = marksOf r.key waiting ++ [false] := by
      rw [marksOf_append, marksOf_cons_self, hr]
      rfl
    rw [show laneOf held tapping (waiting ++ [r]) r.key =
      { laneOf held tapping waiting r.key with waits := marksOf r.key waiting ++ [false] } from
      Lane.eq_of rfl rfl rfl hmarks]
    exact (h r.key).push
  · have hmarks : marksOf k (waiting ++ [r]) = marksOf k waiting := by
      rw [marksOf_append, marksOf_cons_other k r [] hk]
      exact List.append_nil _
    rw [show laneOf held tapping (waiting ++ [r]) k = laneOf held tapping waiting k from
      Lane.eq_of rfl rfl rfl hmarks]
    exact h k

theorem free_of_alternates {s : TapState K H} (k : K) (rest : List Bool)
    (h : alternates true ((strokesOf k s.out).map Stroke.pressed ++ true :: rest)) :
    s.heldOf k = none := by
  have hsome := heldAfter_of_alternates true true _ rest none h rfl
  rw [Bool.not_true, Option.isSome_eq_false_iff, Option.isNone_iff_eq_none] at hsome
  exact hsome

variable (P : TapHost K H) (s : TapState K H)

theorem scans_of_alternates (r : TapRecord K) (rest : List (TapRecord K))
    (hwaiting : s.waiting = r :: rest) (hpressed : r.pressed)
    (hmisses : s.misses P r = false) (halternate :
      alternates false ((rest.filter (fun w => w.key = r.key)).map TapRecord.pressed) = true)
    (i : Nat) (w : TapRecord K) (hw : s.waiting[i]? = some w) (hkey : w.key = r.key)
    (hrelease : w.pressed = false) (hin : s.within P r w.time)
    (hbefore : ∀ j v, j < i → s.waiting[j]? = some v → v.key = r.key → v.pressed = false →
      s.within P r v.time = false) :
    ∀ j v, 0 < j → j < i → s.waiting[j]? = some v → v.key ≠ r.key := by
  intro j v hpos hlt hv hvkey
  -- the first event of the key behind the press is a release
  have hmem : v ∈ rest := by
    cases j with
    | zero => exact absurd hpos (Nat.lt_irrefl 0)
    | succ j =>
      rw [hwaiting, List.getElem?_cons_succ] at hv
      exact List.mem_of_getElem? hv
  have hsome : (rest.find? (fun w => w.key = r.key)).isSome = true := by
    rw [List.find?_isSome]
    exact ⟨v, hmem, decide_eq_true hvkey⟩
  rcases Option.isSome_iff_exists.mp hsome with ⟨u, hu⟩
  rw [List.find?_eq_some_iff_append] at hu
  rcases hu with ⟨hukey, before, after, hsplit, hnone⟩
  rw [decide_eq_true_eq] at hukey
  simp only [Bool.not_eq_true', decide_eq_false_iff_not] at hnone
  have hurelease : u.pressed = false := by
    have hfilter : rest.filter (fun w => w.key = r.key) =
        u :: after.filter (fun w => w.key = r.key) := by
      have hempty : before.filter (fun w => w.key = r.key) = [] := by
        rw [List.filter_eq_nil_iff]
        intro b hb
        simpa only [decide_eq_true_eq] using hnone b hb
      rw [hsplit, List.filter_append, hempty, List.nil_append, List.filter_cons, hukey]
      simp only [decide_true, if_true]
    rw [hfilter, List.map_cons, alternates, Bool.and_eq_true, beq_iff_eq] at halternate
    exact halternate.1
  -- it is the first release of the key, so that the scan would have found it
  have hfind : s.waiting.find? (fun w => w.key = r.key && !w.pressed) = some u := by
    rw [List.find?_eq_some_iff_append]
    refine ⟨by rw [decide_eq_true hukey, hurelease]; rfl, r :: before, after, ?_, ?_⟩
    · rw [hwaiting, hsplit, List.cons_append]
    · intro b hb
      rcases List.mem_cons.mp hb with hb | hb
      · rw [hb, hpressed, Bool.not_true, Bool.and_false, Bool.not_false]
      · rw [decide_eq_false (hnone b hb), Bool.false_and, Bool.not_false]
  have hfound : s.waiting.any (s.isTapRelease P r) = true := by
    rw [List.any_eq_true]
    refine ⟨w, List.mem_of_getElem? hw, ?_⟩
    rw [isTapRelease, decide_eq_true hkey, hrelease, hin]
    rfl
  have huin : s.within P r u.time := by
    rw [misses, hfind] at hmisses
    simpa only [hpressed, hfound, Bool.true_and, Bool.and_true, Bool.not_eq_false'] using hmisses
  -- but it stands before the release that the scan has found
  have hplace : before.length ≤ j - 1 := by
    by_contra hshort
    have hget : before[j - 1]? = some v := by
      cases j with
      | zero => exact absurd hpos (Nat.lt_irrefl 0)
      | succ j =>
        rw [hwaiting, List.getElem?_cons_succ, hsplit,
          List.getElem?_append_left (by omega)] at hv
        exact hv
    exact hnone v (List.mem_of_getElem? hget) hvkey
  have hat : s.waiting[before.length + 1]? = some u := by
    rw [hwaiting, List.getElem?_cons_succ, hsplit, List.getElem?_append_right (Nat.le_refl _),
      Nat.sub_self, List.getElem?_cons_zero]
  have hout := hbefore (before.length + 1) u (by omega) hat hukey hurelease
  rw [huin] at hout
  exact Bool.noConfusion hout

/-! ### A step -/

theorem heldOf_append {s t : TapState K H} (new : List (Handed K)) (h : t.out = s.out ++ new) :
    t.heldOf = heldWith s.heldOf new := by
  funext k
  simp only [heldOf, heldWith, h, strokesOf_append, heldAfter_append]

theorem sound_of_turn {s t : TapState K H} (waiting : List (TapRecord K)) (new : List (Handed K))
    (hsound : ∀ k, (laneOf s.heldOf s.tapping waiting k).Sound)
    (hfits : ∀ k, Fits none (strokesOf k s.out)) (hout : t.out = s.out ++ new)
    (hturn : ∀ k, Turn (laneOf s.heldOf s.tapping waiting k) (strokesOf k new)
      (laneOf (heldWith s.heldOf new) t.tapping t.waiting k)) :
    (∀ k, (laneOf t.heldOf t.tapping t.waiting k).Sound) ∧ ∀ k, Fits none (strokesOf k t.out) := by
  rw [heldOf_append new hout]
  refine ⟨fun k => ((hturn k).sound (hsound k)).1, fun k => ?_⟩
  rw [hout, strokesOf_append, fits_append]
  exact ⟨hfits k, ((hturn k).sound (hsound k)).2.1⟩

omit [DecidableEq K] in
theorem physical_of_new {s t : TapState K H} {new : List (Handed K)} {broken : Bool}
    (hs : ∀ g ∈ s.out, g.isPhysical) (hout : t.out = s.out ++ new)
    (hnew : ∀ g ∈ new, g.isPhysical ∨ broken) (hbroken : broken = false) :
    ∀ g ∈ t.out, g.isPhysical := by
  intro g hg
  rw [hout] at hg
  rcases List.mem_append.mp hg with hg | hg
  · exact hs g hg
  · rcases hnew g hg with hg | hg
    · exact hg
    · exact Bool.noConfusion (hbroken.symm.trans hg)

theorem pressesOf_arrive (r : TapRecord K) (k : K) :
    (s.arrive P r).pressesOf k = s.pressesOf k ++ if r.key = k then [r.pressed] else [] := by
  rw [pressesOf, show (s.arrive P r).arrived = s.arrived ++ [r] from rfl, List.filter_append,
    List.map_append]
  by_cases hk : r.key = k
  · rw [if_pos hk, List.filter_cons, decide_eq_true hk, if_pos rfl]
    rfl
  · rw [if_neg hk, List.filter_cons, decide_eq_false hk, if_neg Bool.false_ne_true]
    rfl

theorem receive_coupled (key : K) (pressed : Bool) (now : Nat) (hs : s.Coupled)
    (hroom : (s.arrive P (s.record key pressed now)).overflows P (s.record key pressed now) = false)
    (hcut : (s.arrive P (s.record key pressed now)).cutsIn P (s.record key pressed now) = false)
    (halternate :
      alternates true ((s.arrive P (s.record key pressed now)).pressesOf key))
    (hregular : Regular P (s.arrive P (s.record key pressed now)) (s.record key pressed now)) :
    ((s.arrive P (s.record key pressed now)).receive P (s.record key pressed now)).Coupled := by
  let r := s.record key pressed now
  let t := s.arrive P r
  have hpresses := s.pressesOf_arrive P r
  have hplace := Place.arriving (s := t) (r := r) (e := t.processTapping P r)
  have hready : Ready P s.heldOf r t (t.processTapping P r) t.waiting [] := by
    refine ⟨fun _ => rfl, sound_arriving s.heldOf s.tapping s.waiting r rfl hs.lanes,
      first_of_consumed P t r hcut, ?_, hregular.unspoilt, ?_⟩
    · intro hfirst hpressed hdecided
      have halt : alternates true (t.pressesOf r.key) := halternate
      rw [hpresses r.key, if_pos rfl, hpressed, hs.pressesOf_eq r.key] at halt
      have hbehind : (s.undecided ++ s.behind).filter (fun x => x.key = r.key) = [] := by
        rw [show s.undecided = [] from undecided_nil t hdecided, List.nil_append,
          List.filter_eq_nil_iff]
        intro y hy
        rcases List.mem_map.mp hy with ⟨w, hw, heq⟩
        rw [← heq, decide_eq_true_eq]
        exact hfirst w hw
      rw [hbehind, List.map_nil, List.append_nil] at halt
      exact free_of_alternates r.key [] halt
    · intro hfirst _ _ _ u i w hcleared hw hkey _ _ _
      rw [hcleared.eqs.2.1] at hw
      exact absurd hkey (hfirst w (List.mem_of_getElem? hw))
  rcases (processTapping_outcome P r t).turn hplace s.heldOf hready with
    ⟨new, hout, hnew, hturn⟩
  rcases receive_parts P r t hroom with ⟨hro, hrt, hrw⟩
  have hout' : (t.receive P r).out = s.out ++ new := hro.trans hout
  rw [← hrt, ← hrw] at hturn
  rcases sound_of_turn (s := s) (t := t.receive P r) (t.waiting ++ [r]) new
    (fun k => hready.sound k) hs.fits hout' hturn with ⟨hsound, hfits⟩
  refine ⟨receive_ownOrder P _ s key pressed now hs.order hroom (fun _ => hcut)
    hregular.unspoilt, fun k => ?_, physical_of_new hs.physical hout' hnew hregular.unbroken,
    hsound, hfits⟩
  rw [pressesOf, receive_arrived P r t hroom]
  change alternates true (t.pressesOf k)
  by_cases hk : r.key = k
  · rw [← hk]
    exact halternate
  · rw [hpresses k, if_neg hk, List.append_nil]
    exact hs.alternate k

theorem afterWaiting_coupled (w : TapRecord K) (rest : List (TapRecord K)) (hs : s.Coupled)
    (hwaiting : s.waiting = w :: rest) (hregular : Regular P s w) :
    (afterWaiting (s.processTapping P w)).Coupled := by
  have hbehind : s.behind = w.event :: rest.map TapRecord.event := by
    simp only [behind, hwaiting, List.map_cons]
  have hwself : decide (w.event.key = w.key) = true := decide_eq_true rfl
  have hplace := Place.waiting (s := s) (r := w) (e := s.processTapping P w) rest hwaiting
  have hready : Ready P s.heldOf w s (s.processTapping P w) [] rest := by
    refine ⟨hs.order.unmarked w (hwaiting ▸ List.mem_cons_self), ?_,
      fun _ v hv => absurd hv List.not_mem_nil, ?_, hregular.unspoilt, ?_⟩
    · intro k
      rw [List.nil_append, ← hwaiting]
      exact hs.lanes k
    · intro _ hpressed hdecided
      have halt := hs.alternate w.key
      rw [hs.pressesOf_eq w.key, undecided_nil s hdecided, List.nil_append, hbehind,
        List.filter_cons, if_pos hwself, List.map_cons,
        show w.event.pressed = true from hpressed] at halt
      exact free_of_alternates w.key _ halt
    · intro _ hpressed htap hdecided t i v hcleared hv hkey hrelease hin hbefore
      have ht : t = s := by
        rcases hcleared with ⟨ht, _⟩ | ⟨tk, htapped, hcount, _⟩
        · exact ht
        · have hbroken := hregular.unbroken
          simp only [breaksTap, htapped.1, htapped.2.1, hcount, hpressed, htap, decide_true,
            Bool.and_true] at hbroken
          exact Bool.noConfusion hbroken
      subst ht
      have halt := hs.alternate w.key
      rw [hs.pressesOf_eq w.key, undecided_nil t hdecided, List.nil_append, hbehind,
        List.filter_cons, if_pos hwself, List.map_cons, List.filter_map, List.map_map] at halt
      have hrest := alternates_right true w.event.pressed _ _ halt
      rw [show w.event.pressed = true from hpressed] at hrest
      exact scans_of_alternates P t w rest hwaiting hpressed hregular.found hrest i v hv hkey
        hrelease hin hbefore
  rcases (processTapping_outcome P w s).turn hplace s.heldOf hready with
    ⟨new, hout, hnew, hturn⟩
  rcases afterWaiting_parts (s.processTapping P w) with ⟨hao, hat, haw⟩
  have hout' : (afterWaiting (s.processTapping P w)).out = s.out ++ new := hao.trans hout
  rw [← hat, ← haw] at hturn
  rcases sound_of_turn (s := s) (t := afterWaiting (s.processTapping P w)) ([] ++ w :: rest) new
    hready.sound hs.fits hout' hturn with ⟨hsound, hfits⟩
  refine ⟨afterWaiting_ownOrder P _ s w rest hs.order hwaiting hregular.unspoilt, fun k => ?_,
    physical_of_new hs.physical hout' hnew hregular.unbroken, hsound, hfits⟩
  rw [pressesOf, afterWaiting_arrived]
  exact hs.alternate k

theorem processTick_coupled (now : Nat) (hs : s.Coupled) :
    ({ s with now := eventMs now }.processTick P (eventTime now)).Coupled := by
  let t := { s with now := eventMs now }
  rcases processTick_turn P (eventTime now) t s.heldOf with ⟨new, hout, hnew, hturn⟩
  have hout' : (t.processTick P (eventTime now)).out = s.out ++ new := hout
  rcases sound_of_turn (s := s) (t := t.processTick P (eventTime now)) s.waiting new hs.lanes
    hs.fits hout' hturn with ⟨hsound, hfits⟩
  refine ⟨processTick_ownOrder P _ s now hs.order, fun k => ?_, ?_, hsound, hfits⟩
  · rw [pressesOf, (processTick_line P (eventTime now) t).2.2]
    exact hs.alternate k
  · have hphysical : ∀ g ∈ new, g.isPhysical ∨ false :=
      fun g hg => Or.inl (hnew g hg)
    exact physical_of_new hs.physical hout' hphysical rfl

theorem init_coupled (host : H) : (init (K := K) host).Coupled where
  order := init_ownOrder _ host
  alternate _ := rfl
  physical _ hg := absurd hg List.not_mem_nil
  lanes _ := Lane.sound_of_none rfl rfl (fun _ hm => absurd hm List.not_mem_nil)
  fits _ := trivial

/-- Presses and releases are paired, in a run in which the events of every key
    alternate and the waiting buffer has room, if no event cuts in and all
    examinations are regular. -/
theorem tapping_pairs (P : TapHost K H) (host : H) (inputs : List (TapInput K))
    (halternate : Along (actionExec P)
      (OnArrival P (fun s r => alternates true (s.pressesOf r.key) = true)) (init host) inputs)
    (hroom : Along (actionExec P) (OnArrival P (fun s r => s.overflows P r = false))
      (init host) inputs)
    (hcut : Along (actionExec P) (OnArrival P (fun s r => s.cutsIn P r = false))
      (init host) inputs)
    (hregular : Along (actionExec P) (OnExamination P (Regular P)) (init host) inputs) :
    Always (actionExec P) Paired (init host) inputs := by
  refine always_of_along (actionExec P) _ Coupled Paired (fun s hs => hs.paired) ?_ inputs
    (init host) (init_coupled host) ((along_and _ _ _ _ _).mpr ⟨halternate,
      (along_and _ _ _ _ _).mpr ⟨hroom, (along_and _ _ _ _ _).mpr ⟨hcut, hregular⟩⟩⟩)
  intro s input hs hC
  refine actionExec_invariant P
    (fun s r => alternates true (s.pressesOf r.key) = true ∧ s.overflows P r = false ∧
      s.cutsIn P r = false) (Regular P) Coupled
    (fun s key pressed now hs hA hC =>
      receive_coupled P s key pressed now hs hA.2.1 hA.2.2 hA.1 hC)
    (fun s w rest hs hwaiting hC => afterWaiting_coupled P s w rest hs hwaiting hC)
    (fun s now hs => processTick_coupled P s now hs) s input hs ?_ hC.2.2.2
  cases input with
  | tick now => trivial
  | key key pressed now => exact ⟨hC.1, hC.2.1, hC.2.2.1⟩

instance (isTap : K → Bool) (term : Nat) (s : TapState K Unit) (r : TapRecord K) :
    Decidable (Regular (TapHost.plain isTap term) s r) :=
  decidable_of_iff (s.breaksTap (TapHost.plain isTap term) r = false ∧
      s.misses (TapHost.plain isTap term) r = false)
    ⟨fun h => ⟨not_spoilt _ (fun _ _ => rfl) r s, h.1, h.2⟩, fun h => ⟨h.unbroken, h.found⟩⟩

/-- A tap key, another tap key while it is undecided, and both released; and the
    first pressed and held. -/
theorem tapping_pairs_taps :
    Always (actionExec (TapHost.plain (fun key : Nat => key < 2) 200)) Paired (init ())
      [.key 0 true 0, .key 1 true 20, .key 0 false 50, .tick 55, .key 1 false 60, .key 0 true 300,
        .tick 600, .key 0 false 700] :=
  tapping_pairs _ () _ (by decide +kernel) (by decide +kernel) (by decide +kernel)
    (by decide +kernel)

/-- A tap key tapped, pressed again and held, and another pressed: the first is
    released twice. -/
theorem tapping_pairs_broken :
    let P := TapHost.plain (fun key : Nat => key < 2) 200
    let inputs := [.key 0 true 0, .key 0 false 50, .key 0 true 100, .key 1 true 150,
      .key 0 false 200]
    Along (actionExec P) (OnArrival P (fun s r => alternates true (s.pressesOf r.key) = true))
        (init ()) inputs ∧
      Along (actionExec P) (OnArrival P (fun s r => s.overflows P r = false)) (init ()) inputs ∧
      ¬ Always (actionExec P) Paired (init ()) inputs := by
  refine ⟨by decide +kernel, by decide +kernel, fun h => ?_⟩
  have hlast := ((always_iff_visited _ _ _ _).mp h _ [] (List.append_nil _).symm).inTurn 0
  revert hlast
  decide +kernel

end TapState

end K530
