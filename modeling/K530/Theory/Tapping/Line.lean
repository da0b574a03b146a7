import K530.Theory.Tapping.Examine
import K530.Lib.Overtaking

/-!
# The Line of Key Events

The events handed over, the press of the undecided key, and the events that
wait, one after another, are a line. Deciding moves nobody in it. An event that
has just arrived is examined before those that wait, and if it is consumed it
has gone ahead of them; otherwise it stands at the end. An event that was
waiting is at the front and can go ahead of the undecided key only.

So the line is what a key sees of tapping. In which order events are handed
over, whether one is lost or handed over twice, is read off the line.

An event is handed over twice if it is the press of a tapping key whose tap has
been cancelled: the key is undecided again. `Spoilt` is when this happens.

## Main definitions

* `KeyEvent`: A key event, apart from its tapping.

## Theorems

* `Outcome.behind_eq`: Examining a record leaves those that wait where they are.
* `Outcome.front_eq`: What it does to those that do not.
-/

namespace K530

/-- A key event, apart from what is known of its tapping. -/
structure KeyEvent (K : Type) where
  key : K
  pressed : Bool
  seq : Nat
  ms : Nat
  deriving DecidableEq

/-- The key event of a record. -/
def TapRecord.event {K : Type} (r : TapRecord K) : KeyEvent K :=
  { key := r.key, pressed := r.pressed, seq := r.seq, ms := r.ms }

/-- It is a key event, and not made up. -/
def Handed.isPhysical {K : Type} (h : Handed K) : Bool := h.handedAs != .synthetic

namespace TapState

open Overtaking

variable {K H : Type}

/-- The key events handed over. -/
def handed (s : TapState K H) : List (KeyEvent K) :=
  (s.out.filter Handed.isPhysical).map (fun h => h.record.event)

def undecided (s : TapState K H) : List (KeyEvent K) :=
  match s.tapping with
  | none => []
  | some tk => if tk.pressed && tk.tap.count = 0 then [tk.event] else []

def behind (s : TapState K H) : List (KeyEvent K) := s.waiting.map TapRecord.event

def line (s : TapState K H) : List (KeyEvent K) := s.handed ++ s.undecided ++ s.behind

/-! ### The parts of the line -/

@[simp] theorem event_markTap (r : TapRecord K) : (markTap r).event = r.event := rfl

@[simp] theorem event_interrupt (r : TapRecord K) : (interrupt r).event = r.event := rfl

theorem event_leave (w : Written) (r : TapRecord K) (h : (r.leave w).pressed = r.pressed) :
    (r.leave w).event = r.event := by
  simp only [TapRecord.event, h, leave_key, leave_seq, leave_ms]

theorem undecided_of (s : TapState K H) (tk : TapRecord K) (h : s.Undecided tk) :
    s.undecided = [tk.event] := by
  simp only [undecided, h.1, h.2.1, h.2.2, decide_true, Bool.and_true, if_true]

theorem undecided_nil (s : TapState K H) (h : s.Decided) : s.undecided = [] := by
  unfold undecided
  cases htapping : s.tapping with
  | none => rfl
  | some tk =>
    refine if_neg (fun hundecided => h tk ⟨htapping, ?_⟩)
    simpa only [Bool.and_eq_true, decide_eq_true_eq] using hundecided

def front (s : TapState K H) : List (KeyEvent K) := s.handed ++ s.undecided

variable (P : TapHost K H) (r : TapRecord K) (s : TapState K H)

@[simp] theorem handed_handOver_event :
    (s.handOver P .event r).1.handed = s.handed ++ [r.event] := by
  simp only [handed, handOver_out, List.filter_append, List.map_append]
  rfl

@[simp] theorem handed_handOver_tappingKey :
    (s.handOver P .tappingKey r).1.handed = s.handed ++ [r.event] := by
  simp only [handed, handOver_out, List.filter_append, List.map_append]
  rfl

@[simp] theorem handed_handOver_synthetic : (s.handOver P .synthetic r).1.handed = s.handed := by
  simp only [handed, handOver_out, List.filter_append, List.map_append]
  exact List.append_nil _

theorem undecided_new (r : TapRecord K) (hpressed : r.pressed = true) (hcount : r.tap.count = 0) :
    { s with tapping := some r }.undecided = [r.event] :=
  undecided_of _ r ⟨rfl, hpressed, hcount⟩

theorem undecided_leave (r : TapRecord K) (w : Written) (hcount : 0 < r.tap.count) :
    { s with tapping := some (r.leave w) }.undecided = [] ∨
      w.cancelled = true ∧ { s with tapping := some (r.leave w) }.undecided = [r.event] := by
  cases hcancelled : w.cancelled with
  | false =>
    refine Or.inl (undecided_nil _ (fun tk htk => ?_))
    have hleft : (r.leave w).tap.count = 0 := by
      rw [Option.some.inj htk.1]
      exact htk.2.2
    simp only [TapRecord.leave, hcancelled, Bool.false_eq_true, if_false] at hleft
    omega
  | true =>
    cases hpressed : (r.leave w).pressed with
    | false =>
      refine Or.inl (undecided_nil _ (fun tk htk => ?_))
      have hleft := htk.2.1
      rw [← Option.some.inj htk.1, hpressed] at hleft
      exact Bool.noConfusion hleft
    | true =>
      have hr : r.pressed := by
        simp only [TapRecord.leave, Bool.and_eq_true] at hpressed
        exact hpressed.1
      refine Or.inr ⟨rfl, ?_⟩
      rw [undecided_of _ (r.leave w) ⟨rfl, hpressed, by
        simp only [TapRecord.leave, hcancelled, if_true]⟩,
        event_leave w r (hpressed.trans hr.symm)]

theorem undecided_released (r : TapRecord K) (w : Written) (hpressed : r.pressed = false) :
    { s with tapping := some (r.leave w) }.undecided = [] := by
  refine undecided_nil _ (fun tk htk => ?_)
  have hleft := htk.2.1
  rw [← Option.some.inj htk.1, leave_released w r hpressed] at hleft
  exact Bool.noConfusion hleft

theorem map_event_modify (waiting : List (TapRecord K)) (i : Nat) :
    (waiting.modify i markTap).map TapRecord.event = waiting.map TapRecord.event := by
  refine List.ext_getElem? (fun j => ?_)
  rw [List.getElem?_map, List.getElem?_map, List.getElem?_modify]
  cases waiting[j]? with
  | none => rfl
  | some w =>
    by_cases hij : i = j
    · simp only [hij, if_true, Option.map_eq_map, Option.map_some, event_markTap]
    · simp only [hij, if_false, Option.map_eq_map, Option.map_some]

variable [DecidableEq K]

omit [DecidableEq K] in
theorem Cleared.eqs {P : TapHost K H} {r : TapRecord K} {s t : TapState K H}
    (h : Cleared P r s t) :
    t.handed = s.handed ∧ t.waiting = s.waiting ∧ t.arrived = s.arrived ∧ t.now = s.now := by
  rcases h with ⟨ht, _⟩ | ⟨tk, _, _, ht⟩
  · rw [ht]
    exact ⟨rfl, rfl, rfl, rfl⟩
  · rw [ht]
    exact ⟨handed_handOver_synthetic P _ s, rfl, rfl, rfl⟩

/-! ### Examining a record -/

/-- The host writes to a tapping key that it has been handed, and that is kept. -/
inductive Spoilt (P : TapHost K H) (r : TapRecord K) (s : TapState K H) : Prop where
  /-- It cancels the first tap -/
  | first (tk : TapRecord K) (hpressed : r.pressed = false) (hundecided : s.Undecided tk)
      (hin : s.within P tk r.time = true) (hkey : r.key = tk.key)
      (hwritten : (P.process s.host (markTap tk)).2.cancelled = true)
  /-- It cancels the tap of a key whose release is waiting -/
  | new (t : TapState K H) (i : Nat) (hpressed : r.pressed = true)
      (htap : P.isTap s.host r.key = true) (ht : Cleared P r s t)
      (hstart : t.start P r = t.startTap P r i)
      (hwritten : (P.process t.host (markTap r)).2.cancelled = true)
  /-- It cancels, or makes a release of, the next tap -/
  | next (tk : TapRecord K) (hpressed : r.pressed = true) (hreleased : s.Released tk)
      (hin : s.within P tk r.time = true) (hkey : r.key = tk.key) (hcount : 0 < tk.tap.count)
      (halone : tk.tap.interrupted = false)
      (hwritten : (P.process s.host { r with tap := nextTap tk.tap }).2 ≠ Written.nothing)

theorem not_spoilt (h : ∀ host r, (P.process host r).2 = Written.nothing) (r : TapRecord K)
    (s : TapState K H) : ¬ Spoilt P r s := by
  intro hspoilt
  cases hspoilt with
  | first tk hpressed hundecided hin hkey hwritten =>
    rw [h] at hwritten
    exact Bool.noConfusion hwritten
  | new t i hpressed htap ht hstart hwritten =>
    rw [h] at hwritten
    exact Bool.noConfusion hwritten
  | next tk hpressed hreleased hin hkey hcount halone hwritten => exact hwritten (h _ _)

theorem Outcome.behind_eq {P : TapHost K H} {r : TapRecord K} {s : TapState K H}
    {e : Examined K H} (h : Outcome P r s e) :
    e.state.behind = s.behind ∧ e.record.event = r.event ∧ e.state.arrived = s.arrived ∧
      e.state.now = s.now := by
  cases h with
  | pass t hdecided ht hother hin hplain => exact ⟨rfl, rfl, rfl, rfl⟩
  | slip tk hundecided hin hkey hpressed htyped => exact ⟨rfl, rfl, rfl, rfl⟩
  | start t hpressed htap hdecided hin ht =>
    rcases ht.eqs with ⟨_, hwaiting, harrived, hnow⟩
    rcases start_cases P r t with hstart | ⟨i, w, _, _, _, _, _, _, _, hstart⟩
    · rw [hstart]
      simp only [behind, hwaiting, harrived, hnow, and_self]
    · rw [hstart]
      simp only [behind, startTap, map_event_modify, hwaiting, harrived, hnow, and_self]
  | restart tk hpressed hreleased hin hkey => exact ⟨rfl, rfl, rfl, rfl⟩
  | sequential tk hpressed hreleased hin hkey hcount halone => exact ⟨rfl, rfl, rfl, rfl⟩
  | tapRelease tk hpressed htapped hkey => exact ⟨rfl, rfl, rfl, rfl⟩
  | firstTap tk hpressed hundecided hin hkey => exact ⟨rfl, rfl, rfl, rfl⟩
  | settle tk hundecided hwhy => exact ⟨rfl, rfl, rfl, rfl⟩
  | wait tk t hundecided hin ht hkey => exact ⟨rfl, rfl, rfl, rfl⟩
  | forget tk hreleased hin => exact ⟨rfl, rfl, rfl, rfl⟩

def advanced (r : TapRecord K) (s : TapState K H) (e : Examined K H) : List (KeyEvent K) :=
  s.handed ++ (if e.consumed then [r.event] else []) ++ s.undecided

omit [DecidableEq K] in
theorem front_kept {t : TapState K H} {line before : List (KeyEvent K)} {x : KeyEvent K}
    {cancelled : Prop} (hhanded : t.handed = before ++ [x]) (hline : line = before ++ [x])
    (hkept : t.undecided = [] ∨ cancelled ∧ t.undecided = [x]) :
    t.front = line ∨
      cancelled ∧ ∃ x front, line = front ++ [x] ∧ t.front = front ++ [x, x] := by
  unfold front
  rw [hhanded, hline]
  rcases hkept with hund | ⟨hcancelled, hund⟩
  · refine Or.inl ?_
    rw [hund, List.append_nil]
  · refine Or.inr ⟨hcancelled, x, before, rfl, ?_⟩
    rw [hund, List.append_assoc]
    rfl

theorem Outcome.front_eq {P : TapHost K H} {r : TapRecord K} {s : TapState K H}
    {e : Examined K H} (h : Outcome P r s e) (hfresh : r.pressed → r.tap.count = 0) :
    e.state.front = advanced r s e ∨
      Spoilt P r s ∧
        ∃ x front, advanced r s e = front ++ [x] ∧ e.state.front = front ++ [x, x] := by
  cases h with
  | pass t hdecided ht hother hin hplain =>
    refine Or.inl ?_
    -- No tapping key was undecided, and an interrupted one that is released is not either.
    have hnone : { (s.handOver P .event r).1 with tapping := t }.undecided = [] := by
      refine undecided_nil _ (fun tk htk => ?_)
      rcases ht with ht | ⟨tk', htk', ht⟩
      · exact hdecided tk ⟨ht.symm.trans htk.1, htk.2⟩
      · have heq : interrupt tk' = tk := Option.some.inj (ht.symm.trans htk.1)
        have hpressed := htk.2.1
        rw [← heq, interrupt_pressed, htk'.2] at hpressed
        exact Bool.noConfusion hpressed
    have hhanded : { (s.handOver P .event r).1 with tapping := t }.handed =
        s.handed ++ [r.event] := handed_handOver_event P r s
    simp only [front, advanced, hnone, hhanded, undecided_nil s hdecided, if_true]
  | slip tk hundecided hin hkey hpressed htyped =>
    refine Or.inl ?_
    have hund : (s.handOver P .event r).1.undecided = s.undecided := rfl
    simp only [front, advanced, hund, handed_handOver_event, if_true]
  | start t hpressed htap hdecided hin ht =>
    rcases ht.eqs with ⟨hhanded, hwaiting, _, _⟩
    rcases start_cases P r t with hstart | ⟨i, w, _, _, _, _, _, hcount, _, hstart⟩
    · refine Or.inl ?_
      have hh : { t with tapping := some r }.handed = s.handed := hhanded
      simp only [front, advanced, hstart, undecided_new t r hpressed (hfresh hpressed), hh,
        undecided_nil s hdecided, if_true, List.append_nil]
    · -- Its release is waiting, so it is handed over as a tap at once.
      have hh : (t.startTap P r i).handed = s.handed ++ [r.event] := by
        rw [← hhanded, ← event_markTap r, ← handed_handOver_tappingKey P (markTap r) t]
        rfl
      have hkept := undecided_leave (t.startTap P r i) (markTap r)
        (P.process t.host (markTap r)).2 Nat.one_pos
      have hline : advanced r s ⟨t.startTap P r i, r, true⟩ = s.handed ++ [r.event] := by
        simp only [advanced, undecided_nil s hdecided, if_true, List.append_nil]
      rw [hstart]
      exact (front_kept hh hline hkept).imp_right
        (And.imp_left (Spoilt.new t i hpressed htap ht hstart))
  | restart tk hpressed hreleased hin hkey =>
    refine Or.inl ?_
    have hh : { s with tapping := some r }.handed = s.handed := rfl
    simp only [front, advanced, undecided_new s r hpressed (hfresh hpressed), hh,
      undecided_nil s hreleased.decided, if_true, List.append_nil]
  | sequential tk hpressed hreleased hin hkey hcount halone =>
    -- A tap that follows another is handed over with its number.
    let tapped : TapRecord K := { r with tap := nextTap tk.tap }
    have hh : { (s.handOver P .event tapped).1 with
        tapping := some (s.handOver P .event tapped).2 }.handed = s.handed ++ [r.event] :=
      handed_handOver_event P tapped s
    have hkept := undecided_leave (s.handOver P .event tapped).1 tapped
      (P.process s.host tapped).2 (nextTap_pos hcount)
    refine (front_kept hh ?_ hkept).imp_right (And.imp_left (fun hcancelled => ?_))
    · simp only [advanced, undecided_nil s hreleased.decided, if_true, List.append_nil]
    · refine Spoilt.next tk hpressed hreleased hin hkey hcount halone (fun hnothing => ?_)
      rw [show P.process s.host tapped = P.process s.host { r with tap := nextTap tk.tap }
        from rfl, hnothing] at hcancelled
      exact Bool.noConfusion hcancelled
  | tapRelease tk hpressed htapped hkey =>
    refine Or.inl ?_
    have hh : ∀ t, { (s.handOver P .event { r with tap := tk.tap }).1 with tapping := t }.handed =
        s.handed ++ [r.event] := fun _ => handed_handOver_event P { r with tap := tk.tap } s
    -- A release leaves nothing undecided, whether it is kept or not.
    have hleft : ∀ kept : Bool, { (s.handOver P .event { r with tap := tk.tap }).1 with
        tapping :=
          if kept then some (s.handOver P .event { r with tap := tk.tap }).2 else none
        }.undecided = [] := by
      intro kept
      cases kept with
      | true => exact undecided_released _ { r with tap := tk.tap } _ hpressed
      | false => rfl
    simp only [front, advanced, hh, hleft, undecided_nil s htapped.decided, if_true,
      List.append_nil]
  | firstTap tk hpressed hundecided hin hkey =>
    have hh : { (s.handOver P .tappingKey (markTap tk)).1 with
        tapping := some (s.handOver P .tappingKey (markTap tk)).2 }.handed =
        s.handed ++ [tk.event] := handed_handOver_tappingKey P (markTap tk) s
    have hkept := undecided_leave (s.handOver P .tappingKey (markTap tk)).1 (markTap tk)
      (P.process s.host (markTap tk)).2 Nat.one_pos
    -- The record itself is not consumed, and the tapping key is handed over in its stead.
    refine (front_kept hh ?_ hkept).imp_right
      (And.imp_left (Spoilt.first tk hpressed hundecided hin hkey))
    simp only [advanced, undecided_of s tk hundecided, Bool.false_eq_true, if_false,
      List.append_nil]
  | settle tk hundecided hwhy =>
    refine Or.inl ?_
    have hh : { (s.handOver P .tappingKey tk).1 with tapping := none }.handed =
        s.handed ++ [tk.event] := handed_handOver_tappingKey P tk s
    simp only [front, advanced, hh, undecided_of s tk hundecided, Bool.false_eq_true, if_false,
      List.append_nil]
    exact List.append_nil _
  | wait tk t hundecided hin ht hkey =>
    refine Or.inl ?_
    have hund : { s with tapping := t }.undecided = s.undecided := by
      rw [undecided_of s tk hundecided]
      rcases ht with ht | ht
      · exact undecided_of _ tk ⟨ht.trans hundecided.1, hundecided.2⟩
      · exact undecided_of _ (interrupt tk) ⟨ht, hundecided.2⟩
    have hh : { s with tapping := t }.handed = s.handed := rfl
    simp only [front, advanced, hh, hund, Bool.false_eq_true, if_false, List.append_nil]
  | forget tk hreleased hin =>
    refine Or.inl ?_
    have hh : { s with tapping := none }.handed = s.handed := rfl
    have hund : { s with tapping := none }.undecided = [] := rfl
    simp only [front, advanced, hh, hund, undecided_nil s hreleased.decided, Bool.false_eq_true,
      if_false, List.append_nil]

/-! ### The line -/

omit [DecidableEq K] in
theorem line_eq : s.line = s.front ++ s.behind := rfl

theorem Outcome.line_eq {P : TapHost K H} {r : TapRecord K} {s : TapState K H}
    {e : Examined K H} (h : Outcome P r s e) (hfresh : r.pressed → r.tap.count = 0)
    (back : List (KeyEvent K)) :
    e.state.front ++ back = advanced r s e ++ back ∨
      Spoilt P r s ∧ Twice (advanced r s e ++ back) (e.state.front ++ back) := by
  rcases h.front_eq hfresh with hfront | ⟨hspoilt, x, front, hadvanced, hfront⟩
  · exact Or.inl (by rw [hfront])
  · refine Or.inr ⟨hspoilt, ?_⟩
    rw [hadvanced, hfront, List.append_assoc, List.append_assoc]
    exact Twice.twice x front back

/-- There is no room for a record that has to wait. -/
def overflows (P : TapHost K H) (s : TapState K H) (r : TapRecord K) : Bool :=
  !(s.processTapping P r).consumed &&
    decide (waitingPlaces ≤ (s.processTapping P r).state.waiting.length)

theorem receive_consumed (h : (s.processTapping P r).consumed) :
    s.receive P r = (s.processTapping P r).state := by
  unfold receive
  dsimp only
  rw [if_pos h]

theorem receive_waits (h : (s.processTapping P r).consumed = false)
    (hroom : s.overflows P r = false) :
    s.receive P r =
      { (s.processTapping P r).state with
        waiting := (s.processTapping P r).state.waiting ++ [(s.processTapping P r).record] } := by
  simp only [overflows, h, Bool.not_false, Bool.true_and, decide_eq_false_iff_not, Nat.not_le]
    at hroom
  unfold receive
  dsimp only
  rw [h, if_neg Bool.false_ne_true]
  exact if_pos hroom

omit [DecidableEq K] in
theorem enqueue_full (h : waitingPlaces ≤ s.waiting.length) :
    s.enqueue P r = { s with host := P.clearKeyboard s.host, waiting := [], tapping := none } :=
  if_neg (Nat.not_lt.mpr h)

theorem receive_overflows (h : s.overflows P r) :
    s.receive P r =
      { (s.processTapping P r).state with
        host := P.clearKeyboard (s.processTapping P r).state.host, waiting := [],
        tapping := none } := by
  simp only [overflows, Bool.and_eq_true, Bool.not_eq_true', decide_eq_true_eq] at h
  unfold receive
  dsimp only
  rw [h.1, if_neg Bool.false_ne_true]
  exact enqueue_full P _ _ h.2

theorem receive_arrived (hroom : s.overflows P r = false) :
    (s.receive P r).arrived = s.arrived := by
  have h := (processTapping_outcome P r s).behind_eq.2.2.1
  cases hconsumed : (s.processTapping P r).consumed with
  | true =>
    rw [receive_consumed P r s hconsumed]
    exact h
  | false =>
    rw [receive_waits P r s hconsumed hroom]
    exact h

theorem afterWaiting_arrived (w : TapRecord K) (s : TapState K H) :
    (afterWaiting (s.processTapping P w)).arrived = s.arrived := by
  have h := (processTapping_outcome P w s).behind_eq.2.2.1
  unfold afterWaiting
  cases (s.processTapping P w).consumed with
  | true => exact h
  | false => exact h

theorem receive_parts (hroom : s.overflows P r = false) :
    (s.receive P r).out = (s.processTapping P r).state.out ∧
      (s.receive P r).tapping = (s.processTapping P r).state.tapping ∧
      (s.receive P r).waiting = (s.processTapping P r).state.waiting ++
        if (s.processTapping P r).consumed then [] else [(s.processTapping P r).record] := by
  cases hconsumed : (s.processTapping P r).consumed with
  | true =>
    rw [receive_consumed P r s hconsumed, if_pos rfl, List.append_nil]
    exact ⟨rfl, rfl, rfl⟩
  | false =>
    rw [receive_waits P r s hconsumed hroom, if_neg Bool.false_ne_true]
    exact ⟨rfl, rfl, rfl⟩

omit [DecidableEq K] in
theorem afterWaiting_parts (e : Examined K H) :
    (afterWaiting e).out = e.state.out ∧ (afterWaiting e).tapping = e.state.tapping ∧
      (afterWaiting e).waiting =
        (if e.consumed then [] else [e.record]) ++ e.state.waiting.tail := by
  unfold afterWaiting
  cases e.consumed with
  | true => exact ⟨rfl, rfl, rfl⟩
  | false => exact ⟨rfl, rfl, rfl⟩

theorem receive_now (hroom : s.overflows P r = false) : (s.receive P r).now = s.now := by
  have h := (processTapping_outcome P r s).behind_eq.2.2.2
  cases hconsumed : (s.processTapping P r).consumed with
  | true =>
    rw [receive_consumed P r s hconsumed]
    exact h
  | false =>
    rw [receive_waits P r s hconsumed hroom]
    exact h

theorem afterWaiting_now (w : TapRecord K) (s : TapState K H) :
    (afterWaiting (s.processTapping P w)).now = s.now := by
  have h := (processTapping_outcome P w s).behind_eq.2.2.2
  unfold afterWaiting
  cases (s.processTapping P w).consumed with
  | true => exact h
  | false => exact h

theorem receive_line (hfresh : r.pressed → r.tap.count = 0) (hroom : s.overflows P r = false)
    (may : KeyEvent K → KeyEvent K → Prop) (hmay : (s.processTapping P r).consumed →
      ∀ y ∈ s.undecided ++ s.behind, may r.event y) :
    ∃ l, Passes may r.event (s.line ++ [r.event]) l ∧
      ((s.receive P r).line = l ∨ Spoilt P r s ∧ Twice l (s.receive P r).line) := by
  have h := processTapping_outcome P r s
  rcases h.behind_eq with ⟨hbehind, hevent, _, _⟩
  cases hconsumed : (s.processTapping P r).consumed with
  | true =>
    refine ⟨advanced r s (s.processTapping P r) ++ s.behind, ?_, ?_⟩
    · have hpass := Passes.passes s.handed (s.undecided ++ s.behind) [] (hmay hconsumed)
      simpa only [advanced, line, hconsumed, if_true, List.append_assoc, List.append_nil,
        List.cons_append, List.nil_append] using hpass
    · have hline : (s.receive P r).line = (s.processTapping P r).state.front ++ s.behind := by
        rw [receive_consumed P r s hconsumed, TapState.line_eq, hbehind]
      rw [hline]
      exact h.line_eq hfresh s.behind
  | false =>
    refine ⟨advanced r s (s.processTapping P r) ++ (s.behind ++ [r.event]), ?_, ?_⟩
    · have hpass := @Passes.passes _ may r.event s.line [] [] (by simp)
      simpa only [advanced, line, hconsumed, Bool.false_eq_true, if_false, List.append_assoc,
        List.append_nil, List.cons_append, List.nil_append] using hpass
    · have hline : (s.receive P r).line =
          (s.processTapping P r).state.front ++ (s.behind ++ [r.event]) := by
        rw [receive_waits P r s hconsumed hroom, TapState.line_eq, ← hevent, ← hbehind]
        simp only [behind, List.map_append, List.map_cons, List.map_nil]
        rfl
      rw [hline]
      exact h.line_eq hfresh _

theorem afterWaiting_line (w : TapRecord K) (rest : List (TapRecord K)) (s : TapState K H)
    (hwaiting : s.waiting = w :: rest) (hfresh : w.pressed → w.tap.count = 0)
    (may : KeyEvent K → KeyEvent K → Prop)
    (hmay : (s.processTapping P w).consumed = true → ∀ y ∈ s.undecided, may w.event y) :
    ∃ l, Passes may w.event s.line l ∧
      ((afterWaiting (s.processTapping P w)).line = l ∨
        Spoilt P w s ∧ Twice l (afterWaiting (s.processTapping P w)).line) := by
  have h := processTapping_outcome P w s
  rcases h.behind_eq with ⟨hbehind, hevent, _, _⟩
  have hs : s.behind = w.event :: rest.map TapRecord.event := by
    simp only [behind, hwaiting, List.map_cons]
  have htail : (s.processTapping P w).state.waiting.tail.map TapRecord.event =
      rest.map TapRecord.event := by
    rw [List.map_tail]
    have htail := congrArg List.tail hbehind
    rwa [hs] at htail
  cases hconsumed : (s.processTapping P w).consumed with
  | true =>
    refine ⟨advanced w s (s.processTapping P w) ++ rest.map TapRecord.event, ?_, ?_⟩
    · have hpass := Passes.passes s.handed s.undecided (rest.map TapRecord.event)
        (hmay hconsumed)
      simpa only [advanced, line, hs, hconsumed, if_true, List.append_assoc, List.append_nil,
        List.cons_append, List.nil_append] using hpass
    · have hline : (afterWaiting (s.processTapping P w)).line =
          (s.processTapping P w).state.front ++ rest.map TapRecord.event := by
        rw [afterWaiting, if_pos hconsumed, TapState.line_eq, ← htail]
        rfl
      rw [hline]
      exact h.line_eq hfresh _
  | false =>
    refine ⟨advanced w s (s.processTapping P w) ++ s.behind, ?_, ?_⟩
    · have hpass := @Passes.passes _ may w.event (s.handed ++ s.undecided) []
        (rest.map TapRecord.event) (by simp)
      simpa only [advanced, line, hs, hconsumed, Bool.false_eq_true, if_false,
        List.append_assoc, List.append_nil, List.cons_append, List.nil_append] using hpass
    · have hline : (afterWaiting (s.processTapping P w)).line =
          (s.processTapping P w).state.front ++ s.behind := by
        rw [afterWaiting, hconsumed, if_neg Bool.false_ne_true, TapState.line_eq, hs, ← htail,
          ← hevent]
        rfl
      rw [hline]
      exact h.line_eq hfresh _

omit [DecidableEq K] in
theorem processTick_line (time : BitVec 16) (s : TapState K H) :
    (s.processTick P time).line = s.line ∧ (s.processTick P time).waiting = s.waiting ∧
      (s.processTick P time).arrived = s.arrived := by
  rcases processTick_cases P time s with h | ⟨tk, hundecided, _, h⟩ | ⟨tk, hreleased, _, h⟩
  · rw [h]
    exact ⟨rfl, rfl, rfl⟩
  · rw [h]
    refine ⟨?_, rfl, rfl⟩
    have hh : { (s.handOver P .tappingKey tk).1 with tapping := none }.handed =
        s.handed ++ [tk.event] := handed_handOver_tappingKey P tk s
    have hnone : { (s.handOver P .tappingKey tk).1 with tapping := none }.undecided = [] := rfl
    simp only [line, undecided_of s tk hundecided, hh, hnone, List.append_nil]
    rfl
  · rw [h]
    refine ⟨?_, rfl, rfl⟩
    simp only [line, undecided_nil s hreleased.decided]
    rfl

/-! ### The marks of the waiting records -/

def Unmarked (s : TapState K H) : Prop := ∀ w ∈ s.waiting, w.pressed = true → w.tap.count = 0

omit [DecidableEq K] in
theorem mem_modify (waiting : List (TapRecord K)) (i : Nat) (v : TapRecord K)
    (h : v ∈ waiting.modify i markTap) :
    v ∈ waiting ∨ ∃ w, waiting[i]? = some w ∧ v = markTap w := by
  rcases List.mem_iff_getElem?.mp h with ⟨j, hj⟩
  rw [List.getElem?_modify, Option.map_eq_map, Option.map_eq_some_iff] at hj
  rcases hj with ⟨w, hw, hv⟩
  by_cases hij : i = j
  · rw [if_pos hij] at hv
    exact Or.inr ⟨w, hij ▸ hw, hv.symm⟩
  · rw [if_neg hij] at hv
    exact Or.inl (hv ▸ List.mem_of_getElem? hw)

theorem Outcome.unmarked {P : TapHost K H} {r : TapRecord K} {s : TapState K H}
    {e : Examined K H} (h : Outcome P r s e) (hs : s.Unmarked)
    (hfresh : r.pressed → r.tap.count = 0) :
    e.state.Unmarked ∧ (e.record.pressed → e.record.tap.count = 0) := by
  cases h with
  | pass t hdecided ht hother hin hplain => exact ⟨hs, hfresh⟩
  | slip tk hundecided hin hkey hpressed htyped => exact ⟨hs, hfresh⟩
  | start t hpressed htap hdecided hin ht =>
    refine ⟨?_, hfresh⟩
    have hwaiting := ht.eqs.2.1
    rcases start_cases P r t with hstart | ⟨i, w, hw, _, hrelease, _, _, _, _, hstart⟩
    · rw [hstart]
      intro v hv
      exact hs v (hwaiting ▸ hv)
    · rw [hstart]
      intro v hv hvpressed
      rcases mem_modify t.waiting i v hv with hv | ⟨w', hw', hv⟩
      · exact hs v (hwaiting ▸ hv) hvpressed
      · rw [hv, markTap_pressed, Option.some.inj (hw'.symm.trans hw), hrelease] at hvpressed
        exact Bool.noConfusion hvpressed
  | restart tk hpressed hreleased hin hkey => exact ⟨hs, hfresh⟩
  | sequential tk hpressed hreleased hin hkey hcount halone => exact ⟨hs, hfresh⟩
  | tapRelease tk hpressed htapped hkey => exact ⟨hs, hfresh⟩
  | firstTap tk hpressed hundecided hin hkey =>
    refine ⟨hs, fun hr => ?_⟩
    rw [show r.pressed = true from hr] at hpressed
    exact Bool.noConfusion hpressed
  | settle tk hundecided hwhy => exact ⟨hs, hfresh⟩
  | wait tk t hundecided hin ht hkey => exact ⟨hs, hfresh⟩
  | forget tk hreleased hin => exact ⟨hs, hfresh⟩

theorem receive_unmarked (hs : s.Unmarked) (hfresh : r.pressed → r.tap.count = 0)
    (hroom : s.overflows P r = false) : (s.receive P r).Unmarked := by
  have h := (processTapping_outcome P r s).unmarked hs hfresh
  cases hconsumed : (s.processTapping P r).consumed with
  | true =>
    rw [receive_consumed P r s hconsumed]
    exact h.1
  | false =>
    rw [receive_waits P r s hconsumed hroom]
    intro w hw
    rcases List.mem_append.mp hw with hw | hw
    · exact h.1 w hw
    · rw [List.mem_singleton.mp hw]
      exact h.2

theorem afterWaiting_unmarked (w : TapRecord K) (rest : List (TapRecord K)) (s : TapState K H)
    (hwaiting : s.waiting = w :: rest) (hs : s.Unmarked) :
    (afterWaiting (s.processTapping P w)).Unmarked := by
  have hfresh := hs w (hwaiting ▸ List.mem_cons_self)
  have h := (processTapping_outcome P w s).unmarked hs hfresh
  unfold afterWaiting
  cases (s.processTapping P w).consumed with
  | true =>
    intro v hv
    exact h.1 v (List.mem_of_mem_tail hv)
  | false =>
    intro v hv
    rcases List.mem_cons.mp hv with hv | hv
    · rw [hv]
      exact h.2
    · exact h.1 v (List.mem_of_mem_tail hv)

/-! ### What goes ahead -/

/-- A record is examined as if none were waiting before it. -/
def goesAhead (P : TapHost K H) (s : TapState K H) (r : TapRecord K) : Bool :=
  match s.tapping with
  | none => true
  | some tk => if tk.pressed then tk.tap.count > 0 else s.within P tk r.time

omit [DecidableEq K] in
theorem goesAhead_of_decided (r : TapRecord K) (hdecided : s.Decided)
    (hin : ∀ tk, s.Released tk → s.within P tk r.time) : s.goesAhead P r := by
  unfold goesAhead
  cases htapping : s.tapping with
  | none => rfl
  | some tk =>
    dsimp only
    rcases phases tk s htapping with hphase | hphase | hphase
    · exact absurd hphase (hdecided tk)
    · rw [hphase.2.1, if_pos rfl]
      exact decide_eq_true hphase.2.2
    · rw [hphase.2, if_neg Bool.false_ne_true]
      exact hin tk hphase

theorem Outcome.consumed_cases {P : TapHost K H} {r : TapRecord K} {s : TapState K H}
    {e : Examined K H} (h : Outcome P r s e) (hconsumed : e.consumed) :
    s.undecided = [] ∧ s.goesAhead P r = true ∨
      ∃ tk, s.Undecided tk ∧ s.within P tk r.time = true ∧ r.key ≠ tk.key ∧ r.pressed = false ∧
        s.typed r = false := by
  cases h with
  | pass t hdecided ht hother hin hplain =>
    exact Or.inl ⟨undecided_nil s hdecided,
      goesAhead_of_decided P s r hdecided (fun tk htk => (hin tk htk).1)⟩
  | slip tk hundecided hin hkey hpressed htyped =>
    exact Or.inr ⟨tk, hundecided, hin, hkey, hpressed, htyped⟩
  | start t hpressed htap hdecided hin ht =>
    exact Or.inl ⟨undecided_nil s hdecided,
      goesAhead_of_decided P s r hdecided (fun tk htk => (hin tk htk).1)⟩
  | restart tk hpressed hreleased hin hkey =>
    refine Or.inl ⟨undecided_nil s hreleased.decided, ?_⟩
    simp only [goesAhead, hreleased.1, hreleased.2, Bool.false_eq_true, if_false, hin]
  | sequential tk hpressed hreleased hin hkey hcount halone =>
    refine Or.inl ⟨undecided_nil s hreleased.decided, ?_⟩
    simp only [goesAhead, hreleased.1, hreleased.2, Bool.false_eq_true, if_false, hin]
  | tapRelease tk hpressed htapped hkey =>
    refine Or.inl ⟨undecided_nil s htapped.decided, ?_⟩
    simp only [goesAhead, htapped.1, htapped.2.1, htapped.2.2, if_true, decide_true]
  | firstTap tk hpressed hundecided hin hkey => exact Bool.noConfusion hconsumed
  | settle tk hundecided hwhy => exact Bool.noConfusion hconsumed
  | wait tk t hundecided hin ht hkey => exact Bool.noConfusion hconsumed
  | forget tk hreleased hin => exact Bool.noConfusion hconsumed

theorem typed_eq_false_iff (r : TapRecord K) (hpressed : r.pressed = false) :
    s.typed r = false ↔ ∀ w ∈ s.waiting, w.key = r.key → w.pressed = false := by
  simp only [typed, hpressed, List.any_eq_false, Bool.and_eq_true, decide_eq_true_eq, bne_iff_ne,
    ne_eq, Bool.not_eq_false, not_and, Bool.not_eq_true]

end TapState

end K530
