import K530.Theory.Tapping.Line

/-!
# Each Key in Its Own Order

If no event goes ahead of one of its own key, the events of a key stand in the
line as they have arrived: those handed over first, then the undecided press,
then those that wait. What has been handed over of a key is then the beginning
of what has arrived of it.

An event goes ahead of those that wait if it is consumed. It also does, without
being consumed, if it is the release that makes the undecided key a tap: the key
is handed over for it, whatever else of the key may be waiting.

A key is a parameter of all this, since for some purposes only some keys matter.

## Main definitions

* `slips`: A release passes the undecided key.

## Theorems

* `receive_ownOrder`, `afterWaiting_ownOrder`, `processTick_ownOrder`: They stay
  so.
-/

namespace K530

namespace TapState

open Overtaking

variable {K H : Type} [DecidableEq K]

/-- The undecided key is released in its term. -/
def isFirstTap (P : TapHost K H) (s : TapState K H) (r : TapRecord K) : Bool :=
  match s.tapping with
  | none => false
  | some tk => tk.pressed && tk.tap.count = 0 && r.key = tk.key && !r.pressed &&
      s.within P tk r.time

/-- A release passes the undecided key, as no press of its key waits. -/
def slips (P : TapHost K H) (s : TapState K H) (r : TapRecord K) : Bool :=
  match s.tapping with
  | none => false
  | some tk => tk.pressed && tk.tap.count = 0 && !r.pressed && !s.typed r &&
      s.within P tk r.time

/-- An event goes ahead while one of its own key waits. -/
def cutsIn (P : TapHost K H) (s : TapState K H) (r : TapRecord K) : Bool :=
  s.waiting.any (fun w => w.key = r.key) &&
    (s.goesAhead P r || s.isFirstTap P r || s.slips P r)

variable (P : TapHost K H)

theorem first_of_consumed (s : TapState K H) (r : TapRecord K) (hturn : s.cutsIn P r = false)
    (h : (s.processTapping P r).consumed ∨ s.isFirstTap P r) :
    ∀ w ∈ s.waiting, w.key ≠ r.key := by
  have hahead : (s.goesAhead P r || s.isFirstTap P r || s.slips P r) = true := by
    rcases h with hconsumed | hfirst
    · rcases (processTapping_outcome P r s).consumed_cases hconsumed with
        ⟨_, hahead⟩ | ⟨tk, hundecided, hin, _, hpressed, htyped⟩
      · rw [hahead, Bool.true_or, Bool.true_or]
      · simp only [slips, hundecided.1, hundecided.2.1, hundecided.2.2, hpressed, htyped, hin,
          decide_true, Bool.not_false, Bool.and_true, Bool.or_true]
    · rw [hfirst, Bool.or_true, Bool.true_or]
  simpa only [cutsIn, hahead, Bool.and_true, List.any_eq_false, decide_eq_true_eq] using hturn

structure OwnOrder (Q : K → Prop) (s : TapState K H) : Prop where
  sameOrder : ∀ k, Q k → s.line.filter (fun x => x.key = k) =
    (s.arrived.map TapRecord.event).filter (fun x => x.key = k)
  numbered : s.arrived.map TapRecord.seq = List.range s.arrived.length
  unmarked : s.Unmarked

def OtherKey (Q : K → Prop) (x y : KeyEvent K) : Prop := Q x.key → y.key ≠ x.key

theorem filter_of_passes {Q : K → Prop} {x : KeyEvent K} {before after : List (KeyEvent K)}
    (h : Passes (OtherKey Q) x before after) (k : K) (hk : Q k) :
    after.filter (fun x => x.key = k) = before.filter (fun x => x.key = k) := by
  refine h.filter _ (fun hx y hmay => ?_)
  have hx' : x.key = k := of_decide_eq_true hx
  refine decide_eq_false (fun hy => ?_)
  rw [← hx'] at hk
  exact hmay hk (hy.trans hx'.symm)

variable (Q : K → Prop) (s : TapState K H)

theorem receive_passes (r : TapRecord K) (hfresh : r.pressed → r.tap.count = 0)
    (hroom : s.overflows P r = false) (hturn : Q r.key → s.cutsIn P r = false)
    (hspoilt : ¬ Spoilt P r s) :
    Passes (OtherKey Q) r.event (s.line ++ [r.event]) (s.receive P r).line := by
  have hmay : (s.processTapping P r).consumed →
      ∀ y ∈ s.undecided ++ s.behind, OtherKey Q r.event y := by
    intro hconsumed y hy hQ
    rcases List.mem_append.mp hy with hy | hy
    · rcases (processTapping_outcome P r s).consumed_cases hconsumed with
        ⟨hund, _⟩ | ⟨tk, hundecided, _, hkey, _, _⟩
      · rw [hund] at hy
        exact absurd hy List.not_mem_nil
      · rw [undecided_of _ tk hundecided, List.mem_singleton] at hy
        rw [hy]
        exact fun heq => hkey heq.symm
    · rcases List.mem_map.mp hy with ⟨w, hw, heq⟩
      rw [← heq]
      exact first_of_consumed P s r (hturn hQ) (Or.inl hconsumed) w hw
  rcases receive_line P r s hfresh hroom (OtherKey Q) hmay with ⟨l, hpass, hl⟩
  rw [hl.resolve_right (fun h => hspoilt h.1)]
  exact hpass

theorem afterWaiting_passes (w : TapRecord K) (rest : List (TapRecord K)) (hunmarked : s.Unmarked)
    (hwaiting : s.waiting = w :: rest) (hspoilt : ¬ Spoilt P w s) :
    Passes (OtherKey Q) w.event s.line (afterWaiting (s.processTapping P w)).line := by
  have hmay : (s.processTapping P w).consumed →
      ∀ y ∈ s.undecided, OtherKey Q w.event y := by
    intro hconsumed y hy _
    rcases (processTapping_outcome P w s).consumed_cases hconsumed with
      ⟨hund, _⟩ | ⟨tk, hundecided, _, hkey, _, _⟩
    · rw [hund] at hy
      exact absurd hy List.not_mem_nil
    · rw [undecided_of s tk hundecided, List.mem_singleton] at hy
      rw [hy]
      exact fun heq => hkey heq.symm
  rcases afterWaiting_line P w rest s hwaiting (hunmarked w (hwaiting ▸ List.mem_cons_self))
    (OtherKey Q) hmay with ⟨l, hpass, hl⟩
  rw [hl.resolve_right (fun h => hspoilt h.1)]
  exact hpass

theorem receive_ownOrder (key : K) (pressed : Bool) (now : Nat) (hs : s.OwnOrder Q)
    (hroom : (s.arrive P (s.record key pressed now)).overflows P (s.record key pressed now) = false)
    (hturn : Q key →
      (s.arrive P (s.record key pressed now)).cutsIn P (s.record key pressed now) = false)
    (hspoilt : ¬ Spoilt P (s.record key pressed now) (s.arrive P (s.record key pressed now))) :
    ((s.arrive P (s.record key pressed now)).receive P (s.record key pressed now)).OwnOrder Q := by
  let r := s.record key pressed now
  have harrived : ((s.arrive P r).receive P r).arrived = s.arrived ++ [r] :=
    receive_arrived P r (s.arrive P r) hroom
  have hpass := receive_passes P Q (s.arrive P r) r (fun _ => rfl) hroom hturn hspoilt
  refine ⟨fun k hk => ?_, ?_,
    receive_unmarked P r (s.arrive P r) hs.unmarked (fun _ => rfl) hroom⟩
  · rw [filter_of_passes hpass k hk, harrived, List.map_append, List.filter_append,
      List.filter_append, ← hs.sameOrder k hk]
    rfl
  · rw [harrived, List.map_append, List.length_append, List.length_singleton, List.range_succ,
      hs.numbered]
    rfl

theorem afterWaiting_ownOrder (w : TapRecord K) (rest : List (TapRecord K)) (hs : s.OwnOrder Q)
    (hwaiting : s.waiting = w :: rest) (hspoilt : ¬ Spoilt P w s) :
    (afterWaiting (s.processTapping P w)).OwnOrder Q := by
  have hpass := afterWaiting_passes P Q s w rest hs.unmarked hwaiting hspoilt
  refine ⟨fun k hk => ?_, ?_, afterWaiting_unmarked P w rest s hwaiting hs.unmarked⟩
  · rw [filter_of_passes hpass k hk, afterWaiting_arrived]
    exact hs.sameOrder k hk
  · rw [afterWaiting_arrived]
    exact hs.numbered

theorem processTick_ownOrder (now : Nat) (hs : s.OwnOrder Q) :
    ({ s with now := eventMs now }.processTick P (eventTime now)).OwnOrder Q := by
  rcases processTick_line P (eventTime now) { s with now := eventMs now } with
    ⟨hline, hwaiting, harrived⟩
  refine ⟨fun k hk => ?_, ?_, ?_⟩
  · rw [hline, harrived]
    exact hs.sameOrder k hk
  · rw [harrived]
    exact hs.numbered
  · unfold Unmarked
    rw [hwaiting]
    exact hs.unmarked

theorem init_ownOrder (host : H) : (init (K := K) host).OwnOrder Q :=
  ⟨fun _ _ => rfl, rfl, fun _ hw => absurd hw List.not_mem_nil⟩

end TapState

end K530
