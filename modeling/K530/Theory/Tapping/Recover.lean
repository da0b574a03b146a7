import K530.Theory.Tapping.Effects
import K530.Theory.Tapping.Paired

/-!
# After an Overflow

When an event finds the waiting buffer full, the keyboard is cleared and the
tapping key and all that wait are forgotten. The keys and modifiers that have
been handed over are off then. The layers are not: a layer that is on is turned
off by the release of its key, and if that release was one of those forgotten it
stays on for good. This is the one thing an overflow leaves behind.

Otherwise the keyboard comes to rest. What is on is supported by keys that are
held, and the press of a key that is held is the last event of the key, or the
events that follow it still wait. So when the keys have been released and nothing
waits, nothing is on. And nothing waits after enough ticks: one that finds the
term of the tapping key over lets at least one event through.

## Main definitions

* `pendingOf`: The events of a key that have not been handed over.

## Theorems

* `recovers`: The keyboard comes to rest if no layer is stranded, no event cuts
  in and no release is missed.
* `recovers_broken`: A layer-tap key and seven others.
-/

namespace K530

namespace TapState

open StepRun Overtaking

variable {K H : Type} [DecidableEq K]

/-! ### What is left to be decided -/

omit [DecidableEq K] in
def load (s : TapState K H) : Nat := 2 * s.waiting.length + s.undecided.length

omit [DecidableEq K] in
theorem undecided_length_le (s : TapState K H) : s.undecided.length ≤ 1 := by
  unfold undecided
  split
  · exact Nat.zero_le 1
  · split
    · exact Nat.le_refl 1
    · exact Nat.zero_le 1

theorem Outcome.undecided_length_le {P : TapHost K H} {r : TapRecord K} {s : TapState K H}
    {e : Examined K H} (h : Outcome P r s e) (hconsumed : e.consumed = false) :
    e.state.undecided.length ≤ s.undecided.length := by
  have hone : ∀ tk, s.Undecided tk → e.state.undecided.length ≤ s.undecided.length := by
    intro tk hundecided
    rw [undecided_of s tk hundecided]
    exact e.state.undecided_length_le
  cases h with
  | pass t hdecided ht hother hin hplain => exact Bool.noConfusion hconsumed
  | slip tk hundecided hin hkey hpressed htyped => exact Bool.noConfusion hconsumed
  | start t hpressed htap hdecided hin ht => exact Bool.noConfusion hconsumed
  | restart tk hpressed hreleased hin hkey => exact Bool.noConfusion hconsumed
  | sequential tk hpressed hreleased hin hkey hcount halone => exact Bool.noConfusion hconsumed
  | tapRelease tk hpressed htapped hkey => exact Bool.noConfusion hconsumed
  | firstTap tk hpressed hundecided hin hkey => exact hone tk hundecided
  | settle tk hundecided hwhy => exact hone tk hundecided
  | wait tk t hundecided hin ht hkey => exact hone tk hundecided
  | forget tk hreleased hin => exact Nat.zero_le _

theorem Outcome.consumed_of {P : TapHost K H} {r : TapRecord K} {s : TapState K H}
    {e : Examined K H} (h : Outcome P r s e) (hdecided : s.Decided)
    (hreleased : ∀ tk, ¬ s.Released tk) : e.consumed := by
  cases h with
  | pass t hdecided ht hother hin hplain => rfl
  | slip tk hundecided hin hkey hpressed htyped => rfl
  | start t hpressed htap hdecided hin ht => rfl
  | restart tk hpressed hreleased hin hkey => rfl
  | sequential tk hpressed hreleased hin hkey hcount halone => rfl
  | tapRelease tk hpressed htapped hkey => rfl
  | firstTap tk hpressed hundecided hin hkey => exact absurd hundecided (hdecided tk)
  | settle tk hundecided hwhy => exact absurd hundecided (hdecided tk)
  | wait tk t hundecided hin ht hkey => exact absurd hundecided (hdecided tk)
  | forget tk hrel hin => exact absurd hrel (hreleased tk)

variable (P : TapHost K H)

theorem afterWaiting_load (s : TapState K H) (w : TapRecord K) (rest : List (TapRecord K))
    (hwaiting : s.waiting = w :: rest) :
    (afterWaiting (s.processTapping P w)).load +
      (if (s.processTapping P w).consumed then 1 else 0) ≤ s.load := by
  have h := processTapping_outcome P w s
  have hlength : (s.processTapping P w).state.waiting.length = rest.length + 1 := by
    have hbehind := congrArg List.length h.behind_eq.1
    simpa only [behind, List.length_map, hwaiting, List.length_cons] using hbehind
  have hund : (afterWaiting (s.processTapping P w)).undecided.length =
      (s.processTapping P w).state.undecided.length := by
    -- the loop only takes the event out, and the tapping key stays
    rw [undecided, undecided, (afterWaiting_parts (s.processTapping P w)).2.1]
  rw [load, load, hund, (afterWaiting_parts (s.processTapping P w)).2.2, hwaiting,
    List.length_append, List.length_tail, hlength, List.length_cons]
  cases hconsumed : (s.processTapping P w).consumed with
  | true =>
    -- two go for the event, and one may come for a press that is now undecided
    have hle := (s.processTapping P w).state.undecided_length_le
    simp only [if_true, List.length_nil]
    omega
  | false =>
    -- the event goes back, and no press has become undecided
    have hle := h.undecided_length_le hconsumed
    simp only [Bool.false_eq_true, if_false, List.length_singleton]
    omega

theorem drain_load (turns : Nat) (s : TapState K H) : (s.drain P turns).load ≤ s.load := by
  refine drain_invariant P (fun _ _ => True) (fun t => t.load ≤ s.load) ?_ turns s
    (Nat.le_refl _) (drainAlong_of_forall P _ (fun _ _ => trivial) turns s)
  intro t w rest ht hwaiting _
  exact Nat.le_trans (Nat.le_trans (Nat.le_add_right _ _) (afterWaiting_load P t w rest hwaiting))
    ht

theorem drain_lowers (s : TapState K H) (hdecided : s.Decided) (hreleased : ∀ tk, ¬ s.Released tk) :
    (s.drain P s.waiting.length).load ≤ s.load - 1 := by
  cases hwaiting : s.waiting with
  | nil =>
    have hzero : s.load = 0 := by
      rw [load, hwaiting, undecided_nil s hdecided]
      rfl
    rw [List.length_nil, drain, hzero]
  | cons w rest =>
    -- the first turn consumes its event, and the turns after it add nothing
    have hconsumed := (processTapping_outcome P w s).consumed_of hdecided hreleased
    have hload := afterWaiting_load P s w rest hwaiting
    have hrest := drain_load P rest.length (afterWaiting (s.processTapping P w))
    rw [hconsumed, if_pos rfl] at hload
    rw [List.length_cons, drain, hwaiting]
    dsimp only
    rw [if_pos hconsumed]
    rw [show afterWaiting (s.processTapping P w) = _ from if_pos hconsumed] at hload hrest
    exact Nat.le_sub_one_of_lt (Nat.lt_of_le_of_lt hrest hload)

omit [DecidableEq K] in
/-- The term of the tapping key is over. -/
def isPast (P : TapHost K H) (time : BitVec 16) (s : TapState K H) : Bool :=
  match s.tapping with
  | none => true
  | some tk => !s.within P tk time

omit [DecidableEq K] in
theorem processTick_past (time : BitVec 16) (s : TapState K H) (h : s.isPast P time) :
    (s.processTick P time).Decided ∧ (∀ tk, ¬ (s.processTick P time).Released tk) ∧
      (s.processTick P time).load ≤ s.load := by
  have hforgotten : ∀ t : TapState K H, t.tapping = none → t.waiting = s.waiting →
      t.Decided ∧ (∀ tk, ¬ t.Released tk) ∧ t.load ≤ s.load := by
    intro t hnone hwaiting
    have hdecided : t.Decided := fun tk htk => nomatch hnone.symm.trans htk.1
    refine ⟨hdecided, fun tk htk => (nomatch hnone.symm.trans htk.1), ?_⟩
    rw [load, load, undecided_nil t hdecided, hwaiting]
    exact Nat.le_add_right _ _
  rcases processTick_cases P time s with htick | ⟨tk, _, _, htick⟩ | ⟨tk, _, _, htick⟩
  · -- only a tap stays the tapping key
    have hnot : ∀ tk, s.tapping = some tk → s.Tapped tk := by
      intro tk htapping
      have hout : s.within P tk time = false := by
        simpa only [isPast, htapping, Bool.not_eq_true'] using h
      have hkept := congrArg TapState.tapping htick
      rcases phases tk s htapping with hphase | hphase | hphase
      · rw [processTick, htapping] at hkept
        simp [hout, hphase.2.1, hphase.2.2] at hkept
      · exact hphase
      · rw [processTick, htapping] at hkept
        simp [hout, hphase.2] at hkept
    rw [htick]
    refine ⟨fun tk htk => (hnot tk htk.1).decided tk htk, fun tk htk => ?_, Nat.le_refl _⟩
    exact Bool.noConfusion (htk.2.symm.trans (hnot tk htk.1).2.1)
  · rw [htick]
    exact hforgotten _ rfl rfl
  · rw [htick]
    exact hforgotten _ rfl rfl

omit [DecidableEq K] in
theorem processTick_load (time : BitVec 16) (s : TapState K H) :
    (s.processTick P time).load ≤ s.load := by
  rcases processTick_cases P time s with h | ⟨tk, _, _, h⟩ | ⟨tk, _, _, h⟩
  · rw [h]
  · rw [h]
    exact Nat.le_add_right _ _
  · rw [h]
    exact Nat.le_add_right _ _

theorem tick_load (now : Nat) (s : TapState K H) :
    (s.actionExec P (.tick now)).load ≤
      s.load - if s.isPast P (eventTime now) then 1 else 0 := by
  let t : TapState K H := { s with now := eventMs now }
  change ((t.processTick P (eventTime now)).drain P
    (t.processTick P (eventTime now)).waiting.length).load ≤ _
  cases hpast : s.isPast P (eventTime now) with
  | true =>
    rcases processTick_past P (eventTime now) t hpast with ⟨hdecided, hreleased, hload⟩
    have hdrain := drain_lowers P (t.processTick P (eventTime now)) hdecided hreleased
    have hsame : t.load = s.load := rfl
    rw [if_pos rfl]
    omega
  | false =>
    rw [if_neg Bool.false_ne_true]
    exact Nat.le_trans (drain_load P _ _) (processTick_load P (eventTime now) t)

/-- How many ticks of a run find the term over. -/
def ticksPast (P : TapHost K H) : TapState K H → List (TapInput K) → Nat
  | _, [] => 0
  | s, .tick now :: inputs =>
    (if s.isPast P (eventTime now) then 1 else 0) +
      ticksPast P (s.actionExec P (.tick now)) inputs
  | s, .key key pressed now :: inputs =>
    ticksPast P (s.actionExec P (.key key pressed now)) inputs

theorem ticks_load (ticks : List (TapInput K))
    (hticks : ∀ input ∈ ticks, ∃ now, input = .tick now) :
    ∀ s : TapState K H, (run (actionExec P) s ticks).load ≤ s.load - ticksPast P s ticks := by
  induction ticks with
  | nil =>
    intro s
    exact Nat.le_refl _
  | cons input ticks ih =>
    intro s
    rcases hticks input List.mem_cons_self with ⟨now, rfl⟩
    have hrest := ih (fun input hi => hticks input (List.mem_cons_of_mem _ hi))
      (s.actionExec P (.tick now))
    have hone := tick_load P now s
    rw [run_cons, ticksPast]
    omega

/-! ### The events of a key -/

def pendingOf (s : TapState K H) (k : K) : List Bool :=
  ((s.undecided ++ s.behind).filter (fun x => x.key = k)).map KeyEvent.pressed

/-- All keys have been released. -/
def AllUp (s : TapState K H) : Prop := ∀ r ∈ s.arrived, (s.pressesOf r.key).getLast? ≠ some true

instance (s : TapState K H) : Decidable s.AllUp :=
  inferInstanceAs (Decidable (∀ r ∈ s.arrived, (s.pressesOf r.key).getLast? ≠ some true))

def eventsOf (k : K) (new : List (Handed K)) : List Bool :=
  (((new.filter Handed.isPhysical).map (fun h => h.record.event)).filter
    (fun x => x.key = k)).map KeyEvent.pressed

theorem eventsOf_append (k : K) (xs ys : List (Handed K)) :
    eventsOf k (xs ++ ys) = eventsOf k xs ++ eventsOf k ys := by
  simp only [eventsOf, List.filter_append, List.map_append]

theorem eventsOf_one_other (k : K) (g : Handed K) (hk : g.record.key ≠ k) :
    eventsOf k [g] = [] := by
  unfold eventsOf
  rw [List.map_eq_nil_iff, List.filter_eq_nil_iff]
  intro x hx
  rcases List.mem_map.mp hx with ⟨g', hg', heq⟩
  rw [← heq, List.mem_singleton.mp (List.mem_of_mem_filter hg'), decide_eq_true_eq]
  exact hk

theorem eventsOf_one_self (g : Handed K) (hg : g.isPhysical) :
    eventsOf g.record.key [g] = [g.record.pressed] := by
  have hkey : decide (g.record.event.key = g.record.key) = true := decide_eq_true rfl
  simp only [eventsOf, List.filter_cons, hg, if_true, List.filter_nil, List.map_cons, List.map_nil,
    hkey]
  rfl

theorem events_pending {s t : TapState K H} {new : List (Handed K)} {more : List (KeyEvent K)}
    (hout : t.out = s.out ++ new) (k : K)
    (hline : t.line.filter (fun x => x.key = k) = (s.line ++ more).filter (fun x => x.key = k)) :
    eventsOf k new ++ t.pendingOf k =
      s.pendingOf k ++ (more.filter (fun x => x.key = k)).map KeyEvent.pressed := by
  have hhanded : t.handed = s.handed ++
      (new.filter Handed.isPhysical).map (fun h => h.record.event) := by
    simp only [handed, hout, List.filter_append, List.map_append]
  simp only [line, hhanded, List.filter_append, List.append_assoc, List.append_cancel_left_eq]
    at hline
  simp only [eventsOf, pendingOf, List.filter_append, ← List.map_append, hline, List.append_assoc]

theorem held_of_handed (k : K) (held : Option Bool) (new : List (Handed K))
    (hkinds : ∀ g ∈ new, g.isPhysical ∨ g.record.pressed = false)
    (hheld : heldAfter held (strokesOf k new) ≠ none) :
    strokesOf k new = [] ∧ eventsOf k new = [] ∨ ∃ before, eventsOf k new = before ++ [true] := by
  induction new using List.reverseRecOn with
  | nil => exact Or.inl ⟨rfl, rfl⟩
  | append_singleton new g ih =>
    rw [strokesOf_append, heldAfter_append] at hheld
    rw [strokesOf_append, eventsOf_append]
    by_cases hk : g.record.key = k
    · subst hk
      rw [strokesOf_cons_self g []] at hheld
      cases hpressed : g.record.pressed with
      | true =>
        -- a press is an event of the key, for only releases are made up
        have hphysical := (hkinds g (List.mem_append_right _ List.mem_cons_self)).resolve_right
          (fun h => Bool.noConfusion (hpressed.symm.trans h))
        refine Or.inr ⟨eventsOf g.record.key new, ?_⟩
        rw [eventsOf_one_self g hphysical, hpressed]
      | false =>
        -- the last record is a release, which lets go of the key
        refine absurd ?_ hheld
        simp only [strokesOf_nil, heldAfter, Stroke.holding, TapRecord.stroke, hpressed,
          Bool.false_eq_true, if_false]
    · rw [strokesOf_cons_other k g [] hk, strokesOf_nil, heldAfter] at hheld
      rw [strokesOf_cons_other k g [] hk, eventsOf_one_other k g hk, strokesOf_nil,
        List.append_nil, List.append_nil]
      exact ih (fun g hg => hkinds g (List.mem_append_left _ hg)) hheld

/-- What is pending is the end of what has arrived, and the press of a key that is
    held comes before it. -/
structure Accounted (s : TapState K H) (held : K → Option Bool) (k : K) : Prop where
  pending : s.pendingOf k <:+ s.pressesOf k
  down : held k ≠ none → (true :: s.pendingOf k) <:+ s.pressesOf k

theorem Accounted.handed {s t : TapState K H} {held : K → Option Bool} {k : K}
    (h : s.Accounted held k) {new : List (Handed K)} (more : List (KeyEvent K))
    (hout : t.out = s.out ++ new)
    (hkinds : ∀ g ∈ new, g.isPhysical ∨ g.record.pressed = false)
    (hline : t.line.filter (fun x => x.key = k) = (s.line ++ more).filter (fun x => x.key = k))
    (hpresses : t.pressesOf k =
      s.pressesOf k ++ (more.filter (fun x => x.key = k)).map KeyEvent.pressed) :
    t.Accounted (heldWith held new) k := by
  have hevents := events_pending hout k hline
  rcases h.pending with ⟨front, hfront⟩
  -- what had arrived before what was pending has still arrived before it
  have hsuffix : eventsOf k new ++ t.pendingOf k <:+ t.pressesOf k := by
    refine ⟨front, ?_⟩
    rw [hevents, hpresses, ← hfront, List.append_assoc]
  refine ⟨(List.suffix_append _ _).trans hsuffix, fun hheld => ?_⟩
  rcases held_of_handed k (held k) new hkinds hheld with ⟨hstrokes, hnone⟩ | ⟨before, hlast⟩
  · -- nothing of the key has been handed over
    have hbefore : held k ≠ none := by
      intro hk
      refine hheld ?_
      rw [heldWith, hstrokes, hk]
      rfl
    rcases h.down hbefore with ⟨rest, hrest⟩
    rw [hnone, List.nil_append] at hevents
    refine ⟨rest, ?_⟩
    rw [hpresses, ← hrest, hevents, List.append_assoc, List.cons_append]
  · refine List.IsSuffix.trans ⟨before, ?_⟩ hsuffix
    rw [hlast, List.append_assoc]
    rfl

theorem not_held_of_press {presses : List Bool} (halternate : alternates true presses)
    (rest : List Bool) : ¬ (true :: true :: rest) <:+ presses := by
  rintro ⟨before, heq⟩
  rw [← heq] at halternate
  exact Bool.noConfusion (alternates_next true true true before rest halternate)

end TapState

namespace OrdinaryKeymap

open StepRun TapState

/-! ### Layers -/

/-- The layer a key turns on that has been pressed in a class. -/
def turnsOn (m : OrdinaryKeymap) (key : KeyPos) (tapped : Bool) (q : Qmk) : Option Nat :=
  (m.heldAction key q).bind (Action.turnsOn tapped)

/-- A key that is up has turned a layer on, and its release has not been handed
    over. -/
def dangles (m : OrdinaryKeymap) (s : TapState KeyPos Qmk) (key : KeyPos) : Bool :=
  match s.heldOf key with
  | none => false
  | some tapped => (m.turnsOn key tapped s.host).isSome && (s.pressesOf key).getLast? != some true

/-- The event overflows, and with it the release of a key that has turned a layer
    on is forgotten. -/
def strands (m : OrdinaryKeymap) (P : TapHost KeyPos Qmk) (s : TapState KeyPos Qmk)
    (r : TapRecord KeyPos) : Bool :=
  s.overflows P r &&
    (s.processTapping P r).state.out.any
      (fun g => m.dangles (s.processTapping P r).state g.record.key)

def Recorded (m : OrdinaryKeymap) (s : TapState KeyPos Qmk) (held : KeyPos → Option Bool) : Prop :=
  ∀ key tapped, held key = some tapped →
    ∃ was, s.heldOf key = some was ∧ m.turnsOn key was s.host = m.turnsOn key tapped s.host

/-- The invariant. The classes of the keys that are held are known from what has
    been handed over, except that an overflow has released some. -/
structure Tracked (m : OrdinaryKeymap) (s : TapState KeyPos Qmk) (held : KeyPos → Option Bool) :
    Prop where
  lanes : ∀ key, (laneOf held s.tapping s.waiting key).Sound
  supported : m.Supported held s.host
  recorded : m.Recorded s held
  alternate : ∀ key, alternates true (s.pressesOf key) = true
  accounted : ∀ key, s.Accounted held key
  unmarked : s.Unmarked
  few : s.waiting.length ≤ waitingPlaces

variable (m : OrdinaryKeymap) (term : Nat)

theorem handed_supported {s t : TapState KeyPos Qmk} {held : KeyPos → Option Bool}
    {waiting waiting' : List (TapRecord KeyPos)} {tapping' : Option (TapRecord KeyPos)}
    {new : List (Handed KeyPos)} (hlanes : ∀ key, (laneOf held s.tapping waiting key).Sound)
    (hsupported : m.Supported held s.host) (hrecorded : m.Recorded s held)
    (hnew : HandedOver (m.host term) s t new)
    (hturn : ∀ key, Turn (laneOf held s.tapping waiting key) (strokesOf key new)
      (laneOf (heldWith held new) tapping' waiting' key)) :
    (∀ key, (laneOf (heldWith held new) tapping' waiting' key).Sound) ∧
      m.Supported (heldWith held new) t.host ∧ m.Recorded t (heldWith held new) := by
  have hsound := fun key => (hturn key).sound (hlanes key)
  refine ⟨fun key => (hsound key).1, ?_, fun key tapped hheld => ?_⟩
  · rw [hnew.host]
    exact hsupported.processAll term new (fun key => (hsound key).2.1)
  · rw [heldOf_append new hnew.out]
    by_cases hnone : strokesOf key new = []
    · -- nothing of the key is handed over, and it is remembered as before
      rw [heldWith, hnone] at hheld
      rcases hrecorded key tapped hheld with ⟨was, hwas, hsame⟩
      have haction := m.heldAction_processAll term key new s.host hsupported.settled
        hsupported.weakMods hnone
      refine ⟨was, ?_, ?_⟩
      · rw [heldWith, hnone]
        exact hwas
      · rw [turnsOn, turnsOn, hnew.host, haction]
        exact hsame
    · -- the last stroke alone decides, whatever came before
      refine ⟨tapped, ?_, rfl⟩
      have hsame : ∀ a b : Option Bool, heldAfter a (strokesOf key new) =
          heldAfter b (strokesOf key new) := by
        intro a b
        cases hcase : strokesOf key new with
        | nil => exact absurd hcase hnone
        | cons x xs => rfl
      rw [heldWith, hsame _ (held key)]
      exact hheld

theorem host_not_spoilt (r : TapRecord KeyPos) (s : TapState KeyPos Qmk) :
    ¬ Spoilt (m.host term) r s :=
  not_spoilt (m.host term) (fun _ _ => rfl) r s

theorem clearWeakMods_host (q : Qmk) (h : q.usb.weakMods = 0) :
    (m.host term).clearWeakMods q = q := by
  change { q with usb := { q.usb with weakMods := 0 } } = q
  rw [← h]

def stillHeld (m : OrdinaryKeymap) (held : KeyPos → Option Bool) (q : Qmk) (key : KeyPos) :
    Option Bool :=
  (held key).bind (fun tapped => (m.turnsOn key tapped q).map (fun _ => false))

theorem stillHeld_cases (held : KeyPos → Option Bool) (q : Qmk) (key : KeyPos) (tapped : Bool)
    (h : m.stillHeld held q key = some tapped) :
    tapped = false ∧ ∃ before n, held key = some before ∧ m.turnsOn key before q = some n ∧
      m.turnsOn key false q = some n := by
  rcases Option.bind_eq_some_iff.mp h with ⟨before, hbefore, hmap⟩
  rcases Option.map_eq_some_iff.mp hmap with ⟨n, hn, hfalse⟩
  refine ⟨hfalse.symm, before, n, hbefore, hn, ?_⟩
  rcases Option.bind_eq_some_iff.mp hn with ⟨a, ha, hturns⟩
  exact Option.bind_eq_some_iff.mpr ⟨a, ha, a.turnsOn_held before n hturns⟩

theorem overflow_supported (held : KeyPos → Option Bool) (q : Qmk) (h : m.Supported held q) :
    m.Supported (m.stillHeld held q) (q.onUsb Usb.clearKeyboard) := by
  have hspec := Usb.clearKeyboard_spec q.usb h.settled
  refine ⟨hspec.settled, hspec.weakMods, fun e he => ?_⟩
  cases e with
  | key code => exact absurd ((hspec.keys code).mp he) (fun h => h)
  | realMod code =>
    -- the keyboard has been cleared, so only a layer can be on
    have hbit : hasMod q.usb.clearKeyboard.realMods code := he.2
    rw [hspec.realMods, show hasMod 0 code = false from BitVec.getLsbD_zero] at hbit
    exact Bool.noConfusion hbit
  | layer n =>
    rcases h.effects (.layer n) he with ⟨key, tapped, hheld, a, ha, hdoes⟩
    have hturns : m.turnsOn key tapped q = some n := by
      rw [turnsOn, ha]
      exact hdoes
    refine ⟨key, false, ?_, a, ha, a.turnsOn_held tapped n hdoes⟩
    rw [stillHeld, hheld, Option.bind_some, hturns]
    rfl

/-! ### Steps -/

theorem receive_host {P : TapHost KeyPos Qmk} {r : TapRecord KeyPos} {s : TapState KeyPos Qmk}
    (hroom : s.overflows P r = false) :
    (s.receive P r).host = (s.processTapping P r).state.host := by
  cases hconsumed : (s.processTapping P r).consumed with
  | true => rw [receive_consumed P r s hconsumed]
  | false => rw [receive_waits P r s hconsumed hroom]

theorem receive_few {P : TapHost KeyPos Qmk} {r : TapRecord KeyPos} {s : TapState KeyPos Qmk}
    (hroom : s.overflows P r = false) (h : s.waiting.length ≤ waitingPlaces) :
    (s.receive P r).waiting.length ≤ waitingPlaces := by
  have hlength := congrArg List.length (processTapping_outcome P r s).behind_eq.1
  simp only [behind, List.length_map] at hlength
  cases hconsumed : (s.processTapping P r).consumed with
  | true =>
    rw [receive_consumed P r s hconsumed, hlength]
    exact h
  | false =>
    rw [receive_waits P r s hconsumed hroom, List.length_append, List.length_singleton]
    simp only [overflows, hconsumed, Bool.not_false, Bool.true_and, decide_eq_false_iff_not,
      Nat.not_le] at hroom
    exact hroom

theorem pressesOf_arrive_event (P : TapHost KeyPos Qmk) (s : TapState KeyPos Qmk)
    (r : TapRecord KeyPos) (key : KeyPos) :
    (s.arrive P r).pressesOf key =
      s.pressesOf key ++ ([r.event].filter (fun x => x.key = key)).map KeyEvent.pressed := by
  rw [pressesOf_arrive]
  by_cases hk : r.key = key
  · rw [if_pos hk, List.filter_cons, decide_eq_true (show r.event.key = key from hk), if_pos rfl]
    rfl
  · rw [if_neg hk, List.filter_cons, decide_eq_false (show r.event.key ≠ key from hk),
      if_neg Bool.false_ne_true]
    rfl

theorem Tracked.ready_arriving {m : OrdinaryKeymap} {s : TapState KeyPos Qmk}
    {held : KeyPos → Option Bool} (hs : m.Tracked s held) (term : Nat) (key : KeyPos)
    (pressed : Bool) (now : Nat)
    (halternate : alternates true
      ((s.arrive (m.host term) (s.record key pressed now)).pressesOf key))
    (hcut : (s.arrive (m.host term) (s.record key pressed now)).cutsIn (m.host term)
      (s.record key pressed now) = false) :
    Ready (m.host term) held (s.record key pressed now)
      (s.arrive (m.host term) (s.record key pressed now))
      ((s.arrive (m.host term) (s.record key pressed now)).processTapping (m.host term)
        (s.record key pressed now)) s.waiting [] := by
  let r := s.record key pressed now
  let t := s.arrive (m.host term) r
  refine ⟨fun _ => rfl, sound_arriving held s.tapping s.waiting r rfl hs.lanes,
    first_of_consumed (m.host term) t r hcut, ?_, m.host_not_spoilt term r t, ?_⟩
  · intro hfirst hpressed hdecided
    by_contra hheld
    -- were the key held, its press would come right before this one
    have hnone : s.pendingOf key = [] := by
      have hund : s.undecided = [] := undecided_nil t hdecided
      rw [pendingOf, hund, List.nil_append, List.map_eq_nil_iff, List.filter_eq_nil_iff]
      intro y hy
      rcases List.mem_map.mp hy with ⟨w, hw, heq⟩
      rw [← heq, decide_eq_true_eq]
      exact hfirst w hw
    rcases (hs.accounted key).down hheld with ⟨before, hbefore⟩
    refine not_held_of_press halternate [] ⟨before, ?_⟩
    rw [pressesOf_arrive, if_pos (show (s.record key pressed now).key = key from rfl), ← hbefore,
      hnone,
      show (s.record key pressed now).pressed = true from hpressed, List.append_assoc]
    rfl
  · intro hfirst _ _ _ u i w hcleared hw hkey _ _ _
    rw [hcleared.eqs.2.1] at hw
    exact absurd hkey (hfirst w (List.mem_of_getElem? hw))

theorem pressed_of_kept {m : OrdinaryKeymap} {s : TapState KeyPos Qmk} {key : KeyPos} {was : Bool}
    (hkept : s.out.any (fun g => m.dangles s g.record.key) = false)
    (hheld : s.heldOf key = some was) (hturns : (m.turnsOn key was s.host).isSome) :
    [true] <:+ s.pressesOf key := by
  have hmem : ∃ g ∈ s.out, g.record.key = key := by
    by_contra hnone
    -- a key of which nothing has been handed over is held in no class
    have hstrokes : strokesOf key s.out = [] := by
      rw [strokesOf, List.map_eq_nil_iff, List.filter_eq_nil_iff]
      intro g hg
      rw [decide_eq_true_eq]
      exact fun hkey => hnone ⟨g, hg, hkey⟩
    rw [heldOf, heldWith, hstrokes] at hheld
    cases hheld
  rcases hmem with ⟨g, hg, rfl⟩
  have hnot := Bool.eq_false_of_not_eq_true (List.any_eq_false.mp hkept g hg)
  simp only [dangles, hheld, hturns, Bool.true_and, bne_eq_false_iff_eq] at hnot
  rcases List.getLast?_eq_some_iff.mp hnot with ⟨before, hbefore⟩
  exact ⟨before, hbefore.symm⟩

theorem overflow_tracked {s : TapState KeyPos Qmk} {held : KeyPos → Option Bool}
    (hsupported : m.Supported held s.host) (hrecorded : m.Recorded s held)
    (halternate : ∀ key, alternates true (s.pressesOf key))
    (hkept : s.out.any (fun g => m.dangles s g.record.key) = false) :
    ∃ held', m.Tracked
      { s with host := s.host.onUsb Usb.clearKeyboard, waiting := [], tapping := none } held' := by
  refine ⟨m.stillHeld held s.host, fun key => ?_, m.overflow_supported held s.host hsupported,
    fun key tapped hheld => ?_, halternate, fun key => ⟨List.nil_suffix, fun hheld => ?_⟩,
    fun w hw => absurd hw List.not_mem_nil, Nat.zero_le _⟩
  · cases hheld : m.stillHeld held s.host key with
    | none => exact Lane.sound_of_none hheld rfl (fun _ hm => absurd hm List.not_mem_nil)
    | some tapped =>
      obtain rfl := (m.stillHeld_cases held s.host key tapped hheld).1
      exact Lane.sound_of_held hheld rfl rfl (fun _ hm => absurd hm List.not_mem_nil)
  · rcases m.stillHeld_cases held s.host key tapped hheld with
      ⟨rfl, before, n, hbefore, hn, hfalse⟩
    rcases hrecorded key before hbefore with ⟨was, hwas, hsame⟩
    exact ⟨was, hwas, (hsame.trans hn).trans hfalse.symm⟩
  · rcases Option.ne_none_iff_exists'.mp hheld with ⟨tapped, hheld⟩
    rcases m.stillHeld_cases held s.host key tapped hheld with ⟨_, before, n, hbefore, hn, _⟩
    rcases hrecorded key before hbefore with ⟨was, hwas, hsame⟩
    have hsome : (m.turnsOn key was s.host).isSome := by
      rw [hsame, hn]
      rfl
    exact pressed_of_kept (s := s) hkept hwas hsome

variable (s : TapState KeyPos Qmk)

theorem receive_tracked (held : KeyPos → Option Bool) (key : KeyPos) (pressed : Bool) (now : Nat)
    (hs : m.Tracked s held) (halternate : alternates true
      ((s.arrive (m.host term) (s.record key pressed now)).pressesOf key))
    (hcut : (s.arrive (m.host term) (s.record key pressed now)).cutsIn (m.host term)
      (s.record key pressed now) = false)
    (hkept : m.strands (m.host term) (s.arrive (m.host term) (s.record key pressed now))
      (s.record key pressed now) = false) :
    ∃ held', m.Tracked ((s.arrive (m.host term) (s.record key pressed now)).receive (m.host term)
      (s.record key pressed now)) held' := by
  let P := m.host term
  let r := s.record key pressed now
  let t := s.arrive P r
  let e := t.processTapping P r
  have hhost : t.host = s.host := by
    change (if r.pressed then P.clearWeakMods s.host else s.host) = s.host
    split
    · exact m.clearWeakMods_host term s.host hs.supported.weakMods
    · rfl
  have hsupported : m.Supported held t.host := hhost ▸ hs.supported
  have hrecorded : m.Recorded t held := by
    intro k tapped hk
    rw [hhost]
    exact hs.recorded k tapped hk
  have hpresses : ∀ k, alternates true (t.pressesOf k) := by
    intro k
    by_cases hk : r.key = k
    · rw [← hk]
      exact halternate
    · rw [pressesOf_arrive, if_neg hk, List.append_nil]
      exact hs.alternate k
  have hready := hs.ready_arriving term key pressed now halternate hcut
  have houtcome := processTapping_outcome P r t
  rcases houtcome.turn Place.arriving held hready with ⟨new, hout, _, hturn⟩
  rcases houtcome.handedOver with ⟨new', hnew⟩
  obtain rfl : new' = new := List.append_cancel_left (hnew.out.symm.trans hout)
  rcases m.handed_supported term hready.sound hsupported hrecorded hnew hturn with
    ⟨hlanes, hsupported', hrecorded'⟩
  have harrived : e.state.arrived = t.arrived := houtcome.behind_eq.2.2.1
  cases hroom : t.overflows P r with
  | false =>
    rcases receive_parts P r t hroom with ⟨hro, hrt, hrw⟩
    have hrh := receive_host hroom
    rw [← hrt, ← hrw] at hlanes
    rw [← hrh] at hsupported'
    -- nothing is lost, and every part of the invariant goes on from the records handed over
    have hpass := receive_passes P (fun _ => True) t r (fun _ => rfl) hroom (fun _ => hcut)
      (m.host_not_spoilt term r t)
    have hsame : ∀ k, (t.receive P r).pressesOf k = t.pressesOf k := by
      intro k
      rw [pressesOf, receive_arrived P r t hroom]
      rfl
    refine ⟨heldWith held new', hlanes, hsupported', fun k tapped hk => ?_, fun k => ?_,
      fun k => ?_, receive_unmarked P r t hs.unmarked (fun _ => rfl) hroom,
      receive_few hroom hs.few⟩
    · rcases hrecorded' k tapped hk with ⟨was, hwas, hturns⟩
      refine ⟨was, ?_, ?_⟩
      · rw [heldOf, hro]
        exact hwas
      · rw [hrh]
        exact hturns
    · rw [hsame]
      exact hpresses k
    · refine (hs.accounted k).handed [r.event] (hro.trans hnew.out) hnew.kinds
        (filter_of_passes hpass k trivial) ?_
      rw [hsame]
      exact pressesOf_arrive_event P s r k
  | true =>
    -- the buffer and the tapping key are thrown away, and what is held is chosen anew
    rw [strands, hroom, Bool.true_and] at hkept
    rw [receive_overflows P r t hroom]
    refine m.overflow_tracked hsupported' hrecorded' (fun k => ?_) hkept
    rw [pressesOf, harrived]
    exact hpresses k

theorem misses_cleared {r : TapRecord KeyPos} {s t : TapState KeyPos Qmk}
    (h : Cleared (m.host term) r s t) : t.misses (m.host term) r = s.misses (m.host term) r := by
  unfold misses
  rw [h.eqs.2.1]
  rfl

theorem Tracked.ready_waiting {m : OrdinaryKeymap} {s : TapState KeyPos Qmk}
    {held : KeyPos → Option Bool} (hs : m.Tracked s held) (term : Nat) (w : TapRecord KeyPos)
    (rest : List (TapRecord KeyPos)) (hwaiting : s.waiting = w :: rest)
    (hfound : s.misses (m.host term) w = false) :
    Ready (m.host term) held w s (s.processTapping (m.host term) w) [] rest := by
  have hbehind : s.behind = w.event :: rest.map TapRecord.event := by
    simp only [behind, hwaiting, List.map_cons]
  have hwself : decide (w.event.key = w.key) = true := decide_eq_true rfl
  have hpending : s.Decided → s.pendingOf w.key =
      w.pressed :: (rest.filter (fun v => v.key = w.key)).map TapRecord.pressed := by
    intro hdecided
    rw [pendingOf, undecided_nil s hdecided, List.nil_append, hbehind, List.filter_cons,
      if_pos hwself, List.map_cons, List.filter_map, List.map_map]
    rfl
  refine ⟨hs.unmarked w (hwaiting ▸ List.mem_cons_self), fun k => ?_,
    fun _ v hv => absurd hv List.not_mem_nil, ?_, m.host_not_spoilt term w s, ?_⟩
  · rw [List.nil_append, ← hwaiting]
    exact hs.lanes k
  · intro _ hpressed hdecided
    by_contra hheld
    -- were the key held, its press would come right before the one that waits
    have hdown := (hs.accounted w.key).down hheld
    rw [hpending hdecided, hpressed] at hdown
    exact not_held_of_press (hs.alternate w.key) _ hdown
  · intro _ hpressed _ hdecided t i v hcleared hv hkey hrelease hin hbefore
    -- presses and releases alternate, so the scan finds the release of this press first
    have hsuffix := (hs.accounted w.key).pending
    rw [hpending hdecided, hpressed] at hsuffix
    rcases hsuffix with ⟨before, hsplit⟩
    have halternate := hs.alternate w.key
    rw [← hsplit] at halternate
    exact scans_of_alternates (m.host term) t w rest (hcleared.eqs.2.1.trans hwaiting) hpressed
      ((m.misses_cleared term hcleared).trans hfound)
      (alternates_right true true before _ halternate) i v hv hkey hrelease hin hbefore

theorem afterWaiting_tracked (held : KeyPos → Option Bool) (w : TapRecord KeyPos)
    (rest : List (TapRecord KeyPos)) (hs : m.Tracked s held) (hwaiting : s.waiting = w :: rest)
    (hfound : s.misses (m.host term) w = false) :
    ∃ held', m.Tracked (afterWaiting (s.processTapping (m.host term) w)) held' := by
  let P := m.host term
  let e := s.processTapping P w
  have hready := hs.ready_waiting term w rest hwaiting hfound
  have houtcome := processTapping_outcome P w s
  rcases houtcome.turn (Place.waiting rest hwaiting) held hready with ⟨new, hout, _, hturn⟩
  rcases houtcome.handedOver with ⟨new', hnew⟩
  obtain rfl : new' = new := List.append_cancel_left (hnew.out.symm.trans hout)
  rcases m.handed_supported term hready.sound hs.supported hs.recorded hnew hturn with
    ⟨hlanes, hsupported', hrecorded'⟩
  rcases afterWaiting_parts e with ⟨hao, hat, haw⟩
  have hah : (afterWaiting e).host = e.state.host := by
    unfold afterWaiting
    split
    · rfl
    · rfl
  -- nothing has arrived in the meantime
  rw [← hat, ← haw] at hlanes
  have hsame : ∀ k, (afterWaiting e).pressesOf k = s.pressesOf k := by
    intro k
    rw [pressesOf, afterWaiting_arrived]
    rfl
  have hpass := afterWaiting_passes P (fun _ => True) s w rest hs.unmarked hwaiting
    (m.host_not_spoilt term w s)
  refine ⟨heldWith held new', hlanes, ?_, fun k tapped hk => ?_, fun k => ?_, fun k => ?_,
    afterWaiting_unmarked P w rest s hwaiting hs.unmarked, ?_⟩
  · rw [hah]
    exact hsupported'
  · rcases hrecorded' k tapped hk with ⟨was, hwas, hturns⟩
    refine ⟨was, ?_, ?_⟩
    · rw [heldOf, hao]
      exact hwas
    · rw [hah]
      exact hturns
  · rw [hsame]
    exact hs.alternate k
  · -- what was handed over is no longer in the line, and the rest is
    refine (hs.accounted k).handed [] (hao.trans hnew.out) hnew.kinds ?_ ?_
    · rw [List.append_nil]
      exact filter_of_passes hpass k trivial
    · rw [hsame]
      exact (List.append_nil _).symm
  · have hlength := congrArg List.length houtcome.behind_eq.1
    simp only [behind, List.length_map] at hlength
    have hfew := hs.few
    rw [haw, List.length_append, List.length_tail, hlength]
    rw [hwaiting, List.length_cons] at hfew ⊢
    split
    · exact Nat.le_trans (by rw [List.length_nil]; omega) hfew
    · exact Nat.le_trans (by rw [List.length_singleton]; omega) hfew

theorem processTick_tracked (held : KeyPos → Option Bool) (now : Nat) (hs : m.Tracked s held) :
    ∃ held', m.Tracked
      ({ s with now := eventMs now }.processTick (m.host term) (eventTime now)) held' := by
  let P := m.host term
  let t : TapState KeyPos Qmk := { s with now := eventMs now }
  rcases processTick_turn P (eventTime now) t held with ⟨new, hout, _, hturn⟩
  rcases processTick_handedOver P (eventTime now) t with ⟨new', hnew⟩
  obtain rfl : new' = new := List.append_cancel_left (hnew.out.symm.trans hout)
  rcases m.handed_supported (s := t) term hs.lanes hs.supported hs.recorded hnew hturn with
    ⟨hlanes, hsupported', hrecorded'⟩
  rcases processTick_line P (eventTime now) t with ⟨hline, hwaiting, harrived⟩
  have hsame : ∀ k, (t.processTick P (eventTime now)).pressesOf k = s.pressesOf k := by
    intro k
    rw [pressesOf, harrived]
    rfl
  refine ⟨heldWith held new', hlanes, hsupported', hrecorded', fun k => ?_, fun k => ?_, ?_, ?_⟩
  · rw [hsame]
    exact hs.alternate k
  · refine (hs.accounted k).handed [] hnew.out hnew.kinds ?_ ?_
    · rw [List.append_nil, hline]
      rfl
    · rw [hsame]
      exact (List.append_nil _).symm
  · unfold Unmarked
    rw [hwaiting]
    exact hs.unmarked
  · rw [hwaiting]
    exact hs.few

theorem start_tracked (nkro : Bool) (default : BitVec 32) (config : KeymapConfig) :
    m.Tracked (TapState.init (start nkro default config)) (fun _ => none) where
  lanes _ := Lane.sound_of_none rfl rfl (fun _ hm => absurd hm List.not_mem_nil)
  supported := by
    refine ⟨Usb.init_settled nkro, rfl, fun e he => ?_⟩
    cases e with
    | key code =>
      have hclear := (Usb.clear_iff _ (Usb.init_settled nkro)).mp
        (Usb.clear_of_empty (Usb.init nkro) rfl rfl rfl)
      exact absurd he (hclear.1 code)
    | realMod code => exact Bool.noConfusion (he.2.symm.trans BitVec.getLsbD_zero)
    | layer n => exact Bool.noConfusion (Eq.symm (he : _ = true) |>.trans BitVec.getLsbD_zero)
  recorded _ _ h := nomatch h
  alternate _ := rfl
  accounted _ := ⟨List.nil_suffix, fun h => absurd rfl h⟩
  unmarked _ hw := absurd hw List.not_mem_nil
  few := Nat.zero_le _

theorem actionExec_tracked (input : TapInput KeyPos) (hs : ∃ held, m.Tracked s held)
    (halternate : OnArrival (m.host term)
      (fun s r => alternates true (s.pressesOf r.key) = true) s input)
    (hkept : OnArrival (m.host term) (fun s r => m.strands (m.host term) s r = false) s input)
    (hcut : OnArrival (m.host term) (fun s r => s.cutsIn (m.host term) r = false) s input)
    (hfound : OnExamination (m.host term) (fun s r => s.misses (m.host term) r = false) s input) :
    ∃ held, m.Tracked (s.actionExec (m.host term) input) held := by
  refine actionExec_invariant (m.host term)
    (fun s r => alternates true (s.pressesOf r.key) = true ∧
      m.strands (m.host term) s r = false ∧ s.cutsIn (m.host term) r = false)
    (fun s r => s.misses (m.host term) r = false) (fun s => ∃ held, m.Tracked s held)
    ?_ ?_ ?_ s input hs ?_ hfound
  · -- an event arrives, one that waits is examined, and a tick starts the loop
    rintro s key pressed now ⟨held, hs⟩ ⟨halternate, hkept, hcut⟩ _
    exact receive_tracked m term s held key pressed now hs halternate hcut hkept
  · rintro s w rest ⟨held, hs⟩ hwaiting hfound
    exact afterWaiting_tracked m term s held w rest hs hwaiting hfound
  · rintro s now ⟨held, hs⟩
    exact processTick_tracked m term s held now hs
  · cases input with
    | tick now => trivial
    | key key pressed now => exact ⟨halternate, hkept, hcut⟩

end OrdinaryKeymap

/-- No key, no modifier and no layer is on, but the default ones. -/
structure Qmk.AtRest (q : Qmk) : Prop where
  clear : q.usb.Clear
  macroMods : q.usb.macroMods = 0
  oneshotMods : q.usb.oneshotMods = 0
  layers : q.layers.state = 0

namespace OrdinaryKeymap

open StepRun TapState

theorem Tracked.atRest {m : OrdinaryKeymap} {s : TapState KeyPos Qmk}
    {held : KeyPos → Option Bool} (h : m.Tracked s held) (hload : s.load = 0)
    (hreleased : s.AllUp) : s.host.AtRest := by
  have hwaiting : s.waiting = [] := by
    rw [← List.length_eq_zero_iff]
    unfold load at hload
    omega
  have hundecided : s.undecided = [] := by
    rw [← List.length_eq_zero_iff]
    unfold load at hload
    omega
  have hfree : ∀ key, held key = none := by
    intro key
    by_contra hheld
    rcases (h.accounted key).down hheld with ⟨before, hbefore⟩
    have hpending : s.pendingOf key = [] := by
      rw [pendingOf, behind, hwaiting, hundecided]
      rfl
    rw [hpending] at hbefore
    -- its press is the last event of the key, which has not been released
    have hmem : true ∈ s.pressesOf key := hbefore ▸ List.mem_append_right _ List.mem_cons_self
    rcases List.mem_map.mp hmem with ⟨r, hr, _⟩
    rw [List.mem_filter, decide_eq_true_eq] at hr
    refine hreleased r hr.1 ?_
    rw [hr.2, ← hbefore, List.getLast?_concat]
  have hnothing := h.supported.nothing hfree
  exact ⟨hnothing.1, h.supported.settled.macroMods, h.supported.settled.oneshotMods, hnothing.2⟩

/-- The keyboard comes to rest when all keys have been released and enough ticks
    have found the term over, if no overflow strands a layer, no event cuts in and
    no scan misses the release it is looking for. -/
theorem recovers (m : OrdinaryKeymap) (term : Nat) (nkro : Bool) (default : BitVec 32)
    (config : KeymapConfig) (inputs ticks : List (TapInput KeyPos))
    (halternate : Along (actionExec (m.host term))
      (OnArrival (m.host term) (fun s r => alternates true (s.pressesOf r.key) = true))
      (init (start nkro default config)) (inputs ++ ticks))
    (hkept : Along (actionExec (m.host term))
      (OnArrival (m.host term) (fun s r => m.strands (m.host term) s r = false))
      (init (start nkro default config)) (inputs ++ ticks))
    (hcut : Along (actionExec (m.host term))
      (OnArrival (m.host term) (fun s r => s.cutsIn (m.host term) r = false))
      (init (start nkro default config)) (inputs ++ ticks))
    (hfound : Along (actionExec (m.host term))
      (OnExamination (m.host term) (fun s r => s.misses (m.host term) r = false))
      (init (start nkro default config)) (inputs ++ ticks))
    (hticks : ∀ input ∈ ticks, ∃ now, input = .tick now)
    (hreleased : (run (actionExec (m.host term)) (init (start nkro default config))
      (inputs ++ ticks)).AllUp)
    (hpast : 2 * waitingPlaces + 1 ≤ ticksPast (m.host term)
      (run (actionExec (m.host term)) (init (start nkro default config)) inputs) ticks) :
    (run (actionExec (m.host term)) (init (start nkro default config))
      (inputs ++ ticks)).host.AtRest := by
  let s := init (K := KeyPos) (start nkro default config)
  let C : TapState KeyPos Qmk → TapInput KeyPos → Prop := fun t input =>
    OnArrival (m.host term) (fun s r => alternates true (s.pressesOf r.key) = true) t input ∧
      OnArrival (m.host term) (fun s r => m.strands (m.host term) s r = false) t input ∧
      OnArrival (m.host term) (fun s r => s.cutsIn (m.host term) r = false) t input ∧
      OnExamination (m.host term) (fun s r => s.misses (m.host term) r = false) t input
  have hall : Along (actionExec (m.host term)) C s (inputs ++ ticks) :=
    (along_and _ _ _ _ _).mpr ⟨halternate, (along_and _ _ _ _ _).mpr ⟨hkept,
      (along_and _ _ _ _ _).mpr ⟨hcut, hfound⟩⟩⟩
  have hinvariant : ∀ as, Along (actionExec (m.host term)) C s as →
      ∃ held, m.Tracked (run (actionExec (m.host term)) s as) held := by
    intro as has
    refine run_invariant_along (actionExec (m.host term)) C (fun s => ∃ held, m.Tracked s held)
      (fun t input ht hC => ?_) as s ⟨_, m.start_tracked nkro default config⟩ has
    exact m.actionExec_tracked term t input ht hC.1 hC.2.1 hC.2.2.1 hC.2.2.2
  rcases hinvariant inputs ((along_append _ _ inputs ticks s).mp hall).1 with ⟨_, hbefore⟩
  rcases hinvariant (inputs ++ ticks) hall with ⟨held, hafter⟩
  refine hafter.atRest ?_ hreleased
  -- seven events can wait and one press be undecided, so that many ticks are enough
  have hload := ticks_load (m.host term) ticks hticks
    (run (actionExec (m.host term)) s inputs)
  have hfew := hbefore.few
  have hund := (run (actionExec (m.host term)) s inputs).undecided_length_le
  have hle : (run (actionExec (m.host term)) s inputs).load ≤ 2 * waitingPlaces + 1 := by
    unfold load
    omega
  rw [run_append]
  exact Nat.le_zero.mp (Nat.le_trans hload (by rw [Nat.sub_eq_zero_of_le (hle.trans hpast)]))

/-- A layer-tap key in the corner, and other keys. -/
def corner : OrdinaryKeymap where
  keycode layer key :=
    if key = { row := 0, col := 0 } then 0x4104 else if layer = 1 then 0x0006 else 0x0005
  functions _ := 0
  ordinary layer key := by
    split
    · decide
    · split
      · decide
      · decide

/-- Nine keys pressed and released, and the layer-tap key held for another. -/
theorem recovers_corner :
    let inputs := (List.range 9).map
        (fun i => .key { row := 0, col := Fin.ofNat 14 i } true (10 * i)) ++
      (List.range 9).map (fun i => .key { row := 0, col := Fin.ofNat 14 i } false (110 + 10 * i)) ++
      [.key { row := 0, col := 0 } true 400, .tick 700, .key { row := 0, col := 2 } true 710,
        .key { row := 0, col := 2 } false 720, .key { row := 0, col := 0 } false 730]
    let ticks := (List.range 15).map (fun i => .tick (1000 + i))
    (run (actionExec (corner.host 200)) (init (start false 0 KeymapConfig.default))
      (inputs ++ ticks)).host.AtRest :=
  recovers corner 200 false 0 KeymapConfig.default _ _ (by decide +kernel) (by decide +kernel)
    (by decide +kernel) (by decide +kernel)
    (by
      intro input hi
      rcases List.mem_map.mp hi with ⟨i, _, rfl⟩
      exact ⟨_, rfl⟩)
    (by decide +kernel) (by decide +kernel)

/-- A layer-tap key held beyond its term with seven others waiting: its release is
    thrown away with them, and the layer stays on when all keys are up. -/
theorem recovers_broken :
    let inputs := (List.range 8).map
        (fun i => .key { row := 0, col := Fin.ofNat 14 i } true (10 * i)) ++
      (List.range 8).map (fun i => .key { row := 0, col := Fin.ofNat 14 i } false (300 + 10 * i))
    let ticks := (List.range 15).map (fun i => .tick (1000 + i))
    let P := corner.host 200
    let before := init (start false 0 KeymapConfig.default)
    Along (actionExec P) (OnArrival P (fun s r => alternates true (s.pressesOf r.key) = true))
        before (inputs ++ ticks) ∧
      (run (actionExec P) before (inputs ++ ticks)).AllUp ∧
      2 * waitingPlaces + 1 ≤ ticksPast P (run (actionExec P) before inputs) ticks ∧
      ¬ (run (actionExec P) before (inputs ++ ticks)).host.AtRest := by
  refine ⟨by decide +kernel, by decide +kernel, by decide +kernel, fun h => ?_⟩
  have hlayers := h.layers
  revert hlayers
  decide +kernel

end OrdinaryKeymap

end K530
