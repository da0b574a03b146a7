import K530.Lib.Run
import K530.Quantum.DynamicMacro
import Mathlib.Data.List.DropRight

/-!
# What a Dynamic Macro Plays

A macro should play what was recorded into it last: the events between the start
and the stop of the recording, without the releases it begins with, cut at the
space the other macro leaves, and without the presses it ends with.

`MacroRecorder` is that, as two lists. `Recorded` says that the buffer holds them,
each on its own side. A recording writes over the old content of its side, so
while it lasts that side holds what has been taken so far. This is kept by every
event, and with it every access is inside the buffer and the two ends never
pass each other.

What is played is another matter, because a played record comes back to
`process_dynamic_macro`. If its key is a start key by then, the play that is
under way goes on over a buffer that is being written. And if it plays the macro
that is being played, that play begins again and does not end. `apart` rules out
both. A play then hands on what was wanted when it began, and ends.

## Main definitions

* `MacroRecorder`: What should be in the two macros.

## Theorems

* `dynamic_macros`: All of it, for every run.
* `dynamic_macros_broken`: A macro that plays itself, and one recorded while it
  is played.
-/

namespace K530

open TwoStacks
open StepRun

universe u v

/-! ### What should be in the macros -/

/-- What is being recorded, if anything, and what should be in each macro. -/
structure MacroRecorder (ρ : Type v) where
  recording : Option (Side × List ρ)
  content : Side → List ρ

namespace MacroRecorder

variable {ρ : Type v} (pressed : ρ → Bool)

/-- The events taken, without the releases they begin with, as far as there is
    space. -/
def room (space : Nat) (taken : List ρ) : List ρ :=
  (taken.dropWhile (fun r => !pressed r)).take space

/-- And without the presses they end with. -/
def save (n : Nat) (id : Side) (taken : List ρ) (c : MacroRecorder ρ) : MacroRecorder ρ :=
  { recording := none,
    content := Function.update c.content id
      ((room pressed (n - (c.content id.other).length) taken).rdropWhile pressed) }

/-- One more event. -/
def hear (n : Nat) (noNesting : Bool) (c : MacroRecorder ρ) (e : MacroKey × ρ) : MacroRecorder ρ :=
  match c.recording with
  | none =>
    match e.1 with
    | .recStart id => if pressed e.2 then c else { c with recording := some (id, []) }
    | .recStop | .play _ | .other => c
  | some (id, taken) =>
    match e.1 with
    | .recStart _ => if pressed e.2 then c else c.save pressed n id taken
    | .recStop => if pressed e.2 then c.save pressed n id taken else c
    | .play _ => if noNesting then c else { c with recording := some (id, taken ++ [e.2]) }
    | .other => { c with recording := some (id, taken ++ [e.2]) }

def put (space : Nat) (w : List ρ) (r : ρ) : List ρ :=
  if pressed r = false ∧ w = [] then w else if w.length < space then w ++ [r] else w

theorem room_concat (space : Nat) (taken : List ρ) (r : ρ) :
    room pressed space (taken ++ [r]) = put pressed space (room pressed space taken) r := by
  unfold room put
  rw [List.dropWhile_append]
  cases hdropped : taken.dropWhile (fun r => !pressed r) with
  | nil =>
    cases hr : pressed r with
    | false => simp [hr]
    | true => cases space <;> simp [hr]
  | cons a rest =>
    simp only [List.isEmpty_cons, Bool.false_eq_true, if_false, List.length_take]
    by_cases hspace : (a :: rest).length < space
    · rw [List.take_of_length_le (by simp at hspace ⊢; omega),
        List.take_of_length_le (by omega), if_neg (by simp), if_pos (by omega)]
    · rw [List.take_append_of_le_length (by omega)]
      by_cases hnone : space = 0
      · subst hnone
        simp
      · rw [if_neg (by simp [hnone]), if_neg (by omega)]

@[simp] theorem room_nil (space : Nat) : room pressed space [] = [] := by
  unfold room
  rw [List.dropWhile_nil, List.take_nil]

theorem length_room (space : Nat) (taken : List ρ) : (room pressed space taken).length ≤ space := by
  unfold room
  rw [List.length_take]
  omega

end MacroRecorder

/-- The recorder after what has been heard. -/
def wanted {σ : Type u} {ρ : Type v} (H : MacroHost σ ρ) (n : Nat) (heard : List (MacroKey × ρ)) :
    MacroRecorder ρ :=
  heard.foldl (MacroRecorder.hear H.pressed n H.noNesting)
    { recording := none, content := fun _ => [] }

theorem wanted_concat {σ : Type u} {ρ : Type v} (H : MacroHost σ ρ) (n : Nat)
    (heard : List (MacroKey × ρ)) (e : MacroKey × ρ) :
    wanted H n (heard ++ [e]) = (wanted H n heard).hear H.pressed n H.noNesting e := by
  unfold wanted
  rw [List.foldl_append, List.foldl_cons, List.foldl_nil]

/-! ### The buffer -/

def Holding {n : Nat} {ρ : Type v} (pressed : ρ → Bool) (m : DynamicMacro n ρ)
    (c : MacroRecorder ρ) : Prop :=
  match c.recording with
  | none => m.macroId = none ∧ ∀ id, Holds m.buffer id (c.content id)
  | some (id, taken) =>
    m.macroId = some id ∧ Holds m.buffer id.other (c.content id.other) ∧
      Holds m.buffer id (MacroRecorder.room pressed (n - (c.content id.other).length) taken) ∧
      m.macroPointer =
        id.place n (MacroRecorder.room pressed (n - (c.content id.other).length) taken).length

structure Recorded {n : Nat} {ρ : Type v} (pressed : ρ → Bool) (m : DynamicMacro n ρ)
    (c : MacroRecorder ρ) : Prop where
  fits : ∀ id : Side, (c.content id).length + (c.content id.other).length ≤ n
  ends : ∀ id, m.endOf id = id.place n (c.content id).length
  holding : Holding pressed m c

theorem Recorded.of_recording {n : Nat} {ρ : Type v} {pressed : ρ → Bool} {m : DynamicMacro n ρ}
    {c : MacroRecorder ρ} (h : Recorded pressed m c) (id : Side) (taken : List ρ)
    (hrecording : c.recording = some (id, taken)) :
    m.macroId = some id ∧ Holds m.buffer id.other (c.content id.other) ∧
      Holds m.buffer id (MacroRecorder.room pressed (n - (c.content id.other).length) taken) ∧
      m.macroPointer =
        id.place n (MacroRecorder.room pressed (n - (c.content id.other).length) taken).length := by
  have hholding := h.holding
  unfold Holding at hholding
  rwa [hrecording] at hholding

namespace DynamicMacro

variable {n : Nat} {ρ : Type v} (pressed : ρ → Bool)

@[simp] theorem endOf_setEnd_self (m : DynamicMacro n ρ) (id : Side) (pointer : Int) :
    (m.setEnd id pointer).endOf id = pointer := by
  cases id <;> rfl

@[simp] theorem endOf_setEnd_other (m : DynamicMacro n ρ) (id : Side) (pointer : Int) :
    (m.setEnd id pointer).endOf id.other = m.endOf id.other := by
  cases id <;> rfl

@[simp] theorem setEnd_buffer (m : DynamicMacro n ρ) (id : Side) (pointer : Int) :
    (m.setEnd id pointer).buffer = m.buffer := by
  cases id <;> rfl

theorem trimmed_eq (id : Side) (buffer : Vector ρ n) (w : List ρ) :
    ∀ fuel, w.length < fuel → Holds buffer id w →
      trimmed pressed id buffer fuel (id.place n w.length) =
        some (id.place n (w.rdropWhile pressed).length) := by
  induction w using List.reverseRecOn with
  | nil =>
    intro fuel hfuel _
    cases fuel with
    | zero => exact absurd hfuel (Nat.not_lt_zero _)
    | succ fuel =>
      rw [trimmed, if_neg]
      · rfl
      · exact fun hc => hc rfl
  | append_singleton w r ih =>
    intro fuel hfuel hholds
    rw [List.length_append, List.length_singleton] at hfuel ⊢
    cases fuel with
    | zero => exact absurd hfuel (Nat.not_lt_zero _)
    | succ fuel =>
      have hlast := hholds w.length (by simp)
      rw [List.getElem_concat_length rfl] at hlast
      have hbelow : Holds buffer id w := by
        have htake := hholds.take w.length
        rwa [List.take_left] at htake
      have hbegun : id.place n (w.length + 1) ≠ beginOf n id :=
        fun hc => Nat.succ_ne_zero _ (Side.place_inj hc)
      rw [trimmed, if_pos hbegun, Side.place_pred, hlast, Option.bind_some]
      cases hr : pressed r with
      | true =>
        rw [if_pos rfl, List.rdropWhile_concat_pos _ _ _ hr]
        exact ih fuel (by omega) hbelow
      | false =>
        rw [if_neg Bool.false_ne_true, List.rdropWhile_concat_neg _ _ _ (by simp [hr]),
          List.length_append, List.length_singleton]

theorem recordKey_recorded {m : DynamicMacro n ρ} {c : MacroRecorder ρ} (h : Recorded pressed m c)
    (id : Side) (taken : List ρ) (hrecording : c.recording = some (id, taken)) (r : ρ) :
    ∃ m', m.recordKey pressed id r = some m' ∧
      Recorded pressed m' { c with recording := some (id, taken ++ [r]) } := by
  rcases h.of_recording id taken hrecording with ⟨hid, hother, hholds, hpointer⟩
  have hfits := h.fits id
  have hroom := MacroRecorder.length_room pressed (n - (c.content id.other).length) taken
  have hput := MacroRecorder.room_concat pressed (n - (c.content id.other).length) taken r
  generalize hw : MacroRecorder.room pressed (n - (c.content id.other).length) taken = w
    at hholds hpointer hroom hput
  -- if nothing is recorded, what has been taken in is the same as before
  have hkeep : MacroRecorder.put pressed (n - (c.content id.other).length) w r = w →
      Recorded pressed m { c with recording := some (id, taken ++ [r]) } := by
    intro hsame
    refine ⟨h.fits, h.ends, ?_⟩
    unfold Holding
    dsimp only
    rw [hput, hsame]
    exact ⟨hid, hother, hholds, hpointer⟩
  have hbegun : m.macroPointer = beginOf n id ↔ w = [] := by
    rw [hpointer, ← List.length_eq_zero_iff]
    exact ⟨fun hc => Side.place_inj hc, fun hc => by rw [hc]; rfl⟩
  have hmet : m.macroPointer - id.direction ≠ m.endOf id.other ↔
      w.length + (c.content id.other).length ≠ n := by
    rw [hpointer, h.ends id.other, ne_eq, Side.full_iff]
  unfold recordKey
  by_cases hleading : pressed r = false ∧ w = []
  · refine ⟨m, ?_, hkeep (by unfold MacroRecorder.put; rw [if_pos hleading])⟩
    rw [if_pos (by simp [hleading.1, hbegun.mpr hleading.2])]
  · rw [if_neg (by simpa [hbegun] using hleading)]
    unfold MacroRecorder.put at hput hkeep
    rw [if_neg hleading] at hput hkeep
    by_cases hfull : w.length + (c.content id.other).length = n
    · refine ⟨m, ?_, hkeep (by rw [if_neg (by omega)])⟩
      rw [if_neg (fun hc => hmet.mp hc hfull)]
    · -- the event is pushed
      rw [if_pos (hmet.mpr hfull), hpointer]
      obtain ⟨buffer, hstore, htop, hrest⟩ := storeAt_place m.buffer id w.length r (by omega)
      refine ⟨_, by rw [hstore, Option.map_some], h.fits, fun id' => ?_, ?_⟩
      · cases id' with
        | front => exact h.ends .front
        | back => exact h.ends .back
      · unfold Holding
        dsimp only
        rw [hput, if_pos (by omega)]
        refine ⟨hid, hother.beside (by omega) hrest, hholds.push r htop hrest, ?_⟩
        rw [List.length_append, List.length_singleton, Side.place_succ]

theorem recordEnd_recorded {m : DynamicMacro n ρ} {c : MacroRecorder ρ} (h : Recorded pressed m c)
    (id : Side) (taken : List ρ) (hrecording : c.recording = some (id, taken)) :
    ∃ m', m.recordEnd pressed id = some m' ∧ Recorded pressed m' (c.save pressed n id taken) := by
  rcases h.of_recording id taken hrecording with ⟨hid, hother, hholds, hpointer⟩
  have hfits := h.fits id
  have hroom := MacroRecorder.length_room pressed (n - (c.content id.other).length) taken
  have hsaved : (c.save pressed n id taken).content id =
      (MacroRecorder.room pressed (n - (c.content id.other).length) taken).rdropWhile pressed := by
    unfold MacroRecorder.save
    exact Function.update_self _ _ _
  have hbeside : (c.save pressed n id taken).content id.other = c.content id.other := by
    unfold MacroRecorder.save
    refine Function.update_of_ne ?_ _ _
    cases id <;> exact fun hc => Side.noConfusion hc
  generalize MacroRecorder.room pressed (n - (c.content id.other).length) taken = w
    at hholds hpointer hroom hsaved
  -- what is left is the beginning of what was recorded
  have hprefix := List.rdropWhile_prefix pressed w
  have hshort := hprefix.length_le
  have hboth : ∀ P : Side → Prop, P id → P id.other → ∀ id', P id' := by
    intro P hself hoth id'
    cases id <;> cases id' <;> assumption
  refine ⟨{ m.setEnd id (id.place n (w.rdropWhile pressed).length) with macroId := none },
    ?_, hboth _ ?_ ?_, hboth _ ?_ ?_, ?_⟩
  · unfold recordEnd
    rw [hpointer, trimmed_eq pressed id m.buffer w (n + 1) (by omega) hholds, Option.map_some]
  · rw [hsaved, hbeside]
    omega
  · have hback : id.other.other = id := by cases id <;> rfl
    rw [hback, hsaved, hbeside]
    omega
  · rw [hsaved]
    exact endOf_setEnd_self m id _
  · rw [hbeside]
    exact (endOf_setEnd_other m id _).trans (h.ends id.other)
  · refine ⟨rfl, hboth _ ?_ ?_⟩
    · rw [hsaved, List.prefix_iff_eq_take.mp hprefix]
      dsimp only
      rw [setEnd_buffer]
      exact hholds.take _
    · rw [hbeside]
      dsimp only
      rw [setEnd_buffer]
      exact hother

end DynamicMacro

namespace MacroRun

variable {n : Nat} {σ : Type u} {ρ : Type v} (H : MacroHost σ ρ)

/-! ### What a step does -/

def Inside (n : Nat) (p : MacroPlay σ ρ) : Prop :=
  ∃ j len, j ≤ len ∧ len ≤ n ∧ p.position = p.id.place n j ∧ p.stop = p.id.place n len

/-- Nothing has left the buffer, it holds what it should, and the plays are
    inside. -/
structure Sound (s : MacroRun n σ ρ) : Prop where
  unfaulted : s.faulted = false
  recorded : Recorded H.pressed s.macros (wanted H n s.heard)
  inside : ∀ p ∈ s.plays, Inside n p

/-- What an event leaves of a run: the macros are what they should be after it,
    and a play may have begun. -/
structure Heard (s s' : MacroRun n σ ρ) (e : MacroKey × ρ) : Prop where
  unfaulted : s'.faulted = s.faulted
  heard : s'.heard = s.heard ++ [e]
  recorded : Recorded H.pressed s'.macros (wanted H n s'.heard)
  played : s'.played = s.played
  plays : s'.plays = s.plays ∨ ∃ id keyboard, e.1 = .play id ∧ H.pressed e.2 = false ∧
    s.macros.macroId = none ∧
    s'.plays = MacroPlay.start s.macros id keyboard e.2 s'.heard.length :: s.plays

variable (s : MacroRun n σ ρ)

theorem heard_finish (e : MacroKey × ρ) (macros : DynamicMacro n ρ) (keyboard : σ) (own : Bool)
    (r : ρ) (h : Recorded H.pressed macros (wanted H n (s.heard ++ [e]))) :
    Heard H s ({ s with heard := s.heard ++ [e], macros, keyboard }.finish H own r) e :=
  ⟨rfl, rfl, h, rfl, Or.inl rfl⟩

theorem recordStart_recorded {macros : DynamicMacro n ρ} {m : MacroRecorder ρ}
    (h : Recorded H.pressed macros m) (hrecording : m.recording = none) (id : Side) :
    Recorded H.pressed (macros.recordStart id) { m with recording := some (id, []) } := by
  have hholding := h.holding
  unfold Holding at hholding
  rw [hrecording] at hholding
  refine ⟨h.fits, fun id' => ?_, ?_⟩
  · cases id' with
    | front => exact h.ends .front
    | back => exact h.ends .back
  · refine ⟨rfl, hholding.2 id.other, ?_, ?_⟩
    · rw [MacroRecorder.room_nil]
      exact holds_nil _ _
    · rw [MacroRecorder.room_nil]
      rfl

theorem whenIdle_heard (keycode : MacroKey) (r : ρ)
    (h : Recorded H.pressed s.macros (wanted H n s.heard))
    (hrecording : (wanted H n s.heard).recording = none) (hidle : s.macros.macroId = none) :
    Heard H s ({ s with heard := s.heard ++ [(keycode, r)] }.whenIdle H keycode r)
      (keycode, r) := by
  have hwanted := wanted_concat H n s.heard (keycode, r)
  unfold MacroRecorder.hear at hwanted
  rw [hrecording] at hwanted
  dsimp only at hwanted
  have hsame : wanted H n (s.heard ++ [(keycode, r)]) = wanted H n s.heard →
      Recorded H.pressed s.macros (wanted H n (s.heard ++ [(keycode, r)])) := by
    intro hc
    rwa [hc]
  unfold whenIdle
  by_cases hpressed : H.pressed r
  · rw [if_pos hpressed]
    refine heard_finish H s _ s.macros s.keyboard true r (hsame ?_)
    rw [hwanted]
    cases keycode <;> simp [hpressed]
  · rw [if_neg hpressed]
    cases keycode with
    | recStart id =>
      refine heard_finish H s _ (s.macros.recordStart id) _ false r ?_
      rw [hwanted]
      dsimp only
      rw [if_neg hpressed]
      exact recordStart_recorded H h hrecording id
    | play id =>
      refine ⟨rfl, rfl, hsame hwanted, rfl, Or.inr ⟨id, s.keyboard, rfl, ?_, hidle, rfl⟩⟩
      exact Bool.eq_false_of_not_eq_true hpressed
    | recStop => exact heard_finish H s _ s.macros s.keyboard true r (hsame hwanted)
    | other => exact heard_finish H s _ s.macros s.keyboard true r (hsame hwanted)

theorem whenRecording_heard (keycode : MacroKey) (r : ρ)
    (h : Recorded H.pressed s.macros (wanted H n s.heard)) (id : Side) (taken : List ρ)
    (hrecording : (wanted H n s.heard).recording = some (id, taken)) :
    Heard H s ({ s with heard := s.heard ++ [(keycode, r)] }.whenRecording H id keycode r)
      (keycode, r) := by
  have hwanted := wanted_concat H n s.heard (keycode, r)
  unfold MacroRecorder.hear at hwanted
  rw [hrecording] at hwanted
  have hsame : wanted H n (s.heard ++ [(keycode, r)]) = wanted H n s.heard →
      Recorded H.pressed s.macros (wanted H n (s.heard ++ [(keycode, r)])) := by
    intro hc
    rwa [hc]
  -- a key goes one of these two ways, or changes nothing
  obtain ⟨longer, hkey, hlonger⟩ :=
    DynamicMacro.recordKey_recorded H.pressed h id taken hrecording r
  obtain ⟨ended, hend, hended⟩ :=
    DynamicMacro.recordEnd_recorded H.pressed h id taken hrecording
  unfold whenRecording
  cases keycode with
  | recStart id' =>
    dsimp only at hwanted ⊢
    cases hr : H.pressed r with
    | true =>
      rw [if_neg (by simp)]
      rw [if_pos hr] at hwanted
      exact heard_finish H s _ s.macros s.keyboard false r (hsame hwanted)
    | false =>
      rw [if_pos (by simp), hend]
      rw [if_neg (by simp [hr])] at hwanted
      exact heard_finish H s _ ended s.keyboard false r (by rwa [hwanted])
  | recStop =>
    dsimp only at hwanted ⊢
    cases hr : H.pressed r with
    | true =>
      rw [if_pos rfl, hend]
      rw [if_pos hr] at hwanted
      exact heard_finish H s _ ended s.keyboard false r (by rwa [hwanted])
    | false =>
      rw [if_neg Bool.false_ne_true]
      rw [if_neg (by simp [hr])] at hwanted
      exact heard_finish H s _ s.macros s.keyboard false r (hsame hwanted)
  | play id' =>
    dsimp only at hwanted ⊢
    cases hnesting : H.noNesting with
    | true =>
      rw [if_pos rfl]
      rw [if_pos hnesting] at hwanted
      exact heard_finish H s _ s.macros s.keyboard false r (hsame hwanted)
    | false =>
      rw [if_neg Bool.false_ne_true, hkey]
      rw [if_neg (by simp [hnesting])] at hwanted
      exact heard_finish H s _ longer s.keyboard true r (by rwa [hwanted])
  | other =>
    rw [hkey]
    exact heard_finish H s _ longer s.keyboard true r (by rwa [hwanted])

theorem processDynamicMacro_heard (keycode : MacroKey) (r : ρ)
    (h : Recorded H.pressed s.macros (wanted H n s.heard)) :
    Heard H s (s.processDynamicMacro H keycode r) (keycode, r) := by
  have hholding := h.holding
  unfold Holding at hholding
  unfold processDynamicMacro
  cases hrecording : (wanted H n s.heard).recording with
  | none =>
    rw [hrecording] at hholding
    have hidle : s.macros.macroId = none := hholding.1
    rw [hidle]
    exact whenIdle_heard H s keycode r h hrecording hidle
  | some current =>
    rw [hrecording] at hholding
    have hid : s.macros.macroId = some current.1 := hholding.1
    rw [hid]
    exact whenRecording_heard H s keycode r h current.1 current.2 hrecording

theorem processRecord_cases (r : ρ) (h : Recorded H.pressed s.macros (wanted H n s.heard)) :
    (∃ keyboard, s.processRecord H r = { s with keyboard }) ∨
      ∃ keycode, H.keycode (H.before r s.keyboard) r = some keycode ∧
        Heard H s (s.processRecord H r) (keycode, r) := by
  unfold processRecord
  dsimp only
  cases hkeycode : H.keycode (H.before r s.keyboard) r with
  | none => exact Or.inl ⟨_, rfl⟩
  | some keycode =>
    refine Or.inr ⟨keycode, rfl, ?_⟩
    have hheard := processDynamicMacro_heard H
      { s with keyboard := H.before r s.keyboard } keycode r h
    exact ⟨hheard.unfaulted, hheard.heard, hheard.recorded, hheard.played, hheard.plays⟩

theorem inside_start {m : DynamicMacro n ρ} {c : MacroRecorder ρ} (h : Recorded H.pressed m c)
    (id : Side) (saved : σ) (r : ρ) (begun : Nat) :
    Inside n (MacroPlay.start m id saved r begun) := by
  have hfits := h.fits id
  exact ⟨0, (c.content id).length, Nat.zero_le _, by omega, rfl, h.ends id⟩

theorem processRecord_sound (r : ρ) (h : Sound H s) : Sound H (s.processRecord H r) := by
  rcases processRecord_cases H s r h.recorded with ⟨keyboard, heq⟩ | ⟨keycode, -, hheard⟩
  · rw [heq]
    exact ⟨h.unfaulted, h.recorded, h.inside⟩
  · refine ⟨hheard.unfaulted.trans h.unfaulted, hheard.recorded, ?_⟩
    rcases hheard.plays with hplays | ⟨id, keyboard, -, -, -, hplays⟩
    · rw [hplays]
      exact h.inside
    · rw [hplays]
      intro p hp
      rcases List.mem_cons.mp hp with rfl | hp
      · exact inside_start H h.recorded id keyboard r _
      · exact h.inside p hp

theorem fetchAt_place {m : DynamicMacro n ρ} (id : Side) (j : Nat) (hj : j < n) :
    ∃ r, fetchAt m.buffer (id.place n j) = some r := by
  obtain ⟨hpos, hlt⟩ := id.place_bounds hj
  unfold fetchAt
  rw [if_pos hpos]
  exact Checked.fetch_total _ _ hlt

theorem turn_cases (h : Sound H s) :
    s.plays = [] ∧ s.turn H = s ∨
      ∃ p rest, s.plays = p :: rest ∧
        (p.position = p.stop ∧ s.turn H = { s with plays := rest }.endPlay H p ∨
          p.position ≠ p.stop ∧ ∃ r, fetchAt s.macros.buffer p.position = some r ∧
            s.turn H = { s with
              plays := { p with
                position := p.position + p.id.direction, handed := p.handed ++ [r] } ::
                  rest }.processRecord H r) := by
  unfold turn
  cases hplays : s.plays with
  | nil => exact Or.inl ⟨rfl, rfl⟩
  | cons p rest =>
    refine Or.inr ⟨p, rest, rfl, ?_⟩
    dsimp only
    by_cases hstop : p.position = p.stop
    · rw [if_pos hstop]
      exact Or.inl ⟨hstop, rfl⟩
    · rw [if_neg hstop]
      rcases h.inside p (by rw [hplays]; exact List.mem_cons_self) with
        ⟨j, len, hj, hlen, hposition, hend⟩
      have hlt : j < n := by
        rcases Nat.lt_or_ge j len with hlt | hge
        · omega
        · exact absurd (by rw [hposition, hend, Nat.le_antisymm hj hge]) hstop
      obtain ⟨r, hr⟩ := fetchAt_place (m := s.macros) p.id j hlt
      rw [hposition, hr]
      exact Or.inr ⟨by rwa [← hposition], r, rfl, rfl⟩

theorem handOn_sound (p : MacroPlay σ ρ) (rest : List (MacroPlay σ ρ))
    (hplays : s.plays = p :: rest) (hstop : p.position ≠ p.stop) (r : ρ) (h : Sound H s) :
    Sound H { s with
      plays := { p with
        position := p.position + p.id.direction, handed := p.handed ++ [r] } :: rest } := by
  refine ⟨h.unfaulted, h.recorded, fun q hq => ?_⟩
  rcases List.mem_cons.mp hq with rfl | hq
  · rcases h.inside p (by rw [hplays]; exact List.mem_cons_self) with
      ⟨j, len, hj, hlen, hposition, hend⟩
    have hlt : j ≠ len := by
      rintro rfl
      exact hstop (hposition.trans hend.symm)
    exact ⟨j + 1, len, by omega, hlen, by rw [Side.place_succ, ← hposition], hend⟩
  · exact h.inside q (by rw [hplays]; exact List.mem_cons_of_mem p hq)

theorem turn_sound (h : Sound H s) : Sound H (s.turn H) := by
  rcases turn_cases H s h with ⟨-, heq⟩ | ⟨p, rest, hplays, ⟨-, heq⟩ | ⟨hstop, r, -, heq⟩⟩
  · rw [heq]
    exact h
  · rw [heq]
    exact ⟨h.unfaulted, h.recorded,
      fun q hq => h.inside q (by rw [hplays]; exact List.mem_cons_of_mem p hq)⟩
  · rw [heq]
    exact processRecord_sound H _ r (handOn_sound H s p rest hplays hstop r h)

theorem step_sound (i : MacroInput ρ) (h : Sound H s) : Sound H (s.step H i) := by
  cases i with
  | event r =>
    unfold step
    dsimp only
    split
    · exact processRecord_sound H s r h
    · exact h
  | turn => exact turn_sound H s h

theorem start_sound (keyboard : σ) (blank : ρ) : Sound H (start n keyboard blank) where
  unfaulted := rfl
  recorded := by
    refine ⟨fun _ => Nat.zero_le n, fun id => ?_, rfl, fun id => holds_nil _ id⟩
    cases id with
    | front => rfl
    | back => simp [start, DynamicMacro.init, DynamicMacro.endOf, wanted, Side.place]
  inside := fun p hp => absurd hp List.not_mem_nil

theorem Sound.ends {s : MacroRun n σ ρ} (h : Sound H s) :
    s.macros.macroEnd ≤ s.macros.rMacroEnd + 1 := by
  have hfront := h.recorded.ends .front
  have hback := h.recorded.ends .back
  have hfits := h.recorded.fits .front
  simp only [DynamicMacro.endOf, Side.place, Side.other] at hfront hback hfits
  omega

/-! ### What a play hands on -/

/-- No played record starts a recording, and none plays a macro that is being
    played. -/
def apart (s : MacroRun n σ ρ) : MacroInput ρ → Bool
  | .event _ => true
  | .turn =>
    match s.plays with
    | [] => true
    | p :: _ =>
      if p.position = p.stop then true
      else
        match fetchAt s.macros.buffer p.position with
        | none => true
        | some r =>
          H.pressed r ||
            match H.keycode (H.before r s.keyboard) r with
            | some (.recStart _) => false
            | some (.play id) => s.plays.all (fun q => q.id ≠ id)
            | _ => true

/-- What the macro should have held when it began to be played. -/
def contentAt (n : Nat) (heard : List (MacroKey × ρ)) (id : Side) (begun : Nat) : List ρ :=
  (wanted H n (heard.take begun)).content id

/-- The plays that have ended handed on what their macros should have held. -/
def PlaysWanted (s : MacroRun n σ ρ) : Prop :=
  ∀ id begun handed, (id, begun, handed) ∈ s.played → handed = contentAt H n s.heard id begun

/-- A play under way has handed on the beginning of what its macro should have
    held, which it still holds. -/
structure Playing (n : Nat) (heard : List (MacroKey × ρ)) (p : MacroPlay σ ρ) : Prop where
  begun : p.begun ≤ heard.length
  kept : (wanted H n heard).content p.id = contentAt H n heard p.id p.begun
  handed : ∃ j ≤ (contentAt H n heard p.id p.begun).length,
    p.handed = (contentAt H n heard p.id p.begun).take j ∧ p.position = p.id.place n j
  stop : p.stop = p.id.place n (contentAt H n heard p.id p.begun).length

structure Faithful (s : MacroRun n σ ρ) : Prop where
  playing : ∀ p ∈ s.plays, Playing H n s.heard p
  idle : s.plays ≠ [] → (wanted H n s.heard).recording = none
  once : (s.plays.map MacroPlay.id).Nodup
  ended : ∀ e ∈ s.played, e.2.1 ≤ s.heard.length
  wanted : PlaysWanted H s

theorem contentAt_concat (heard : List (MacroKey × ρ)) (e : MacroKey × ρ) (id : Side)
    (begun : Nat) (hbegun : begun ≤ heard.length) :
    contentAt H n (heard ++ [e]) id begun = contentAt H n heard id begun := by
  unfold contentAt
  rw [List.take_append_of_le_length hbegun]

theorem Playing.concat {heard : List (MacroKey × ρ)} {e : MacroKey × ρ} {p : MacroPlay σ ρ}
    (h : Playing H n heard p) (hsame : wanted H n (heard ++ [e]) = wanted H n heard) :
    Playing H n (heard ++ [e]) p := by
  have hcontent : contentAt H n (heard ++ [e]) p.id p.begun = contentAt H n heard p.id p.begun :=
    contentAt_concat H heard e p.id p.begun h.begun
  refine ⟨?_, ?_, ?_, ?_⟩
  · rw [List.length_append]
    exact h.begun.trans (Nat.le_add_right _ _)
  · rw [hsame, hcontent]
    exact h.kept
  · rw [hcontent]
    exact h.handed
  · rw [hcontent]
    exact h.stop

theorem hear_idle {c : MacroRecorder ρ} {keycode : MacroKey} {r : ρ} (hidle : c.recording = none)
    (hstart : H.pressed r = false → ∀ id, keycode ≠ .recStart id) :
    c.hear H.pressed n H.noNesting (keycode, r) = c := by
  unfold MacroRecorder.hear
  rw [hidle]
  dsimp only
  cases keycode with
  | recStart id =>
    cases hr : H.pressed r with
    | true => exact if_pos rfl
    | false => exact absurd rfl (hstart hr id)
  | recStop => rfl
  | play id => rfl
  | other => rfl

theorem recording_none {m : DynamicMacro n ρ} {c : MacroRecorder ρ} (h : Recorded H.pressed m c)
    (hid : m.macroId = none) : c.recording = none := by
  have hholding := h.holding
  unfold Holding at hholding
  cases hrecording : c.recording with
  | none => rfl
  | some current =>
    rw [hrecording] at hholding
    exact absurd (hid.symm.trans hholding.1) (Option.some_ne_none _).symm

theorem processRecord_faithful (r : ρ) (hsound : Sound H s) (h : Faithful H s)
    (hapart : s.plays ≠ [] → H.pressed r = false → ∀ keycode,
      H.keycode (H.before r s.keyboard) r = some keycode → (∀ id, keycode ≠ .recStart id) ∧
        ∀ id, keycode = .play id → ∀ q ∈ s.plays, q.id ≠ id) :
    Faithful H (s.processRecord H r) := by
  rcases processRecord_cases H s r hsound.recorded with
    ⟨keyboard, heq⟩ | ⟨keycode, hkeycode, hheard⟩
  · rw [heq]
    exact ⟨h.playing, h.idle, h.once, h.ended, h.wanted⟩
  · have hwanted := wanted_concat H n s.heard (keycode, r)
    -- what has been played and is being played began before this event
    have hended : ∀ e ∈ (s.processRecord H r).played,
        e.2.1 ≤ (s.processRecord H r).heard.length := by
      rw [hheard.played, hheard.heard, List.length_append]
      exact fun e he => (h.ended e he).trans (Nat.le_add_right _ _)
    have hplayed : PlaysWanted H (s.processRecord H r) := by
      intro id begun handed hmem
      rw [hheard.played] at hmem
      rw [hheard.heard, contentAt_concat H s.heard _ id begun (h.ended _ hmem)]
      exact h.wanted id begun handed hmem
    have hunchanged : s.plays ≠ [] → wanted H n (s.heard ++ [(keycode, r)]) = wanted H n s.heard :=
      fun hplays => hwanted.trans (hear_idle H (h.idle hplays)
        (fun hr => (hapart hplays hr keycode hkeycode).1))
    rcases hheard.plays with hplays | ⟨id, keyboard, hplay, hr, hid, hplays⟩
    · refine ⟨?_, ?_, ?_, hended, hplayed⟩
      · rw [hplays, hheard.heard]
        exact fun p hp => (h.playing p hp).concat H (hunchanged (List.ne_nil_of_mem hp))
      · rw [hplays, hheard.heard]
        intro hne
        rw [hunchanged hne]
        exact h.idle hne
      · rw [hplays]
        exact h.once
    · -- a play begins
      have hidle := recording_none H hsound.recorded hid
      have hsame : wanted H n (s.heard ++ [(keycode, r)]) = wanted H n s.heard := by
        refine hwanted.trans (hear_idle H hidle (fun _ id' hc => ?_))
        exact MacroKey.noConfusion (hc.symm.trans hplay)
      refine ⟨?_, fun _ => by rw [hheard.heard, hsame]; exact hidle, ?_, hended, hplayed⟩
      · rw [hplays, hheard.heard]
        intro p hp
        rcases List.mem_cons.mp hp with rfl | hp
        · have hcontent : contentAt H n (s.heard ++ [(keycode, r)]) id
              (s.heard ++ [(keycode, r)]).length = (wanted H n s.heard).content id := by
            unfold contentAt
            rw [List.take_length, hsame]
          refine ⟨Nat.le_refl _, ?_, ⟨0, Nat.zero_le _, ?_, rfl⟩, ?_⟩
          · rw [hsame]
            exact hcontent.symm
          · rw [List.take_zero]
            rfl
          · refine (hsound.recorded.ends id).trans ?_
            rw [← hcontent]
            rfl
        · exact (h.playing p hp).concat H (hunchanged (List.ne_nil_of_mem hp))
      · rw [hplays, List.map_cons, List.nodup_cons]
        refine ⟨fun hmem => ?_, h.once⟩
        rcases List.mem_map.mp hmem with ⟨q, hq, hqid⟩
        exact (hapart (List.ne_nil_of_mem hq) hr keycode hkeycode).2 id hplay q hq hqid


theorem turn_faithful (hsound : Sound H s) (h : Faithful H s) (hapart : apart H s .turn) :
    Faithful H (s.turn H) := by
  rcases turn_cases H s hsound with
    ⟨-, heq⟩ | ⟨p, rest, hplays, ⟨hstop, heq⟩ | ⟨hstop, r, hr, heq⟩⟩
  · rw [heq]
    exact h
  · rw [heq]
    have hmem : p ∈ s.plays := by
      rw [hplays]
      exact List.mem_cons_self
    have hrest : ∀ q ∈ rest, q ∈ s.plays := by
      intro q hq
      rw [hplays]
      exact List.mem_cons_of_mem p hq
    have honce := h.once
    rw [hplays, List.map_cons, List.nodup_cons] at honce
    rcases h.playing p hmem with ⟨hbegun, hkept, ⟨j, hj, hhanded, hposition⟩, hend⟩
    refine ⟨fun q hq => h.playing q (hrest q hq), fun _ => h.idle (List.ne_nil_of_mem hmem),
      honce.2, fun e he => ?_, fun id begun handed he => ?_⟩
    · rcases List.mem_append.mp he with he | he
      · exact h.ended e he
      · rw [List.mem_singleton.mp he]
        exact hbegun
    · rcases List.mem_append.mp he with he | he
      · exact h.wanted id begun handed he
      · cases List.mem_singleton.mp he
        have hall : j = (contentAt H n s.heard p.id p.begun).length :=
          Side.place_inj (hposition.symm.trans (hstop.trans hend))
        rw [hhanded, hall, List.take_length]
        rfl
  · rw [heq]
    have hmem : p ∈ s.plays := by
      rw [hplays]
      exact List.mem_cons_self
    have hne : s.plays ≠ [] := List.ne_nil_of_mem hmem
    rcases h.playing p hmem with ⟨hbegun, hkept, ⟨j, hj, hhanded, hposition⟩, hend⟩
    have hlt : j < (contentAt H n s.heard p.id p.begun).length := by
      refine Nat.lt_of_le_of_ne hj (fun hc => hstop ?_)
      rw [hposition, hend, hc]
    -- nothing is recorded, so the buffer holds what the macro held at the call
    have hholding := hsound.recorded.holding
    unfold Holding at hholding
    rw [h.idle hne] at hholding
    have hholds := hholding.2 p.id
    rw [hkept] at hholds
    have hrecord : r = (contentAt H n s.heard p.id p.begun)[j] := by
      have hread := hholds j hlt
      rw [← hposition, hr] at hread
      exact Option.some.inj hread
    refine processRecord_faithful H _ r (handOn_sound H s p rest hplays hstop r hsound) ?_ ?_
    · refine ⟨fun q hq => ?_, fun _ => h.idle hne, ?_, h.ended, h.wanted⟩
      · rcases List.mem_cons.mp hq with rfl | hq
        · refine ⟨hbegun, hkept, ⟨j + 1, hlt, ?_, ?_⟩, hend⟩
          · change p.handed ++ [r] = _
            rw [hhanded, hrecord]
            exact (List.take_succ_eq_append_getElem hlt).symm
          · change p.position + p.id.direction = _
            rw [hposition, ← Side.place_succ]
        · exact h.playing q (by rw [hplays]; exact List.mem_cons_of_mem p hq)
      · have honce := h.once
        rw [hplays] at honce
        exact honce
    · intro _ hreleased keycode hkeycode
      unfold apart at hapart
      rw [hplays] at hapart
      dsimp only at hapart
      rw [if_neg hstop, hr] at hapart
      dsimp only at hapart
      rw [hreleased, Bool.false_or, hkeycode] at hapart
      cases keycode with
      | recStart id => exact absurd hapart Bool.false_ne_true
      | recStop => exact ⟨fun _ hc => MacroKey.noConfusion hc, fun _ hc => MacroKey.noConfusion hc⟩
      | other => exact ⟨fun _ hc => MacroKey.noConfusion hc, fun _ hc => MacroKey.noConfusion hc⟩
      | play id =>
        refine ⟨fun _ hc => MacroKey.noConfusion hc, fun id' hid q hq => ?_⟩
        cases hid
        have hother : ∀ q ∈ p :: rest, q.id ≠ id := by simpa using hapart
        rcases List.mem_cons.mp hq with rfl | hq
        · exact hother p List.mem_cons_self
        · exact hother q (List.mem_cons_of_mem p hq)

theorem step_faithful (i : MacroInput ρ) (hsound : Sound H s) (h : Faithful H s)
    (hapart : apart H s i) : Faithful H (s.step H i) := by
  cases i with
  | event r =>
    unfold step
    dsimp only
    split
    next hplays =>
      refine processRecord_faithful H s r hsound h (fun hne => ?_)
      exact absurd (List.isEmpty_iff.mp hplays) hne
    next => exact h
  | turn => exact turn_faithful H s hsound h hapart

theorem start_faithful (keyboard : σ) (blank : ρ) : Faithful H (start n keyboard blank) where
  playing := fun _ hp => absurd hp List.not_mem_nil
  idle := fun hne => absurd rfl hne
  once := List.nodup_nil
  ended := fun _ he => absurd he List.not_mem_nil
  wanted := fun _ _ _ he => absurd he List.not_mem_nil

/-! ### That a play ends -/

def left (p : MacroPlay σ ρ) : Nat :=
  ((p.stop - p.position) * p.id.direction).toNat

theorem left_eq {p : MacroPlay σ ρ} {j len : Nat} (hposition : p.position = p.id.place n j)
    (hstop : p.stop = p.id.place n len) : left p = len - j := by
  unfold left
  rw [hposition, hstop]
  cases p.id <;> simp only [Side.place, Side.direction] <;> omega

theorem Inside.left_le {p : MacroPlay σ ρ} (h : Inside n p) : left p ≤ n := by
  rcases h with ⟨j, len, hj, hlen, hposition, hstop⟩
  rw [left_eq hposition hstop]
  omega

theorem Inside.left_next {p : MacroPlay σ ρ} (h : Inside n p) (hstop : p.position ≠ p.stop)
    (handed : List ρ) :
    left { p with position := p.position + p.id.direction, handed := handed } + 1 = left p := by
  rcases h with ⟨j, len, hj, -, hposition, hend⟩
  have hne : j ≠ len := by
    rintro rfl
    exact hstop (hposition.trans hend.symm)
  have hnext : p.position + p.id.direction = p.id.place n (j + 1) := by
    rw [hposition, Side.place_succ]
  rw [left_eq hposition hend,
    left_eq (p := { p with position := p.position + p.id.direction, handed := handed }) hnext hend]
  omega

/-- How many turns the plays under way can take. There are two macros, so a
    record of the outer play may be a whole play of the other macro, and a
    record of the inner one is no play. -/
def load (n : Nat) : List (MacroPlay σ ρ) → Nat
  | [] => 0
  | p :: rest => left p * (if rest.isEmpty then n + 2 else 1) + 1 + load n rest

theorem plays_once {p q q' : MacroPlay σ ρ} {rest : List (MacroPlay σ ρ)} :
    ¬ ((p :: q :: q' :: rest).map MacroPlay.id).Nodup := by
  intro h
  simp only [List.map_cons, List.nodup_cons, List.mem_cons, not_or] at h
  cases hp : p.id <;> cases hq : q.id <;> cases hq' : q'.id <;> simp [hp, hq, hq'] at h

theorem turn_load (hsound : Sound H s) (h : Faithful H s) (hapart : apart H s .turn)
    (hplays : s.plays ≠ []) : load n (s.turn H).plays < load n s.plays := by
  have honce := (turn_faithful H s hsound h hapart).once
  have hinside := (turn_sound H s hsound).inside
  rcases turn_cases H s hsound with
    ⟨hnone, -⟩ | ⟨p, rest, hstack, ⟨-, heq⟩ | ⟨hstop, r, -, heq⟩⟩
  · exact absurd hnone hplays
  · rw [heq, hstack]
    change load n rest < load n (p :: rest)
    rw [load]
    omega
  · have hleft := (hsound.inside p (by rw [hstack]; exact List.mem_cons_self)).left_next hstop
      (p.handed ++ [r])
    have hgone := handOn_sound H s p rest hstack hstop r hsound
    rw [heq] at honce hinside ⊢
    rw [hstack]
    generalize hnext : { p with
      position := p.position + p.id.direction, handed := p.handed ++ [r] } = p'
      at honce hinside hleft hgone ⊢
    have hstacked : ∀ plays, plays = p' :: rest → load n plays < load n (p :: rest) := by
      rintro plays rfl
      rw [load, load, ← hleft, Nat.add_mul]
      split <;> omega
    rcases processRecord_cases H { s with plays := p' :: rest } r hgone.recorded with
      ⟨keyboard, hsame⟩ | ⟨keycode, -, hheard⟩
    · rw [hsame]
      exact hstacked _ rfl
    · rcases hheard.plays with hsame | ⟨id, keyboard, -, -, -, hpush⟩
      · exact hstacked _ hsame
      · -- a play of the other macro begins
        rw [hpush] at honce hinside ⊢
        cases rest with
        | cons q rest => exact absurd honce plays_once
        | nil =>
          have hnew := (hinside _ List.mem_cons_self).left_le
          change load n (_ :: [p']) < load n [p]
          simp only [load, List.isEmpty_cons, List.isEmpty_nil, if_true, Bool.false_eq_true,
            if_false]
          rw [← hleft, Nat.add_mul]
          dsimp only at hnew ⊢
          omega

theorem load_le (hsound : Sound H s) (h : Faithful H s) : load n s.plays ≤ (n + 1) * (n + 2) := by
  have honce := h.once
  have hinside := hsound.inside
  have hsplit : (n + 1) * (n + 2) = n * (n + 2) + (n + 2) := by rw [Nat.add_mul, Nat.one_mul]
  cases hplays : s.plays with
  | nil => exact Nat.zero_le _
  | cons p rest =>
    rw [hplays] at honce hinside
    have hp := (hinside p List.mem_cons_self).left_le
    cases rest with
    | nil =>
      have hmul := Nat.mul_le_mul_right (n + 2) hp
      simp only [load, List.isEmpty_nil, if_true]
      omega
    | cons q rest =>
      have hq := (hinside q (List.mem_cons_of_mem p List.mem_cons_self)).left_le
      cases rest with
      | cons q' rest => exact absurd honce plays_once
      | nil =>
        have hmul := Nat.mul_le_mul_right (n + 2) hq
        simp only [load, List.isEmpty_cons, List.isEmpty_nil, if_true, Bool.false_eq_true,
          if_false]
        omega

theorem turns_end (turns : Nat) :
    ∀ s : MacroRun n σ ρ, Sound H s → Faithful H s → load n s.plays ≤ turns →
      Along (step H) (fun s i => apart H s i = true) s (List.replicate turns .turn) →
      (run (step H) s (List.replicate turns .turn)).plays = [] := by
  induction turns with
  | zero =>
    intro s _ _ hload _
    cases hplays : s.plays with
    | nil => exact hplays
    | cons p rest =>
      rw [hplays] at hload
      unfold load at hload
      omega
  | succ turns ih =>
    intro s hsound h hload halong
    rw [List.replicate_succ] at halong ⊢
    rcases halong with ⟨hapart, halong⟩
    rw [run_cons]
    refine ih (s.step H .turn) (step_sound H s .turn hsound)
      (step_faithful H s .turn hsound h hapart) ?_ halong
    by_cases hplays : s.plays = []
    · have hidle : s.step H .turn = s := by
        change s.turn H = s
        unfold turn
        rw [hplays]
      rw [hidle, hplays]
      exact Nat.zero_le _
    · have hless := turn_load H s hsound h hapart hplays
      change load n (s.turn H).plays ≤ turns
      omega

/-- Whatever is recorded and played, the buffer is kept to and the two ends do
    not pass each other. A play that ends has handed on what was recorded into
    its macro last, as long as no record that is played starts a recording or
    plays a macro under way, and then every play ends. -/
theorem dynamic_macros (H : MacroHost σ ρ) (n : Nat) (keyboard : σ) (blank : ρ)
    (inputs : List (MacroInput ρ)) :
    Always (step H) (fun s => s.faulted = false ∧ s.macros.macroEnd ≤ s.macros.rMacroEnd + 1)
        (start n keyboard blank) inputs ∧
      (Along (step H) (fun s i => apart H s i = true) (start n keyboard blank) inputs →
        Always (step H) (PlaysWanted H) (start n keyboard blank) inputs ∧
          ∀ turns, (n + 1) * (n + 2) ≤ turns →
            Along (step H) (fun s i => apart H s i = true)
                (run (step H) (start n keyboard blank) inputs) (List.replicate turns .turn) →
              (run (step H) (run (step H) (start n keyboard blank) inputs)
                (List.replicate turns .turn)).plays = []) := by
  have hstart := start_sound H (n := n) keyboard blank
  refine ⟨?_, fun halong => ⟨?_, fun turns hturns hmore => ?_⟩⟩
  · refine always_of_along (step H) (fun _ _ => True) (Sound H) _
      (fun s hs => ⟨hs.unfaulted, hs.ends⟩) (fun s i hs _ => step_sound H s i hs) inputs _ hstart ?_
    exact along_of_forall _ _ _ (fun _ _ _ => trivial) _
  · exact always_of_along (step H) _ (fun s => Sound H s ∧ Faithful H s) _
      (fun s hs => hs.2.wanted)
      (fun s i hs hi => ⟨step_sound H s i hs.1, step_faithful H s i hs.1 hs.2 hi⟩) inputs _
      ⟨hstart, start_faithful H keyboard blank⟩ halong
  · obtain ⟨hsound, hfaithful⟩ := run_invariant_along (step H) _
      (fun s => Sound H s ∧ Faithful H s)
      (fun s i hs hi => ⟨step_sound H s i hs.1, step_faithful H s i hs.1 hs.2 hi⟩) inputs _
      ⟨hstart, start_faithful H keyboard blank⟩ halong
    exact turns_end H turns _ hsound hfaithful ((load_le H _ hsound hfaithful).trans hturns) hmore

/-! ### Where it does not hold -/

/-- A keyboard of two layers. On both a key starts a recording of macro 1, one
    stops it, and one plays it; one key changes the layer. On the second layer
    three keys of the first are start keys and a stop key. -/
def layered : MacroHost Bool (Nat × Bool) where
  pressed r := r.2
  before _ layer := layer
  keycode layer r := some (
    match r.1, layer with
    | 10, _ => .recStart .front
    | 11, _ => .recStop
    | 12, _ => .play .front
    | 1, true => .recStart .front
    | 2, true => .recStop
    | 3, true => .recStart .back
    | _, _ => .other)
  after _ r layer := layer || r.1 == 13
  clear layer := layer
  restore _ layer := layer
  noNesting := false

/-- Macro 1 is recorded, and played once. -/
def recordAndPlay (records : List (Nat × Bool)) : List (MacroInput (Nat × Bool)) :=
  [.event (10, false)] ++ records.map .event ++ [.event (11, true), .event (12, false)]

/-- Macro 1 is recorded, the layer is changed, and macro 1 is played. -/
def recordAndChange (records : List (Nat × Bool)) : List (MacroInput (Nat × Bool)) :=
  [.event (10, false)] ++ records.map .event ++
    [.event (11, true), .event (13, true), .event (12, false)]

/-- A tap is recorded and played. -/
theorem dynamic_macros_tap :
    Always (step layered) (PlaysWanted layered) (start 2 false (0, false))
        (recordAndPlay [(4, true), (4, false)]) ∧
      (run (step layered) (run (step layered) (start 2 false (0, false))
        (recordAndPlay [(4, true), (4, false)])) (List.replicate 12 .turn)).plays = [] := by
  obtain ⟨-, h⟩ := dynamic_macros layered 2 false (0, false)
    (recordAndPlay [(4, true), (4, false)])
  obtain ⟨hwanted, hend⟩ := h (by decide +kernel)
  exact ⟨hwanted, hend 12 (by decide) (by decide +kernel)⟩

structure Recursing (s : MacroRun 2 Bool (Nat × Bool)) : Prop where
  idle : s.macros.macroId = none
  front : s.macros.macroEnd = 2
  press : fetchAt s.macros.buffer 0 = some (12, true)
  release : fetchAt s.macros.buffer 1 = some (12, false)
  playing : ∃ p rest, s.plays = p :: rest ∧ p.id = .front ∧ p.stop = 2 ∧
    (p.position = 0 ∨ p.position = 1)

theorem turn_recursing (s : MacroRun 2 Bool (Nat × Bool)) (h : Recursing s) :
    Recursing (s.turn layered) := by
  rcases h with ⟨hidle, hfront, hpress, hrelease, ⟨p, rest, hplays, hid, hstop, hposition⟩⟩
  unfold turn
  rw [hplays]
  dsimp only
  rcases hposition with hposition | hposition
  · rw [if_neg (by rw [hposition, hstop]; decide), hposition, hpress]
    simp only [processRecord, processDynamicMacro, whenIdle, finish, layered, hidle, if_true]
    refine ⟨hidle, hfront, hpress, hrelease, ⟨_, rest, rfl, hid, hstop, Or.inr ?_⟩⟩
    rw [hid]
    rfl
  · rw [if_neg (by rw [hposition, hstop]; decide), hposition, hrelease]
    simp only [processRecord, processDynamicMacro, whenIdle, play, layered, hidle,
      Bool.false_eq_true, if_false]
    exact ⟨hidle, hfront, hpress, hrelease, ⟨_, _, rfl, rfl, hfront, Or.inl rfl⟩⟩

theorem step_recursing (s : MacroRun 2 Bool (Nat × Bool)) (i : MacroInput (Nat × Bool))
    (h : Recursing s) : Recursing (s.step layered i) := by
  cases i with
  | event r =>
    obtain ⟨p, rest, hplays, -⟩ := h.playing
    unfold step
    rw [hplays]
    exact h
  | turn => exact turn_recursing s h

theorem recursing_recorded :
    Recursing (run (step layered) (start 2 false (0, false))
      (recordAndPlay [(12, true), (12, false)])) where
  idle := by decide
  front := by decide
  press := by decide
  release := by decide
  playing := ⟨_, _, rfl, rfl, by decide, Or.inl (by decide)⟩

/-- A macro that is its own play key does not end. And with the layer changed,
    records of a macro are start keys, and the last record a play hands on is
    one that has been recorded while it went on. -/
theorem dynamic_macros_broken :
    (∀ turns,
      (run (step layered) (start 2 false (0, false))
        (recordAndPlay [(12, true), (12, false)] ++ List.replicate turns .turn)).plays ≠ []) ∧
    ¬ PlaysWanted layered (run (step layered) (start 7 false (0, false))
        (recordAndChange [(0, true), (1, false), (2, true), (3, false), (4, true), (5, true),
          (6, false)] ++ List.replicate 8 .turn)) := by
  refine ⟨?_, fun h => ?_⟩
  · intro turns
    rw [run_append]
    obtain ⟨p, rest, hplays, -⟩ :=
      (run_invariant (step layered) Recursing step_recursing (List.replicate turns .turn) _
        recursing_recorded).playing
    rw [hplays]
    exact List.cons_ne_nil p rest
  · have hlast := h .front 11 [(0, true), (1, false), (2, true), (3, false), (4, true), (5, true),
      (4, true)] (by decide +kernel)
    exact absurd hlast (by decide +kernel)

end MacroRun

end K530
