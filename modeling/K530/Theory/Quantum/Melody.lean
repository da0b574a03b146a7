import K530.Theory.Quantum.Tones

/-!
# The End of a Melody

A melody is played note by note, and each note is read at a place before the end. When the last
note is over, `audio_update_state` calls `audio_stop_all`, and that is what ends the melody. But
`audio_stop_all` does nothing if the driver has been stopped already, which is the case whenever
there is no tone. Then the melody goes on behind its end.

So it ends exactly if there is a tone whenever it is to end.

## Main definitions

* `Melody`: The notes of one.

## Theorems

* `melody_ends_iff`: When the law holds.
* `melody_goes_on`: The only note is stopped, and then it is over.
-/

namespace K530

open Checked
open StepRun

universe u

/-- The notes of a melody: at least one, and as many as a `uint16_t` counts. -/
structure Melody (P : Type u) where
  notes : List (Note P)
  nonempty : notes ≠ []
  length_lt : notes.length < 2 ^ 16

namespace Audio

variable {b : AudioBuild} {P : Type u} {s s' : Audio b P} {stack : List (MusicalTone P)}

structure Melodic (s : Audio b P) : Prop where
  once : s.notesRepeat = false
  current : s.currentNote < s.notes.length
  length_lt : s.notes.length < 2 ^ 16

theorem Melodic.congr (h : s.Melodic) (hmelody : SameMelody s s') : s'.Melodic where
  once := hmelody.repeats.trans h.once
  current := by
    rw [hmelody.current, hmelody.notes]
    exact h.current
  length_lt := by
    rw [hmelody.notes]
    exact h.length_lt

theorem Melodic.advance_currentNote (h : s.Melodic) (now : BitVec 16) :
    (s.advance now).currentNote = s.currentNote + 1 := by
  have hcurrent := h.current
  have hlen := h.length_lt
  exact Nat.mod_eq_of_lt (by omega)

theorem noteAt_of_lt {i : Nat} (hi : i < s.notes.length) : s.noteAt i = .ok s.notes[i] := by
  unfold noteAt
  rw [List.getElem?_eq_getElem hi]
  rfl

/-- The melody is at its last note, and that is over. -/
def LastOver (c : AudioClock) (s : Audio b P) : Prop :=
  s.noteOver c ∧ s.notes.length ≤ s.currentNote + 1

instance (c : AudioClock) (s : Audio b P) : Decidable (s.LastOver c) :=
  inferInstanceAs (Decidable (_ ∧ _))

/-! ### The notes that are read -/

theorem skip_total (behind : Nat) (delta : BitVec 16) (current : Nat) (duration : BitVec 16)
    (hbehind : current + behind < s.notes.length) :
    ∃ out, s.skip behind delta current duration = .ok out ∧ out.2.1 < s.notes.length := by
  induction behind generalizing delta current duration with
  | zero => exact ⟨_, rfl, hbehind⟩
  | succ behind ih =>
    unfold skip
    split
    · rw [noteAt_of_lt (show current + 1 < s.notes.length by omega)]
      exact ih _ _ _ (by omega)
    · exact ⟨_, rfl, show current < s.notes.length by omega⟩

theorem report_sameMelody (s : Audio b P) (goto : Bool) : SameMelody s (s.report goto).2 := by
  unfold report
  split
  · exact ⟨rfl, rfl, rfl, rfl, rfl, rfl, rfl⟩
  · exact .refl s

variable [DecidableEq P]

theorem startNote_total (h : s.Stacked stack) (hmelodic : s.Melodic) (play delta : BitVec 16) :
    ∃ s' stack', s.startNote play delta = .ok s' ∧ s'.Stacked stack' ∧ s'.Melodic ∧
      s'.playingMelody = s.playingMelody := by
  have hcurrent := hmelodic.current
  have hbehind : s.currentNote + (s.notes.length - 1 - s.currentNote) < s.notes.length := by omega
  obtain ⟨out, hout, hnote⟩ := skip_total (s.notes.length - 1 - s.currentNote) delta
    s.currentNote s.notes[s.currentNote].duration hbehind
  have hset : ({ s with noteResting := false, currentNote := out.2.1 } : Audio b P).Stacked
      stack := h.congr rfl rfl rfl rfl
  obtain ⟨s', stack', hs', hmelody, hstack, -⟩ := hset.playNote_ne_nil play
    s.notes[out.2.1].pitch (if out.1 < out.2.2 then out.2.2 - out.1 else 1)
  refine ⟨{ s' with
    melodyCurrentNoteDuration := if out.1 < out.2.2 then out.2.2 - out.1 else 1 }, stack', ?_,
    hstack.congr rfl rfl rfl rfl, ⟨hmelody.repeats.trans hmelodic.once, ?_, ?_⟩,
    hmelody.playing⟩
  · unfold startNote
    rw [noteAt_of_lt hcurrent]
    show Except.bind (s.skip _ _ _ _) _ = _
    rw [hout]
    show Except.bind (s.noteAt out.2.1) _ = _
    rw [noteAt_of_lt hnote]
    show Except.map _ (orFault .stack (playNote play _ _ _)) = _
    rw [hs']
    rfl
  · show s'.currentNote < s'.notes.length
    rw [hmelody.current, hmelody.notes]
    exact hnote
  · show s'.notes.length < 2 ^ 16
    rw [hmelody.notes]
    exact hmelodic.length_lt

theorem rest_total [Zero P] (h : s.Stacked stack) (hmelodic : s.Melodic) (play : BitVec 16)
    (previous : Nat) (hprevious : previous < s.notes.length) :
    ∃ s' stack', s.rest play previous = .ok s' ∧ s'.Stacked stack' ∧ s'.Melodic ∧
      s'.playingMelody = s.playingMelody := by
  have hset : ({ s with noteResting := true } : Audio b P).Stacked stack :=
    h.congr rfl rfl rfl rfl
  obtain ⟨s', stack', hs', hmelody, hstack, -⟩ := hset.playNote_ne_nil play 0 b.pause
  refine ⟨{ s' with currentNote := previous, melodyCurrentNoteDuration := b.pause }, stack', ?_,
    hstack.congr rfl rfl rfl rfl, ⟨hmelody.repeats.trans hmelodic.once, ?_, ?_⟩,
    hmelody.playing⟩
  · unfold rest
    rw [hs']
    rfl
  · show previous < s'.notes.length
    rw [hmelody.notes]
    exact hprevious
  · show s'.notes.length < 2 ^ 16
    rw [hmelody.notes]
    exact hmelodic.length_lt

section Next

variable [Zero P]

theorem nextNote_total (h : s.Stacked stack) (hmelodic : s.Melodic) (c : AudioClock)
    (hmore : s.currentNote + 1 < s.notes.length) :
    ∃ s' stack', s.nextNote c = .ok (false, s') ∧ s'.Stacked stack' ∧ s'.Melodic ∧
      s'.playingMelody = s.playingMelody := by
  have hnow : (s.advance c.current).Stacked stack := h.congr rfl rfl rfl rfl
  have hmore' : (s.advance c.current).currentNote < (s.advance c.current).notes.length := by
    rw [hmelodic.advance_currentNote]
    exact hmore
  have hbefore : s.currentNote < (s.advance c.current).notes.length := hmelodic.current
  have hmelodic' : (s.advance c.current).Melodic := ⟨hmelodic.once, hmore', hmelodic.length_lt⟩
  unfold nextNote
  dsimp only
  rw [if_neg (fun hend => Nat.not_le_of_lt hmore' hend.1), if_neg (Nat.not_le_of_lt hmore')]
  have hrepeats : ∃ again, (s.advance c.current).repeats s.currentNote = .ok again := by
    unfold repeats
    split
    · exact ⟨false, rfl⟩
    · rw [noteAt_of_lt hbefore, noteAt_of_lt hmore']
      exact ⟨_, rfl⟩
  obtain ⟨again, hagain⟩ := hrepeats
  rw [hagain]
  cases again with
  | true =>
    obtain ⟨s', stack', hs', hstack, hnew, hplaying⟩ :=
      rest_total hnow hmelodic' c.play s.currentNote hbefore
    refine ⟨s', stack', ?_, hstack, hnew, hplaying⟩
    show Except.map _ ((s.advance c.current).rest c.play s.currentNote) = _
    rw [hs']
    rfl
  | false =>
    obtain ⟨s', stack', hs', hstack, hnew, hplaying⟩ :=
      startNote_total hnow hmelodic' c.play
        (c.late - s.lastTimestamp - s.melodyCurrentNoteDuration)
    refine ⟨s', stack', ?_, hstack, hnew, hplaying⟩
    show Except.map _ ((s.advance c.current).startNote c.play _) = _
    rw [hs']
    rfl

theorem nextNote_last (hmelodic : s.Melodic) (c : AudioClock)
    (hlast : s.notes.length ≤ s.currentNote + 1) :
    s.nextNote c = .ok (true, (s.advance c.current).stopAll) := by
  rw [← hmelodic.advance_currentNote c.current] at hlast
  exact if_pos ⟨hlast, hmelodic.once⟩

end Next

/-! ### An update -/

theorem updateTones_cases (h : s.Stacked stack) (c : AudioClock) :
    s.updateTones c = .error .division ∨
      ∃ s' stack', s.updateTones c = .ok s' ∧ s'.Stacked stack' ∧ SameMelody s s' := by
  by_cases hzero : s.playingNote ∧ b.multiplexing ∧ s.multiplexingRate = 0
  · exact Or.inl (updateTones_eq_error c hzero.1 hzero.2.1 hzero.2.2)
  · refine Or.inr (h.updateTones c (fun hplaying hmultiplexing hrate => ?_))
    exact hzero ⟨hplaying, hmultiplexing, hrate⟩

theorem update_last [Zero P] (hmelodic : s.Melodic) (effects : Bool) (c : AudioClock)
    (hlast : s.LastOver c) :
    s.update effects c = .ok (false, (s.advance c.current).stopAll) := by
  unfold update
  rw [if_neg (fun hquiet => Bool.noConfusion (hquiet.2.symm.trans hlast.1.1)), if_pos hlast.1,
    nextNote_last hmelodic c hlast.2]
  rfl

theorem update_going [Zero P] (h : s.Stacked stack)
    (hmelodic : s.playingMelody → s.Melodic) (effects : Bool) (c : AudioClock)
    (hgoing : ¬ s.LastOver c) :
    s.update effects c = .error .division ∨
      ∃ out stack', s.update effects c = .ok out ∧ out.2.Stacked stack' ∧
        out.2.playingMelody = s.playingMelody ∧ (s.playingMelody → out.2.Melodic) := by
  unfold update
  by_cases hquiet : s.playingNote = false ∧ s.playingMelody = false
  · exact Or.inr ⟨(false, s), stack, if_pos hquiet, h, rfl, hmelodic⟩
  rw [if_neg hquiet]
  -- the melody goes to its next note, or stays where it is
  have hnext : ∃ s₁ stack₁, (if s.noteOver c then s.nextNote c else .ok (false, s)) =
      .ok (false, s₁) ∧ s₁.Stacked stack₁ ∧ s₁.playingMelody = s.playingMelody ∧
      (s.playingMelody → s₁.Melodic) := by
    by_cases hover : s.noteOver c
    · have hnow := hmelodic hover.1
      have hmore : s.currentNote + 1 < s.notes.length :=
        Nat.lt_of_not_le (fun hlast => hgoing ⟨hover, hlast⟩)
      obtain ⟨s₁, stack₁, hs₁, h₁, hmelodic₁, hplaying₁⟩ := nextNote_total h hnow c hmore
      exact ⟨s₁, stack₁, by rw [if_pos hover, hs₁], h₁, hplaying₁, fun _ => hmelodic₁⟩
    · exact ⟨s, stack, if_neg hover, h, rfl, hmelodic⟩
  obtain ⟨s₁, stack₁, hs₁, h₁, hplaying₁, hmelodic₁⟩ := hnext
  rw [hs₁]
  rcases updateTones_cases h₁ c with hzero | ⟨s₂, stack₂, hs₂, h₂, hmelody₂⟩
  · refine Or.inl ?_
    show Except.map _ (s₁.updateTones c) = _
    rw [hzero]
    rfl
  · refine Or.inr ⟨s₂.report (decide (s.noteOver c) ||
      (s₁.playingNote && (b.multiplexing || effects))), stack₂, ?_, h₂.report _, ?_,
      fun hplaying => ?_⟩
    · show Except.map _ (s₁.updateTones c) = _
      rw [hs₂]
      rfl
    · exact (report_playingMelody s₂ _).trans (hmelody₂.playing.trans hplaying₁)
    · exact ((hmelodic₁ hplaying).congr hmelody₂).congr (report_sameMelody s₂ _)

end Audio

/-! ### Runs -/

/-- A melody is started, or another call is made. -/
inductive MelodyCall (P : Type u) where
  | playMelody (play start : BitVec 16) (melody : Melody P)
  | tone (call : ToneCall P)

/-- The variables, and whether the melody should be over: its last note has been found over, or
    all has been stopped. -/
structure MelodyRun (b : AudioBuild) (P : Type u) where
  audio : Audio b P
  ended : Bool
deriving DecidableEq

namespace MelodyRun

variable {b : AudioBuild} {P : Type u}

def init (b : AudioBuild) (P : Type u) : MelodyRun b P :=
  { audio := .init b P, ended := false }

/-- A call after which the melody should be over. -/
def Ends (s : Audio b P) : ToneCall P → Prop
  | .stopAll => True
  | .update _ c => s.LastOver c
  | _ => False

instance (s : Audio b P) : (call : ToneCall P) → Decidable (Ends s call)
  | .playNote _ _ _ => inferInstanceAs (Decidable False)
  | .playTone _ _ => inferInstanceAs (Decidable False)
  | .stopTone _ => inferInstanceAs (Decidable False)
  | .stopAll => inferInstanceAs (Decidable True)
  | .update _ c => inferInstanceAs (Decidable (s.LastOver c))
  | .setRate _ => inferInstanceAs (Decidable False)
  | .enableMultiplexing => inferInstanceAs (Decidable False)
  | .disableMultiplexing => inferInstanceAs (Decidable False)
  | .increaseRate _ => inferInstanceAs (Decidable False)
  | .decreaseRate _ => inferInstanceAs (Decidable False)

/-- The law: no note is read that there is not, and the melody is over when it should be. What
    is done after a division by zero is not said. -/
def Law : Except AudioFault (MelodyRun b P) → Prop
  | .ok r => r.ended = true → r.audio.playingMelody = false
  | .error fault => fault = .division

instance : (x : Except AudioFault (MelodyRun b P)) → Decidable (Law x)
  | .ok _ => inferInstanceAs (Decidable (_ → _))
  | .error fault => inferInstanceAs (Decidable (fault = .division))

/-- The condition: there is a tone whenever a melody should end. -/
def Sounds : Except AudioFault (MelodyRun b P) → MelodyCall P → Prop
  | .ok r, .tone call =>
    r.audio.playingMelody = true → Ends r.audio call → r.audio.driverStopped = false
  | _, _ => True

section

variable [DecidableEq P] [Zero P]

def step (r : MelodyRun b P) : MelodyCall P → Except AudioFault (MelodyRun b P)
  | .playMelody play start melody =>
    (r.audio.playMelody play start melody.notes false).map (fun audio =>
      { audio, ended := false })
  | .tone call =>
    (call.run r.audio).map (fun audio =>
      { audio, ended := r.ended || decide (Ends r.audio call) })

def next (x : Except AudioFault (MelodyRun b P)) (call : MelodyCall P) :
    Except AudioFault (MelodyRun b P) :=
  x.bind (fun r => r.step call)

end

structure Kept (r : MelodyRun b P) : Prop where
  stacked : ∃ stack, r.audio.Stacked stack
  melodic : r.audio.playingMelody = true → r.audio.Melodic ∧ r.ended = false

def Going : Except AudioFault (MelodyRun b P) → Prop
  | .ok r => r.Kept
  | .error fault => fault = .division

theorem init_kept : (init b P).Kept where
  stacked := ⟨[], Audio.init_stacked⟩
  melodic hplaying := absurd hplaying Bool.false_ne_true

theorem Kept.law {r : MelodyRun b P} (h : r.Kept) : Law (.ok r) := by
  intro hended
  cases hplaying : r.audio.playingMelody with
  | false => rfl
  | true => exact absurd ((h.melodic hplaying).2.symm.trans hended) Bool.false_ne_true

theorem stopAll_playingMelody (s : Audio b P) :
    s.stopAll.playingMelody = if s.driverStopped then s.playingMelody else false := by
  unfold Audio.stopAll
  split
  · rfl
  · rfl

variable [DecidableEq P] [Zero P] {r : MelodyRun b P}

theorem Kept.playMelody (h : r.Kept) (play start : BitVec 16) (melody : Melody P) :
    ∃ r', r.step (.playMelody play start melody) = .ok r' ∧ r'.Kept := by
  obtain ⟨stack, hstack⟩ := h.stacked
  have hstopped : ∃ stack', (if r.audio.playingNote then r.audio.stopAll else r.audio).Stacked
      stack' := by
    split
    · exact ⟨[], hstack.stopAll⟩
    · exact ⟨stack, hstack⟩
  obtain ⟨stack', hstack'⟩ := hstopped
  cases hnotes : melody.notes with
  | nil => exact absurd hnotes melody.nonempty
  | cons first rest =>
    have hlen := melody.length_lt
    rw [hnotes] at hlen
    obtain ⟨s, stack'', hs, hmelody, hnew, -⟩ := Audio.Stacked.playNote_ne_nil
      (s := { (if r.audio.playingNote then r.audio.stopAll else r.audio) with
        playingMelody := true, noteResting := false, notes := first :: rest,
        notesRepeat := false, currentNote := 0 })
      (hstack'.congr rfl rfl rfl rfl) play first.pitch first.duration
    refine ⟨⟨{ s with lastTimestamp := start, melodyCurrentNoteDuration := first.duration },
      false⟩, ?_, ⟨⟨stack'', hnew.congr rfl rfl rfl rfl⟩, fun _ =>
        ⟨⟨hmelody.repeats, ?_, ?_⟩, rfl⟩⟩⟩
    · unfold step Audio.playMelody
      dsimp only
      rw [hnotes]
      show Except.map _ (Except.map _ (orFault .stack (Audio.playNote play first.pitch _ _))) = _
      rw [hs]
      rfl
    · show s.currentNote < s.notes.length
      rw [hmelody.current, hmelody.notes]
      exact Nat.succ_pos _
    · show s.notes.length < 2 ^ 16
      rw [hmelody.notes]
      exact hlen

theorem step_tone (r : MelodyRun b P) (call : ToneCall P) :
    r.step (.tone call) = (call.run r.audio).map (fun audio =>
      { audio, ended := r.ended || decide (Ends r.audio call) }) := rfl

theorem Kept.same (h : r.Kept) {call : ToneCall P} {s' : Audio b P} {stack' : List (MusicalTone P)}
    (hrun : call.run r.audio = .ok s') (hstack : s'.Stacked stack')
    (hmelody : Audio.SameMelody r.audio s') (hends : ¬ Ends r.audio call) :
    ∃ r', r.step (.tone call) = .ok r' ∧ r'.Kept := by
  refine ⟨⟨s', r.ended⟩, ?_, ⟨⟨stack', hstack⟩, fun hplaying => ?_⟩⟩
  · rw [step_tone, hrun, decide_eq_false hends, Bool.or_false]
    rfl
  · obtain ⟨hmelodic, hended⟩ := h.melodic (hmelody.playing.symm.trans hplaying)
    exact ⟨hmelodic.congr hmelody, hended⟩

theorem going_of_ends {call : ToneCall P} {s : Audio b P}
    (hrun : call.run r.audio = .ok s.stopAll) (hstack : ∃ stack, s.Stacked stack)
    (hdriver : s.driverStopped = r.audio.driverStopped)
    (hplaying : s.playingMelody = r.audio.playingMelody) (hends : Ends r.audio call) :
    (Sounds (.ok r) (.tone call) → Going (r.step (.tone call))) ∧
      (¬ Sounds (.ok r) (.tone call) → ¬ Law (r.step (.tone call))) := by
  have hstep : r.step (.tone call) = .ok ⟨s.stopAll, true⟩ := by
    rw [step_tone, hrun, decide_eq_true hends, Bool.or_true]
    rfl
  have hafter : s.stopAll.playingMelody =
      if r.audio.driverStopped then r.audio.playingMelody else false := by
    rw [stopAll_playingMelody, hdriver, hplaying]
  obtain ⟨stack, hstack⟩ := hstack
  rw [hstep]
  constructor
  · intro hsounds
    refine ⟨⟨[], hstack.stopAll⟩, fun hstill => ?_⟩
    -- it is played neither before nor with the driver stopped
    exfalso
    rw [hafter] at hstill
    cases hnow : r.audio.playingMelody with
    | false =>
      rw [hnow, ite_self] at hstill
      exact Bool.false_ne_true hstill
    | true =>
      rw [hsounds hnow hends] at hstill
      exact Bool.false_ne_true hstill
  · intro hnot hlaw
    obtain ⟨hnow, hdriver⟩ : r.audio.playingMelody ∧ r.audio.driverStopped := by
      by_contra hor
      refine hnot (fun hnow _ => eq_false_of_ne_true (fun hdriver => hor ⟨hnow, hdriver⟩))
    have hover := hlaw rfl
    rw [hafter, hdriver, if_pos rfl, hnow] at hover
    exact Bool.false_ne_true hover.symm

theorem going_of_same {call : MelodyCall P} (hstep : ∃ r', r.step call = .ok r' ∧ r'.Kept)
    (hsounds : Sounds (.ok r) call) :
    (Sounds (.ok r) call → Going (r.step call)) ∧
      (¬ Sounds (.ok r) call → ¬ Law (r.step call)) := by
  obtain ⟨r', hr', hkept⟩ := hstep
  rw [hr']
  exact ⟨fun _ => hkept, fun hnot => absurd hsounds hnot⟩

theorem Kept.step (h : r.Kept) (call : MelodyCall P) :
    (Sounds (.ok r) call → Going (r.step call)) ∧
      (¬ Sounds (.ok r) call → ¬ Law (r.step call)) := by
  obtain ⟨stack, hstack⟩ := h.stacked
  cases call with
  | playMelody play start melody =>
    exact going_of_same (h.playMelody play start melody) trivial
  | tone call =>
    have hsame {s' : Audio b P} {stack' : List (MusicalTone P)} (hrun : call.run r.audio = .ok s')
        (hstack' : s'.Stacked stack') (hmelody : Audio.SameMelody r.audio s')
        (hends : ¬ Ends r.audio call) :
        (Sounds (.ok r) (.tone call) → Going (r.step (.tone call))) ∧
          (¬ Sounds (.ok r) (.tone call) → ¬ Law (r.step (.tone call))) :=
      going_of_same (h.same hrun hstack' hmelody hends) (fun _ hends' => absurd hends' hends)
    have hset (rate : BitVec 16) (hrun : call.run r.audio = .ok (r.audio.setRate rate))
        (hends : ¬ Ends r.audio call) :
        (Sounds (.ok r) (.tone call) → Going (r.step (.tone call))) ∧
          (¬ Sounds (.ok r) (.tone call) → ¬ Law (r.step (.tone call))) :=
      hsame hrun (hstack.setRate rate).1 (hstack.setRate rate).2 hends
    cases call with
    | playNote now pitch duration =>
      obtain ⟨s', stack', hs', hmelody, hstack', -⟩ :=
        hstack.playNote_ne_nil now pitch duration
      refine hsame ?_ hstack' hmelody id
      show orFault .stack (r.audio.playNote now pitch duration) = _
      rw [hs']
      rfl
    | playTone now pitch =>
      obtain ⟨s', stack', hs', hmelody, hstack', -⟩ :=
        hstack.playNote_ne_nil now pitch 0xFFFF
      refine hsame ?_ hstack' hmelody id
      show orFault .stack (r.audio.playNote now pitch 0xFFFF) = _
      rw [hs']
      rfl
    | stopTone pitch =>
      obtain ⟨s', stack', hs', hstack', hmelody⟩ := hstack.stopTone pitch
      refine hsame ?_ hstack' hmelody id
      show orFault .stack (r.audio.stopTone pitch) = _
      rw [hs']
      rfl
    | stopAll => exact going_of_ends rfl ⟨stack, hstack⟩ rfl rfl trivial
    | update effects c =>
      by_cases hlast : r.audio.LastOver c
      · refine going_of_ends (s := r.audio.advance c.current) ?_
          ⟨stack, hstack.congr rfl rfl rfl rfl⟩ rfl rfl hlast
        show (r.audio.update effects c).map Prod.snd = _
        rw [Audio.update_last (h.melodic hlast.1.1).1 effects c hlast]
        rfl
      have hsounds : Sounds (.ok r) (.tone (.update effects c)) :=
        fun _ hends => absurd hends hlast
      rcases Audio.update_going hstack (fun hplaying => (h.melodic hplaying).1) effects c
        hlast with hzero | ⟨out, stack', hout, hstack', hplaying, hmelodic⟩
      · -- it is divided by zero
        have hstep : r.step (.tone (.update effects c)) = .error .division := by
          show Except.map _ ((r.audio.update effects c).map Prod.snd) = _
          rw [hzero]
          rfl
        rw [hstep]
        exact ⟨fun _ => rfl, fun hnot => absurd hsounds hnot⟩
      · refine going_of_same ⟨⟨out.2, r.ended⟩, ?_, ⟨⟨stack', hstack'⟩, fun hstill => ?_⟩⟩
          hsounds
        · have hends : decide (Ends r.audio (.update effects c)) = false :=
            decide_eq_false hlast
          rw [step_tone, hends, Bool.or_false]
          show Except.map _ ((r.audio.update effects c).map Prod.snd) = _
          rw [hout]
          rfl
        · have hbefore := hplaying.symm.trans hstill
          exact ⟨hmelodic hbefore, (h.melodic hbefore).2⟩
    | setRate rate => exact hset rate rfl id
    | enableMultiplexing => exact hset _ rfl id
    | disableMultiplexing => exact hset _ rfl id
    | increaseRate change =>
      obtain ⟨rate, hrate⟩ := r.audio.increaseRate_eq change
      exact hset rate (congrArg Except.ok hrate) id
    | decreaseRate change =>
      obtain ⟨rate, hrate⟩ := r.audio.decreaseRate_eq change
      exact hset rate (congrArg Except.ok hrate) id

end MelodyRun

/-- In every run of calls with melodies that do not repeat, only notes of the melody are read,
    and it is over from the first update on that finds its last note over, and whenever all has
    been stopped, exactly if a tone is on the stack each time it is to end. -/
theorem melody_ends_iff {P : Type u} [DecidableEq P] [Zero P] (b : AudioBuild)
    (calls : List (MelodyCall P)) :
    Always MelodyRun.next MelodyRun.Law (.ok (MelodyRun.init b P)) calls ↔
      Along MelodyRun.next MelodyRun.Sounds (.ok (MelodyRun.init b P)) calls := by
  refine always_iff_along MelodyRun.next MelodyRun.Sounds MelodyRun.Going MelodyRun.Law ?_ ?_ ?_
    calls _ MelodyRun.init_kept
  · rintro (fault | r) hgoing
    · exact hgoing
    · exact MelodyRun.Kept.law hgoing
  · rintro (fault | r) call hgoing hsounds
    · exact hgoing
    · exact (MelodyRun.Kept.step hgoing call).1 hsounds
  · rintro (fault | r) call hgoing hnot
    · exact absurd trivial hnot
    · exact (MelodyRun.Kept.step hgoing call).2 hnot

/-- A melody of one note, which is stopped before it is over. The update at its end finds the
    driver stopped, and the melody goes on. -/
theorem melody_goes_on :
    ¬ Always MelodyRun.next MelodyRun.Law (.ok (MelodyRun.init AudioBuild.default Nat))
      [.playMelody 0 0 ⟨[⟨440, 100⟩], List.cons_ne_nil _ _, by decide⟩,
        .tone (.stopTone 440),
        .tone (.update false ⟨100, 100, 100, 100, fun _ => 100⟩)] := by
  intro hall
  have hlast := (always_iff_visited _ _ _ _).mp hall _ [] (List.append_nil _).symm
  revert hlast
  decide +kernel

end K530
