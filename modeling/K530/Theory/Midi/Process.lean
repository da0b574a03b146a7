import K530.Lib.Run
import K530.Midi.Process

/-!
# Released Notes

A note-on goes out with the channel and the settings of its press. The note-off
goes out when the last key of the tone comes up, once, with the note of the
tone's first press and the channel of the moment. So changing the octave or the
transposition under a held key is harmless, and changing the channel is not; nor
is a second key of the tone that sounds another note than the first.

`Matched` is the condition on a release: what the tone has started since its
last note-off is all on the channel and the note of the one about to go out.
Along a run that meets it nothing sounds once the tone keys are up,
`midi_released` says. The use counter has eight bits, and the argument does not
need it to be the number of keys down: whenever it comes back to zero a note-off
goes out, and that number reaching zero is such a time.

## Main definitions

* `Pitch`: A channel and a note.

## Theorems

* `midi_released`: Every note is released along a run that meets the condition.
* `midi_released_octave`: The octave changes under a held key.
* `midi_released_broken`: The channel does.
-/

namespace K530

open StepRun

/-- A channel and a note. -/
abbrev Pitch := BitVec 4 × BitVec 7

/-- The pitch a message starts. -/
def MidiMessage.starts : MidiMessage → Option Pitch
  | .noteOn channel note _ => some (channel, note)
  | _ => none

/-- The pitch a message ends. -/
def MidiMessage.ends : MidiMessage → Option Pitch
  | .noteOff channel note _ => some (channel, note)
  | _ => none

/-- A message heard by someone who waits for one pitch. -/
def hear (p : Pitch) (sounding : Bool) (m : MidiMessage) : Bool :=
  if m.starts = some p then true else if m.ends = some p then false else sounding

/-- The pitch has been started, and not been ended since. -/
def sounds (log : List MidiMessage) (p : Pitch) : Bool :=
  log.foldl (hear p) false

@[simp] theorem sounds_nil (p : Pitch) : sounds [] p = false := rfl

theorem sounds_concat (log : List MidiMessage) (m : MidiMessage) (p : Pitch) :
    sounds (log ++ [m]) p = hear p (sounds log p) m := by
  unfold sounds
  rw [List.foldl_append]
  rfl

theorem sounds_append_of_quiet (log messages : List MidiMessage) (p : Pitch)
    (h : ∀ m ∈ messages, m.starts = none) (hsounds : sounds (log ++ messages) p) :
    sounds log p := by
  induction messages using List.reverseRecOn with
  | nil => rwa [List.append_nil] at hsounds
  | append_singleton messages m ih =>
    rw [← List.append_assoc, sounds_concat] at hsounds
    refine ih (fun m' hm' => h m' (List.mem_append_left _ hm')) ?_
    unfold hear at hsounds
    rw [h m (by simp), if_neg (by simp)] at hsounds
    split at hsounds
    · exact absurd hsounds (by decide)
    · exact hsounds

/-- A run: the module, how many keys of each tone are down, what each tone has
    started since its last note-off, and everything sent, oldest first. -/
structure MidiRun where
  midi : Midi
  held : Tone → Nat
  started : Tone → List Pitch
  log : List MidiMessage

namespace MidiRun

/-- Power-on. -/
def start : MidiRun :=
  { midi := Midi.init, held := fun _ => 0, started := fun _ => [], log := [] }

/-- The bookkeeping of a tone key. -/
def keep (tone : Tone) (pressed : Bool) (messages : List MidiMessage) (s : MidiRun) : MidiRun :=
  { s with
    held := Function.update s.held tone
      (if pressed then s.held tone + 1 else s.held tone - 1)
    started := Function.update s.started tone
      (if messages.any (fun m => m.ends.isSome) then []
        else messages.filterMap MidiMessage.starts ++ s.started tone) }

/-- A key goes down or comes up. -/
def step (s : MidiRun) (event : Keycode × Bool) : MidiRun :=
  let out := s.midi.processMidi event.1 event.2
  let s' := { s with midi := out.2.1, log := s.log ++ out.2.2 }
  match toneOf event.1 with
  | some tone => s'.keep tone event.2 out.2.2
  | none => s'

/-- A tone key that comes up was down. -/
def Handled (s : MidiRun) (event : Keycode × Bool) : Prop :=
  ∀ tone ∈ toneOf event.1, event.2 = false → 0 < s.held tone

instance (s : MidiRun) (event : Keycode × Bool) : Decidable (s.Handled event) :=
  inferInstanceAs (Decidable (∀ tone ∈ toneOf event.1, _))

/-- The pitch the tone's note-off would carry. -/
def answer (s : MidiRun) (tone : Tone) : Pitch :=
  (s.midi.config.channel, (s.midi.toneNote tone).setWidth 7)

/-- If the release of a tone key brings the use counter of its tone to zero, all
    the tone has started since it last did so is the pitch that is now ended. -/
def Matched (s : MidiRun) (event : Keycode × Bool) : Prop :=
  ∀ tone ∈ toneOf event.1, event.2 = false → s.midi.toneCount tone = 1 →
    ∀ p ∈ s.started tone, p = s.answer tone

instance (s : MidiRun) (event : Keycode × Bool) : Decidable (s.Matched event) :=
  inferInstanceAs (Decidable (∀ tone ∈ toneOf event.1, _))

/-- Once all tone keys are up, nothing sounds. -/
def AllReleased (s : MidiRun) : Prop :=
  (∀ tone, s.held tone = 0) → ∀ p, sounds s.log p = false

/-- The use counters count the keys that are down, eight bits of them; a tone with
    no key down has answered what it started; and what sounds was started by some
    tone. -/
structure Sound (s : MidiRun) : Prop where
  count : ∀ tone, s.midi.toneCount tone = BitVec.ofNat 8 (s.held tone)
  idle : ∀ tone, s.held tone = 0 → s.started tone = []
  heard : ∀ p, sounds s.log p = true → ∃ tone, p ∈ s.started tone

theorem start_sound : start.Sound where
  count := fun _ => rfl
  idle := fun _ _ => rfl
  heard := fun _ hp => absurd hp Bool.false_ne_true

theorem Sound.allReleased {s : MidiRun} (h : s.Sound) : s.AllReleased := by
  intro hup p
  by_contra hp
  obtain ⟨tone, hmem⟩ := h.heard p (by simpa using hp)
  rw [h.idle tone (hup tone)] at hmem
  exact absurd hmem List.not_mem_nil

theorem control_quiet (keycode : Keycode) (pressed : Bool) (channel : BitVec 4)
    (messages : List MidiMessage) (h : Midi.control? keycode pressed channel = some messages) :
    ∀ message ∈ messages, message.starts = none := by
  unfold Midi.control? at h
  split at h
  · rw [← Option.some.inj h]
    cases pressed <;> simp [MidiMessage.starts]
  · split at h
    · rw [← Option.some.inj h]
      simp [MidiMessage.starts]
    · split at h
      · rw [← Option.some.inj h]
        simp [MidiMessage.starts]
      · obtain ⟨number, -, rfl⟩ := Option.map_eq_some_iff.mp h
        simp [MidiMessage.starts]

theorem processMidi_other (m : Midi) (keycode : Keycode) (pressed : Bool)
    (h : toneOf keycode = none) :
    (m.processMidi keycode pressed).2.1.toneCount = m.toneCount ∧
      ∀ message ∈ (m.processMidi keycode pressed).2.2, message.starts = none := by
  unfold Midi.processMidi
  rw [h]
  dsimp only
  cases hsetting : Midi.setting? keycode with
  | some change => cases pressed <;> simp
  | none =>
    dsimp only
    by_cases hmod : keycode = miMod
    · simp [hmod]
    · rw [if_neg hmod]
      cases hcontrol : Midi.control? keycode pressed m.config.channel with
      | none => simp
      | some messages =>
        refine ⟨rfl, fun message hmem => ?_⟩
        exact control_quiet keycode pressed _ messages hcontrol message hmem

theorem press_sound (s : MidiRun) (keycode : Keycode) (tone : Tone)
    (htone : toneOf keycode = some tone) (h : s.Sound) : (s.step (keycode, true)).Sound := by
  let p : Pitch := (s.midi.config.channel, (s.midi.config.computeNote keycode).setWidth 7)
  have hstep : s.step (keycode, true) =
      { midi := (s.midi.pressTone keycode tone).1
        held := Function.update s.held tone (s.held tone + 1)
        started := Function.update s.started tone (p :: s.started tone)
        log := s.log ++ (s.midi.pressTone keycode tone).2 } := by
    simp [step, keep, htone, Midi.processMidi, Midi.pressTone, midiSendNoteon,
      MidiMessage.ends, MidiMessage.starts, p]
  rw [hstep]
  constructor
  · intro t
    by_cases ht : t = tone
    · subst ht
      simp only [Midi.pressTone, Function.update_self, h.count t, BitVec.ofNat_add]
      rfl
    · simp only [Midi.pressTone, Function.update_of_ne ht, h.count t]
  · intro t hidle
    by_cases ht : t = tone
    · subst ht
      simp at hidle
    · simp only [Function.update_of_ne ht] at hidle ⊢
      exact h.idle t hidle
  · intro q hq
    have hstarts : (midiSendNoteon (s.midi.config.channel.setWidth 8)
        (s.midi.config.computeNote keycode) (s.midi.config.velocity.setWidth 8)).starts =
          some p := by
      simp [midiSendNoteon, MidiMessage.starts, p]
    simp only [Midi.pressTone, sounds_concat, hear, hstarts] at hq
    by_cases hpq : p = q
    · exact ⟨tone, by simp [hpq]⟩
    · rw [if_neg (by simpa using hpq)] at hq
      simp only [midiSendNoteon, MidiMessage.ends] at hq
      obtain ⟨t, hmem⟩ := h.heard q (by simpa using hq)
      refine ⟨t, ?_⟩
      by_cases ht : t = tone
      · subst ht
        simp [hmem]
      · simpa only [Function.update_of_ne ht] using hmem

theorem releaseTone_last (m : Midi) (tone : Tone) (h : m.toneCount tone - 1 = 0) :
    (m.releaseTone tone).2 =
      [midiSendNoteoff (m.config.channel.setWidth 8) (m.toneNote tone)
        (m.config.velocity.setWidth 8)] := by
  unfold Midi.releaseTone
  dsimp only
  rw [if_pos h]

theorem releaseTone_early (m : Midi) (tone : Tone) (h : ¬ m.toneCount tone - 1 = 0) :
    (m.releaseTone tone).2 = [] := by
  unfold Midi.releaseTone
  dsimp only
  rw [if_neg h]

theorem releaseTone_count (m : Midi) (tone t : Tone) :
    (m.releaseTone tone).1.toneCount t =
      if t = tone then m.toneCount tone - 1 else m.toneCount t := by
  have hupdate : (m.releaseTone tone).1.toneCount =
      Function.update m.toneCount tone (m.toneCount tone - 1) := by
    unfold Midi.releaseTone
    dsimp only
    split <;> rfl
  rw [hupdate, Function.update_apply]

theorem Sound.count_release {s : MidiRun} (h : s.Sound) (tone : Tone) (hheld : 0 < s.held tone) :
    s.midi.toneCount tone - 1 = BitVec.ofNat 8 (s.held tone - 1) := by
  rw [h.count tone]
  apply BitVec.eq_of_toNat_eq
  simp
  omega

theorem Sound.counts_release {s : MidiRun} (h : s.Sound) (tone : Tone) (hheld : 0 < s.held tone)
    (t : Tone) : (s.midi.releaseTone tone).1.toneCount t =
      BitVec.ofNat 8 (Function.update s.held tone (s.held tone - 1) t) := by
  rw [releaseTone_count, Function.update_apply]
  by_cases ht : t = tone
  · rw [if_pos ht, if_pos ht, h.count_release tone hheld]
  · rw [if_neg ht, if_neg ht, h.count t]

theorem release_last (s : MidiRun) (keycode : Keycode) (tone : Tone)
    (htone : toneOf keycode = some tone) (h : s.Sound) (hheld : 0 < s.held tone)
    (hlast : s.midi.toneCount tone - 1 = 0)
    (hmatched : ∀ p ∈ s.started tone, p = s.answer tone) : (s.step (keycode, false)).Sound := by
  have hstep : s.step (keycode, false) =
      { midi := (s.midi.releaseTone tone).1
        held := Function.update s.held tone (s.held tone - 1)
        started := Function.update s.started tone []
        log := s.log ++ [midiSendNoteoff (s.midi.config.channel.setWidth 8)
          (s.midi.toneNote tone) (s.midi.config.velocity.setWidth 8)] } := by
    simp [step, keep, htone, Midi.processMidi, releaseTone_last s.midi tone hlast,
      midiSendNoteoff, MidiMessage.ends]
  have hends : (midiSendNoteoff (s.midi.config.channel.setWidth 8) (s.midi.toneNote tone)
      (s.midi.config.velocity.setWidth 8)).ends = some (s.answer tone) := by
    simp [midiSendNoteoff, MidiMessage.ends, answer]
  rw [hstep]
  refine ⟨h.counts_release tone hheld, fun t hidle => ?_, fun q hq => ?_⟩
  · by_cases ht : t = tone
    · subst ht
      exact Function.update_self ..
    · simp only [Function.update_of_ne ht] at hidle ⊢
      exact h.idle t hidle
  · simp only [sounds_concat, hear, hends] at hq
    by_cases hq' : some (s.answer tone) = some q
    · rw [if_pos hq'] at hq
      simp [midiSendNoteoff, MidiMessage.starts] at hq
    · rw [if_neg hq', if_neg (by simp [midiSendNoteoff, MidiMessage.starts])] at hq
      obtain ⟨t, hmem⟩ := h.heard q hq
      refine ⟨t, ?_⟩
      -- what the tone itself had started was the pitch now ended
      have ht : t ≠ tone := by
        rintro rfl
        exact hq' (congrArg some (hmatched q hmem).symm)
      simpa only [Function.update_of_ne ht] using hmem

theorem release_early (s : MidiRun) (keycode : Keycode) (tone : Tone)
    (htone : toneOf keycode = some tone) (h : s.Sound) (hheld : 0 < s.held tone)
    (hearly : ¬ s.midi.toneCount tone - 1 = 0) : (s.step (keycode, false)).Sound := by
  have hstep : s.step (keycode, false) =
      { midi := (s.midi.releaseTone tone).1
        held := Function.update s.held tone (s.held tone - 1)
        started := s.started
        log := s.log } := by
    simp [step, keep, htone, Midi.processMidi, releaseTone_early s.midi tone hearly]
  rw [hstep]
  refine ⟨h.counts_release tone hheld, fun t hidle => ?_, h.heard⟩
  by_cases ht : t = tone
  · -- no key of the tone down would have brought the counter to zero
    subst ht
    simp only [Function.update_self] at hidle
    have hcount := h.count_release t hheld
    rw [hidle] at hcount
    exact absurd hcount hearly
  · simp only [Function.update_of_ne ht] at hidle
    exact h.idle t hidle

theorem release_sound (s : MidiRun) (keycode : Keycode) (tone : Tone)
    (htone : toneOf keycode = some tone) (h : s.Sound) (hheld : 0 < s.held tone)
    (hmatched : s.midi.toneCount tone = 1 → ∀ p ∈ s.started tone, p = s.answer tone) :
    (s.step (keycode, false)).Sound := by
  by_cases hlast : s.midi.toneCount tone - 1 = 0
  · exact release_last s keycode tone htone h hheld hlast (hmatched (by bv_omega))
  · exact release_early s keycode tone htone h hheld hlast

theorem step_sound (s : MidiRun) (event : Keycode × Bool) (h : s.Sound)
    (hC : s.Handled event ∧ s.Matched event) : (s.step event).Sound := by
  obtain ⟨keycode, pressed⟩ := event
  cases htone : toneOf keycode with
  | some tone =>
    cases pressed with
    | true => exact press_sound s keycode tone htone h
    | false =>
      exact release_sound s keycode tone htone h (hC.1 tone htone rfl)
        (hC.2 tone htone rfl)
  | none =>
    have hother := processMidi_other s.midi keycode pressed htone
    have hstep : s.step (keycode, pressed) =
        { s with
          midi := (s.midi.processMidi keycode pressed).2.1
          log := s.log ++ (s.midi.processMidi keycode pressed).2.2 } := by
      simp only [step, htone]
    rw [hstep]
    refine ⟨fun tone => ?_, h.idle, fun p hp => ?_⟩
    · rw [hother.1]
      exact h.count tone
    · exact h.heard p (sounds_append_of_quiet s.log _ p hother.2 hp)

/-- Along a run of key events whose tone keys are pressed before they are
    released, if every release that brings a use counter to zero finds its tone's
    note-ons on the pitch it ends, then whenever all tone keys are up nothing
    sounds. -/
theorem midi_released (events : List (Keycode × Bool))
    (hhandled : Along step Handled start events) (hmatched : Along step Matched start events) :
    Always step AllReleased start events :=
  always_of_along step (fun s e => s.Handled e ∧ s.Matched e) Sound AllReleased
    (fun _ hs => hs.allReleased) (fun s e hs hC => step_sound s e hs hC) events start start_sound
    ((along_and step Handled Matched events start).mpr ⟨hhandled, hmatched⟩)

/-- A tone key, the octave up under it, and its release. -/
def octaveUnderKey : List (Keycode × Bool) :=
  [(midiToneMin, true), (miOctu, true), (miOctu, false), (midiToneMin, false)]

def channelUnderKey : List (Keycode × Bool) :=
  [(midiToneMin, true), (miChu, true), (miChu, false), (midiToneMin, false)]

/-- The octave may change under a held key. -/
theorem midi_released_octave :
    (Along step Handled start octaveUnderKey ∧ Along step Matched start octaveUnderKey) ∧
      Always step AllReleased start octaveUnderKey :=
  have hhandled : Along step Handled start octaveUnderKey := by decide +kernel
  have hmatched : Along step Matched start octaveUnderKey := by decide +kernel
  ⟨⟨hhandled, hmatched⟩, midi_released octaveUnderKey hhandled hmatched⟩

/-- The channel may not. -/
theorem midi_released_broken :
    ¬ ∀ events : List (Keycode × Bool), Along step Handled start events →
      Always step AllReleased start events := by
  intro h
  have hall := (always_iff_visited step AllReleased channelUnderKey start).mp
    (h channelUnderKey (by decide +kernel)) channelUnderKey [] (List.append_nil _).symm
  exact absurd (hall (by decide) (0, 48)) (by decide)

end MidiRun

end K530
