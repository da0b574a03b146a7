import K530.Midi.Music

/-!
# The Limits of the Recorder

Only a note that is recorded is written into the array, behind those there are, and
nothing looks at how many that is. The player takes the place before the one it is at,
round the end of the recording, which is a place of the array as long as the recording
has a note in it. A recording that is ended at once has none, and is played all the same.

So the recorder is safe exactly if no recording has a seventeenth note and none without
a note is played.

## Main definitions

* `Music.Limits`: What holds between the variables.

## Theorems

* `music_recorder_safe`: So does a run of them.
* `music_recorder_unsafe`: An empty recording is played.
-/

namespace K530

open Checked

namespace Music

variable (b : MusicBuild)

/-- The player is in the recording, or at the beginning of an empty one, and nothing is
    played or kept while it is being recorded. -/
structure Limits (m : Music) : Prop where
  count_le : m.count ≤ 16
  recorded : m.recorded = true → m.recording = false
  playing : m.playing = true → m.recording = false
  position : m.playing = true → m.position < m.count ∨ m.position = 0

theorem limits_init : Limits init :=
  ⟨by decide, by decide, by decide, by decide⟩

/-- A key is a note, and it is recorded. -/
def records (m : Music) (key : MusicKey) : Prop :=
  key.pressed = true ∧ m.modeKey key.keycode = none ∧
    (m.musicActivated || m.midiActivated) = true ∧ m.recorderKey key.keycode = none ∧
    m.recording = true

/-- A note that is recorded is one of sixteen, and what is played is not empty. -/
def Fits (m : Music) : MusicEvent → Prop
  | .key key => m.records key → m.count < 16
  | .task now => m.due now = true → 0 < m.count

variable {m : Music}

theorem Limits.modeKey (h : m.Limits) (keycode : Keycode) (done : List MusicCall × Music)
    (hdone : m.modeKey keycode = some done) : done.2.Limits := by
  have hmode : done.2.count = m.count ∧ done.2.recorded = m.recorded ∧
      done.2.recording = m.recording ∧ done.2.playing = m.playing ∧
      done.2.position = m.position := by
    unfold Music.modeKey at hdone
    split_ifs at hdone <;> cases hdone <;> exact ⟨rfl, rfl, rfl, rfl, rfl⟩
  obtain ⟨hcount, hrecorded, hrecording, hplaying, hposition⟩ := hmode
  constructor
  · rw [hcount]
    exact h.count_le
  · rw [hrecorded, hrecording]
    exact h.recorded
  · rw [hplaying, hrecording]
    exact h.playing
  · rw [hplaying, hposition, hcount]
    exact h.position

theorem Limits.recorderKey (h : m.Limits) (keycode : Keycode) (done : List MusicCall × Music)
    (hdone : m.recorderKey keycode = some done) : done.2.Limits := by
  unfold Music.recorderKey at hdone
  split_ifs at hdone with hctrl halt hgui hup hdown
  · -- a recording begins
    cases hdone
    exact ⟨Nat.zero_le 16, Bool.noConfusion, Bool.noConfusion, Bool.noConfusion⟩
  · cases hdone
    exact ⟨h.count_le, fun _ => rfl, fun _ => rfl, fun hplay => by cases hplay⟩
  · -- it is played from the beginning
    cases hdone
    exact ⟨h.count_le, fun _ => rfl, fun _ => rfl, fun _ => Or.inr rfl⟩
  · cases hdone
    exact ⟨h.count_le, h.recorded, h.playing, h.position⟩
  · cases hdone
    exact ⟨h.count_le, h.recorded, h.playing, h.position⟩

theorem Limits.noteOn (h : m.Limits) (note : Byte) (t : Music) (ht : m.noteOn note = some t) :
    t.Limits := by
  unfold Music.noteOn at ht
  by_cases hrecording : m.recording
  · rw [if_pos hrecording] at ht
    obtain ⟨sequence, hstore, rfl⟩ := Option.map_eq_some_iff.mp ht
    have hroom : m.count < 16 :=
      (store_isSome_iff m.sequence m.count note).mp (by rw [hstore]; rfl)
    refine ⟨hroom, h.recorded, h.playing, fun hplay => ?_⟩
    rw [h.playing hplay] at hrecording
    cases hrecording
  · rw [if_neg hrecording] at ht
    cases ht
    exact h

theorem Limits.musicTask (h : m.Limits) (now : BitVec 16) (done : List MusicCall × Music)
    (hdone : m.musicTask now = some done) : done.2.Limits := by
  unfold Music.musicTask at hdone
  by_cases hdue : m.due now
  · rw [if_pos hdue] at hdone
    obtain ⟨prevNote, -, hdone⟩ := Option.bind_eq_some_iff.mp hdone
    obtain ⟨nextNote, -, hdone⟩ := Option.bind_eq_some_iff.mp hdone
    by_cases hzero : m.count = 0
    · rw [if_pos hzero] at hdone
      cases hdone
    · rw [if_neg hzero] at hdone
      cases hdone
      exact ⟨h.count_le, h.recorded, h.playing,
        fun _ => Or.inl (Nat.mod_lt _ (Nat.pos_of_ne_zero hzero))⟩
  · rw [if_neg hdue] at hdone
    cases hdone
    exact h

theorem Limits.processMusic (h : m.Limits) (key : MusicKey) (done : Bool × List MusicCall × Music)
    (hdone : m.processMusic b key = some done) : done.2.2.Limits := by
  unfold Music.processMusic at hdone
  cases hpressed : key.pressed with
  | false =>
    -- a release changes nothing
    simp only [hpressed, Bool.false_eq_true, if_false] at hdone
    split_ifs at hdone
    · cases hdone
      exact h
    · cases hdone
      exact h
  | true =>
    simp only [hpressed, if_true] at hdone
    cases hmode : m.modeKey key.keycode with
    | some mode =>
      rw [hmode] at hdone
      cases hdone
      exact h.modeKey key.keycode mode hmode
    | none =>
      rw [hmode] at hdone
      cases hon : m.musicActivated || m.midiActivated with
      | false =>
        rw [hon] at hdone
        cases hdone
        exact h
      | true =>
        cases hrecorder : m.recorderKey key.keycode with
        | some recorder =>
          rw [hon, hrecorder] at hdone
          cases hdone
          exact h.recorderKey key.keycode recorder hrecorder
        | none =>
          rw [hon, hrecorder] at hdone
          obtain ⟨t, ht, rfl⟩ := Option.map_eq_some_iff.mp hdone
          exact h.noteOn _ t ht

theorem Limits.step (h : m.Limits) (event : MusicEvent) (t : Music)
    (ht : m.step b event = some t) : t.Limits := by
  cases event with
  | key key =>
    obtain ⟨done, hdone, rfl⟩ := Option.map_eq_some_iff.mp ht
    exact h.processMusic b key done hdone
  | task now =>
    obtain ⟨done, hdone, rfl⟩ := Option.map_eq_some_iff.mp ht
    exact h.musicTask now done hdone

theorem noteOn_isSome_iff (m : Music) (note : Byte) :
    (m.noteOn note).isSome ↔ (m.recording → m.count < 16) := by
  unfold noteOn
  by_cases hrecording : m.recording
  · rw [if_pos hrecording, Option.isSome_map, store_isSome_iff, forall_prop_of_true hrecording]
  · rw [if_neg hrecording]
    exact iff_of_true rfl (fun h => absurd h hrecording)

theorem processMusic_isSome_iff (m : Music) (key : MusicKey) :
    (m.processMusic b key).isSome ↔ (m.records key → m.count < 16) := by
  unfold processMusic records
  cases hpressed : key.pressed with
  | false =>
    -- a release records nothing
    simp only [Bool.false_eq_true, if_false, false_and, false_implies, iff_true]
    split_ifs
    · rfl
    · rfl
  | true =>
    simp only [if_true, true_and]
    cases hmode : m.modeKey key.keycode with
    | some done => simp
    | none =>
      cases hon : m.musicActivated || m.midiActivated with
      | false => simp
      | true =>
        cases hrecorder : m.recorderKey key.keycode with
        | some done => simp
        | none => simp [noteOn_isSome_iff]

theorem Limits.musicTask_isSome_iff (h : m.Limits) (now : BitVec 16) :
    (m.musicTask now).isSome ↔ (m.due now → 0 < m.count) := by
  unfold Music.musicTask
  by_cases hdue : m.due now
  swap
  · rw [if_neg hdue]
    exact iff_of_true rfl (fun hdue' => absurd hdue' hdue)
  rw [if_pos hdue, forall_prop_of_true hdue]
  dsimp only
  have hplaying : m.playing := by
    unfold due at hdue
    rw [Bool.and_eq_true] at hdue
    exact hdue.1
  have hposition := h.position hplaying
  have hcount := h.count_le
  by_cases hzero : m.count = 0
  · -- nothing to play: the place is the one before the first
    have hbefore : fetchInt m.sequence (if (m.position : Int) - 1 < 0 then
        (m.position : Int) - 1 + m.count else (m.position : Int) - 1) = none := by
      have hstart : m.position = 0 := by omega
      rw [hstart, hzero]
      rfl
    rw [hbefore, hzero]
    simp
  · have hbefore : (fetchInt m.sequence (if (m.position : Int) - 1 < 0 then
        (m.position : Int) - 1 + m.count else (m.position : Int) - 1)).isSome := by
      unfold fetchInt
      split_ifs
      · omega
      · rw [fetch_isSome_iff]
        omega
      · rw [fetch_isSome_iff]
        omega
    have hhere : (fetch m.sequence m.position).isSome := by
      rw [fetch_isSome_iff]
      omega
    obtain ⟨prevNote, hprev⟩ := Option.isSome_iff_exists.mp hbefore
    obtain ⟨nextNote, hnext⟩ := Option.isSome_iff_exists.mp hhere
    rw [hprev, hnext, Option.bind_some, Option.bind_some, if_neg hzero]
    exact iff_of_true rfl (Nat.pos_of_ne_zero hzero)

theorem step_isSome_iff (h : m.Limits) (event : MusicEvent) :
    (m.step b event).isSome ↔ m.Fits event := by
  cases event with
  | key key =>
    unfold step
    rw [Option.isSome_map, processMusic_isSome_iff]
    rfl
  | task now =>
    unfold step
    rw [Option.isSome_map, h.musicTask_isSome_iff]
    rfl

end Music

/-- Nor does a run of them, exactly if each meets it. -/
theorem music_recorder_safe (b : MusicBuild) (events : List MusicEvent) :
    (events.foldlM (Music.step b) Music.init).isSome ↔
      AlongTo (Music.step b) Music.Fits Music.init events :=
  foldlM_isSome_iff (Music.step b) Music.Fits Music.Limits
    (fun _ event t h ht => h.step b event t ht) (fun _ event h => Music.step_isSome_iff b h event)
    events Music.init Music.limits_init

/-- The modes as they are without others, on a matrix of five rows. -/
def musicDefaults : MusicBuild where
  scale i := [0, 2, 4, 5, 7, 9, 11].getD (i % 7).toNat 0 + 12 * (i / 7)
  musicMap := none
  matrixRows := 5
  startingNote := 0x0C
  offset := 7
  musicMask keycode := keycode < 0xFF

/-- A press of the first key of the matrix. -/
def musicPress (keycode : Keycode) : MusicEvent :=
  .key { keycode := keycode, pressed := true, row := 0, col := 0 }

/-- A recording is begun, ended and played. -/
theorem music_recorder_unsafe :
    ¬ ([musicPress muOn, musicPress kcLeftCtrl, musicPress kcLeftAlt, musicPress kcLeftGui,
      .task 1].foldlM (Music.step musicDefaults) Music.init).isSome := by
  decide

end K530
