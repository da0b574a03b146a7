import K530.Lib.Run
import K530.Quantum.Audio

/-!
# The Stack of Tones

The entries that are used are a list of tones with different pitches, the newest last, and the
others follow it. A tone is taken out of the list, and a tone is put at its end: if it is there
already it is taken out first, and if there is no room the oldest is.

A tone that is at the end already is not put there again, so that it keeps the time and the
duration it had. And with multiplexing the code divides by a rate that may be 0.

## Main definitions

* `Audio.Stacked`: The tones are those of a list.

## Theorems

* `tone_stack_iff`: When the law holds.
* `tone_stack_broken`: A tone is played again, for a shorter time.
-/

namespace K530

open Checked
open StepRun

universe u

namespace Audio

variable {b : AudioBuild} {P : Type u}

/-! ### The loops that move tones -/

theorem pullDown_eq (fill x : MusicalTone P) (pre mid rest : List (MusicalTone P))
    {v : Vector (MusicalTone P) b.stackSize} (h : v.toList = pre ++ x :: (mid ++ rest)) :
    ∃ w, pullDown fill pre.length mid.length v = some w ∧
      w.toList = pre ++ mid ++ (if mid = [] then x else fill) :: rest := by
  induction mid using List.reverseRecOn generalizing rest with
  | nil => exact ⟨v, rfl, by rw [h, if_pos rfl, List.append_nil, List.nil_append]⟩
  | append_singleton mid t ih =>
    rw [List.append_assoc, List.singleton_append] at h
    obtain ⟨w, hw, hlist⟩ := ih (t :: rest) h
    unfold pullDown at hw ⊢
    rw [List.length_append, List.length_singleton, loop, hw, Option.bind_some]
    -- the tone behind goes to the place that was filled before
    have hbehind : w.toList = (pre ++ mid ++ [if mid = [] then x else fill]) ++ t :: rest := by
      rw [hlist, List.append_assoc _ [_], List.singleton_append]
    have hlen : (pre ++ mid ++ [if mid = [] then x else fill]).length =
        pre.length + mid.length + 1 := by
      rw [List.length_append, List.length_append, List.length_singleton]
    have hfetch := fetch_append hbehind
    obtain ⟨v₁, hv₁, hlist₁⟩ := store_append hlist t
    rw [List.length_append] at hv₁
    have hplace : v₁.toList = (pre ++ mid ++ [t]) ++ t :: rest := by
      rw [hlist₁, List.append_assoc _ [t], List.singleton_append]
    obtain ⟨v₂, hv₂, hlist₂⟩ := store_append hplace fill
    rw [List.length_append, List.length_append, List.length_singleton] at hv₂
    rw [hlen] at hfetch
    refine ⟨v₂, by rw [hfetch, Option.bind_some, hv₁, Option.bind_some, hv₂], ?_⟩
    rw [hlist₂, if_neg (by simp), List.append_assoc pre]

theorem shiftOut_eq (x : MusicalTone P) (mid rest : List (MusicalTone P))
    {v : Vector (MusicalTone P) b.stackSize} (h : v.toList = x :: (mid ++ rest)) :
    ∃ w z, shiftOut mid.length v = some w ∧ w.toList = mid ++ z :: rest := by
  induction mid using List.reverseRecOn generalizing rest with
  | nil => exact ⟨v, x, rfl, h⟩
  | append_singleton mid t ih =>
    rw [List.append_assoc, List.singleton_append] at h
    obtain ⟨w, z, hw, hlist⟩ := ih (t :: rest) h
    unfold shiftOut at hw ⊢
    rw [List.length_append, List.length_singleton, loop, hw, Option.bind_some]
    have hbehind : w.toList = (mid ++ [z]) ++ t :: rest := by
      rw [hlist, List.append_assoc, List.singleton_append]
    have hfetch := fetch_append hbehind
    rw [List.length_append, List.length_singleton] at hfetch
    obtain ⟨v₁, hv₁, hlist₁⟩ := store_append hlist t
    refine ⟨v₁, t, by rw [hfetch, Option.bind_some, hv₁], ?_⟩
    rw [hlist₁, List.append_assoc, List.singleton_append]

/-! ### The list of the tones -/

structure Stacked (s : Audio b P) (stack : List (MusicalTone P)) : Prop where
  entries : s.tones.toList = stack ++ List.replicate (b.stackSize - stack.length) .unused
  active : s.activeTones = stack.length
  used : ∀ t ∈ stack, t.pitch ≠ none
  distinct : (stack.map MusicalTone.pitch).Nodup
  playing : s.playingNote = true ↔ stack ≠ []
  driver : s.driverStopped = true ↔ stack = []

variable {s : Audio b P} {stack : List (MusicalTone P)}

theorem Stacked.length_le (h : s.Stacked stack) : stack.length ≤ b.stackSize := by
  have hlen : s.tones.toList.length = b.stackSize := s.tones.length_toList
  rw [h.entries, List.length_append, List.length_replicate] at hlen
  omega

theorem Stacked.split (h : s.Stacked stack) {i : Nat} {t : MusicalTone P} {pitch : P}
    (hfetch : fetch s.tones i = some t) (hpitch : t.pitch = some pitch) :
    ∃ pre post, stack = pre ++ t :: post ∧ pre.length = i := by
  unfold fetch at hfetch
  rw [h.entries] at hfetch
  have hi : i < stack.length := by
    by_contra hout
    rw [List.getElem?_append_right (by omega)] at hfetch
    have hunused := List.eq_of_mem_replicate (List.mem_of_getElem? hfetch)
    rw [hunused] at hpitch
    exact Option.some_ne_none _ hpitch.symm
  rw [List.getElem?_append_left hi] at hfetch
  refine ⟨stack.take i, stack.drop (i + 1), ?_, List.length_take_of_le hi.le⟩
  have hget : stack[i] = t := Option.some.inj ((List.getElem?_eq_getElem hi).symm.trans hfetch)
  rw [← hget, List.cons_getElem_drop_succ, List.take_append_drop]

section Find

variable [DecidableEq P]

theorem findTone_total (pitch : P) (tones : Vector (MusicalTone P) b.stackSize) (count : Nat)
    (hcount : count ≤ b.stackSize) :
    (∃ i t, findTone pitch tones count = some (some i) ∧ fetch tones i = some t ∧
      t.pitch = some pitch) ∨
    (findTone pitch tones count = some none ∧
      ∀ i < count, ∀ t, fetch tones i = some t → t.pitch ≠ some pitch) := by
  induction count with
  | zero => exact Or.inr ⟨rfl, fun i hi => absurd hi (Nat.not_lt_zero i)⟩
  | succ count ih =>
    obtain ⟨t, ht⟩ := fetch_total tones count hcount
    rw [findTone, ht, Option.bind_some]
    by_cases hpitch : t.pitch = some pitch
    · exact Or.inl ⟨count, t, if_pos hpitch, ht, hpitch⟩
    rw [if_neg hpitch]
    refine (ih (by omega)).imp id (fun hnone => ⟨hnone.1, fun i hi u hu => ?_⟩)
    rcases Nat.lt_succ_iff_lt_or_eq.mp hi with hlt | rfl
    · exact hnone.2 i hlt u hu
    · rw [← Option.some.inj (ht.symm.trans hu)]
      exact hpitch

end Find

structure SameMelody (s s' : Audio b P) : Prop where
  playing : s'.playingMelody = s.playingMelody
  notes : s'.notes = s.notes
  repeats : s'.notesRepeat = s.notesRepeat
  duration : s'.melodyCurrentNoteDuration = s.melodyCurrentNoteDuration
  current : s'.currentNote = s.currentNote
  resting : s'.noteResting = s.noteResting
  last : s'.lastTimestamp = s.lastTimestamp

theorem SameMelody.refl (s : Audio b P) : SameMelody s s :=
  ⟨rfl, rfl, rfl, rfl, rfl, rfl, rfl⟩

theorem SameMelody.trans {s s' s'' : Audio b P} (h : SameMelody s s') (h' : SameMelody s' s'') :
    SameMelody s s'' where
  playing := h'.playing.trans h.playing
  notes := h'.notes.trans h.notes
  repeats := h'.repeats.trans h.repeats
  duration := h'.duration.trans h.duration
  current := h'.current.trans h.current
  resting := h'.resting.trans h.resting
  last := h'.last.trans h.last

/-! ### A tone is stopped -/

theorem Stacked.stopAt {pre post : List (MusicalTone P)} {t : MusicalTone P}
    (h : s.Stacked (pre ++ t :: post)) :
    ∃ s', s.stopAt pre.length = some s' ∧ s'.Stacked (pre ++ post) ∧ SameMelody s s' := by
  have hle := h.length_le
  rw [List.length_append, List.length_cons] at hle
  have hentries := h.entries
  rw [List.append_assoc, List.cons_append] at hentries
  obtain ⟨v, hv, hlist⟩ := store_append hentries .unused
  rw [← List.append_nil (post ++ _)] at hlist
  obtain ⟨w, hw, hmoved⟩ := pullDown_eq .unused .unused pre _ [] hlist
  have hcount : (post ++ List.replicate (b.stackSize - (pre ++ t :: post).length)
      (MusicalTone.unused : MusicalTone P)).length = b.stackSize - 1 - pre.length := by
    rw [List.length_append, List.length_replicate, List.length_append, List.length_cons]
    omega
  rw [hcount] at hw
  rw [ite_self] at hmoved
  have hactive : s.activeTones - 1 = (pre ++ post).length := by
    rw [h.active, List.length_append, List.length_append, List.length_cons]
    omega
  have hempty : s.activeTones - 1 = 0 ↔ pre ++ post = [] := by
    rw [hactive, List.length_eq_zero_iff]
  have hsome : pre ++ t :: post ≠ [] :=
    List.append_ne_nil_of_right_ne_nil pre (List.cons_ne_nil t post)
  refine ⟨s.toneStopped w, ?_, ⟨?_, hactive, fun u hu => h.used u ?_, ?_, ?_, ?_⟩,
    ⟨rfl, rfl, rfl, rfl, rfl, rfl, rfl⟩⟩
  · unfold Audio.stopAt
    rw [hv, Option.bind_some, hw, Option.map_some]
  · -- what was behind has moved down by one, and there is an unused entry more
    refine hmoved.trans ?_
    rw [List.append_assoc, List.append_assoc, List.append_assoc]
    congr 2
    rw [← List.replicate_succ', List.length_append, List.length_append, List.length_cons]
    congr 1
    omega
  · rcases List.mem_append.mp hu with hu | hu
    · exact List.mem_append_left _ hu
    · exact List.mem_append_right _ (List.mem_cons_of_mem t hu)
  · refine h.distinct.sublist (List.Sublist.map _ ?_)
    exact List.Sublist.append_left (List.sublist_cons_self t post) pre
  · show (if s.activeTones - 1 = 0 then false else s.playingNote) = true ↔ _
    by_cases hlast : s.activeTones - 1 = 0
    · rw [if_pos hlast]
      exact iff_of_false Bool.false_ne_true (fun hsome => hsome (hempty.mp hlast))
    · rw [if_neg hlast]
      exact iff_of_true (h.playing.mpr hsome) (mt hempty.mpr hlast)
  · show (if s.activeTones - 1 = 0 then true else s.driverStopped) = true ↔ _
    by_cases hlast : s.activeTones - 1 = 0
    · rw [if_pos hlast]
      exact iff_of_true rfl (hempty.mp hlast)
    · rw [if_neg hlast]
      exact iff_of_false (mt h.driver.mp hsome) (mt hempty.mpr hlast)

theorem Stacked.stopTone [DecidableEq P] (h : s.Stacked stack) (pitch : P) :
    ∃ s' stack', s.stopTone pitch = some s' ∧ s'.Stacked stack' ∧ SameMelody s s' := by
  unfold Audio.stopTone
  by_cases hplaying : s.playingNote
  · rw [if_pos hplaying]
    rcases findTone_total pitch s.tones b.stackSize (Nat.le_refl _) with
      ⟨i, t, hfound, hfetch, hpitch⟩ | ⟨hnone, -⟩
    · obtain ⟨pre, post, rfl, rfl⟩ := h.split hfetch hpitch
      obtain ⟨s', hs', hstack, hmelody⟩ := h.stopAt
      exact ⟨s', pre ++ post, by rw [hfound, Option.bind_some]; exact hs', hstack, hmelody⟩
    · exact ⟨s, stack, by rw [hnone]; rfl, h, .refl s⟩
  · exact ⟨s, stack, if_neg hplaying, h, .refl s⟩

/-! ### A tone is played -/

def pushed (size : Nat) (stack : List (MusicalTone P)) (new : MusicalTone P) :
    List (MusicalTone P) :=
  (if stack.length < size then stack else stack.tail) ++ [new]

theorem Stacked.pushTone (h : s.Stacked stack) (new : MusicalTone P) (hpitch : new.pitch ≠ none)
    (hnew : ∀ t ∈ stack, t.pitch ≠ new.pitch) :
    ∃ s', s.pushTone new = some s' ∧ s'.Stacked (pushed b.stackSize stack new) ∧
      SameMelody s s' := by
  have hdistinct : ∀ kept : List (MusicalTone P), kept.Sublist stack →
      ((kept ++ [new]).map MusicalTone.pitch).Nodup := by
    intro kept hkept
    rw [List.map_append, List.map_singleton]
    refine List.Nodup.append (h.distinct.sublist (hkept.map _)) (List.nodup_singleton _) ?_
    intro p hp hlast
    obtain ⟨t, ht, rfl⟩ := List.mem_map.mp hp
    exact hnew t (hkept.subset ht) (List.mem_singleton.mp hlast)
  have hused : ∀ kept : List (MusicalTone P), kept.Sublist stack →
      ∀ t ∈ kept ++ [new], t.pitch ≠ none := by
    intro kept hkept t ht
    rcases List.mem_append.mp ht with ht | ht
    · exact h.used t (hkept.subset ht)
    · rw [List.mem_singleton.mp ht]
      exact hpitch
  have hsome : ∀ kept : List (MusicalTone P), kept ++ [new] ≠ [] :=
    fun kept => List.append_ne_nil_of_right_ne_nil kept (List.cons_ne_nil new [])
  unfold Audio.pushTone pushed
  dsimp only
  by_cases hroom : stack.length < b.stackSize
  · have hfull : ¬ b.stackSize < s.activeTones + 1 := by
      rw [h.active]
      omega
    rw [if_neg hfull, if_neg hfull, if_pos hroom, Option.bind_some, Nat.add_sub_cancel, h.active]
    have hentries := h.entries
    rw [show b.stackSize - stack.length = b.stackSize - (stack.length + 1) + 1 by omega,
      List.replicate_succ] at hentries
    obtain ⟨w, hw, hlist⟩ := store_append hentries new
    refine ⟨s.tonePlayed (stack.length + 1) w, by rw [hw]; rfl,
      ⟨?_, ?_, hused stack (List.Sublist.refl _), hdistinct stack (List.Sublist.refl _),
        iff_of_true rfl (hsome stack), iff_of_false Bool.false_ne_true (hsome stack)⟩,
      ⟨rfl, rfl, rfl, rfl, rfl, rfl, rfl⟩⟩
    · refine hlist.trans ?_
      rw [List.length_append, List.length_singleton, List.append_assoc, List.singleton_append]
    · rw [List.length_append, List.length_singleton]
      rfl
  · have hle := h.length_le
    have hpos := b.stackSize_pos
    have hfull : b.stackSize < s.activeTones + 1 := by
      rw [h.active]
      omega
    rw [if_pos hfull, if_pos hfull, if_neg hroom]
    cases stack with
    | nil => exact absurd hpos hroom
    | cons t rest =>
      have hlen : rest.length = b.stackSize - 1 := by
        rw [List.length_cons] at hle hroom
        omega
      have hentries := h.entries
      rw [List.cons_append] at hentries
      obtain ⟨v, z, hv, hmoved⟩ := shiftOut_eq t rest _ hentries
      obtain ⟨w, hw, hlist⟩ := store_append hmoved new
      rw [hlen] at hv hw
      refine ⟨s.tonePlayed b.stackSize w, by rw [hv, Option.bind_some, hw]; rfl, ⟨?_, ?_,
        hused rest (List.sublist_cons_self t rest),
        hdistinct rest (List.sublist_cons_self t rest),
        iff_of_true rfl (hsome rest), iff_of_false Bool.false_ne_true (hsome rest)⟩,
        ⟨rfl, rfl, rfl, rfl, rfl, rfl, rfl⟩⟩
      · refine hlist.trans ?_
        rw [List.tail_cons, List.length_append, List.length_singleton, List.length_cons,
          List.append_assoc, List.singleton_append]
      · rw [List.tail_cons, List.length_append, List.length_singleton, hlen]
        exact (Nat.sub_add_cancel hpos).symm

def raised (pre post : List (MusicalTone P)) (t new : MusicalTone P) : List (MusicalTone P) :=
  pre ++ post ++ [if post = [] then t else new]

theorem Stacked.raiseTone {pre post : List (MusicalTone P)} {t : MusicalTone P}
    (new : MusicalTone P) (h : s.Stacked (pre ++ t :: post)) (hpitch : t.pitch = new.pitch) :
    ∃ s', s.raiseTone new pre.length = some s' ∧ s'.Stacked (raised pre post t new) ∧
      SameMelody s s' := by
  have hentries := h.entries
  rw [List.append_assoc, List.cons_append] at hentries
  obtain ⟨w, hw, hmoved⟩ := pullDown_eq new t pre post _ hentries
  have hcount : post.length = s.activeTones - 1 - pre.length := by
    rw [h.active, List.length_append, List.length_cons]
    omega
  have hsame : (if post = [] then t else new).pitch = t.pitch := by
    split
    · rfl
    · exact hpitch.symm
  have hlen : (raised pre post t new).length = (pre ++ t :: post).length := by
    unfold raised
    rw [List.length_append, List.length_append, List.length_singleton, List.length_append,
      List.length_cons]
    omega
  have hsome : raised pre post t new ≠ [] :=
    List.append_ne_nil_of_right_ne_nil _ (List.cons_ne_nil _ [])
  have hbefore : pre ++ t :: post ≠ [] :=
    List.append_ne_nil_of_right_ne_nil pre (List.cons_ne_nil t post)
  refine ⟨{ s with tones := w }, ?_, ⟨?_, h.active.trans hlen.symm, ?_, ?_, ?_, ?_⟩,
    ⟨rfl, rfl, rfl, rfl, rfl, rfl, rfl⟩⟩
  · unfold Audio.raiseTone
    rw [← hcount, hw]
    rfl
  · rw [hlen]
    refine hmoved.trans ?_
    unfold raised
    rw [List.append_assoc _ [_], List.singleton_append]
  · intro u hu
    unfold raised at hu
    rcases List.mem_append.mp hu with hu | hu
    · refine h.used u ((List.mem_append.mp hu).elim (List.mem_append_left _) fun hpost => ?_)
      exact List.mem_append_right _ (List.mem_cons_of_mem t hpost)
    · rw [List.mem_singleton.mp hu, hsame]
      exact h.used t (List.mem_append_right _ List.mem_cons_self)
  · -- the pitches are those there were, in another order
    have hpitches : ((raised pre post t new).map MusicalTone.pitch).Perm
        ((pre ++ t :: post).map MusicalTone.pitch) := by
      unfold raised
      rw [List.map_append, List.map_append, List.map_singleton, hsame, List.map_append,
        List.map_cons, List.append_assoc]
      exact List.Perm.append_left _ (List.perm_append_singleton _ _)
    exact hpitches.nodup_iff.mpr h.distinct
  · exact iff_of_true (h.playing.mpr hbefore) hsome
  · exact iff_of_false (mt h.driver.mp hbefore) hsome

section Play

variable [DecidableEq P]

theorem Stacked.playNote (h : s.Stacked stack) (now : BitVec 16) (pitch : P)
    (duration : BitVec 16) :
    ∃ s', s.playNote now pitch duration = some s' ∧ SameMelody s s' ∧
      ((∃ pre t post, stack = pre ++ t :: post ∧ t.pitch = some pitch ∧
          s'.Stacked (raised pre post t ⟨now, some pitch, duration⟩)) ∨
        (∀ t ∈ stack, t.pitch ≠ some pitch) ∧
          s'.Stacked (pushed b.stackSize stack ⟨now, some pitch, duration⟩)) := by
  unfold Audio.playNote
  have hcount : s.activeTones ≤ b.stackSize := h.active ▸ h.length_le
  rcases findTone_total pitch s.tones s.activeTones hcount with
    ⟨i, t, hfound, hfetch, hpitch⟩ | ⟨hnone, hother⟩
  · obtain ⟨pre, post, rfl, rfl⟩ := h.split hfetch hpitch
    obtain ⟨s', hs', hstack, hmelody⟩ := h.raiseTone ⟨now, some pitch, duration⟩ hpitch
    exact ⟨s', by rw [hfound, Option.bind_some]; exact hs', hmelody,
      Or.inl ⟨pre, t, post, rfl, hpitch, hstack⟩⟩
  · have hnew : ∀ t ∈ stack, t.pitch ≠ some pitch := by
      intro t ht
      obtain ⟨i, hi, hget⟩ := List.getElem_of_mem ht
      refine hother i (h.active.symm ▸ hi) t ?_
      unfold fetch
      rw [h.entries, List.getElem?_append_left hi, List.getElem?_eq_getElem hi, hget]
    obtain ⟨s', hs', hstack, hmelody⟩ := h.pushTone ⟨now, some pitch, duration⟩
      (Option.some_ne_none pitch) hnew
    exact ⟨s', by rw [hnone, Option.bind_some]; exact hs', hmelody, Or.inr ⟨hnew, hstack⟩⟩

theorem Stacked.playNote_ne_nil (h : s.Stacked stack) (now : BitVec 16) (pitch : P)
    (duration : BitVec 16) :
    ∃ s' stack', s.playNote now pitch duration = some s' ∧ SameMelody s s' ∧
      s'.Stacked stack' ∧ stack' ≠ [] := by
  obtain ⟨s', hs', hmelody, ⟨pre, t, post, -, -, hstack⟩ | ⟨-, hstack⟩⟩ :=
    h.playNote now pitch duration
  · exact ⟨s', _, hs', hmelody, hstack,
      List.append_ne_nil_of_right_ne_nil _ (List.cons_ne_nil _ [])⟩
  · exact ⟨s', _, hs', hmelody, hstack,
      List.append_ne_nil_of_right_ne_nil _ (List.cons_ne_nil _ [])⟩

end Play

/-! ### The others -/

theorem init_stacked : (init b P).Stacked [] where
  entries := Vector.toList_replicate
  active := rfl
  used _ ht := absurd ht List.not_mem_nil
  distinct := List.nodup_nil
  playing := iff_of_false Bool.false_ne_true (fun h => h rfl)
  driver := iff_of_true rfl rfl

theorem Stacked.stopAll (h : s.Stacked stack) : s.stopAll.Stacked [] := by
  unfold Audio.stopAll
  split
  · next hstopped => exact h.driver.mp hstopped ▸ h
  · exact ⟨Vector.toList_replicate, rfl, fun _ ht => absurd ht List.not_mem_nil, List.nodup_nil,
      iff_of_false Bool.false_ne_true (fun h => h rfl), iff_of_true rfl rfl⟩

theorem Stacked.congr {s' : Audio b P} (h : s.Stacked stack) (htones : s'.tones = s.tones)
    (hactive : s'.activeTones = s.activeTones) (hplaying : s'.playingNote = s.playingNote)
    (hdriver : s'.driverStopped = s.driverStopped) : s'.Stacked stack where
  entries := htones ▸ h.entries
  active := hactive.trans h.active
  used := h.used
  distinct := h.distinct
  playing := hplaying ▸ h.playing
  driver := hdriver ▸ h.driver

theorem Stacked.multiplex (h : s.Stacked stack) (c : AudioClock)
    (hplaying : s.playingNote) (hrate : b.multiplexing → s.multiplexingRate ≠ 0) :
    ∃ s', s.multiplex c = .ok s' ∧ s'.Stacked stack ∧ SameMelody s s' := by
  unfold Audio.multiplex
  by_cases hmultiplexing : b.multiplexing
  · have hne : s.multiplexingRate.toNat ≠ 0 := by
      intro hzero
      exact hrate hmultiplexing (BitVec.eq_of_toNat_eq hzero)
    have hactive : s.activeTones ≠ 0 := by
      rw [h.active]
      exact mt List.length_eq_zero_iff.mp (h.playing.mp hplaying)
    have hmin : Nat.min b.maxSimultaneous s.activeTones ≠ 0 := by
      have hpos := b.maxSimultaneous_pos
      exact (Nat.lt_min.mpr ⟨hpos, Nat.pos_of_ne_zero hactive⟩).ne'
    rw [if_pos hmultiplexing, quotient, if_neg hne, Option.bind_some, remainder, if_neg hmin]
    exact ⟨_, rfl, h.congr rfl rfl rfl rfl, ⟨rfl, rfl, rfl, rfl, rfl, rfl, rfl⟩⟩
  · exact ⟨s, if_neg hmultiplexing, h, .refl s⟩

theorem Stacked.setRate (h : s.Stacked stack) (rate : BitVec 16) :
    (s.setRate rate).Stacked stack ∧ SameMelody s (s.setRate rate) :=
  ⟨h.congr rfl rfl rfl rfl, ⟨rfl, rfl, rfl, rfl, rfl, rfl, rfl⟩⟩

theorem increaseRate_eq (s : Audio b P) (change : BitVec 16) :
    ∃ rate, s.increaseRate change = s.setRate rate := by
  unfold increaseRate
  split
  · exact ⟨_, rfl⟩
  · exact ⟨s.multiplexingRate, rfl⟩

theorem decreaseRate_eq (s : Audio b P) (change : BitVec 16) :
    ∃ rate, s.decreaseRate change = s.setRate rate := by
  unfold decreaseRate
  split
  · exact ⟨_, rfl⟩
  · exact ⟨s.multiplexingRate, rfl⟩

theorem Stacked.report (h : s.Stacked stack) (goto : Bool) : (s.report goto).2.Stacked stack := by
  unfold Audio.report
  split
  · exact h.congr rfl rfl rfl rfl
  · exact h

theorem report_playingMelody (s : Audio b P) (goto : Bool) :
    (s.report goto).2.playingMelody = s.playingMelody := by
  unfold Audio.report
  split
  · rfl
  · rfl

section Update

variable [DecidableEq P]

theorem Stacked.expire (h : s.Stacked stack) (now : BitVec 16) (t : MusicalTone P) :
    ∃ s' stack', s.expire now t = some s' ∧ s'.Stacked stack' ∧ SameMelody s s' := by
  unfold Audio.expire
  cases t.pitch with
  | none => exact ⟨s, stack, rfl, h, .refl s⟩
  | some pitch =>
    dsimp only
    split
    · exact h.stopTone pitch
    · exact ⟨s, stack, rfl, h, .refl s⟩

theorem Stacked.housekeep (c : AudioClock) (left i : Nat) (hleft : b.stackSize ≤ i + left)
    (h : s.Stacked stack) :
    ∃ s' stack', s.housekeep c left i = some s' ∧ s'.Stacked stack' ∧ SameMelody s s' := by
  have hactive : s.activeTones ≤ b.stackSize := h.active ▸ h.length_le
  induction left generalizing s stack i with
  | zero => exact ⟨s, stack, if_neg (by omega), h, .refl s⟩
  | succ left ih =>
    rw [Audio.housekeep]
    by_cases hi : i < s.activeTones
    · obtain ⟨t, ht⟩ :=
        fetch_total s.tones i (hi.trans_le hactive)
      obtain ⟨s₁, stack₁, hs₁, h₁, hmelody₁⟩ := h.expire (c.tone i) t
      obtain ⟨s₂, stack₂, hs₂, h₂, hmelody₂⟩ :=
        ih (i + 1) (by omega) h₁ (h₁.active ▸ h₁.length_le)
      refine ⟨s₂, stack₂, ?_, h₂, hmelody₁.trans hmelody₂⟩
      rw [if_pos hi, ht, Option.bind_some, hs₁, Option.bind_some, hs₂]
    · exact ⟨s, stack, if_neg hi, h, .refl s⟩

theorem Stacked.updateTones (h : s.Stacked stack) (c : AudioClock)
    (hrate : s.playingNote → b.multiplexing → s.multiplexingRate ≠ 0) :
    ∃ s' stack', s.updateTones c = .ok s' ∧ s'.Stacked stack' ∧ SameMelody s s' := by
  unfold Audio.updateTones
  by_cases hplaying : s.playingNote
  · obtain ⟨s₁, hs₁, h₁, hmelody₁⟩ := h.multiplex c hplaying (hrate hplaying)
    obtain ⟨s₂, stack₂, hs₂, h₂, hmelody₂⟩ :=
      h₁.housekeep c b.stackSize 0 (Nat.le_add_left _ _)
    refine ⟨s₂, stack₂, ?_, h₂, hmelody₁.trans hmelody₂⟩
    rw [if_pos hplaying, hs₁]
    show orFault .stack (s₁.housekeep c b.stackSize 0) = _
    rw [hs₂]
    rfl
  · exact ⟨s, stack, if_neg hplaying, h, .refl s⟩

theorem updateTones_eq_error (c : AudioClock) (hplaying : s.playingNote)
    (hmultiplexing : b.multiplexing) (hrate : s.multiplexingRate = 0) :
    s.updateTones c = .error .division := by
  unfold Audio.updateTones Audio.multiplex
  rw [if_pos hplaying, if_pos hmultiplexing, hrate]
  rfl

end Update

/-- The tone on top of the stack. -/
def top (s : Audio b P) : Option (MusicalTone P) :=
  if s.activeTones = 0 then none else s.tones.toList[s.activeTones - 1]?

theorem Stacked.top_eq (h : s.Stacked stack) : s.top = stack.getLast? := by
  unfold top
  rw [h.active]
  rcases List.eq_nil_or_concat stack with rfl | ⟨rest, t, rfl⟩
  · rfl
  · rw [List.concat_eq_append] at *
    have hsome : (rest ++ [t]).length ≠ 0 := by simp
    rw [if_neg hsome, h.entries, List.getLast?_concat, List.getElem?_append_left (by omega),
      List.length_append, List.length_singleton, Nat.add_sub_cancel, List.getElem?_concat_length]

end Audio

/-! ### Runs -/

/-- The tone a call plays. -/
def ToneCall.plays {P : Type u} : ToneCall P → Option (MusicalTone P)
  | .playNote now pitch duration => some ⟨now, some pitch, duration⟩
  | .playTone now pitch => some ⟨now, some pitch, 0xFFFF⟩
  | _ => none

/-- The variables, and the tone that the last call has played. -/
structure ToneRun (b : AudioBuild) (P : Type u) where
  audio : Audio b P
  played : Option (MusicalTone P)
deriving DecidableEq

namespace ToneRun

variable {b : AudioBuild} {P : Type u}

/-- No melody is played. -/
def init (b : AudioBuild) (P : Type u) : ToneRun b P :=
  { audio := .init b P, played := none }

/-- The law. -/
structure Sound (r : ToneRun b P) : Prop where
  fits : r.audio.activeTones ≤ b.stackSize
  used : ∀ t ∈ r.audio.tones.toList.take r.audio.activeTones, t.pitch ≠ none
  distinct : ((r.audio.tones.toList.take r.audio.activeTones).map MusicalTone.pitch).Nodup
  unused : ∀ t ∈ r.audio.tones.toList.drop r.audio.activeTones, t = .unused
  playing : r.audio.playingNote = true ↔ 0 < r.audio.activeTones
  played : ∀ new, r.played = some new → r.audio.top = some new

/-- Nothing has gone wrong, and the law holds. -/
def Law : Except AudioFault (ToneRun b P) → Prop
  | .ok r => r.Sound
  | .error _ => False

/-- What keeps it: a tone that is played, and is on top already, has the time and the duration.
    And no tone is played while the rate is 0, if that is divided by. -/
def Heard (r : ToneRun b P) (call : ToneCall P) : Prop :=
  (∀ new t, call.plays = some new → r.audio.top = some t → t.pitch = new.pitch → t = new) ∧
    (∀ effects c, call = .update effects c → r.audio.playingNote = true →
      b.multiplexing = true → r.audio.multiplexingRate ≠ 0)

/-- The condition, as long as nothing has gone wrong. -/
def Cond : Except AudioFault (ToneRun b P) → ToneCall P → Prop
  | .ok r, call => r.Heard call
  | .error _, _ => True

section

variable [DecidableEq P] [Zero P]

def step (r : ToneRun b P) (call : ToneCall P) : Except AudioFault (ToneRun b P) :=
  (call.run r.audio).map (fun audio => { audio, played := call.plays })

def next (x : Except AudioFault (ToneRun b P)) (call : ToneCall P) :
    Except AudioFault (ToneRun b P) :=
  x.bind (fun r => r.step call)

end

/-- The tones are those of a list, with the one that was played at its end, and no melody is
    played. -/
structure Kept (r : ToneRun b P) (stack : List (MusicalTone P)) : Prop where
  stacked : r.audio.Stacked stack
  quiet : r.audio.playingMelody = false
  played : ∀ new, r.played = some new → stack.getLast? = some new

theorem Kept.sound {r : ToneRun b P} {stack : List (MusicalTone P)} (h : r.Kept stack) :
    r.Sound := by
  have htake : r.audio.tones.toList.take r.audio.activeTones = stack := by
    rw [h.stacked.entries, h.stacked.active, List.take_left]
  refine ⟨h.stacked.active ▸ h.stacked.length_le, htake.symm ▸ h.stacked.used,
    htake.symm ▸ h.stacked.distinct, fun t ht => ?_, ?_, fun new hnew => ?_⟩
  · rw [h.stacked.entries, h.stacked.active, List.drop_left] at ht
    exact List.eq_of_mem_replicate ht
  · rw [h.stacked.playing, h.stacked.active, List.length_pos_iff]
  · rw [h.stacked.top_eq]
    exact h.played new hnew

variable [DecidableEq P] {r : ToneRun b P} {stack : List (MusicalTone P)}

theorem Kept.playNote (h : r.Kept stack) (now : BitVec 16) (pitch : P) (duration : BitVec 16) :
    ∃ s' stack', r.audio.playNote now pitch duration = some s' ∧
      s'.Stacked stack' ∧ s'.playingMelody = false ∧
      (stack'.getLast? = some ⟨now, some pitch, duration⟩ ↔
        ∀ t, r.audio.top = some t → t.pitch = some pitch → t = ⟨now, some pitch, duration⟩) := by
  obtain ⟨s', hs', hmelody, ⟨pre, t, post, rfl, hpitch, hstack⟩ | ⟨hnew, hstack⟩⟩ :=
    h.stacked.playNote now pitch duration
  · refine ⟨s', _, hs', hstack, hmelody.playing.trans h.quiet, ?_⟩
    rw [h.stacked.top_eq, Audio.raised, List.getLast?_concat]
    rcases List.eq_nil_or_concat post with rfl | ⟨rest, u, rfl⟩
    · -- it is on top
      rw [if_pos rfl, List.getLast?_concat, Option.some.injEq]
      refine ⟨fun hsame u hu _ => Option.some.inj hu ▸ hsame, fun hsame => hsame t rfl hpitch⟩
    · -- another is, and has another pitch
      rw [List.concat_eq_append] at *
      rw [if_neg (by simp)]
      refine iff_of_true rfl (fun v hv hsame => ?_)
      rw [← List.cons_append, ← List.append_assoc, List.getLast?_concat, Option.some.injEq] at hv
      subst hv
      have hdistinct := h.stacked.distinct
      rw [List.map_append, List.map_cons, List.nodup_append] at hdistinct
      refine absurd ?_ (List.nodup_cons.mp hdistinct.2.1).1
      rw [hpitch, ← hsame]
      exact List.mem_map_of_mem (List.mem_append_right _ (List.mem_singleton_self u))
  · refine ⟨s', _, hs', hstack, hmelody.playing.trans h.quiet, ?_⟩
    rw [h.stacked.top_eq, Audio.pushed, List.getLast?_concat]
    refine iff_of_true rfl (fun t ht hsame => ?_)
    exact absurd hsame (hnew t (List.mem_of_getLast? ht))

variable [Zero P]

theorem Kept.plays (h : r.Kept stack) (now : BitVec 16) (pitch : P) (duration : BitVec 16)
    {call : ToneCall P} (hrun : call.run r.audio =
      orFault .stack (r.audio.playNote now pitch duration))
    (hplays : call.plays = some ⟨now, some pitch, duration⟩) :
    ((∀ new t, call.plays = some new → r.audio.top = some t → t.pitch = new.pitch → t = new) →
      ∃ r' stack', r.step call = .ok r' ∧ r'.Kept stack') ∧
    (¬ (∀ new t, call.plays = some new → r.audio.top = some t → t.pitch = new.pitch → t = new) →
      ∃ r', r.step call = .ok r' ∧ ¬ r'.Sound) := by
  obtain ⟨s', stack', hs', hstack, hquiet, htop⟩ := h.playNote now pitch duration
  have hstep : r.step call = .ok ⟨s', some ⟨now, some pitch, duration⟩⟩ := by
    unfold step
    rw [hrun, hs', hplays]
    rfl
  rw [hplays]
  constructor
  · intro hheard
    refine ⟨_, stack', hstep, hstack, hquiet, fun new hnew => ?_⟩
    rw [← Option.some.inj hnew]
    exact htop.mpr (fun t => hheard _ t rfl)
  · intro hheard
    refine ⟨_, hstep, fun hsound => hheard (fun new t hnew ht hsame => ?_)⟩
    have hlast := hsound.played _ rfl
    rw [hstack.top_eq] at hlast
    rw [← Option.some.inj hnew] at hsame ⊢
    exact htop.mp hlast t ht hsame

theorem update_quiet (s : Audio b P) (hquiet : s.playingMelody = false)
    (hplaying : s.playingNote) (effects : Bool) (c : AudioClock) :
    s.update effects c =
      (s.updateTones c).map
        (fun s' => s'.report (s.playingNote && (b.multiplexing || effects))) := by
  have hover : ¬ s.noteOver c := fun h => Bool.noConfusion (hquiet.symm.trans h.1)
  unfold Audio.update
  rw [if_neg (fun h => Bool.noConfusion (hplaying.symm.trans h.1)), if_neg hover,
    decide_eq_false hover]
  rfl

theorem Kept.silent {s' : Audio b P} {stack' : List (MusicalTone P)} {call : ToneCall P}
    (hrun : call.run r.audio = .ok s') (hplays : call.plays = none) (hstack : s'.Stacked stack')
    (hquiet : s'.playingMelody = false) : ∃ r' stack', r.step call = .ok r' ∧ r'.Kept stack' := by
  refine ⟨⟨s', none⟩, stack', ?_, hstack, hquiet, fun new hnew => ?_⟩
  · unfold step
    rw [hrun, hplays]
    rfl
  · exact absurd hnew.symm (Option.some_ne_none new)

theorem Kept.step (h : r.Kept stack) (call : ToneCall P) :
    (r.Heard call → ∃ r' stack', r.step call = .ok r' ∧ r'.Kept stack') ∧
      (¬ r.Heard call → ¬ Law (r.step call)) := by
  have hsilent (hplays : call.plays = none)
      (hother : ∀ effects c, call ≠ .update effects c) : r.Heard call := by
    refine ⟨fun new t hnew => ?_, fun effects c hcall => absurd hcall (hother effects c)⟩
    exact absurd (hplays.symm.trans hnew).symm (Option.some_ne_none new)
  have hnever (hplays : call.plays = none) (hother : ∀ effects c, call ≠ .update effects c)
      (hstep : ∃ r' stack', r.step call = .ok r' ∧ r'.Kept stack') :
      (r.Heard call → ∃ r' stack', r.step call = .ok r' ∧ r'.Kept stack') ∧
        (¬ r.Heard call → ¬ Law (r.step call)) :=
    ⟨fun _ => hstep, fun hnot => absurd (hsilent hplays hother) hnot⟩
  have hset (rate : BitVec 16) (hrun : call.run r.audio = .ok (r.audio.setRate rate))
      (hplays : call.plays = none) (hother : ∀ effects c, call ≠ .update effects c) :
      (r.Heard call → ∃ r' stack', r.step call = .ok r' ∧ r'.Kept stack') ∧
        (¬ r.Heard call → ¬ Law (r.step call)) :=
    hnever hplays hother (Kept.silent hrun hplays (h.stacked.setRate rate).1 h.quiet)
  have hplayed (now : BitVec 16) (pitch : P) (duration : BitVec 16)
      (hrun : call.run r.audio = orFault .stack (r.audio.playNote now pitch duration))
      (hplays : call.plays = some ⟨now, some pitch, duration⟩)
      (hother : ∀ effects c, call ≠ .update effects c) :
      (r.Heard call → ∃ r' stack', r.step call = .ok r' ∧ r'.Kept stack') ∧
        (¬ r.Heard call → ¬ Law (r.step call)) := by
    obtain ⟨hkeep, hbreak⟩ := h.plays now pitch duration hrun hplays
    refine ⟨fun hheard => hkeep hheard.1, fun hnot => ?_⟩
    obtain ⟨r', hstep, hunsound⟩ := hbreak (fun hheard =>
      hnot ⟨hheard, fun effects c hcall => absurd hcall (hother effects c)⟩)
    rw [hstep]
    exact hunsound
  cases call with
  | playNote now pitch duration =>
    exact hplayed now pitch duration rfl rfl (fun _ _ hcall => by cases hcall)
  | playTone now pitch => exact hplayed now pitch 0xFFFF rfl rfl (fun _ _ hcall => by cases hcall)
  | stopTone pitch =>
    obtain ⟨s', stack', hs', hstack, hmelody⟩ := h.stacked.stopTone pitch
    refine hnever rfl (fun _ _ hcall => by cases hcall) (Kept.silent ?_ rfl hstack
      (hmelody.playing.trans h.quiet))
    show orFault .stack (r.audio.stopTone pitch) = _
    rw [hs']
    rfl
  | stopAll =>
    refine hnever rfl (fun _ _ hcall => by cases hcall) (Kept.silent rfl rfl
      h.stacked.stopAll ?_)
    unfold Audio.stopAll
    split
    · exact h.quiet
    · rfl
  | update effects c =>
    by_cases hplaying : r.audio.playingNote
    swap
    · -- nothing is played, and nothing is done
      have hrun : (ToneCall.update effects c).run r.audio = .ok r.audio := by
        show (r.audio.update effects c).map Prod.snd = _
        unfold Audio.update
        rw [if_pos ⟨eq_false_of_ne_true hplaying, h.quiet⟩]
        rfl
      refine ⟨fun _ => Kept.silent hrun rfl h.stacked h.quiet, fun hnot => absurd ?_ hnot⟩
      exact ⟨fun new t hnew => (Option.some_ne_none new hnew.symm).elim,
        fun _ _ _ hplays => absurd hplays hplaying⟩
    have hupdate := update_quiet r.audio h.quiet hplaying effects c
    by_cases hrate : b.multiplexing ∧ r.audio.multiplexingRate = 0
    · -- it is divided by the rate
      refine ⟨fun hheard => absurd hrate.2 (hheard.2 effects c rfl hplaying hrate.1),
        fun _ => ?_⟩
      have hrun : (ToneCall.update effects c).run r.audio = .error .division := by
        show (r.audio.update effects c).map Prod.snd = _
        rw [hupdate, Audio.updateTones_eq_error c hplaying hrate.1 hrate.2]
        rfl
      unfold ToneRun.step
      rw [hrun]
      exact id
    · have hne (hmultiplexing : b.multiplexing) : r.audio.multiplexingRate ≠ 0 :=
        fun hzero => hrate ⟨hmultiplexing, hzero⟩
      obtain ⟨s', stack', hs', hstack, hmelody⟩ := h.stacked.updateTones c (fun _ => hne)
      have hrun : (ToneCall.update effects c).run r.audio = .ok (s'.report
          (r.audio.playingNote && (b.multiplexing || effects))).2 := by
        show (r.audio.update effects c).map Prod.snd = _
        rw [hupdate, hs']
        rfl
      refine ⟨fun _ => Kept.silent hrun rfl (hstack.report _) ?_, fun hnot => absurd ?_ hnot⟩
      · rw [Audio.report_playingMelody]
        exact hmelody.playing.trans h.quiet
      · exact ⟨fun new t hnew => (Option.some_ne_none new hnew.symm).elim,
          fun _ _ _ _ => hne⟩
  | setRate rate => exact hset rate rfl rfl (fun _ _ hcall => by cases hcall)
  | enableMultiplexing => exact hset _ rfl rfl (fun _ _ hcall => by cases hcall)
  | disableMultiplexing => exact hset _ rfl rfl (fun _ _ hcall => by cases hcall)
  | increaseRate change =>
    obtain ⟨rate, hrate⟩ := r.audio.increaseRate_eq change
    exact hset rate (congrArg Except.ok hrate) rfl (fun _ _ hcall => by cases hcall)
  | decreaseRate change =>
    obtain ⟨rate, hrate⟩ := r.audio.decreaseRate_eq change
    exact hset rate (congrArg Except.ok hrate) rfl (fun _ _ hcall => by cases hcall)

def Going : Except AudioFault (ToneRun b P) → Prop
  | .ok r => ∃ stack, r.Kept stack
  | .error _ => False

end ToneRun

/-- In every run of calls about tones, the tones that are used have different pitches and are at
    the beginning, one that is played is on top with its duration and the time it was played,
    and nothing is divided by zero, exactly if no tone is played that is on top already with
    another time or duration, and no tone is playing at an update while the rate is 0. -/
theorem tone_stack_iff {P : Type u} [DecidableEq P] [Zero P] (b : AudioBuild)
    (calls : List (ToneCall P)) :
    Always ToneRun.next ToneRun.Law (.ok (ToneRun.init b P)) calls ↔
      Along ToneRun.next ToneRun.Cond (.ok (ToneRun.init b P)) calls := by
  refine always_iff_along ToneRun.next ToneRun.Cond ToneRun.Going ToneRun.Law ?_ ?_ ?_ calls _ ?_
  · rintro (fault | r) hgoing
    · exact hgoing.elim
    · obtain ⟨stack, hkept⟩ := hgoing
      exact hkept.sound
  · rintro (fault | r) call hgoing hcond
    · exact hgoing.elim
    · obtain ⟨stack, hkept⟩ := hgoing
      obtain ⟨r', stack', hstep, hkept'⟩ := (hkept.step call).1 hcond
      show ToneRun.Going (r.step call)
      rw [hstep]
      exact ⟨stack', hkept'⟩
  · rintro (fault | r) call hgoing hcond
    · exact hgoing.elim
    · obtain ⟨stack, hkept⟩ := hgoing
      exact (hkept.step call).2 hcond
  · exact ⟨[], Audio.init_stacked, rfl, fun new hnew => (Option.some_ne_none new hnew.symm).elim⟩

theorem AudioBuild.eight_pos : 0 < 8 := by
  decide

theorem AudioBuild.eight_lt : 8 < 255 := by
  decide

/-- A build as it is without other settings. -/
def AudioBuild.default : AudioBuild where
  stackSize := 8
  stackSize_pos := AudioBuild.eight_pos
  stackSize_lt := AudioBuild.eight_lt
  multiplexing := false
  maxSimultaneous := 3
  maxSimultaneous_pos := Nat.zero_lt_succ 2
  rateDefault := 0
  pause := 15

/-- A tone is played for 100 ms, and after 50 ms it is played again for 100 ms: it stops after
    50 ms. -/
theorem tone_stack_broken :
    ¬ Always ToneRun.next ToneRun.Law (.ok (ToneRun.init AudioBuild.default Nat))
      [.playNote 0 440 100, .playNote 50 440 100] := by
  intro hall
  have hlast := (always_iff_visited _ _ _ _).mp hall _ [] (List.append_nil _).symm
  have htop := ToneRun.Sound.played hlast ⟨50, some 440, 100⟩ (by decide +kernel)
  revert htop
  decide +kernel

end K530
