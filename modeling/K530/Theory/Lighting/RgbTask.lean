import K530.Lib.Recent
import K530.Lib.Run
import K530.Lighting.RgbTask

/-!
# Which Hits Are Remembered, and Which LEDs Painted

The buffer should hold the last hits that are no more than 65535 milliseconds old.
Every step that does right leaves it so, and there are three that do not.

A hit that is too old is dropped by making the count one less, which drops the last
hit and not the first: it comes out right if none is too old or if all of them are.
A call that comes more than 65535 milliseconds after the one before drops nothing at
all. And a key that needs room makes it by moving the whole array, as if it were
full; when a key has more than one LED it may not be.

The age of a hit is the time that `rgb_task_timers` has counted since.

The LEDs are painted in as many calls as it takes, each with the range behind that of
the one before. Where the last of them ends is found in a byte before it is cut down
to the number of LEDs, and if that comes round the last LEDs are not painted.

## Main definitions

* `Hit`: A LED, and how long ago it was hit.

## Theorems

* `hits_faithful`: A run of them.
* `hits_faithful_broken`: Two hits, the first of them too old.
* `indicators_paint_once`: When every LED is painted once.
* `indicators_paint_once_broken`: 255 LEDs, and 128 at a time.
-/

namespace K530

open Checked Recent StepRun

variable {c : HitConfig}

/-- A LED that has been hit, and the time since. -/
structure Hit (c : HitConfig) where
  led : Fin c.ledTotal
  age : Nat
  deriving DecidableEq

def Hit.older (elapsed : Nat) (h : Hit c) : Hit c := { h with age := h.age + elapsed }

/-- What is to be remembered of a hit. -/
def Hit.entry (h : Hit c) : HitEntry := c.entry h.led (BitVec.ofNat 16 h.age)

/-- A key, or a call of `rgb_task_timers` so long after the one before. -/
inductive HitEvent (c : HitConfig)
  | key (isMaster : Bool) (row : Fin c.rows) (col : Fin c.cols) (pressed : Bool)
  | timers (elapsed : Nat)

/-- The LEDs of a key that counts on this half. -/
def HitConfig.hitsOf (c : HitConfig) (isMaster : Bool) (row : Fin c.rows) (col : Fin c.cols)
    (pressed : Bool) : List (Fin c.ledTotal) :=
  if !c.split && !isMaster then [] else c.ledsOf row col pressed

/-- The program, and all the hits there have been, the oldest first. -/
structure HitTracker (c : HitConfig) where
  task : RgbTask c
  log : List (Hit c)

namespace HitTracker

/-- After `rgb_matrix_init`. -/
def init (c : HitConfig) : HitTracker c where
  task :=
    { timerBuffer := 0
      lastHit :=
        { count := 0
          entries := Vector.replicate c.hits { x := 0, y := 0, index := 0, tick := 65535 } } }
  log := []

def step (t : HitTracker c) : HitEvent c → Option (HitTracker c)
  | .key isMaster row col pressed =>
    (t.task.processRgbMatrix isMaster row col pressed).map (fun task =>
      { task := task
        log := t.log ++ (c.hitsOf isMaster row col pressed).map (fun led => ⟨led, 0⟩) })
  | .timers elapsed =>
    (t.task.rgbTaskTimers (t.task.timerBuffer + BitVec.ofNat 32 elapsed)).map (fun task =>
      { task := task
        log := t.log.map (Hit.older elapsed) })

theorem step_key (t : HitTracker c) (isMaster : Bool) (row : Fin c.rows) (col : Fin c.cols)
    (pressed : Bool) :
    t.step (.key isMaster row col pressed) =
      (t.task.processRgbMatrix isMaster row col pressed).map (fun task =>
        { task := task
          log := t.log ++ (c.hitsOf isMaster row col pressed).map (fun led => ⟨led, 0⟩) }) :=
  rfl

theorem step_timers (t : HitTracker c) (elapsed : Nat) :
    t.step (.timers elapsed) =
      (t.task.rgbTaskTimers (t.task.timerBuffer + BitVec.ofNat 32 elapsed)).map (fun task =>
        { task := task
          log := t.log.map (Hit.older elapsed) }) :=
  rfl

/-- A step of a program that may have left an array. -/
def stepOf (t : Option (HitTracker c)) (e : HitEvent c) : Option (HitTracker c) :=
  t.bind (fun t => t.step e)

/-- The hits that are not too old. -/
def young (t : HitTracker c) : List (Hit c) := t.log.filter (fun h => h.age ≤ 65535)

/-- The buffer holds the last of the hits that are not too old. -/
def Faithful (t : HitTracker c) : Prop :=
  t.task.lastHit.count ≤ c.hits ∧
    t.task.lastHit.contents = (t.young.rtake c.hits).map Hit.entry

instance (t : HitTracker c) : Decidable t.Faithful :=
  inferInstanceAs (Decidable (_ ∧ _))

/-- The program has not left an array, and the buffer holds the last hits. -/
def Holds (t : Option (HitTracker c)) : Prop := ∃ u, t = some u ∧ u.Faithful

/-- A step that does right: a key whose LEDs fit, and for which there is room if the
    buffer is not full or else emptied by it, and a call by which no hit has become
    too old, or every one. -/
def Sound (t : HitTracker c) : HitEvent c → Prop
  | .key isMaster row col pressed =>
    let n := (c.hitsOf isMaster row col pressed).length
    let count := t.task.lastHit.count
    n ≤ c.hits ∧ (count + n ≤ c.hits ∨ count = c.hits ∨ n = c.hits)
  | .timers elapsed =>
    let contents := t.task.lastHit.contents
    (∀ e ∈ contents, e.tick.toNat + elapsed ≤ 65535) ∨
      (elapsed % 2 ^ 32 ≤ 65535 ∧ ∀ e ∈ contents, 65535 < e.tick.toNat + elapsed % 2 ^ 32)

instance (t : HitTracker c) (e : HitEvent c) : Decidable (t.Sound e) :=
  match e with
  | .key _ _ _ _ => inferInstanceAs (Decidable (_ ∧ (_ ∨ _ ∨ _)))
  | .timers _ => inferInstanceAs (Decidable ((∀ _ ∈ _, _) ∨ (_ ∧ ∀ _ ∈ _, _)))

def SoundOf (t : Option (HitTracker c)) (e : HitEvent c) : Prop := ∀ u ∈ t, u.Sound e

instance (t : Option (HitTracker c)) (e : HitEvent c) : Decidable (SoundOf t e) :=
  inferInstanceAs (Decidable (∀ u ∈ t, u.Sound e))

end HitTracker

namespace LastHit

theorem contents_eq_of_count (s : LastHit c) (h : s.count = c.hits) :
    s.contents = s.entries.toList := by
  unfold contents
  rw [List.take_of_length_le]
  rw [Vector.length_toList, h]

theorem length_contents (s : LastHit c) (h : s.count ≤ c.hits) : s.contents.length = s.count := by
  unfold contents
  rw [List.length_take, Vector.length_toList]
  exact Nat.min_eq_left h

theorem shift_contents (n : Nat) (s : LastHit c) :
    (s.shift n).contents = s.entries.toList.drop n := by
  unfold contents shift
  apply List.ext_getElem
  · simp only [List.length_take, Vector.length_toList, List.length_drop]
    omega
  · intro i hi hi'
    have hin : i + n < c.hits := by
      rw [List.length_drop, Vector.length_toList] at hi'
      omega
    simp only [List.getElem_take, Vector.getElem_toList, Vector.getElem_ofFn, hin, dif_pos,
      List.getElem_drop, Nat.add_comm n i]
    rfl

theorem remember_contents (s : LastHit c) (led : Fin c.ledTotal) (h : s.count < c.hits) :
    ∃ t, s.remember led = some t ∧ t.count = s.count + 1 ∧
      t.contents = s.contents ++ [c.entry led 0] := by
  unfold remember
  rw [store_of_lt s.entries s.count _ h]
  refine ⟨_, rfl, rfl, ?_⟩
  have hlen : s.count < s.entries.toList.length := by rwa [Vector.length_toList]
  unfold contents
  simp only [Vector.toList_setIfInBounds]
  rw [List.take_add_one, List.getElem?_set_self hlen, List.take_set_of_le (Nat.le_refl _)]
  rfl

theorem foldlM_remember (leds : List (Fin c.ledTotal)) :
    ∀ s : LastHit c, s.count + leds.length ≤ c.hits →
      ∃ t, leds.foldlM remember s = some t ∧ t.count = s.count + leds.length ∧
        t.contents = s.contents ++ leds.map (fun led => c.entry led 0) := by
  induction leds with
  | nil =>
    intro s _
    exact ⟨s, rfl, rfl, (List.append_nil _).symm⟩
  | cons led leds ih =>
    intro s h
    rw [List.length_cons] at h
    -- there is room for this hit and for those behind it
    obtain ⟨t, ht, hcount, hcontents⟩ := remember_contents s led (by omega)
    obtain ⟨u, hu, hcount', hcontents'⟩ := ih t (by omega)
    refine ⟨u, ?_, ?_, ?_⟩
    · rw [List.foldlM_cons, ht]
      exact hu
    · rw [hcount', hcount, List.length_cons]
      omega
    · rw [hcontents', hcontents, List.append_assoc, List.map_cons, List.singleton_append]

def passed (delta : BitVec 32) (e : HitEntry) : HitEntry :=
  if Expires delta e then e else aged delta e

theorem loop_ageEntry (delta : BitVec 32) (s : LastHit c) (h : s.count ≤ c.hits) :
    ∃ t, loop (ageEntry delta) s.count s = some t ∧
      t.count = s.count - s.contents.countP (fun e => Expires delta e) ∧
      t.entries.toList = s.contents.map (passed delta) ++ s.entries.toList.drop s.count := by
  refine loop_total (ageEntry delta)
    (fun i t => t.count = s.count - (s.entries.toList.take i).countP (fun e => Expires delta e) ∧
      t.entries.toList = (s.entries.toList.take i).map (passed delta) ++ s.entries.toList.drop i)
    s.count ?_ s ⟨rfl, rfl⟩
  rintro i hi t ⟨hcount, hentries⟩
  have hlen : i < s.entries.toList.length := by
    rw [Vector.length_toList]
    omega
  have hbefore : ((s.entries.toList.take i).map (passed delta)).length = i := by
    rw [List.length_map, List.length_take]
    omega
  -- the turns before have not come to this place
  have hfetch : fetch t.entries i = some s.entries.toList[i] := by
    unfold fetch
    rw [hentries, List.getElem?_append_right (by omega), hbefore, Nat.sub_self,
      List.getElem?_drop, Nat.add_zero, List.getElem?_eq_getElem hlen]
  have htake : s.entries.toList.take (i + 1) = s.entries.toList.take i ++ [s.entries.toList[i]] :=
    (List.take_concat_get' s.entries.toList i hlen).symm
  have hdrop : s.entries.toList.drop i = s.entries.toList[i] :: s.entries.toList.drop (i + 1) :=
    List.drop_eq_getElem_cons hlen
  unfold ageEntry
  rw [hfetch, Option.bind_some, htake, List.countP_append, List.countP_singleton, List.map_append,
    List.map_singleton, List.append_assoc, List.singleton_append]
  by_cases hexpires : Expires delta s.entries.toList[i]
  · rw [if_pos hexpires]
    refine ⟨_, rfl, ?_, ?_⟩
    · simp only [hexpires, decide_true, if_true, hcount]
      omega
    · simp only [passed, hexpires, if_true, hentries, hdrop]
  · rw [if_neg hexpires, store_of_lt t.entries i _ (by rwa [Vector.length_toList] at hlen)]
    refine ⟨_, rfl, ?_, ?_⟩
    · simp only [hexpires, decide_false, Bool.false_eq_true, if_false, hcount, Nat.add_zero]
    · simp only [Vector.toList_setIfInBounds, hentries, hdrop, passed, hexpires, if_false]
      rw [List.set_append_right _ _ (by rw [hbefore]), hbefore, Nat.sub_self, List.set_cons_zero]

theorem expires_iff (delta : BitVec 32) (e : HitEntry) (h : delta.toNat ≤ 65535) :
    Expires delta e ↔ 65535 < e.tick.toNat + delta.toNat := by
  unfold Expires
  have htick := e.tick.isLt
  rw [BitVec.lt_def, BitVec.toNat_sub, BitVec.toNat_setWidth]
  have h65535 : (65535 : BitVec 32).toNat = 65535 := rfl
  rw [h65535]
  omega

theorem loop_of_none (delta : BitVec 32) (s : LastHit c) (h : s.count ≤ c.hits)
    (hnone : ∀ e ∈ s.contents, ¬ Expires delta e) :
    ∃ t, loop (ageEntry delta) s.count s = some t ∧ t.count = s.count ∧
      t.contents = s.contents.map (aged delta) := by
  obtain ⟨t, ht, hcount, hentries⟩ := loop_ageEntry delta s h
  have hzero : s.contents.countP (fun e => Expires delta e) = 0 := by
    rw [List.countP_eq_zero]
    intro e he
    simpa using hnone e he
  -- so every entry is older, and none is lost
  have hmap : s.contents.map (passed delta) = s.contents.map (aged delta) := by
    apply List.map_congr_left
    intro e he
    exact if_neg (hnone e he)
  rw [hzero, Nat.sub_zero] at hcount
  refine ⟨t, ht, hcount, ?_⟩
  unfold contents at hentries ⊢
  rw [hentries, hcount]
  refine (List.take_left' ?_).trans hmap
  rw [List.length_map, List.length_take, Vector.length_toList]
  exact Nat.min_eq_left h

theorem loop_of_all (delta : BitVec 32) (s : LastHit c) (h : s.count ≤ c.hits)
    (hall : ∀ e ∈ s.contents, Expires delta e) :
    ∃ t, loop (ageEntry delta) s.count s = some t ∧ t.count = 0 := by
  obtain ⟨t, ht, hcount, -⟩ := loop_ageEntry delta s h
  have hwhole : s.contents.countP (fun e => Expires delta e) = s.contents.length := by
    rw [List.countP_eq_length]
    intro e he
    simpa using hall e he
  rw [hwhole, length_contents s h, Nat.sub_self] at hcount
  exact ⟨t, ht, hcount⟩

end LastHit

namespace HitTracker

variable (t : HitTracker c)

theorem Faithful.count_eq {t : HitTracker c} (h : t.Faithful) :
    t.task.lastHit.count = min c.hits t.young.length := by
  rw [← LastHit.length_contents t.task.lastHit h.1, h.2, List.length_map, length_rtake]

theorem makeRoom_contents (n : Nat) (h : t.Faithful) (hn : n ≤ c.hits)
    (hroom : t.task.lastHit.count + n ≤ c.hits ∨ t.task.lastHit.count = c.hits ∨ n = c.hits) :
    (t.task.lastHit.makeRoom n).count + n ≤ c.hits ∧
      (t.task.lastHit.makeRoom n).contents = (t.young.rtake (c.hits - n)).map Hit.entry := by
  have hcount := h.count_eq
  unfold LastHit.makeRoom
  by_cases hfull : c.hits < t.task.lastHit.count + n
  · rw [if_pos hfull, LastHit.shift_contents]
    refine ⟨by unfold LastHit.shift; dsimp only; omega, ?_⟩
    by_cases hall : n = c.hits
    · -- the key needs all of the memory
      have hlen : t.task.lastHit.entries.toList.length ≤ n := by
        rw [Vector.length_toList, hall]
      rw [List.drop_of_length_le hlen, hall, Nat.sub_self, List.rtake_zero, List.map_nil]
    · -- the memory is full, and the first of the hits go
      have hcap : t.task.lastHit.count = c.hits := by omega
      rw [← LastHit.contents_eq_of_count _ hcap, h.2, ← List.map_drop,
        drop_rtake t.young c.hits n hn (by omega)]
  · rw [if_neg hfull]
    refine ⟨by omega, ?_⟩
    rw [h.2]
    congr 1
    by_cases hzero : n = 0
    · rw [hzero, Nat.sub_zero]
    · -- it is not full yet, and what is young is all in it
      rw [rtake_of_length_le t.young c.hits (by omega),
        rtake_of_length_le t.young (c.hits - n) (by omega)]

theorem faithful_key (isMaster : Bool) (row : Fin c.rows) (col : Fin c.cols) (pressed : Bool)
    (h : t.Faithful) (hsound : t.Sound (.key isMaster row col pressed)) :
    ∃ u, t.step (.key isMaster row col pressed) = some u ∧ u.Faithful := by
  obtain ⟨hn, hroom⟩ := hsound
  -- the half that is not asked hits nothing
  by_cases hhalf : (!c.split && !isMaster) = true
  · have hnone : c.hitsOf isMaster row col pressed = [] := if_pos hhalf
    have hidle : t.task.processRgbMatrix isMaster row col pressed = some t.task := if_pos hhalf
    refine ⟨t, ?_, h⟩
    rw [step_key, hidle, hnone, List.map_nil, List.append_nil]
    rfl
  · have hsome : c.hitsOf isMaster row col pressed = c.ledsOf row col pressed := if_neg hhalf
    rw [hsome] at hn hroom
    obtain ⟨hfits, hold⟩ := makeRoom_contents t _ h hn hroom
    obtain ⟨hits, hrun, hcount, hcontents⟩ :=
      LastHit.foldlM_remember (c.ledsOf row col pressed) _ hfits
    have hkey : t.task.processRgbMatrix isMaster row col pressed =
        some { t.task with lastHit := hits } := by
      unfold RgbTask.processRgbMatrix
      rw [if_neg hhalf]
      dsimp only
      rw [if_neg (by omega), hrun]
      rfl
    refine ⟨_, by rw [step_key, hkey]; rfl, ?_, ?_⟩
    · dsimp only
      omega
    · -- the new hits are none of them too old
      have hnew : ((c.ledsOf row col pressed).map (fun led => (⟨led, 0⟩ : Hit c))).filter
          (fun h => h.age ≤ 65535) = (c.ledsOf row col pressed).map (fun led => ⟨led, 0⟩) := by
        rw [List.filter_eq_self]
        intro a ha
        obtain ⟨led, -, rfl⟩ := List.mem_map.mp ha
        rfl
      unfold young
      dsimp only
      rw [hsome, List.filter_append, hnew, rtake_append _ _ _ (by rwa [List.length_map]),
        List.length_map, List.map_append, List.map_map, hcontents, hold]
      rfl

theorem young_older (elapsed : Nat) (log : List (Hit c)) :
    (log.map (Hit.older elapsed)).filter (fun h => h.age ≤ 65535) =
      ((log.filter (fun h => h.age ≤ 65535)).filter (fun h => h.age + elapsed ≤ 65535)).map
        (Hit.older elapsed) := by
  rw [List.filter_map, List.filter_filter]
  congr 1
  apply List.filter_congr
  intro a _
  simp only [Function.comp_apply, Hit.older]
  by_cases hage : a.age + elapsed ≤ 65535
  · have : a.age ≤ 65535 := by omega
    simp [hage, this]
  · simp [hage]

theorem sorted_step (e : HitEvent c) (u : HitTracker c)
    (hsorted : t.log.Pairwise (fun a b => b.age ≤ a.age)) (h : t.step e = some u) :
    u.log.Pairwise (fun a b => b.age ≤ a.age) := by
  cases e with
  | key isMaster row col pressed =>
    obtain ⟨task, -, rfl⟩ := Option.map_eq_some_iff.mp h
    refine List.pairwise_append.mpr ⟨hsorted, ?_, ?_⟩
    · exact List.pairwise_map.mpr (List.pairwise_of_forall (fun _ _ => Nat.le_refl 0))
    · -- a new hit is younger than all there have been
      intro a _ b hb
      obtain ⟨led, -, rfl⟩ := List.mem_map.mp hb
      exact Nat.zero_le _
  | timers elapsed =>
    obtain ⟨task, -, rfl⟩ := Option.map_eq_some_iff.mp h
    refine List.pairwise_map.mpr (hsorted.imp ?_)
    intro a b hab
    exact Nat.add_le_add_right hab elapsed

theorem tick_entry (h : Hit c) (hage : h.age ≤ 65535) : h.entry.tick.toNat = h.age := by
  unfold Hit.entry HitConfig.entry
  rw [BitVec.toNat_ofNat]
  exact Nat.mod_eq_of_lt (by omega)

theorem age_le_of_mem (h : Hit c) (hmem : h ∈ t.young.rtake c.hits) : h.age ≤ 65535 := by
  have hyoung : h ∈ t.young := List.mem_of_mem_drop hmem
  simpa using (List.mem_filter.mp hyoung).2

theorem delta_toNat (timer : BitVec 32) (elapsed : Nat) :
    (timer + BitVec.ofNat 32 elapsed - timer).toNat = elapsed % 2 ^ 32 := by
  rw [BitVec.add_comm, BitVec.add_sub_cancel, BitVec.toNat_ofNat]

theorem aged_entry (h : Hit c) (elapsed : Nat) (timer : BitVec 32) :
    LastHit.aged (timer + BitVec.ofNat 32 elapsed - timer) h.entry =
      (h.older elapsed).entry := by
  unfold LastHit.aged Hit.entry Hit.older HitConfig.entry
  rw [HitEntry.mk.injEq]
  refine ⟨rfl, rfl, rfl, ?_⟩
  apply BitVec.eq_of_toNat_eq
  rw [BitVec.toNat_add, BitVec.toNat_setWidth, delta_toNat]
  simp only [BitVec.toNat_ofNat]
  omega

theorem Faithful.mem {t : HitTracker c} (h : t.Faithful) {a : Hit c}
    (ha : a ∈ t.young.rtake c.hits) : a.entry ∈ t.task.lastHit.contents := by
  rw [h.2]
  exact List.mem_map_of_mem ha

theorem faithful_kept (elapsed : Nat) (h : t.Faithful)
    (hnone : ∀ e ∈ t.task.lastHit.contents, e.tick.toNat + elapsed ≤ 65535) :
    ∃ u, t.step (.timers elapsed) = some u ∧ u.Faithful := by
  have hdelta := delta_toNat t.task.timerBuffer elapsed
  have hstay : ∀ a ∈ t.young.rtake c.hits, a.age + elapsed ≤ 65535 := by
    intro a ha
    have htick := hnone a.entry (h.mem ha)
    rwa [tick_entry a (age_le_of_mem t a ha)] at htick
  have hkept : ∀ e ∈ t.task.lastHit.contents,
      ¬ LastHit.Expires (t.task.timerBuffer + BitVec.ofNat 32 elapsed - t.task.timerBuffer)
        e := by
    intro e he hexpires
    have htick := hnone e he
    have hmod : elapsed % 2 ^ 32 = elapsed := Nat.mod_eq_of_lt (by omega)
    rw [LastHit.expires_iff _ e (by omega)] at hexpires
    omega
  obtain ⟨hits, hrun, hcount, hcontents⟩ := LastHit.loop_of_none _ _ h.1 hkept
  refine ⟨_, by rw [step_timers, RgbTask.rgbTaskTimers, hrun]; rfl, ?_, ?_⟩
  · dsimp only
    rw [hcount]
    exact h.1
  · unfold young
    dsimp only
    rw [young_older, map_rtake, hcontents, h.2, List.map_map, List.map_map]
    -- the hits that are too old were so before
    change _ = ((t.young.filter _).rtake c.hits).map _
    rw [rtake_filter_of_all _ _ _ (fun a ha => decide_eq_true (hstay a ha))]
    apply List.map_congr_left
    intro a _
    exact aged_entry a elapsed t.task.timerBuffer

theorem faithful_gone (elapsed : Nat) (h : t.Faithful)
    (hsorted : t.log.Pairwise (fun a b => b.age ≤ a.age)) (hsmall : elapsed % 2 ^ 32 ≤ 65535)
    (hall : ∀ e ∈ t.task.lastHit.contents, 65535 < e.tick.toNat + elapsed % 2 ^ 32) :
    ∃ u, t.step (.timers elapsed) = some u ∧ u.Faithful := by
  have hdelta := delta_toNat t.task.timerBuffer elapsed
  have hgone : ∀ a ∈ t.young.rtake c.hits, 65535 < a.age + elapsed := by
    intro a ha
    have htick := hall a.entry (h.mem ha)
    rw [tick_entry a (age_le_of_mem t a ha)] at htick
    have hmod := Nat.mod_le elapsed (2 ^ 32)
    omega
  have hexpire : ∀ e ∈ t.task.lastHit.contents,
      LastHit.Expires (t.task.timerBuffer + BitVec.ofNat 32 elapsed - t.task.timerBuffer) e := by
    intro e he
    rw [LastHit.expires_iff _ e (by omega), hdelta]
    exact hall e he
  obtain ⟨hits, hrun, hcount⟩ := LastHit.loop_of_all _ _ h.1 hexpire
  refine ⟨_, by rw [step_timers, RgbTask.rgbTaskTimers, hrun]; rfl, ?_, ?_⟩
  · dsimp only
    omega
  · -- the hits that are not in the buffer are older than those that are
    have hyoung : t.young.Pairwise (fun a b => b.age + elapsed ≤ a.age + elapsed) :=
      (hsorted.filter _).imp (fun hab => Nat.add_le_add_right hab elapsed)
    have hnothing := rtake_filter_of_none (fun a : Hit c => a.age + elapsed) 65535 t.young c.hits
      hyoung hgone
    unfold young LastHit.contents
    dsimp only
    rw [young_older, map_rtake, hcount, List.take_zero]
    change _ = ((t.young.filter _).rtake c.hits |>.map _).map _
    rw [hnothing]
    rfl

theorem faithful_timers (elapsed : Nat) (h : t.Faithful)
    (hsorted : t.log.Pairwise (fun a b => b.age ≤ a.age))
    (hsound : t.Sound (.timers elapsed)) :
    ∃ u, t.step (.timers elapsed) = some u ∧ u.Faithful := by
  rcases hsound with hnone | ⟨hsmall, hall⟩
  · exact faithful_kept t elapsed h hnone
  · exact faithful_gone t elapsed h hsorted hsmall hall

theorem faithful_init : (init c).Faithful := by
  refine ⟨Nat.zero_le _, ?_⟩
  simp [LastHit.contents, young, init]

end HitTracker

/-- In every run of steps that do right, the buffer holds the last hits that are not
    too old, throughout. -/
theorem hits_faithful (c : HitConfig) (events : List (HitEvent c))
    (h : Along HitTracker.stepOf HitTracker.SoundOf (some (HitTracker.init c)) events) :
    Always HitTracker.stepOf HitTracker.Holds (some (HitTracker.init c)) events := by
  refine always_of_along HitTracker.stepOf HitTracker.SoundOf
    (fun t => ∃ u, t = some u ∧ u.Faithful ∧ u.log.Pairwise (fun a b => b.age ≤ a.age))
    HitTracker.Holds ?_ ?_ events _ ⟨_, rfl, HitTracker.faithful_init, List.Pairwise.nil⟩ h
  · rintro t ⟨u, rfl, hu, -⟩
    exact ⟨u, rfl, hu⟩
  · rintro t e ⟨u, rfl, hu, hsorted⟩ hsound
    have hsound := hsound u rfl
    -- the log stays sorted whatever the step is, and that carries the ages
    have hstep : ∃ v, u.step e = some v ∧ v.Faithful := by
      cases e with
      | key isMaster row col pressed => exact u.faithful_key isMaster row col pressed hu hsound
      | timers elapsed => exact u.faithful_timers elapsed hu hsorted hsound
    obtain ⟨v, hv, hfaithful⟩ := hstep
    exact ⟨v, hv, hfaithful, u.sorted_step e v hsorted hv⟩

/-- Two keys, each with its LED. -/
def twoKeys : HitConfig where
  hits := 8
  ledTotal := 2
  rows := 1
  cols := 2
  matrixCo := #v[#v[some ⟨0, Nat.zero_lt_two⟩, some ⟨1, Nat.one_lt_two⟩]]
  point := #v[⟨0, 32⟩, ⟨224, 32⟩]
  mapKb _ _ := []
  edge := .presses
  split := false
  hits_le := Nat.le_of_ble_eq_true rfl
  ledTotal_le := Nat.le_of_ble_eq_true rfl

/-- A press of one of them. -/
def HitEvent.press (col : Fin 2) : HitEvent twoKeys := .key true ⟨0, Nat.zero_lt_one⟩ col true

/-- Two hits, which are too old at the end, both of them. -/
def twoHits : List (HitEvent twoKeys) :=
  [.press ⟨0, Nat.zero_lt_two⟩, .timers 20000, .press ⟨1, Nat.one_lt_two⟩, .timers 30000,
    .timers 65535]

theorem hits_faithful_two :
    Along HitTracker.stepOf HitTracker.SoundOf (some (HitTracker.init twoKeys)) twoHits ∧
      Always HitTracker.stepOf HitTracker.Holds (some (HitTracker.init twoKeys)) twoHits := by
  have h : Along HitTracker.stepOf HitTracker.SoundOf (some (HitTracker.init twoKeys)) twoHits := by
    decide +kernel
  exact ⟨h, hits_faithful twoKeys twoHits h⟩

/-- Two hits, of which only the first is. -/
def staleHit : List (HitEvent twoKeys) :=
  [.press ⟨0, Nat.zero_lt_two⟩, .timers 40000, .press ⟨1, Nat.one_lt_two⟩, .timers 30000]

/-- The first is kept, as old as it was before, and the second is not. -/
theorem hits_faithful_broken :
    ¬ Always HitTracker.stepOf HitTracker.Holds (some (HitTracker.init twoKeys)) staleHit := by
  intro h
  obtain ⟨u, hu, hfaithful⟩ :=
    (always_iff_visited _ _ _ _).mp h staleHit [] (List.append_nil staleHit).symm
  have hcontents : ∀ v ∈ run HitTracker.stepOf (some (HitTracker.init twoKeys)) staleHit,
      v.task.lastHit.contents = [twoKeys.entry (0 : Fin 2) 40000] := by
    decide +kernel
  have hlast : ∀ v ∈ run HitTracker.stepOf (some (HitTracker.init twoKeys)) staleHit,
      v.young.rtake 8 = [⟨(1 : Fin 2), 30000⟩] := by
    decide +kernel
  have hsame := hfaithful.2
  rw [hcontents u hu, show twoKeys.hits = 8 from rfl, hlast u hu] at hsame
  revert hsame
  decide

/-- The calls of one frame: as many as it takes to come to the end. -/
def framePasses (total limit : Nat) : Nat := (total + limit - 1) / limit

/-- A LED is in the range of a call. -/
def InRange (r : Byte × Byte) (led : Nat) : Prop := r.1.toNat ≤ led ∧ led < r.2.toNat

instance (r : Byte × Byte) (led : Nat) : Decidable (InRange r led) :=
  inferInstanceAs (Decidable (_ ∧ _))

/-- The ranges of the first calls of a frame. `iter` counts from one. -/
def frameRanges (total limit : Nat) (n : Nat) : List (Byte × Byte) :=
  (List.range n).map (fun i => indicatorsAdvanced total limit (BitVec.ofNat 8 (i + 1)))

/-- Every LED is painted once in a frame, and none that there is not. -/
def PaintedOnce (total limit : Nat) : Prop :=
  ∀ led, (frameRanges total limit (framePasses total limit)).countP (fun r => InRange r led) =
    if led < total then 1 else 0

theorem lt_framePasses (total limit i : Nat) (hlimit : 0 < limit) :
    i < framePasses total limit ↔ limit * i < total := by
  unfold framePasses
  rw [Nat.lt_iff_add_one_le, Nat.le_div_iff_mul_le hlimit, Nat.add_mul, Nat.one_mul,
    Nat.mul_comm limit i]
  omega

theorem indicatorsAdvanced_of_lt (total limit i : Nat) (hlimit : 0 < limit) (hlt : limit < total)
    (htotal : total ≤ 255) (hi : i < framePasses total limit) :
    (indicatorsAdvanced total limit (BitVec.ofNat 8 (i + 1))).1.toNat = limit * i ∧
      (indicatorsAdvanced total limit (BitVec.ofNat 8 (i + 1))).2.toNat =
        min total ((limit * (i + 1)) % 256) := by
  rw [lt_framePasses total limit i hlimit] at hi
  have hle : i ≤ limit * i := Nat.le_mul_of_pos_left i hlimit
  have hiter : (BitVec.ofNat 8 (i + 1)).toNat = i + 1 := by
    rw [BitVec.toNat_ofNat]
    omega
  -- `iter` has been counted up before the range is worked out
  have hmin : BitVec.ofInt 8 (limit * (((BitVec.ofNat 8 (i + 1)).toNat : Int) - 1)) =
      BitVec.ofNat 8 (limit * i) := by
    rw [hiter, ← BitVec.ofInt_natCast]
    congr 1
    push_cast
    rw [Int.add_sub_cancel]
  have hbyte : (BitVec.ofNat 8 (limit * i)).toNat = limit * i := by
    rw [BitVec.toNat_ofNat]
    omega
  unfold indicatorsAdvanced
  rw [if_pos ⟨hlimit, hlt⟩]
  dsimp only
  have hnext : limit * i + limit = limit * (i + 1) := (Nat.mul_succ limit i).symm
  rw [hmin, hbyte, BitVec.toNat_ofNat, hnext]
  refine ⟨rfl, ?_⟩
  split
  · rw [BitVec.toNat_ofNat]
    omega
  · rw [BitVec.toNat_ofNat]
    omega

theorem countP_frameRanges (total limit n led : Nat) (hlimit : 0 < limit) (hlt : limit < total)
    (htotal : total ≤ 255) (hn : n ≤ framePasses total limit) (hbyte : limit * n < 256) :
    (frameRanges total limit n).countP (fun r => InRange r led) =
      if led < min total (limit * n) then 1 else 0 := by
  induction n with
  | zero =>
    rw [Nat.mul_zero, Nat.min_zero, if_neg (Nat.not_lt_zero led)]
    rfl
  | succ n ih =>
    obtain ⟨hmin, hmax⟩ := indicatorsAdvanced_of_lt total limit n hlimit hlt htotal hn
    -- the range of the next call begins where the others end
    have hbefore : limit * n < total := (lt_framePasses total limit n hlimit).mp hn
    have hsucc : limit * (n + 1) = limit * n + limit := Nat.mul_succ limit n
    unfold frameRanges at ih ⊢
    rw [List.range_succ, List.map_append, List.countP_append, ih (by omega) (by omega),
      List.map_singleton, List.countP_singleton]
    simp only [InRange, hmin, hmax, decide_eq_true_eq]
    rw [Nat.mod_eq_of_lt hbyte, hsucc]
    split <;> split <;> split <;> omega

theorem last_not_painted (total limit : Nat) (hlimit : 0 < limit) (hlt : limit < total)
    (htotal : total ≤ 255) (hbyte : 256 ≤ limit * framePasses total limit) :
    ¬ PaintedOnce total limit := by
  intro h
  have hlast := h (total - 1)
  rw [if_pos (by omega)] at hlast
  obtain ⟨r, hr, hpainted⟩ := List.countP_pos_iff.mp (hlast ▸ Nat.one_pos)
  unfold frameRanges at hr
  obtain ⟨i, hi, rfl⟩ := List.mem_map.mp hr
  rw [List.mem_range] at hi
  obtain ⟨hmin, hmax⟩ := indicatorsAdvanced_of_lt total limit i hlimit hlt htotal hi
  have hpainted : _ ∧ _ := of_decide_eq_true hpainted
  rw [hmin, hmax] at hpainted
  have hbefore : limit * i < total := (lt_framePasses total limit i hlimit).mp hi
  have hsucc : limit * (i + 1) = limit * i + limit := Nat.mul_succ limit i
  -- no call but the last comes to the last LED, and the last is cut short
  by_cases hend : i + 1 < framePasses total limit
  · have hnext : limit * (i + 1) < total := (lt_framePasses total limit (i + 1) hlimit).mp hend
    omega
  · have heq : framePasses total limit = i + 1 := by omega
    rw [heq] at hbyte
    omega

/-- Every LED is painted once in a frame exactly when the calls of it come to less
    than 256 LEDs. -/
theorem indicators_paint_once (total limit : Nat) (hlimit : 0 < limit) (hlt : limit < total)
    (htotal : total ≤ 255) :
    PaintedOnce total limit ↔ limit * framePasses total limit < 256 := by
  constructor
  · intro h
    by_contra hbyte
    exact last_not_painted total limit hlimit hlt htotal (Nat.le_of_not_lt hbyte) h
  · intro hbyte led
    rw [countP_frameRanges total limit _ led hlimit hlt htotal (Nat.le_refl _) hbyte]
    have hall : total ≤ limit * framePasses total limit :=
      Nat.le_of_not_lt (fun h => absurd ((lt_framePasses total limit _ hlimit).mpr h)
        (Nat.lt_irrefl _))
    rw [Nat.min_eq_left hall]

theorem indicators_paint_once_82 :
    PaintedOnce 82 17 ↔ 17 * framePasses 82 17 < 256 :=
  indicators_paint_once 82 17 (by decide) (by decide) (by decide)

/-- Of 255 LEDs, 128 at a time, the range of the second call ends before it begins. -/
theorem indicators_paint_once_broken : ¬ PaintedOnce 255 128 := by
  intro h
  have hlast := h 254
  revert hlast
  decide +kernel

end K530
