import K530.Theory.Tapping.Lanes

/-!
# Tap or Hold by the Key's Own Duration

A tap key is handed over as a tap exactly if its release comes within its term
of its press. Nobody measures this. The undecided key becomes a tap when its
release is examined and the timer says that it is in the term, a hold when
anything else is examined and the timer says that the term is over, and a new
tapping key is a tap if a release that is in the term is waiting.

These agree with the duration if the release has not gone ahead of its press,
and if the timer is right whenever it is asked. The timer has sixteen bits and
takes an event that is older than the tapping key for one that is much younger.

A press that comes soon after the key has been tapped is not decided by its
duration: it is the next tap of a sequence. `Rested` leaves these out.

## Main definitions

* `ByDuration`: What is wanted of the records handed over.

## Theorems

* `tap_by_duration`: Tap keys are decided by their duration if no event of a tap
  key cuts in and the timer is right.
* `tap_by_duration_broken`: Three tap keys, and a tick.
-/

namespace K530

/-- The press of a tap key. -/
def Handed.isTapPress {K : Type} (g : Handed K) : Bool :=
  g.isPhysical && g.record.pressed && (g.handedAs == .tappingKey || decide (0 < g.record.tap.count))

/-- The release of a tap. -/
def Handed.isTapRelease {K : Type} (g : Handed K) : Bool :=
  g.isPhysical && !g.record.pressed && decide (0 < g.record.tap.count)

/-- The time of an input. -/
def TapInput.time {K : Type} : TapInput K → Nat
  | .tick now => now
  | .key _ _ now => now

namespace TapState

open StepRun

variable {K H : Type} [DecidableEq K]

/-- The key events. -/
def events (s : TapState K H) : List (KeyEvent K) := s.arrived.map TapRecord.event

/-- A later release of the key of a press. -/
def isReleaseOf (r : TapRecord K) (x : KeyEvent K) : Bool :=
  decide (x.key = r.key) && !x.pressed && decide (r.seq < x.seq)

/-- A press does not come within the term of its key after a tap release of it. -/
def Rested (T : K → Nat) (s : TapState K H) (r : TapRecord K) : Prop :=
  ∀ g ∈ s.out, g.isTapRelease = true → g.record.key = r.key → g.record.seq < r.seq →
    g.record.ms + T r.key ≤ r.ms

/-- The presses of tap keys that have rested, and whose release has come, are
    handed over as taps exactly if the release came within the term. -/
def ByDuration (T : K → Nat) (s : TapState K H) : Prop :=
  ∀ g ∈ s.out, g.isTapPress = true → s.Rested T g.record →
    ∀ x ∈ s.events, isReleaseOf g.record x = true →
      (∀ y ∈ s.events, isReleaseOf g.record y = true → x.seq ≤ y.seq) →
      (0 < g.record.tap.count ↔ x.ms < g.record.ms + T g.record.key)

/-- Times do not decrease. -/
def InTime (s : TapState K H) (input : TapInput K) : Prop := s.now ≤ eventMs input.time

omit [DecidableEq K] in
instance (s : TapState K H) (input : TapInput K) : Decidable (InTime s input) :=
  inferInstanceAs (Decidable (s.now ≤ eventMs input.time))

/-! ### The timer -/

omit [DecidableEq K] in
/-- The timer agrees with the full times and the key's own term. -/
def agrees (P : TapHost K H) (T : K → Nat) (s : TapState K H) (tk : TapRecord K)
    (time : BitVec 16) (ms : Nat) : Bool :=
  s.within P tk time == decide (ms < tk.ms + T tk.key)

/-- The timer is right about a record that is examined: about the term of the
    undecided key; if it is a press that would be the next tap; and about the
    releases that are waiting for it. -/
structure Timed (P : TapHost K H) (T : K → Nat) (s : TapState K H) (r : TapRecord K) : Prop where
  undecided : ∀ tk ∈ s.tapping, tk.pressed = true → tk.tap.count = 0 →
    s.agrees P T tk r.time r.ms = true
  released : ∀ tk ∈ s.tapping, tk.pressed = false → r.pressed = true → r.key = tk.key →
    s.within P tk r.time = true → r.ms < tk.ms + T tk.key
  scanned : r.pressed = true → s.goesAhead P r = true → P.isTap s.host r.key = true →
    ∀ w ∈ s.waiting, w.key = r.key → w.pressed = false →
      (s.makeRoom P r).agrees P T r w.time w.ms = true

omit [DecidableEq K] in
/-- The timer is right about a tick. -/
def TimedTick (P : TapHost K H) (T : K → Nat) (s : TapState K H) : TapInput K → Prop
  | .tick now => ∀ tk ∈ s.tapping, tk.pressed = true → tk.tap.count = 0 →
      s.agrees P T tk (eventTime now) (eventMs now) = true
  | .key _ _ _ => True

instance (P : TapHost K H) (T : K → Nat) (s : TapState K H) (r : TapRecord K) :
    Decidable (Timed P T s r) :=
  decidable_of_iff
    ((∀ tk ∈ s.tapping, tk.pressed = true → tk.tap.count = 0 →
        s.agrees P T tk r.time r.ms = true) ∧
      (∀ tk ∈ s.tapping, tk.pressed = false → r.pressed = true → r.key = tk.key →
        s.within P tk r.time = true → r.ms < tk.ms + T tk.key) ∧
      (r.pressed = true → s.goesAhead P r = true → P.isTap s.host r.key = true →
        ∀ w ∈ s.waiting, w.key = r.key → w.pressed = false →
          (s.makeRoom P r).agrees P T r w.time w.ms = true))
    ⟨fun h => ⟨h.1, h.2.1, h.2.2⟩, fun h => ⟨h.undecided, h.released, h.scanned⟩⟩

omit [DecidableEq K] in
instance (P : TapHost K H) (T : K → Nat) (s : TapState K H) :
    (input : TapInput K) → Decidable (TimedTick P T s input)
  | .tick now => inferInstanceAs (Decidable (∀ tk ∈ s.tapping, tk.pressed = true →
      tk.tap.count = 0 → s.agrees P T tk (eventTime now) (eventMs now) = true))
  | .key _ _ _ => inferInstanceAs (Decidable True)

omit [DecidableEq K] in
theorem agrees_iff (P : TapHost K H) (T : K → Nat) (s : TapState K H) (tk : TapRecord K)
    (time : BitVec 16) (ms : Nat) :
    s.agrees P T tk time ms ↔ (s.within P tk time ↔ ms < tk.ms + T tk.key) := by
  rw [agrees, beq_iff_eq, Bool.eq_iff_iff, decide_eq_true_eq]

omit [DecidableEq K] in
theorem Cleared.out_eq {P : TapHost K H} {r : TapRecord K} {s t : TapState K H}
    (h : Cleared P r s t) :
    ∃ gone, t.out = s.out ++ gone ∧ ∀ g ∈ gone, g.isPhysical = false := by
  rcases h with ⟨ht, _⟩ | ⟨tk, _, _, ht⟩
  · exact ⟨[], by rw [ht, List.append_nil], fun g hg => absurd hg List.not_mem_nil⟩
  · let made : TapRecord K := { tk with time := r.time, ms := r.ms, pressed := false }
    refine ⟨[{ record := made, handedAs := .synthetic }], by rw [ht, handOver_out], ?_⟩
    intro g hg
    rw [List.mem_singleton.mp hg]
    rfl

theorem start_unfound (P : TapHost K H) (r : TapRecord K) (s : TapState K H)
    (hpressed : r.pressed) (hcount : r.tap.count = 0)
    (h : s.start P r = { s with tapping := some r }) (w : TapRecord K) (hw : w ∈ s.waiting)
    (hkey : w.key = r.key) (hrelease : w.pressed = false) : s.within P r w.time = false := by
  unfold start scanTap at h
  rw [if_neg (by simp [hpressed, hcount])] at h
  cases hfind : s.waiting.findIdx? (isTapRelease P r { s with tapping := some r }) with
  | none =>
    have hnot : isTapRelease P r { s with tapping := some r } w = false :=
      List.findIdx?_eq_none_iff.mp hfind w hw
    simp only [isTapRelease, hkey, hrelease, decide_true, Bool.not_false, Bool.and_true,
      Bool.true_and] at hnot
    exact hnot
  | some i =>
    have hout := congrArg (fun t => t.out.length) h
    simp only [hfind, handOver_out, List.length_append, List.length_singleton] at hout
    omega

/-! ### What is known of a press -/

def Late (T : K → Nat) (s : TapState K H) (r : TapRecord K) : Prop :=
  ∀ x ∈ s.events, isReleaseOf r x = true → r.ms + T r.key ≤ x.ms

def Early (T : K → Nat) (s : TapState K H) (r : TapRecord K) : Prop :=
  ∃ x ∈ s.events, isReleaseOf r x = true ∧ x.ms < r.ms + T r.key

/-- A press has been handed over as a tap because its release had come within
    its term, or as a hold after its term. -/
structure Verdict (T : K → Nat) (s : TapState K H) (r : TapRecord K) : Prop where
  held : r.tap.count = 0 → s.Late T r ∧ r.ms + T r.key ≤ s.now
  tapped : 0 < r.tap.count → s.Early T r

def Remembered (out : List (Handed K)) (tk : TapRecord K) : Prop :=
  ∃ g ∈ out, g.isTapRelease = true ∧ g.record.key = tk.key ∧ g.record.seq = tk.seq ∧
    g.record.ms = tk.ms

structure Judged (canTap : K → Bool) (T : K → Nat) (s : TapState K H) : Prop where
  tapKey : ∀ tk, s.tapping = some tk → canTap tk.key = true
  released : ∀ tk, s.Released tk → Remembered s.out tk
  verdicts : ∀ g ∈ s.out, g.isTapPress = true → s.Rested T g.record → s.Verdict T g.record

def Pending (T : K → Nat) (s : TapState K H) : Prop :=
  ∀ tk, s.Undecided tk → s.Rested T tk → s.Late T tk

omit [DecidableEq K] in
theorem Remembered.append {out : List (Handed K)} {tk : TapRecord K} (h : Remembered out tk)
    (new : List (Handed K)) : Remembered (out ++ new) tk := by
  rcases h with ⟨g, hg, hrest⟩
  exact ⟨g, List.mem_append_left new hg, hrest⟩

omit [DecidableEq K] in
theorem Rested.of_append {T : K → Nat} {s t : TapState K H} {r : TapRecord K}
    {new : List (Handed K)} (h : t.Rested T r) (hout : t.out = s.out ++ new) : s.Rested T r :=
  fun g hg => h g (hout ▸ List.mem_append_left new hg)

omit [DecidableEq K] in
theorem events_eq {s t : TapState K H} (h : t.arrived = s.arrived) : t.events = s.events := by
  rw [events, events, h]

theorem Verdict.congr {T : K → Nat} {s t : TapState K H} {r : TapRecord K} (h : s.Verdict T r)
    (harrived : t.arrived = s.arrived) (hnow : t.now = s.now) : t.Verdict T r := by
  refine ⟨fun hcount => ?_, fun hcount => ?_⟩
  · rw [Late, events_eq harrived, hnow]
    exact h.held hcount
  · rw [Early, events_eq harrived]
    exact h.tapped hcount

theorem Judged.append {canTap : K → Bool} {T : K → Nat} {s t : TapState K H}
    (hs : s.Judged canTap T) (new : List (Handed K)) (hout : t.out = s.out ++ new)
    (harrived : t.arrived = s.arrived) (hnow : t.now = s.now)
    (htap : ∀ tk, t.tapping = some tk → canTap tk.key)
    (hreleased : ∀ tk, t.Released tk → Remembered t.out tk)
    (hnew : ∀ g ∈ new, g.isTapPress → t.Rested T g.record → s.Verdict T g.record) :
    t.Judged canTap T := by
  refine ⟨htap, hreleased, fun g hg hpress hrested => ?_⟩
  rw [hout] at hg
  refine Verdict.congr ?_ harrived hnow
  rcases List.mem_append.mp hg with hg | hg
  · exact hs.verdicts g hg hpress (hrested.of_append hout)
  · exact hnew g hg hpress hrested

theorem Judged.congr {canTap : K → Bool} {T : K → Nat} {s t : TapState K H}
    (hs : s.Judged canTap T) (htapping : t.tapping = s.tapping) (hout : t.out = s.out)
    (harrived : t.arrived = s.arrived) (hnow : t.now = s.now) : t.Judged canTap T := by
  refine hs.append [] (by rw [hout, List.append_nil]) harrived hnow ?_ ?_
    (fun g hg => absurd hg List.not_mem_nil)
  · rw [htapping]
    exact hs.tapKey
  · intro tk htk
    rw [hout]
    exact hs.released tk ⟨htapping ▸ htk.1, htk.2⟩

theorem Judged.arrive {canTap : K → Bool} {T : K → Nat} {P : TapHost K H} {s : TapState K H}
    {r : TapRecord K} (hs : s.Judged canTap T) (hnow : s.now ≤ r.ms) :
    (s.arrive P r).Judged canTap T := by
  have hevents : (s.arrive P r).events = s.events ++ [r.event] := by
    simp only [events, TapState.arrive, List.map_append, List.map_cons, List.map_nil]
  refine ⟨hs.tapKey, hs.released, fun g hg hpress hrested => ?_⟩
  have hverdict := hs.verdicts g hg hpress hrested
  refine ⟨fun hcount => ?_, fun hcount => ?_⟩
  · rcases hverdict.held hcount with ⟨hlate, hterm⟩
    refine ⟨fun x hx hrelease => ?_, Nat.le_trans hterm hnow⟩
    rw [hevents] at hx
    rcases List.mem_append.mp hx with hx | hx
    · exact hlate x hx hrelease
    · rw [List.mem_singleton.mp hx]
      exact Nat.le_trans hterm hnow
  · rcases hverdict.tapped hcount with ⟨x, hx, hrest⟩
    exact ⟨x, hevents ▸ List.mem_append_left _ hx, hrest⟩

/-! ### The record examined -/

structure Standing (canTap : K → Bool) (P : TapHost K H) (r : TapRecord K) (s : TapState K H)
    (e : Examined K H) (pre post : List (TapRecord K)) : Prop where
  fresh : r.pressed = true → r.tap.count = 0
  numbered : s.arrived.map TapRecord.seq = List.range s.arrived.length
  ordered : ∀ k, canTap k = true →
    ((s.handed ++ s.undecided) ++ (pre ++ r :: post).map TapRecord.event).filter
      (fun x => x.key = k) = s.events.filter (fun x => x.key = k)
  first : canTap r.key = true →
    e.consumed = true ∨ s.isFirstTap P r = true → ∀ w ∈ pre, w.key ≠ r.key
  waits : ∀ w, w ∈ s.waiting → w ∈ pre ++ r :: post
  behind : ∀ w ∈ post, w ∈ s.waiting

section

variable {canTap : K → Bool} {P : TapHost K H} {r : TapRecord K} {s : TapState K H}
  {e : Examined K H} {pre post : List (TapRecord K)}

omit [DecidableEq K] in
theorem events_sorted (h : s.arrived.map TapRecord.seq = List.range s.arrived.length) :
    s.events.Pairwise (fun x y => x.seq < y.seq) := by
  have hseq : (s.events.map KeyEvent.seq).Pairwise (· < ·) := by
    rw [events, List.map_map]
    exact h ▸ List.pairwise_lt_range
  exact List.pairwise_map.mp hseq

theorem Standing.sorted (h : Standing canTap P r s e pre post) (k : K) (hk : canTap k) :
    (((s.handed ++ s.undecided) ++ (pre ++ r :: post).map TapRecord.event).filter
      (fun x => x.key = k)).Pairwise (fun x y => x.seq < y.seq) := by
  rw [h.ordered k hk]
  exact (events_sorted h.numbered).filter _

theorem Standing.mem (h : Standing canTap P r s e pre post) (w : TapRecord K)
    (hw : w ∈ pre ++ r :: post) (hk : canTap w.key) : w.event ∈ s.events := by
  have hmem : w.event ∈ s.events.filter (fun x => x.key = w.key) := by
    rw [← h.ordered w.key hk, List.mem_filter]
    exact ⟨List.mem_append_right _ (List.mem_map_of_mem hw), decide_eq_true rfl⟩
  exact (List.mem_filter.mp hmem).1

theorem Standing.seq_lt (h : Standing canTap P r s e pre post) (hk : canTap r.key)
    (x : KeyEvent K) (hx : x ∈ s.handed ++ s.undecided) (hkey : x.key = r.key) :
    x.seq < r.seq := by
  have hsorted := h.sorted r.key hk
  rw [List.filter_append, List.pairwise_append] at hsorted
  refine hsorted.2.2 x (List.mem_filter.mpr ⟨hx, decide_eq_true hkey⟩) r.event
    (List.mem_filter.mpr ⟨?_, decide_eq_true rfl⟩)
  rw [List.map_append, List.map_cons]
  exact List.mem_append_right _ List.mem_cons_self

theorem Standing.lt_seq (h : Standing canTap P r s e pre post) (hk : canTap r.key)
    (hfirst : ∀ w ∈ pre, w.key ≠ r.key) (hpressed : r.pressed) (w : TapRecord K)
    (hw : w ∈ s.waiting) (hkey : w.key = r.key) (hrelease : w.pressed = false) :
    r.seq < w.seq := by
  -- nothing of the key waits before the record, so the release waits behind it
  have hmem : w ∈ post := by
    rcases List.mem_append.mp (h.waits w hw) with hw | hw
    · exact absurd hkey (hfirst w hw)
    · rcases List.mem_cons.mp hw with heq | hw
      · rw [heq, hpressed] at hrelease
        exact Bool.noConfusion hrelease
      · exact hw
  have hsorted := h.sorted r.key hk
  rw [List.map_append, List.map_cons, ← List.append_assoc, List.filter_append,
    List.pairwise_append, List.filter_cons,
    if_pos (show decide (r.event.key = r.key) = true from decide_eq_true rfl),
    List.pairwise_cons] at hsorted
  exact hsorted.2.1.1 w.event
    (List.mem_filter.mpr ⟨List.mem_map_of_mem hmem, decide_eq_true hkey⟩)

theorem Standing.later_waits (h : Standing canTap P r s e pre post) (hk : canTap r.key)
    (hfirst : ∀ w ∈ pre, w.key ≠ r.key) (x : KeyEvent K) (hx : x ∈ s.events)
    (hkey : x.key = r.key) (hseq : r.seq < x.seq) : ∃ w ∈ s.waiting, w.event = x := by
  have hmem : x ∈ s.events.filter (fun x => x.key = r.key) :=
    List.mem_filter.mpr ⟨hx, decide_eq_true hkey⟩
  rw [← h.ordered r.key hk, List.mem_filter] at hmem
  -- it has been handed over, or waits before the record, or is the record, or waits behind
  rcases List.mem_append.mp hmem.1 with hx | hx
  · have hlt := h.seq_lt hk x hx hkey
    omega
  · rcases List.mem_map.mp hx with ⟨w, hw, heq⟩
    rcases List.mem_append.mp hw with hw | hw
    · rw [← heq] at hkey
      exact absurd hkey (hfirst w hw)
    · rcases List.mem_cons.mp hw with hw | hw
      · rw [← heq, hw] at hseq
        exact absurd hseq (Nat.lt_irrefl _)
      · exact ⟨w, h.behind w hw, heq⟩

end

/-! ### Examining a record -/

section

variable {canTap : K → Bool} {T : K → Nat} {P : TapHost K H} {r : TapRecord K}
  {s : TapState K H} {e : Examined K H} {pre post : List (TapRecord K)}

theorem Standing.not_rested (h : Standing canTap P r s e pre post) (hs : s.Judged canTap T)
    (htimed : Timed P T s r) (tk : TapRecord K) (hreleased : s.Released tk)
    (hpressed : r.pressed) (hin : s.within P tk r.time) (hkey : r.key = tk.key) :
    ¬ s.Rested T r := by
  intro hrested
  rcases hs.released tk hreleased with ⟨g, hg, hrelease, hgkey, _, hgms⟩
  have hphysical : g.isPhysical := by
    simp only [Handed.isTapRelease, Bool.and_eq_true] at hrelease
    exact hrelease.1.1
  have hmem : g.record.event ∈ s.handed ++ s.undecided :=
    List.mem_append_left _ (List.mem_map_of_mem (List.mem_filter.mpr ⟨hg, hphysical⟩))
  have hk : canTap r.key := hkey ▸ hs.tapKey tk hreleased.1
  have hgr : g.record.key = r.key := hgkey.trans hkey.symm
  -- the release of the tap before is within a term of this press, which has then not rested
  have hlate := hrested g hg hrelease hgr (h.seq_lt hk g.record.event hmem hgr)
  have hearly := htimed.released tk hreleased.1 hreleased.2 hpressed hkey hin
  rw [hgms, hkey] at hlate
  omega

theorem Standing.late (h : Standing canTap P r s e pre post) (htimed : Timed P T s r)
    (hk : canTap r.key) (hfirst : ∀ w ∈ pre, w.key ≠ r.key) (hpressed : r.pressed)
    (htap : P.isTap s.host r.key) (hahead : s.goesAhead P r)
    (hunfound : ∀ w ∈ s.waiting, w.key = r.key → w.pressed = false →
      (s.makeRoom P r).within P r w.time = false) : s.Late T r := by
  intro x hx hrelease
  simp only [isReleaseOf, Bool.and_eq_true, decide_eq_true_eq, Bool.not_eq_true'] at hrelease
  rcases h.later_waits hk hfirst x hx hrelease.1.1 hrelease.2 with ⟨w, hw, heq⟩
  have hwkey : w.key = r.key := (congrArg KeyEvent.key heq).trans hrelease.1.1
  have hwpressed : w.pressed = false := (congrArg KeyEvent.pressed heq).trans hrelease.1.2
  -- the scan passed over it, so it came after the term
  have hagrees := htimed.scanned hpressed hahead htap w hw hwkey hwpressed
  rw [agrees_iff, hunfound w hw hwkey hwpressed] at hagrees
  have hnot : ¬ w.ms < r.ms + T r.key := fun hlt => Bool.false_ne_true (hagrees.mpr hlt)
  rw [← congrArg KeyEvent.ms heq]
  exact Nat.le_of_not_lt hnot

theorem Standing.early (h : Standing canTap P r s e pre post) (htimed : Timed P T s r)
    (hk : canTap r.key) (hfirst : ∀ w ∈ pre, w.key ≠ r.key) (hpressed : r.pressed)
    (htap : P.isTap s.host r.key) (hahead : s.goesAhead P r) (w : TapRecord K)
    (hw : w ∈ s.waiting) (hkey : w.key = r.key) (hrelease : w.pressed = false)
    (hin : (s.makeRoom P r).within P r w.time) : s.Early T r := by
  have hagrees := htimed.scanned hpressed hahead htap w hw hkey hrelease
  rw [agrees_iff] at hagrees
  have hlt := h.lt_seq hk hfirst hpressed w hw hkey hrelease
  refine ⟨w.event, h.mem w (h.waits w hw) (hkey ▸ hk), ?_, hagrees.mp hin⟩
  simp only [isReleaseOf, TapRecord.event, hkey, hrelease, hlt, decide_true, Bool.not_false,
    Bool.and_self]

omit [DecidableEq K] in
theorem not_isTapPress (handedAs : HandedAs) (hevent : handedAs ≠ .tappingKey)
    (hcount : r.pressed → r.tap.count = 0) (g : Handed K)
    (hg : g ∈ [{ record := r, handedAs }]) : ¬ g.isTapPress := by
  intro hpress
  rw [List.mem_singleton.mp hg] at hpress
  simp only [Handed.isTapPress, Bool.and_eq_true, Bool.or_eq_true, beq_iff_eq, hevent, false_or,
    decide_eq_true_eq] at hpress
  have hzero := hcount hpress.1.2
  omega

end

section

variable {canTap : K → Bool} {T : K → Nat} {P : TapHost K H} {r : TapRecord K}
  {s : TapState K H} {e : Examined K H} {pre post : List (TapRecord K)}

theorem Judged.forgotten {t : TapState K H} (hs : s.Judged canTap T) (new : List (Handed K))
    (hout : t.out = s.out ++ new) (harrived : t.arrived = s.arrived) (hnow : t.now = s.now)
    (ht : t.tapping = none)
    (hnew : ∀ g ∈ new, g.isTapPress → t.Rested T g.record → s.Verdict T g.record) :
    t.Judged canTap T ∧ t.Pending T := by
  have hnone : ∀ tk, t.tapping ≠ some tk := by
    intro tk htk
    rw [ht] at htk
    exact nomatch htk
  exact ⟨hs.append new hout harrived hnow (fun tk htk => absurd htk (hnone tk))
    (fun tk htk => absurd htk.1 (hnone tk)) hnew, fun tk htk => absurd htk.1 (hnone tk)⟩

theorem Judged.next {t : TapState K H} (hs : s.Judged canTap T) (new : List (Handed K))
    (hout : t.out = s.out ++ new) (harrived : t.arrived = s.arrived) (hnow : t.now = s.now)
    (x : TapRecord K) (ht : t.tapping = some x) (hk : canTap x.key)
    (hreleased : x.pressed = false → Remembered t.out x)
    (hlate : x.pressed → x.tap.count = 0 → t.Rested T x → s.Late T x)
    (hnew : ∀ g ∈ new, g.isTapPress → t.Rested T g.record → s.Verdict T g.record) :
    t.Judged canTap T ∧ t.Pending T := by
  have heq : ∀ tk, t.tapping = some tk → tk = x :=
    fun tk htk => Option.some.inj (htk.symm.trans ht)
  constructor
  · refine hs.append new hout harrived hnow (fun tk htk => ?_) (fun tk htk => ?_) hnew
    · rw [heq tk htk]
      exact hk
    · rw [heq tk htk.1]
      exact hreleased (heq tk htk.1 ▸ htk.2)
  · intro tk htk hrested
    rcases htk with ⟨htapping, hpressed, hcount⟩
    rw [heq tk htapping] at hpressed hcount hrested ⊢
    rw [Late, events_eq harrived]
    exact hlate hpressed hcount hrested

theorem Judged.tapped {t : TapState K H} (hs : s.Judged canTap T) (new : List (Handed K))
    (hout : t.out = s.out ++ new) (harrived : t.arrived = s.arrived) (hnow : t.now = s.now)
    (x : TapRecord K) (ht : t.tapping = some x) (hk : canTap x.key)
    (hpressed : x.pressed) (hcount : 0 < x.tap.count)
    (hnew : ∀ g ∈ new, g.isTapPress → t.Rested T g.record → s.Verdict T g.record) :
    t.Judged canTap T ∧ t.Pending T := by
  refine hs.next new hout harrived hnow x ht hk (fun hreleased => ?_) (fun _ hzero => ?_) hnew
  · exact Bool.noConfusion (hpressed.symm.trans hreleased)
  · exact absurd hzero (Nat.pos_iff_ne_zero.mp hcount)

theorem Standing.started {t : TapState K H} (h : Standing canTap P r s e pre post)
    (hs : s.Judged canTap T) (htimed : Timed P T s r)
    (hwritten : ∀ host r, (P.process host r).2 = Written.nothing)
    (hk : canTap r.key) (hfirst : ∀ w ∈ pre, w.key ≠ r.key) (hpressed : r.pressed)
    (htap : P.isTap s.host r.key) (hahead : s.goesAhead P r) (ht : Cleared P r s t) :
    (t.start P r).Judged canTap T ∧ (t.start P r).Pending T := by
  have hroom : t = s.makeRoom P r := ht.eq_makeRoom
  rcases ht.out_eq with ⟨gone, hout, hgone⟩
  rcases ht.eqs with ⟨_, hwaiting, harrived, hnow⟩
  have hmade : ∀ g ∈ gone, ¬ g.isTapPress := by
    intro g hg hpress
    simp only [Handed.isTapPress, hgone g hg, Bool.false_and, Bool.false_eq_true] at hpress
  rcases start_cases P r t with hstart | ⟨i, w, hw, hkey, hrelease, hin, _, _, _, hstart⟩
  · -- no release waits in the term, and the key is undecided
    have hlate : s.Late T r := by
      refine h.late htimed hk hfirst hpressed htap hahead (fun w hw hkey hrelease => ?_)
      rw [← hroom]
      exact start_unfound P r t hpressed (h.fresh hpressed) hstart w (hwaiting ▸ hw) hkey hrelease
    rw [hstart]
    refine hs.next gone hout harrived hnow r rfl hk ?_ (fun _ _ _ => hlate)
      (fun g hg hpress _ => absurd hpress (hmade g hg))
    exact fun hreleased => Bool.noConfusion (hpressed.symm.trans hreleased)
  · -- a release waits in the term, and the key is a tap
    have hearly : s.Early T r := h.early htimed hk hfirst hpressed htap hahead w
      (hwaiting ▸ List.mem_of_getElem? hw) hkey hrelease (hroom ▸ hin)
    have hleft : (t.startTap P r i).tapping = some (markTap r) := by
      simp only [startTap, hwritten, leave_nothing]
    rw [hstart]
    refine hs.tapped (gone ++ [{ record := markTap r, handedAs := .tappingKey }]) ?_ harrived hnow
      (markTap r) hleft hk hpressed Nat.one_pos ?_
    · rw [← List.append_assoc, ← hout]
      rfl
    · intro g hg hpress _
      rcases List.mem_append.mp hg with hg | hg
      · exact absurd hpress (hmade g hg)
      · rw [List.mem_singleton.mp hg]
        exact ⟨fun hcount => absurd hcount Nat.one_ne_zero, fun _ => hearly⟩

theorem Standing.passed (h : Standing canTap P r s e pre post) (hs : s.Judged canTap T)
    (t : Option (TapRecord K)) (hdecided : s.Decided)
    (ht : t = s.tapping ∨ ∃ tk, s.Released tk ∧ t = some (interrupt tk)) :
    ({ (s.handOver P .event r).1 with tapping := t } : TapState K H).Judged canTap T ∧
      ({ (s.handOver P .event r).1 with tapping := t } : TapState K H).Pending T := by
  have hnever := not_isTapPress .event (by decide) h.fresh
  rcases ht with ht | ⟨tk, hreleased, ht⟩
  · cases htapping : s.tapping with
    | none =>
      exact hs.forgotten _ rfl rfl rfl (ht.trans htapping)
        (fun g hg hpress _ => absurd hpress (hnever g hg))
    | some tk =>
      refine hs.next _ rfl rfl rfl tk (ht.trans htapping) (hs.tapKey tk htapping) ?_ ?_
        (fun g hg hpress _ => absurd hpress (hnever g hg))
      · exact fun hpressed => (hs.released tk ⟨htapping, hpressed⟩).append _
      · exact fun hpressed hcount => absurd ⟨htapping, hpressed, hcount⟩ (hdecided tk)
  · refine hs.next _ rfl rfl rfl (interrupt tk) ht (hs.tapKey tk hreleased.1) ?_ ?_
      (fun g hg hpress _ => absurd hpress (hnever g hg))
    · exact fun _ => (hs.released tk hreleased).append _
    · exact fun hpressed => Bool.noConfusion (hreleased.2.symm.trans hpressed)

theorem Judged.tapReleased (hs : s.Judged canTap T)
    (hwritten : ∀ host r, (P.process host r).2 = Written.nothing) (tk : TapRecord K)
    (hpressed : r.pressed = false) (htapped : s.Tapped tk) (hkey : r.key = tk.key) (within : Bool) :
    ({ (s.handOver P .event { r with tap := tk.tap }).1 with
        tapping :=
          if within then some (s.handOver P .event { r with tap := tk.tap }).2 else none } :
      TapState K H).Judged canTap T ∧
    ({ (s.handOver P .event { r with tap := tk.tap }).1 with
        tapping :=
          if within then some (s.handOver P .event { r with tap := tk.tap }).2 else none } :
      TapState K H).Pending T := by
  let tapped : TapRecord K := { r with tap := tk.tap }
  have hleft : (s.handOver P .event tapped).2 = tapped := by
    rw [handOver_left, hwritten, leave_nothing]
  have hnever := not_isTapPress (r := tapped) .event (by decide)
    (fun hr => Bool.noConfusion (hpressed.symm.trans hr))
  cases within with
  | false =>
    exact hs.forgotten [{ record := tapped, handedAs := .event }] rfl rfl rfl rfl
      (fun g hg hpress _ => absurd hpress (hnever g hg))
  | true =>
    refine hs.next [{ record := tapped, handedAs := .event }] rfl rfl rfl tapped
      (congrArg some hleft) (hkey ▸ hs.tapKey tk htapped.1) (fun _ => ?_) ?_
      (fun g hg hpress _ => absurd hpress (hnever g hg))
    · have hcount : 0 < tapped.tap.count := htapped.2.2
      have hrelease : tapped.pressed = false := hpressed
      refine ⟨{ record := tapped, handedAs := .event },
        List.mem_append_right _ (List.mem_singleton_self _), ?_, rfl, rfl, rfl⟩
      simp only [Handed.isTapRelease, Handed.isPhysical, hcount, hrelease, decide_true,
        Bool.not_false, Bool.and_true]
      decide
    · exact fun hr => Bool.noConfusion (hpressed.symm.trans hr)

theorem Standing.early_of_release (h : Standing canTap P r s e pre post) (hs : s.Judged canTap T)
    (htimed : Timed P T s r) (tk : TapRecord K) (hpressed : r.pressed = false)
    (hundecided : s.Undecided tk) (hin : s.within P tk r.time = true) (hkey : r.key = tk.key) :
    s.Early T tk := by
  have hk : canTap r.key = true := hkey ▸ hs.tapKey tk hundecided.1
  have hlt : tk.seq < r.seq := by
    refine h.seq_lt hk tk.event (List.mem_append_right _ ?_) hkey.symm
    rw [undecided_of s tk hundecided]
    exact List.mem_singleton_self _
  have hagrees := htimed.undecided tk hundecided.1 hundecided.2.1 hundecided.2.2
  rw [agrees_iff] at hagrees
  refine ⟨r.event, h.mem r (List.mem_append_right _ List.mem_cons_self) hk, ?_, hagrees.mp hin⟩
  simp only [isReleaseOf, TapRecord.event, hkey, hpressed, hlt, decide_true, Bool.not_false,
    Bool.and_self]

theorem Judged.settled (hs : s.Judged canTap T) (tk : TapRecord K) (hundecided : s.Undecided tk)
    (hover : tk.ms + T tk.key ≤ r.ms) (hnow : r.ms ≤ s.now)
    (hpending : s.Rested T tk → ∀ x ∈ s.events,
      isReleaseOf tk x → x = r.event ∨ tk.ms + T tk.key ≤ x.ms) :
    ({ (s.handOver P .tappingKey tk).1 with tapping := none } : TapState K H).Judged canTap T ∧
      ({ (s.handOver P .tappingKey tk).1 with tapping := none } : TapState K H).Pending T := by
  refine hs.forgotten [{ record := tk, handedAs := .tappingKey }] rfl rfl rfl rfl ?_
  intro g hg _ hrested
  rw [List.mem_singleton.mp hg] at hrested ⊢
  refine ⟨fun _ => ⟨fun x hx hrelease => ?_, Nat.le_trans hover hnow⟩, fun hcount => ?_⟩
  · rcases hpending (hrested.of_append rfl) x hx hrelease with heq | hle
    · rw [heq]
      exact hover
    · exact hle
  · exact absurd hundecided.2.2 (Nat.pos_iff_ne_zero.mp hcount)

theorem Judged.waits (hs : s.Judged canTap T) (tk : TapRecord K) (t : Option (TapRecord K))
    (hundecided : s.Undecided tk) (ht : t = s.tapping ∨ t = some (interrupt tk))
    (hlate : s.Rested T tk → s.Late T tk) :
    ({ s with tapping := t } : TapState K H).Judged canTap T ∧
      ({ s with tapping := t } : TapState K H).Pending T := by
  have hnew : ∀ g ∈ ([] : List (Handed K)), g.isTapPress →
      TapState.Rested T { s with tapping := t } g.record → s.Verdict T g.record :=
    fun g hg => absurd hg List.not_mem_nil
  have hpressed := hundecided.2.1
  rcases ht with ht | ht
  · refine hs.next [] (List.append_nil s.out).symm rfl rfl tk (ht.trans hundecided.1)
      (hs.tapKey tk hundecided.1) ?_ (fun _ _ hrested => hlate hrested) hnew
    exact fun hreleased => Bool.noConfusion (hpressed.symm.trans hreleased)
  · refine hs.next [] (List.append_nil s.out).symm rfl rfl (interrupt tk) ht
      (hs.tapKey tk hundecided.1) ?_ (fun _ _ hrested => hlate hrested) hnew
    exact fun hreleased => Bool.noConfusion (hpressed.symm.trans hreleased)

theorem Outcome.judged (h : Outcome P r s e) (hstanding : Standing canTap P r s e pre post)
    (hwritten : ∀ host r, (P.process host r).2 = Written.nothing)
    (hterm : ∀ host tk r, P.term host tk r < 500)
    (hcan : ∀ host k, P.isTap host k → canTap k) (hs : s.Judged canTap T)
    (hpending : ∀ tk, s.Undecided tk → s.Rested T tk → ∀ x ∈ s.events,
      isReleaseOf tk x → x = r.event ∨ tk.ms + T tk.key ≤ x.ms)
    (hnow : r.ms ≤ s.now) (htimed : Timed P T s r) :
    e.state.Judged canTap T ∧ e.state.Pending T := by
  cases h with
  | pass t hdecided ht hother hin hplain => exact hstanding.passed hs t hdecided ht
  | slip tk hundecided hin hkey hpressed htyped =>
    refine hs.next [{ record := r, handedAs := .event }] rfl rfl rfl tk hundecided.1
      (hs.tapKey tk hundecided.1) ?_ ?_ ?_
    · exact fun hreleased => Bool.noConfusion (hundecided.2.1.symm.trans hreleased)
    · intro _ _ hrested x hx hrelease
      refine (hpending tk hundecided (hrested.of_append rfl) x hx hrelease).resolve_left ?_
      intro heq
      rw [heq] at hrelease
      simp only [isReleaseOf, Bool.and_eq_true, decide_eq_true_eq] at hrelease
      exact hkey hrelease.1.1
    · exact fun g hg hpress _ =>
        absurd hpress (not_isTapPress .event (by decide) hstanding.fresh g hg)
  | start t hpressed htap hdecided hin ht =>
    have hk : canTap r.key := hcan s.host r.key htap
    exact hstanding.started hs htimed hwritten hk (hstanding.first hk (Or.inl rfl)) hpressed htap
      (goesAhead_of_decided P s r hdecided (fun tk htk => (hin tk htk).1)) ht
  | restart tk hpressed hreleased hin hkey =>
    refine hs.next [] (List.append_nil s.out).symm rfl rfl r rfl
      (hkey ▸ hs.tapKey tk hreleased.1) ?_ ?_ (fun g hg => absurd hg List.not_mem_nil)
    · exact fun hreleased' => Bool.noConfusion (hpressed.symm.trans hreleased')
    · exact fun _ _ hrested => absurd (hrested.of_append (List.append_nil s.out).symm)
        (hstanding.not_rested hs htimed tk hreleased hpressed hin hkey)
  | sequential tk hpressed hreleased hin hkey hcount halone =>
    let tapped : TapRecord K := { r with tap := nextTap tk.tap }
    have hleft : (s.handOver P .event tapped).2 = tapped := by
      rw [handOver_left, hwritten, leave_nothing]
    refine hs.tapped [{ record := tapped, handedAs := .event }] rfl rfl rfl tapped
      (congrArg some hleft) (hkey ▸ hs.tapKey tk hreleased.1) hpressed (nextTap_pos hcount) ?_
    intro g hg _ hrested
    rw [List.mem_singleton.mp hg] at hrested
    exact absurd (hrested.of_append rfl)
      (hstanding.not_rested hs htimed tk hreleased hpressed hin hkey)
  | tapRelease tk hpressed htapped hkey =>
    exact hs.tapReleased hwritten tk hpressed htapped hkey (s.within P tk r.time)
  | firstTap tk hpressed hundecided hin hkey =>
    have hleft : (s.handOver P .tappingKey (markTap tk)).2 = markTap tk := by
      rw [handOver_left, hwritten, leave_nothing]
    have hearly := hstanding.early_of_release hs htimed tk hpressed hundecided hin hkey
    refine hs.tapped [{ record := markTap tk, handedAs := .tappingKey }] rfl rfl rfl (markTap tk)
      (congrArg some hleft) (hs.tapKey tk hundecided.1) hundecided.2.1 Nat.one_pos ?_
    intro g hg _ _
    rw [List.mem_singleton.mp hg]
    exact ⟨fun hcount => absurd hcount Nat.one_ne_zero, fun _ => hearly⟩
  | settle tk hundecided hwhy =>
    have hout : s.within P tk r.time = false :=
      hwhy.resolve_right (Nat.not_le_of_lt (hterm s.host tk r))
    have hover : tk.ms + T tk.key ≤ r.ms := by
      have hagrees := htimed.undecided tk hundecided.1 hundecided.2.1 hundecided.2.2
      rw [agrees_iff, hout] at hagrees
      exact Nat.le_of_not_lt (fun hlt => Bool.false_ne_true (hagrees.mpr hlt))
    exact hs.settled tk hundecided hover hnow (hpending tk hundecided)
  | wait tk t hundecided hin ht hkey =>
    refine hs.waits tk t hundecided ht (fun hrested x hx hrelease => ?_)
    -- The record examined is a press, if it is of this key.
    refine (hpending tk hundecided hrested x hx hrelease).resolve_left (fun heq => ?_)
    rw [heq] at hrelease
    simp only [isReleaseOf, TapRecord.event, Bool.and_eq_true, Bool.not_eq_true'] at hrelease
    exact Bool.noConfusion
      (hrelease.1.2.symm.trans (hkey (of_decide_eq_true hrelease.1.1)))
  | forget tk hreleased hin =>
    exact hs.forgotten [] (List.append_nil s.out).symm rfl rfl rfl
      (fun g hg => absurd hg List.not_mem_nil)

end

/-! ### A step -/

structure Timely (canTap : K → Bool) (T : K → Nat) (s : TapState K H) : Prop where
  order : s.OwnOrder (fun k => canTap k = true)
  past : ∀ x ∈ s.events, x.ms ≤ s.now
  waits : ∀ x ∈ s.behind, x.ms ≤ s.now
  rising : s.events.Pairwise (fun x y => x.ms ≤ y.ms)
  judged : s.Judged canTap T
  pending : s.Pending T

omit [DecidableEq K] in
theorem ms_le_of_seq_le {s : TapState K H}
    (hnumbered : s.arrived.map TapRecord.seq = List.range s.arrived.length)
    (hrising : s.events.Pairwise (fun x y => x.ms ≤ y.ms)) (x y : KeyEvent K)
    (hx : x ∈ s.events) (hy : y ∈ s.events) (hseq : x.seq ≤ y.seq) : x.ms ≤ y.ms := by
  have hsorted := List.pairwise_iff_getElem.mp (events_sorted hnumbered)
  rw [List.pairwise_iff_getElem] at hrising
  rcases List.getElem_of_mem hx with ⟨i, hi, rfl⟩
  rcases List.getElem_of_mem hy with ⟨j, hj, rfl⟩
  rcases Nat.lt_trichotomy i j with hij | hij | hij
  · exact hrising i j hi hj hij
  · subst hij
    exact Nat.le_refl _
  · exact absurd (hsorted j i hj hi hij) (Nat.not_lt_of_le hseq)

theorem Timely.byDuration {canTap : K → Bool} {T : K → Nat} {s : TapState K H}
    (h : s.Timely canTap T) : s.ByDuration T := by
  intro g hg hpress hrested x hx hrelease hfirst
  have hverdict := h.judged.verdicts g hg hpress hrested
  constructor
  · intro hcount
    rcases hverdict.tapped hcount with ⟨y, hy, hyrelease, hlt⟩
    have hle := ms_le_of_seq_le h.order.numbered h.rising x y hx hy (hfirst y hy hyrelease)
    exact Nat.lt_of_le_of_lt hle hlt
  · intro hlt
    rcases Nat.eq_zero_or_pos g.record.tap.count with hzero | hpos
    · exact absurd ((hverdict.held hzero).1 x hx hrelease) (Nat.not_le_of_lt hlt)
    · exact hpos

theorem Pending.congr {T : K → Nat} {s t : TapState K H} (hs : s.Pending T)
    (htapping : t.tapping = s.tapping) (hout : t.out = s.out) (harrived : t.arrived = s.arrived) :
    t.Pending T := by
  intro tk htk hrested
  rw [Late, events_eq harrived]
  refine hs tk ⟨htapping ▸ htk.1, htk.2⟩ ?_
  rw [Rested, ← hout]
  exact hrested

theorem receive_behind (P : TapHost K H) (r : TapRecord K) (s : TapState K H)
    (hroom : s.overflows P r = false) (x : KeyEvent K) (hx : x ∈ (s.receive P r).behind) :
    x ∈ s.behind ∨ x = r.event := by
  rcases (processTapping_outcome P r s).behind_eq with ⟨hbehind, hevent, _, _⟩
  rw [behind, (receive_parts P r s hroom).2.2, List.map_append] at hx
  rcases List.mem_append.mp hx with hx | hx
  · exact Or.inl (hbehind ▸ hx)
  · refine Or.inr ?_
    cases hconsumed : (s.processTapping P r).consumed with
    | true =>
      rw [hconsumed, if_pos rfl] at hx
      exact absurd hx List.not_mem_nil
    | false =>
      rw [hconsumed, if_neg Bool.false_ne_true, List.map_singleton, List.mem_singleton] at hx
      exact hx.trans hevent

theorem afterWaiting_behind (P : TapHost K H) (w : TapRecord K) (s : TapState K H)
    (hw : w ∈ s.waiting) (x : KeyEvent K)
    (hx : x ∈ (afterWaiting (s.processTapping P w)).behind) : x ∈ s.behind := by
  rcases (processTapping_outcome P w s).behind_eq with ⟨hbehind, hevent, _, _⟩
  rw [behind, (afterWaiting_parts _).2.2, List.map_append] at hx
  rcases List.mem_append.mp hx with hx | hx
  · cases hconsumed : (s.processTapping P w).consumed with
    | true =>
      rw [hconsumed, if_pos rfl] at hx
      exact absurd hx List.not_mem_nil
    | false =>
      rw [hconsumed, if_neg Bool.false_ne_true, List.map_singleton, List.mem_singleton] at hx
      rw [hx, hevent]
      exact List.mem_map_of_mem hw
  · rw [List.map_tail] at hx
    exact hbehind ▸ List.mem_of_mem_tail hx

section

variable (canTap : K → Bool) (T : K → Nat) (P : TapHost K H)

theorem receive_timely (s : TapState K H) (key : K) (pressed : Bool) (now : Nat)
    (hwritten : ∀ host r, (P.process host r).2 = Written.nothing)
    (hterm : ∀ host tk r, P.term host tk r < 500)
    (hcan : ∀ host k, P.isTap host k → canTap k) (hs : s.Timely canTap T)
    (hnow : s.now ≤ eventMs now)
    (hroom : (s.arrive P (s.record key pressed now)).overflows P (s.record key pressed now) = false)
    (hcut : canTap key →
      (s.arrive P (s.record key pressed now)).cutsIn P (s.record key pressed now) = false)
    (htimed : Timed P T (s.arrive P (s.record key pressed now)) (s.record key pressed now)) :
    ((s.arrive P (s.record key pressed now)).receive P (s.record key pressed now)).Timely
      canTap T := by
  let r := s.record key pressed now
  let t := s.arrive P r
  have hspoilt := not_spoilt P hwritten r t
  have hevents : t.events = s.events ++ [r.event] := by
    simp only [t, events, TapState.arrive, List.map_append, List.map_cons, List.map_nil]
  have hnumbered : t.arrived.map TapRecord.seq = List.range t.arrived.length := by
    have hafter := (receive_ownOrder P _ s key pressed now hs.order hroom hcut hspoilt).numbered
    rwa [receive_arrived P r t hroom] at hafter
  -- the event stands behind all that wait, and nothing behind it
  have hstanding : Standing canTap P r t (t.processTapping P r) t.waiting [] := by
    refine ⟨fun _ => rfl, hnumbered, fun k hk => ?_,
      fun hk => first_of_consumed P t r (hcut hk), fun w hw => List.mem_append_left _ hw,
      fun w hw => absurd hw List.not_mem_nil⟩
    rw [hevents, List.filter_append _ [r.event]]
    have horder := hs.order.sameOrder k hk
    rw [← show s.events = s.arrived.map TapRecord.event from rfl] at horder
    rw [← horder, List.map_append, ← List.append_assoc, List.filter_append]
    rfl
  have hjudged := (processTapping_outcome P r t).judged hstanding hwritten hterm hcan
    (hs.judged.arrive hnow) (fun tk htk hrested x hx hrelease => ?_) (Nat.le_refl _) htimed
  · rcases receive_parts P r t hroom with ⟨hout, htapping, _⟩
    have hbefore := (processTapping_outcome P r t).behind_eq.2.2
    have harrived : (t.receive P r).arrived = t.arrived := receive_arrived P r t hroom
    have hlast : (t.receive P r).now = t.now := receive_now P r t hroom
    refine ⟨receive_ownOrder P _ s key pressed now hs.order hroom hcut hspoilt, ?_, ?_, ?_,
      hjudged.1.congr htapping hout (harrived.trans hbefore.1.symm) (hlast.trans hbefore.2.symm),
      hjudged.2.congr htapping hout (harrived.trans hbefore.1.symm)⟩
    · rw [events_eq harrived, hevents, hlast]
      intro x hx
      rcases List.mem_append.mp hx with hx | hx
      · exact Nat.le_trans (hs.past x hx) hnow
      · rw [List.mem_singleton.mp hx]
        exact Nat.le_refl _
    · rw [hlast]
      intro x hx
      rcases receive_behind P r t hroom x hx with hx | hx
      · exact Nat.le_trans (hs.waits x hx) hnow
      · rw [hx]
        exact Nat.le_refl _
    · -- it comes later than all there have been
      rw [events_eq harrived, hevents, List.pairwise_append]
      refine ⟨hs.rising, List.pairwise_singleton _ _, fun x hx y hy => ?_⟩
      rw [List.mem_singleton.mp hy]
      exact Nat.le_trans (hs.past x hx) hnow
  · rw [hevents] at hx
    rcases List.mem_append.mp hx with hx | hx
    · exact Or.inr (hs.pending tk htk hrested x hx hrelease)
    · exact Or.inl (List.mem_singleton.mp hx)

theorem afterWaiting_timely (s : TapState K H) (w : TapRecord K) (rest : List (TapRecord K))
    (hwritten : ∀ host r, (P.process host r).2 = Written.nothing)
    (hterm : ∀ host tk r, P.term host tk r < 500)
    (hcan : ∀ host k, P.isTap host k → canTap k) (hs : s.Timely canTap T)
    (hwaiting : s.waiting = w :: rest) (htimed : Timed P T s w) :
    (afterWaiting (s.processTapping P w)).Timely canTap T := by
  have hw : w ∈ s.waiting := hwaiting ▸ List.mem_cons_self
  have hnow : w.ms ≤ s.now := hs.waits w.event (List.mem_map_of_mem hw)
  have hstanding : Standing canTap P w s (s.processTapping P w) [] rest := by
    refine ⟨hs.order.unmarked w hw, hs.order.numbered,
      fun k hk => ?_, fun _ _ v hv => absurd hv List.not_mem_nil, fun v hv => hwaiting ▸ hv,
      fun v hv => hwaiting ▸ List.mem_cons_of_mem w hv⟩
    rw [List.nil_append, ← hwaiting]
    exact hs.order.sameOrder k hk
  have hjudged := (processTapping_outcome P w s).judged hstanding hwritten hterm hcan hs.judged
    (fun tk htk hrested x hx hrelease => Or.inr (hs.pending tk htk hrested x hx hrelease)) hnow
    htimed
  rcases afterWaiting_parts (s.processTapping P w) with ⟨hout, htapping, _⟩
  have hbefore := (processTapping_outcome P w s).behind_eq.2.2
  have harrived := afterWaiting_arrived P w s
  have hlast := afterWaiting_now P w s
  refine ⟨afterWaiting_ownOrder P _ s w rest hs.order hwaiting (not_spoilt P hwritten w s), ?_, ?_,
    ?_, hjudged.1.congr htapping hout (harrived.trans hbefore.1.symm) (hlast.trans hbefore.2.symm),
    hjudged.2.congr htapping hout (harrived.trans hbefore.1.symm)⟩
  · rw [events_eq harrived, hlast]
    exact hs.past
  · rw [hlast]
    exact fun x hx => hs.waits x (afterWaiting_behind P w s hw x hx)
  · rw [events_eq harrived]
    exact hs.rising

theorem processTick_timely (s : TapState K H) (now : Nat) (hs : s.Timely canTap T)
    (hnow : s.now ≤ eventMs now) (htimed : TimedTick P T s (.tick now)) :
    ({ s with now := eventMs now }.processTick P (eventTime now)).Timely canTap T := by
  let t := { s with now := eventMs now }
  have hverdicts : t.Judged canTap T := by
    refine ⟨hs.judged.tapKey, hs.judged.released, fun g hg hpress hrested => ?_⟩
    have hverdict := hs.judged.verdicts g hg hpress hrested
    exact ⟨fun hcount => ⟨(hverdict.held hcount).1, Nat.le_trans (hverdict.held hcount).2 hnow⟩,
      hverdict.tapped⟩
  have hlater : ∀ x : KeyEvent K, x.ms ≤ s.now → x.ms ≤ eventMs now :=
    fun x hx => Nat.le_trans hx hnow
  have horder := processTick_ownOrder P _ s now hs.order
  rcases processTick_cases P (eventTime now) t with h | ⟨tk, hundecided, hin, h⟩ |
    ⟨tk, hreleased, hin, h⟩
  · rw [h] at horder ⊢
    exact ⟨horder, fun x hx => hlater x (hs.past x hx), fun x hx => hlater x (hs.waits x hx),
      hs.rising, hverdicts, hs.pending⟩
  · have hover : tk.ms + T tk.key ≤ eventMs now := by
      have hagrees := htimed tk hundecided.1 hundecided.2.1 hundecided.2.2
      rw [agrees_iff] at hagrees
      refine Nat.le_of_not_lt (fun hlt => Bool.false_ne_true ?_)
      rw [← hin]
      exact hagrees.mpr hlt
    have hjudged := hverdicts.forgotten
      (t := { (t.handOver P .tappingKey tk).1 with tapping := none })
      [{ record := tk, handedAs := .tappingKey }] rfl rfl rfl rfl (fun g hg _ hrested => ?_)
    · rw [h] at horder ⊢
      exact ⟨horder, fun x hx => hlater x (hs.past x hx), fun x hx => hlater x (hs.waits x hx),
        hs.rising, hjudged.1, hjudged.2⟩
    · rw [List.mem_singleton.mp hg] at hrested ⊢
      refine ⟨fun _ => ⟨hs.pending tk hundecided (hrested.of_append rfl), hover⟩, fun hcount => ?_⟩
      exact absurd hundecided.2.2 (Nat.pos_iff_ne_zero.mp hcount)
  · have hjudged := hverdicts.forgotten (t := { t with tapping := none }) []
      (List.append_nil s.out).symm rfl rfl rfl (fun g hg => absurd hg List.not_mem_nil)
    rw [h] at horder ⊢
    exact ⟨horder, fun x hx => hlater x (hs.past x hx), fun x hx => hlater x (hs.waits x hx),
      hs.rising, hjudged.1, hjudged.2⟩

theorem init_timely (host : H) : (init (K := K) host).Timely canTap T where
  order := init_ownOrder _ host
  past _ hx := absurd hx List.not_mem_nil
  waits _ hx := absurd hx List.not_mem_nil
  rising := List.Pairwise.nil
  judged := ⟨fun _ htk => (nomatch htk), fun _ htk => (nomatch htk.1),
    fun _ hg => absurd hg List.not_mem_nil⟩
  pending _ htk := nomatch htk.1

end

/-- Tap keys are decided by their duration, in a run in which times do not
    decrease and the waiting buffer has room, with a host that writes nothing and
    terms below 500 ms, if no event of a tap key cuts in and the timer is right. -/
theorem tap_by_duration (P : TapHost K H) (canTap : K → Bool) (T : K → Nat) (host : H)
    (inputs : List (TapInput K))
    (hwritten : ∀ host r, (P.process host r).2 = Written.nothing)
    (hterm : ∀ host tk r, P.term host tk r < 500)
    (hcan : ∀ host k, P.isTap host k = true → canTap k = true)
    (hnow : Along (actionExec P) InTime (init host) inputs)
    (hroom : Along (actionExec P) (OnArrival P (fun s r => s.overflows P r = false))
      (init host) inputs)
    (hcut : Along (actionExec P)
      (OnArrival P (fun s r => canTap r.key = true → s.cutsIn P r = false)) (init host) inputs)
    (htimed : Along (actionExec P) (OnExamination P (Timed P T)) (init host) inputs)
    (htick : Along (actionExec P) (TimedTick P T) (init host) inputs) :
    Always (actionExec P) (ByDuration T) (init host) inputs := by
  refine always_of_along (actionExec P) _ (Timely canTap T) (ByDuration T)
    (fun s hs => hs.byDuration) ?_ inputs (init host) (init_timely canTap T host)
    ((along_and _ _ _ _ _).mpr ⟨hnow, (along_and _ _ _ _ _).mpr ⟨hroom,
      (along_and _ _ _ _ _).mpr ⟨hcut, (along_and _ _ _ _ _).mpr ⟨htimed, htick⟩⟩⟩⟩)
  intro s input hs hC
  rcases hC with ⟨hnow, hroom, hcut, htimed, htick⟩
  have hwaiting : ∀ s w rest, s.Timely canTap T → s.waiting = w :: rest → Timed P T s w →
      (afterWaiting (s.processTapping P w)).Timely canTap T :=
    fun s w rest hs => afterWaiting_timely canTap T P s w rest hwritten hterm hcan hs
  cases input with
  | tick now =>
    exact drain_invariant P (Timed P T) (Timely canTap T) hwaiting _ _
      (processTick_timely canTap T P s now hs hnow htick) htimed
  | key key pressed now =>
    exact drain_invariant P (Timed P T) (Timely canTap T) hwaiting _ _
      (receive_timely canTap T P s key pressed now hwritten hterm hcan hs hnow hroom hcut
        htimed.1) htimed.2

/-- Two tap keys and another key, overlapping, and one of the tap keys held. -/
theorem tap_by_duration_taps :
    Always (actionExec (TapHost.plain (fun key : Nat => key < 3) 200)) (ByDuration (fun _ => 200))
      (init ())
      [.key 0 true 0, .key 1 true 20, .key 3 true 30, .key 1 false 60, .tick 90, .key 0 false 120,
        .key 3 false 130, .key 0 true 500, .tick 650, .tick 720, .key 0 false 800] :=
  tap_by_duration _ (fun key : Nat => key < 3) _ () _ (fun _ _ => rfl)
    (fun _ _ _ => (by decide : 200 < 500)) (fun _ _ h => h) (by decide +kernel) (by decide +kernel)
    (by decide +kernel) (by decide +kernel) (by decide +kernel)

/-- Three tap keys: the third is pressed when the terms of the first two are over,
    released after 10 ms, and handed over as a hold. -/
theorem tap_by_duration_broken :
    let P := TapHost.plain (fun key : Nat => key < 3) 200
    let inputs := [.key 0 true 0, .key 1 true 10, .key 2 true 250, .key 2 false 260, .tick 460]
    Along (actionExec P) InTime (init ()) inputs ∧
      Along (actionExec P) (OnArrival P (fun s r => s.overflows P r = false)) (init ()) inputs ∧
      ¬ Always (actionExec P) (ByDuration (fun _ => 200)) (init ()) inputs := by
  refine ⟨by decide +kernel, by decide +kernel, fun h => ?_⟩
  have hlast := (always_iff_visited _ _ _ _).mp h _ [] (List.append_nil _).symm
  unfold ByDuration Rested at hlast
  revert hlast
  decide +kernel

end TapState

end K530
