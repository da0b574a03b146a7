import K530.Theory.Debounce.Deferred

/-!
# A Key by Itself

A key that is taken over at once when it goes down, and when it has lasted when
it goes up, is a machine with four phases. After a press it is locked. When the
lock is over and the key is up, it is being released, until it is or comes back.

What the machine does can be told from the calls. It goes up in a call exactly
if the release has lasted since the call that ended the lock, or since the key
was first found up if that was later.

## Main definitions

* `AsymPhase`, `AsymPhase.next`: The machine.

## Theorems

* `LastPress.unique`: There is one last press.
* `Follows.next`: What the phase says of the calls, along a run.
-/

namespace K530

inductive AsymPhase where
  | up
  /-- down, and locked until then -/
  | locked (due : Nat)
  | down
  /-- down, and up then -/
  | releasing (due : Nat)
  deriving DecidableEq

namespace AsymPhase

def next (debounceTime : Nat) (x : Nat × Bool) : AsymPhase → AsymPhase
  | up => if x.2 then locked (x.1 + debounceTime) else up
  | locked due =>
    if x.1 < due then locked due else if x.2 then down else releasing (x.1 + debounceTime)
  | down => if x.2 then down else releasing (x.1 + debounceTime)
  | releasing due => if x.2 then down else if x.1 < due then releasing due else up

def cooked : AsymPhase → Bool
  | up => false
  | locked _ => true
  | down => true
  | releasing _ => true

def after (debounceTime : Nat) (samples : List (Nat × Bool)) : AsymPhase :=
  samples.foldl (fun p x => p.next debounceTime x) up

theorem after_concat (debounceTime : Nat) (samples : List (Nat × Bool)) (x : Nat × Bool) :
    after debounceTime (samples ++ [x]) = (after debounceTime samples).next debounceTime x :=
  List.foldl_concat ..

theorem next_down_iff (debounceTime : Nat) (x : Nat × Bool) (p : AsymPhase)
    (hup : p.cooked = false) : (p.next debounceTime x).cooked ↔ x.2 := by
  cases p with
  | up => cases hx : x.2 <;> simp [next, cooked, hx]
  | locked due => exact absurd hup (by simp [cooked])
  | down => exact absurd hup (by simp [cooked])
  | releasing due => exact absurd hup (by simp [cooked])

theorem next_of_down (debounceTime now : Nat) (p : AsymPhase) (hdown : p.cooked) :
    (p.next debounceTime (now, true)).cooked := by
  cases p with
  | up => exact absurd hdown Bool.false_ne_true
  | locked due =>
    by_cases hlocked : now < due
    · simp [next, cooked, hlocked]
    · simp [next, cooked, hlocked]
  | down => rfl
  | releasing due => rfl

theorem next_locked (debounceTime due : Nat) (x : Nat × Bool) :
    ((locked due).next debounceTime x).cooked := by
  by_cases hlocked : x.1 < due
  · simp [next, cooked, hlocked]
  · cases hx : x.2 <;> simp [next, cooked, hlocked, hx]

end AsymPhase

/-! ### The last press -/

section

variable {γ : Type} (time : γ → Nat) (raw : γ → Bool) (cooked : List γ → Bool)

/-- A key goes down in a call. -/
def GoesDown (before : List γ) (c : γ) : Prop :=
  cooked before = false ∧ cooked (before ++ [c]) = true

/-- The last call in which the key went down, and the calls behind it. -/
def LastPress (calls : List γ) (p : γ) (behind : List γ) : Prop :=
  ∃ before, calls = before ++ p :: behind ∧ GoesDown cooked before p ∧
    ∀ during c rest, behind = during ++ c :: rest → ¬ GoesDown cooked (before ++ p :: during) c

/-- The key goes up in the last of these calls: `e` ended the lock of the last
    press, and since the later of it and the first of the calls that found the key
    up, `DEBOUNCE` is over. -/
def ReleaseDue (debounceTime : Nat) (calls : List γ) (now : Nat) : Prop :=
  ∃ p behind e start, LastPress cooked calls p behind ∧
    behind.find? (fun c => time p + debounceTime ≤ time c) = some e ∧
    firstDiffering true (calls.map (fun c => (time c, raw c))) = some start ∧
    debounceTime ≤ now - max (time e) start

variable {time raw cooked} {calls behind : List γ} {p c : γ}

theorem LastPress.unique {p' : γ} {behind' : List γ} (h : LastPress cooked calls p behind)
    (h' : LastPress cooked calls p' behind') : p = p' ∧ behind = behind' := by
  obtain ⟨before, rfl, hdown, hnone⟩ := h
  obtain ⟨before', hcalls, hdown', hnone'⟩ := h'
  rcases List.append_eq_append_iff.mp hcalls with ⟨more, rfl, hmore⟩ | ⟨more, rfl, hmore⟩
  · cases more with
    | nil =>
      rw [List.nil_append, List.cons.injEq] at hmore
      exact hmore
    | cons q more =>
      -- The other press would be behind this one.
      rw [List.cons_append, List.cons.injEq] at hmore
      obtain ⟨rfl, hbehind⟩ := hmore
      exact absurd hdown' (hnone more p' behind' hbehind)
  · cases more with
    | nil =>
      rw [List.nil_append, List.cons.injEq] at hmore
      exact ⟨hmore.1.symm, hmore.2.symm⟩
    | cons q more =>
      rw [List.cons_append, List.cons.injEq] at hmore
      obtain ⟨rfl, hbehind⟩ := hmore
      exact absurd hdown (hnone' more p behind hbehind)

theorem LastPress.concat (h : LastPress cooked calls p behind) (hc : ¬ GoesDown cooked calls c) :
    LastPress cooked (calls ++ [c]) p (behind ++ [c]) := by
  obtain ⟨before, rfl, hdown, hnone⟩ := h
  refine ⟨before, by simp, hdown, fun during d rest hsplit => ?_⟩
  rcases List.eq_nil_or_concat rest with rfl | ⟨rest, last, rfl⟩
  · have hinj := List.append_inj' hsplit rfl
    rw [← hinj.1, ← List.singleton_inj.mp hinj.2]
    exact hc
  · rw [List.concat_eq_append, ← List.cons_append, ← List.append_assoc] at hsplit
    exact hnone during d rest (List.append_inj' hsplit rfl).1

theorem LastPress.new (hc : GoesDown cooked calls c) : LastPress cooked (calls ++ [c]) c [] :=
  ⟨calls, rfl, hc, fun during d rest hsplit => absurd hsplit (by simp)⟩

theorem LastPress.congr {cooked' : List γ → Bool} (h : LastPress cooked calls p behind)
    (hsame : ∀ before, before <+: calls → cooked before = cooked' before) :
    LastPress cooked' calls p behind := by
  obtain ⟨before, rfl, hdown, hnone⟩ := h
  have hgoes : ∀ front d rest, before ++ p :: behind = front ++ d :: rest →
      (GoesDown cooked front d ↔ GoesDown cooked' front d) := by
    intro front d rest hsplit
    unfold GoesDown
    rw [hsame front ⟨d :: rest, hsplit.symm⟩, hsame (front ++ [d]) ⟨rest, by simp [hsplit]⟩]
  refine ⟨before, rfl, (hgoes before p behind rfl).mp hdown, fun during d rest hsplit hd => ?_⟩
  exact hnone during d rest hsplit ((hgoes _ d rest (by simp [hsplit])).mpr hd)

theorem ReleaseDue.congr {cooked' : List γ → Bool} {debounceTime now : Nat}
    (hsame : ∀ before, before <+: calls → cooked before = cooked' before) :
    ReleaseDue time raw cooked debounceTime calls now ↔
      ReleaseDue time raw cooked' debounceTime calls now := by
  constructor
  · rintro ⟨p, behind, e, start, hpress, hdue⟩
    exact ⟨p, behind, e, start, hpress.congr hsame, hdue⟩
  · rintro ⟨p, behind, e, start, hpress, hdue⟩
    exact ⟨p, behind, e, start, hpress.congr (fun before hb => (hsame before hb).symm), hdue⟩

end

/-! ### Along a run -/

section

variable {γ : Type} (time : γ → Nat) (raw : γ → Bool) (debounceTime : Nat)

def phaseAfter (calls : List γ) : AsymPhase :=
  AsymPhase.after debounceTime (calls.map (fun c => (time c, raw c)))

def downAfter (calls : List γ) : Bool := (phaseAfter time raw debounceTime calls).cooked

def Follows (calls : List γ) : AsymPhase → Prop
  | .up => True
  | .locked due => ∃ p behind, LastPress (downAfter time raw debounceTime) calls p behind ∧
      due = time p + debounceTime ∧ ∀ c ∈ behind, time c < due
  | .down => ∃ p behind e, LastPress (downAfter time raw debounceTime) calls p behind ∧
      behind.find? (fun c => time p + debounceTime ≤ time c) = some e ∧ e ∈ calls ∧
      firstDiffering true (calls.map (fun c => (time c, raw c))) = none
  | .releasing due => ∃ p behind e start,
      LastPress (downAfter time raw debounceTime) calls p behind ∧
      behind.find? (fun c => time p + debounceTime ≤ time c) = some e ∧ e ∈ calls ∧
      firstDiffering true (calls.map (fun c => (time c, raw c))) = some start ∧
      due = max (time e) start + debounceTime

variable {time raw debounceTime} {calls : List γ} {c : γ}

theorem phaseAfter_concat :
    phaseAfter time raw debounceTime (calls ++ [c]) =
      (phaseAfter time raw debounceTime calls).next debounceTime (time c, raw c) := by
  unfold phaseAfter
  rw [List.map_append, List.map_singleton, AsymPhase.after_concat]

theorem downAfter_concat :
    downAfter time raw debounceTime (calls ++ [c]) =
      ((phaseAfter time raw debounceTime calls).next debounceTime (time c, raw c)).cooked := by
  unfold downAfter
  rw [phaseAfter_concat]

theorem first_up_concat :
    firstDiffering true ((calls ++ [c]).map (fun c => (time c, raw c))) =
      if raw c then none
      else some ((firstDiffering true (calls.map (fun c => (time c, raw c)))).getD (time c)) := by
  rw [List.map_append, List.map_singleton, firstDiffering_concat]
  cases hraw : raw c <;> simp

theorem first_up_le (hle : ∀ d ∈ calls, time d ≤ time c) :
    (firstDiffering true (calls.map (fun c => (time c, raw c)))).getD (time c) ≤ time c := by
  induction calls using List.reverseRecOn with
  | nil => exact Nat.le_refl _
  | append_singleton calls d ih =>
    rw [first_up_concat]
    by_cases hraw : raw d
    · rw [if_pos hraw]
      exact Nat.le_refl _
    · rw [if_neg hraw, Option.getD_some]
      have hd := hle d (by simp)
      cases hfirst : firstDiffering true (calls.map (fun c => (time c, raw c))) with
      | none => exact hd
      | some start =>
        have hcalls := ih (fun d hd => hle d (by simp [hd]))
        rw [hfirst] at hcalls
        exact hcalls

theorem not_goesDown (hdown : (phaseAfter time raw debounceTime calls).cooked) :
    ¬ GoesDown (downAfter time raw debounceTime) calls c := by
  intro h
  exact Bool.false_ne_true (h.1.symm.trans hdown)

theorem find?_concat_some {α : Type} {q : α → Bool} {l : List α} {e : α} (h : l.find? q = some e)
    (x : α) : (l ++ [x]).find? q = some e := by
  rw [List.find?_append, h]
  rfl

theorem find?_concat_none {α : Type} {q : α → Bool} {l : List α} (h : ∀ a ∈ l, ¬ q a = true)
    (x : α) : (l ++ [x]).find? q = if q x = true then some x else none := by
  rw [List.find?_append, List.find?_eq_none.mpr h, Option.none_or, List.find?_singleton]

theorem Follows.next (h : Follows time raw debounceTime calls
      (phaseAfter time raw debounceTime calls)) (hle : ∀ d ∈ calls, time d ≤ time c) :
    Follows time raw debounceTime (calls ++ [c])
      (phaseAfter time raw debounceTime (calls ++ [c])) := by
  rw [phaseAfter_concat]
  cases hphase : phaseAfter time raw debounceTime calls with
  | up =>
    -- A press, or nothing.
    simp only [AsymPhase.next]
    by_cases hraw : raw c
    · rw [if_pos hraw]
      have hdown : GoesDown (downAfter time raw debounceTime) calls c := by
        unfold GoesDown
        rw [downAfter_concat, downAfter, hphase]
        exact ⟨rfl, (AsymPhase.next_down_iff debounceTime _ _ rfl).mpr hraw⟩
      exact ⟨c, [], LastPress.new hdown, rfl, by simp⟩
    · rw [if_neg hraw]
      trivial
  | locked due =>
    rw [hphase] at h
    obtain ⟨p, behind, hpress, rfl, hbehind⟩ := h
    have hpress' := hpress.concat (c := c) (not_goesDown (by rw [hphase]; rfl))
    simp only [AsymPhase.next]
    by_cases hlocked : time c < time p + debounceTime
    · rw [if_pos hlocked]
      refine ⟨p, behind ++ [c], hpress', rfl, fun d hd => ?_⟩
      rcases List.mem_append.mp hd with hd | hd
      · exact hbehind d hd
      · rwa [List.mem_singleton.mp hd]
    · -- This call ends the lock.
      rw [if_neg hlocked]
      have hfind : (behind ++ [c]).find? (fun c => time p + debounceTime ≤ time c) = some c := by
        rw [find?_concat_none (fun d hd => by have := hbehind d hd; simp; omega)]
        simp
        omega
      by_cases hraw : raw c
      · rw [if_pos hraw]
        exact ⟨p, _, c, hpress', hfind, by simp, by rw [first_up_concat, if_pos hraw]⟩
      · rw [if_neg hraw]
        refine ⟨p, _, c, _, hpress', hfind, by simp, by rw [first_up_concat, if_neg hraw], ?_⟩
        rw [Nat.max_eq_left (first_up_le hle)]
  | down =>
    rw [hphase] at h
    obtain ⟨p, behind, e, hpress, hfind, he, hfirst⟩ := h
    have hpress' := hpress.concat (c := c) (not_goesDown (by rw [hphase]; rfl))
    have hfind' := find?_concat_some hfind c
    simp only [AsymPhase.next]
    by_cases hraw : raw c
    · rw [if_pos hraw]
      exact ⟨p, _, e, hpress', hfind', by simp [he], by rw [first_up_concat, if_pos hraw]⟩
    · rw [if_neg hraw]
      refine ⟨p, _, e, time c, hpress', hfind', by simp [he], ?_, ?_⟩
      · rw [first_up_concat, if_neg hraw, hfirst]
        rfl
      · rw [Nat.max_eq_right (hle e he)]
  | releasing due =>
    rw [hphase] at h
    obtain ⟨p, behind, e, start, hpress, hfind, he, hfirst, rfl⟩ := h
    have hpress' := hpress.concat (c := c) (not_goesDown (by rw [hphase]; rfl))
    have hfind' := find?_concat_some hfind c
    simp only [AsymPhase.next]
    by_cases hraw : raw c
    · rw [if_pos hraw]
      exact ⟨p, _, e, hpress', hfind', by simp [he], by rw [first_up_concat, if_pos hraw]⟩
    · rw [if_neg hraw]
      by_cases hlong : time c < max (time e) start + debounceTime
      · rw [if_pos hlong]
        refine ⟨p, _, e, start, hpress', hfind', by simp [he], ?_, rfl⟩
        rw [first_up_concat, if_neg hraw, hfirst]
        rfl
      · rw [if_neg hlong]
        trivial

theorem le_of_timed (htimed : Timed ((calls ++ [c]).map time)) : ∀ d ∈ calls, time d ≤ time c := by
  have hchain : ((calls ++ [c]).map time).IsChain (· ≤ ·) := htimed.imp (fun _ _ h => h.1)
  rw [List.isChain_iff_pairwise, List.map_append, List.pairwise_append] at hchain
  intro d hd
  exact hchain.2.2 (time d) (List.mem_map_of_mem hd) (time c) (by simp)

theorem follows_after (htimed : Timed (calls.map time)) :
    Follows time raw debounceTime calls (phaseAfter time raw debounceTime calls) := by
  induction calls using List.reverseRecOn with
  | nil => trivial
  | append_singleton calls c ih =>
    exact (ih (timed_next time calls c htimed).1).next (le_of_timed htimed)

theorem goes_down_iff (hup : downAfter time raw debounceTime calls = false) :
    downAfter time raw debounceTime (calls ++ [c]) ↔ raw c := by
  rw [downAfter_concat]
  exact AsymPhase.next_down_iff debounceTime (time c, raw c) _ hup

theorem not_releaseDue {cooked : List γ → Bool} (hraw : raw c) :
    ¬ ReleaseDue time raw cooked debounceTime (calls ++ [c]) (time c) := by
  rintro ⟨_, _, _, start, _, _, hfirst, _⟩
  rw [first_up_concat, if_pos hraw] at hfirst
  exact absurd hfirst (by simp)

theorem releaseDue_iff {cooked : List γ → Bool} {p : γ} {behind : List γ}
    (hraw : ¬ raw c) (hpress : LastPress cooked (calls ++ [c]) p behind) :
    ReleaseDue time raw cooked debounceTime (calls ++ [c]) (time c) ↔
      ∃ e, behind.find? (fun c => time p + debounceTime ≤ time c) = some e ∧
        debounceTime ≤ time c - max (time e)
          ((firstDiffering true (calls.map (fun c => (time c, raw c)))).getD (time c)) := by
  unfold ReleaseDue
  rw [first_up_concat, if_neg hraw]
  constructor
  · rintro ⟨p', behind', e, start, hpress', hfind, hfirst, hlong⟩
    obtain ⟨rfl, rfl⟩ := hpress.unique hpress'
    rw [Option.some.inj hfirst]
    exact ⟨e, hfind, hlong⟩
  · rintro ⟨e, hfind, hlong⟩
    exact ⟨p, behind, e, _, hpress, hfind, rfl, hlong⟩

theorem goes_up_iff (hpos : debounceTime ≠ 0) (htimed : Timed ((calls ++ [c]).map time))
    (hdown : downAfter time raw debounceTime calls) :
    downAfter time raw debounceTime (calls ++ [c]) = false ↔
      ReleaseDue time raw (downAfter time raw debounceTime) debounceTime (calls ++ [c])
        (time c) := by
  have h : Follows time raw debounceTime calls (phaseAfter time raw debounceTime calls) :=
    follows_after (timed_next time calls c htimed).1
  have hkeep : ∀ {p behind}, LastPress (downAfter time raw debounceTime) calls p behind →
      LastPress (downAfter time raw debounceTime) (calls ++ [c]) p (behind ++ [c]) :=
    fun hpress => hpress.concat (not_goesDown hdown)
  rw [downAfter_concat]
  unfold downAfter at hdown
  by_cases hraw : raw c
  · refine iff_of_false ?_ (not_releaseDue hraw)
    rw [hraw, AsymPhase.next_of_down debounceTime _ _ hdown]
    exact Bool.noConfusion
  cases hphase : phaseAfter time raw debounceTime calls with
  | up =>
    rw [hphase] at hdown
    exact absurd hdown Bool.false_ne_true
  | locked due =>
    rw [hphase] at h
    obtain ⟨p, behind, hpress, rfl, hbehind⟩ := h
    -- If this call ends the lock the release begins with it.
    refine iff_of_false (by simp [AsymPhase.next_locked]) ?_
    rw [releaseDue_iff hraw (hkeep hpress)]
    rintro ⟨e, hfind, hlong⟩
    rw [find?_concat_none (fun d hd => by have := hbehind d hd; simp; omega)] at hfind
    by_cases hends : time p + debounceTime ≤ time c
    · rw [if_pos (decide_eq_true hends), Option.some.injEq] at hfind
      subst hfind
      omega
    · rw [if_neg (fun h => hends (of_decide_eq_true h))] at hfind
      exact absurd hfind (by simp)
  | down =>
    rw [hphase] at h
    obtain ⟨p, behind, e, hpress, hfind, he, hfirst⟩ := h
    refine iff_of_false (by simp [AsymPhase.next, AsymPhase.cooked, hraw]) ?_
    -- It begins in this call.
    rw [releaseDue_iff hraw (hkeep hpress), hfirst, Option.getD_none]
    rintro ⟨e', _, hlong⟩
    omega
  | releasing due =>
    rw [hphase] at h
    obtain ⟨p, behind, e, start, hpress, hfind, he, hfirst, rfl⟩ := h
    rw [releaseDue_iff hraw (hkeep hpress), hfirst, find?_concat_some hfind]
    simp only [AsymPhase.next, Option.getD_some, if_neg hraw]
    by_cases hlong : time c < max (time e) start + debounceTime
    · rw [if_pos hlong]
      refine iff_of_false (by simp [AsymPhase.cooked]) ?_
      rintro ⟨e', he', hlong'⟩
      rw [Option.some.injEq] at he'
      subst he'
      omega
    · rw [if_neg hlong]
      exact iff_of_true rfl ⟨e, rfl, by omega⟩

end

end K530
