import K530.Lib.Run
import K530.Quantum.DeferredExec

/-!
# What Is Deferred

The table of executors is a collection of entries, each with a token of its own.
`scheduled` is what it should be: an entry from the call of `defer_exec` that
made it until its callback has returned 0 or its token is cancelled, with its
trigger time moved by `extend_deferred_exec` and by what the callback returns.

`deferred_exec_task` keeps a pointer to the entry while the callback runs. What
the callback returns is for the entry the call was for, and is put where that
entry was. If that has been freed and taken again in between, it is put to the
wrong entry. `returnsToOwn` is that it has not, and the table is what it should
be exactly when every return is so.

## Main definitions

* `scheduled`: What should be in the table, after what has happened.

## Theorems

* `deferred_exec_iff`: The table throughout a run.
* `deferred_exec_broken`: A callback that cancels itself and defers another.
-/

namespace K530

open Slots
open StepRun

universe u v

/-- An entry that is not free. -/
def Live {κ : Type u} {α : Type v} (e : DeferredExecutor κ α) : Prop := e.token ≠ 0

/-! ### The functions -/

namespace DeferredExec

variable {n : Nat} {κ : Type u} {α : Type v}

theorem withToken_eq_some {token : BitVec 8} {executors : Fin n → DeferredExecutor κ α}
    {i : Fin n} (h : withToken token executors = some i) : (executors i).token = token :=
  eq_of_beq (firstFrom_eq_some h).2

theorem withToken_eq_none {token : BitVec 8} {executors : Fin n → DeferredExecutor κ α}
    (h : withToken token executors = none) (i : Fin n) : (executors i).token ≠ token :=
  ne_of_beq_false (firstFrom_eq_none h i)

theorem nextToken_usable (executors : Fin n → DeferredExecutor κ α) (first current : BitVec 8) :
    (nextToken executors first current).1 ≠ 0 →
      (nextToken executors first current).2 = (nextToken executors first current).1 ∧
        ∀ i, (executors i).token ≠ (nextToken executors first current).1 := by
  induction current using nextToken.induct executors first with
  | case1 current husable =>
    rw [nextToken, if_pos husable]
    unfold tokenCanBeUsed at husable
    rw [Bool.and_eq_true, Option.isNone_iff_eq_none] at husable
    exact fun _ => ⟨rfl, withToken_eq_none husable.2⟩
  | case2 current husable hround =>
    rw [nextToken, if_neg husable, if_pos hround]
    exact fun hc => absurd rfl hc
  | case3 current husable hround ih =>
    rw [nextToken, if_neg husable, if_neg hround]
    exact ih

theorem deferExec_cases (now : BitVec 32) (serial : Nat) (delayMs : BitVec 32)
    (callback : Option κ) (cbArg : Option α) (d : DeferredExec n κ α) :
    ((d.deferExec now serial delayMs callback cbArg).1 = 0 ∧
      (d.deferExec now serial delayMs callback cbArg).2.executors = d.executors) ∨
    ∃ i, ∃ token ≠ 0, (d.deferExec now serial delayMs callback cbArg).1 = token ∧
      (d.executors i).token = 0 ∧ (∀ j, (d.executors j).token ≠ token) ∧
      (d.deferExec now serial delayMs callback cbArg).2.executors =
        Function.update d.executors i
          { token, triggerTime := now + delayMs, callback, cbArg, serial } := by
  unfold deferExec
  by_cases hignored : delayMs = 0 ∨ callback.isNone
  · rw [if_pos hignored]
    exact Or.inl ⟨rfl, rfl⟩
  · rw [if_neg hignored]
    cases hfree : withToken 0 d.executors with
    | none => exact Or.inl ⟨rfl, rfl⟩
    | some i =>
      dsimp only
      by_cases htoken : d.allocateToken.1 = 0
      · rw [if_pos htoken]
        exact Or.inl ⟨rfl, rfl⟩
      · rw [if_neg htoken]
        obtain ⟨hcurrent, hnew⟩ := nextToken_usable d.executors _ _ htoken
        refine Or.inr ⟨i, d.allocateToken.2, ?_, rfl, withToken_eq_some hfree, ?_, rfl⟩
        · exact fun hc => htoken (hcurrent.symm.trans hc)
        · exact fun j hj => hnew j (hj.trans hcurrent)

end DeferredExec

/-! ### What should be in the table -/

section Scheduled

variable {κ : Type u} {α : Type v}

/-- What one event changes. -/
def reschedule (l : List (DeferredExecutor κ α)) :
    ExecutorEvent κ α → List (DeferredExecutor κ α)
  | .deferred e => e :: l
  | .extended token triggerTime =>
    amend (fun e => e.token == token) (fun e => some { e with triggerTime }) l
  | .cancelled token => amend (fun e => e.token == token) (fun _ => none) l
  | .returned serial delayMs =>
    amend (fun e => e.serial == serial)
      (fun e => if delayMs ≠ 0 then some { e with triggerTime := e.triggerTime + delayMs }
        else none) l

/-- What should be in the table, after what has happened. -/
def scheduled (events : List (ExecutorEvent κ α)) : List (DeferredExecutor κ α) :=
  events.foldl reschedule []

theorem scheduled_concat (events : List (ExecutorEvent κ α)) (e : ExecutorEvent κ α) :
    scheduled (events ++ [e]) = reschedule (scheduled events) e := by
  unfold scheduled
  rw [List.foldl_append, List.foldl_cons, List.foldl_nil]

end Scheduled

namespace DeferredRun

variable {n : Nat} {κ : Type u} {α : Type v}

/-- No two entries have the same token. -/
def Distinct (s : DeferredRun n κ α) : Prop :=
  Unique Live DeferredExecutor.token s.exec.executors

/-- The entries are those that are scheduled. -/
def Scheduled (s : DeferredRun n κ α) : Prop :=
  Lists Live s.exec.executors (scheduled s.events)

/-- When a callback returns, its entry is free or is still the entry the call was
    for. -/
def returnsToOwn (s : DeferredRun n κ α) : ExecutorInput κ α → Bool
  | .ret _ =>
    match s.calls with
    | [] => true
    | c :: _ =>
      (s.exec.executors c.index).token == 0 ||
        (s.exec.executors c.index).serial == c.entry.serial
  | .defer .. | .extend .. | .cancel _ | .task | .tick _ => true

def Placed (s : DeferredRun n κ α) (c : ExecutorCall n κ α) : Prop :=
  c.entry.serial < s.serials ∧
    ∀ i, Live (s.exec.executors i) → (s.exec.executors i).serial = c.entry.serial → i = c.index

structure Sound (s : DeferredRun n κ α) : Prop where
  distinct : Distinct s
  scheduled : Scheduled s
  serials : Unique Live DeferredExecutor.serial s.exec.executors
  made : ∀ i, Live (s.exec.executors i) → (s.exec.executors i).serial < s.serials
  calls : ∀ c ∈ s.calls, Placed s c

/-! ### What a step preserves -/

theorem not_live_free : ¬ Live (DeferredExecutor.free κ α) := fun h => h rfl

theorem Sound.amend {s : DeferredRun n κ α} (h : Sound s) (i : Fin n)
    (a : DeferredExecutor κ α) (e : ExecutorEvent κ α)
    (hsame : Live a → Live (s.exec.executors i) ∧ a.token = (s.exec.executors i).token ∧
      a.serial = (s.exec.executors i).serial)
    (hlists : Lists Live (Function.update s.exec.executors i a)
      (reschedule (K530.scheduled s.events) e))
    {s' : DeferredRun n κ α} (hexec : s'.exec.executors = Function.update s.exec.executors i a)
    (hserials : s'.serials = s.serials) (hevents : s'.events = s.events ++ [e])
    (hcalls : ∀ c ∈ s'.calls, c ∈ s.calls) : Sound s' := by
  -- an entry that is live now was live, with the same token and the same serial
  have hbefore : ∀ j, Live (s'.exec.executors j) → Live (s.exec.executors j) ∧
      (s'.exec.executors j).serial = (s.exec.executors j).serial := by
    intro j hj
    rw [hexec] at hj ⊢
    by_cases hji : j = i
    · subst hji
      rw [Function.update_self] at hj ⊢
      exact ⟨(hsame hj).1, (hsame hj).2.2⟩
    · rw [Function.update_of_ne hji] at hj ⊢
      exact ⟨hj, rfl⟩
  refine ⟨?_, ?_, ?_, fun j hj => ?_, fun c hc => ⟨?_, fun j hj hserial => ?_⟩⟩
  · unfold Distinct
    rw [hexec]
    refine h.distinct.update i a (fun ha j hji hj hkey => hji ?_)
    exact h.distinct j i hj (hsame ha).1 (hkey.trans (hsame ha).2.1)
  · unfold Scheduled
    rwa [hexec, hevents, scheduled_concat]
  · rw [hexec]
    refine h.serials.update i a (fun ha j hji hj hkey => hji ?_)
    exact h.serials j i hj (hsame ha).1 (hkey.trans (hsame ha).2.2)
  · rw [(hbefore j hj).2, hserials]
    exact h.made j (hbefore j hj).1
  · rw [hserials]
    exact (h.calls c (hcalls c hc)).1
  · exact (h.calls c (hcalls c hc)).2 j (hbefore j hj).1 ((hbefore j hj).2.symm.trans hserial)

theorem Sound.same {s : DeferredRun n κ α} (h : Sound s) {s' : DeferredRun n κ α}
    (hexec : s'.exec.executors = s.exec.executors) (hserials : s'.serials = s.serials)
    (hlists : Lists Live s.exec.executors (K530.scheduled s'.events))
    (hcalls : ∀ c ∈ s'.calls, c ∈ s.calls) : Sound s' := by
  refine ⟨?_, ?_, ?_, ?_, fun c hc => ?_⟩
  · unfold Distinct
    rw [hexec]
    exact h.distinct
  · unfold Scheduled
    rwa [hexec]
  · rw [hexec]
    exact h.serials
  · rw [hexec, hserials]
    exact h.made
  · unfold Placed
    rw [hexec, hserials]
    exact h.calls c (hcalls c hc)

variable (s : DeferredRun n κ α)

theorem defer_sound (h : Sound s) (delayMs : BitVec 32) (callback : Option κ) (cbArg : Option α) :
    Sound (s.defer delayMs callback cbArg) := by
  unfold defer
  dsimp only
  rcases DeferredExec.deferExec_cases s.clock s.serials delayMs callback cbArg s.exec with
    ⟨hzero, hexec⟩ | ⟨i, token, hne, htoken, hfree, hnew, hexec⟩
  · rw [if_pos hzero]
    exact h.same hexec rfl h.scheduled (fun _ hc => hc)
  · rw [if_neg (by rwa [htoken]), htoken]
    have hnotlive : ¬ Live (s.exec.executors i) := fun hc => hc hfree
    refine ⟨?_, ?_, ?_, fun j hj => ?_, fun c hc => ⟨?_, fun j hj hserial => ?_⟩⟩
    · unfold Distinct happen
      dsimp only
      rw [hexec]
      exact h.distinct.update i _ (fun _ j _ _ => hnew j)
    · unfold Scheduled happen
      dsimp only
      rw [hexec, scheduled_concat]
      exact Lists.claim h.scheduled i hnotlive hne
    · unfold happen
      dsimp only
      rw [hexec]
      exact h.serials.update i _ (fun _ j _ hj => Nat.ne_of_lt (h.made j hj))
    · unfold happen at hj ⊢
      dsimp only at hj ⊢
      rw [hexec] at hj ⊢
      by_cases hji : j = i
      · subst hji
        rw [Function.update_self]
        exact Nat.lt_succ_self _
      · rw [Function.update_of_ne hji] at hj ⊢
        exact Nat.lt_succ_of_lt (h.made j hj)
    · exact Nat.lt_succ_of_lt (h.calls c hc).1
    · unfold happen at hj hserial
      dsimp only at hj hserial
      rw [hexec] at hj hserial
      by_cases hji : j = i
      · subst hji
        rw [Function.update_self] at hserial
        exact absurd (h.calls c hc).1 (by rw [← hserial]; exact Nat.lt_irrefl _)
      · rw [Function.update_of_ne hji] at hj hserial
        exact (h.calls c hc).2 j hj hserial

theorem Sound.no_token {s : DeferredRun n κ α} (h : Sound s) (token : BitVec 8)
    (hnone : ∀ i, Live (s.exec.executors i) → (s.exec.executors i).token ≠ token)
    (change : DeferredExecutor κ α → Option (DeferredExecutor κ α)) :
    Lists Live s.exec.executors
      (Slots.amend (fun e => e.token == token) change (K530.scheduled s.events)) :=
  Lists.unselected h.scheduled (fun i hi => beq_false_of_ne (hnone i hi))

theorem Sound.unknown {s : DeferredRun n κ α} (h : Sound s) (token : BitVec 8)
    (hnone : ∀ i, Live (s.exec.executors i) → (s.exec.executors i).token ≠ token)
    (e : ExecutorEvent κ α) (change : DeferredExecutor κ α → Option (DeferredExecutor κ α))
    (he : ∀ l, reschedule l e = Slots.amend (fun e => e.token == token) change l) :
    Sound (s.happen e) := by
  refine h.same rfl rfl ?_ (fun _ hc => hc)
  rw [happen, scheduled_concat, he]
  exact h.no_token token hnone change

theorem Sound.of_token {s : DeferredRun n κ α} (h : Sound s) {token : BitVec 8} {i : Fin n}
    (hlive : Live (s.exec.executors i)) (htoken : (s.exec.executors i).token = token)
    (change : DeferredExecutor κ α → Option (DeferredExecutor κ α)) (a : DeferredExecutor κ α)
    (ha : ∀ b, change (s.exec.executors i) = some b ↔ Live a ∧ b = a) :
    Lists Live (Function.update s.exec.executors i a)
      (Slots.amend (fun e => e.token == token) change (K530.scheduled s.events)) := by
  refine Lists.change h.scheduled i hlive ?_ ?_ a ha
  · exact beq_iff_eq.mpr htoken
  · exact fun j hj hs => h.distinct j i hj hlive ((beq_iff_eq.mp hs).trans htoken.symm)

theorem extend_sound (h : Sound s) (token : BitVec 8) (delayMs : BitVec 32) :
    Sound (s.extend token delayMs) := by
  unfold extend DeferredExec.extendDeferredExec
  dsimp only
  by_cases hzero : delayMs = 0
  · rw [if_pos (Or.inl hzero), if_pos hzero]
    exact h
  · rw [if_neg hzero]
    by_cases hinvalid : token = 0
    · rw [if_pos (Or.inr hinvalid)]
      exact h.unknown token (fun i hi hc => hi (hc.trans hinvalid)) _ _ (fun _ => rfl)
    · rw [if_neg (not_or.mpr ⟨hzero, hinvalid⟩)]
      cases hfound : DeferredExec.withToken token s.exec.executors with
      | none =>
        exact h.unknown token (fun i _ => DeferredExec.withToken_eq_none hfound i) _ _
          (fun _ => rfl)
      | some i =>
        have htoken := DeferredExec.withToken_eq_some hfound
        have hlive : Live (s.exec.executors i) := fun hc => hinvalid (htoken.symm.trans hc)
        refine h.amend i { s.exec.executors i with triggerTime := s.clock + delayMs }
          (.extended token (s.clock + delayMs)) (fun _ => ⟨hlive, rfl, rfl⟩) ?_ rfl rfl rfl
          (fun _ hc => hc)
        refine h.of_token hlive htoken _ _ (fun b => ?_)
        exact ⟨fun hb => ⟨hlive, (Option.some.inj hb).symm⟩, fun hb => by rw [hb.2]⟩

theorem cancel_sound (h : Sound s) (token : BitVec 8) : Sound (s.cancel token) := by
  unfold cancel DeferredExec.cancelDeferredExec
  by_cases hinvalid : token = 0
  · rw [if_pos hinvalid]
    exact h.unknown token (fun i hi hc => hi (hc.trans hinvalid)) _ _ (fun _ => rfl)
  · rw [if_neg hinvalid]
    cases hfound : DeferredExec.withToken token s.exec.executors with
    | none =>
      exact h.unknown token (fun i _ => DeferredExec.withToken_eq_none hfound i) _ _
        (fun _ => rfl)
    | some i =>
      have htoken := DeferredExec.withToken_eq_some hfound
      have hlive : Live (s.exec.executors i) := fun hc => hinvalid (htoken.symm.trans hc)
      refine h.amend i (.free κ α) (.cancelled token) (fun hc => absurd hc not_live_free) ?_
        rfl rfl rfl (fun _ hc => hc)
      refine h.of_token hlive htoken _ _ (fun b => ?_)
      exact ⟨fun hb => absurd hb.symm (Option.some_ne_none b),
        fun hb => absurd hb.1 not_live_free⟩

theorem resume_sound (h : Sound s) (now : BitVec 32) (k : Nat) : Sound (s.resume now k) := by
  unfold resume
  cases hnext : firstFrom (DeferredExec.due now) k s.exec.executors with
  | none => exact h
  | some i =>
    have hdue := (firstFrom_eq_some hnext).2
    unfold DeferredExec.due at hdue
    rw [Bool.and_eq_true, bne_iff_ne] at hdue
    refine ⟨h.distinct, h.scheduled, h.serials, h.made, fun c hc => ?_⟩
    rcases List.mem_cons.mp hc with rfl | hc
    · exact ⟨h.made i hdue.1, fun j hj hserial => h.serials j i hj hdue.1 hserial⟩
    · exact h.calls c hc

theorem task_sound (h : Sound s) : Sound s.task := by
  unfold task
  split
  · refine resume_sound _ ?_ s.clock 0
    exact ⟨h.distinct, h.scheduled, h.serials, h.made, h.calls⟩
  · exact h

theorem ret_sound (h : Sound s) (delayMs : BitVec 32)
    (hown : returnsToOwn s (.ret delayMs)) :
    Sound (s.ret delayMs) := by
  unfold ret
  unfold returnsToOwn at hown
  cases hcalls : s.calls with
  | nil => exact h
  | cons c rest =>
    rw [hcalls] at hown
    dsimp only at hown ⊢
    rw [Bool.or_eq_true, beq_iff_eq, beq_iff_eq] at hown
    have hplaced := h.calls c (by rw [hcalls]; exact List.mem_cons_self)
    have hrest : ∀ c' ∈ rest, c' ∈ s.calls := by
      intro c' hc'
      rw [hcalls]
      exact List.mem_cons_of_mem c hc'
    refine resume_sound _ ?_ c.now _
    have hafter : Live (DeferredExec.afterCallback delayMs (s.exec.executors c.index)) →
        Live (s.exec.executors c.index) ∧
        (DeferredExec.afterCallback delayMs (s.exec.executors c.index)).token =
          (s.exec.executors c.index).token ∧
        (DeferredExec.afterCallback delayMs (s.exec.executors c.index)).serial =
          (s.exec.executors c.index).serial := by
      unfold DeferredExec.afterCallback
      split
      · exact fun hc => ⟨hc, rfl, rfl⟩
      · exact fun hc => absurd hc not_live_free
    refine h.amend c.index _ (.returned c.entry.serial delayMs) hafter ?_ rfl rfl rfl hrest
    by_cases hlive : Live (s.exec.executors c.index)
    · have hserial := hown.resolve_left hlive
      unfold reschedule
      refine Lists.change h.scheduled c.index hlive ?_ ?_ _ (fun b => ?_)
      · exact beq_iff_eq.mpr hserial
      · exact fun j hj hs => hplaced.2 j hj (beq_iff_eq.mp hs)
      · unfold DeferredExec.afterCallback
        split
        · exact ⟨fun hb => ⟨hlive, (Option.some.inj hb).symm⟩, fun hb => by rw [hb.2]⟩
        · exact ⟨fun hb => absurd hb.symm (Option.some_ne_none b),
          fun hb => absurd hb.1 not_live_free⟩
    · -- the entry has been freed, so nothing is scheduled under its serial
      refine Lists.idle (Lists.unselected h.scheduled (fun j hj => ?_)) c.index hlive
        (fun hc => hlive (hafter hc).1)
      refine beq_false_of_ne (fun hs => hlive ?_)
      rwa [← hplaced.2 j hj hs]

theorem ret_broken (h : Sound s) (delayMs : BitVec 32)
    (hown : ¬ returnsToOwn s (.ret delayMs)) : ¬ Scheduled (s.ret delayMs) := by
  unfold ret
  unfold returnsToOwn at hown
  cases hcalls : s.calls with
  | nil =>
    rw [hcalls] at hown
    exact absurd rfl hown
  | cons c rest =>
    rw [hcalls] at hown
    dsimp only at hown ⊢
    rw [Bool.or_eq_true, beq_iff_eq, beq_iff_eq, not_or] at hown
    have hplaced := h.calls c (by rw [hcalls]; exact List.mem_cons_self)
    have hchanged : DeferredExec.afterCallback delayMs (s.exec.executors c.index) ≠
        s.exec.executors c.index := by
      unfold DeferredExec.afterCallback
      split
      next hdelay =>
        intro hc
        have htrigger := congrArg DeferredExecutor.triggerTime hc
        exact hdelay (by simpa using htrigger)
      next => exact fun hc => hown.1 (congrArg DeferredExecutor.token hc).symm
    -- the entry the call was for is gone, so nothing scheduled changes
    have hlists : Lists Live s.exec.executors
        (reschedule (K530.scheduled s.events) (.returned c.entry.serial delayMs)) := by
      refine Lists.unselected h.scheduled (fun j hj => beq_false_of_ne (fun hs => hown.2 ?_))
      rw [← hplaced.2 j hj hs]
      exact hs
    have hbroken := hlists.broken DeferredExecutor.token h.distinct c.index hown.1 hchanged
    unfold Scheduled resume
    split
    · rwa [happen, scheduled_concat]
    · rwa [happen, scheduled_concat]

theorem step_sound (i : ExecutorInput κ α) (h : Sound s) (hown : returnsToOwn s i) :
    Sound (s.step i) := by
  cases i with
  | defer delayMs callback cbArg => exact defer_sound s h delayMs callback cbArg
  | extend token delayMs => exact extend_sound s h token delayMs
  | cancel token => exact cancel_sound s h token
  | task => exact task_sound s h
  | ret delayMs => exact ret_sound s h delayMs hown
  | tick now => exact ⟨h.distinct, h.scheduled, h.serials, h.made, h.calls⟩

theorem start_sound : Sound (start n κ α) where
  distinct := fun _ _ hi => absurd hi not_live_free
  scheduled := lists_nil (fun _ => not_live_free)
  serials := fun _ _ hi => absurd hi not_live_free
  made := fun _ hi => absurd hi not_live_free
  calls := fun _ hc => absurd hc List.not_mem_nil

/-- No two entries ever have the same token. And every entry stays scheduled until its
    callback has returned 0 for it or its token is cancelled, with its own
    callback and the trigger time it has been given, exactly when every callback
    that returns finds its entry free or still its own. -/
theorem deferred_exec_iff (n : Nat) (κ : Type u) (α : Type v)
    (inputs : List (ExecutorInput κ α)) :
    Always step (fun s => Distinct s ∧ Scheduled s) (start n κ α) inputs ↔
      Along step (fun s i => returnsToOwn s i = true) (start n κ α) inputs := by
  refine always_iff_along step _ Sound _ (fun s h => ⟨h.distinct, h.scheduled⟩)
    (fun s i h hi => step_sound s i h hi) (fun s i h hi hc => ?_) inputs _ start_sound
  cases i with
  | ret delayMs => exact ret_broken s h delayMs hi hc.2
  | defer delayMs callback cbArg => exact hi rfl
  | extend token delayMs => exact hi rfl
  | cancel token => exact hi rfl
  | task => exact hi rfl
  | tick now => exact hi rfl

/-- A callback cancels its own token, defers another callback, which takes its
    entry, and returns 0. -/
def cancelsAndDefers : List (ExecutorInput Bool Unit) :=
  [.defer 1 (some true) none, .tick 1, .task, .cancel 1, .defer 10 (some false) none, .ret 0]

def deferredAnew : DeferredExecutor Bool Unit :=
  { token := 2, triggerTime := 11, callback := some false, cbArg := none, serial := 1 }

/-- The other callback is lost. -/
theorem deferred_exec_broken :
    ¬ Always step (fun s => Distinct s ∧ Scheduled s) (start 1 Bool Unit) cancelsAndDefers := by
  intro h
  have hlast := ((always_iff_visited step _ cancelsAndDefers _).mp h cancelsAndDefers []
    (List.append_nil _).symm).2
  obtain ⟨-, hthere⟩ := (hlast deferredAnew).mp (by decide +kernel)
  exact absurd hthere (by decide +kernel)

end DeferredRun

end K530
