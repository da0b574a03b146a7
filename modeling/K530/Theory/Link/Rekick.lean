import K530.Lib.Recent
import K530.Theory.Link.HostSlot

/-!
# The Link Watchdog

While the module is not where the toggle wants it, the task says so again, every two
hundredth call. Off, the watchdog counts the calls in which the module reported that
it is up. On, it counts those in which it reported idle. A counter is cleared by a
report to the contrary, but not by the toggle: what an earlier period has counted is
still there when the next period of the same kind begins.

`Disciplined` is what should hold of a call: the counter of the period counts nothing
older than the period, and a frame is only sent again after two hundred calls of it.
`StartsAfresh` is the condition, a period does not begin with a counter that is not
zero and a report that lets it go on.

## Main definitions

* `Call`, `counts`: A call, and the period it counts for.

## Theorems

* `holdLink_counts`: What the watchdog does in a period, either way.
* `rekick_disciplined_iff`: And a run from power-on.
-/

namespace K530

namespace Rekick

open StepRun Driver
open Streak

/-- A call of the task: whether Bluetooth was on, and the status the module reported. -/
structure Call where
  enabled : Bool
  link : Byte
  deriving DecidableEq

/-- The module reported what the watchdog of this period counts: idle while Bluetooth is
    on, anything else while it is off. -/
def counts (on : Bool) (c : Call) : Bool :=
  c.enabled == on && (c.link == 0) == on

/-- The counter of a period. -/
def counter (on : Bool) (d : Driver) : Nat :=
  if on then d.onAdvCtr else d.offStopCtr

/-- The driver, and the calls so far. -/
structure Watched where
  driver : Driver
  calls : List Call

/-- What can be seen of a call: the period, the calls up to it, the frames the watchdog
    sent again, and the counter. -/
structure Seen where
  on : Bool
  calls : List Call
  resent : List TxFrame
  counted : Nat

/-- The driver when the watchdog is reached. -/
def reacted (input : Readings × Byte) (d : Driver) : Driver :=
  (reactEdges (pollBtToggle input.1.toggle d.toggle).2
    (pollHostSlot input.1.slotHi input.1.slotLo d.selector).2 (pollInputs input.1 d)).1

/-- The task as a step, watched. -/
def watchLink (w : Watched) (input : Readings × Byte) : Watched × Seen :=
  let driver := (bluetoothTask input.1 input.2 w.driver).1
  let calls := w.calls ++ [{ enabled := driver.isEnabled, link := input.2 }]
  ({ driver, calls },
    { on := driver.isEnabled, calls, resent := (holdLink input.2 (reacted input w.driver)).2,
      counted := counter driver.isEnabled driver })

/-- Nothing is sent again before two hundred calls of the period have asked for it, and no
    call of an earlier period is counted. -/
def Disciplined (seen : Seen) : Prop :=
  (seen.resent ≠ [] → LastAll (counts seen.on) 200 seen.calls) ∧
    seen.counted ≤ streak (counts seen.on) seen.calls

/-- If the toggle changes, the counter of the period that begins is zero, or the report
    clears it. -/
def StartsAfresh (w : Watched) (input : Readings × Byte) : Prop :=
  (pollBtToggle input.1.toggle w.driver.toggle).1.enabled ≠ w.driver.toggle.enabled →
    counter (pollBtToggle input.1.toggle w.driver.toggle).1.enabled w.driver = 0 ∨
      (input.2 == 0) ≠ (pollBtToggle input.1.toggle w.driver.toggle).1.enabled

instance (seen : Seen) : Decidable (Disciplined seen) :=
  inferInstanceAs (Decidable (_ ∧ _))

instance (w : Watched) (input : Readings × Byte) : Decidable (StartsAfresh w input) :=
  inferInstanceAs (Decidable (_ → _))

/-! ### A call -/

theorem reacted_spec (input : Readings × Byte) (d : Driver) :
    (reacted input d).toggle = (pollBtToggle input.1.toggle d.toggle).1 ∧
      ∀ on, counter on (reacted input d) = counter on d := by
  unfold reacted reactEdges counter
  split
  · split
    · exact ⟨rfl, fun _ => rfl⟩
    · exact ⟨rfl, fun _ => rfl⟩
  · split
    · exact ⟨rfl, fun _ => rfl⟩
    · exact ⟨rfl, fun _ => rfl⟩

theorem holdLink_counts (link : Byte) (d : Driver) :
    counter d.isEnabled (holdLink link d).1 =
        (if (link == 0) = d.isEnabled then
          if counter d.isEnabled d + 1 ≥ 200 then 0 else counter d.isEnabled d + 1
        else 0) ∧
      ((holdLink link d).2 ≠ [] ↔
        (link == 0) = d.isEnabled ∧ counter d.isEnabled d + 1 ≥ 200) := by
  unfold holdLink counter offStopPeriod
  cases hon : d.isEnabled with
  | false =>
    by_cases hidle : link = 0#8
    · simp [hidle]
    · by_cases hfull : d.offStopCtr + 1 ≥ 200
      · simp [hidle, hfull]
      · simp [hidle, hfull]
  | true =>
    by_cases hidle : link = 0#8
    · by_cases hfull : d.onAdvCtr + 1 ≥ 200
      · simp [hidle, hfull]
      · simp [hidle, hfull]
    · simp [hidle]

theorem watchLink_spec (w : Watched) (input : Readings × Byte) :
    (watchLink w input).2.on = (pollBtToggle input.1.toggle w.driver.toggle).1.enabled ∧
      (watchLink w input).1.driver.toggle.enabled = (watchLink w input).2.on ∧
      (watchLink w input).2.counted =
        (if (input.2 == 0) = (watchLink w input).2.on then
          if counter (watchLink w input).2.on w.driver + 1 ≥ 200 then 0
          else counter (watchLink w input).2.on w.driver + 1
        else 0) ∧
      ((watchLink w input).2.resent ≠ [] ↔ (input.2 == 0) = (watchLink w input).2.on ∧
        counter (watchLink w input).2.on w.driver + 1 ≥ 200) := by
  have htask := Link.bluetoothTask_spec input.1 input.2 w.driver
  obtain ⟨htoggle, hsame⟩ := reacted_spec input w.driver
  obtain ⟨hcounter, hresent⟩ := holdLink_counts input.2 (reacted input w.driver)
  have hon : (reacted input w.driver).isEnabled =
      (bluetoothTask input.1 input.2 w.driver).1.isEnabled := by
    unfold isEnabled
    rw [htoggle, htask.1]
  rw [hsame, hon] at hcounter hresent
  refine ⟨?_, rfl, hcounter, hresent⟩
  exact congrArg Toggle.enabled htask.1

/-- Every call so far belongs to a period, the last of them to this one, and the counter
    of this one counts nothing older. -/
structure Tied (w : Watched) : Prop where
  last : ∀ c ∈ w.calls.getLast?, c.enabled = w.driver.toggle.enabled
  counted : counter w.driver.toggle.enabled w.driver ≤
    streak (counts w.driver.toggle.enabled) w.calls

theorem disciplined_iff_startsAfresh (w : Watched) (input : Readings × Byte) (h : Tied w) :
    (Disciplined (watchLink w input).2 ↔ StartsAfresh w input) ∧
      (StartsAfresh w input → Tied (watchLink w input).1) := by
  obtain ⟨hon, hafter, hcounted, hresent⟩ := watchLink_spec w input
  have hcalls : (watchLink w input).2.calls =
      w.calls ++ [{ enabled := (watchLink w input).2.on, link := input.2 }] := rfl
  have hsame : (watchLink w input).1.calls = (watchLink w input).2.calls := rfl
  have hnow : (watchLink w input).2.counted =
      counter (watchLink w input).2.on (watchLink w input).1.driver := rfl
  have hstreak : streak (counts (watchLink w input).2.on) (watchLink w input).2.calls =
      if (input.2 == 0) = (watchLink w input).2.on then
        streak (counts (watchLink w input).2.on) w.calls + 1
      else 0 := by
    rw [hcalls, streak_concat]
    simp [counts]
  -- the streak before the call is that of the period, or there is none
  have hbefore : (watchLink w input).2.on ≠ w.driver.toggle.enabled →
      streak (counts (watchLink w input).2.on) w.calls = 0 := by
    intro hflip
    refine streak_eq_zero _ _ (fun c hc => ?_)
    unfold counts
    rw [h.last c hc, beq_eq_false_iff_ne.mpr hflip.symm, Bool.false_and]
  have htied : Disciplined (watchLink w input).2 → Tied (watchLink w input).1 := by
    rintro ⟨-, hle⟩
    refine ⟨fun c hc => ?_, ?_⟩
    · rw [hsame, hcalls, List.getLast?_concat, Option.mem_some_iff] at hc
      rw [← hc, hafter]
    · rw [hsame, hafter, ← hnow]
      exact hle
  have hiff : Disciplined (watchLink w input).2 ↔ StartsAfresh w input := by
    unfold Disciplined StartsAfresh
    rw [lastAll_iff, hresent, hcounted, hstreak, ← hon]
    by_cases hcount : (input.2 == 0) = (watchLink w input).2.on
    · rw [if_pos hcount, if_pos hcount]
      by_cases hflip : (watchLink w input).2.on = w.driver.toggle.enabled
      · have hle := h.counted
        rw [← hflip] at hle
        refine iff_of_true ⟨fun hfull => ?_, ?_⟩ (fun hne => absurd hflip hne)
        · omega
        · split <;> omega
      · rw [hbefore hflip]
        simp only [hcount, hflip, ne_eq, not_true_eq_false, not_false_eq_true, or_false,
          true_implies, true_and]
        split <;> omega
    · rw [if_neg hcount, if_neg hcount]
      exact iff_of_true ⟨fun hfull => absurd hfull.1 hcount, Nat.le_refl 0⟩ (fun _ => Or.inr hcount)
  exact ⟨hiff, fun hafresh => htied (hiff.mpr hafresh)⟩

/-! ### Runs -/

/-- The watched driver after power-on. -/
def powerOn (r : Readings) : Watched :=
  { driver := (bluetoothInit r reset).1, calls := [] }

theorem powerOn_tied (r : Readings) : Tied (powerOn r) := by
  refine ⟨fun c hc => absurd hc (by simp [powerOn]), ?_⟩
  unfold counter powerOn
  split <;> exact Nat.zero_le _

/-- From power-on, every frame the watchdog sends again comes after two hundred calls of
    the period, and no call of an earlier one is counted, exactly when no period begins
    with a counter that goes on. -/
theorem rekick_disciplined_iff (r : Readings) (calls : List (Readings × Byte)) :
    (∀ seen ∈ trace watchLink (powerOn r) calls, Disciplined seen) ↔
      Along (next watchLink) StartsAfresh (powerOn r) calls :=
  forall_trace_iff_along watchLink StartsAfresh Tied Disciplined
    (fun w input h hC => (disciplined_iff_startsAfresh w input h).2 hC)
    (fun w input h => (disciplined_iff_startsAfresh w input h).1) calls (powerOn r)
    (powerOn_tied r)

def toggleAt (on : Bool) : Readings :=
  { charging := false, toggle := !on, slotHi := true, slotLo := true }

def offOnOff : List (Readings × Byte) :=
  List.replicate 150 (toggleAt false, 0x03) ++ List.replicate 18 (toggleAt true, 0x03) ++
    List.replicate 50 (toggleAt false, 0x03)

/-- A frame is sent again before the new period is two hundred calls old. -/
theorem off_on_off_rekicks :
    ¬ ∀ (r : Readings) (calls : List (Readings × Byte)),
      ∀ seen ∈ trace watchLink (powerOn r) calls,
        seen.resent ≠ [] → LastAll (counts seen.on) 200 seen.calls := by
  intro h
  exact absurd (h (toggleAt false) offOnOff) (by decide +kernel)

end Rekick

end K530
