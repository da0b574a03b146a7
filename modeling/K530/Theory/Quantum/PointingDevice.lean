import K530.Quantum.MouseKey
import K530.Theory.Quantum.MouseKey

/-!
# The Buttons of a Pointing Device

A report should have the buttons that were last set through `pointing_device_set_report`, and
those of the mouse keys that are held. The task adds the second to a report that is kept for
the next task, and nothing takes them away again but another report that is set. So a report
has those of every mouse key that was held at a task since then.

That makes no difference if each of them is held again, or among those set, whenever something
is sent.

## Main definitions

* `PointingRun`, `PointingRun.step`: The device and the mouse keys, and what has happened.

## Theorems

* `pointing_buttons_iff`: When the law holds.
* `pointing_button_stuck`: A button is clicked once, and then the mouse moves.
-/

namespace K530

open StepRun

/-! ### The buttons of a task -/

namespace PointingReport

variable (b : PointingBuild) (r : PointingReport)

@[simp] theorem rotated_buttons : (r.rotated b).mouse.buttons = r.mouse.buttons := by
  unfold rotated
  cases b.rotation <;> rfl

@[simp] theorem inverted_buttons : (r.inverted b).mouse.buttons = r.mouse.buttons := rfl

@[simp] theorem hostMouseSend_mouse : (r.hostMouseSend b).mouse = r.mouse := by
  unfold hostMouseSend
  split <;> rfl

end PointingReport

namespace PointingDevice

variable (b : PointingBuild) (pin : Bool) (motion : PointingMotion) (mousekeys : MouseReport)
  (d : PointingDevice)

theorem gather_buttons :
    (d.gather b pin motion mousekeys).mouse.buttons =
      d.report.mouse.buttons ||| mousekeys.buttons := by
  unfold gather
  dsimp only
  rw [PointingReport.inverted_buttons, PointingReport.rotated_buttons]
  split
  · rfl
  · rfl

theorem task_buttons :
    (d.task b pin motion mousekeys).2.report.mouse.buttons =
      d.report.mouse.buttons ||| mousekeys.buttons := by
  rw [← d.gather_buttons b pin motion mousekeys]
  unfold task send
  dsimp only
  split
  · rw [PointingReport.hostMouseSend_mouse]
  · rfl

theorem task_sends (hchanged : (d.gather b pin motion mousekeys).changed b d.old) :
    ∃ sent, (d.task b pin motion mousekeys).1 = some sent ∧
      sent.mouse.buttons = d.report.mouse.buttons ||| mousekeys.buttons := by
  refine ⟨(d.gather b pin motion mousekeys).hostMouseSend b, ?_, ?_⟩
  · unfold task send
    dsimp only
    rw [if_pos hchanged, if_pos hchanged]
  · rw [PointingReport.hostMouseSend_mouse, gather_buttons]

theorem task_silent (hsame : ¬ (d.gather b pin motion mousekeys).changed b d.old) :
    (d.task b pin motion mousekeys).1 = none := by
  unfold task send
  exact if_neg hsame

end PointingDevice

/-! ### Runs -/

/-- A mouse-button key is pressed or released, a report is set, or the task runs. -/
inductive PointingEvent where
  | on (n : Fin 8)
  | off (n : Fin 8)
  | setReport (r : PointingReport)
  | task (pin : Bool) (motion : PointingMotion)

/-- The variables of both sides, and what has happened. -/
structure PointingRun where
  keys : MouseKeys
  device : PointingDevice
  /-- what the last event has sent -/
  sent : Option PointingReport
  /-- the mouse-button keys that are held -/
  held : Fin 8 → Bool
  /-- the buttons of the last report that was set -/
  set : Byte
  /-- the mouse-button keys that have been held at a task since then -/
  seen : Fin 8 → Bool

namespace PointingRun

variable (m : MouseBuild) (b : PointingBuild)

/-- Power-up. -/
def init : PointingRun where
  keys := (MouseRun.init m).state
  device := .init
  sent := none
  held _ := false
  set := 0
  seen _ := false

def step (r : PointingRun) (e : PointingEvent) : PointingRun :=
  match e with
  | .on n =>
    { r with
      keys := m.on (.btn n) r.keys, sent := none, held := Function.update r.held n true }
  | .off n =>
    { r with
      keys := m.off (.btn n) r.keys, sent := none, held := Function.update r.held n false }
  | .setReport new =>
    { r with
      device := r.device.setReport new, sent := none, set := new.mouse.buttons,
      seen := fun _ => false }
  | .task pin motion =>
    let out := r.device.task b pin motion r.keys.report
    { r with device := out.2, sent := out.1, seen := fun n => r.seen n || r.held n }

/-- What is sent has the buttons that were set and those that are held, and no others. -/
def Exact (r : PointingRun) : Prop :=
  ∀ sent, r.sent = some sent →
    ∀ n : Fin 8, sent.mouse.buttons.getLsbD n.val = (r.set.getLsbD n.val || r.held n)

/-- The task is going to send something: it has another report than before. -/
def Sends (pin : Bool) (motion : PointingMotion) (r : PointingRun) : Prop :=
  (r.device.gather b pin motion r.keys.report).changed b r.device.old

/-- If it does, each key that has been held at a task since a report was set is held, or its
    button is among those set. -/
def Fresh (r : PointingRun) (e : PointingEvent) : Prop :=
  match e with
  | .task pin motion =>
    r.Sends b pin motion →
      ∀ n, r.seen n = true → r.held n = true ∨ r.set.getLsbD n.val = true
  | _ => True

structure Merged (r : PointingRun) : Prop where
  keys : ∀ n : Fin 8, r.keys.report.buttons.getLsbD n.val = r.held n
  device : ∀ n : Fin 8,
    r.device.report.mouse.buttons.getLsbD n.val = (r.set.getLsbD n.val || r.seen n)

variable {m b} {r : PointingRun}

theorem init_merged : (init m).Merged where
  keys _ := BitVec.getLsbD_zero
  device n := by
    have hzero : (0 : Byte).getLsbD n.val = false := BitVec.getLsbD_zero
    show (0 : Byte).getLsbD n.val = ((0 : Byte).getLsbD n.val || false)
    rw [hzero, Bool.or_false]

theorem Merged.task_getLsbD (h : r.Merged) (n : Fin 8) :
    (r.device.report.mouse.buttons ||| r.keys.report.buttons).getLsbD n.val =
      (r.set.getLsbD n.val || (r.seen n || r.held n)) := by
  rw [BitVec.getLsbD_or, h.device n, h.keys n, Bool.or_assoc]

theorem Merged.step (h : r.Merged) (e : PointingEvent) : (r.step m b e).Merged := by
  cases e with
  | on n =>
    refine ⟨fun k => ?_, h.device⟩
    show (m.on (.btn n) r.keys).report.buttons.getLsbD k.val =
      Function.update r.held n true k
    rw [m.on_buttons, BitVec.getLsbD_or, h.keys k, MouseKey.mask_getLsbD,
      Function.update_apply]
    by_cases hsame : k = n
    · simp [hsame]
    · simp [hsame]
  | off n =>
    refine ⟨fun k => ?_, h.device⟩
    show (m.off (.btn n) r.keys).report.buttons.getLsbD k.val =
      Function.update r.held n false k
    rw [m.off_buttons, BitVec.getLsbD_and, BitVec.getLsbD_not, h.keys k,
      MouseKey.mask_getLsbD, Function.update_apply]
    by_cases hsame : k = n
    · simp [hsame]
    · simp [hsame]
  | setReport new => exact ⟨h.keys, fun n => (Bool.or_false _).symm⟩
  | task pin motion =>
    refine ⟨h.keys, fun n => ?_⟩
    exact (congrArg (fun buttons : Byte => buttons.getLsbD n.val)
      (r.device.task_buttons b pin motion r.keys.report)).trans (h.task_getLsbD n)

theorem Merged.exact_iff (h : r.Merged) (e : PointingEvent) :
    (r.step m b e).Exact ↔ r.Fresh b e := by
  have hnone : ∀ r' : PointingRun, r'.sent = none → r'.Exact :=
    fun r' hsilent sent hsent => absurd (hsilent.symm.trans hsent) (Option.some_ne_none _).symm
  cases e with
  | on n => exact iff_of_true (hnone _ rfl) trivial
  | off n => exact iff_of_true (hnone _ rfl) trivial
  | setReport new => exact iff_of_true (hnone _ rfl) trivial
  | task pin motion =>
    by_cases hsends : r.Sends b pin motion
    · obtain ⟨sent, hsent, hbuttons⟩ :=
        r.device.task_sends b pin motion r.keys.report hsends
      have hbit (n : Fin 8) : sent.mouse.buttons.getLsbD n.val =
          (r.set.getLsbD n.val || (r.seen n || r.held n)) := by
        rw [hbuttons, h.task_getLsbD n]
      constructor
      · intro hexact _ n hseen
        have hn := (hbit n).symm.trans (hexact sent hsent n)
        rw [hseen, Bool.true_or, Bool.or_true] at hn
        exact (Bool.or_eq_true_iff.mp hn.symm).symm
      · intro hfresh sent' hsent' n
        rw [← Option.some.inj (hsent.symm.trans hsent'), hbit n]
        show (r.set.getLsbD n.val || (r.seen n || r.held n)) =
          (r.set.getLsbD n.val || r.held n)
        cases hseen : r.seen n with
        | false => rw [Bool.false_or]
        | true =>
          -- its key is held, or the button was set
          rcases hfresh hsends n hseen with hheld | hset
          · rw [hheld, Bool.or_true]
          · rw [hset, Bool.true_or, Bool.true_or]
    · exact iff_of_true (hnone _ (r.device.task_silent b pin motion r.keys.report hsends))
        (fun hsends' => absurd hsends' hsends)

end PointingRun

/-- Every report the task sends has the buttons that were last set and those of the mouse keys
    that are held, exactly if whenever it sends one no mouse key has been released that was held
    at a task since a report was set. -/
theorem pointing_buttons_iff (m : MouseBuild) (b : PointingBuild)
    (events : List PointingEvent) :
    Always (PointingRun.step m b) PointingRun.Exact (PointingRun.init m) events ↔
      Along (PointingRun.step m b) (PointingRun.Fresh b) (PointingRun.init m) events :=
  always_iff_along (PointingRun.step m b) (PointingRun.Fresh b)
    (fun r => r.Merged ∧ r.Exact) PointingRun.Exact (fun _ h => h.2)
    (fun _ e h hfresh => ⟨h.1.step e, (h.1.exact_iff e).mpr hfresh⟩)
    (fun _ e h hstale hexact => hstale ((h.1.exact_iff e).mp hexact))
    events (PointingRun.init m)
    ⟨PointingRun.init_merged, fun _ hsent => absurd hsent (Option.some_ne_none _).symm⟩

/-- The left button is clicked with a mouse key, and then the mouse is moved: the button is
    down again, and stays so. -/
theorem pointing_button_stuck :
    ¬ Always
      (PointingRun.step (.threeSpeed MouseSpeeds.defaults)
        { sharedEp := false, motionPin := false, rotation := .none, invertX := false,
          invertY := false })
      PointingRun.Exact (PointingRun.init (.threeSpeed MouseSpeeds.defaults))
      [.on 0, .task false ⟨0, 0, 0, 0⟩, .off 0, .task false ⟨1, 0, 0, 0⟩] := by
  intro hall
  have hlast := (always_iff_visited _ _ _ _).mp hall _ [] (List.append_nil _).symm
  have hstuck := hlast ⟨0, { buttons := 1, x := 1, y := 0, v := 0, h := 0 }⟩ (by decide) 0
  revert hstuck
  decide

end K530
