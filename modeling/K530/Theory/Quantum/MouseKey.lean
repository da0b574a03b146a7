import K530.Lib.Run
import K530.Quantum.MouseKey

/-!
# The Direction of the Mouse

Each axis of the report should have the sign of the last key of the axis that was pressed,
if that is held still, and be zero if it is not. A press gives it the sign of its key, and
a release takes that away if it finds it: two keys of one axis differ in their sign, so it
finds its own.

What is left is what changes the axes without a key of theirs. In the accelerated mode
nothing does. With three speeds a change of speed does: a diagonal of the cursor is kept
from zero, and one of the wheel is not. With an offset of 1 the wheel stops with its
keys held.

## Main definitions

* `MouseAxis`: The axes.

## Theorems

* `mouse_direction_iff`: When the law holds.
* `mouse_direction_lost`: The wheel is held diagonally, and another speed chosen.
-/

namespace K530

open StepRun

inductive MouseAxis where
  | x
  | y
  | v
  | h
deriving DecidableEq

def MouseReport.axis (r : MouseReport) (a : MouseAxis) : Int :=
  match a with
  | .x => r.x
  | .y => r.y
  | .v => r.v
  | .h => r.h

namespace MouseKey

/-- The axis a key moves along. -/
def axis? (k : MouseKey) : Option MouseAxis :=
  match k with
  | .up | .down => some .y
  | .left | .right => some .x
  | .whUp | .whDown => some .v
  | .whLeft | .whRight => some .h
  | _ => none

/-- The way it moves. -/
def sign (k : MouseKey) : Int :=
  match k with
  | .down | .right | .whUp | .whRight => 1
  | .up | .left | .whDown | .whLeft => -1
  | _ => 0

def mask (k : MouseKey) : Byte :=
  match k with
  | .btn n => (1 : Byte) <<< n.val
  | _ => 0

end MouseKey

/-- The mode, with its configuration. -/
inductive MouseBuild where
  | accelerated (c : MouseAccel)
  | threeSpeed (c : MouseSpeeds)

namespace MouseBuild

variable (b : MouseBuild)

/-- `mousekey_on` -/
def on (k : MouseKey) (s : MouseKeys) : MouseKeys :=
  match b with
  | .accelerated c => c.on k s
  | .threeSpeed c => c.on k s

/-- `mousekey_off` -/
def off (k : MouseKey) (s : MouseKeys) : MouseKeys :=
  match b with
  | .accelerated _ => MouseAccel.off k s
  | .threeSpeed c => c.off k s

/-- `mousekey_task` -/
def task (now : BitVec 16) (s : MouseKeys) : Option MouseReport × MouseKeys :=
  match b with
  | .accelerated c => c.task now s
  | .threeSpeed c => c.task now s

/-- The speed at power-up. -/
def start : MouseSpeed :=
  match b with
  | .accelerated _ => .unmod
  | .threeSpeed c => c.start

end MouseBuild

inductive MouseEvent where
  | on (k : MouseKey)
  | off (k : MouseKey)
  | task (now : BitVec 16)

/-- The state, the keys that are held, and of each axis the key that was pressed last. -/
structure MouseRun where
  state : MouseKeys
  held : MouseKey → Bool
  last : MouseAxis → Option MouseKey

namespace MouseRun

variable (b : MouseBuild)

/-- Power-up. -/
def init : MouseRun where
  state :=
    { report := { buttons := 0, x := 0, y := 0, v := 0, h := 0 }, accel := 0, moveRepeat := 0,
      wheelRepeat := 0, lastTimerC := 0, lastTimerW := 0, speed := b.start }
  held _ := false
  last _ := none

def step (r : MouseRun) (e : MouseEvent) : MouseRun :=
  match e with
  | .on k =>
    { state := b.on k r.state
      held := fun j => if j = k then true else r.held j
      last := fun a => if k.axis? = some a then some k else r.last a }
  | .off k =>
    { state := b.off k r.state
      held := fun j => if j = k then false else r.held j
      last := r.last }
  | .task now => { r with state := (b.task now r.state).2 }

/-- The sign an axis should have. -/
def wanted (r : MouseRun) (a : MouseAxis) : Int :=
  match r.last a with
  | some k => if r.held k = true then k.sign else 0
  | none => 0

/-- The axes have the signs of the keys that were pressed last and are held, and the buttons
    are those that are held. -/
def Right (r : MouseRun) : Prop :=
  (∀ a, (r.state.report.axis a).sign = r.wanted a) ∧
    ∀ n : Fin 8, r.state.report.buttons.getLsbD n.val = r.held (.btn n)

def Tracked (r : MouseRun) : Prop :=
  ∀ a k, r.last a = some k → k.axis? = some a

/-- A press of a key moves at all: `MOUSEKEY_MOVE_MAX` and `MOUSEKEY_WHEEL_MAX` allow it. -/
def Moves (c : MouseAccel) (k : MouseKey) (s : MouseKeys) : Prop :=
  match k.axis? with
  | some .x | some .y => c.moveMax ≠ 0 ∨ c.rawMoveUnit s = 0
  | some .v | some .h => c.wheelMax ≠ 0 ∨ c.rawWheelUnit s = 0
  | none => True

/-- A change to a speed does not stop the wheel: it is not on a diagonal, not both ways
    negative, with an offset of 1. -/
def Turns (c : MouseSpeeds) (new : MouseSpeed) (s : MouseKeys) : Prop :=
  new ≠ s.speed → (c.wOffset new).val = 1 → s.report.v ≠ 0 → s.report.h ≠ 0 →
    s.report.v < 0 ∧ s.report.h < 0

/-- What keeps the law. -/
def Kept (r : MouseRun) (e : MouseEvent) : Prop :=
  match b, e with
  | .accelerated c, .on k => Moves c k r.state
  | .threeSpeed c, .on k => Turns c (MouseSpeeds.speedOn k r.state) r.state
  | .threeSpeed c, .off k => Turns c (c.speedOff k r.state) r.state
  | _, _ => True

end MouseRun

/-! ### The axes -/

theorem int8_of_small {z : Int} (hlo : -128 ≤ z) (hhi : z ≤ 127) : int8 z = z :=
  Int.bmod_eq_of_le hlo (by omega)

def MouseAxis.unit (move wheel : Nat) (a : MouseAxis) : Nat :=
  match a with
  | .x | .y => move
  | .v | .h => wheel

namespace MouseKeys

variable (s : MouseKeys)

theorem press_axis (move wheel : Nat) (hmove : move ≤ 127) (hwheel : wheel ≤ 127) (k : MouseKey)
    (a : MouseAxis) :
    (s.press move wheel k).axis a =
      if k.axis? = some a then k.sign * a.unit move wheel else s.report.axis a := by
  have hmove : int8 move = move ∧ int8 (-move) = -move :=
    ⟨int8_of_small (by omega) (by omega), int8_of_small (by omega) (by omega)⟩
  have hwheel : int8 wheel = wheel ∧ int8 (-wheel) = -wheel :=
    ⟨int8_of_small (by omega) (by omega), int8_of_small (by omega) (by omega)⟩
  cases k <;> cases a <;>
    simp [press, MouseReport.axis, MouseKey.axis?, MouseKey.sign, MouseAxis.unit, hmove, hwheel]

theorem release_axis (k : MouseKey) (a : MouseAxis) :
    (s.release k).axis a =
      if k.axis? = some a ∧ (s.report.axis a).sign = k.sign then 0 else s.report.axis a := by
  cases k <;> cases a <;>
    simp only [release, MouseReport.axis, MouseKey.axis?, MouseKey.sign, Int.sign_eq_one_iff_pos,
      Int.sign_eq_neg_one_iff_neg, gt_iff_lt, reduceCtorEq, false_and, if_false, true_and,
      Option.some.injEq] <;> split <;> rfl

theorem press_buttons (move wheel : Nat) (k : MouseKey) :
    (s.press move wheel k).buttons = s.report.buttons ||| k.mask := by
  cases k <;> simp [press, MouseKey.mask]

theorem release_buttons (k : MouseKey) :
    (s.release k).buttons = s.report.buttons &&& ~~~k.mask := by
  have hall : ∀ m : Byte, m &&& ~~~(0 : Byte) = m := fun m => BitVec.and_allOnes
  cases k with
  | btn n => rfl
  | accel0 | accel1 | accel2 => exact (hall s.report.buttons).symm
  | _ =>
    unfold release MouseKey.mask
    dsimp only
    rw [hall]
    split <;> rfl

theorem finish_report (now : BitVec 16) (tmpmr : MouseReport) :
    (s.finish now tmpmr).2.report = tmpmr := by
  unfold finish
  dsimp only
  split <;> rfl

end MouseKeys

/-! ### A change of speed -/

namespace MouseSpeeds

variable (c : MouseSpeeds) (s : MouseKeys)

theorem rescaled_eq (offset : Nat) (hoffset : offset ≤ 127) (z : Int) :
    rescaled offset z = z.sign * offset := by
  unfold rescaled
  rcases lt_trichotomy z 0 with hneg | rfl | hpos
  · rw [if_neg (by omega), if_pos hneg, int8_of_small (by omega) (by omega),
      Int.sign_eq_neg_one_of_neg hneg]
    omega
  · rw [if_neg (by omega), if_neg (by omega), Int.sign_zero, zero_mul]
  · rw [if_pos hpos, int8_of_small (by omega) (by omega), Int.sign_eq_one_of_pos hpos]
    omega

theorem diagonalPart_sign (z : Int) (hlo : -127 ≤ z) (hhi : z ≤ 127) (hz : z ≠ 0) :
    (diagonalPart z).sign = z.sign := by
  have hpart : timesInvSqrt2 z = z * 181 / 256 := int8_of_small (by omega) (by omega)
  unfold diagonalPart
  rw [hpart]
  rcases Int.lt_or_gt_of_ne hz with hneg | hpos
  · rw [if_neg (by omega), Int.sign_eq_neg_one_of_neg hneg, Int.sign_eq_neg_one_of_neg (by omega)]
  · rw [Int.sign_eq_one_of_pos hpos]
    split
    · rfl
    · exact Int.sign_eq_one_of_pos (by omega)

theorem timesInvSqrt2_sign (z : Int) (hlo : -127 ≤ z) (hhi : z ≤ 127) (hz : z ≠ 0) :
    (timesInvSqrt2 z).sign = z.sign ↔ z ≠ 1 := by
  have hpart : timesInvSqrt2 z = z * 181 / 256 := int8_of_small (by omega) (by omega)
  rw [hpart]
  rcases Int.lt_or_gt_of_ne hz with hneg | hpos
  · rw [Int.sign_eq_neg_one_of_neg hneg, Int.sign_eq_neg_one_of_neg (by omega)]
    exact iff_of_true rfl (by omega)
  · rw [Int.sign_eq_one_of_pos hpos, Int.sign_eq_one_iff_pos]
    omega

theorem diagonal_sign (x y : Int) (hx : -127 ≤ x ∧ x ≤ 127) (hy : -127 ≤ y ∧ y ≤ 127) :
    (diagonal x y).1.sign = x.sign ∧ (diagonal x y).2.sign = y.sign := by
  unfold diagonal
  split
  · rename_i hboth
    exact ⟨diagonalPart_sign x hx.1 hx.2 hboth.1, diagonalPart_sign y hy.1 hy.2 hboth.2⟩
  · exact ⟨rfl, rfl⟩

theorem rescaled_sign (offset : MouseDelta) (z : Int) :
    (rescaled offset.val z).sign = z.sign ∧
      -127 ≤ rescaled offset.val z ∧ rescaled offset.val z ≤ 127 := by
  have hlo := offset.property.1
  have hhi := offset.property.2
  rw [rescaled_eq offset.val hhi]
  rcases lt_trichotomy z 0 with hneg | rfl | hpos
  · rw [Int.sign_eq_neg_one_of_neg hneg]
    exact ⟨Int.sign_eq_neg_one_of_neg (by omega), by omega, by omega⟩
  · rw [Int.sign_zero, zero_mul]
    exact ⟨rfl, by omega, by omega⟩
  · rw [Int.sign_eq_one_of_pos hpos]
    exact ⟨Int.sign_eq_one_of_pos (by omega), by omega, by omega⟩

theorem adjustSpeed_move_sign :
    (c.adjustSpeed s).report.x.sign = s.report.x.sign ∧
      (c.adjustSpeed s).report.y.sign = s.report.y.sign := by
  obtain ⟨hx, hxb⟩ := rescaled_sign (c.cOffset s.speed) s.report.x
  obtain ⟨hy, hyb⟩ := rescaled_sign (c.cOffset s.speed) s.report.y
  obtain ⟨hdx, hdy⟩ := diagonal_sign _ _ hxb hyb
  exact ⟨hdx.trans hx, hdy.trans hy⟩

theorem adjustSpeed_wheel_sign :
    ((c.adjustSpeed s).report.h.sign = s.report.h.sign ∧
      (c.adjustSpeed s).report.v.sign = s.report.v.sign) ↔
      ((c.wOffset s.speed).val = 1 → s.report.v ≠ 0 → s.report.h ≠ 0 →
        s.report.v < 0 ∧ s.report.h < 0) := by
  obtain ⟨hh, hhb⟩ := rescaled_sign (c.wOffset s.speed) s.report.h
  obtain ⟨hv, hvb⟩ := rescaled_sign (c.wOffset s.speed) s.report.v
  have hzero : ∀ z, rescaled (c.wOffset s.speed).val z ≠ 0 ↔ z ≠ 0 := by
    intro z
    rw [ne_eq, ← Int.sign_eq_zero_iff_zero, (rescaled_sign (c.wOffset s.speed) z).1,
      Int.sign_eq_zero_iff_zero]
  unfold adjustSpeed
  dsimp only
  by_cases hboth : s.report.h ≠ 0 ∧ s.report.v ≠ 0
  swap
  · -- no diagonal
    rw [if_neg (by rw [hzero, hzero]; exact hboth), if_neg (by rw [hzero, hzero]; exact hboth)]
    exact iff_of_true ⟨hh, hv⟩ (fun _ hv' hh' => absurd ⟨hh', hv'⟩ hboth)
  have hboth' := hboth
  rw [← hzero, ← hzero s.report.v] at hboth'
  rw [if_pos hboth', if_pos hboth', ← hh, ← hv,
    timesInvSqrt2_sign _ hhb.1 hhb.2 hboth'.1, timesInvSqrt2_sign _ hvb.1 hvb.2 hboth'.2]
  -- a part is 1 exactly if the offset is, and the part is positive
  have hone : ∀ z : Int, z ≠ 0 → (rescaled (c.wOffset s.speed).val z ≠ 1 ↔
      ((c.wOffset s.speed).val = 1 → z < 0)) := by
    intro z hz
    have hlo := (c.wOffset s.speed).property.1
    rw [rescaled_eq _ (c.wOffset s.speed).property.2]
    rcases Int.lt_or_gt_of_ne hz with hneg | hpos
    · rw [Int.sign_eq_neg_one_of_neg hneg]
      omega
    · rw [Int.sign_eq_one_of_pos hpos]
      omega
  rw [hone _ hboth.1, hone _ hboth.2]
  tauto

theorem setSpeed_sign (new : MouseSpeed) :
    (∀ a, ((c.setSpeed new s).report.axis a).sign = (s.report.axis a).sign) ↔
      MouseRun.Turns c new s := by
  unfold setSpeed MouseRun.Turns
  by_cases hnew : new = s.speed
  · rw [if_neg (not_not_intro hnew)]
    exact iff_of_true (fun _ => rfl) (fun hother => absurd hnew hother)
  rw [if_pos hnew, imp_iff_right hnew]
  have hmove := c.adjustSpeed_move_sign { s with speed := new }
  rw [← c.adjustSpeed_wheel_sign { s with speed := new }]
  constructor
  · exact fun h => ⟨h .h, h .v⟩
  · intro h a
    cases a with
    | x => exact hmove.1
    | y => exact hmove.2
    | v => exact h.2
    | h => exact h.1

theorem setSpeed_buttons (new : MouseSpeed) :
    (c.setSpeed new s).report.buttons = s.report.buttons := by
  unfold setSpeed
  split <;> rfl

end MouseSpeeds

/-! ### The keys -/

namespace MouseKey

theorem sign_ne_zero {k : MouseKey} {a : MouseAxis} (h : k.axis? = some a) : k.sign ≠ 0 := by
  cases k <;> simp_all [axis?, sign]

theorem sign_sign (k : MouseKey) : k.sign.sign = k.sign := by
  cases k <;> rfl

theorem mask_getLsbD (k : MouseKey) (n : Fin 8) :
    k.mask.getLsbD n.val = decide (MouseKey.btn n = k) := by
  cases k with
  | btn m =>
    have hbit : (MouseKey.btn m).mask.getLsbD n.val = decide (m.val = n.val) :=
      BitTable.one_shiftLeft_getLsbD m.val n.val m.isLt
    rw [hbit]
    by_cases hsame : n = m
    · simp [hsame]
    · simp [hsame, Ne.symm (Fin.val_ne_of_ne hsame)]
  | _ => simp [mask]

theorem eq_of_sign {j k : MouseKey} (haxis : j.axis? = k.axis?) (hsign : j.sign = k.sign)
    (hmoves : j.axis? ≠ none) : j = k := by
  cases j <;> cases k <;> simp_all [axis?, sign]

theorem sign_mul {k : MouseKey} {a : MouseAxis} (h : k.axis? = some a) (unit : Nat) :
    (k.sign * unit).sign = k.sign ↔ unit ≠ 0 := by
  rw [Int.sign_mul, sign_sign]
  constructor
  · rintro hsign rfl
    rw [Int.ofNat_zero, Int.sign_zero, mul_zero] at hsign
    exact sign_ne_zero h hsign.symm
  · intro hunit
    rw [Int.sign_eq_one_of_pos (by omega), mul_one]

end MouseKey

namespace MouseBuild

variable (b : MouseBuild)

theorem on_buttons (k : MouseKey) (s : MouseKeys) :
    (b.on k s).report.buttons = s.report.buttons ||| k.mask := by
  cases b with
  | accelerated c => exact s.press_buttons _ _ k
  | threeSpeed c => exact (c.setSpeed_buttons _ _).trans (s.press_buttons _ _ k)

theorem off_buttons (k : MouseKey) (s : MouseKeys) :
    (b.off k s).report.buttons = s.report.buttons &&& ~~~k.mask := by
  cases b with
  | accelerated c => exact s.release_buttons k
  | threeSpeed c => exact (c.setSpeed_buttons _ _).trans (s.release_buttons k)

theorem task_report (now : BitVec 16) (s : MouseKeys) : (b.task now s).2.report = s.report := by
  cases b <;> exact MouseKeys.finish_report _ _ _

end MouseBuild

namespace MouseRun

variable {b : MouseBuild} {r : MouseRun}

theorem wanted_none {a : MouseAxis} (h : r.last a = none) : r.wanted a = 0 := by
  unfold wanted
  rw [h]

theorem wanted_some {a : MouseAxis} {j : MouseKey} (h : r.last a = some j) :
    r.wanted a = if r.held j = true then j.sign else 0 := by
  unfold wanted
  rw [h]

theorem wanted_on (hright : r.Right) (htracked : r.Tracked) (k : MouseKey) (a : MouseAxis) :
    (r.step b (.on k)).wanted a =
      if k.axis? = some a then k.sign else (r.state.report.axis a).sign := by
  have hheld : (r.step b (.on k)).held k := if_pos rfl
  by_cases haxis : k.axis? = some a
  · have hlast : (r.step b (.on k)).last a = some k := if_pos haxis
    rw [if_pos haxis, wanted_some hlast, hheld, if_pos rfl]
  have hlast : (r.step b (.on k)).last a = r.last a := if_neg haxis
  rw [if_neg haxis, hright.1 a]
  cases hold : r.last a with
  | none => rw [wanted_none hold, wanted_none (hlast.trans hold)]
  | some j =>
    have hother : j ≠ k := by
      rintro rfl
      exact haxis (htracked a j hold)
    have hsame : (r.step b (.on k)).held j = r.held j := if_neg hother
    rw [wanted_some hold, wanted_some (hlast.trans hold), hsame]

theorem wanted_off (hright : r.Right) (htracked : r.Tracked) (k : MouseKey) (a : MouseAxis) :
    (r.step b (.off k)).wanted a =
      if k.axis? = some a ∧ (r.state.report.axis a).sign = k.sign then 0
      else (r.state.report.axis a).sign := by
  have hheld : (r.step b (.off k)).held k = false := if_pos rfl
  have hlast : (r.step b (.off k)).last a = r.last a := rfl
  rw [hright.1 a]
  cases hold : r.last a with
  | none =>
    rw [wanted_none hold, wanted_none (hlast.trans hold)]
    exact (ite_self 0).symm
  | some j =>
    have hj := htracked a j hold
    rw [wanted_some hold, wanted_some (hlast.trans hold)]
    by_cases hkey : j = k
    · -- it is the key of the axis, held or not
      subst hkey
      rw [hheld, if_neg Bool.false_ne_true]
      cases r.held j with
      | true => exact (if_pos ⟨hj, rfl⟩).symm
      | false => exact (ite_self 0).symm
    · have hsame : (r.step b (.off k)).held j = r.held j := if_neg hkey
      rw [hsame]
      cases r.held j with
      | true =>
        -- another key has the sign
        refine (if_neg ?_).symm
        rintro ⟨hk, hsign⟩
        exact hkey (MouseKey.eq_of_sign (hj.trans hk.symm) hsign (by simp [hj]))
      | false => exact (ite_self 0).symm

theorem buttons_on (hright : r.Right) (k : MouseKey) (n : Fin 8) :
    (r.state.report.buttons ||| k.mask).getLsbD n.val = (r.step b (.on k)).held (.btn n) := by
  have hheld : (r.step b (.on k)).held (.btn n) =
      if MouseKey.btn n = k then true else r.held (.btn n) := rfl
  rw [BitVec.getLsbD_or, hright.2 n, k.mask_getLsbD, hheld]
  by_cases hsame : MouseKey.btn n = k
  · simp [hsame]
  · simp [hsame]

theorem buttons_off (hright : r.Right) (k : MouseKey) (n : Fin 8) :
    (r.state.report.buttons &&& ~~~k.mask).getLsbD n.val =
      (r.step b (.off k)).held (.btn n) := by
  have hheld : (r.step b (.off k)).held (.btn n) =
      if MouseKey.btn n = k then false else r.held (.btn n) := rfl
  rw [BitVec.getLsbD_and, BitVec.getLsbD_not, hright.2 n, k.mask_getLsbD, hheld]
  by_cases hsame : MouseKey.btn n = k
  · simp [hsame]
  · simp [hsame]

theorem right_on_iff (hright : r.Right) (htracked : r.Tracked) (k : MouseKey) :
    (r.step b (.on k)).Right ↔ ∀ a, ((b.on k r.state).report.axis a).sign =
      if k.axis? = some a then k.sign else (r.state.report.axis a).sign := by
  have hheld : ∀ n : Fin 8, (r.step b (.on k)).state.report.buttons.getLsbD n.val =
      (r.step b (.on k)).held (.btn n) := fun n => by
    rw [← buttons_on hright k n, ← b.on_buttons k r.state]
    rfl
  unfold Right
  simp only [wanted_on hright htracked]
  exact and_iff_left hheld

theorem right_off_iff (hright : r.Right) (htracked : r.Tracked) (k : MouseKey) :
    (r.step b (.off k)).Right ↔ ∀ a, ((b.off k r.state).report.axis a).sign =
      if k.axis? = some a ∧ (r.state.report.axis a).sign = k.sign then 0
      else (r.state.report.axis a).sign := by
  have hheld : ∀ n : Fin 8, (r.step b (.off k)).state.report.buttons.getLsbD n.val =
      (r.step b (.off k)).held (.btn n) := fun n => by
    rw [← buttons_off hright k n, ← b.off_buttons k r.state]
    rfl
  unfold Right
  simp only [wanted_off hright htracked]
  exact and_iff_left hheld

theorem tracked_step (htracked : r.Tracked) (e : MouseEvent) : (r.step b e).Tracked := by
  intro a j hlast
  cases e with
  | on k =>
    change (if k.axis? = some a then some k else r.last a) = some j at hlast
    split at hlast
    · rename_i haxis
      cases hlast
      exact haxis
    · exact htracked a j hlast
  | off k => exact htracked a j hlast
  | task now => exact htracked a j hlast

end MouseRun

/-! ### The modes -/

namespace MouseAccel

variable (c : MouseAccel) (s : MouseKeys)

theorem limited_le (max unit : Nat) (hmax : max ≤ 127) : limited max unit ≤ 127 := by
  unfold limited
  split
  · exact hmax
  · split <;> omega

theorem limited_ne_zero_iff (max unit : Nat) : limited max unit ≠ 0 ↔ max ≠ 0 ∨ unit = 0 := by
  unfold limited
  split
  · omega
  · split <;> omega

theorem on_sign (k : MouseKey) :
    (∀ a, ((c.on k s).report.axis a).sign =
      if k.axis? = some a then k.sign else (s.report.axis a).sign) ↔ MouseRun.Moves c k s := by
  have haxis : ∀ a, (c.on k s).report.axis a =
      if k.axis? = some a then k.sign * a.unit (c.moveUnit s) (c.wheelUnit s)
      else s.report.axis a :=
    s.press_axis _ _ (limited_le _ _ c.moveMax_le) (limited_le _ _ c.wheelMax_le) k
  have hmove := limited_ne_zero_iff c.moveMax (c.rawMoveUnit s)
  have hwheel := limited_ne_zero_iff c.wheelMax (c.rawWheelUnit s)
  have hmoves : MouseRun.Moves c k s ↔ ∀ a, k.axis? = some a →
      a.unit (c.moveUnit s) (c.wheelUnit s) ≠ 0 := by
    unfold MouseRun.Moves
    cases k.axis? with
    | none => exact iff_of_true trivial (fun a h => by cases h)
    | some a =>
      simp only [Option.some.injEq, forall_eq']
      cases a with
      | x | y => exact hmove.symm
      | v | h => exact hwheel.symm
  rw [hmoves]
  refine forall_congr' (fun a => ?_)
  rw [haxis a]
  by_cases hk : k.axis? = some a
  · rw [if_pos hk, if_pos hk, MouseKey.sign_mul hk, imp_iff_right hk]
  · rw [if_neg hk, if_neg hk]
    exact iff_of_true rfl (fun h => absurd h hk)

theorem off_sign (k : MouseKey) (a : MouseAxis) :
    ((off k s).report.axis a).sign =
      if k.axis? = some a ∧ (s.report.axis a).sign = k.sign then 0
      else (s.report.axis a).sign := by
  have haxis : (off k s).report.axis a = _ := s.release_axis k a
  rw [haxis, apply_ite Int.sign, Int.sign_zero]

end MouseAccel

namespace MouseSpeeds

variable (c : MouseSpeeds) (s : MouseKeys)

theorem on_sign (k : MouseKey) :
    (∀ a, ((c.on k s).report.axis a).sign =
      if k.axis? = some a then k.sign else (s.report.axis a).sign) ↔
      MouseRun.Turns c (speedOn k s) s := by
  have hpress : ∀ a, ((s.press (c.cOffset s.speed).val (c.wOffset s.speed).val k).axis a).sign =
      if k.axis? = some a then k.sign else (s.report.axis a).sign := by
    intro a
    rw [s.press_axis _ _ (c.cOffset s.speed).property.2 (c.wOffset s.speed).property.2 k a]
    by_cases hk : k.axis? = some a
    · rw [if_pos hk, if_pos hk, MouseKey.sign_mul hk]
      have hmove := (c.cOffset s.speed).property.1
      have hwheel := (c.wOffset s.speed).property.1
      cases a <;> simp only [MouseAxis.unit] <;> omega
    · rw [if_neg hk, if_neg hk]
  have hset := c.setSpeed_sign
    { s with report := s.press (c.cOffset s.speed).val (c.wOffset s.speed).val k } (speedOn k s)
  simp only [hpress] at hset
  refine hset.trans (imp_congr_right (fun hnew => ?_))
  -- a key that chooses a speed leaves the report as it is
  have hreport : s.press (c.cOffset s.speed).val (c.wOffset s.speed).val k = s.report := by
    cases k with
    | accel0 | accel1 | accel2 => rfl
    | _ => exact absurd rfl hnew
  rw [hreport]

theorem off_sign (k : MouseKey) :
    (∀ a, ((c.off k s).report.axis a).sign =
      if k.axis? = some a ∧ (s.report.axis a).sign = k.sign then 0
      else (s.report.axis a).sign) ↔
      MouseRun.Turns c (c.speedOff k s) s := by
  have hrelease : ∀ a, ((s.release k).axis a).sign =
      if k.axis? = some a ∧ (s.report.axis a).sign = k.sign then 0
      else (s.report.axis a).sign := by
    intro a
    rw [s.release_axis k a, apply_ite Int.sign, Int.sign_zero]
  have hset := c.setSpeed_sign { s with report := s.release k } (c.speedOff k s)
  simp only [hrelease] at hset
  refine hset.trans (imp_congr_right (fun hnew => ?_))
  have hreport : s.release k = s.report := by
    cases k with
    | accel0 | accel1 | accel2 => rfl
    | _ => exact absurd rfl hnew
  rw [hreport]

end MouseSpeeds

namespace MouseRun

variable {b : MouseBuild} {r : MouseRun}

theorem right_step_iff (hright : r.Right) (htracked : r.Tracked) (e : MouseEvent) :
    (r.step b e).Right ↔ r.Kept b e := by
  cases e with
  | on k =>
    refine (right_on_iff hright htracked k).trans ?_
    cases b with
    | accelerated c => exact c.on_sign r.state k
    | threeSpeed c => exact c.on_sign r.state k
  | off k =>
    refine (right_off_iff hright htracked k).trans ?_
    cases b with
    | accelerated c => exact iff_of_true (MouseAccel.off_sign r.state k) trivial
    | threeSpeed c => exact c.off_sign r.state k
  | task now =>
    have hkept : r.Kept b (.task now) := by
      cases b <;> trivial
    have hreport : (r.step b (.task now)).state.report = r.state.report :=
      b.task_report now r.state
    refine iff_of_true ⟨fun a => ?_, fun n => ?_⟩ hkept
    · rw [hreport]
      exact hright.1 a
    · rw [hreport]
      exact hright.2 n

theorem right_init : (init b).Right := by
  refine ⟨fun a => ?_, fun n => BitVec.getLsbD_zero⟩
  cases a <;> rfl

end MouseRun

/-- After every call of a run the axes have the signs of the keys, exactly if every press moves
    at all, and no change of speed stops the wheel. -/
theorem mouse_direction_iff (b : MouseBuild) (events : List MouseEvent) :
    Always (MouseRun.step b) MouseRun.Right (MouseRun.init b) events ↔
      Along (MouseRun.step b) (MouseRun.Kept b) (MouseRun.init b) events :=
  always_iff_along (MouseRun.step b) (MouseRun.Kept b)
    (fun r => r.Right ∧ r.Tracked) MouseRun.Right (fun _ h => h.1)
    (fun _ e h hkept => ⟨(MouseRun.right_step_iff h.1 h.2 e).mpr hkept,
      MouseRun.tracked_step h.2 e⟩)
    (fun _ e h hkept hright => hkept ((MouseRun.right_step_iff h.1 h.2 e).mp hright))
    events (MouseRun.init b)
    ⟨MouseRun.right_init, fun _ _ h => by cases h⟩

/-! ### A diagonal of the wheel -/

namespace MouseSpeeds

/-- The offsets and intervals as they are without others. -/
def defaults : MouseSpeeds where
  cOffset speed :=
    match speed with
    | .unmod => ⟨16, Nat.le_of_ble_eq_true rfl, Nat.le_of_ble_eq_true rfl⟩
    | .speed0 => ⟨1, Nat.le_of_ble_eq_true rfl, Nat.le_of_ble_eq_true rfl⟩
    | .speed1 => ⟨4, Nat.le_of_ble_eq_true rfl, Nat.le_of_ble_eq_true rfl⟩
    | .speed2 => ⟨32, Nat.le_of_ble_eq_true rfl, Nat.le_of_ble_eq_true rfl⟩
  cInterval speed :=
    match speed with
    | .speed0 => 32
    | _ => 16
  wOffset _ := ⟨1, Nat.le_of_ble_eq_true rfl, Nat.le_of_ble_eq_true rfl⟩
  wInterval speed :=
    match speed with
    | .unmod => 40
    | .speed0 => 360
    | .speed1 => 120
    | .speed2 => 20
  momentaryAccel := false

end MouseSpeeds

/-- The wheel is held up and to the right, and another speed chosen: it stops. -/
theorem mouse_direction_lost :
    ¬ Always (MouseRun.step (.threeSpeed MouseSpeeds.defaults)) MouseRun.Right
      (MouseRun.init (.threeSpeed MouseSpeeds.defaults))
      [.on .whUp, .on .whRight, .on .accel2] := by
  intro hall
  have hlast := (always_iff_visited _ _ _ _).mp hall _ [] (List.append_nil _).symm
  have hstopped := hlast.1 .v
  revert hstopped
  decide

end K530
