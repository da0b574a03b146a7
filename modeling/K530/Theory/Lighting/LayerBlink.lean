import K530.Lib.Run
import K530.Lighting.LayerBlink

/-!
# How Blinking Ends

When no layer blinks any more all of them should be off, and the last that was asked to blink
should have been turned on as often as it was asked to, if nothing came in between.

A layer that blinks alone is turned off and on by turns, and off with the last change. Two
that blink at once share the changes: with every pass each of them takes one off the number
that are left. So the pass that ends it does so too soon, or leaves a layer on that it
does not come to, unless a single change is left and all but the first of them are off. And
twice the number of times is a number of eight bits: from 129 on it begins again.

## Main definitions

* `BlinkRun`: The variables, the last layer that was asked to blink, and how often it was
  turned on.

## Theorems

* `layer_blink_ends_iff`: When the law holds.
* `layer_blink_left_on`: A layer is asked to blink while another does.
-/

namespace K530

open StepRun

/-! ### The masks -/

namespace LayerBlink

variable {c : MaxLayers}

theorem count_le_bits (c : MaxLayers) : c.count ≤ layerMaskBits c.count := by
  have hle := c.count_le
  unfold layerMaskBits
  split
  · assumption
  · split <;> omega

theorem layerBit_getLsbD {layer : Nat} (h : layer < c.count) (k : Nat) :
    (layerBit c layer).getLsbD k = decide (layer = k) :=
  BitWords.bit_getLsbD layer k (Nat.lt_of_lt_of_le h (count_le_bits c))

theorem and_layerBit {layer : Nat} (h : layer < c.count) (m : c.Mask) :
    (m &&& layerBit c layer != 0) = m.getLsbD layer :=
  BitWords.and_bit_bne_zero m layer (Nat.lt_of_lt_of_le h (count_le_bits c))

variable (s : LayerBlink c)

theorem setLayerState_getLsbD {layer : Nat} (h : layer < c.count) (on : Bool) (k : Nat) :
    (s.setLayerState layer on).enabledLayerMask.getLsbD k =
      if layer = k then on else s.enabledLayerMask.getLsbD k := by
  have hbits := Nat.lt_of_lt_of_le h (count_le_bits c)
  cases on with
  | true =>
    refine (BitWords.or_bit_getLsbD s.enabledLayerMask layer k hbits).trans ?_
    by_cases hk : layer = k
    · simp [hk]
    · simp [hk]
  | false =>
    refine (BitWords.andNot_bit_getLsbD s.enabledLayerMask layer k hbits).trans ?_
    by_cases hk : layer = k
    · simp [hk]
    · simp [hk]

/-! ### A pass -/

/-- The layers that blink. -/
def pending (s : LayerBlink c) : List Nat :=
  (List.range c.count).filter s.blinking

theorem mem_pending (layer : Nat) :
    layer ∈ s.pending ↔ layer < c.count ∧ s.blinkingLayerMask.getLsbD layer := by
  unfold pending
  rw [List.mem_filter, List.mem_range]
  exact and_congr_right (fun h => by rw [← and_layerBit h]; rfl)

theorem pending_nodup : s.pending.Nodup :=
  List.nodup_range.filter _

variable {s} (now : BitVec 16)

theorem turn_skip {layer : Nat} (calls : List (Nat × Bool))
    (h : s.blinking layer = false ∨ s.timesRemaining = 0) :
    turn now (calls, s) layer = (calls, s) := by
  unfold turn
  rw [if_neg]
  rintro ⟨hblinking, hleft⟩
  rcases h with hidle | hzero
  · rw [hidle] at hblinking
    cases hblinking
  · dsimp only at hleft
    rw [hzero] at hleft
    exact absurd hleft (by decide)

theorem turn_change {layer : Nat} (calls : List (Nat × Bool)) (hblinking : s.blinking layer)
    (hleft : s.timesRemaining ≠ 0) :
    turn now (calls, s) layer = (calls ++ [(layer, s.turnsOn)], s.change now layer) := by
  unfold turn
  exact if_pos ⟨hblinking, (BitVec.pos_iff_ne_zero s.timesRemaining).mpr hleft⟩

theorem change_timesRemaining (layer : Nat) (hleft : s.timesRemaining ≠ 0) :
    (s.change now layer).timesRemaining.toNat = s.timesRemaining.toNat - 1 := by
  have hne : s.timesRemaining.toNat ≠ 0 := fun hzero => hleft (BitVec.eq_of_toNat_eq hzero)
  have hlt := s.timesRemaining.isLt
  change (s.timesRemaining - 1).toNat = _
  rw [BitVec.toNat_sub]
  change (2 ^ 8 - 1 + s.timesRemaining.toNat) % 2 ^ 8 = _
  omega

variable (layers : List Nat)

theorem turns_blinking : ∀ (calls : List (Nat × Bool)) (s : LayerBlink c),
    (layers.foldl (turn now) (calls, s)).2.blinkingLayerMask = s.blinkingLayerMask := by
  induction layers with
  | nil => exact fun _ _ => rfl
  | cons layer layers ih =>
    intro calls s
    rw [List.foldl_cons]
    by_cases hskip : s.blinking layer = false ∨ s.timesRemaining = 0
    · rw [turn_skip now calls hskip]
      exact ih calls s
    · obtain ⟨hblinking, hleft⟩ := not_or.mp hskip
      rw [Bool.not_eq_false] at hblinking
      rw [turn_change now calls hblinking hleft]
      exact ih _ _

theorem turns_filter : ∀ (calls : List (Nat × Bool)) (s : LayerBlink c),
    layers.foldl (turn now) (calls, s) =
      (layers.filter s.blinking).foldl (turn now) (calls, s) := by
  induction layers with
  | nil => exact fun _ _ => rfl
  | cons layer layers ih =>
    intro calls s
    rw [List.foldl_cons]
    cases hblinking : s.blinking layer with
    | false =>
      have hskip : (layer :: layers).filter s.blinking = layers.filter s.blinking :=
        List.filter_cons_of_neg (by simp [hblinking])
      rw [turn_skip now calls (Or.inl hblinking), hskip, ih]
    | true =>
      have hturn : (layer :: layers).filter s.blinking = layer :: layers.filter s.blinking :=
        List.filter_cons_of_pos hblinking
      rw [hturn, List.foldl_cons]
      by_cases hleft : s.timesRemaining = 0
      · rw [turn_skip now calls (Or.inr hleft), ih]
      · rw [turn_change now calls hblinking hleft, ih]
        rfl

theorem turns_none_left (calls : List (Nat × Bool)) (h : s.timesRemaining = 0) :
    layers.foldl (turn now) (calls, s) = (calls, s) := by
  induction layers with
  | nil => rfl
  | cons layer layers ih => rw [List.foldl_cons, turn_skip now calls (Or.inr h), ih]

theorem turns_timesRemaining :
    ∀ (calls : List (Nat × Bool)) (s : LayerBlink c), (∀ layer ∈ layers, s.blinking layer) →
      (layers.foldl (turn now) (calls, s)).2.timesRemaining.toNat =
        s.timesRemaining.toNat - layers.length := by
  induction layers with
  | nil => exact fun _ _ _ => rfl
  | cons layer layers ih =>
    intro calls s hblinking
    by_cases hleft : s.timesRemaining = 0
    · rw [turns_none_left now (layer :: layers) calls hleft, hleft]
      exact (Nat.zero_sub _).symm
    · rw [List.foldl_cons, turn_change now calls (hblinking layer List.mem_cons_self) hleft,
        ih _ (s.change now layer)
          (fun other hother => hblinking other (List.mem_cons_of_mem _ hother)),
        change_timesRemaining now layer hleft, List.length_cons]
      omega

theorem turns_other (k : Nat) (layers : List Nat) :
    ∀ (calls : List (Nat × Bool)) (s : LayerBlink c), (∀ layer ∈ layers, layer < c.count) →
      k ∉ layers → (layers.foldl (turn now) (calls, s)).2.enabledLayerMask.getLsbD k =
        s.enabledLayerMask.getLsbD k := by
  induction layers with
  | nil => exact fun _ _ _ _ => rfl
  | cons layer layers ih =>
    intro calls s hcount hk
    obtain ⟨hother, hk⟩ := List.ne_and_not_mem_of_not_mem_cons hk
    have hcounts : ∀ layer ∈ layers, layer < c.count := fun other hmem =>
      hcount other (List.mem_cons_of_mem _ hmem)
    rw [List.foldl_cons]
    by_cases hskip : s.blinking layer = false ∨ s.timesRemaining = 0
    · rw [turn_skip now calls hskip]
      exact ih calls s hcounts hk
    · obtain ⟨hblinking, hleft⟩ := not_or.mp hskip
      rw [Bool.not_eq_false] at hblinking
      rw [turn_change now calls hblinking hleft, ih _ _ hcounts hk]
      refine (s.setLayerState_getLsbD (hcount layer List.mem_cons_self) _ k).trans (if_neg ?_)
      exact fun heq => hother heq.symm

theorem change_getLsbD {layer : Nat} (h : layer < c.count) (k : Nat) :
    (s.change now layer).enabledLayerMask.getLsbD k =
      if layer = k then s.turnsOn else s.enabledLayerMask.getLsbD k :=
  s.setLayerState_getLsbD h s.turnsOn k

theorem turns_before (layer : Nat) (calls : List (Nat × Bool))
    (hblinking : ∀ other ∈ layers ++ [layer], s.blinking other)
    (hleft : layers.length < s.timesRemaining.toNat) :
    ∃ (done : List (Nat × Bool)) (u : LayerBlink c),
      layers.foldl (turn now) (calls, s) = (done, u) ∧
      u.timesRemaining.toNat = s.timesRemaining.toNat - layers.length ∧
      turn now (done, u) layer = (done ++ [(layer, u.turnsOn)], u.change now layer) := by
  have htimes := turns_timesRemaining now layers calls s (fun other hother =>
    hblinking other (List.mem_append_left _ hother))
  have hmask := turns_blinking now layers calls s
  rcases hdone : layers.foldl (turn now) (calls, s) with ⟨done, u⟩
  rw [hdone] at htimes hmask
  dsimp only at htimes hmask
  refine ⟨done, u, rfl, htimes, turn_change now done ?_ ?_⟩
  · have hsame : u.blinking layer = s.blinking layer := by
      unfold blinking
      rw [hmask]
    rw [hsame]
    exact hblinking layer (List.mem_append_right _ (List.mem_singleton_self layer))
  · intro hzero
    have hnone : u.timesRemaining.toNat = 0 := by
      rw [hzero]
      rfl
    omega

theorem turns_last (layer : Nat) (calls : List (Nat × Bool))
    (hblinking : ∀ other ∈ layers ++ [layer], s.blinking other) (hcount : layer < c.count)
    (hleft : layers.length < s.timesRemaining.toNat) :
    ((layers ++ [layer]).foldl (turn now) (calls, s)).2.enabledLayerMask.getLsbD layer =
      decide ((s.timesRemaining.toNat - (layers.length + 1)) % 2 = 1) := by
  obtain ⟨done, u, hbefore, htimes, hturn⟩ := turns_before now layers layer calls
    hblinking hleft
  rw [List.foldl_append, hbefore, List.foldl_cons, List.foldl_nil, hturn,
    change_getLsbD now hcount, if_pos rfl]
  unfold turnsOn
  rw [htimes]
  grind

theorem turns_one (layer : Nat) (layers : List Nat) (calls : List (Nat × Bool))
    (hblinking : s.blinking layer) (hone : s.timesRemaining = 1) :
    (layer :: layers).foldl (turn now) (calls, s) =
      (calls ++ [(layer, false)], s.change now layer) := by
  have hleft : s.timesRemaining ≠ 0 := by
    rw [hone]
    decide
  have hoff : s.turnsOn = false := by
    unfold turnsOn
    rw [hone]
    rfl
  have hnone : (s.change now layer).timesRemaining = 0 := by
    change s.timesRemaining - 1 = 0
    rw [hone]
    rfl
  rw [List.foldl_cons, turn_change now calls hblinking hleft, turns_none_left now layers _ hnone,
    hoff]

theorem turns_left_on (calls : List (Nat × Bool)) (hnodup : layers.Nodup)
    (hblinking : ∀ layer ∈ layers, s.blinking layer)
    (hcount : ∀ layer ∈ layers, layer < c.count) (htwo : 2 ≤ s.timesRemaining.toNat)
    (hends : s.timesRemaining.toNat ≤ layers.length) :
    ∃ layer ∈ layers,
      (layers.foldl (turn now) (calls, s)).2.enabledLayerMask.getLsbD layer := by
  have hindex : s.timesRemaining.toNat - 2 < layers.length := by omega
  obtain ⟨before, layer, after, rfl, hlength⟩ : ∃ before layer after,
      layers = before ++ layer :: after ∧ before.length = s.timesRemaining.toNat - 2 :=
    ⟨layers.take (s.timesRemaining.toNat - 2), layers[s.timesRemaining.toNat - 2],
      layers.drop (s.timesRemaining.toNat - 2 + 1), by
        rw [← List.drop_eq_getElem_cons hindex, List.take_append_drop], by
        rw [List.length_take]
        omega⟩
  have hmem : layer ∈ before ++ layer :: after :=
    List.mem_append_right _ List.mem_cons_self
  obtain ⟨done, u, hbefore, htimes, hturn⟩ := turns_before now before layer calls
    (fun other hother => hblinking other (by
      rcases List.mem_append.mp hother with hother | hother
      · exact List.mem_append_left _ hother
      · rw [List.mem_singleton.mp hother]
        exact hmem)) (by omega)
  -- with two left its layer is turned on, and it has no other turn
  have hafter : layer ∉ after := (List.nodup_cons.mp (List.nodup_append.mp hnodup).2.1).1
  refine ⟨layer, hmem, ?_⟩
  rw [List.foldl_append, hbefore, List.foldl_cons, hturn,
    turns_other now layer after _ _ (fun other hother => hcount other
      (List.mem_append_right _ (List.mem_cons_of_mem _ hother))) hafter,
    change_getLsbD now (hcount layer hmem), if_pos rfl]
  unfold turnsOn
  have hright : u.timesRemaining.toNat = 2 := by omega
  rw [hright]
  rfl

end LayerBlink

/-! ### A run -/

inductive BlinkEvent (c : MaxLayers) where
  /-- `rgblight_blink_layer_repeat`, and with 1 `rgblight_blink_layer` -/
  | blink (now : BitVec 16) (layer : Fin c.count) (duration : BitVec 16) (times : Byte)
  /-- `rgblight_task` -/
  | task (now : BitVec 16)

/-- The variables, the layer that was asked to blink last and how many times, and how often
    it has been turned on since. -/
structure BlinkRun (c : MaxLayers) where
  state : LayerBlink c
  last : Option (Fin c.count × Byte)
  turnedOn : Nat

namespace BlinkRun

variable {c : MaxLayers}

def init : BlinkRun c where
  state := LayerBlink.init
  last := none
  turnedOn := 0

def step (r : BlinkRun c) (e : BlinkEvent c) : BlinkRun c :=
  match e with
  | .blink now layer duration times =>
    { state := r.state.blinkLayerRepeat now layer.val duration times
      last := some (layer, times)
      turnedOn := 1 }
  | .task now =>
    let done := r.state.blinkLayerRepeatHelper now
    { r with
      state := done.2
      turnedOn :=
        match r.last with
        | some (layer, _) => r.turnedOn + done.1.count (layer.val, true)
        | none => r.turnedOn }

/-- When no layer blinks all are off, and the last has been turned on as often as it was
    asked to. -/
def Settled (r : BlinkRun c) : Prop :=
  r.state.blinkingLayerMask = 0 →
    (∀ layer < c.count, r.state.getLayerState layer = false) ∧
      ∀ layer times, r.last = some (layer, times) → r.turnedOn = times.toNat

/-- The pass that ends the blinking is made with one change left, and all layers that blink
    but the first are off. And the last was asked to blink 1 to 128 times. -/
def Ends (r : BlinkRun c) (e : BlinkEvent c) : Prop :=
  match e with
  | .blink _ _ _ _ => True
  | .task now =>
    r.state.blinkingLayerMask ≠ 0 → timerExpired now r.state.repeatTimer = true →
      r.state.timesRemaining.toNat ≤ r.state.pending.length →
        r.state.timesRemaining = 1 ∧
          (∀ layer ∈ r.state.pending.tail, r.state.getLayerState layer = false) ∧
            ∀ layer times, r.last = some (layer, times) → 1 ≤ times.toNat ∧ times.toNat ≤ 128

/-- What is known of the layers while some blink: the last was asked to, and has been turned
    on, with one that is alone as often as has been counted. Before the first pass it is on,
    and after one the last layer of the mask is on if the number is odd. -/
structure Counting (r : BlinkRun c) (layer : Fin c.count) (times : Byte) : Prop where
  last : r.last = some (layer, times)
  mem : layer.val ∈ r.state.pending
  left : r.state.timesRemaining ≠ 0
  alone : r.state.pending = [layer.val] →
    r.turnedOn + r.state.timesRemaining.toNat / 2 = (times.toNat + 127) % 128 + 1
  passed : (r.turnedOn = 1 ∧
      r.state.timesRemaining.toNat = 2 * ((times.toNat + 127) % 128) + 1) ∨
    ∃ before final, r.state.pending = before ++ [final] ∧
      r.state.enabledLayerMask.getLsbD final = decide (r.state.timesRemaining.toNat % 2 = 1)

structure Counted (r : BlinkRun c) : Prop where
  within : ∀ k, r.state.enabledLayerMask.getLsbD k = true → k ∈ r.state.pending
  counting : r.state.blinkingLayerMask ≠ 0 → ∃ layer times, r.Counting layer times

variable {r : BlinkRun c}

theorem getLayerState_eq {layer : Nat} (h : layer < c.count) (s : LayerBlink c) :
    s.getLayerState layer = s.enabledLayerMask.getLsbD layer :=
  LayerBlink.and_layerBit h s.enabledLayerMask

theorem Counted.blink (h : r.Counted) (now : BitVec 16) (layer : Fin c.count)
    (duration : BitVec 16) (times : Byte) :
    (r.step (.blink now layer duration times)).Counted ∧
      (r.step (.blink now layer duration times)).Settled := by
  have hmask : ∀ k, (r.step (.blink now layer duration times)).state.blinkingLayerMask.getLsbD k =
      (r.state.blinkingLayerMask.getLsbD k || decide (layer.val = k)) := by
    intro k
    rw [← LayerBlink.layerBit_getLsbD layer.isLt k, ← BitVec.getLsbD_or]
    rfl
  have hlayer : layer.val ∈ (r.step (.blink now layer duration times)).state.pending := by
    rw [LayerBlink.mem_pending, hmask, decide_eq_true rfl, Bool.or_true]
    exact ⟨layer.isLt, rfl⟩
  have htimes : (r.step (.blink now layer duration times)).state.timesRemaining.toNat =
      2 * ((times.toNat + 127) % 128) + 1 := by
    have hlt := times.isLt
    change (times * 2 - 1).toNat = _
    rw [BitVec.toNat_sub, BitVec.toNat_mul]
    change (2 ^ 8 - 1 + times.toNat * 2 % 2 ^ 8) % 2 ^ 8 = _
    omega
  refine ⟨⟨fun k hk => ?_, fun _ => ⟨layer, times, rfl, hlayer, fun hzero => ?_, fun _ => ?_,
    Or.inl ⟨rfl, htimes⟩⟩⟩, fun hzero => ?_⟩
  · have hk : (r.state.setLayerState layer.val true).enabledLayerMask.getLsbD k := hk
    rw [LayerBlink.setLayerState_getLsbD _ layer.isLt] at hk
    rw [LayerBlink.mem_pending, hmask]
    by_cases hsame : layer.val = k
    · exact ⟨hsame ▸ layer.isLt, by rw [decide_eq_true hsame, Bool.or_true]⟩
    · rw [if_neg hsame] at hk
      obtain ⟨hcount, hbit⟩ := (r.state.mem_pending k).mp (h.within k hk)
      exact ⟨hcount, by rw [hbit, Bool.true_or]⟩
  · rw [hzero] at htimes
    change 0 = _ at htimes
    omega
  · rw [htimes]
    change 1 + _ = _
    omega
  · have hbit := ((LayerBlink.mem_pending _ _).mp hlayer).2
    rw [hzero] at hbit
    have hclear : (0 : c.Mask).getLsbD layer.val = false := BitVec.getLsbD_zero
    rw [hclear] at hbit
    cases hbit

variable (now : BitVec 16)

theorem step_idle
    (hidle : ¬(r.state.blinkingLayerMask ≠ 0 ∧ timerExpired now r.state.repeatTimer)) :
    r.step (.task now) = r := by
  have hhelper : r.state.blinkLayerRepeatHelper now = ([], r.state) := if_neg hidle
  unfold step
  dsimp only
  rw [hhelper]
  obtain ⟨state, last, turnedOn⟩ := r
  cases last <;> rfl

theorem helper_due (s : LayerBlink c)
    (hdue : s.blinkingLayerMask ≠ 0 ∧ timerExpired now s.repeatTimer) :
    s.blinkLayerRepeatHelper now =
      ((s.pending.foldl (LayerBlink.turn now) ([], s)).1,
        if (s.pending.foldl (LayerBlink.turn now) ([], s)).2.timesRemaining = 0 then
          { (s.pending.foldl (LayerBlink.turn now) ([], s)).2 with blinkingLayerMask := 0 }
        else (s.pending.foldl (LayerBlink.turn now) ([], s)).2) := by
  unfold LayerBlink.blinkLayerRepeatHelper
  rw [if_pos hdue, LayerBlink.turns_filter now]
  rfl

theorem pending_blinking (s : LayerBlink c) : ∀ layer ∈ s.pending, s.blinking layer :=
  fun _ hlayer => (List.mem_filter.mp hlayer).2

theorem pending_lt (s : LayerBlink c) : ∀ layer ∈ s.pending, layer < c.count :=
  fun layer hlayer => ((s.mem_pending layer).mp hlayer).1

theorem pending_congr {s u : LayerBlink c} (h : u.blinkingLayerMask = s.blinkingLayerMask) :
    u.pending = s.pending := by
  unfold LayerBlink.pending LayerBlink.blinking
  rw [h]

theorem step_due {layer : Fin c.count} {times : Byte} (hlast : r.last = some (layer, times))
    (hdue : r.state.blinkingLayerMask ≠ 0 ∧ timerExpired now r.state.repeatTimer)
    {calls : List (Nat × Bool)} {u : LayerBlink c}
    (hpass : r.state.pending.foldl (LayerBlink.turn now) ([], r.state) = (calls, u)) :
    r.step (.task now) =
      { state := if u.timesRemaining = 0 then { u with blinkingLayerMask := 0 } else u
        last := some (layer, times)
        turnedOn := r.turnedOn + calls.count (layer.val, true) } := by
  have hhelper := helper_due now r.state hdue
  rw [hpass] at hhelper
  unfold step
  dsimp only
  rw [hhelper, hlast]

theorem pass_alone {layer : Nat} {s : LayerBlink c} (halone : s.pending = [layer])
    (hleft : s.timesRemaining ≠ 0) :
    s.pending.foldl (LayerBlink.turn now) ([], s) = ([(layer, s.turnsOn)], s.change now layer) := by
  have hblinking := pending_blinking s layer (halone ▸ List.mem_singleton_self layer)
  rw [halone, List.foldl_cons, LayerBlink.turn_change now [] hblinking hleft]
  rfl

theorem count_turnsOn (layer : Nat) (s : LayerBlink c) :
    [(layer, s.turnsOn)].count (layer, true) = 1 - s.timesRemaining.toNat % 2 := by
  unfold LayerBlink.turnsOn
  rcases Nat.mod_two_eq_zero_or_one s.timesRemaining.toNat with heven | hodd
  · rw [heven]
    exact List.count_singleton_self
  · rw [hodd]
    exact List.count_singleton.trans (if_neg (by simp))

theorem Counted.pass (h : r.Counted) (now : BitVec 16)
    (hdue : r.state.blinkingLayerMask ≠ 0 ∧ timerExpired now r.state.repeatTimer)
    (hmore : r.state.pending.length < r.state.timesRemaining.toNat) :
    (r.step (.task now)).Counted ∧ (r.step (.task now)).Settled := by
  obtain ⟨layer, times, hcounting⟩ := h.counting hdue.1
  have htimes := LayerBlink.turns_timesRemaining now r.state.pending [] r.state
    (pending_blinking r.state)
  have hmask := LayerBlink.turns_blinking now r.state.pending [] r.state
  have hother := fun k => LayerBlink.turns_other now k r.state.pending [] r.state
    (pending_lt r.state)
  rcases hpass : r.state.pending.foldl (LayerBlink.turn now) ([], r.state) with ⟨calls, u⟩
  rw [hpass] at htimes hmask hother
  dsimp only at htimes hmask hother
  have hpending : u.pending = r.state.pending := pending_congr hmask
  have hleft : u.timesRemaining ≠ 0 := by
    intro hzero
    rw [hzero] at htimes
    change 0 = _ at htimes
    omega
  rw [step_due now hcounting.last hdue hpass, if_neg hleft]
  refine ⟨⟨fun k hk => ?_, fun _ => ⟨layer, times, rfl, ?_, hleft, fun halone => ?_, Or.inr ?_⟩⟩,
    fun hzero => absurd (hmask.symm.trans hzero) hdue.1⟩
  · -- a layer that is on and had no turn was on before
    by_cases hk' : k ∈ r.state.pending
    · exact hpending ▸ hk'
    · exact absurd (h.within k ((hother k hk').symm.trans hk)) hk'
  · exact hpending ▸ hcounting.mem
  · have hsingle : r.state.pending = [layer.val] := hpending.symm.trans halone
    have hcounted := hcounting.alone hsingle
    obtain ⟨rfl, rfl⟩ := Prod.mk.inj (hpass.symm.trans (pass_alone now hsingle hcounting.left))
    rw [hsingle, List.length_singleton] at htimes hmore
    dsimp only
    rw [count_turnsOn, htimes]
    omega
  · -- the last layer of the mask had the last turn
    have hne : r.state.pending ≠ [] := List.ne_nil_of_mem hcounting.mem
    have hsplit := List.dropLast_append_getLast hne
    have hlength : r.state.pending.dropLast.length + 1 = r.state.pending.length := by
      rw [List.length_dropLast]
      have := List.length_pos_of_ne_nil hne
      omega
    have hfinal := LayerBlink.turns_last now r.state.pending.dropLast
      (r.state.pending.getLast hne) [] (hsplit.symm ▸ pending_blinking r.state)
      (pending_lt r.state _ (List.getLast_mem hne)) (by omega)
    rw [hsplit, hpass, hlength, ← htimes] at hfinal
    exact ⟨r.state.pending.dropLast, r.state.pending.getLast hne, hpending.trans hsplit.symm,
      hfinal⟩

theorem step_end {layer : Fin c.count} {times : Byte} (hlast : r.last = some (layer, times))
    (hdue : r.state.blinkingLayerMask ≠ 0 ∧ timerExpired now r.state.repeatTimer)
    (hends : r.state.timesRemaining.toNat ≤ r.state.pending.length) {calls : List (Nat × Bool)}
    {u : LayerBlink c}
    (hpass : r.state.pending.foldl (LayerBlink.turn now) ([], r.state) = (calls, u)) :
    r.step (.task now) =
      { state := { u with blinkingLayerMask := 0 }
        last := some (layer, times)
        turnedOn := r.turnedOn + calls.count (layer.val, true) } := by
  have htimes := LayerBlink.turns_timesRemaining now r.state.pending [] r.state
    (pending_blinking r.state)
  rw [hpass, Nat.sub_eq_zero_of_le hends] at htimes
  rw [step_due now hlast hdue hpass, if_pos (BitVec.eq_of_toNat_eq htimes)]

theorem Counted.end_within (h : r.Counted) (now : BitVec 16)
    (hdue : r.state.blinkingLayerMask ≠ 0 ∧ timerExpired now r.state.repeatTimer)
    (hends : r.state.timesRemaining.toNat ≤ r.state.pending.length)
    (hsettled : (r.step (.task now)).Settled) : (r.step (.task now)).Counted := by
  obtain ⟨layer, times, hcounting⟩ := h.counting hdue.1
  rcases hpass : r.state.pending.foldl (LayerBlink.turn now) ([], r.state) with ⟨calls, u⟩
  have hother := fun k => LayerBlink.turns_other now k r.state.pending [] r.state
    (pending_lt r.state)
  rw [hpass] at hother
  rw [step_end now hcounting.last hdue hends hpass] at hsettled ⊢
  refine ⟨fun k hk => ?_, fun hmask => absurd rfl hmask⟩
  have hcount : k < c.count := by
    by_cases hk' : k ∈ r.state.pending
    · exact pending_lt r.state k hk'
    · exact pending_lt r.state k (h.within k ((hother k hk').symm.trans hk))
  have hoff := (hsettled rfl).1 k hcount
  rw [getLayerState_eq hcount, hk] at hoff
  cases hoff

theorem Counted.end_many (h : r.Counted) (now : BitVec 16)
    (hdue : r.state.blinkingLayerMask ≠ 0 ∧ timerExpired now r.state.repeatTimer)
    (hends : r.state.timesRemaining.toNat ≤ r.state.pending.length)
    (htwo : 2 ≤ r.state.timesRemaining.toNat) : ¬(r.step (.task now)).Settled := by
  obtain ⟨layer, times, hcounting⟩ := h.counting hdue.1
  obtain ⟨left, hleft, hon⟩ := LayerBlink.turns_left_on now r.state.pending []
    r.state.pending_nodup (pending_blinking r.state) (pending_lt r.state) htwo hends
  rcases hpass : r.state.pending.foldl (LayerBlink.turn now) ([], r.state) with ⟨calls, u⟩
  rw [hpass] at hon
  rw [step_end now hcounting.last hdue hends hpass]
  intro hsettled
  have hcount := pending_lt r.state left hleft
  have hoff := (hsettled rfl).1 left hcount
  rw [getLayerState_eq hcount] at hoff
  exact absurd (hon.symm.trans hoff) (by decide)

theorem Counted.off_iff (h : r.Counted) (now : BitVec 16) (hone : r.state.timesRemaining = 1)
    {first : Nat} {others : List Nat} (hpending : r.state.pending = first :: others) :
    (∀ k < c.count, (r.state.change now first).getLayerState k = false) ↔
      ∀ k ∈ others, r.state.getLayerState k = false := by
  have hfirst : first < c.count := pending_lt r.state first (hpending ▸ List.mem_cons_self)
  have hnodup := r.state.pending_nodup
  rw [hpending] at hnodup
  have hnotin : first ∉ others := (List.nodup_cons.mp hnodup).1
  have hoff : r.state.turnsOn = false := by
    unfold LayerBlink.turnsOn
    rw [hone]
    rfl
  constructor
  · intro hall k hk
    have hcount : k < c.count := pending_lt r.state k (hpending ▸ List.mem_cons_of_mem _ hk)
    have hk' := hall k hcount
    rw [getLayerState_eq hcount, LayerBlink.change_getLsbD now hfirst,
      if_neg (fun hsame : first = k => hnotin (hsame ▸ hk))] at hk'
    rw [getLayerState_eq hcount]
    exact hk'
  · intro hothers k hcount
    rw [getLayerState_eq hcount, LayerBlink.change_getLsbD now hfirst]
    by_cases hsame : first = k
    · rw [if_pos hsame, hoff]
    · rw [if_neg hsame, ← getLayerState_eq hcount]
      by_cases hk : k ∈ others
      · exact hothers k hk
      · -- a layer that is on is in the mask
        rw [getLayerState_eq hcount]
        apply Bool.eq_false_iff.mpr
        intro hon
        rcases List.mem_cons.mp (hpending ▸ h.within k hon) with hk' | hk'
        · exact hsame hk'.symm
        · exact hk hk'

theorem Counting.turnedOn_eq {layer : Fin c.count} {times : Byte} (h : r.Counting layer times)
    (hone : r.state.timesRemaining = 1) {first : Nat} {others : List Nat}
    (hpending : r.state.pending = first :: others)
    (hothers : ∀ k ∈ others, r.state.getLayerState k = false) :
    r.turnedOn = (times.toNat + 127) % 128 + 1 := by
  rcases h.passed with ⟨hfresh, hcount⟩ | ⟨before, final, hsplit, hfinal⟩
  · rw [hone] at hcount
    change 1 = _ at hcount
    omega
  · -- the number is odd, so the last layer of the mask is on, and the first is the last
    rw [hone, show decide ((1 : Byte).toNat % 2 = 1) = true from rfl] at hfinal
    rw [hpending] at hsplit
    have hsingle : others = [] := by
      cases before with
      | nil => exact (List.cons.inj hsplit).2
      | cons head before =>
        have hmem : final ∈ others := by
          rw [(List.cons.inj hsplit).2]
          exact List.mem_append_right _ (List.mem_singleton_self final)
        have hoff := hothers final hmem
        rw [getLayerState_eq (pending_lt r.state final
          (hpending ▸ List.mem_cons_of_mem _ hmem)), hfinal] at hoff
        cases hoff
    have hlayer : layer.val = first := by
      have hmem := h.mem
      rw [hpending, hsingle] at hmem
      exact List.mem_singleton.mp hmem
    have hcounted := h.alone (by rw [hpending, hsingle, hlayer])
    rw [hone] at hcounted
    exact hcounted

theorem Counted.end_one (h : r.Counted) (now : BitVec 16)
    (hdue : r.state.blinkingLayerMask ≠ 0 ∧ timerExpired now r.state.repeatTimer)
    (hone : r.state.timesRemaining = 1) :
    (r.step (.task now)).Settled ↔
      (∀ layer ∈ r.state.pending.tail, r.state.getLayerState layer = false) ∧
        ∀ layer times, r.last = some (layer, times) → 1 ≤ times.toNat ∧ times.toNat ≤ 128 := by
  obtain ⟨layer, times, hcounting⟩ := h.counting hdue.1
  obtain ⟨first, others, hpending⟩ := List.exists_cons_of_ne_nil (List.ne_nil_of_mem hcounting.mem)
  have hpass : r.state.pending.foldl (LayerBlink.turn now) ([], r.state) =
      ([(first, false)], r.state.change now first) := by
    have hblinking := pending_blinking r.state first (hpending ▸ List.mem_cons_self)
    rw [hpending]
    exact LayerBlink.turns_one now first others [] hblinking hone
  have hends : r.state.timesRemaining.toNat ≤ r.state.pending.length := by
    rw [hone, hpending]
    exact Nat.succ_le_of_lt (Nat.succ_pos _)
  have hnone : [(first, false)].count (layer.val, true) = 0 := by simp
  rw [step_end now hcounting.last hdue hends hpass, hnone, hpending, List.tail_cons]
  have hstate := h.off_iff now hone hpending
  constructor
  · intro hsettled
    have hothers := hstate.mp (hsettled rfl).1
    refine ⟨hothers, fun layer' times' hlast => ?_⟩
    obtain ⟨rfl, rfl⟩ := Prod.mk.inj (Option.some.inj (hcounting.last.symm.trans hlast))
    have hasked := (hsettled rfl).2 layer times rfl
    have hcounted := hcounting.turnedOn_eq hone hpending hothers
    dsimp only at hasked
    omega
  · intro hlaw _
    refine ⟨hstate.mpr hlaw.1, fun layer' times' hlast => ?_⟩
    obtain ⟨rfl, rfl⟩ := Prod.mk.inj (Option.some.inj hlast)
    have hcounted := hcounting.turnedOn_eq hone hpending hlaw.1
    have hrange := hlaw.2 layer times hcounting.last
    dsimp only
    omega

theorem Counted.task (h : r.Counted) (hsettled : r.Settled) (now : BitVec 16) :
    ((r.step (.task now)).Settled → (r.step (.task now)).Counted) ∧
      ((r.step (.task now)).Settled ↔ r.Ends (.task now)) := by
  by_cases hdue : r.state.blinkingLayerMask ≠ 0 ∧ timerExpired now r.state.repeatTimer
  · rcases Nat.lt_or_ge r.state.pending.length r.state.timesRemaining.toNat with hmore | hends
    · obtain ⟨hcounted, hkept⟩ := h.pass now hdue hmore
      exact ⟨fun _ => hcounted,
        iff_of_true hkept (fun _ _ hends => absurd hends (Nat.not_le_of_lt hmore))⟩
    · refine ⟨h.end_within now hdue hends, ?_⟩
      by_cases hone : r.state.timesRemaining = 1
      · refine (h.end_one now hdue hone).trans ⟨fun hlaw _ _ _ => ⟨hone, hlaw⟩, fun hlaw => ?_⟩
        exact (hlaw hdue.1 hdue.2 hends).2
      · obtain ⟨layer, times, hcounting⟩ := h.counting hdue.1
        refine iff_of_false (h.end_many now hdue hends ?_) (fun hlaw =>
          hone (hlaw hdue.1 hdue.2 hends).1)
        have hne : r.state.timesRemaining.toNat ≠ 0 := fun hzero =>
          hcounting.left (BitVec.eq_of_toNat_eq hzero)
        have hne' : r.state.timesRemaining.toNat ≠ 1 := fun h1 =>
          hone (BitVec.eq_of_toNat_eq h1)
        omega
  · rw [step_idle now hdue]
    exact ⟨fun _ => h,
      iff_of_true hsettled (fun hmask hexpired => absurd ⟨hmask, hexpired⟩ hdue)⟩

theorem Counted.step (h : r.Counted) (hsettled : r.Settled) (e : BlinkEvent c) :
    ((r.step e).Settled → (r.step e).Counted) ∧ ((r.step e).Settled ↔ r.Ends e) := by
  cases e with
  | blink now layer duration times =>
    obtain ⟨hcounted, hkept⟩ := h.blink now layer duration times
    exact ⟨fun _ => hcounted, iff_of_true hkept trivial⟩
  | task now => exact h.task hsettled now

theorem counted_init : (init : BlinkRun c).Counted ∧ (init : BlinkRun c).Settled := by
  have hclear : ∀ k, (0 : c.Mask).getLsbD k = false := fun k => BitVec.getLsbD_zero
  refine ⟨⟨fun k hk => ?_, fun hmask => absurd rfl hmask⟩, fun _ => ⟨fun layer hlayer => ?_,
    fun _ _ hlast => ?_⟩⟩
  · exact absurd ((hclear k).symm.trans hk) (by decide)
  · exact (getLayerState_eq hlayer _).trans (hclear layer)
  · cases hlast

end BlinkRun

/-- When no layer blinks any more all are off, and the last has been turned on as often as it
    was asked to, if and only if every pass that ends the blinking has one change left,
    finds all layers of the mask but the first off, and the last was asked to blink 1 to 128
    times. -/
theorem layer_blink_ends_iff (c : MaxLayers) (events : List (BlinkEvent c)) :
    Always BlinkRun.step BlinkRun.Settled BlinkRun.init events ↔
      Along BlinkRun.step BlinkRun.Ends BlinkRun.init events :=
  always_iff_along BlinkRun.step BlinkRun.Ends (fun r => r.Counted ∧ r.Settled) BlinkRun.Settled
    (fun _ h => h.2)
    (fun _ e h hends => by
      obtain ⟨hcounted, hlaw⟩ := h.1.step h.2 e
      exact ⟨hcounted (hlaw.mpr hends), hlaw.mpr hends⟩)
    (fun _ e h hends hsettled => hends ((h.1.step h.2 e).2.mp hsettled))
    events BlinkRun.init BlinkRun.counted_init

theorem MaxLayers.eight_le : 8 ≤ 32 := by
  decide

/-- Eight layers. -/
def MaxLayers.eight : MaxLayers where
  count := 8
  count_pos := Nat.succ_pos 7
  count_le := MaxLayers.eight_le

/-- Layer 0 is asked to blink once, and layer 1 while it is on: layer 1 stays on. -/
theorem layer_blink_left_on :
    ¬ Always (BlinkRun.step (c := .eight)) BlinkRun.Settled BlinkRun.init
      [.blink 0 ⟨0, Nat.le_of_ble_eq_true rfl⟩ 500 1,
        .blink 100 ⟨1, Nat.le_of_ble_eq_true rfl⟩ 500 1, .task 700] := by
  intro hall
  have hlast := (always_iff_visited _ _ _ _).mp hall _ [] (List.append_nil _).symm
  have hon := (hlast (by decide +kernel)).1 1 (by decide +kernel)
  revert hon
  decide +kernel

end K530
