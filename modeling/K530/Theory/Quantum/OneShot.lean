import K530.Quantum.OneShot
import K530.Lib.Run

/-!
# The Life of a One-Shot Layer

While a one-shot is pending, the byte should name its layer; when nothing is
left to happen, or one-shots are switched off, the layer should be off unless
something else turned it on. Two things break this. The byte is signed: from layer
16 on `get_oneshot_layer` shifts copies of the sign in, and the layer it names is
none of the 32. And `clear_oneshot_layer_state` turns the layer off only if one-shots
are switched on; `oneshot_set` switches them off first and calls it then, which
leaves the layer of a pending one-shot on.

Nothing else does. `oneshot_lifecycle_iff` says that a run is as it should be
exactly if no key sets a layer from 16 on and no call switches one-shots off
over a layer that is pending and on. The invariant, `Sound`, is that
together with the sign of the byte. It is stated for a set of layers,
since layer 0 is on for a moment while a key is released early.

## Main definitions

* `Lifecycle`: What is wanted of every state.

## Theorems

* `step_sound`: A harmless move keeps the invariant.
* `oneshot_lifecycle_iff`: When a run is as it should be.
-/

namespace K530

open StepRun

namespace LayerOp

theorem apply_getLsbD (op : LayerOp) (state : BitVec 32) (layer : Nat)
    (h : (op.apply state).getLsbD layer) :
    state.getLsbD layer ∨ (op.turnsOn state).getLsbD layer := by
  cases op with
  | and mask =>
    simp only [apply, BitVec.getLsbD_and, Bool.and_eq_true] at h
    exact Or.inl h.1
  | or mask =>
    simp only [apply, BitVec.getLsbD_or, Bool.or_eq_true] at h
    exact h
  | xor mask =>
    simp only [apply, BitVec.getLsbD_xor] at h
    simp only [turnsOn, BitVec.getLsbD_and, BitVec.getLsbD_not]
    cases hstate : state.getLsbD layer with
    | true => exact Or.inl rfl
    | false =>
      rw [hstate, Bool.false_xor] at h
      have hlt : layer < 32 := BitVec.lt_of_getLsbD h
      simp [h, hlt]
  | set mask => exact Or.inr h

theorem off_getLsbD (state : BitVec 32) (layer other : Nat) :
    ((LayerOp.off layer).apply state).getLsbD other =
      (state.getLsbD other && !decide (layer = other)) := by
  have hbit : (1#32 <<< layer).getLsbD other = (decide (layer < 32) && decide (layer = other)) :=
    BitVec.getLsbD_twoPow layer other
  simp only [off, apply, BitVec.getLsbD_and, BitVec.getLsbD_not, hbit]
  by_cases hlt : other < 32
  · by_cases hsame : layer = other
    · simp [hsame, hlt]
    · simp [hsame, hlt]
  · have hstate : state.getLsbD other = false := BitVec.getLsbD_of_ge state other (by omega)
    simp [hstate]

theorem on_getLsbD (state : BitVec 32) (layer other : Nat) (h : layer ≠ other) :
    ((LayerOp.on layer).apply state).getLsbD other = state.getLsbD other := by
  have hbit : (1#32 <<< layer).getLsbD other = (decide (layer < 32) && decide (layer = other)) :=
    BitVec.getLsbD_twoPow layer other
  simp [on, apply, BitVec.getLsbD_or, hbit, h]

end LayerOp

namespace OneShot

/-- What is wanted: the byte names the pending layer; and with nothing pending,
    or one-shots switched off, the layer is off unless something else turned
    it on. -/
def Lifecycle (s : OneShot) : Prop :=
  (s.isOneshotLayerActive = true → s.set = some s.getOneshotLayer.toNat) ∧
    (s.isOneshotLayerActive = false ∨ s.disabled = true →
      ∀ layer, s.set = some layer → s.layers.getLsbD layer = true →
        s.others.getLsbD layer = true)

/-- The layer last set is off, or something else turned it on; for the layers
    of `p`. -/
def Released (p : Nat → Prop) (s : OneShot) : Prop :=
  ∀ layer, p layer → s.set = some layer → s.layers.getLsbD layer = true →
    s.others.getLsbD layer = true

/-- The byte is not negative, names the layer last set if it names one, and
    when nothing keeps the layer on it has been released. -/
structure Sound (p : Nat → Prop) (s : OneShot) : Prop where
  sign : s.data.msb = false
  named : s.data ≠ 0 → s.set = some (s.data >>> 3).toNat
  released : s.isOneshotLayerActive = false ∨ s.disabled = true → Released p s

/-! ### The byte -/

theorem sshiftRight_of_msb : ∀ data : Byte, data.msb = false →
    data.sshiftRight 3 = data >>> 3 := by
  decide +kernel

theorem clear_msb : ∀ data bit : Byte, data.msb = false → (data &&& ~~~bit).msb = false := by
  intro data bit h
  rw [BitVec.msb_and, h, Bool.false_and]

theorem zero_clear (data bit : Byte) (h : data = 0) : data &&& ~~~bit = 0 := by
  rw [h]
  exact BitVec.zero_and

theorem clear_layer (data bit : Byte) (h : bit = oneshotPressed ∨ bit = oneshotOtherKeyPressed) :
    (data &&& ~~~bit) >>> 3 = data >>> 3 := by
  rcases h with rfl | rfl
  · unfold oneshotPressed
    revert data
    decide +kernel
  · unfold oneshotOtherKeyPressed
    revert data
    decide +kernel

theorem toInt_of_msb (data : Byte) (h : data.msb = false) : data.toInt = (data.toNat : Int) := by
  rw [BitVec.toInt_eq_msb_cond, h]
  rfl

theorem set_data : ∀ layer : Fin 32,
    (BitVec.ofNat 8 layer.val <<< 3 ||| oneshotStart) &&& 0b111 = oneshotStart ∧
      (layer.val < 16 →
        (BitVec.ofNat 8 layer.val <<< 3 ||| oneshotStart).msb = false ∧
          ((BitVec.ofNat 8 layer.val <<< 3 ||| oneshotStart) >>> 3).toNat = layer.val) ∧
      (16 ≤ layer.val →
        ((BitVec.ofNat 8 layer.val <<< 3 ||| oneshotStart).sshiftRight 3).toNat ≠ layer.val) := by
  decide +kernel

theorem layerTapVal_lt (a : ActionCode) : ActionCode.layerTapVal a < 32 := by
  unfold ActionCode.layerTapVal
  rw [BitVec.toNat_and]
  exact Nat.lt_of_le_of_lt Nat.and_le_right (by decide)

variable (s : OneShot)

theorem getOneshotLayer_of_sign (h : s.data.msb = false) :
    s.getOneshotLayer = s.data >>> 3 := sshiftRight_of_msb s.data h

theorem data_ne_zero (h : s.isOneshotLayerActive) : s.data ≠ 0 := by
  intro hzero
  unfold isOneshotLayerActive getOneshotLayerState at h
  rw [hzero] at h
  exact absurd h (by decide)

theorem Sound.lifecycle (h : s.Sound (fun _ => True)) : s.Lifecycle := by
  constructor
  · intro hactive
    rw [s.getOneshotLayer_of_sign h.sign]
    exact h.named (s.data_ne_zero hactive)
  · intro hover layer hset hon
    exact h.released hover layer trivial hset hon

/-! ### Writes -/

variable (p : Nat → Prop)

theorem writeOther_released (op : LayerOp) (s : OneShot) (h : s.Released p) :
    (s.writeOther op).Released p := by
  intro layer hp hset hon
  have hwritten : (op.apply s.layers).getLsbD layer := hon
  have hothers : (s.others ||| op.turnsOn s.layers).getLsbD layer = true := by
    rw [BitVec.getLsbD_or, Bool.or_eq_true]
    rcases op.apply_getLsbD s.layers layer hwritten with hstate | hturned
    · exact Or.inl (h layer hp hset hstate)
    · exact Or.inr hturned
  simp only [writeOther, BitVec.getLsbD_and, hothers, hwritten, Bool.and_self]

theorem writeOther_sound (op : LayerOp) (s : OneShot) (h : s.Sound p) :
    (s.writeOther op).Sound p where
  sign := h.sign
  named := h.named
  released := fun hover => s.writeOther_released p op (h.released hover)

theorem writeOff_released (p q : Nat → Prop) (layer : Nat) (s : OneShot)
    (hq : ∀ other, q other → other ≠ layer → p other) (h : s.Released p) :
    (s.write (.off layer)).Released q := by
  intro other hother hset hon
  have hwritten : ((LayerOp.off layer).apply s.layers).getLsbD other := hon
  have hbefore := hwritten
  rw [LayerOp.off_getLsbD, Bool.and_eq_true, Bool.not_eq_true', decide_eq_false_iff_not] at hbefore
  have hkept := h other (hq other hother (Ne.symm hbefore.2)) hset hbefore.1
  simp only [write, BitVec.getLsbD_and, hkept, hwritten, Bool.and_self]

theorem writeOn_released (layer : Nat) (s : OneShot) (h : s.Released p) :
    (s.write (.on layer)).Released (fun other => p other ∧ other ≠ layer) := by
  intro other hother hset hon
  have hwritten : ((LayerOp.on layer).apply s.layers).getLsbD other := hon
  have hbefore := hwritten
  rw [LayerOp.on_getLsbD _ _ _ (Ne.symm hother.2)] at hbefore
  have hkept := h other hother.1 hset hbefore
  simp only [write, BitVec.getLsbD_and, hkept, hwritten, Bool.and_self]

/-! ### Taking a bit away -/

theorem clear_cases (bit : Byte) (s : OneShot) (hsign : s.data.msb = false) :
    (s.data &&& ~~~bit &&& 0b111 = 0 ∧ s.data ≠ s.data &&& ~~~bit ∧ s.disabled = false ∧
        s.clearOneshotLayerState bit =
          resetOneshotLayer (write (.off ((s.data &&& ~~~bit) >>> 3).toNat)
            { s with data := s.data &&& ~~~bit })) ∨
      ((s.data &&& ~~~bit &&& 0b111 ≠ 0 ∨ s.data = s.data &&& ~~~bit ∨ s.disabled = true) ∧
        s.clearOneshotLayerState bit = { s with data := s.data &&& ~~~bit }) := by
  have hsign' := clear_msb s.data bit hsign
  have hname : (getOneshotLayer { s with data := s.data &&& ~~~bit }) =
      (s.data &&& ~~~bit) >>> 3 := sshiftRight_of_msb _ hsign'
  have hcompare : ((s.data.toNat : Int) ≠ (s.data &&& ~~~bit).toInt) ↔
      s.data ≠ s.data &&& ~~~bit := by
    rw [toInt_of_msb _ hsign', Ne, Int.natCast_inj, ← BitVec.toNat_eq]
  have hstate : getOneshotLayerState { s with data := s.data &&& ~~~bit } =
      s.data &&& ~~~bit &&& 0b111 := rfl
  unfold clearOneshotLayerState
  dsimp only
  rw [hname, hstate]
  by_cases hlast : s.data &&& ~~~bit &&& 0b111 = 0 ∧
      (s.data.toNat : Int) ≠ (s.data &&& ~~~bit).toInt ∧ !s.disabled
  · left
    rw [if_pos hlast]
    exact ⟨hlast.1, hcompare.mp hlast.2.1, by simpa using hlast.2.2, rfl⟩
  · right
    rw [if_neg hlast]
    refine ⟨?_, rfl⟩
    by_contra hnot
    simp only [not_or, not_not] at hnot
    exact hlast ⟨hnot.1, hcompare.mpr hnot.2.1, by simpa using hnot.2.2⟩

theorem clear_disabled (bit : Byte) (s : OneShot) :
    (s.clearOneshotLayerState bit).disabled = s.disabled := by
  unfold clearOneshotLayerState
  dsimp only
  split <;> rfl

theorem clear_sound (bit : Byte) (s : OneShot)
    (hbit : bit = oneshotPressed ∨ bit = oneshotOtherKeyPressed) (h : s.Sound p) :
    (s.clearOneshotLayerState bit).Sound p := by
  have hlayer := clear_layer s.data bit hbit
  rcases clear_cases bit s h.sign with ⟨_, hchanged, _, hclear⟩ | ⟨hkept, hclear⟩
  · -- the last bit: the layer the byte names is the one last set, and it is off now
    have hdata : s.data ≠ 0 := by
      intro hzero
      exact hchanged (hzero.trans (zero_clear s.data bit hzero).symm)
    have hset := h.named hdata
    rw [hclear, hlayer]
    refine ⟨BitVec.msb_zero, fun hne => absurd rfl hne, fun _ layer _ hset' hon => ?_⟩
    have hsame : (s.data >>> 3).toNat = layer := Option.some.inj (hset.symm.trans hset')
    have hwritten : ((LayerOp.off (s.data >>> 3).toNat).apply s.layers).getLsbD layer := hon
    rw [LayerOp.off_getLsbD, hsame, decide_eq_true rfl, Bool.not_true, Bool.and_false] at hwritten
    exact Bool.noConfusion hwritten
  · rw [hclear]
    refine ⟨clear_msb s.data bit h.sign, ?_, ?_⟩
    · intro hne
      have hdata : s.data ≠ 0 := by
        intro hzero
        exact hne (zero_clear s.data bit hzero)
      exact (h.named hdata).trans (congrArg (fun name => some (BitVec.toNat name)) hlayer.symm)
    · intro hover
      rcases hkept with hstate | hsame | hdisabled
      · rcases hover with hidle | hdisabled
        · unfold isOneshotLayerActive getOneshotLayerState at hidle
          exact absurd (by simpa using hidle) hstate
        · exact h.released (Or.inr hdisabled)
      · rcases hover with hidle | hdisabled
        · refine h.released (Or.inl ?_)
          unfold isOneshotLayerActive getOneshotLayerState at hidle ⊢
          rw [hsame]
          exact hidle
        · exact h.released (Or.inr hdisabled)
      · exact h.released (Or.inr hdisabled)

theorem clear_data_zero (bit : Byte) (s : OneShot) (h : s.data = 0) :
    (s.clearOneshotLayerState bit).data = 0 := by
  unfold clearOneshotLayerState
  dsimp only
  split
  · rfl
  · exact zero_clear s.data bit h

/-! ### Actions -/

theorem press_sound (tapCount layer : Nat) (s : OneShot) (hlayer : s.disabled = false → layer < 16)
    (h : s.Sound p) : (s.processOneshot true tapCount layer).Sound p := by
  unfold processOneshot
  cases hdisabled : s.disabled with
  | true => exact s.writeOther_sound p (.on layer) h
  | false =>
    have hlt := hlayer hdisabled
    have hdata := set_data ⟨layer, by omega⟩
    have hbyte := hdata.2.1 hlt
    simp only [Bool.false_eq_true, if_false, if_true, setOneshotLayer, write, hdisabled,
      Bool.not_false]
    refine ⟨hbyte.1, fun _ => congrArg some hbyte.2.symm, ?_⟩
    intro hover
    rcases hover with hidle | hdisabled'
    · have hstate : (BitVec.ofNat 8 layer <<< 3 ||| oneshotStart) &&& 0b111 = oneshotStart :=
        hdata.1
      unfold isOneshotLayerActive getOneshotLayerState at hidle
      rw [hstate] at hidle
      exact absurd hidle (by decide)
    · exact absurd hdisabled' Bool.false_ne_true

theorem release_sound (tapCount layer : Nat) (s : OneShot) (h : s.Sound p) :
    (s.processOneshot false tapCount layer).Sound p := by
  have hpressed := clear_sound p oneshotPressed s (Or.inl rfl) h
  unfold processOneshot
  cases hdisabled : s.disabled with
  | true => exact s.writeOther_sound p (.off layer) h
  | false =>
    simp only [Bool.false_eq_true, if_false]
    by_cases htap : tapCount > 1
    · rw [if_pos htap]
      exact clear_sound p oneshotOtherKeyPressed _ (Or.inr rfl) hpressed
    · rw [if_neg htap]
      exact hpressed

theorem processOther_sound (pressed : Bool) (tapCount : Nat) (a : ActionCode) (s : OneShot)
    (h : s.Sound p) : (s.processOther pressed tapCount a).Sound p := by
  unfold processOther
  cases ActionCode.layerOp pressed tapCount a with
  | none => exact h
  | some op => exact s.writeOther_sound p op h

/-- The press of a one-shot layer's key, while one-shots are on, is of a layer
    that fits the byte. -/
def Fits (pressed : Bool) (a : ActionCode) (s : OneShot) : Prop :=
  pressed = true → ActionCode.isOneshotLayer a = true → s.disabled = false →
    ActionCode.layerTapVal a < 16

theorem processKind_sound (pressed : Bool) (tapCount : Nat) (a : ActionCode) (s : OneShot)
    (hfits : Fits pressed a s) (h : s.Sound p) : (s.processKind pressed tapCount a).Sound p := by
  unfold processKind
  by_cases honeshot : ActionCode.isOneshotLayer a
  · rw [if_pos honeshot]
    cases pressed with
    | true => exact press_sound p tapCount _ s (hfits rfl honeshot) h
    | false => exact release_sound p tapCount _ s h
  · rw [if_neg honeshot]
    exact processOther_sound p pressed tapCount a s h

theorem processOther_data (pressed : Bool) (tapCount : Nat) (a : ActionCode) (s : OneShot) :
    (s.processOther pressed tapCount a).data = s.data := by
  unfold processOther
  cases ActionCode.layerOp pressed tapCount a <;> rfl

variable (tapCount : Nat) (a : ActionCode)

theorem processKind_release_data (s : OneShot) (h : s.data = 0) :
    (s.processKind false tapCount a).data = 0 := by
  have hpressed := clear_data_zero oneshotPressed s h
  unfold processKind processOneshot
  by_cases honeshot : ActionCode.isOneshotLayer a
  · simp only [honeshot, if_true, Bool.false_eq_true, if_false]
    cases s.disabled with
    | true => exact h
    | false =>
      by_cases htap : tapCount > 1
      · simp only [Bool.false_eq_true, if_false, htap, if_true]
        exact clear_data_zero oneshotOtherKeyPressed _ hpressed
      · simp only [Bool.false_eq_true, if_false, htap]
        exact hpressed
  · rw [if_neg honeshot, processOther_data]
    exact h

theorem getOneshotLayer_zero (h : s.data = 0) : s.getOneshotLayer.toNat = 0 := by
  unfold getOneshotLayer
  rw [h]
  rfl

variable (release : Option ActionCode)

theorem releaseOneshot_sound (s : OneShot) (hdata : s.data = 0) (h : s.Sound (fun _ => True)) :
    (s.releaseOneshot tapCount release).Sound (fun _ => True) := by
  have hidle : ∀ t : OneShot, t.data = 0 → t.isOneshotLayerActive = false := by
    intro t ht
    unfold isOneshotLayerActive getOneshotLayerState
    rw [ht]
    rfl
  have hon : (s.write (.on 0)).Sound (fun other => True ∧ other ≠ 0) :=
    ⟨h.sign, h.named, fun _ => s.writeOn_released _ 0 (h.released (Or.inl (hidle s hdata)))⟩
  have hoff : ∀ t : OneShot, t.data = 0 → t.Sound (fun other => True ∧ other ≠ 0) →
      (t.write (.off t.getOneshotLayer.toNat)).Sound (fun _ => True) := by
    intro t ht hsound
    rw [t.getOneshotLayer_zero ht]
    exact ⟨hsound.sign, hsound.named, fun _ => t.writeOff_released _ _ 0
      (fun other _ hne => ⟨trivial, hne⟩) (hsound.released (Or.inl (hidle t ht)))⟩
  unfold releaseOneshot
  rw [s.getOneshotLayer_zero hdata]
  cases release with
  | none => exact hoff _ hdata hon
  | some a =>
    exact hoff _ (processKind_release_data tapCount a _ hdata)
      (processKind_sound _ false tapCount a _ (fun hpressed => Bool.noConfusion hpressed) hon)

theorem used_data (hsign : s.data.msb = false) (huses : s.usesNow a)
    (hidle : (s.clearOneshotLayerState oneshotOtherKeyPressed).isOneshotLayerActive = false) :
    (s.clearOneshotLayerState oneshotOtherKeyPressed).data = 0 := by
  unfold usesNow at huses
  simp only [Bool.and_eq_true, Bool.not_eq_true'] at huses
  rcases clear_cases oneshotOtherKeyPressed s hsign with ⟨_, _, _, hclear⟩ | ⟨hkept, hclear⟩
  · rw [hclear]
    rfl
  · rw [hclear] at hidle
    rcases hkept with hstate | hsame | hdisabled
    · unfold isOneshotLayerActive getOneshotLayerState at hidle
      exact absurd (by simpa using hidle) hstate
    · have hactive := huses.1.1
      unfold isOneshotLayerActive getOneshotLayerState at hactive hidle
      rw [← hsame, hactive] at hidle
      exact Bool.noConfusion hidle
    · rw [huses.2] at hdisabled
      exact Bool.noConfusion hdisabled

theorem press_state (s : OneShot) (honeshot : ActionCode.isOneshotLayer a)
    (hdisabled : s.disabled = false) :
    (s.processKind true tapCount a).getOneshotLayerState = oneshotStart := by
  have hdata := set_data ⟨ActionCode.layerTapVal a, layerTapVal_lt a⟩
  unfold processKind processOneshot
  simp only [honeshot, hdisabled, if_true, Bool.false_eq_true, if_false, setOneshotLayer, write,
    Bool.not_false, getOneshotLayerState]
  exact hdata.1

theorem processPress_sound (s : OneShot) (hfits : Fits true a s) (h : s.Sound (fun _ => True)) :
    (s.processPress tapCount a release).Sound (fun _ => True) := by
  unfold processPress
  by_cases huses : s.usesNow a
  · rw [if_pos huses]
    have hcleared := clear_sound _ oneshotOtherKeyPressed s (Or.inr rfl) h
    have hdisabled := clear_disabled oneshotOtherKeyPressed s
    have hdone := processKind_sound _ true tapCount a _
      (fun hp ho hd => hfits hp ho (hdisabled.symm.trans hd)) hcleared
    dsimp only
    split
    · rename_i hrelease
      simp only [Bool.and_eq_true, Bool.not_eq_true', decide_eq_true_eq] at hrelease
      have hempty := used_data s a h.sign huses hrelease.1
      -- a one-shot layer's key would have set the bit that keeps it from being released
      have hother : ActionCode.isOneshotLayer a ≠ true := by
        intro honeshot
        have henabled : s.disabled = false := by
          unfold usesNow at huses
          simp only [Bool.and_eq_true, Bool.not_eq_true'] at huses
          exact huses.2
        have hstate := press_state tapCount a _ honeshot (hdisabled.trans henabled)
        rw [hstate] at hrelease
        exact absurd hrelease.2 (by decide)
      refine releaseOneshot_sound tapCount release _ ?_ hdone
      unfold processKind
      rw [if_neg hother, processOther_data]
      exact hempty
    · exact hdone
  · rw [if_neg huses]
    exact processKind_sound _ true tapCount a s hfits h

/-! ### Runs -/

/-- The moves that keep a one-shot sound: no layer from 16 on is set while
    one-shots are on, and one-shots are not switched off over a pending layer
    that is on. -/
def Harmless (s : OneShot) : OneShotMove → Prop
  | .record pressed _ action _ => ∀ a, action = some a → Fits pressed a s
  | .call switch => s.isOneshotLayerActive = true → s.disabled = false →
      switch.flag s.disabled = true → Released (fun _ => True) s
  | .write _ => True

theorem call_sound (switch : Switch) (s : OneShot) (hharmless : Harmless s (.call switch))
    (h : s.Sound (fun _ => True)) : (s.call switch).Sound (fun _ => True) := by
  unfold call oneshotSet
  by_cases hchange : s.disabled ≠ switch.flag s.disabled
  · rw [if_pos hchange]
    refine clear_sound _ oneshotOtherKeyPressed _ (Or.inr rfl) ⟨h.sign, h.named, ?_⟩
    intro _
    cases hdisabled : s.disabled with
    | true => exact h.released (Or.inr hdisabled)
    | false =>
      cases hactive : s.isOneshotLayerActive with
      | false => exact h.released (Or.inl hactive)
      | true =>
        refine hharmless hactive hdisabled ?_
        rw [hdisabled] at hchange ⊢
        exact Bool.eq_true_of_not_eq_false (Ne.symm hchange)
  · rw [if_neg hchange]
    exact h

theorem step_sound (m : OneShotMove) (h : s.Sound (fun _ => True)) (hharmless : Harmless s m) :
    (step s m).Sound (fun _ => True) := by
  cases m with
  | record pressed tapCount action release =>
    simp only [step, processRecord]
    cases action with
    | none =>
      dsimp only
      split
      · exact clear_sound _ oneshotOtherKeyPressed s (Or.inr rfl) h
      · exact h
    | some a =>
      have hfits := hharmless a rfl
      cases pressed with
      | true => exact processPress_sound tapCount a release s hfits h
      | false => exact processKind_sound _ false tapCount a s hfits h
  | call switch => exact call_sound switch s hharmless h
  | write op => exact s.writeOther_sound _ op h

theorem press_breaks (s : OneShot) (honeshot : ActionCode.isOneshotLayer a)
    (hdisabled : s.disabled = false) (hhigh : 16 ≤ ActionCode.layerTapVal a) :
    ¬ (s.processKind true tapCount a).Lifecycle := by
  intro h
  have hdata := set_data ⟨ActionCode.layerTapVal a, layerTapVal_lt a⟩
  have hactive : (s.processKind true tapCount a).isOneshotLayerActive := by
    unfold isOneshotLayerActive
    rw [press_state tapCount a s honeshot hdisabled]
    rfl
  have hname := h.1 hactive
  unfold processKind processOneshot at hname
  simp only [honeshot, hdisabled, if_true, Bool.false_eq_true, if_false, setOneshotLayer, write,
    Bool.not_false, getOneshotLayer, Option.some.injEq] at hname
  exact hdata.2.2 hhigh hname.symm

theorem processPress_oneshot (s : OneShot) (honeshot : ActionCode.isOneshotLayer a)
    (hdisabled : s.disabled = false) :
    ∃ t : OneShot, t.disabled = false ∧
      s.processPress tapCount a release = t.processKind true tapCount a := by
  unfold processPress
  by_cases huses : s.usesNow a
  · have hused : (s.clearOneshotLayerState oneshotOtherKeyPressed).disabled = false :=
      (clear_disabled oneshotOtherKeyPressed s).trans hdisabled
    have hstate := press_state tapCount a _ honeshot hused
    refine ⟨_, hused, ?_⟩
    rw [if_pos huses]
    dsimp only
    rw [hstate, if_neg]
    rw [Bool.and_eq_true, decide_eq_true_eq]
    exact fun hboth => absurd hboth.2 (by decide)
  · exact ⟨s, hdisabled, if_neg huses⟩

theorem call_breaks (switch : Switch) (s : OneShot) (h : s.Sound (fun _ => True))
    (hdisabled : s.disabled = false)
    (hflag : switch.flag s.disabled = true) (hon : ¬ s.Released (fun _ => True)) :
    ¬ (s.call switch).Lifecycle := by
  intro hlifecycle
  have hcall : s.call switch =
      clearOneshotLayerState oneshotOtherKeyPressed { s with disabled := true } := by
    unfold call oneshotSet
    rw [hflag, hdisabled]
    rfl
  have hkept : s.call switch =
      { s with disabled := true, data := s.data &&& ~~~oneshotOtherKeyPressed } := by
    rw [hcall]
    rcases clear_cases oneshotOtherKeyPressed { s with disabled := true } h.sign with
      ⟨_, _, henabled, _⟩ | ⟨_, hclear⟩
    · exact Bool.noConfusion henabled
    · exact hclear
  rw [hkept] at hlifecycle
  exact hon (fun layer _ hset hlayer => hlifecycle.2 (Or.inr rfl) layer hset hlayer)

theorem step_breaks (m : OneShotMove) (h : s.Sound (fun _ => True)) (hharmless : ¬ Harmless s m) :
    ¬ (step s m).Lifecycle := by
  cases m with
  | record pressed tapCount action release =>
    simp only [Harmless, Fits, not_forall, Nat.not_lt] at hharmless
    rcases hharmless with ⟨a, ha, hpressed, honeshot, hdisabled, hhigh⟩
    rcases processPress_oneshot tapCount a release s honeshot hdisabled with ⟨t, ht, hpress⟩
    have hstep : step s (.record pressed tapCount action release) =
        t.processKind true tapCount a := by
      rw [ha, hpressed, ← hpress]
      rfl
    rw [hstep]
    exact press_breaks tapCount a t honeshot ht hhigh
  | call switch =>
    simp only [Harmless, not_forall] at hharmless
    rcases hharmless with ⟨_, hdisabled, hflag, hon⟩
    exact call_breaks switch s h hdisabled hflag hon
  | write op => exact absurd trivial hharmless

theorem init_sound (disabled : Bool) : (init disabled).Sound (fun _ => True) where
  sign := BitVec.msb_zero
  named := fun h => absurd rfl h
  released := by
    intro _ layer _ hset _
    simp only [init, reduceCtorEq] at hset

/-- The byte names the pending layer throughout a run, and the layer is off when
    nothing is pending or one-shots are off, exactly when every move of the run
    is harmless. -/
theorem oneshot_lifecycle_iff (disabled : Bool) (moves : List OneShotMove) :
    Always step Lifecycle (init disabled) moves ↔ Along step Harmless (init disabled) moves :=
  always_iff_along step Harmless (Sound (fun _ => True)) Lifecycle Sound.lifecycle step_sound
    step_breaks moves (init disabled) (init_sound disabled)

/-- `OSL(1)` tapped, and then one-shots switched off by the call that is named
    for switching them on; and `OSL(16)` pressed. -/
theorem oneshot_lifecycle_broken :
    ¬ Always step Lifecycle (init false)
        [.record true 1 (some (ActionCode.layerTap 1 0xF4)) none,
          .record false 1 (some (ActionCode.layerTap 1 0xF4)) none, .call .enable] ∧
      ¬ Always step Lifecycle (init false)
        [.record true 1 (some (ActionCode.layerTap 16 0xF4)) none] := by
  constructor
  · intro h
    have hlast := h.2.2.2.2 (Or.inr (by decide +kernel)) 1 (by decide +kernel) (by decide +kernel)
    exact absurd hlast (by decide +kernel)
  · intro h
    have hname := h.2.1 (by decide +kernel)
    exact absurd hname (by decide +kernel)

end OneShot

end K530
