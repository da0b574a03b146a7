import K530.Lib.Run
import K530.Theory.Combo.Keys

/-!
# Combos Lose No Press

When all keys are up, every press has been delivered and released, or has gone into a combo
whose result was delivered and released. This holds in every run whose steps are `Handled`.

What goes wrong otherwise is of four kinds. A press that finds the key buffer full is kept
from the rest of the firmware and is nowhere. A combo that finds the ring full makes it look
empty. A combo that stays in the ring when its time has come, because it was disabled, is no
longer disabled the next time, and takes those of its keys that wait, though not all of them
do. And a combo of one key is active without a key that could release it, if it is the
release of the key that brings it about.

## Main definitions

* `Combos.Undivided`: No combo in the ring takes a part of its keys only.

## Theorems

* `ComboRun.loses_no_press`: Nothing is lost in a run whose steps are.
* `ComboRun.loses_no_press_broken`: A press is lost to a combo that has stayed in the ring.
-/

namespace K530

open Ring
open StepRun
open History

namespace Combos

variable {n w m : Nat} {combos : Fin n → Combo} {q q' : Combos n w m}
  {held down : List (Nat × Keycode)} {serials : Nat}

/-! ### Delivering -/

theorem Account.congr (h : Account combos q held down serials) (hcombos : q'.combos = q.combos)
    (hbuffer : q'.keyBuffer = q.keyBuffer) (hchord : q'.chord = q.chord) (hlog : q'.log = q.log)
    (henabled : q'.keyBuffer ≠ [] → q'.enabled) :
    Account combos q' held down serials := by
  obtain ⟨cs, timer, enabled, longest, buffer, ring, read, write, chord, log⟩ := q
  obtain ⟨cs', timer', enabled', longest', buffer', ring', read', write', chord', log'⟩ := q'
  obtain rfl : cs' = cs := hcombos
  obtain rfl : buffer' = buffer := hbuffer
  obtain rfl : chord' = chord := hchord
  obtain rfl : log' = log := hlog
  exact
    { keys := h.keys
      apart := h.apart
      records := h.records
      distinct := h.distinct
      enabled := henabled
      waiting := h.waiting
      complete := h.complete
      disabled := h.disabled
      chorded := h.chorded
      left := h.left
      pressed := h.pressed
      covers := h.covers
      results := h.results
      fresh := h.fresh
      unpressed := h.unpressed
      pending := h.pending
      status := h.status
      gone := h.gone
      known := h.known }

theorem history_deliver_result (pressed : Bool) (serial : Nat) (i : Fin n)
    (chord : List (Nat × Keycode)) :
    history (q.deliver pressed (.key serial)).log (.result i chord) =
      history q.log (.result i chord) :=
  history_concat_of_ne _ _ _ _ (by simp)

theorem history_deliver_key (pressed : Bool) (serial other : Nat) (h : serial ≠ other) :
    history (q.deliver pressed (.key serial)).log (.key other) = history q.log (.key other) :=
  history_concat_of_ne _ _ _ _ (by simpa using h)

theorem history_deliver_self (pressed : Bool) (serial : Nat) :
    history (q.deliver pressed (.key serial)).log (.key serial) =
      history q.log (.key serial) ++ [pressed] :=
  history_concat_self _ _ _

theorem Consumed.deliver {serial other : Nat} (h : q.Consumed combos other) (pressed : Bool)
    (hne : serial ≠ other) : (q.deliver pressed (.key serial)).Consumed combos other := by
  obtain ⟨hkey, i, chord, hresult, hrest⟩ := h
  refine ⟨(history_deliver_key pressed serial other hne).trans hkey, i, chord, ?_, hrest⟩
  rw [history_deliver_result]
  exact hresult

theorem Account.deliver_press (h : Account combos q held held serials) (keycode : Keycode)
    (hkey : keycode ≠ comboEnd) (hup : ∀ a ∈ held, a.2 ≠ keycode) :
    Account combos (q.deliver true (.key serials)) ((serials, keycode) :: held)
      ((serials, keycode) :: held) (serials + 1) := by
  have hold : ∀ serial < serials, history (q.deliver true (.key serials)).log (.key serial) =
      history q.log (.key serial) :=
    fun serial hlt => history_deliver_key true serials serial (Nat.ne_of_gt hlt)
  exact
    { keys := by
        intro a ha
        rcases List.mem_cons.mp ha with rfl | ha
        · exact ⟨Nat.lt_succ_self serials, hkey⟩
        · exact ⟨Nat.lt_succ_of_lt (h.keys a ha).1, (h.keys a ha).2⟩
      apart := by
        refine List.pairwise_cons.mpr ⟨fun a ha => ⟨?_, Ne.symm (hup a ha)⟩, h.apart⟩
        exact Nat.ne_of_gt (h.keys a ha).1
      records := fun r hr => ⟨List.mem_cons_of_mem _ (h.records r hr).1, (h.records r hr).2⟩
      distinct := h.distinct
      enabled := h.enabled
      waiting := by
        intro i hidle j hj
        obtain ⟨r, hr, hheld, hindex⟩ := h.waiting i hidle j hj
        exact ⟨r, hr, List.mem_cons_of_mem _ hheld, hindex⟩
      complete := fun i hon r hr _ => h.complete i hon r hr (h.records r hr).1
      disabled := h.disabled
      chorded := by
        intro i hi j
        rw [show (q.deliver true (.key serials)).combos i = q.combos i from rfl,
          h.chorded i hi j]
        constructor
        · rintro ⟨a, ha, hrest⟩
          exact ⟨a, List.mem_cons_of_mem _ ha, hrest⟩
        · rintro ⟨a, ha, hchord, hindex⟩
          rcases List.mem_cons.mp ha with rfl | ha
          · -- no chord has a press that has only now been made
            exact absurd (h.chord_lt hi hchord) (Nat.lt_irrefl serials)
          · exact ⟨a, ha, hchord, hindex⟩
      left := h.left
      pressed := fun i hi => (history_deliver_result true serials i _).trans (h.pressed i hi)
      covers := h.covers
      results := by
        intro i chord
        rw [history_deliver_result]
        exact h.results i chord
      fresh := by
        intro i chord hne a ha
        rw [history_deliver_result] at hne
        obtain ⟨hlt, hnone, hno⟩ := h.fresh i chord hne a ha
        exact ⟨Nat.lt_succ_of_lt hlt, (hold a.1 hlt).trans hnone, hno⟩
      unpressed := by
        intro serial hserial
        rw [history_deliver_key true serials serial (by omega)]
        exact h.unpressed serial (by omega)
      pending := fun r hr => (hold _ (h.serial_lt hr)).trans (h.pending r hr)
      status := by
        intro a ha
        rcases List.mem_cons.mp ha with rfl | ha
        · refine Or.inr (Or.inl ?_)
          rw [history_deliver_self, h.unpressed serials (Nat.le_refl serials)]
          rfl
        · have hlt := (h.keys a ha).1
          refine (h.status a ha).imp_right (Or.imp ?_ ?_)
          · exact fun htrue => (hold a.1 hlt).trans htrue
          · exact fun hc => ⟨hc.1.deliver true (Nat.ne_of_gt hlt), fun _ => hc.2 ha⟩
      gone := by
        intro serial hserial hnone
        -- a press that is gone was gone before this one
        have hne : serials ≠ serial := hnone _ List.mem_cons_self
        have hlt : serial < serials := by omega
        rw [hold serial hlt]
        refine (h.gone serial hlt (fun a ha => hnone a (List.mem_cons_of_mem _ ha))).imp_right ?_
        exact fun hc => hc.deliver true hne
      known := fun a ha => ha }

section Releasing

variable {h : Nat × Keycode} (hq : Account combos q held (held.erase h) serials) (hh : h ∈ held)
  (hempty : q.keyBuffer = [])

include hq hempty

theorem Account.forget (hconsumed : q.Consumed combos h.1) :
    Account combos q (held.erase h) (held.erase h) serials :=
  { hq with
    keys := fun a ha => hq.keys a (List.mem_of_mem_erase ha)
    apart := hq.apart.sublist List.erase_sublist
    records := by
      rw [hempty]
      exact fun r hr => absurd hr List.not_mem_nil
    status := fun a ha => hq.status a (List.mem_of_mem_erase ha)
    gone := by
      intro serial hserial hnone
      by_cases hself : h.1 = serial
      · exact Or.inr (hself ▸ hconsumed)
      · refine hq.gone serial hserial (fun a ha => ?_)
        by_cases hah : a = h
        · rw [hah]
          exact hself
        · exact hnone a ((hq.mem_erase h a).mpr ⟨hah, ha⟩)
    known := fun a ha => ha }

include hh

theorem Account.deliver_release (hpressed : history q.log (.key h.1) = [true]) :
    Account combos (q.deliver false (.key h.1)) (held.erase h) (held.erase h) serials := by
  have hother : ∀ a ∈ held.erase h, h.1 ≠ a.1 := by
    intro a ha
    obtain ⟨hne, hmem⟩ := (hq.mem_erase h a).mp ha
    exact Ne.symm (hq.apart_of_ne hmem hh hne).1
  exact
    { keys := fun a ha => hq.keys a (List.mem_of_mem_erase ha)
      apart := hq.apart.sublist List.erase_sublist
      records := by
        change ∀ r ∈ q.keyBuffer, _
        rw [hempty]
        exact fun r hr => absurd hr List.not_mem_nil
      distinct := hq.distinct
      enabled := hq.enabled
      waiting := hq.waiting
      complete := hq.complete
      disabled := hq.disabled
      chorded := hq.chorded
      left := hq.left
      pressed := fun i hi => (history_deliver_result false h.1 i _).trans (hq.pressed i hi)
      covers := hq.covers
      results := by
        intro i chord
        rw [history_deliver_result]
        exact hq.results i chord
      fresh := by
        intro i chord hne a ha
        rw [history_deliver_result] at hne
        obtain ⟨hlt, hnone, hno⟩ := hq.fresh i chord hne a ha
        refine ⟨hlt, ?_, hno⟩
        rw [history_deliver_key false h.1 a.1]
        · exact hnone
        · intro heq
          rw [heq, hnone] at hpressed
          exact absurd hpressed.symm (List.cons_ne_nil _ _)
      unpressed := by
        intro serial hserial
        rw [history_deliver_key false h.1 serial]
        · exact hq.unpressed serial hserial
        · exact Nat.ne_of_lt (Nat.lt_of_lt_of_le (hq.keys h hh).1 hserial)
      pending := by
        change ∀ r ∈ q.keyBuffer, _
        rw [hempty]
        exact fun r hr => absurd hr List.not_mem_nil
      status := by
        intro a ha
        rw [history_deliver_key false h.1 a.1 (hother a ha)]
        refine (hq.status a (List.mem_of_mem_erase ha)).imp_right (Or.imp_right (fun hc => ?_))
        exact ⟨hc.1.deliver false (hother a ha), hc.2⟩
      gone := by
        intro serial hserial hnone
        by_cases hself : h.1 = serial
        · refine Or.inl ?_
          rw [← hself, history_deliver_self, hpressed]
          rfl
        · rw [history_deliver_key false h.1 serial hself]
          refine (hq.gone serial hserial (fun a ha => ?_)).imp_right
            (fun hc => hc.deliver false hself)
          by_cases hah : a = h
          · rw [hah]
            exact hself
          · exact hnone a ((hq.mem_erase h a).mpr ⟨hah, ha⟩)
      known := fun a ha => ha }

end Releasing

/-! ### Flushing what can be -/

variable (combos) in
/-- A combo in the ring takes all of its keys from what waits, or none. -/
def Undivided (q : Combos n w m) [NeZero m] : Prop :=
  ∀ i ∈ q.prepared, (q.combos i).disabled = false →
    allWaiting combos q.keyBuffer i = true ∨ ∀ r ∈ q.keyBuffer, (combos i).has r = false

variable [NeZero m]

theorem Account.whole (h : Account combos q held held serials) (hready : Ready combos q)
    (hundivided : q.Undivided combos) : q.Whole combos where
  distinct := h.distinct.imp And.right
  keycode_ne _ hr := h.keycode_ne hr
  waits r hr := (h.records r hr).2
  fits := hready.fits
  whole := hundivided
  apart i hi j hj hia hja key hkey hkey' := by
    obtain ⟨hon, hwaits⟩ := applies_iff.mp hia
    obtain ⟨hon', hwaits'⟩ := applies_iff.mp hja
    exact hready.apart i hi j hj hon hon' (h.allDown_of_waiting (hready.fits i hi) hon hwaits)
      (h.allDown_of_waiting (hready.fits j hj) hon' hwaits') ⟨key, hkey, hkey'⟩

theorem Whole.exists_record (h : q.Whole combos) {i : Fin n} (hi : i ∈ q.taken combos)
    {key : Keycode} (hkey : key ∈ (combos i).keys) :
    ∃ r ∈ q.keyBuffer, (combos i).has r ∧ r.keycode = key := by
  obtain ⟨r, hr, heq⟩ := (allWaiting_iff combos _ _).mp (mem_taken.mp hi).2.2 key hkey
  exact ⟨r, hr, ((combos i).has_iff r (h.keycode_ne r hr)).mpr (heq ▸ hkey), heq⟩

theorem Account.flushing (h : Account combos q held held serials) (hready : Ready combos q)
    (hundivided : q.Undivided combos) : Flushing combos q (q.flush combos) held held serials where
  before := h
  whole := h.whole hready hundivided
  flushed := flush_spec q (h.whole hready hundivided) h.disabled
  remains i hi := by
    have hwhole := h.whole hready hundivided
    obtain ⟨key, hkey⟩ := List.exists_mem_of_ne_nil _ (hready.fits i (mem_taken.mp hi).1).nonempty
    obtain ⟨r, hr, hhas, -⟩ := hwhole.exists_record hi hkey
    exact ⟨r, hr, hhas, (h.records r hr).1⟩

theorem Raised.whole {keycode : Keycode} (hraised : Raised combos keycode (List.finRange n) q q')
    (h : q.Whole combos) : q'.Whole combos := by
  have hdisabled : ∀ i, (q'.combos i).disabled = (q.combos i).disabled := by
    intro i
    rw [hraised.states i, if_pos (List.mem_finRange i), raise_disabled]
  have happlies : ∀ i, q'.applies combos i = q.applies combos i := by
    intro i
    unfold applies
    rw [hdisabled, hraised.keyBuffer]
  have hbuffer := hraised.keyBuffer
  refine ⟨?_, ?_, ?_, fun i hi => h.fits i (hraised.sub.subset hi), ?_, ?_⟩
  · rw [hbuffer]
    exact h.distinct
  · rw [hbuffer]
    exact h.keycode_ne
  · rw [hbuffer]
    exact h.waits
  · intro i hi j hj hia hja
    rw [happlies] at hia hja
    exact h.apart i (hraised.sub.subset hi) j (hraised.sub.subset hj) hia hja
  · intro i hi hon
    rw [hdisabled] at hon
    rw [hbuffer]
    exact h.whole i (hraised.sub.subset hi) hon

theorem Raising.flushing {h : Nat × Keycode} (f : Raising combos q q' held serials h)
    (hready : Ready combos q) (hundivided : q.Undivided combos)
    (hlone : ∀ i ∈ q.taken combos, (combos i).keys ≠ [h.2]) :
    Flushing combos q' (q'.flush combos) held (held.erase h) serials where
  before := f.account
  whole := f.raised.whole (f.before.whole hready hundivided)
  flushed := flush_spec q' (f.raised.whole (f.before.whole hready hundivided)) f.account.disabled
  remains i hi := by
    have hwhole := f.raised.whole (f.before.whole hready hundivided)
    obtain ⟨hmem, hon, hwaits⟩ := mem_taken.mp hi
    have hfits := hwhole.fits i hmem
    by_contra hnone
    have hwas : i ∈ q.taken combos := by
      rw [f.disabled] at hon
      rw [f.raised.keyBuffer] at hwaits
      exact mem_taken.mpr ⟨f.raised.sub.subset hmem, hon, hwaits⟩
    -- every key of the combo is the one that has gone up
    have hall : ∀ key ∈ (combos i).keys, key = h.2 := by
      intro key hkey
      obtain ⟨r, hr, hhas, rfl⟩ := hwhole.exists_record hi hkey
      by_contra hne
      refine hnone ⟨r, hr, hhas, (f.before.mem_erase h _).mpr ⟨?_, (f.account.records r hr).1⟩⟩
      exact fun hcon => hne (congrArg Prod.snd hcon)
    refine hlone i hwas ?_
    -- no key is twice in a combo, so this one has it alone
    have hlength : (combos i).keys.length = 1 := by
      refine Nat.le_antisymm ?_ (List.length_pos_iff.mpr hfits.nonempty)
      by_contra hlong
      have h0 := hall _ (List.getElem_mem (show 0 < (combos i).keys.length by omega))
      have h1 := hall _ (List.getElem_mem (show 1 < (combos i).keys.length by omega))
      exact absurd (hfits.nodup.getElem_inj_iff.mp (h0.trans h1.symm)) Nat.zero_ne_one
    obtain ⟨key, hkey⟩ := List.length_eq_one_iff.mp hlength
    rw [hkey, hall key (by rw [hkey]; exact List.mem_singleton_self key)]

/-! ### Turning combos on and off -/

variable (combos) in
theorem disableAll_eq (q : Combos n w m) :
    q.disableAll = { ({ q with read := q.write } : Combos n w m).flush combos with
      enabled := false } := by
  unfold flush
  rw [if_neg (not_not_intro rfl)]
  rfl

theorem Account.disableAll (h : Account combos q held held serials) :
    Account combos q.disableAll held held serials ∧ Ready combos q.disableAll := by
  have hstart : Account combos { q with read := q.write } held held serials :=
    h.congr rfl rfl rfl rfl h.enabled
  have hnone : ({ q with read := q.write } : Combos n w m).prepared = [] := contents_self _ _
  have hfits : ∀ i ∈ ({ q with read := q.write } : Combos n w m).prepared, (combos i).Fits w := by
    rw [hnone]
    exact fun i hi => absurd hi List.not_mem_nil
  have hwhole : ({ q with read := q.write } : Combos n w m).Whole combos := by
    refine ⟨h.distinct.imp And.right, fun _ hr => h.keycode_ne hr, fun r hr => (h.records r hr).2,
      hfits, ?_, ?_⟩
    · rw [hnone]
      exact fun i hi => absurd hi List.not_mem_nil
    · rw [hnone]
      exact fun i hi => absurd hi List.not_mem_nil
  have hflushed := flush_spec _ hwhole hstart.disabled
  have hflushing : Flushing combos _ _ held held serials :=
    ⟨hstart, hflushed, hwhole, fun i hi => by
      have hmem := (mem_taken.mp hi).1
      rw [hnone] at hmem
      exact absurd hmem List.not_mem_nil⟩
  have hready := hflushed.ready hfits hstart.disabled
  rw [disableAll_eq combos]
  refine ⟨hflushing.account.congr rfl rfl rfl rfl (fun hne => absurd hflushed.keyBuffer hne),
    hready.fits, hready.ringed, hready.apart⟩

/-! ### Keys that are up -/

omit [NeZero m] in
theorem Account.up (h : Account combos q held held serials) {keycode : Keycode}
    (hkey : keycode ≠ comboEnd) (hup : ∀ a ∈ held, a.2 ≠ keycode) (i : Fin n) (j : Nat)
    (hindex : (combos i).keyIndex keycode = some j) : (q.combos i).state.getLsbD j = false := by
  refine Bool.eq_false_of_not_eq_true (fun hset => ?_)
  -- a bit stands for a press that waits, or for a key of the chord
  cases hon : (q.combos i).active with
  | false =>
    obtain ⟨r, hr, hheld, hindex'⟩ := h.waiting i hon j hset
    exact hup _ hheld
      ((combos i).keyIndex_inj _ _ (h.keycode_ne hr) hkey j hindex' hindex)
  | true =>
    obtain ⟨a, ha, -, hindex'⟩ := (h.chorded i hon j).mp hset
    exact hup a ha ((combos i).keyIndex_inj _ _ (h.keys a ha).2 hkey j hindex' hindex)

/-! ### Events -/

/-- The keycodes that turn combos on and off. -/
def IsSwitch (keycode : Keycode) : Prop :=
  keycode = cmbOn ∨ keycode = cmbOff ∨ keycode = cmbTog

instance : DecidablePred IsSwitch :=
  fun _ => inferInstanceAs (Decidable (_ ∨ _ ∨ _))

variable (combos) in
theorem processCombo_switch (capacity : Nat) (now : BitVec 16) (serial : Nat)
    (keycode : Keycode) (q : Combos n w m) (h : IsSwitch keycode) :
    q.processCombo combos capacity now serial keycode true = (true, q.enable) ∨
      q.processCombo combos capacity now serial keycode true = (true, q.disableAll) := by
  unfold processCombo
  rcases h with rfl | rfl | rfl
  · exact Or.inl rfl
  · exact Or.inr rfl
  · -- the last of the three does what one of the other two does
    unfold toggle
    cases q.enabled with
    | true => exact Or.inr rfl
    | false => exact Or.inl rfl

theorem processCombo_await (capacity : Nat) (now : BitVec 16) (serial : Nat) (keycode : Keycode)
    (q : Combos n w m) (h : ¬ IsSwitch keycode)
    (htaken : (q.processCombos combos now keycode true (List.finRange n)).1)
    (hroom : (q.processCombos combos now keycode true (List.finRange n)).2.keyBuffer.length <
      capacity) :
    q.processCombo combos capacity now serial keycode true =
      (false, (q.processCombos combos now keycode true (List.finRange n)).2.await now
        { serial, keycode, time := now ||| 1, comboIndex := none }) := by
  obtain ⟨hon, hoff, htog⟩ := not_or.mp h |>.imp_right not_or.mp
  unfold processCombo await
  simp [hon, hoff, htog, htaken, hroom]

theorem processCombo_flush (capacity : Nat) (now : BitVec 16) (serial : Nat) (keycode : Keycode)
    (q : Combos n w m) (h : ¬ IsSwitch keycode)
    (hnobody : q.processCombos combos now keycode true (List.finRange n) = (false, q)) :
    q.processCombo combos capacity now serial keycode true = (true, q.flush combos) := by
  obtain ⟨hon, hoff, htog⟩ := not_or.mp h |>.imp_right not_or.mp
  unfold processCombo
  simp [hon, hoff, htog, hnobody]

theorem processCombo_release (capacity : Nat) (now : BitVec 16) (serial : Nat) (keycode : Keycode)
    (q : Combos n w m) :
    q.processCombo combos capacity now serial keycode false =
      (!(q.processCombos combos now keycode false (List.finRange n)).1,
        (q.processCombos combos now keycode false (List.finRange n)).2.flush combos) := by
  unfold processCombo
  simp

end Combos

/-! ### Steps -/

namespace ComboRun

open Combos

variable {n w m : Nat} [NeZero m] (combos : Fin n → Combo) (capacity : Nat)

/-- A press that a combo takes finds room in the key buffer, and a combo that it completes
    finds a place in the ring. When what waits is flushed, a combo in the ring takes all of
    its keys from it, or none; and at the release of a key, not that key alone. -/
def Handled (r : ComboRun n w m) : ComboInput → Prop
  | .press keycode =>
    (∀ h ∈ r.held, h.2 ≠ keycode) → keycode ≠ comboEnd ∧ (¬ IsSwitch keycode →
      if ∃ i, r.queue.takesPart combos keycode i = true then
        r.queue.keyBuffer.length < capacity ∧
          r.queue.FindPlaces combos r.clock keycode (List.finRange n)
      else r.queue.Undivided combos)
  | .release keycode =>
    (∃ h ∈ r.held, h.2 = keycode) → r.queue.Undivided combos ∧
      ∀ i ∈ r.queue.taken combos, (combos i).keys ≠ [keycode]
  | .task =>
    r.queue.enabled = true →
      r.queue.timer ≠ 0 ∧ r.clock - r.queue.timer > r.queue.longestTerm →
      r.queue.Undivided combos
  | .tick _ => True

instance (q : Combos n w m) : Decidable (q.Undivided combos) :=
  inferInstanceAs (Decidable (∀ i ∈ q.prepared, (q.combos i).disabled = false →
    allWaiting combos q.keyBuffer i = true ∨ ∀ r ∈ q.keyBuffer, (combos i).has r = false))

instance decidableHandled (r : ComboRun n w m) :
    (input : ComboInput) → Decidable (Handled combos capacity r input)
  | .press keycode => inferInstanceAs (Decidable ((∀ h ∈ r.held, h.2 ≠ keycode) →
      keycode ≠ comboEnd ∧ (¬ IsSwitch keycode →
        if ∃ i, r.queue.takesPart combos keycode i = true then
          r.queue.keyBuffer.length < capacity ∧
            r.queue.FindPlaces combos r.clock keycode (List.finRange n)
        else r.queue.Undivided combos)))
  | .release keycode => inferInstanceAs (Decidable ((∃ h ∈ r.held, h.2 = keycode) →
      r.queue.Undivided combos ∧ ∀ i ∈ r.queue.taken combos, (combos i).keys ≠ [keycode]))
  | .task => inferInstanceAs (Decidable (r.queue.enabled = true →
      r.queue.timer ≠ 0 ∧ r.clock - r.queue.timer > r.queue.longestTerm →
        r.queue.Undivided combos))
  | .tick _ => inferInstanceAs (Decidable True)

structure Sound (r : ComboRun n w m) : Prop where
  account : Account combos r.queue r.held r.held r.serials
  ready : Ready combos r.queue

variable {combos capacity} {r : ComboRun n w m}

theorem start_sound : Sound combos (start n w m) := by
  have hnone : (start n w m).queue.prepared = [] := contents_self _ _
  refine ⟨?_, ?_, ?_, ?_⟩
  · exact
      { keys := fun h hh => absurd hh List.not_mem_nil
        apart := List.Pairwise.nil
        records := fun r hr => absurd hr List.not_mem_nil
        distinct := List.Pairwise.nil
        enabled := fun _ => rfl
        waiting := fun i _ j hj => by simp [start, init, ComboState.init] at hj
        complete := fun _ _ r hr => absurd hr List.not_mem_nil
        disabled := fun _ hi => absurd hi Bool.false_ne_true
        chorded := fun _ hi => absurd hi Bool.false_ne_true
        left := fun _ hi => absurd hi Bool.false_ne_true
        pressed := fun _ hi => absurd hi Bool.false_ne_true
        covers := fun _ hi => absurd hi Bool.false_ne_true
        results := fun _ _ => Or.inl rfl
        fresh := fun _ _ hne => absurd rfl hne
        unpressed := fun _ _ => rfl
        pending := fun _ hr => absurd hr List.not_mem_nil
        status := fun _ hh => absurd hh List.not_mem_nil
        gone := fun serial hlt => absurd hlt (Nat.not_lt_zero serial)
        known := fun _ hh => hh }
  · rw [hnone]
    exact fun i hi => absurd hi List.not_mem_nil
  · intro i hkeys _ hall
    have hbit := (ComboState.allDown_iff _ _).mp hall 0
    rw [decide_eq_true (List.length_pos_iff.mpr hkeys)] at hbit
    simp [start, init, ComboState.init] at hbit
  · intro i hi
    rw [hnone] at hi
    exact absurd hi List.not_mem_nil

theorem time_ne (now : BitVec 16) : now ||| 1 ≠ 0 := by
  intro h
  have hbit : (now ||| 1).getLsbD 0 = (0 : BitVec 16).getLsbD 0 := congrArg (·.getLsbD 0) h
  rw [BitVec.getLsbD_or] at hbit
  simp at hbit

theorem sound_deliver_press {q : Combos n w m} (hkeys : Account combos q r.held r.held r.serials)
    (hready : Ready combos q) (keycode : Keycode) (hkey : keycode ≠ comboEnd)
    (hup : ∀ a ∈ r.held, a.2 ≠ keycode) :
    Sound combos { r with
      held := (r.serials, keycode) :: r.held, serials := r.serials + 1,
      queue := q.deliver true (.key r.serials) } :=
  ⟨hkeys.deliver_press keycode hkey hup, hready.fits, hready.ringed, hready.apart⟩

theorem process_press (h : Sound combos r) (keycode : Keycode)
    (hup : ∀ a ∈ r.held, a.2 ≠ keycode) (hhandled : Handled combos capacity r (.press keycode)) :
    Sound combos ({ r with
      held := (r.serials, keycode) :: r.held, serials := r.serials + 1 }.process combos capacity
        true (r.serials, keycode)) := by
  obtain ⟨hkey, hrest⟩ := hhandled hup
  unfold process
  dsimp only
  by_cases hswitch : IsSwitch keycode
  · rcases processCombo_switch combos capacity r.clock r.serials keycode r.queue hswitch
      with heq | heq
    · rw [heq]
      exact sound_deliver_press
        (h.account.congr rfl rfl rfl rfl (fun _ => rfl) : Account combos r.queue.enable _ _ _)
        ⟨h.ready.fits, h.ready.ringed, h.ready.apart⟩ keycode hkey hup
    · obtain ⟨haccount, hready⟩ := h.account.disableAll
      rw [heq]
      exact sound_deliver_press haccount hready keycode hkey hup
  have hcond := hrest hswitch
  -- what the press does depends on whether some combo takes part in it
  have hbits := h.account.up hkey hup
  by_cases hpart : ∃ i, r.queue.takesPart combos keycode i
  · rw [if_pos hpart] at hcond
    obtain ⟨hroom, hplaces⟩ := hcond
    obtain ⟨hany, hpressed, htook⟩ := processCombos_press combos r.clock keycode hkey
      (List.finRange n) (List.nodup_finRange n) r.queue h.account.disabled
      (fun j _ b hb => hbits j b hb) hplaces
    obtain ⟨i, hi⟩ := hpart
    have henabled : r.queue.enabled := by
      unfold takesPart at hi
      rw [Bool.and_eq_true, Bool.and_eq_true] at hi
      exact hi.1.2
    rw [List.any_eq_true.mpr ⟨i, List.mem_finRange i, hi⟩] at hany
    rw [processCombo_await capacity r.clock r.serials keycode r.queue hswitch hany
      (by rw [hpressed.keyBuffer]; exact hroom)]
    have hlowering : Lowering combos r.queue
        (r.queue.processCombos combos r.clock keycode true (List.finRange n)).2 r.held r.serials
        { serial := r.serials, keycode, time := r.clock ||| 1, comboIndex := none } :=
      { before := h.account
        enabled := henabled
        serial := rfl
        keycode_ne := hkey
        up := hup
        waits := ⟨time_ne r.clock, rfl⟩
        pressed := hpressed
        took := fun j hj b hb hlt => htook j (List.mem_finRange j) henabled hj b hb hlt }
    exact ⟨hlowering.account r.clock, hlowering.ready r.clock h.ready⟩
  · rw [if_neg hpart] at hcond
    -- it goes on after what waits, which is flushed first
    have hnobody : ∀ i ∈ List.finRange n, r.queue.takesPart combos keycode i = false :=
      fun i _ => Bool.eq_false_of_not_eq_true (fun hi => hpart ⟨i, hi⟩)
    have hflushing := h.account.flushing h.ready hcond
    rw [processCombo_flush capacity r.clock r.serials keycode r.queue hswitch
      (processCombos_nobody r.clock keycode hkey (List.finRange n) r.queue hbits hnobody)]
    exact sound_deliver_press hflushing.account
      (hflushing.flushed.ready h.ready.fits h.account.disabled) keycode hkey hup

theorem process_release (h : Sound combos r) {a : Nat × Keycode} (ha : a ∈ r.held)
    (hhandled : Handled combos capacity r (.release a.2)) :
    Sound combos ({ r with held := r.held.erase a }.process combos capacity false a) := by
  obtain ⟨hundivided, hlone⟩ := hhandled ⟨a, ha, rfl⟩
  obtain ⟨hcounts, hraised⟩ := processCombos_release combos r.clock a.2
    (List.finRange n) (List.nodup_finRange n) r.queue
  have hraising : Raising combos r.queue _ r.held r.serials a := ⟨h.account, ha, hraised⟩
  -- the combos see the release before what waits is flushed
  have hflushing := hraising.flushing h.ready hundivided hlone
  obtain ⟨hkept, hgoes⟩ := hraising.released h.ready hflushing
  have hready := hflushing.flushed.ready (hraising.ready h.ready).fits hflushing.before.disabled
  unfold process
  dsimp only
  rw [processCombo_release, hcounts]
  cases hany : (List.finRange n).any (r.queue.counts combos a.2) with
  | true =>
    exact ⟨hflushing.account.forget hflushing.flushed.keyBuffer (hkept hany), hready⟩
  | false =>
    exact ⟨hflushing.account.deliver_release ha hflushing.flushed.keyBuffer (hgoes hany),
      hready.fits, hready.ringed, hready.apart⟩

theorem step_sound (h : Sound combos r) (input : ComboInput)
    (hhandled : Handled combos capacity r input) : Sound combos (r.step combos capacity input) := by
  cases input with
  | press keycode =>
    unfold step press
    dsimp only
    split
    next => exact h
    next hdown =>
      -- the matrix reports a press only of a key that is up
      refine process_press h keycode (fun a ha hkey => hdown ?_) hhandled
      exact List.any_eq_true.mpr ⟨a, ha, decide_eq_true hkey⟩
  | release keycode =>
    unfold step release
    dsimp only
    cases hfind : r.held.find? (fun a => a.2 = keycode) with
    | none => exact h
    | some a =>
      have hkey : a.2 = keycode := by simpa using List.find?_some hfind
      subst hkey
      exact process_release h (List.mem_of_find?_eq_some hfind) hhandled
  | task =>
    unfold step comboTask
    dsimp only
    cases henabled : r.queue.enabled with
    | false => exact h
    | true =>
      rw [Bool.not_true, if_neg Bool.false_ne_true]
      split
      next hlate =>
        have hflushing := h.account.flushing h.ready (hhandled henabled hlate)
        have hready := hflushing.flushed.ready h.ready.fits h.account.disabled
        refine ⟨hflushing.account.congr rfl rfl rfl rfl ?_, hready.fits, hready.ringed,
          hready.apart⟩
        exact fun hne => absurd hflushing.flushed.keyBuffer hne
      next => exact h
  | tick now => exact ⟨h.account, h.ready⟩

/-! ### Runs -/

/-- Every press has been delivered and released, or has gone into a combo; and so has every
    result been released that was delivered. -/
def LosesNothing (combos : Fin n → Combo) (r : ComboRun n w m) : Prop :=
  (∀ serial < r.serials, history r.queue.log (.key serial) = [true, false] ∨
    r.queue.Consumed combos serial) ∧
  ∀ i chord, history r.queue.log (.result i chord) = [] ∨
    history r.queue.log (.result i chord) = [true, false]

theorem Sound.losesNothing (h : Sound combos r) (hheld : r.held = []) : LosesNothing combos r := by
  refine ⟨fun serial hserial => h.account.gone serial hserial ?_, fun i chord => ?_⟩
  · rw [hheld]
    exact fun a ha => absurd ha List.not_mem_nil
  · refine (h.account.results i chord).imp_right (fun hrest => hrest.resolve_right ?_)
    rintro ⟨hon, -⟩
    -- an active combo has a key that is still down
    obtain ⟨j, hj⟩ := h.account.left i hon
    obtain ⟨a, ha, -⟩ := (h.account.chorded i hon j).mp hj
    rw [hheld] at ha
    exact List.not_mem_nil ha

/-- When all keys are up nothing has been lost, in a run in which presses find room, combos
    are put into a ring that is not full, and no combo is applied to a part of its keys, nor
    at the release of a key that is all of it. -/
theorem loses_no_press (combos : Fin n → Combo) (capacity : Nat) (inputs : List ComboInput)
    (hhandled : Along (step combos capacity) (Handled combos capacity) (start n w m) inputs) :
    Always (step combos capacity) (fun r => r.held = [] → LosesNothing combos r) (start n w m)
      inputs :=
  always_of_along (step combos capacity) (Handled combos capacity) (Sound combos)
    (fun r => r.held = [] → LosesNothing combos r) (fun _ hs => hs.losesNothing)
    (fun _ input hs hc => step_sound hs input hc) inputs (start n w m) start_sound hhandled

/-- A combo of two keys. -/
def pair (a b : Keycode) (ha : a ≠ comboEnd) (hb : b ≠ comboEnd) : Combo where
  keys := [a, b]
  term := 50
  keys_ne := by
    intro key hkey
    rcases List.mem_cons.mp hkey with rfl | hkey
    · exact ha
    · rwa [List.mem_singleton.mp hkey]
  length_lt := Nat.lt_of_sub_eq_succ rfl

/-- Three of them, two of which share a key. -/
def threePairs (i : Fin 3) : Combo :=
  if i = 0 then pair 4 5 (by decide) (by decide)
  else if i = 1 then pair 6 7 (by decide) (by decide)
  else pair 7 8 (by decide) (by decide)

/-- The first of them is pressed, and its keys are released. -/
def chordInTime : List ComboInput :=
  [.press 4, .press 5, .tick 60, .task, .release 4, .release 5]

theorem loses_no_press_chord :
    Along (step threePairs 8) (Handled threePairs 8) (start 3 8 4) chordInTime ∧
      Always (step threePairs 8) (fun r => r.held = [] → LosesNothing threePairs r) (start 3 8 4)
        chordInTime :=
  have hhandled : Along (step threePairs 8) (Handled threePairs 8) (start 3 8 4) chordInTime := by
    decide +kernel
  ⟨hhandled, loses_no_press threePairs 8 chordInTime hhandled⟩

/-- All three are pressed, and a key of the second, which has been disabled, is pressed
    again. -/
def chordThatStays : List ComboInput :=
  [.press 4, .press 5, .press 6, .press 7, .press 8, .release 6, .press 6, .release 6,
    .release 8, .release 7, .release 5, .release 4, .tick 3000, .task]

/-- The second press of that key is lost, and its release is delivered. -/
theorem loses_no_press_broken :
    ¬ ∀ (n w m : Nat) [NeZero m] (combos : Fin n → Combo) (capacity : Nat)
      (inputs : List ComboInput),
      (StepRun.run (step combos capacity) (start n w m) inputs).held = [] →
        (StepRun.run (step combos capacity) (start n w m) inputs).queue.timer = 0 →
        LosesNothing combos (StepRun.run (step combos capacity) (start n w m) inputs) := by
  intro h
  have hall := (h 3 8 4 threePairs 8 chordThatStays (by decide +kernel) (by decide +kernel)).1 5
    (by decide +kernel)
  have hlost : history (StepRun.run (step threePairs 8) (start 3 8 4) chordThatStays).queue.log
      (.key 5) = [false] := by
    decide +kernel
  rcases hall with hdone | ⟨hnone, -⟩
  · rw [hlost] at hdone
    exact absurd hdone (by decide)
  · rw [hlost] at hnone
    exact absurd hnone (by decide)

end ComboRun

end K530
