import K530.Theory.Combo.Press
import K530.Theory.Combo.Release

/-!
# The Account of the Presses

Every press that has been made waits in the buffer, or has been delivered, or has gone into a
combo whose result was delivered. This is kept when the buffer is flushed, when a key goes
up, and when a key goes down.

A bit of a combo that is not active is a press that waits, and one of a combo that is active
a press the combo was made of. So the keys that are down say which results have yet to be
released, and which releases go nowhere.

## Main definitions

* `Consumed`: A press has gone into a combo.

## Theorems

* `Flushing.account`: Flushing keeps the account.
* `Flushed.ready`: And leaves no combo to be put into the ring.
-/

namespace K530

open Ring
open History

namespace Combos

variable {n w m : Nat} (combos : Fin n → Combo)

/-! ### The account -/

/-- The press went into a combo whose result was pressed and that has no other keys. -/
def Consumed (q : Combos n w m) (serial : Nat) : Prop :=
  history q.log (.key serial) = [] ∧
    ∃ i chord, history q.log (.result i chord) ≠ [] ∧ serial ∈ chord.map Prod.fst ∧
      ∀ key ∈ (combos i).keys, key ∈ chord.map Prod.snd

structure Queued (q : Combos n w m) (held : List (Nat × Keycode)) (serials : Nat) : Prop where
  keys : ∀ h ∈ held, h.1 < serials ∧ h.2 ≠ comboEnd
  apart : held.Pairwise (fun a b => a.1 ≠ b.1 ∧ a.2 ≠ b.2)
  records : ∀ r ∈ q.keyBuffer, r.press ∈ held ∧ r.time ≠ 0 ∧ r.comboIndex = none
  distinct : q.keyBuffer.Pairwise (fun a b => a.serial ≠ b.serial ∧ a.keycode ≠ b.keycode)
  enabled : q.keyBuffer ≠ [] → q.enabled = true

structure Bits (q : Combos n w m) (down : List (Nat × Keycode)) : Prop where
  waiting : ∀ i, (q.combos i).active = false → ∀ j, (q.combos i).state.getLsbD j = true →
    ∃ r ∈ q.keyBuffer, r.press ∈ down ∧ (combos i).keyIndex r.keycode = some j
  complete : ∀ i, (q.combos i).disabled = false → ∀ r ∈ q.keyBuffer, r.press ∈ down →
    ∀ j, (combos i).keyIndex r.keycode = some j → j < w → (q.combos i).state.getLsbD j = true
  disabled : ∀ i, (q.combos i).active = true → (q.combos i).disabled = true
  chorded : ∀ i, (q.combos i).active = true → ∀ j, (q.combos i).state.getLsbD j = true ↔
    ∃ h ∈ down, h ∈ q.chord i ∧ (combos i).keyIndex h.2 = some j
  left : ∀ i, (q.combos i).active = true → ∃ j, (q.combos i).state.getLsbD j = true

structure Results (q : Combos n w m) (serials : Nat) : Prop where
  pressed : ∀ i, (q.combos i).active = true → history q.log (.result i (q.chord i)) = [true]
  covers : ∀ i, (q.combos i).active = true →
    (∀ key ∈ (combos i).keys, key ∈ (q.chord i).map Prod.snd) ∧
      ∀ h ∈ q.chord i, ∃ j, (combos i).keyIndex h.2 = some j
  results : ∀ i chord, history q.log (.result i chord) = [] ∨
    history q.log (.result i chord) = [true, false] ∨
      (q.combos i).active = true ∧ chord = q.chord i
  fresh : ∀ i chord, history q.log (.result i chord) ≠ [] → ∀ h ∈ chord,
    h.1 < serials ∧ history q.log (.key h.1) = [] ∧ ∀ r ∈ q.keyBuffer, r.serial ≠ h.1

structure Presses (q : Combos n w m) (held down : List (Nat × Keycode)) (serials : Nat) :
    Prop where
  unpressed : ∀ serial, serials ≤ serial → history q.log (.key serial) = []
  pending : ∀ r ∈ q.keyBuffer, history q.log (.key r.serial) = []
  status : ∀ h ∈ held, (∃ r ∈ q.keyBuffer, r.press = h) ∨ history q.log (.key h.1) = [true] ∨
    q.Consumed combos h.1 ∧ (h ∈ down → ∃ i, (q.combos i).active = true ∧ h ∈ q.chord i)
  gone : ∀ serial < serials, (∀ h ∈ held, h.1 ≠ serial) →
    history q.log (.key serial) = [true, false] ∨ q.Consumed combos serial

structure Account (q : Combos n w m) (held down : List (Nat × Keycode)) (serials : Nat) :
    Prop extends Queued q held serials, Bits combos q down, Results combos q serials,
      Presses combos q held down serials where
  known : ∀ h ∈ down, h ∈ held

variable {combos} {q q' : Combos n w m} {held down : List (Nat × Keycode)} {serials : Nat}

theorem Queued.apart_of_ne (hq : Queued q held serials) {a b : Nat × Keycode} (ha : a ∈ held)
    (hb : b ∈ held) (h : a ≠ b) : a.1 ≠ b.1 ∧ a.2 ≠ b.2 := by
  have hsymm : Std.Symm (fun a b : Nat × Keycode => a.1 ≠ b.1 ∧ a.2 ≠ b.2) :=
    ⟨fun a b hab => ⟨hab.1.symm, hab.2.symm⟩⟩
  exact hq.apart.forall ha hb h

theorem Queued.eq_of_keycode (hq : Queued q held serials) {a b : Nat × Keycode} (ha : a ∈ held)
    (hb : b ∈ held) (h : a.2 = b.2) : a = b := by
  by_contra hne
  exact (hq.apart_of_ne ha hb hne).2 h

theorem Queued.eq_of_index (hq : Queued q held serials) {a b : Nat × Keycode} (ha : a ∈ held)
    (hb : b ∈ held) (i : Fin n) (j : Nat) (hja : (combos i).keyIndex a.2 = some j)
    (hjb : (combos i).keyIndex b.2 = some j) : a = b :=
  hq.eq_of_keycode ha hb
    ((combos i).keyIndex_inj _ _ (hq.keys a ha).2 (hq.keys b hb).2 j hja hjb)

theorem Queued.eq_of_serial (hq : Queued q held serials) {r r' : QueuedRecord n}
    (hr : r ∈ q.keyBuffer) (hr' : r' ∈ q.keyBuffer) (h : r.serial = r'.serial) : r = r' := by
  have hsymm : Std.Symm (fun a b : QueuedRecord n => a.serial ≠ b.serial ∧ a.keycode ≠ b.keycode) :=
    ⟨fun a b hab => ⟨hab.1.symm, hab.2.symm⟩⟩
  by_contra hne
  exact (hq.distinct.forall hr hr' hne).1 h

theorem Queued.keycode_ne (hq : Queued q held serials) {r : QueuedRecord n}
    (hr : r ∈ q.keyBuffer) : r.keycode ≠ comboEnd :=
  (hq.keys _ (hq.records r hr).1).2

theorem Queued.serial_lt (hq : Queued q held serials) {r : QueuedRecord n}
    (hr : r ∈ q.keyBuffer) : r.serial < serials :=
  (hq.keys _ (hq.records r hr).1).1

theorem Bits.idle (hb : Bits combos q down) {i : Fin n} (h : (q.combos i).disabled = false) :
    (q.combos i).active = false := by
  refine Bool.eq_false_of_not_eq_true (fun hon => ?_)
  exact Bool.false_ne_true (h.symm.trans (hb.disabled i hon))

theorem Results.chord_lt (hr : Results combos q serials) {i : Fin n}
    (hi : (q.combos i).active) {a : Nat × Keycode} (ha : a ∈ q.chord i) : a.1 < serials := by
  refine (hr.fresh i (q.chord i) ?_ a ha).1
  rw [hr.pressed i hi]
  exact List.cons_ne_nil _ _

variable {i : Fin n}

theorem mem_chordOf {rs : List (QueuedRecord n)} {h : Nat × Keycode} :
    h ∈ (combos i).chordOf rs ↔ ∃ r ∈ rs, (combos i).has r ∧ r.press = h := by
  unfold Combo.chordOf
  simp only [List.mem_map, List.mem_filter, and_assoc]

theorem applies_iff : q.applies combos i ↔
    (q.combos i).disabled = false ∧ allWaiting combos q.keyBuffer i := by
  unfold applies
  rw [Bool.and_eq_true, Bool.not_eq_true']

variable [NeZero m]

theorem mem_taken : i ∈ q.taken combos ↔ i ∈ q.prepared ∧
    (q.combos i).disabled = false ∧ allWaiting combos q.keyBuffer i := by
  unfold taken
  rw [mem_applied, applies_iff]

theorem key_mem_outcomes (serial : Nat) :
    .key serial ∈ q.keyBuffer.filterMap (q.outcome combos) ↔
      ∃ r ∈ q.keyBuffer, r.serial = serial ∧ ∀ i ∈ q.taken combos, (combos i).has r = false := by
  rw [List.mem_filterMap]
  refine exists_congr (fun r => and_congr_right (fun _ => ?_))
  rw [outcome_key, and_comm]

theorem result_mem_outcomes (i : Fin n) (chord : List (Nat × Keycode))
    (h : .result i chord ∈ q.keyBuffer.filterMap (q.outcome combos)) :
    i ∈ q.taken combos ∧ chord = (combos i).chordOf q.keyBuffer := by
  obtain ⟨r, -, hout⟩ := List.mem_filterMap.mp h
  obtain ⟨hi, -, hchord⟩ := outcome_result q r i chord hout
  exact ⟨hi, hchord⟩

/-! ### Flushing -/

variable (combos) in
structure Ready (q : Combos n w m) : Prop where
  fits : ∀ i ∈ q.prepared, (combos i).Fits w
  ringed : q.Ringed combos
  apart : q.Apart combos

variable (combos) in
structure Flushing (q q' : Combos n w m) (held down : List (Nat × Keycode)) (serials : Nat) :
    Prop where
  before : Account combos q held down serials
  flushed : Flushed combos q q'
  whole : q.Whole combos
  remains : ∀ i ∈ q.taken combos, ∃ r ∈ q.keyBuffer, (combos i).has r = true ∧ r.press ∈ down

namespace Flushing

variable (f : Flushing combos q q' held down serials)

include f

theorem idle_of_taken (hi : i ∈ q.taken combos) : (q.combos i).active = false :=
  f.before.idle (mem_taken.mp hi).2.1

theorem active_cases (hi : (q'.combos i).active) :
    i ∈ q.taken combos ∨ i ∉ q.taken combos ∧ (q.combos i).active := by
  by_cases htaken : i ∈ q.taken combos
  · exact Or.inl htaken
  · refine Or.inr ⟨htaken, ?_⟩
    by_contra hcon
    rw [f.flushed.reset i (Bool.eq_false_of_not_eq_true hcon) htaken] at hi
    exact Bool.false_ne_true hi

theorem history (x : ComboOutcome n) : History.history q'.log x = History.history q.log x ++
    if x ∈ q.keyBuffer.filterMap (q.outcome combos) then [true] else [] := by
  rw [f.flushed.log, history_append,
    history_each true _ _ (f.whole.outcomes_nodup (f.before.distinct.imp And.left))]

theorem delivered {x : ComboOutcome n} (h : History.history q.log x ≠ []) :
    History.history q'.log x ≠ [] := by
  rw [f.history x]
  exact fun hcon => h (List.append_eq_nil_iff.mp hcon).1

theorem history_key {serial : Nat} (h : ∀ r ∈ q.keyBuffer, r.serial ≠ serial) :
    History.history q'.log (.key serial) = History.history q.log (.key serial) := by
  rw [f.history, if_neg, List.append_nil]
  rw [key_mem_outcomes]
  rintro ⟨r, hr, heq, -⟩
  exact h r hr heq

theorem history_pending {r : QueuedRecord n} (hr : r ∈ q.keyBuffer) :
    History.history q'.log (.key r.serial) =
      if ∃ i ∈ q.taken combos, (combos i).has r = true then [] else [true] := by
  rw [f.history, f.before.pending r hr, List.nil_append]
  by_cases htook : ∃ i ∈ q.taken combos, (combos i).has r
  · rw [if_pos htook, if_neg]
    rw [key_mem_outcomes]
    rintro ⟨r', hr', heq, hnone⟩
    obtain ⟨i, htaken, hhas⟩ := htook
    rw [f.before.eq_of_serial hr' hr heq] at hnone
    exact Bool.false_ne_true ((hnone i htaken).symm.trans hhas)
  · rw [if_neg htook, if_pos]
    refine (key_mem_outcomes _).mpr ⟨r, hr, rfl, fun i hi => ?_⟩
    exact Bool.eq_false_of_not_eq_true (fun hcon => htook ⟨i, hi, hcon⟩)

theorem chord_of_taken (hi : i ∈ q.taken combos) : q'.chord i = (combos i).chordOf q.keyBuffer := by
  rw [f.flushed.chord, if_pos hi]

theorem chord_of_active (hi : (q.combos i).active) : q'.chord i = q.chord i := by
  rw [f.flushed.chord, if_neg]
  exact fun hcon => Bool.false_ne_true ((f.idle_of_taken hcon).symm.trans hi)

theorem covers_of_taken (hi : i ∈ q.taken combos) :
    ∀ key ∈ (combos i).keys, key ∈ ((combos i).chordOf q.keyBuffer).map Prod.snd := by
  intro key hkey
  obtain ⟨r, hr, heq⟩ := (allWaiting_iff combos _ _).mp (mem_taken.mp hi).2.2 key hkey
  have hhas := ((combos i).has_iff r (f.whole.keycode_ne r hr)).mpr (heq ▸ hkey)
  exact List.mem_map.mpr ⟨r.press, mem_chordOf.mpr ⟨r, hr, hhas, rfl⟩, heq⟩

theorem history_result (hi : i ∈ q.taken combos) :
    History.history q'.log (.result i ((combos i).chordOf q.keyBuffer)) = [true] := by
  rw [f.history, if_pos (f.whole.result_mem i hi)]
  by_cases hold : History.history q.log (.result i ((combos i).chordOf q.keyBuffer)) = []
  · rw [hold, List.nil_append]
  · obtain ⟨r, hr, hhas, -⟩ := f.remains i hi
    exact absurd rfl ((f.before.fresh i _ hold r.press
      (mem_chordOf.mpr ⟨r, hr, hhas, rfl⟩)).2.2 r hr)

theorem bits : Bits combos q' down where
  waiting i hoff j hj := by
    have hnot : i ∉ q.taken combos := by
      intro hi
      rw [f.flushed.activated i hi] at hoff
      exact Bool.false_ne_true hoff.symm
    have hwas : (q.combos i).active = false := by
      refine Bool.eq_false_of_not_eq_true (fun hcon => ?_)
      rw [f.flushed.kept i hcon, hcon] at hoff
      exact Bool.false_ne_true hoff.symm
    rw [f.flushed.reset i hwas hnot] at hj
    simp [ComboState.init] at hj
  complete i _ r hr := by
    rw [f.flushed.keyBuffer] at hr
    exact absurd hr List.not_mem_nil
  disabled i hi := by
    rcases f.active_cases hi with htaken | ⟨-, hon⟩
    · rw [f.flushed.activated i htaken]
    · rw [f.flushed.kept i hon]
      exact f.before.disabled i hon
  chorded i hi j := by
    rcases f.active_cases hi with htaken | ⟨-, hon⟩
    · rw [f.flushed.activated i htaken, f.chord_of_taken htaken]
      obtain ⟨hmem, hon, -⟩ := mem_taken.mp htaken
      constructor
      · intro hj
        obtain ⟨r, hr, hdown, hindex⟩ := f.before.waiting i (f.idle_of_taken htaken) j hj
        refine ⟨r.press, hdown, mem_chordOf.mpr ⟨r, hr, ?_, rfl⟩, hindex⟩
        unfold Combo.has
        rw [hindex, Option.isSome_some]
      · rintro ⟨h, hdown, hchord, hindex⟩
        obtain ⟨r, hr, -, rfl⟩ := mem_chordOf.mp hchord
        refine f.before.complete i hon r hr hdown j hindex ?_
        exact lt_of_lt_of_le ((combos i).keyIndex_lt _ (f.whole.keycode_ne r hr) j hindex)
          (f.whole.fits i hmem).length_le
    · rw [f.flushed.kept i hon, f.chord_of_active hon]
      exact f.before.chorded i hon j
  left i hi := by
    rcases f.active_cases hi with htaken | ⟨-, hon⟩
    · obtain ⟨hmem, hon, -⟩ := mem_taken.mp htaken
      rw [f.flushed.activated i htaken]
      obtain ⟨r, hr, hhas, hdown⟩ := f.remains i htaken
      obtain ⟨j, hj⟩ := Option.isSome_iff_exists.mp hhas
      refine ⟨j, f.before.complete i hon r hr hdown j hj ?_⟩
      exact lt_of_lt_of_le ((combos i).keyIndex_lt _ (f.whole.keycode_ne r hr) j hj)
        (f.whole.fits i hmem).length_le
    · rw [f.flushed.kept i hon]
      exact f.before.left i hon

theorem results : Results combos q' serials where
  pressed i hi := by
    rcases f.active_cases hi with htaken | ⟨hnot, hon⟩
    · rw [f.chord_of_taken htaken]
      exact f.history_result htaken
    · rw [f.chord_of_active hon, f.history,
        if_neg (fun hmem => hnot (result_mem_outcomes i _ hmem).1), List.append_nil]
      exact f.before.pressed i hon
  covers i hi := by
    rcases f.active_cases hi with htaken | ⟨-, hon⟩
    · rw [f.chord_of_taken htaken]
      refine ⟨f.covers_of_taken htaken, fun h hh => ?_⟩
      obtain ⟨r, -, hhas, rfl⟩ := mem_chordOf.mp hh
      exact Option.isSome_iff_exists.mp hhas
    · rw [f.chord_of_active hon]
      exact f.before.covers i hon
  results i chord := by
    by_cases hmem : .result i chord ∈ q.keyBuffer.filterMap (q.outcome combos)
    · obtain ⟨htaken, hchord⟩ := result_mem_outcomes i chord hmem
      refine Or.inr (Or.inr ⟨?_, ?_⟩)
      · rw [f.flushed.activated i htaken]
      · rw [f.chord_of_taken htaken]
        exact hchord
    · rw [f.history, if_neg hmem, List.append_nil]
      refine (f.before.results i chord).imp_right (Or.imp_right (fun hcur => ?_))
      rw [f.flushed.kept i hcur.1, f.chord_of_active hcur.1]
      exact hcur
  fresh i chord hne h hh := by
    refine (?_ : _ ∧ _).imp_right (fun hkey => ⟨hkey, fun r hr => ?_⟩)
    · by_cases hold : History.history q.log (.result i chord) = []
      · -- one that has just been made
        have hmem : .result i chord ∈ q.keyBuffer.filterMap (q.outcome combos) := by
          by_contra hnot
          rw [f.history, hold, if_neg hnot] at hne
          exact hne rfl
        obtain ⟨htaken, rfl⟩ := result_mem_outcomes i chord hmem
        obtain ⟨r, hr, hhas, rfl⟩ := mem_chordOf.mp hh
        refine ⟨f.before.serial_lt hr, ?_⟩
        exact (f.history_pending hr).trans (if_pos ⟨i, htaken, hhas⟩)
      · obtain ⟨hlt, hkey, hno⟩ := f.before.fresh i chord hold h hh
        exact ⟨hlt, (f.history_key hno).trans hkey⟩
    · rw [f.flushed.keyBuffer] at hr
      exact absurd hr List.not_mem_nil

theorem consumed {serial : Nat} (h : q.Consumed combos serial) : q'.Consumed combos serial := by
  obtain ⟨hkey, i, chord, hne, hmem, hall⟩ := h
  obtain ⟨a, ha, rfl⟩ := List.mem_map.mp hmem
  refine ⟨?_, i, chord, f.delivered hne, hmem, hall⟩
  rw [f.history_key (f.before.fresh i chord hne a ha).2.2]
  exact hkey

theorem consumed_of_taken (hi : i ∈ q.taken combos) {r : QueuedRecord n} (hr : r ∈ q.keyBuffer)
    (hhas : (combos i).has r) :
    q'.Consumed combos r.serial ∧ (q'.combos i).active ∧ r.press ∈ q'.chord i := by
  have hmem : r.press ∈ (combos i).chordOf q.keyBuffer := mem_chordOf.mpr ⟨r, hr, hhas, rfl⟩
  refine ⟨⟨(f.history_pending hr).trans (if_pos ⟨i, hi, hhas⟩), i,
    (combos i).chordOf q.keyBuffer, ?_, List.mem_map.mpr ⟨r.press, hmem, rfl⟩,
    f.covers_of_taken hi⟩, ?_, ?_⟩
  · rw [f.history_result hi]
    exact List.cons_ne_nil _ _
  · rw [f.flushed.activated i hi]
  · rw [f.chord_of_taken hi]
    exact hmem

theorem presses : Presses combos q' held down serials where
  unpressed serial hserial := by
    rw [f.history_key]
    · exact f.before.unpressed serial hserial
    · rintro r hr rfl
      exact absurd (f.before.serial_lt hr) (Nat.not_lt.mpr hserial)
  pending r hr := by
    rw [f.flushed.keyBuffer] at hr
    exact absurd hr List.not_mem_nil
  status h hh := by
    refine Or.inr ?_
    by_cases hwaits : ∃ r ∈ q.keyBuffer, r.press = h
    · obtain ⟨r, hr, rfl⟩ := hwaits
      by_cases htook : ∃ i ∈ q.taken combos, (combos i).has r
      · obtain ⟨i, htaken, hhas⟩ := htook
        obtain ⟨hconsumed, hactive, hmem⟩ := f.consumed_of_taken htaken hr hhas
        exact Or.inr ⟨hconsumed, fun _ => ⟨i, hactive, hmem⟩⟩
      · exact Or.inl ((f.history_pending hr).trans (if_neg htook))
    · have hno : ∀ r ∈ q.keyBuffer, r.serial ≠ h.1 := by
        intro r hr heq
        refine hwaits ⟨r, hr, ?_⟩
        by_contra hne
        exact (f.before.apart_of_ne (f.before.records r hr).1 hh hne).1 heq
      rcases f.before.status h hh with hcon | htrue | ⟨hcons, hdown⟩
      · exact absurd hcon hwaits
      · exact Or.inl ((f.history_key hno).trans htrue)
      · refine Or.inr ⟨f.consumed hcons, fun hd => ?_⟩
        obtain ⟨i, hon, hchord⟩ := hdown hd
        refine ⟨i, ?_, ?_⟩
        · rw [f.flushed.kept i hon]
          exact hon
        · rw [f.chord_of_active hon]
          exact hchord
  gone serial hserial hnone := by
    rw [f.history_key]
    · exact (f.before.gone serial hserial hnone).imp_right f.consumed
    · intro r hr heq
      exact hnone _ (f.before.records r hr).1 heq

theorem account : Account combos q' held down serials where
  toBits := f.bits
  toResults := f.results
  toPresses := f.presses
  keys := f.before.keys
  apart := f.before.apart
  records r hr := by
    rw [f.flushed.keyBuffer] at hr
    exact absurd hr List.not_mem_nil
  distinct := by
    rw [f.flushed.keyBuffer]
    exact List.Pairwise.nil
  enabled hne := absurd f.flushed.keyBuffer hne
  known := f.before.known

end Flushing

theorem Flushed.not_down (h : Flushed combos q q')
    (hactive : ∀ i, (q.combos i).active → (q.combos i).disabled) {i : Fin n}
    (hkeys : (combos i).keys ≠ []) (hon : (q'.combos i).disabled = false) :
    ComboState.allDown (q'.combos i).state (combos i).keys.length = false := by
  refine Bool.eq_false_of_not_eq_true (fun hall => ?_)
  have hoff : (q.combos i).active = false := by
    refine Bool.eq_false_of_not_eq_true (fun hcon => ?_)
    rw [h.kept i hcon] at hon
    exact Bool.false_ne_true (hon.symm.trans (hactive i hcon))
  by_cases htaken : i ∈ q.taken combos
  · rw [h.activated i htaken] at hon
    exact Bool.false_ne_true hon.symm
  · rw [h.reset i hoff htaken] at hall
    have hbit := (ComboState.allDown_iff _ _).mp hall 0
    rw [decide_eq_true (List.length_pos_iff.mpr hkeys)] at hbit
    simp [ComboState.init] at hbit

theorem Flushed.ready (h : Flushed combos q q') (hfits : ∀ i ∈ q.prepared, (combos i).Fits w)
    (hactive : ∀ i, (q.combos i).active → (q.combos i).disabled) :
    Ready combos q' where
  fits i hi := hfits i (h.sub.subset hi)
  ringed i hkeys hon hall := by
    rw [h.not_down hactive hkeys hon] at hall
    exact absurd hall Bool.false_ne_true
  apart i _ j _ hon _ hall _ hshare := by
    obtain ⟨key, hkey, -⟩ := hshare
    rw [h.not_down hactive (List.ne_nil_of_mem hkey) hon] at hall
    exact absurd hall Bool.false_ne_true

end Combos

end K530
