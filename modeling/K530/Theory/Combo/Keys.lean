import K530.Theory.Combo.Account

/-!
# Keys Up and Down

What the loops of a release and of a press do to the account.

The release of a key takes its bit from every combo. A combo that is active and loses its last
bit has its result released; one that is not has a bit less. The buffer is as it was, and so
for a moment a press waits whose key is up: `down` is what is held without it.

The press of a key sets bits, and the press is put into the buffer.

## Main definitions

* `Raising`: A key that is held has gone up in all of the combos.

## Theorems

* `Raising.account`, `Lowering.account`: The account after it.
* `Raising.ready`, `Lowering.ready`: And the ring.
-/

namespace K530

open Ring
open History

namespace Combos

variable {n w m : Nat} [NeZero m] {combos : Fin n → Combo}

/-! ### A key goes up -/

theorem Raised.history_key {keycode : Keycode} {q q' : Combos n w m}
    (h : Raised combos keycode (List.finRange n) q q') (serial : Nat) :
    history q'.log (.key serial) = history q.log (.key serial) := by
  rw [h.log, history_append]
  have hnone : history (((List.finRange n).filter (q.lets combos keycode)).map
      (fun i => (false, ComboOutcome.result i (q.chord i)))) (.key serial) = [] := by
    unfold history
    simp
  rw [hnone, List.append_nil]

theorem Raised.history_result {keycode : Keycode} {q q' : Combos n w m}
    (h : Raised combos keycode (List.finRange n) q q') (i : Fin n)
    (chord : List (Nat × Keycode)) :
    history q'.log (.result i chord) = history q.log (.result i chord) ++
      if q.lets combos keycode i = true ∧ chord = q.chord i then [false] else [] := by
  have hmap : ((List.finRange n).filter (q.lets combos keycode)).map
        (fun i => (false, ComboOutcome.result i (q.chord i))) =
      (((List.finRange n).filter (q.lets combos keycode)).map
        (fun i => ComboOutcome.result i (q.chord i))).map (Prod.mk false) := by
    rw [List.map_map]
    rfl
  have hnodup : (((List.finRange n).filter (q.lets combos keycode)).map
      (fun i => ComboOutcome.result i (q.chord i))).Nodup := by
    refine ((List.nodup_finRange n).filter _).map (fun a b hab => ?_)
    simp only [ComboOutcome.result.injEq] at hab
    exact hab.1
  rw [h.log, history_append, hmap, history_each false _ _ hnodup]
  congr 1
  refine if_congr ?_ rfl rfl
  simp only [List.mem_map, List.mem_filter, List.mem_finRange, true_and,
    ComboOutcome.result.injEq]
  constructor
  · rintro ⟨j, hj, rfl, hchord⟩
    exact ⟨hj, hchord.symm⟩
  · rintro ⟨hi, rfl⟩
    exact ⟨i, hi, rfl, rfl⟩

theorem Raised.consumed {keycode : Keycode} {q q' : Combos n w m}
    (h : Raised combos keycode (List.finRange n) q q') {serial : Nat}
    (hconsumed : q.Consumed combos serial) : q'.Consumed combos serial := by
  obtain ⟨hkey, i, chord, hresult, hrest⟩ := hconsumed
  refine ⟨(h.history_key serial).trans hkey, i, chord, ?_, hrest⟩
  rw [h.history_result]
  exact fun hcon => hresult (List.append_eq_nil_iff.mp hcon).1

variable (combos) in
structure Raising (q q' : Combos n w m) (held : List (Nat × Keycode)) (serials : Nat)
    (h : Nat × Keycode) : Prop where
  before : Account combos q held held serials
  mem : h ∈ held
  raised : Raised combos h.2 (List.finRange n) q q'

variable {q q' : Combos n w m} {held down : List (Nat × Keycode)} {serials : Nat}
  {h : Nat × Keycode}

omit [NeZero m] in
theorem Queued.mem_erase (hq : Queued q held serials) (h a : Nat × Keycode) :
    a ∈ held.erase h ↔ a ≠ h ∧ a ∈ held := by
  have hnodup : held.Nodup := hq.apart.imp (fun hab heq => hab.1 (congrArg Prod.fst heq))
  exact hnodup.mem_erase_iff

namespace Raising

variable (f : Raising combos q q' held serials h)

include f

theorem state (i : Fin n) : q'.combos i = q.raise combos h.2 i := by
  rw [f.raised.states i, if_pos (List.mem_finRange i)]

theorem bit (i : Fin n) (j : Nat) : (q'.combos i).state.getLsbD j ↔
    (q.combos i).state.getLsbD j ∧ (combos i).keyIndex h.2 ≠ some j := by
  rw [f.state i, raise_state]

theorem active (i : Fin n) : (q'.combos i).active ↔
    (q.combos i).active ∧ q.lets combos h.2 i = false := by
  rw [f.state i, raise_active]

theorem disabled (i : Fin n) : (q'.combos i).disabled = (q.combos i).disabled := by
  rw [f.state i, raise_disabled]

theorem index_ne {a : Nat × Keycode} (ha : a ∈ held) {i : Fin n} {j : Nat}
    (hj : (combos i).keyIndex a.2 = some j) : (combos i).keyIndex h.2 ≠ some j ↔ a ≠ h := by
  refine not_congr ⟨fun hcon => ?_, fun hcon => ?_⟩
  · exact f.before.eq_of_index ha f.mem i j hj hcon
  · rw [← hcon]
    exact hj

theorem last {i : Fin n} (hlets : q.lets combos h.2 i) {a : Nat × Keycode} (ha : a ∈ held)
    (hchord : a ∈ q.chord i) : a = h := by
  obtain ⟨hon, index, hindex, -, hone⟩ := (lets_iff h.2 i q).mp hlets
  obtain ⟨j, hj⟩ := (f.before.covers i hon).2 a hchord
  have hset := (f.before.chorded i hon j).mpr ⟨a, ha, hchord, hj⟩
  rw [hone j hset] at hj
  exact f.before.eq_of_index ha f.mem i index hj hindex

theorem bits : Bits combos q' (held.erase h) where
  waiting i hidle j hj := by
    obtain ⟨hset, hne⟩ := (f.bit i j).mp hj
    rw [f.raised.keyBuffer]
    cases hon : (q.combos i).active with
    | false =>
      obtain ⟨r, hr, hheld, hindex⟩ := f.before.waiting i hon j hset
      exact ⟨r, hr, (f.before.mem_erase h _).mpr ⟨(f.index_ne hheld hindex).mp hne, hheld⟩,
        hindex⟩
    | true =>
      -- the last key of a chord leaves no bit
      have hlets : q.lets combos h.2 i := by
        by_contra hcon
        have hstill := (f.active i).mpr ⟨hon, Bool.eq_false_of_not_eq_true hcon⟩
        exact Bool.false_ne_true (hidle.symm.trans hstill)
      obtain ⟨-, index, hindex, -, hone⟩ := (lets_iff h.2 i q).mp hlets
      rw [hone j hset] at hne
      exact absurd hindex hne
  complete i hon r hr hdown j hj hlt := by
    rw [f.raised.keyBuffer] at hr
    rw [f.disabled] at hon
    obtain ⟨hne, hheld⟩ := (f.before.mem_erase h _).mp hdown
    refine (f.bit i j).mpr ⟨f.before.complete i hon r hr hheld j hj hlt, ?_⟩
    exact (f.index_ne hheld hj).mpr hne
  disabled i hi := by
    rw [f.disabled]
    exact f.before.disabled i ((f.active i).mp hi).1
  chorded i hi j := by
    rw [f.bit, f.before.chorded i ((f.active i).mp hi).1 j, f.raised.chord]
    constructor
    · rintro ⟨⟨a, ha, hchord, hj⟩, hne⟩
      exact ⟨a, (f.before.mem_erase h a).mpr ⟨(f.index_ne ha hj).mp hne, ha⟩, hchord, hj⟩
    · rintro ⟨a, ha, hchord, hj⟩
      obtain ⟨hne, hheld⟩ := (f.before.mem_erase h a).mp ha
      exact ⟨⟨a, hheld, hchord, hj⟩, (f.index_ne hheld hj).mpr hne⟩
  left i hi := by
    obtain ⟨hon, hlets⟩ := (f.active i).mp hi
    obtain ⟨j, hj⟩ := f.before.left i hon
    by_cases hindex : (combos i).keyIndex h.2 = some j
    · -- another key is down, or the result had been released
      by_contra hnone
      refine Bool.false_ne_true (hlets.symm.trans ((lets_iff h.2 i q).mpr
        ⟨hon, j, hindex, hj, fun k hk => ?_⟩))
      by_contra hkj
      refine hnone ⟨k, (f.bit i k).mpr ⟨hk, fun hcon => hkj ?_⟩⟩
      exact Option.some.inj (hcon.symm.trans hindex)
    · exact ⟨j, (f.bit i j).mpr ⟨hj, hindex⟩⟩

theorem results : Results combos q' serials where
  pressed i hi := by
    obtain ⟨hon, hlets⟩ := (f.active i).mp hi
    rw [f.raised.history_result, f.raised.chord, f.before.pressed i hon, hlets]
    simp
  covers i hi := by
    rw [f.raised.chord]
    exact f.before.covers i ((f.active i).mp hi).1
  results i chord := by
    rw [f.raised.history_result]
    by_cases hlets : q.lets combos h.2 i ∧ chord = q.chord i
    · rw [if_pos hlets, hlets.2, f.before.pressed i ((lets_iff h.2 i q).mp hlets.1).1]
      exact Or.inr (Or.inl rfl)
    · rw [if_neg hlets, List.append_nil]
      refine (f.before.results i chord).imp_right (Or.imp_right (fun hcur => ?_))
      rw [f.raised.chord, f.active]
      refine ⟨⟨hcur.1, Bool.eq_false_of_not_eq_true (fun hcon => hlets ⟨hcon, hcur.2⟩)⟩, hcur.2⟩
  fresh i chord hne a ha := by
    rw [f.raised.history_key, f.raised.keyBuffer]
    refine f.before.fresh i chord (fun hcon => hne ?_) a ha
    rw [f.raised.history_result, hcon, List.nil_append, if_neg]
    rintro ⟨hlets, rfl⟩
    have hpressed := f.before.pressed i ((lets_iff h.2 i q).mp hlets).1
    rw [hcon] at hpressed
    exact absurd hpressed (by simp)

theorem presses : Presses combos q' held (held.erase h) serials where
  unpressed serial hserial :=
    (f.raised.history_key serial).trans (f.before.unpressed serial hserial)
  pending r hr := by
    rw [f.raised.keyBuffer] at hr
    exact (f.raised.history_key _).trans (f.before.pending r hr)
  status a ha := by
    rw [f.raised.keyBuffer, f.raised.history_key, f.raised.chord]
    refine (f.before.status a ha).imp_right (Or.imp_right (fun hconsumed => ?_))
    refine ⟨f.raised.consumed hconsumed.1, fun hdown => ?_⟩
    obtain ⟨hne, hheld⟩ := (f.before.mem_erase h a).mp hdown
    obtain ⟨i, hon, hchord⟩ := hconsumed.2 hheld
    refine ⟨i, (f.active i).mpr ⟨hon, Bool.eq_false_of_not_eq_true (fun hlets => hne ?_)⟩, hchord⟩
    exact f.last hlets hheld hchord
  gone serial hserial hnone := by
    rw [f.raised.history_key]
    exact (f.before.gone serial hserial hnone).imp_right f.raised.consumed

theorem account : Account combos q' held (held.erase h) serials where
  toBits := f.bits
  toResults := f.results
  toPresses := f.presses
  keys := f.before.keys
  apart := f.before.apart
  records := by
    rw [f.raised.keyBuffer]
    exact f.before.records
  distinct := by
    rw [f.raised.keyBuffer]
    exact f.before.distinct
  enabled := by
    rw [f.raised.keyBuffer, f.raised.enabled]
    exact f.before.enabled
  known a ha := ((f.before.mem_erase h a).mp ha).2

theorem allDown {i : Fin n}
    (hall : ComboState.allDown (q'.combos i).state (combos i).keys.length = true) :
    ComboState.allDown (q.combos i).state (combos i).keys.length = true := by
  cases hindex : (combos i).keyIndex h.2 with
  | none =>
    rw [f.state i, (raise_none h.2 i q hindex).1] at hall
    exact hall
  | some index =>
    have hset := (ComboState.allDown_iff _ _).mp hall index
    have hlt := (combos i).keyIndex_lt h.2 (f.before.keys h f.mem).2 index hindex
    rw [decide_eq_true hlt] at hset
    exact absurd hindex ((f.bit i index).mp hset).2

theorem ready (hready : Ready combos q) : Ready combos q' where
  fits i hi := hready.fits i (f.raised.sub.subset hi)
  ringed i hkeys hon hall := by
    rw [f.disabled] at hon
    exact f.raised.keeps i (hready.ringed i hkeys hon (f.allDown hall)) hon
  apart i hi j hj hon hon' hall hall' hshare := by
    rw [f.disabled] at hon hon'
    exact hready.apart i (f.raised.sub.subset hi) j (f.raised.sub.subset hj) hon hon'
      (f.allDown hall) (f.allDown hall') hshare

end Raising

/-! ### Where a release goes -/

omit [NeZero m] in
theorem Account.waiting_of_allDown (h : Account combos q held held serials) {i : Fin n}
    (hidle : (q.combos i).active = false)
    (hall : ComboState.allDown (q.combos i).state (combos i).keys.length = true) :
    allWaiting combos q.keyBuffer i := by
  rw [allWaiting_iff]
  intro key hkey
  obtain ⟨j, hj⟩ := (combos i).exists_keyIndex key hkey
  have hne := (combos i).keys_ne key hkey
  have hset := (ComboState.allDown_iff _ _).mp hall j
  rw [decide_eq_true ((combos i).keyIndex_lt key hne j hj)] at hset
  obtain ⟨r, hr, -, hindex⟩ := h.waiting i hidle j hset
  exact ⟨r, hr, (combos i).keyIndex_inj _ _ (h.keycode_ne hr) hne j hindex hj⟩

omit [NeZero m] in
theorem Account.allDown_of_waiting (h : Account combos q held held serials) {i : Fin n}
    (hfits : (combos i).Fits w) (hon : (q.combos i).disabled = false)
    (hwaits : allWaiting combos q.keyBuffer i) :
    ComboState.allDown (q.combos i).state (combos i).keys.length = true := by
  rw [ComboState.allDown_iff]
  intro j
  rw [Bool.eq_iff_iff, decide_eq_true_eq]
  constructor
  · intro hj
    obtain ⟨r, hr, -, hindex⟩ := h.waiting i (h.idle hon) j hj
    exact (combos i).keyIndex_lt _ (h.keycode_ne hr) j hindex
  · intro hj
    have hget : (combos i).keys[j]? = some (combos i).keys[j] := List.getElem?_eq_getElem hj
    obtain ⟨r, hr, hkey⟩ := (allWaiting_iff combos _ _).mp hwaits _ (List.getElem_mem hj)
    rw [← hkey] at hget
    exact h.complete i hon r hr (h.records r hr).1 j (hfits.keyIndex_of_get _ j hget)
      (lt_of_lt_of_le hj hfits.length_le)

omit [NeZero m] in
theorem Account.pending_of_bit (h : Account combos q held held serials) {a : Nat × Keycode}
    (ha : a ∈ held) {i : Fin n} (hidle : (q.combos i).active = false) {j : Nat}
    (hindex : (combos i).keyIndex a.2 = some j) (hj : (q.combos i).state.getLsbD j) :
    ∃ r ∈ q.keyBuffer, r.press = a := by
  obtain ⟨r, hr, hheld, hindex'⟩ := h.waiting i hidle j hj
  exact ⟨r, hr, h.eq_of_index hheld ha i j hindex' hindex⟩

omit [NeZero m] in
theorem Account.chord_of_bit (h : Account combos q held held serials) {a : Nat × Keycode}
    (ha : a ∈ held) {i : Fin n} (hon : (q.combos i).active) {j : Nat}
    (hindex : (combos i).keyIndex a.2 = some j) (hj : (q.combos i).state.getLsbD j) :
    a ∈ q.chord i ∧ history q.log (.key a.1) = [] ∧ ∀ r ∈ q.keyBuffer, r.serial ≠ a.1 := by
  obtain ⟨b, hb, hchord, hindex'⟩ := (h.chorded i hon j).mp hj
  obtain rfl := h.eq_of_index hb ha i j hindex' hindex
  refine ⟨hchord, (h.fresh i _ ?_ b hchord).2⟩
  rw [h.pressed i hon]
  exact List.cons_ne_nil _ _

omit [NeZero m] in
theorem counts_iff (keycode : Keycode) (i : Fin n) :
    q.counts combos keycode i ↔ ∃ index, (combos i).keyIndex keycode = some index ∧
      ((q.combos i).active ∧ (q.combos i).state.getLsbD index ∨
        ((q.combos i).active = false ∧
          ComboState.allDown (q.combos i).state (combos i).keys.length = true) ∧
          (q.combos i).disabled = false ∧ q.enabled) := by
  cases hindex : (combos i).keyIndex keycode with
  | none =>
    rw [(raise_none keycode i q hindex).2.2]
    simp
  | some index =>
    rw [counts_eq keycode i index q hindex]
    simp [and_assoc]

namespace Raising

variable {q'' : Combos n w m} (f : Raising combos q q' held serials h)

include f

theorem taken_of_counts (hready : Ready combos q) {i : Fin n} {r : QueuedRecord n}
    (hr : r ∈ q.keyBuffer) (hpress : r.press = h) (hcounts : q.counts combos h.2 i) :
    i ∈ q'.taken combos ∧ (combos i).has r := by
  obtain ⟨index, hindex, hwhy⟩ := (counts_iff h.2 i).mp hcounts
  have hhas : (combos i).has r := by
    have hkey : r.keycode = h.2 := congrArg Prod.snd hpress
    unfold Combo.has
    rw [hkey, hindex, Option.isSome_some]
  refine ⟨?_, hhas⟩
  rcases hwhy with ⟨hon, hset⟩ | ⟨⟨hidle, hall⟩, hon, -⟩
  · have hfresh := (f.before.chord_of_bit f.mem hon hindex hset).2.2 r hr
    exact absurd (congrArg Prod.fst hpress) hfresh
  · have hkeys := List.ne_nil_of_mem ((combos i).mem_keys_of_keyIndex h.2
      (f.before.keys h f.mem).2 index hindex)
    rw [mem_taken, f.disabled, f.raised.keyBuffer]
    exact ⟨f.raised.keeps i (hready.ringed i hkeys hon hall) hon, hon,
      f.before.waiting_of_allDown hidle hall⟩

theorem counts_of_taken (hfits : ∀ i ∈ q.prepared, (combos i).Fits w) {i : Fin n}
    {r : QueuedRecord n} (hr : r ∈ q.keyBuffer) (hpress : r.press = h)
    (htaken : i ∈ q'.taken combos) (hhas : (combos i).has r) :
    q.counts combos h.2 i := by
  rw [mem_taken, f.disabled, f.raised.keyBuffer] at htaken
  obtain ⟨hmem, hon, hwaits⟩ := htaken
  obtain ⟨index, hindex⟩ := Option.isSome_iff_exists.mp hhas
  have hkey : r.keycode = h.2 := congrArg Prod.snd hpress
  rw [hkey] at hindex
  refine (counts_iff h.2 i).mpr ⟨index, hindex, Or.inr ⟨⟨f.before.idle hon, ?_⟩, hon, ?_⟩⟩
  · exact f.before.allDown_of_waiting (hfits i (f.raised.sub.subset hmem)) hon hwaits
  · exact f.before.enabled (List.ne_nil_of_mem hr)

theorem released (hready : Ready combos q)
    (g : Flushing combos q' q'' held (held.erase h) serials) :
    ((List.finRange n).any (q.counts combos h.2) = true → q''.Consumed combos h.1) ∧
      ((List.finRange n).any (q.counts combos h.2) = false →
        history q''.log (.key h.1) = [true]) := by
  rcases f.before.status h f.mem with ⟨r, hr, hpress⟩ | htrue | ⟨hconsumed, hdown⟩
  · have hr' : r ∈ q'.keyBuffer := by
      rw [f.raised.keyBuffer]
      exact hr
    -- its press is kept, and its fate is that of the combos it counts for
    have hserial : r.serial = h.1 := congrArg Prod.fst hpress
    constructor
    · intro hany
      obtain ⟨i, -, hcounts⟩ := List.any_eq_true.mp hany
      obtain ⟨htaken, hhas⟩ := f.taken_of_counts hready hr hpress hcounts
      rw [← hserial]
      exact (g.consumed_of_taken htaken hr' hhas).1
    · intro hnone
      rw [← hserial, g.history_pending hr', if_neg]
      rintro ⟨i, htaken, hhas⟩
      have hcounts := f.counts_of_taken hready.fits hr hpress htaken hhas
      exact Bool.false_ne_true
        (hnone.symm.trans (List.any_eq_true.mpr ⟨i, List.mem_finRange i, hcounts⟩))
  · -- its press has been delivered, and no combo can have it any more
    have hno : ∀ r ∈ q.keyBuffer, r.serial ≠ h.1 := by
      intro r hr heq
      have hpending := f.before.pending r hr
      rw [heq, htrue] at hpending
      exact absurd hpending (List.cons_ne_nil _ _)
    constructor
    · intro hany
      obtain ⟨i, -, hcounts⟩ := List.any_eq_true.mp hany
      obtain ⟨index, hindex, hwhy⟩ := (counts_iff h.2 i).mp hcounts
      rcases hwhy with ⟨hon, hset⟩ | ⟨⟨hidle, hall⟩, -⟩
      · have hkey := (f.before.chord_of_bit f.mem hon hindex hset).2.1
        rw [htrue] at hkey
        exact absurd hkey (List.cons_ne_nil _ _)
      · have hset := (ComboState.allDown_iff _ _).mp hall index
        rw [decide_eq_true ((combos i).keyIndex_lt h.2 (f.before.keys h f.mem).2 index hindex)]
          at hset
        obtain ⟨r, hr, hpress⟩ := f.before.pending_of_bit f.mem hidle hindex hset
        exact absurd (congrArg Prod.fst hpress) (hno r hr)
    · intro _
      rw [g.history_key (by rw [f.raised.keyBuffer]; exact hno), f.raised.history_key]
      exact htrue
  · -- its press is in the chord of a combo that is on
    obtain ⟨i, hon, hchord⟩ := hdown f.mem
    obtain ⟨index, hindex⟩ := (f.before.covers i hon).2 h hchord
    have hset := (f.before.chorded i hon index).mpr ⟨h, f.mem, hchord, hindex⟩
    have hcounts := (counts_iff h.2 i).mpr ⟨index, hindex, Or.inl ⟨hon, hset⟩⟩
    have hany := List.any_eq_true.mpr ⟨i, List.mem_finRange i, hcounts⟩
    refine ⟨fun _ => g.consumed (f.raised.consumed hconsumed), fun hnone => ?_⟩
    exact absurd (hnone.symm.trans hany) Bool.false_ne_true

end Raising

/-! ### A key goes down -/

variable (combos) in
structure Lowering (q q' : Combos n w m) (held : List (Nat × Keycode)) (serials : Nat)
    (r : QueuedRecord n) : Prop where
  before : Account combos q held held serials
  enabled : q.enabled = true
  serial : r.serial = serials
  keycode_ne : r.keycode ≠ comboEnd
  up : ∀ a ∈ held, a.2 ≠ r.keycode
  waits : r.time ≠ 0 ∧ r.comboIndex = none
  pressed : Pressed combos r.keycode q q'
  took : ∀ j, (q'.combos j).disabled = false → ∀ b, (combos j).keyIndex r.keycode = some b →
    b < w → (q'.combos j).state.getLsbD b = true

def await (now : BitVec 16) (r : QueuedRecord n) (q : Combos n w m) : Combos n w m :=
  { q with timer := now, keyBuffer := q.keyBuffer ++ [r] }

namespace Lowering

variable {r : QueuedRecord n} (now : BitVec 16) (f : Lowering combos q q' held serials r)

include f

theorem mem_buffer (a : QueuedRecord n) :
    a ∈ (q'.await now r).keyBuffer ↔ a ∈ q.keyBuffer ∨ a = r := by
  unfold await
  rw [f.pressed.keyBuffer, List.mem_append, List.mem_singleton]

theorem active (i : Fin n) : ((q'.await now r).combos i).active = (q.combos i).active :=
  f.pressed.active i

theorem bits : Bits combos (q'.await now r) (r.press :: held) where
  waiting i hidle j hj := by
    rw [f.active now] at hidle
    rcases f.pressed.set i j hj with hold | ⟨-, hindex⟩
    · obtain ⟨a, ha, hheld, hindex⟩ := f.before.waiting i hidle j hold
      exact ⟨a, (f.mem_buffer now a).mpr (Or.inl ha), List.mem_cons_of_mem _ hheld, hindex⟩
    · exact ⟨r, (f.mem_buffer now r).mpr (Or.inr rfl), List.mem_cons_self, hindex⟩
  complete i hon a ha _ j hindex hlt := by
    rcases (f.mem_buffer now a).mp ha with hold | rfl
    · have hwas : (q.combos i).disabled = false := by
        refine Bool.eq_false_of_not_eq_true (fun hcon => ?_)
        exact Bool.false_ne_true (hon.symm.trans (f.pressed.disabled i hcon))
      exact f.pressed.kept i j
        (f.before.complete i hwas a hold (f.before.records a hold).1 j hindex hlt)
    · exact f.took i hon j hindex hlt
  disabled i hi := by
    rw [f.active now] at hi
    exact f.pressed.disabled i (f.before.disabled i hi)
  chorded i hi j := by
    rw [f.active now] at hi
    have hsame : (q'.combos i).state.getLsbD j ↔ (q.combos i).state.getLsbD j := by
      refine ⟨fun hj => ?_, f.pressed.kept i j⟩
      refine (f.pressed.set i j hj).resolve_right (fun hnew => ?_)
      exact Bool.false_ne_true (hnew.1.symm.trans (f.before.disabled i hi))
    change (q'.combos i).state.getLsbD j ↔
      ∃ h ∈ r.press :: held, h ∈ q'.chord i ∧ (combos i).keyIndex h.2 = some j
    rw [hsame, f.before.chorded i hi j, f.pressed.chord]
    constructor
    · rintro ⟨a, ha, hrest⟩
      exact ⟨a, List.mem_cons_of_mem _ ha, hrest⟩
    · rintro ⟨a, ha, hchord, hindex⟩
      rcases List.mem_cons.mp ha with rfl | ha
      · -- the press is newer than any chord
        exact absurd f.serial (Nat.ne_of_lt (f.before.chord_lt hi hchord))
      · exact ⟨a, ha, hchord, hindex⟩
  left i hi := by
    rw [f.active now] at hi
    obtain ⟨j, hj⟩ := f.before.left i hi
    exact ⟨j, f.pressed.kept i j hj⟩

theorem history (x : ComboOutcome n) :
    History.history (q'.await now r).log x = History.history q.log x := by
  unfold await
  rw [f.pressed.log]

theorem results : Results combos (q'.await now r) (serials + 1) where
  pressed i hi := by
    rw [f.active now] at hi
    change History.history q'.log (.result i (q'.chord i)) = [true]
    rw [f.pressed.log, f.pressed.chord]
    exact f.before.pressed i hi
  covers i hi := by
    rw [f.active now] at hi
    change (∀ key ∈ (combos i).keys, key ∈ (q'.chord i).map Prod.snd) ∧
      ∀ h ∈ q'.chord i, ∃ j, (combos i).keyIndex h.2 = some j
    rw [f.pressed.chord]
    exact f.before.covers i hi
  results i chord := by
    change History.history q'.log (.result i chord) = [] ∨
      History.history q'.log (.result i chord) = [true, false] ∨
        (q'.combos i).active ∧ chord = q'.chord i
    rw [f.pressed.log, f.pressed.active, f.pressed.chord]
    exact f.before.results i chord
  fresh i chord hne a ha := by
    rw [f.history] at hne
    obtain ⟨hlt, hkey, hno⟩ := f.before.fresh i chord hne a ha
    refine ⟨Nat.lt_succ_of_lt hlt, (f.history now _).trans hkey, fun b hb => ?_⟩
    rcases (f.mem_buffer now b).mp hb with hb | rfl
    · exact hno b hb
    · rw [f.serial]
      exact Nat.ne_of_gt hlt

theorem consumed {serial : Nat} (h : q.Consumed combos serial) :
    (q'.await now r).Consumed combos serial := by
  unfold Consumed await
  rw [f.pressed.log]
  exact h

theorem presses : Presses combos (q'.await now r) (r.press :: held) (r.press :: held)
    (serials + 1) where
  unpressed serial hserial :=
    (f.history now _).trans (f.before.unpressed serial (Nat.le_of_succ_le hserial))
  pending a ha := by
    rw [f.history]
    rcases (f.mem_buffer now a).mp ha with ha | rfl
    · exact f.before.pending a ha
    · exact f.before.unpressed _ f.serial.ge
  status a ha := by
    rcases List.mem_cons.mp ha with rfl | ha
    · exact Or.inl ⟨r, (f.mem_buffer now r).mpr (Or.inr rfl), rfl⟩
    · refine (f.before.status a ha).imp ?_ (Or.imp ?_ ?_)
      · rintro ⟨b, hb, hpress⟩
        exact ⟨b, (f.mem_buffer now b).mpr (Or.inl hb), hpress⟩
      · exact fun htrue => (f.history now _).trans htrue
      · rintro ⟨hconsumed, hdown⟩
        refine ⟨f.consumed now hconsumed, fun _ => ?_⟩
        obtain ⟨i, hon, hchord⟩ := hdown ha
        refine ⟨i, (f.pressed.active i).trans hon, ?_⟩
        change a ∈ q'.chord i
        rw [f.pressed.chord]
        exact hchord
  gone serial hserial hnone := by
    rw [f.history]
    refine (f.before.gone serial ?_ (fun a ha => hnone a (List.mem_cons_of_mem _ ha))).imp_right
      (f.consumed now)
    have hne : serials ≠ serial := f.serial ▸ hnone r.press List.mem_cons_self
    omega

theorem account : Account combos (q'.await now r) (r.press :: held) (r.press :: held)
    (serials + 1) where
  toBits := f.bits now
  toResults := f.results now
  toPresses := f.presses now
  keys a ha := by
    rcases List.mem_cons.mp ha with rfl | ha
    · exact ⟨Nat.lt_succ_of_le f.serial.le, f.keycode_ne⟩
    · exact ⟨Nat.lt_succ_of_lt (f.before.keys a ha).1, (f.before.keys a ha).2⟩
  apart := by
    refine List.pairwise_cons.mpr ⟨fun a ha => ⟨?_, Ne.symm (f.up a ha)⟩, f.before.apart⟩
    exact fun heq => absurd (heq.symm.trans f.serial) (Nat.ne_of_lt (f.before.keys a ha).1)
  records a ha := by
    rcases (f.mem_buffer now a).mp ha with ha | rfl
    · exact ⟨List.mem_cons_of_mem _ (f.before.records a ha).1, (f.before.records a ha).2⟩
    · exact ⟨List.mem_cons_self, f.waits⟩
  distinct := by
    change (q'.keyBuffer ++ [r]).Pairwise _
    rw [f.pressed.keyBuffer]
    refine List.pairwise_append.mpr ⟨f.before.distinct, List.pairwise_singleton _ r, ?_⟩
    intro a ha b hb
    obtain rfl := List.mem_singleton.mp hb
    refine ⟨fun heq => ?_, f.up _ (f.before.records a ha).1⟩
    exact absurd (heq.trans f.serial) (Nat.ne_of_lt (f.before.serial_lt ha))
  enabled _ := f.pressed.enabled.trans f.enabled
  known a ha := ha

theorem ready (hready : Ready combos q) : Ready combos (q'.await now r) where
  ringed := f.pressed.ringed hready.ringed
  apart := f.pressed.apart hready.apart
  fits i hi := by
    rcases f.pressed.sub i hi with hold | ⟨hidle, hkeys, hset⟩
    · exact hready.fits i hold
    have hindex : ∀ j < (combos i).keys.length, ∃ key, key ≠ comboEnd ∧
        (combos i).keyIndex key = some j := by
      intro j hj
      obtain ⟨a, ha, -, hindex⟩ :=
        (f.bits now).waiting i ((f.pressed.active i).trans hidle) j (hset j hj)
      exact ⟨a.keycode, (f.account now).keycode_ne ha, hindex⟩
    refine ⟨hkeys, List.nodup_iff_getElem?_ne_getElem?.mpr (fun a b hab hb heq => ?_), ?_⟩
    · obtain ⟨key, hkey, hindexa⟩ := hindex a (Nat.lt_trans hab hb)
      obtain ⟨key', hkey', hindexb⟩ := hindex b hb
      have hgeta := (combos i).keyIndex_get key hkey a hindexa
      have hgetb := (combos i).keyIndex_get key' hkey' b hindexb
      rw [hgeta, hgetb] at heq
      rw [Option.some.inj heq] at hindexa
      exact absurd (Option.some.inj (hindexa.symm.trans hindexb)) (Nat.ne_of_lt hab)
    · by_contra hlong
      have hbit := hset w (Nat.lt_of_not_le hlong)
      exact Nat.lt_irrefl w (BitVec.lt_of_getLsbD hbit)

end Lowering

end Combos

end K530
