import K530.Lib.OnOff
import K530.Quantum.Combo

/-!
# Chords

What `apply_combos` makes of the presses that wait, when every combo in the ring that is not
disabled has all of its keys among them, or none.

The presses of a combo are looked for from the front of the buffer, and the one that completes
it becomes the result. As no key waits twice, that is the last of them. So a record becomes
the same whatever is applied before it, and the buffer comes out as a map of what it was.

## Main definitions

* `Combo.has`, `Combo.lastOf`, `Combo.chordOf`: The records of a combo.

## Theorems

* `Combo.applyTo_all`, `Combo.applyTo_none`: The loop of `apply_combo`.
* `Combos.flush_spec`: A whole state is flushed.
-/

namespace K530

open Ring

/-! ### The keys of a combo -/

theorem findKeyIndex_eq_none (keycode : Keycode) (h : keycode ≠ comboEnd) (keys : List Keycode) :
    ∀ index found, findKeyIndex keycode keys index found = none ↔
      found = none ∧ keycode ∉ keys := by
  induction keys with
  | nil =>
    intro index found
    unfold findKeyIndex
    simp [h]
  | cons key keys ih =>
    intro index found
    unfold findKeyIndex
    rw [ih]
    by_cases hkey : keycode = key
    · simp [hkey]
    · simp [hkey]

theorem findKeyIndex_eq_some (keycode : Keycode) (h : keycode ≠ comboEnd) (keys : List Keycode) :
    ∀ index found j, findKeyIndex keycode keys index found = some j →
      found = some j ∨ ∃ k, keys[k]? = some keycode ∧ j = index + k := by
  induction keys with
  | nil =>
    intro index found j hj
    unfold findKeyIndex at hj
    rw [if_neg h] at hj
    exact Or.inl hj
  | cons key keys ih =>
    intro index found j hj
    unfold findKeyIndex at hj
    rcases ih _ _ _ hj with hfound | ⟨k, hk, hj⟩
    · by_cases hkey : keycode = key
      · rw [if_pos hkey] at hfound
        exact Or.inr ⟨0, by simp [hkey], by simpa using hfound.symm⟩
      · rw [if_neg hkey] at hfound
        exact Or.inl hfound
    · exact Or.inr ⟨k + 1, by simpa using hk, by omega⟩

namespace Combo

variable (c : Combo) (keycode : Keycode)

theorem keyIndex_eq_none (h : keycode ≠ comboEnd) :
    c.keyIndex keycode = none ↔ keycode ∉ c.keys := by
  unfold keyIndex
  rw [findKeyIndex_eq_none keycode h]
  simp

theorem keyIndex_get (h : keycode ≠ comboEnd) (j : Nat) (hj : c.keyIndex keycode = some j) :
    c.keys[j]? = some keycode := by
  rcases findKeyIndex_eq_some keycode h c.keys 0 none j hj with hnone | ⟨k, hk, hjk⟩
  · contradiction
  · rw [hjk, Nat.zero_add]
    exact hk

theorem keyIndex_lt (h : keycode ≠ comboEnd) (j : Nat) (hj : c.keyIndex keycode = some j) :
    j < c.keys.length :=
  (List.getElem?_eq_some_iff.mp (c.keyIndex_get keycode h j hj)).1

theorem keyIndex_inj (a b : Keycode) (ha : a ≠ comboEnd) (hb : b ≠ comboEnd) (j : Nat)
    (hja : c.keyIndex a = some j) (hjb : c.keyIndex b = some j) : a = b :=
  Option.some.inj ((c.keyIndex_get a ha j hja).symm.trans (c.keyIndex_get b hb j hjb))

theorem exists_keyIndex (h : keycode ∈ c.keys) : ∃ j, c.keyIndex keycode = some j := by
  have hne := c.keys_ne keycode h
  cases hj : c.keyIndex keycode with
  | none => exact absurd h ((c.keyIndex_eq_none keycode hne).mp hj)
  | some j => exact ⟨j, rfl⟩

theorem mem_keys_of_keyIndex (h : keycode ≠ comboEnd) (j : Nat) (hj : c.keyIndex keycode = some j) :
    keycode ∈ c.keys :=
  List.mem_of_getElem? (c.keyIndex_get keycode h j hj)

structure Fits (w : Nat) (c : Combo) : Prop where
  nonempty : c.keys ≠ []
  nodup : c.keys.Nodup
  length_le : c.keys.length ≤ w

theorem Fits.keyIndex_of_get {w : Nat} {c : Combo} (h : c.Fits w) (keycode : Keycode) (j : Nat)
    (hj : c.keys[j]? = some keycode) : c.keyIndex keycode = some j := by
  have hmem : keycode ∈ c.keys := List.mem_of_getElem? hj
  obtain ⟨k, hk⟩ := c.exists_keyIndex keycode hmem
  have hget := c.keyIndex_get keycode (c.keys_ne keycode hmem) k hk
  have hlt := c.keyIndex_lt keycode (c.keys_ne keycode hmem) k hk
  -- Its keys are all different, so the two places are one.
  rw [hk, (List.getElem?_inj hlt h.nodup).mp (hget.trans hj.symm)]

end Combo

/-! ### The bits of a combo -/

namespace ComboState

variable {w : Nat}

theorem getLsbD_keyDown (state : BitVec w) (index j : Nat) :
    (keyDown state index).getLsbD j =
      (state.getLsbD j || (decide (index < w) && decide (index = j))) := by
  unfold keyDown
  rw [BitVec.getLsbD_or]
  congr 1
  exact BitVec.getLsbD_twoPow index j

theorem getLsbD_keyUp (state : BitVec w) (index j : Nat) :
    (keyUp state index).getLsbD j = (state.getLsbD j && !decide (index = j)) := by
  have htwo : (1#w <<< index).getLsbD j = (decide (index < w) && decide (index = j)) :=
    BitVec.getLsbD_twoPow index j
  unfold keyUp
  rw [BitVec.getLsbD_and, BitVec.getLsbD_not, htwo]
  by_cases hbit : state.getLsbD j
  · have hj : j < w := BitVec.lt_of_getLsbD hbit
    by_cases hindex : index = j
    · subst hindex
      simp [hj]
    · simp [hj, hindex]
  · simp [Bool.eq_false_of_not_eq_true hbit]

theorem allDown_iff (state : BitVec w) (keyCount : Nat) :
    allDown state keyCount = true ↔ ∀ j, state.getLsbD j = decide (j < keyCount) := by
  unfold allDown
  rw [beq_iff_eq]
  constructor
  · intro h j
    rw [BitVec.getLsbD, ← h, Nat.testBit_two_pow_sub_one]
  · intro h
    refine Nat.eq_of_testBit_eq (fun j => ?_)
    rw [Nat.testBit_two_pow_sub_one, ← h j, BitVec.getLsbD]

theorem onlyOneDown_iff (state : BitVec w) (j : Nat) (hj : state.getLsbD j) :
    onlyOneDown state ↔ ∀ k, state.getLsbD k → k = j := by
  have hlt : j < w := BitVec.lt_of_getLsbD hj
  have hone : (1#w).toNat = 1 := by
    rw [BitVec.toNat_ofNat]
    exact Nat.mod_eq_of_lt (Nat.one_lt_two_pow (by omega))
  have hne : state.toNat ≠ 0 := by
    intro hzero
    rw [BitVec.getLsbD, hzero, Nat.zero_testBit] at hj
    exact Bool.false_ne_true hj
  have hsub : (state - 1#w).toNat = state.toNat - 1 := by
    rw [BitVec.toNat_sub_of_le (by rw [BitVec.le_def, hone]; omega), hone]
  -- The test of the code is the one for a power of two.
  have hand : onlyOneDown state = true ↔ state.toNat &&& (state.toNat - 1) = 0 := by
    unfold onlyOneDown
    rw [beq_iff_eq, ← hsub, ← BitVec.toNat_and]
    constructor
    · intro h
      exact congrArg BitVec.toNat h
    · intro h
      exact BitVec.eq_of_toNat_eq h
  rw [hand, Nat.and_sub_one_eq_zero_iff_isPowerOfTwo hne]
  constructor
  · rintro ⟨e, he⟩ k hk
    rw [BitVec.getLsbD, he, Nat.testBit_two_pow, decide_eq_true_eq] at hj hk
    exact hk.symm.trans hj
  · intro h
    refine ⟨j, Nat.eq_of_testBit_eq (fun k => ?_)⟩
    rw [Nat.testBit_two_pow]
    by_cases hk : j = k
    · subst hk
      simpa [BitVec.getLsbD] using hj
    · rw [decide_eq_false hk]
      by_contra hcon
      exact hk (h k (Bool.eq_true_of_not_eq_false hcon)).symm

end ComboState

/-! ### The presses a combo is made of -/

section Applying

variable {n w : Nat}

def QueuedRecord.press (r : QueuedRecord n) : Nat × Keycode := (r.serial, r.keycode)

namespace Combo

/-- The record is of a key of the combo. -/
def has (c : Combo) (r : QueuedRecord n) : Bool := (c.keyIndex r.keycode).isSome

def lastOf (c : Combo) : List (QueuedRecord n) → Option Keycode
  | [] => none
  | r :: rs => (lastOf c rs).or (if c.has r then some r.keycode else none)

def mark (c : Combo) (i : Fin n) (last : Option Keycode) (r : QueuedRecord n) : QueuedRecord n :=
  if c.has r then
    if last = some r.keycode then { r with comboIndex := some i } else { r with time := 0 }
  else r

def chordOf (c : Combo) (rs : List (QueuedRecord n)) : List (Nat × Keycode) :=
  (rs.filter c.has).map QueuedRecord.press

variable (c : Combo) (rs : List (QueuedRecord n))

theorem lastOf_eq_none : c.lastOf rs = none ↔ ∀ r ∈ rs, c.has r = false := by
  induction rs with
  | nil => simp [lastOf]
  | cons r rs ih =>
    unfold lastOf
    rw [Option.or_eq_none_iff, ih, List.forall_mem_cons, and_comm]
    simp

theorem lastOf_mem (keycode : Keycode) (h : c.lastOf rs = some keycode) :
    ∃ r ∈ rs, c.has r ∧ r.keycode = keycode := by
  induction rs with
  | nil => simp [lastOf] at h
  | cons r rs ih =>
    unfold lastOf at h
    rcases Option.or_eq_some_iff.mp h with h | ⟨-, h⟩
    · obtain ⟨other, hmem, hother⟩ := ih h
      exact ⟨other, List.mem_cons_of_mem r hmem, hother⟩
    · by_cases hr : c.has r
      · rw [if_pos hr] at h
        exact ⟨r, List.mem_cons_self, hr, Option.some.inj h⟩
      · rw [if_neg hr] at h
        contradiction

variable (i : Fin n)

theorem applyTo_none (rs : List (QueuedRecord n)) (h : ∀ r ∈ rs, c.has r = false) (state : BitVec w)
    (chord : List (Nat × Keycode)) : Combos.applyTo c i state chord rs = (rs, none) := by
  induction rs with
  | nil => rfl
  | cons r rs ih =>
    have hr : c.keyIndex r.keycode = none :=
      Option.isSome_eq_false_iff.mp (h r List.mem_cons_self) |> Option.isNone_iff_eq_none.mp
    unfold Combos.applyTo
    rw [hr, ih (fun other hmem => h other (List.mem_cons_of_mem r hmem))]

def Tells (c : Combo) (state : BitVec w) (rs : List (QueuedRecord n)) : Prop :=
  ∀ j, state.getLsbD j = true ↔ ∃ r ∈ rs, c.keyIndex r.keycode = some j

theorem Tells.keyDown {c : Combo} {state : BitVec w} {rs : List (QueuedRecord n)}
    (h : c.Tells state rs) (r : QueuedRecord n) (index : Nat) (hlt : index < w)
    (hindex : c.keyIndex r.keycode = some index) :
    c.Tells (ComboState.keyDown state index) (rs ++ [r]) := by
  intro j
  rw [ComboState.getLsbD_keyDown, Bool.or_eq_true, h j]
  simp only [List.mem_append, List.mem_singleton, or_and_right, exists_or, exists_eq_left, hindex,
    hlt, decide_true, Bool.true_and, decide_eq_true_eq, Option.some.injEq]

theorem Tells.allDown_iff {c : Combo} {state : BitVec w} {rs : List (QueuedRecord n)}
    (h : c.Tells state rs) (hfits : c.Fits w) (hne : ∀ r ∈ rs, r.keycode ≠ comboEnd) :
    ComboState.allDown state c.keys.length = true ↔
      ∀ key ∈ c.keys, ∃ r ∈ rs, r.keycode = key := by
  rw [ComboState.allDown_iff]
  constructor
  · intro hall key hkey
    obtain ⟨j, hj⟩ := c.exists_keyIndex key hkey
    have hkeyNe := c.keys_ne key hkey
    have hbit : state.getLsbD j := by
      rw [hall j, decide_eq_true_eq]
      exact c.keyIndex_lt key hkeyNe j hj
    -- The press that has set the bit is of the key, as no other has its index.
    obtain ⟨r, hr, hindex⟩ := (h j).mp hbit
    exact ⟨r, hr, c.keyIndex_inj _ _ (hne r hr) hkeyNe j hindex hj⟩
  · intro hall j
    by_cases hlt : j < c.keys.length
    · rw [decide_eq_true hlt, h j]
      obtain ⟨r, hr, hkey⟩ := hall c.keys[j] (List.getElem_mem hlt)
      refine ⟨r, hr, ?_⟩
      rw [hkey]
      exact hfits.keyIndex_of_get _ j (List.getElem?_eq_getElem hlt)
    · rw [decide_eq_false hlt]
      by_contra hcon
      obtain ⟨r, hr, hindex⟩ := (h j).mp (Bool.eq_true_of_not_eq_false hcon)
      exact hlt (c.keyIndex_lt _ (hne r hr) j hindex)

theorem has_iff (r : QueuedRecord n) (h : r.keycode ≠ comboEnd) :
    c.has r ↔ r.keycode ∈ c.keys := by
  unfold has
  rw [← not_iff_not, Bool.not_eq_true, Option.isSome_eq_false_iff, Option.isNone_iff_eq_none]
  exact c.keyIndex_eq_none r.keycode h

/-! ### A record of no key of the combo -/

theorem lastOf_cons_other (r : QueuedRecord n) (rs : List (QueuedRecord n)) (hr : c.has r = false) :
    c.lastOf (r :: rs) = c.lastOf rs := by
  rw [lastOf, hr, if_neg Bool.false_ne_true, Option.or_none]

theorem chordOf_cons_other (r : QueuedRecord n) (rs : List (QueuedRecord n))
    (hr : c.has r = false) :
    c.chordOf (r :: rs) = c.chordOf rs := by
  unfold chordOf
  rw [List.filter_cons_of_neg (by rw [hr]; exact Bool.false_ne_true)]

theorem mark_other (last : Option Keycode) (r : QueuedRecord n) (hr : c.has r = false) :
    c.mark i last r = r := by
  unfold mark
  rw [hr, if_neg Bool.false_ne_true]

theorem map_mark_others (last : Option Keycode) (rs : List (QueuedRecord n))
    (hrs : ∀ r ∈ rs, c.has r = false) : rs.map (c.mark i last) = rs :=
  (List.map_congr_left (fun r hr => c.mark_other i last r (hrs r hr))).trans (List.map_id rs)

theorem chordOf_others (hrs : ∀ r ∈ rs, c.has r = false) : c.chordOf rs = [] := by
  unfold chordOf
  rw [List.filter_eq_nil_iff.mpr (fun r hr => by
    rw [hrs r hr]
    exact Bool.false_ne_true), List.map_nil]

/-! ### A record of one of them -/

theorem chordOf_cons_self (r : QueuedRecord n) (rs : List (QueuedRecord n)) (hr : c.has r) :
    c.chordOf (r :: rs) = r.press :: c.chordOf rs := by
  unfold chordOf
  rw [List.filter_cons_of_pos hr, List.map_cons]

theorem lastOf_cons_earlier (r : QueuedRecord n) (rs : List (QueuedRecord n)) (last : Keycode)
    (hlast : c.lastOf rs = some last) : c.lastOf (r :: rs) = some last := by
  rw [lastOf, hlast, Option.some_or]

theorem exists_lastOf (h : ∃ r ∈ rs, c.has r) : ∃ last, c.lastOf rs = some last := by
  obtain ⟨r, hmem, hr⟩ := h
  cases hlast : c.lastOf rs with
  | none => exact absurd (((c.lastOf_eq_none rs).mp hlast r hmem).symm.trans hr) Bool.false_ne_true
  | some last => exact ⟨last, rfl⟩

theorem mark_earlier (last : Keycode) (r : QueuedRecord n) (hr : c.has r)
    (hne : last ≠ r.keycode) : c.mark i (some last) r = { r with time := 0 } := by
  unfold mark
  rw [hr, if_pos rfl, if_neg (fun hcon => hne (Option.some.inj hcon))]

theorem lastOf_cons_last (r : QueuedRecord n) (rs : List (QueuedRecord n)) (hr : c.has r)
    (hrs : ∀ other ∈ rs, c.has other = false) : c.lastOf (r :: rs) = some r.keycode := by
  rw [lastOf, (c.lastOf_eq_none rs).mpr hrs, hr, if_pos rfl, Option.none_or]

theorem mark_last (r : QueuedRecord n) (hr : c.has r) :
    c.mark i (some r.keycode) r = { r with comboIndex := some i } := by
  unfold mark
  rw [hr, if_pos rfl, if_pos rfl]

theorem Tells.not_allDown {c : Combo} {state : BitVec w} {rs : List (QueuedRecord n)}
    (h : c.Tells state rs) (hfits : c.Fits w) (hne : ∀ r ∈ rs, r.keycode ≠ comboEnd)
    (other : QueuedRecord n) (hotherNe : other.keycode ≠ comboEnd) (hother : c.has other)
    (hapart : ∀ r ∈ rs, r.keycode ≠ other.keycode) :
    ¬ComboState.allDown state c.keys.length = true := by
  rw [h.allDown_iff hfits hne]
  intro hall
  obtain ⟨early, hearly, heq⟩ := hall _ ((c.has_iff other hotherNe).mp hother)
  exact hapart early hearly heq

theorem Tells.allDown_last {c : Combo} {state : BitVec w} {rs later : List (QueuedRecord n)}
    (h : c.Tells state rs) (hfits : c.Fits w) (hne : ∀ r ∈ rs, r.keycode ≠ comboEnd)
    (hall : ∀ key ∈ c.keys, ∃ r ∈ rs ++ later, r.keycode = key)
    (hnone : ∀ other ∈ later, c.has other = false) :
    ComboState.allDown state c.keys.length = true := by
  rw [h.allDown_iff hfits hne]
  intro key hkey
  obtain ⟨r, hr, heq⟩ := hall key hkey
  rcases List.mem_append.mp hr with hearly | hlate
  · exact ⟨r, hearly, heq⟩
  · have hhas := (c.has_iff r (by rw [heq]; exact c.keys_ne key hkey)).mpr (heq ▸ hkey)
    exact absurd ((hnone r hlate).symm.trans hhas) Bool.false_ne_true

theorem applyTo_suffix (hfits : c.Fits w) (i : Fin n) (rs : List (QueuedRecord n)) :
    ∀ (pre : List (QueuedRecord n)) (state : BitVec w) (chord : List (Nat × Keycode)),
      (pre ++ rs).Pairwise (fun a b => a.keycode ≠ b.keycode) →
      (∀ r ∈ pre ++ rs, r.keycode ≠ comboEnd) →
      (∀ key ∈ c.keys, ∃ r ∈ pre ++ rs, r.keycode = key) →
      c.Tells state pre → (∃ r ∈ rs, c.has r) →
      Combos.applyTo c i state chord rs =
        (rs.map (c.mark i (c.lastOf rs)), some (chord ++ c.chordOf rs)) := by
  induction rs with
  | nil =>
    rintro pre state chord - - - - ⟨r, hr, -⟩
    exact absurd hr List.not_mem_nil
  | cons r rs ih =>
    intro pre state chord hdistinct hne hall hstate hsome
    have hassoc : pre ++ r :: rs = (pre ++ [r]) ++ rs := by
      rw [List.append_assoc, List.singleton_append]
    -- What has been passed, this record included, has other keys than what is left.
    have hapart := (List.pairwise_append.mp (hassoc ▸ hdistinct)).2.2
    have hne' : ∀ other ∈ pre ++ [r], other.keycode ≠ comboEnd :=
      fun other hmem => hne other (hassoc ▸ List.mem_append_left rs hmem)
    unfold Combos.applyTo
    cases hindex : c.keyIndex r.keycode with
    | none =>
      have hr : c.has r = false := by
        unfold has
        rw [hindex, Option.isSome_none]
      have hmore : ∃ other ∈ rs, c.has other := by
        obtain ⟨other, hmem, hother⟩ := hsome
        rcases List.mem_cons.mp hmem with rfl | hmem
        · exact absurd (hr.symm.trans hother) Bool.false_ne_true
        · exact ⟨other, hmem, hother⟩
      -- A key of another combo sets no bit.
      have hstate' : c.Tells state (pre ++ [r]) := by
        intro j
        rw [hstate j]
        simp [or_and_right, exists_or, hindex]
      dsimp only
      rw [ih (pre ++ [r]) state chord (hassoc ▸ hdistinct) (hassoc ▸ hne) (hassoc ▸ hall)
        hstate' hmore, c.lastOf_cons_other r rs hr, c.chordOf_cons_other r rs hr,
        List.map_cons, c.mark_other i _ r hr]
    | some index =>
      have hr : c.has r := by
        unfold has
        rw [hindex, Option.isSome_some]
      have hlt : index < w :=
        lt_of_lt_of_le (c.keyIndex_lt _ (hne r (by simp)) index hindex) hfits.length_le
      have hstate' := hstate.keyDown r index hlt hindex
      dsimp only
      by_cases hmore : ∃ other ∈ rs, c.has other
      · -- not the last one: one of the keys is still to come
        obtain ⟨last, hlast⟩ := c.exists_lastOf rs hmore
        have hlastNe : last ≠ r.keycode := by
          obtain ⟨late, hlate, -, heq⟩ := c.lastOf_mem rs last hlast
          rw [← heq]
          exact (hapart r (by simp) late hlate).symm
        obtain ⟨other, hmem, hother⟩ := hmore
        have hnot := hstate'.not_allDown hfits hne' other (hne other (by simp [hmem])) hother
          (fun early hearly => hapart early hearly other hmem)
        rw [if_neg hnot, ih (pre ++ [r]) _ _ (hassoc ▸ hdistinct) (hassoc ▸ hne)
          (hassoc ▸ hall) hstate' ⟨other, hmem, hother⟩, c.lastOf_cons_earlier r rs last hlast,
          hlast, List.map_cons, c.mark_earlier i last r hr hlastNe,
          c.chordOf_cons_self r rs hr, List.append_assoc, List.singleton_append]
        rfl
      · have hnone : ∀ other ∈ rs, c.has other = false := fun other hmem =>
          Bool.eq_false_of_not_eq_true (fun hcon => hmore ⟨other, hmem, hcon⟩)
        -- The last one: now all of them are down, and what is left is left alone.
        have hdown := hstate'.allDown_last hfits hne' (hassoc ▸ hall) hnone
        rw [if_pos hdown, c.lastOf_cons_last r rs hr hnone, List.map_cons, c.mark_last i r hr,
          c.map_mark_others i _ rs hnone, c.chordOf_cons_self r rs hr,
          c.chordOf_others rs hnone]
        rfl

theorem applyTo_all (hfits : c.Fits w) (i : Fin n) (rs : List (QueuedRecord n))
    (hdistinct : rs.Pairwise (fun a b => a.keycode ≠ b.keycode))
    (hne : ∀ r ∈ rs, r.keycode ≠ comboEnd) (hall : ∀ key ∈ c.keys, ∃ r ∈ rs, r.keycode = key) :
    Combos.applyTo c i (0#w) [] rs = (rs.map (c.mark i (c.lastOf rs)), some (c.chordOf rs)) := by
  have hnone : c.Tells (0#w) ([] : List (QueuedRecord n)) := by
    intro j
    simp
  refine c.applyTo_suffix hfits i rs [] _ [] hdistinct hne hall hnone ?_
  -- The combo has a key, which is one of those that wait.
  obtain ⟨key, hkey⟩ := List.exists_mem_of_ne_nil c.keys hfits.nonempty
  obtain ⟨r, hr, heq⟩ := hall key hkey
  exact ⟨r, hr, (c.has_iff r (hne r hr)).mpr (heq ▸ hkey)⟩

theorem mark_press (last : Option Keycode) (r : QueuedRecord n) :
    (c.mark i last r).press = r.press := by
  unfold mark
  split
  · split <;> rfl
  · rfl

theorem lastOf_map (f : QueuedRecord n → QueuedRecord n) (hf : ∀ r, (f r).press = r.press)
    (rs : List (QueuedRecord n)) : c.lastOf (rs.map f) = c.lastOf rs := by
  have hkey : ∀ r, (f r).keycode = r.keycode := fun r => congrArg Prod.snd (hf r)
  induction rs with
  | nil => rfl
  | cons r rs ih =>
    rw [List.map_cons, lastOf, lastOf, ih]
    unfold has
    rw [hkey]

theorem chordOf_map (f : QueuedRecord n → QueuedRecord n) (hf : ∀ r, (f r).press = r.press)
    (rs : List (QueuedRecord n)) : c.chordOf (rs.map f) = c.chordOf rs := by
  have hhas : ∀ r, c.has (f r) = c.has r := by
    intro r
    unfold has
    rw [show (f r).keycode = r.keycode from congrArg Prod.snd (hf r)]
  unfold chordOf
  rw [List.filter_map, List.map_map]
  congr 1
  · funext r
    exact hf r
  · congr 1
    funext r
    exact hhas r

end Combo

end Applying

/-! ### Applying what is prepared -/

namespace Combos

variable {n w m : Nat} [NeZero m] (combos : Fin n → Combo)

/-- All the keys of a combo wait. -/
def allWaiting (rs : List (QueuedRecord n)) (i : Fin n) : Bool :=
  (combos i).keys.all (fun key => rs.any (fun r => r.keycode = key))

/-- The combo is made of what waits, when what is prepared is applied. -/
def applies (q : Combos n w m) (i : Fin n) : Bool :=
  !(q.combos i).disabled && allWaiting combos q.keyBuffer i

def becomes (rs : List (QueuedRecord n)) (is : List (Fin n)) (r : QueuedRecord n) :
    QueuedRecord n :=
  match is.find? (fun i => (combos i).has r) with
  | none => r
  | some i => (combos i).mark i ((combos i).lastOf rs) r

theorem becomes_press (rs : List (QueuedRecord n)) (is : List (Fin n)) (r : QueuedRecord n) :
    (becomes combos rs is r).press = r.press := by
  unfold becomes
  split
  · rfl
  · exact (combos _).mark_press _ _ r

theorem becomes_keycode (rs : List (QueuedRecord n)) (is : List (Fin n)) (r : QueuedRecord n) :
    (becomes combos rs is r).keycode = r.keycode :=
  congrArg Prod.snd (becomes_press combos rs is r)

theorem allWaiting_iff (rs : List (QueuedRecord n)) (i : Fin n) :
    allWaiting combos rs i ↔ ∀ key ∈ (combos i).keys, ∃ r ∈ rs, r.keycode = key := by
  unfold allWaiting
  simp [List.all_eq_true, List.any_eq_true]

theorem dropComboFromBuffer_spec (i : Fin n) (q : Combos n w m) :
    (i ∉ q.prepared ∧ q.dropComboFromBuffer i = q) ∨
      (i ∈ q.prepared ∧ ∃ read, q.dropComboFromBuffer i = { q.disable i with read } ∧
        (read = q.read ∨ q.prepared = i :: contents q.comboBuffer read q.write)) := by
  unfold dropComboFromBuffer
  cases hfind : (positions q.read q.write).find? (fun p => q.comboBuffer p = some i) with
  | none =>
    refine Or.inl ⟨?_, rfl⟩
    intro hmem
    obtain ⟨p, hp, hslot⟩ := List.mem_filterMap.mp hmem
    have := List.find?_eq_none.mp hfind p hp
    rw [hslot] at this
    exact this (decide_eq_true rfl)
  | some p =>
    have hslot : q.comboBuffer p = some i := by
      simpa using List.find?_some hfind
    have hp := List.mem_of_find?_eq_some hfind
    refine Or.inr ⟨List.mem_filterMap.mpr ⟨p, hp, hslot⟩, ?_⟩
    dsimp only
    by_cases hread : p = q.read
    · rw [if_pos (show p = (q.disable i).read from hread)]
      -- It was the first in the ring, and the next one is now.
      refine ⟨q.read + 1, rfl, Or.inr ?_⟩
      have hne : q.read ≠ q.write := by
        rw [← hread]
        exact positions_last q.read q.write p hp
      unfold prepared contents
      rw [positions_cons q.read q.write hne, List.filterMap_cons_some (hread ▸ hslot)]
    · rw [if_neg (show ¬p = (q.disable i).read from hread)]
      exact ⟨q.read, rfl, Or.inl rfl⟩

theorem dropComboFromBuffer_next (i : Fin n) (rest : List (Fin n)) (q : Combos n w m)
    (h : (i :: rest) <:+ q.prepared) :
    ∃ read, q.dropComboFromBuffer i = { q.disable i with read } ∧
      rest <:+ contents q.comboBuffer read q.write ∧
      (contents q.comboBuffer read q.write).Sublist q.prepared := by
  have hmem : i ∈ q.prepared := h.subset List.mem_cons_self
  rcases q.dropComboFromBuffer_spec i with ⟨hnot, -⟩ | ⟨-, read, heq, hread⟩
  · exact absurd hmem hnot
  refine ⟨read, heq, ?_⟩
  rcases hread with rfl | hnext
  · -- It is marked in the ring, where it stays until its turn.
    exact ⟨(List.suffix_cons i rest).trans h, List.Sublist.refl _⟩
  · rw [hnext] at h ⊢
    refine ⟨?_, List.sublist_cons_self i _⟩
    rcases List.suffix_cons_iff.mp h with hsame | hlater
    · rw [(List.cons.inj hsame).2]
    · exact (List.suffix_cons i rest).trans hlater

structure Whole (q : Combos n w m) : Prop where
  distinct : q.keyBuffer.Pairwise (fun a b => a.keycode ≠ b.keycode)
  keycode_ne : ∀ r ∈ q.keyBuffer, r.keycode ≠ comboEnd
  waits : ∀ r ∈ q.keyBuffer, r.time ≠ 0 ∧ r.comboIndex = none
  fits : ∀ i ∈ q.prepared, (combos i).Fits w
  apart : ∀ i ∈ q.prepared, ∀ j ∈ q.prepared, q.applies combos i = true →
    q.applies combos j = true → ∀ key ∈ (combos i).keys, key ∈ (combos j).keys → i = j
  whole : ∀ i ∈ q.prepared, (q.combos i).disabled = false →
    allWaiting combos q.keyBuffer i = true ∨ ∀ r ∈ q.keyBuffer, (combos i).has r = false

/-- The combos among these that are made of what waits. -/
def applied (q : Combos n w m) (is : List (Fin n)) : List (Fin n) :=
  is.filter (q.applies combos)

/-- The loop of `apply_combos`: some of what was prepared has been applied, and the rest
    has not. -/
structure Applying (start : Combos n w m) (done rest : List (Fin n)) (q : Combos n w m) :
    Prop where
  prepared : start.prepared = done ++ rest
  left : rest <:+ q.prepared
  keyBuffer : q.keyBuffer =
    start.keyBuffer.map (becomes combos start.keyBuffer (start.applied combos done))
  states : ∀ j, q.combos j =
    if j ∈ done ∧ (start.combos j).disabled = false then
      { start.combos j with
        active := (start.combos j).active || start.applies combos j, disabled := true }
    else start.combos j
  chord : ∀ j, q.chord j =
    if j ∈ start.applied combos done then (combos j).chordOf start.keyBuffer else start.chord j
  log : q.log = start.log
  enabled : q.enabled = start.enabled
  sub : q.prepared.Sublist start.prepared

variable {combos}

omit [NeZero m] in
theorem mem_applied {q : Combos n w m} {is : List (Fin n)} {i : Fin n} :
    i ∈ q.applied combos is ↔ i ∈ is ∧ q.applies combos i :=
  List.mem_filter

theorem Whole.becomes_concat {q : Combos n w m} (h : q.Whole combos) (done : List (Fin n))
    (i : Fin n) (hdone : ∀ j ∈ done, j ∈ q.prepared) (hi : i ∈ q.prepared) (hnew : i ∉ done)
    (happlies : q.applies combos i) (r : QueuedRecord n) (hr : r ∈ q.keyBuffer) :
    becomes combos q.keyBuffer (q.applied combos (done ++ [i])) r =
      (combos i).mark i ((combos i).lastOf q.keyBuffer)
        (becomes combos q.keyBuffer (q.applied combos done) r) := by
  have hkey : r.keycode ≠ comboEnd := h.keycode_ne r hr
  have hconcat : q.applied combos (done ++ [i]) = q.applied combos done ++ [i] := by
    unfold applied
    rw [List.filter_append, List.filter_cons_of_pos happlies, List.filter_nil]
  have hhas : (combos i).has (becomes combos q.keyBuffer (q.applied combos done) r)
      = (combos i).has r := by
    unfold Combo.has
    rw [becomes_keycode]
  rw [hconcat]
  cases hfind : (q.applied combos done).find? (fun j => (combos j).has r) with
  | none =>
    have hsame : becomes combos q.keyBuffer (q.applied combos done) r = r := by
      unfold becomes
      rw [hfind]
    rw [hsame]
    unfold becomes
    rw [List.find?_append, hfind, Option.none_or, List.find?_singleton]
    by_cases hir : (combos i).has r
    · rw [if_pos hir]
    · rw [if_neg hir, Combo.mark, if_neg hir]
  | some j =>
    have hjr : (combos j).has r := by
      simpa using List.find?_some hfind
    obtain ⟨hj, hjapplies⟩ := mem_applied.mp (List.mem_of_find?_eq_some hfind)
    -- Two combos that apply share no key, so the record is not one of the new combo.
    have hir : ¬(combos i).has r := by
      intro hir
      have hji := h.apart j (hdone j hj) i hi hjapplies happlies r.keycode
        (((combos j).has_iff r hkey).mp hjr) (((combos i).has_iff r hkey).mp hir)
      exact hnew (hji ▸ hj)
    rw [Combo.mark, if_neg (by rw [hhas]; exact hir)]
    unfold becomes
    rw [List.find?_append, hfind, Option.some_or]

omit [NeZero m] in
theorem becomes_skip {q : Combos n w m} (done : List (Fin n)) (i : Fin n)
    (h : i ∈ done ∨ q.applies combos i = false) (r : QueuedRecord n) :
    becomes combos q.keyBuffer (q.applied combos (done ++ [i])) r =
      becomes combos q.keyBuffer (q.applied combos done) r := by
  unfold becomes
  have hfind : (q.applied combos (done ++ [i])).find? (fun j => (combos j).has r) =
      (q.applied combos done).find? (fun j => (combos j).has r) := by
    unfold applied
    rw [List.filter_append, List.find?_append]
    by_cases happlies : q.applies combos i
    · rw [List.filter_cons_of_pos happlies, List.filter_nil]
      have hdone : i ∈ done := h.resolve_right (by rw [happlies]; decide)
      by_cases hir : (combos i).has r
      · -- The combo has had a turn already, so it is not the first to be found.
        have hsome : ((done.filter (q.applies combos)).find?
            (fun j => (combos j).has r)).isSome = true :=
          List.find?_isSome.mpr ⟨i, List.mem_filter.mpr ⟨hdone, happlies⟩, hir⟩
        rw [Option.or_of_isSome hsome]
      · rw [List.find?_singleton, if_neg hir, Option.or_none]
    · rw [List.filter_cons_of_neg happlies, List.filter_nil, List.find?_nil, Option.or_none]
  rw [hfind]

omit [NeZero m] in
theorem mem_applied_concat {start : Combos n w m} (done : List (Fin n)) (i j : Fin n) :
    j ∈ start.applied combos (done ++ [i]) ↔
      j ∈ start.applied combos done ∨ j = i ∧ start.applies combos i := by
  rw [mem_applied, mem_applied, List.mem_append, List.mem_singleton, or_and_right]
  refine or_congr_right ⟨?_, ?_⟩
  · rintro ⟨rfl, hj⟩
    exact ⟨rfl, hj⟩
  · rintro ⟨rfl, hj⟩
    exact ⟨rfl, hj⟩

omit [NeZero m] in
theorem mem_applied_skip {start : Combos n w m} (done : List (Fin n)) (i j : Fin n)
    (h : i ∈ done ∨ start.applies combos i = false) :
    j ∈ start.applied combos (done ++ [i]) ↔ j ∈ start.applied combos done := by
  rw [mem_applied_concat, or_iff_left_iff_imp]
  rintro ⟨rfl, happlies⟩
  exact mem_applied.mpr ⟨h.resolve_right (by rw [happlies]; decide), happlies⟩

section Turn

variable {start q : Combos n w m} {done rest : List (Fin n)} {i : Fin n}

theorem Applying.prepared_concat (h : Applying combos start done (i :: rest) q) :
    start.prepared = done ++ [i] ++ rest := by
  rw [h.prepared, List.append_assoc, List.singleton_append]

theorem Applying.mem_prepared (h : Applying combos start done (i :: rest) q) :
    i ∈ start.prepared := by
  rw [h.prepared]
  simp

theorem Applying.disabled_iff (h : Applying combos start done (i :: rest) q) :
    (q.combos i).disabled ↔ i ∈ done ∨ (start.combos i).disabled := by
  rw [h.states i]
  by_cases hdone : i ∈ done ∧ (start.combos i).disabled = false
  · rw [if_pos hdone]
    simp [hdone.1]
  · rw [if_neg hdone]
    simp only [not_and, Bool.not_eq_false] at hdone
    exact ⟨Or.inr, fun hor => hor.elim hdone id⟩

theorem Applying.skip (h : Applying combos start done (i :: rest) q)
    (hskip : (q.combos i).disabled) : Applying combos start (done ++ [i]) rest q := by
  -- It has had its turn before, or was disabled from the start.
  have hor := h.disabled_iff.mp hskip
  have hnot : i ∈ done ∨ start.applies combos i = false := by
    refine hor.imp_right (fun hdis => ?_)
    unfold applies
    rw [hdis]
    rfl
  refine ⟨h.prepared_concat, (List.suffix_cons i rest).trans h.left, ?_, fun j => ?_, fun j => ?_,
    h.log, h.enabled, h.sub⟩
  · rw [h.keyBuffer]
    refine List.map_congr_left (fun r _ => ?_)
    exact (becomes_skip done i hnot r).symm
  · rw [h.states j]
    by_cases hji : j = i
    · subst hji
      rcases hor with hdone | hdis
      · simp [hdone]
      · simp [hdis]
    · simp [hji]
  · rw [h.chord j]
    simp only [mem_applied_skip done i j hnot]

theorem Applying.applyTo_applies (hwhole : start.Whole combos)
    (h : Applying combos start done (i :: rest) q) (hnew : i ∉ done)
    (happlies : start.applies combos i) :
    applyTo (combos i) i (0#w) [] q.keyBuffer =
      (start.keyBuffer.map (becomes combos start.keyBuffer
        (start.applied combos (done ++ [i]))), some ((combos i).chordOf start.keyBuffer)) := by
  have hmem : ∀ j ∈ done, j ∈ start.prepared := by
    intro j hj
    rw [h.prepared]
    exact List.mem_append_left _ hj
  have hpress : ∀ r, (becomes combos start.keyBuffer (start.applied combos done) r).press
      = r.press := becomes_press combos _ _
  have hkeycode : ∀ r, (becomes combos start.keyBuffer (start.applied combos done) r).keycode
      = r.keycode := becomes_keycode combos _ _
  rw [h.keyBuffer, (combos i).applyTo_all (hwhole.fits i h.mem_prepared),
    (combos i).lastOf_map _ hpress, (combos i).chordOf_map _ hpress, List.map_map]
  · congr 1
    refine List.map_congr_left (fun r hr => ?_)
    exact (hwhole.becomes_concat done i hmem h.mem_prepared hnew happlies r hr).symm
  · rw [List.pairwise_map]
    simp only [hkeycode]
    exact hwhole.distinct
  · simp only [List.mem_map, forall_exists_index, and_imp, forall_apply_eq_imp_iff₂, hkeycode]
    exact hwhole.keycode_ne
  · intro key hkey
    unfold applies at happlies
    rw [Bool.and_eq_true] at happlies
    obtain ⟨r, hr, heq⟩ := (allWaiting_iff combos _ _).mp happlies.2 key hkey
    exact ⟨_, List.mem_map_of_mem hr, (hkeycode r).trans heq⟩

theorem Applying.applyTo_passes (h : Applying combos start done (i :: rest) q)
    (hnone : ∀ r ∈ start.keyBuffer, (combos i).has r = false) :
    applyTo (combos i) i (0#w) [] q.keyBuffer = (q.keyBuffer, none) := by
  refine (combos i).applyTo_none i _ (fun r hr => ?_) _ _
  rw [h.keyBuffer] at hr
  obtain ⟨r', hr', rfl⟩ := List.mem_map.mp hr
  rw [Combo.has, becomes_keycode]
  exact hnone r' hr'

theorem Applying.applies (hwhole : start.Whole combos)
    (h : Applying combos start done (i :: rest) q) (hnew : i ∉ done)
    (happlies : start.applies combos i) (hskip : ¬(q.combos i).disabled) :
    Applying combos start (done ++ [i]) rest (q.applyCombo combos i) := by
  -- Its turn has not been, so its state is the one from the start.
  have hsame : q.combos i = start.combos i := by
    rw [h.states i, if_neg (fun hcon => hnew hcon.1)]
  have hdis : (start.combos i).disabled = false :=
    Bool.eq_false_of_not_eq_true (fun hcon => hskip (h.disabled_iff.mpr (Or.inr hcon)))
  unfold applyCombo
  rw [if_neg hskip, h.applyTo_applies hwhole hnew happlies]
  dsimp only [activate]
  obtain ⟨read, heq, hleft, hsub⟩ := dropComboFromBuffer_next i rest
    { { q with keyBuffer := start.keyBuffer.map (becomes combos start.keyBuffer
        (start.applied combos (done ++ [i]))) }.setCombo i
          { q.combos i with active := true } with
      chord := Function.update q.chord i ((combos i).chordOf start.keyBuffer) } h.left
  rw [heq]
  refine ⟨h.prepared_concat, hleft, rfl, fun j => ?_, fun j => ?_, h.log, h.enabled,
    hsub.trans h.sub⟩
  · by_cases hji : j = i
    · subst hji
      simp [disable, setCombo, hsame, hdis, happlies]
    · simp [disable, setCombo, hji, h.states j]
  · by_cases hji : j = i
    · subst hji
      simp [disable, setCombo, (mem_applied_concat done j j).mpr (Or.inr ⟨rfl, happlies⟩)]
    · simp [disable, setCombo, hji, mem_applied_concat, h.chord j]

theorem Applying.passes (h : Applying combos start done (i :: rest) q) (hnew : i ∉ done)
    (happlies : start.applies combos i = false) (hskip : ¬(q.combos i).disabled)
    (hnone : ∀ r ∈ start.keyBuffer, (combos i).has r = false) :
    Applying combos start (done ++ [i]) rest (q.applyCombo combos i) := by
  have hsame : q.combos i = start.combos i := by
    rw [h.states i, if_neg (fun hcon => hnew hcon.1)]
  have hdis : (start.combos i).disabled = false :=
    Bool.eq_false_of_not_eq_true (fun hcon => hskip (h.disabled_iff.mpr (Or.inr hcon)))
  unfold applyCombo
  rw [if_neg hskip, h.applyTo_passes hnone]
  dsimp only [activate]
  obtain ⟨read, heq, hleft, hsub⟩ := dropComboFromBuffer_next i rest q h.left
  rw [heq]
  refine ⟨h.prepared_concat, hleft, ?_, fun j => ?_, fun j => ?_, h.log, h.enabled,
    hsub.trans h.sub⟩
  · refine Eq.trans h.keyBuffer (List.map_congr_left (fun r _ => ?_))
    exact (becomes_skip done i (Or.inr happlies) r).symm
  · by_cases hji : j = i
    · subst hji
      simp [disable, setCombo, hsame, hdis, happlies]
    · simp [disable, setCombo, hji, h.states j]
  · refine Eq.trans (h.chord j) ?_
    simp only [mem_applied_skip done i j (Or.inr happlies)]

theorem Whole.applies_of_none (hwhole : start.Whole combos) (hmem : i ∈ start.prepared)
    (hnone : ∀ r ∈ start.keyBuffer, (combos i).has r = false) :
    start.applies combos i = false := by
  obtain ⟨key, hkey⟩ := List.exists_mem_of_ne_nil _ (hwhole.fits i hmem).nonempty
  refine Bool.eq_false_of_not_eq_true (fun hcon => ?_)
  unfold Combos.applies at hcon
  rw [Bool.and_eq_true] at hcon
  obtain ⟨r, hr, heq⟩ := (allWaiting_iff combos _ _).mp hcon.2 key hkey
  have hhas := ((combos i).has_iff r (hwhole.keycode_ne r hr)).mpr (heq ▸ hkey)
  exact Bool.false_ne_true ((hnone r hr).symm.trans hhas)

theorem Applying.turn (hwhole : start.Whole combos)
    (h : Applying combos start done (i :: rest) q) :
    Applying combos start (done ++ [i]) rest (q.applyCombo combos i) := by
  by_cases hskip : (q.combos i).disabled
  · unfold applyCombo
    rw [if_pos hskip]
    exact h.skip hskip
  have hnew : i ∉ done := fun hdone => hskip (h.disabled_iff.mpr (Or.inl hdone))
  have hdis : (start.combos i).disabled = false :=
    Bool.eq_false_of_not_eq_true (fun hcon => hskip (h.disabled_iff.mpr (Or.inr hcon)))
  -- Either all of its keys wait or none of them does.
  rcases hwhole.whole i h.mem_prepared hdis with hall | hnone
  · have happlies : start.applies combos i := by
      unfold Combos.applies
      rw [hdis, hall]
      rfl
    exact h.applies hwhole hnew happlies hskip
  · exact h.passes hnew (hwhole.applies_of_none h.mem_prepared hnone) hskip hnone

end Turn

theorem Applying.all {start : Combos n w m} (hwhole : start.Whole combos) (rest : List (Fin n)) :
    ∀ done q, Applying combos start done rest q →
      Applying combos start (done ++ rest) []
        (rest.foldl (fun q i => q.applyCombo combos i) q) := by
  induction rest with
  | nil =>
    intro done q h
    rw [List.append_nil]
    exact h
  | cons i rest ih =>
    intro done q h
    have hnext := ih (done ++ [i]) _ (h.turn hwhole)
    rw [List.append_assoc, List.singleton_append] at hnext
    exact hnext

theorem applying_start (start : Combos n w m) : Applying combos start [] start.prepared start := by
  refine ⟨rfl, List.suffix_rfl, ?_, fun j => ?_, fun j => ?_, rfl, rfl, List.Sublist.refl _⟩
  · exact (List.map_id start.keyBuffer).symm
  · rw [if_neg (fun h => List.not_mem_nil h.1)]
  · rw [if_neg (fun h => List.not_mem_nil (mem_applied.mp h).1)]

variable (combos)

/-- The combos that are made of what waits. -/
def taken (q : Combos n w m) : List (Fin n) := q.applied combos q.prepared

def outcome (q : Combos n w m) (r : QueuedRecord n) : Option (ComboOutcome n) :=
  match (q.taken combos).find? (fun i => (combos i).has r) with
  | none => some (.key r.serial)
  | some i =>
    if (combos i).lastOf q.keyBuffer = some r.keycode then
      some (.result i ((combos i).chordOf q.keyBuffer))
    else none

structure Flushed (q q' : Combos n w m) : Prop where
  keyBuffer : q'.keyBuffer = []
  log : q'.log = q.log ++ (q.keyBuffer.filterMap (q.outcome combos)).map (Prod.mk true)
  activated : ∀ i ∈ q.taken combos,
    q'.combos i = { active := true, disabled := true, state := (q.combos i).state }
  kept : ∀ i, (q.combos i).active = true → q'.combos i = q.combos i
  reset : ∀ i, (q.combos i).active = false → i ∉ q.taken combos → q'.combos i = .init w
  chord : ∀ i, q'.chord i =
    if i ∈ q.taken combos then (combos i).chordOf q.keyBuffer else q.chord i
  enabled : q'.enabled = q.enabled
  sub : q'.prepared.Sublist q.prepared

variable {combos}

theorem dumps_becomes (q q' : Combos n w m) (r : QueuedRecord n)
    (hwaits : r.time ≠ 0 ∧ r.comboIndex = none)
    (hchord : ∀ i ∈ q.taken combos, q'.chord i = (combos i).chordOf q.keyBuffer) :
    q'.dumps (becomes combos q.keyBuffer (q.taken combos) r) = q.outcome combos r := by
  unfold becomes outcome
  cases hfind : (q.taken combos).find? (fun i => (combos i).has r) with
  | none =>
    dsimp only [dumps]
    rw [if_neg hwaits.1, hwaits.2]
  | some i =>
    have hir : (combos i).has r := by
      simpa using List.find?_some hfind
    dsimp only [dumps]
    rw [Combo.mark, if_pos hir]
    by_cases hlast : (combos i).lastOf q.keyBuffer = some r.keycode
    · rw [if_pos hlast, if_pos hlast, if_neg hwaits.1]
      dsimp only
      rw [hchord i (List.mem_of_find?_eq_some hfind)]
    · rw [if_neg hlast, if_neg hlast, if_pos rfl]

variable (q : Combos n w m)

omit [NeZero m] in
theorem clearCombos_active (i : Fin n) (h : (q.combos i).active) :
    q.clearCombos.combos i = q.combos i :=
  if_pos h

omit [NeZero m] in
theorem clearCombos_idle (i : Fin n) (h : (q.combos i).active = false) :
    q.clearCombos.combos i = .init w := by
  unfold clearCombos ComboState.init
  dsimp only
  rw [if_neg (by rw [h]; exact Bool.false_ne_true), h]

theorem flush_empty (hwhole : q.Whole combos) (hempty : q.read = q.write) :
    Flushed combos q (q.flush combos) := by
  unfold flush
  rw [if_neg (not_not_intro hempty)]
  have hnone : q.prepared = [] := by
    unfold prepared
    rw [hempty, contents_self]
  have htaken : q.taken combos = [] := by
    unfold taken applied
    rw [hnone, List.filter_nil]
  have hnot : ∀ i, i ∉ q.taken combos := by
    intro i
    rw [htaken]
    exact List.not_mem_nil
  refine ⟨rfl, ?_, fun i hi => absurd hi (hnot i), fun i hi => clearCombos_active _ i hi,
    fun i hi _ => clearCombos_idle _ i hi, fun i => (if_neg (hnot i)).symm, rfl,
    List.Sublist.refl _⟩
  -- Every record is dumped as it came.
  have hout : q.keyBuffer.filterMap q.dumps = q.keyBuffer.filterMap (q.outcome combos) := by
    refine List.filterMap_congr (fun r hr => ?_)
    rw [← dumps_becomes q q r (hwhole.waits r hr) (fun i hi => absurd hi (hnot i)), htaken]
    rfl
  change q.log ++ (q.keyBuffer.filterMap q.dumps).map (Prod.mk true) = _
  rw [hout]

theorem flush_applied (q applied : Combos n w m) (hwhole : q.Whole combos)
    (hactive : ∀ i, (q.combos i).active → (q.combos i).disabled)
    (hall : Applying combos q q.prepared [] applied) :
    Flushed combos q applied.dumpKeyBuffer.clearCombos := by
  -- A combo that is applied was not disabled, and is active and disabled afterwards.
  have hidle : ∀ i ∈ q.taken combos, (q.combos i).disabled = false := by
    intro i hi
    have happlies := (mem_applied.mp hi).2
    unfold applies at happlies
    rw [Bool.and_eq_true, Bool.not_eq_true'] at happlies
    exact happlies.1
  have htaken : ∀ i ∈ q.taken combos, applied.combos i =
      { active := true, disabled := true, state := (q.combos i).state } := by
    intro i hi
    obtain ⟨hmem, happlies⟩ := mem_applied.mp hi
    rw [hall.states i, if_pos ⟨hmem, hidle i hi⟩, happlies, Bool.or_true]
  refine ⟨rfl, ?_, fun i hi => ?_, fun i hi => ?_, fun i hi hnot => ?_, hall.chord, hall.enabled,
    hall.sub⟩
  · -- What a record has become says what is delivered for it.
    have hout : applied.keyBuffer.filterMap applied.dumps =
        q.keyBuffer.filterMap (q.outcome combos) := by
      rw [hall.keyBuffer, List.filterMap_map]
      refine List.filterMap_congr (fun r hr => ?_)
      exact dumps_becomes q applied r (hwhole.waits r hr)
        (fun i hi => (hall.chord i).trans (if_pos hi))
    change applied.log ++ (applied.keyBuffer.filterMap applied.dumps).map (Prod.mk true) = _
    rw [hout, hall.log]
  · refine (clearCombos_active _ i ?_).trans (htaken i hi)
    exact congrArg ComboState.active (htaken i hi)
  · -- A combo that is active is disabled, and is skipped.
    have hsame : applied.combos i = q.combos i := by
      rw [hall.states i, if_neg (fun hcon => ?_)]
      exact absurd (hcon.2.symm.trans (hactive i hi)) Bool.false_ne_true
    refine (clearCombos_active _ i ?_).trans hsame
    rw [← hsame] at hi
    exact hi
  · refine clearCombos_idle _ i ?_
    change (applied.combos i).active = false
    rw [hall.states i]
    split
    · rename_i hcon
      have happlies : q.applies combos i = false := by
        refine Bool.eq_false_of_not_eq_true (fun happlies => hnot ?_)
        exact mem_applied.mpr ⟨hcon.1, happlies⟩
      rw [hi, happlies]
      rfl
    · exact hi

theorem flush_spec (hwhole : q.Whole combos)
    (hactive : ∀ i, (q.combos i).active → (q.combos i).disabled) :
    Flushed combos q (q.flush combos) := by
  by_cases hempty : q.read = q.write
  · exact flush_empty q hwhole hempty
  · have hall := (applying_start q).all hwhole
    rw [List.nil_append] at hall
    unfold flush applyCombos
    rw [if_pos hempty]
    exact flush_applied q _ hwhole hactive hall

/-! ### What is delivered -/

theorem outcome_key (r : QueuedRecord n) (serial : Nat) :
    q.outcome combos r = some (.key serial) ↔
      (∀ i ∈ q.taken combos, (combos i).has r = false) ∧ r.serial = serial := by
  unfold outcome
  cases hfind : (q.taken combos).find? (fun i => (combos i).has r) with
  | none =>
    have hnone : ∀ i ∈ q.taken combos, (combos i).has r = false := by
      simpa using List.find?_eq_none.mp hfind
    constructor
    · intro h
      exact ⟨hnone, by simpa using h⟩
    · rintro ⟨-, rfl⟩
      rfl
  | some i =>
    have hir : (combos i).has r := by
      simpa using List.find?_some hfind
    have hi := List.mem_of_find?_eq_some hfind
    constructor
    · intro h
      dsimp only at h
      split at h
      · exact absurd (Option.some.inj h) (by simp)
      · contradiction
    · rintro ⟨hnone, -⟩
      exact absurd ((hnone i hi).symm.trans hir) Bool.false_ne_true

theorem outcome_result (r : QueuedRecord n) (i : Fin n) (chord : List (Nat × Keycode))
    (h : q.outcome combos r = some (.result i chord)) :
    i ∈ q.taken combos ∧ (combos i).lastOf q.keyBuffer = some r.keycode ∧
      chord = (combos i).chordOf q.keyBuffer := by
  unfold outcome at h
  cases hfind : (q.taken combos).find? (fun i => (combos i).has r) with
  | none =>
    rw [hfind] at h
    exact absurd (Option.some.inj h) (by simp)
  | some j =>
    rw [hfind] at h
    dsimp only at h
    split at h
    · rename_i hlast
      have heq := Option.some.inj h
      simp only [ComboOutcome.result.injEq] at heq
      obtain ⟨rfl, hchord⟩ := heq
      exact ⟨List.mem_of_find?_eq_some hfind, hlast, hchord.symm⟩
    · contradiction

theorem Whole.taken_unique {q : Combos n w m} (h : q.Whole combos) {i j : Fin n}
    (hi : i ∈ q.taken combos) (hj : j ∈ q.taken combos) {r : QueuedRecord n}
    (hr : r ∈ q.keyBuffer) (hir : (combos i).has r) (hjr : (combos j).has r) :
    i = j := by
  obtain ⟨himem, hiapplies⟩ := mem_applied.mp hi
  obtain ⟨hjmem, hjapplies⟩ := mem_applied.mp hj
  have hkey := h.keycode_ne r hr
  exact h.apart i himem j hjmem hiapplies hjapplies r.keycode
    (((combos i).has_iff r hkey).mp hir) (((combos j).has_iff r hkey).mp hjr)

theorem Whole.result_mem {q : Combos n w m} (h : q.Whole combos) (i : Fin n)
    (hi : i ∈ q.taken combos) :
    .result i ((combos i).chordOf q.keyBuffer) ∈ q.keyBuffer.filterMap (q.outcome combos) := by
  obtain ⟨himem, hiapplies⟩ := mem_applied.mp hi
  have hall : allWaiting combos q.keyBuffer i := by
    unfold applies at hiapplies
    exact (Bool.and_eq_true_iff.mp hiapplies).2
  obtain ⟨key, hkey⟩ := List.exists_mem_of_ne_nil _ (h.fits i himem).nonempty
  obtain ⟨some_r, hsome, heq⟩ := (allWaiting_iff combos _ _).mp hall key hkey
  have hhas : (combos i).has some_r :=
    ((combos i).has_iff some_r (h.keycode_ne some_r hsome)).mpr (heq ▸ hkey)
  cases hlast : (combos i).lastOf q.keyBuffer with
  | none =>
    have hnot := ((combos i).lastOf_eq_none _).mp hlast some_r hsome
    exact absurd (hnot.symm.trans hhas) Bool.false_ne_true
  | some last =>
    obtain ⟨r, hr, hir, hrkey⟩ := (combos i).lastOf_mem _ last hlast
    refine List.mem_filterMap.mpr ⟨r, hr, ?_⟩
    unfold outcome
    cases hfind : (q.taken combos).find? (fun i => (combos i).has r) with
    | none =>
      have hnot := List.find?_eq_none.mp hfind i hi
      exact absurd hir hnot
    | some j =>
      have hjr : (combos j).has r := by
        simpa using List.find?_some hfind
      have hji := h.taken_unique (List.mem_of_find?_eq_some hfind) hi hr hjr hir
      subst hji
      dsimp only
      rw [hlast, hrkey, if_pos rfl]

theorem Whole.outcomes_nodup {q : Combos n w m} (h : q.Whole combos)
    (hserial : q.keyBuffer.Pairwise (fun a b => a.serial ≠ b.serial)) :
    (q.keyBuffer.filterMap (q.outcome combos)).Nodup := by
  unfold List.Nodup
  rw [List.pairwise_filterMap]
  refine (hserial.and h.distinct).imp ?_
  rintro a b ⟨hab, hkeys⟩ x hx y hy rfl
  cases x with
  | key serial =>
    have ha := ((outcome_key q a serial).mp hx).2
    have hb := ((outcome_key q b serial).mp hy).2
    exact hab (ha.trans hb.symm)
  | result i chord =>
    have ha := (outcome_result q a i chord hx).2.1
    have hb := (outcome_result q b i chord hy).2.1
    exact hkeys (Option.some.inj (ha.symm.trans hb))

end Combos

end K530
