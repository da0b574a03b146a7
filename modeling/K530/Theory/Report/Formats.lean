import K530.Lib.Run
import K530.Theory.Keymap.Wire
import Mathlib.Data.Finset.Card
import Mathlib.Data.Fintype.Card

/-!
# Two Formats, One Set of Keys

The six-key report and the bitmap are given the same keys. The first keeps them
in an array with holes, where a key that is added takes the first free place and
a key that is taken out leaves a hole; the second has a bit for each.

Both are the set of the keys that have been added and not taken out since.
For the bitmap this is one bit at a time. For the array it takes two facts more:
no key has two places, or the places would not be enough for six keys, and there
is a free place as long as there are fewer than six. `Holds` is the set, and
`Distinct` the first of these; the second follows from it by counting.

## Main definitions

* `KeyOp`: What is done to the keys of a report.

## Theorems

* `hasAnykey_six`, `hasAnykey_bitmap`: When a report counts no key.
* `formats_agree`: The formats agree after every step.
-/

namespace K530

/-- `add_key_to_report`, `del_key_from_report` and `clear_keys_from_report`. -/
inductive KeyOp where
  | add (key : Byte)
  | del (key : Byte)
  | clear
  deriving DecidableEq

namespace KeyOp

/-- A keycode that is not zero and has a bit in the bitmap. -/
def Fits : KeyOp → Prop
  | add key => key ≠ 0 ∧ key.toNat / 8 < 30
  | del key => key ≠ 0 ∧ key.toNat / 8 < 30
  | clear => True

instance : DecidablePred Fits
  | add _ => inferInstanceAs (Decidable (_ ∧ _))
  | del _ => inferInstanceAs (Decidable (_ ∧ _))
  | clear => inferInstanceAs (Decidable True)

/-- What it does to a report. -/
def apply (nkro : Bool) (r : Report) : KeyOp → Report
  | add key => r.addKeyToReport nkro key
  | del key => r.delKeyFromReport nkro key
  | clear => r.clearKeysFromReport nkro

/-- What it does to the keys that are down. -/
def next (down : Finset Byte) : KeyOp → Finset Byte
  | add key => insert key down
  | del key => down.erase key
  | clear => ∅

end KeyOp

namespace Report

/-! ### A report that counts no key -/

theorem hasAnykey_six (r : Report) : r.hasAnykey false = 0 ↔ ∀ a ∈ r.keys, a = 0 := by
  unfold hasAnykey
  rw [if_neg Bool.false_ne_true, List.countP_eq_zero]
  simp only [Vector.mem_toList_iff, ne_eq, decide_not, Bool.not_eq_true', decide_eq_false_iff_not,
    not_not]

theorem hasAnykey_bitmap (r : Report) : r.hasAnykey true = 0 ↔ ∀ a ∈ r.bits, a = 0 := by
  unfold hasAnykey
  rw [if_pos rfl, List.countP_eq_zero]
  simp only [Vector.mem_toList_iff, ne_eq, decide_not, Bool.not_eq_true', decide_eq_false_iff_not,
    not_not]

/-! ### The report as a set of keys -/

/-- The report holds the keys of the set and no others. The bit of `KC_NO` is
    not a key, and is not set either. -/
structure Holds (nkro : Bool) (r : Report) (down : Finset Byte) : Prop where
  keys : ∀ key, isKeyPressed nkro r key = true ↔ key ∈ down
  noKey : nkro = true → r.bits[0].getLsbD 0 = false

theorem hasAnykey_eq_zero (nkro : Bool) (r : Report)
    (hnone : ∀ key, isKeyPressed nkro r key = false)
    (hno : nkro → r.bits[0].getLsbD 0 = false) : r.hasAnykey nkro = 0 := by
  cases nkro with
  | false =>
    rw [hasAnykey_six]
    intro a ha
    by_contra hne
    have hpressed := (isKeyPressed_false r a).mpr ⟨hne, ha⟩
    rw [hnone a] at hpressed
    exact Bool.false_ne_true hpressed
  | true =>
    rw [hasAnykey_bitmap]
    intro a ha
    rcases Vector.getElem_of_mem ha with ⟨i, hi, rfl⟩
    refine BitVec.eq_of_getLsbD_eq (fun j hj => ?_)
    refine Eq.trans ?_ BitVec.getLsbD_zero.symm
    by_cases hzero : i = 0 ∧ j = 0
    · rcases hzero with ⟨rfl, rfl⟩
      exact hno rfl
    · -- the bit belongs to a key
      have hkey : (BitVec.ofNat 8 (8 * i + j)).toNat = 8 * i + j := by
        rw [BitVec.toNat_ofNat]
        omega
      have hne : BitVec.ofNat 8 (8 * i + j) ≠ 0 := by
        intro hc
        have hval : 8 * i + j = 0 := hkey.symm.trans (congrArg BitVec.toNat hc)
        omega
      have hbit := hnone (BitVec.ofNat 8 (8 * i + j))
      rw [Bool.eq_false_iff, ne_eq, isKeyPressed_true, hkey] at hbit
      have hrow : (8 * i + j) / 8 = i := by omega
      have hcol : (8 * i + j) % 8 = j := by omega
      simp only [hrow, hcol] at hbit
      rw [Bool.eq_false_iff]
      exact fun hc => hbit ⟨hne, hi, hc⟩

theorem hasAnykey_ne_zero (nkro : Bool) (r : Report) (key : Byte)
    (h : isKeyPressed nkro r key) : r.hasAnykey nkro ≠ 0 := by
  cases nkro with
  | false =>
    rw [ne_eq, hasAnykey_six]
    rw [isKeyPressed_false] at h
    exact fun hc => h.1 (hc key h.2)
  | true =>
    rw [ne_eq, hasAnykey_bitmap]
    rw [isKeyPressed_true] at h
    rcases h with ⟨_, hfits, hbit⟩
    intro hc
    rw [hc _ (Vector.getElem_mem hfits)] at hbit
    exact Bool.false_ne_true (BitVec.getLsbD_zero.symm.trans hbit)

theorem noKey_addKeyBit (r : Report) (key : Byte) (hkey : key ≠ 0) :
    (r.addKeyBit key).bits[0].getLsbD 0 = r.bits[0].getLsbD 0 := by
  unfold addKeyBit
  by_cases hfits : key.toNat / 8 < 30
  · rw [dif_pos hfits]
    dsimp only
    rw [Vector.getElem_set]
    by_cases hrow : key.toNat / 8 = 0
    · have hcol : key.toNat % 8 ≠ 0 := by
        intro hcol
        exact hkey (bit_inj key 0 hrow hcol)
      simp only [hrow, if_true]
      rw [BitVec.getLsbD_or, BitTable.one_shiftLeft_getLsbD _ _ (Nat.mod_lt _ (by omega)),
        decide_eq_false hcol, Bool.or_false]
    · rw [if_neg hrow]
  · rw [dif_neg hfits]

theorem noKey_delKeyBit (r : Report) (key : Byte) (hno : r.bits[0].getLsbD 0 = false) :
    (r.delKeyBit key).bits[0].getLsbD 0 = false := by
  unfold delKeyBit
  by_cases hfits : key.toNat / 8 < 30
  · rw [dif_pos hfits]
    dsimp only
    rw [Vector.getElem_set]
    by_cases hrow : key.toNat / 8 = 0
    · simp only [hrow, if_true]
      rw [BitVec.getLsbD_and, hno, Bool.false_and]
    · rw [if_neg hrow]
      exact hno
  · rw [dif_neg hfits]
    exact hno

namespace Holds

variable {nkro : Bool} {r : Report} {down : Finset Byte}

theorem hasAnykey_iff (h : Holds nkro r down) : r.hasAnykey nkro = 0 ↔ down = ∅ := by
  constructor
  · intro hzero
    rw [Finset.eq_empty_iff_forall_notMem]
    intro key hkey
    exact hasAnykey_ne_zero nkro r key ((h.keys key).mpr hkey) hzero
  · rintro rfl
    refine hasAnykey_eq_zero nkro r (fun key => ?_) h.noKey
    rw [Bool.eq_false_iff, ne_eq, h.keys]
    exact Finset.notMem_empty key

theorem isKeyPressed_eq (h : Holds nkro r down) (key : Byte) :
    isKeyPressed nkro r key = decide (key ∈ down) := by
  rw [Bool.eq_iff_iff, decide_eq_true_iff]
  exact h.keys key

theorem add (h : Holds nkro r down) (key : Byte) (hkey : key ≠ 0) (hfits : key.toNat / 8 < 30)
    (hroom : room nkro r key) :
    Holds nkro (r.addKeyToReport nkro key) (insert key down) := by
  refine ⟨fun j => ?_, fun hnkro => ?_⟩
  · rw [isKeyPressed_add nkro r key j hkey hfits, h.keys, and_iff_right hroom, Finset.mem_insert]
    exact or_comm
  · subst hnkro
    exact (noKey_addKeyBit r key hkey).trans (h.noKey rfl)

theorem del (h : Holds nkro r down) (key : Byte) (hfits : key.toNat / 8 < 30) :
    Holds nkro (r.delKeyFromReport nkro key) (down.erase key) := by
  refine ⟨fun j => ?_, fun hnkro => ?_⟩
  · rw [isKeyPressed_del nkro r key j hfits, h.keys, Finset.mem_erase]
    exact and_comm
  · subst hnkro
    exact noKey_delKeyBit r key (h.noKey rfl)

theorem clear (nkro : Bool) (r : Report) : Holds nkro (r.clearKeysFromReport nkro) ∅ := by
  refine ⟨fun j => ?_, fun hnkro => ?_⟩
  · simp [isKeyPressed_clear nkro r j]
  · subst hnkro
    simp [clearKeysFromReport]

theorem zeros (nkro : Bool) (mods : Byte) :
    Holds nkro { mods, bits := Vector.replicate 30 0 } ∅ := by
  have hcleared := clear nkro { mods, bits := Vector.replicate 30 0 }
  have hsame : clearKeysFromReport nkro { mods, bits := Vector.replicate 30 0 } =
      { mods, bits := Vector.replicate 30 0 } := by
    cases nkro with
    | false =>
      unfold clearKeysFromReport
      rw [if_neg Bool.false_ne_true]
      refine congrArg (Report.mk mods) (Vector.ext (fun i hi => ?_))
      rw [Vector.getElem_mapIdx, Vector.getElem_replicate, ite_self]
    | true =>
      unfold clearKeysFromReport
      rw [if_pos rfl]
  rwa [hsame] at hcleared

end Holds

/-! ### Room for six keys -/

def Distinct (r : Report) : Prop :=
  ∀ i j : Fin 6, r.keys[i] = r.keys[j] → r.keys[i] ≠ 0 → i = j

theorem room_of_few {r : Report} {down : Finset Byte} (h : Holds false r down)
    (hdistinct : r.Distinct) (key : Byte) (hfew : (insert key down).card ≤ 6) :
    room false r key := by
  rw [room_false]
  by_contra hnone
  rcases not_or.mp hnone with ⟨hkey, hfull⟩
  have hmem : ∀ i : Fin 6, r.keys[i] ∈ r.keys := fun i => Vector.getElem_mem i.isLt
  have hne : ∀ i : Fin 6, r.keys[i] ≠ 0 := fun i hc => hfull (hc ▸ hmem i)
  have hdown : ∀ i : Fin 6, r.keys[i] ∈ down :=
    fun i => (h.keys _).mp ((isKeyPressed_false r _).mpr ⟨hne i, hmem i⟩)
  have hsix : (Finset.univ : Finset (Fin 6)).card ≤ down.card := by
    refine Finset.card_le_card_of_injOn (fun i => r.keys[i]) (fun i _ => hdown i) ?_
    intro i _ j _ hij
    exact hdistinct i j hij (hne i)
  have hseventh : key ∉ down := by
    intro hc
    exact hkey ((isKeyPressed_false r key).mp ((h.keys key).mpr hc)).2
  rw [Finset.card_univ, Fintype.card_fin] at hsix
  rw [Finset.card_insert_of_notMem hseventh] at hfew
  omega

theorem Distinct.addKeyByte {r : Report} (h : r.Distinct) (key : Byte) :
    (r.addKeyByte key).Distinct := by
  unfold Report.addKeyByte
  by_cases hin : key ∈ r.keys
  · rw [if_pos (Vector.contains_iff_mem.mpr hin)]
    exact h
  · rw [if_neg (fun hc => hin (Vector.contains_iff_mem.mp hc))]
    cases hfree : r.keys.finIdxOf? 0 with
    | none => exact h
    | some k =>
      have hother : ∀ i : Fin 6, r.keys[i] ≠ key :=
        fun i hc => hin (hc ▸ Vector.getElem_mem i.isLt)
      intro i j hij hne
      simp only [keys_setKey, Fin.getElem_fin, Vector.getElem_setIfInBounds] at hij hne ⊢
      by_cases hi : k.val = i.val
      · by_cases hj : k.val = j.val
        · omega
        · -- the new key is at no other place
          rw [if_pos hi, if_neg hj] at hij
          exact absurd hij.symm (hother j)
      · rw [if_neg hi] at hij hne
        by_cases hj : k.val = j.val
        · rw [if_pos hj] at hij
          exact absurd hij (hother i)
        · rw [if_neg hj] at hij
          exact h i j hij hne

theorem Distinct.shrink {r r' : Report} (h : r.Distinct)
    (hkept : ∀ i : Fin 6, r'.keys[i] = 0 ∨ r'.keys[i] = r.keys[i]) : r'.Distinct := by
  intro i j hij hne
  have hi := (hkept i).resolve_left hne
  have hj := (hkept j).resolve_left (fun hc => hne (hij.trans hc))
  rw [hi, hj] at hij
  rw [hi] at hne
  exact h i j hij hne

theorem Distinct.delKeyByte {r : Report} (h : r.Distinct) (key : Byte) :
    (r.delKeyByte key).Distinct := by
  refine h.shrink (fun i => ?_)
  unfold keys Report.delKeyByte
  simp only [Fin.getElem_fin, Vector.getElem_ofFn, Vector.getElem_mapIdx]
  split
  · exact Or.inl rfl
  · exact Or.inr rfl

theorem Distinct.clear (r : Report) : (r.clearKeysFromReport false).Distinct := by
  intro i j _ hne
  have hmem : (r.clearKeysFromReport false).keys[i] ∈ (r.clearKeysFromReport false).keys :=
    Vector.getElem_mem i.isLt
  have hpressed := (isKeyPressed_false _ _).mpr ⟨hne, hmem⟩
  rw [isKeyPressed_clear false r] at hpressed
  exact absurd hpressed Bool.false_ne_true

end Report

/-! ### The two formats side by side -/

/-- A six-key report and a bitmap that are given the same keys, and the keys
    that have been added and not taken out since. -/
structure Formats where
  six : Report
  bitmap : Report
  down : Finset Byte

namespace Formats

/-- Two reports of zeros. The modifiers may be any. -/
def start (mods mods' : Byte) : Formats :=
  { six := { mods, bits := Vector.replicate 30 0 },
    bitmap := { mods := mods', bits := Vector.replicate 30 0 }, down := ∅ }

/-- Both reports and the set are given one operation. -/
def step (f : Formats) (op : KeyOp) : Formats :=
  { six := op.apply false f.six, bitmap := op.apply true f.bitmap, down := op.next f.down }

/-- The keycodes are in the bitmap, and at most six keys are down. -/
def Few (f : Formats) (op : KeyOp) : Prop :=
  op.Fits ∧ (op.next f.down).card ≤ 6

instance : DecidableRel Few :=
  fun f op => inferInstanceAs (Decidable (op.Fits ∧ (op.next f.down).card ≤ 6))

/-- Every key is pressed in both reports or in neither, as it is down or not;
    and both count no key, or neither, as none is down or some are. -/
def Agree (f : Formats) : Prop :=
  (∀ key, f.six.isKeyPressed false key = decide (key ∈ f.down) ∧
      f.bitmap.isKeyPressed true key = decide (key ∈ f.down)) ∧
    (f.six.hasAnykey false = 0 ↔ f.down = ∅) ∧ (f.bitmap.hasAnykey true = 0 ↔ f.down = ∅)

structure Sound (f : Formats) : Prop where
  six : f.six.Holds false f.down
  distinct : f.six.Distinct
  bitmap : f.bitmap.Holds true f.down

theorem Sound.agree {f : Formats} (h : f.Sound) : f.Agree :=
  ⟨fun key => ⟨h.six.isKeyPressed_eq key, h.bitmap.isKeyPressed_eq key⟩, h.six.hasAnykey_iff,
    h.bitmap.hasAnykey_iff⟩

theorem start_sound (mods mods' : Byte) : (start mods mods').Sound where
  six := Report.Holds.zeros false mods
  distinct := by
    intro i j _ hne
    refine absurd ?_ hne
    simp [start, Report.keys]
  bitmap := Report.Holds.zeros true mods'

theorem step_sound (f : Formats) (op : KeyOp) (h : f.Sound) (hfew : f.Few op) :
    (f.step op).Sound := by
  rcases hfew with ⟨hfits, hcard⟩
  cases op with
  | add key =>
    have hroom := Report.room_of_few h.six h.distinct key hcard
    exact ⟨h.six.add key hfits.1 hfits.2 hroom, h.distinct.addKeyByte key,
      h.bitmap.add key hfits.1 hfits.2 rfl⟩
  | del key =>
    exact ⟨h.six.del key hfits.2, h.distinct.delKeyByte key, h.bitmap.del key hfits.2⟩
  | clear =>
    exact ⟨Report.Holds.clear false f.six, Report.Distinct.clear f.six,
      Report.Holds.clear true f.bitmap⟩

/-- Given the same keys, of which never more than six are down, the six-key
    report and the bitmap hold the same ones after every step: those that have
    been added and not taken out since. -/
theorem formats_agree (mods mods' : Byte) (ops : List KeyOp)
    (hfew : StepRun.Along step Few (start mods mods') ops) :
    StepRun.Always step Agree (start mods mods') ops :=
  StepRun.always_of_along step Few Sound Agree (fun _ h => h.agree) step_sound ops
    (start mods mods') (start_sound mods mods') hfew

/-- Six keys, one of them twice, one let go and a seventh in its place. -/
theorem formats_agree_reused :
    StepRun.Always step Agree (start 0 0)
      [.add 4, .add 5, .add 6, .add 7, .add 8, .add 9, .add 6, .del 6, .add 239, .clear] :=
  formats_agree 0 0 _ (by decide +kernel)

end Formats

end K530
