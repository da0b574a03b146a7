import K530.Quantum.SpaceCadet
import K530.Theory.Quantum.AutoShift

/-!
# The Modifiers That Are Held

The real modifiers should be those of the keys that are held, of the Space Cadet keys
the modifiers of their holds. A press adds its own, and a release that is no tap takes
its own back, which is no other key's if no two keys hold the same.

A tap takes more than its own back: the modifier it types with as well, and whatever it
types if that is a modifier. If another key that is held holds one of these, it is gone
from the register with the key still down. That is the only way the law is broken.

## Main definitions

* `CadetKeymap`: Keys, no two of which hold the same modifier.

## Theorems

* `space_cadet_mods_iff`: When the law holds.
* `space_cadet_mods_broken`: Left Shift is held, and `KC_LCPO` is tapped.
-/

namespace K530

open StepRun

/-- The modifier a key holds: that of the hold of a Space Cadet key, or itself. -/
def SpaceCadetBuild.holdMod? (b : SpaceCadetBuild) (keycode : Keycode) : Option Byte :=
  let mod := ((b.cadet? keycode).map SpaceCadet.holdMod).getD (lowByte keycode)
  if isMod mod then some mod else none

/-- The keys of a keyboard: Space Cadet keys, plain modifiers and plain keys. No two hold
    the same modifier. -/
structure CadetKeymap (b : SpaceCadetBuild) where
  count : Nat
  keycode : Fin count → Keycode
  plain : ∀ k, b.cadet? (keycode k) = none → keycode k ≤ 0xFF
  apart : ∀ j k mod, b.holdMod? (keycode j) = some mod → b.holdMod? (keycode k) = some mod → j = k

variable {b : SpaceCadetBuild}

/-- The modifier a key of the keyboard holds. -/
def CadetKeymap.holds (m : CadetKeymap b) (k : Fin m.count) : Option Byte :=
  b.holdMod? (m.keycode k)

/-- A key is pressed or released, at some time. -/
structure CadetEvent (m : CadetKeymap b) where
  key : Fin m.count
  pressed : Bool
  now : BitVec 16

/-- The state, and the keys that are held. -/
structure CadetRun (m : CadetKeymap b) where
  state : SpaceCadetState
  down : Finset (Fin m.count)

namespace CadetRun

variable {m : CadetKeymap b}

/-- Nothing is pressed. -/
def init (nkro : Bool) : CadetRun m where
  state := { usb := Usb.init nkro, last := 0, timer := 0, mods := 0 }
  down := ∅

def step (r : CadetRun m) (e : CadetEvent m) : CadetRun m where
  state := r.state.keyEvent b e.now (m.keycode e.key) e.pressed
  down := if e.pressed then insert e.key r.down else r.down.erase e.key

/-- The real modifiers are those the keys hold that are down. -/
def Lawful (r : CadetRun m) : Prop :=
  ∀ mod, isMod mod = true →
    (hasMod r.state.usb.realMods mod = true ↔ ∃ k ∈ r.down, m.holds k = some mod)

/-- No other key that is down holds what a tap types, or the modifier it types it with. -/
def Spares (r : CadetRun m) (e : CadetEvent m) : Prop :=
  ∀ cadet, b.cadet? (m.keycode e.key) = some cadet → e.pressed = false →
    r.state.tapped b e.now (m.keycode e.key) cadet = true →
    ∀ k ∈ r.down, k ≠ e.key → m.holds k ≠ some cadet.tapMod ∧ m.holds k ≠ some cadet.keycode

end CadetRun

/-! ### The registers -/

namespace Usb

variable (u : Usb)

theorem registerMod_realMods (mod : Byte) :
    (u.registerMod mod).realMods = u.realMods ||| modMask mod := by
  unfold registerMod modMask
  by_cases hmod : isMod mod
  · rw [if_pos hmod, if_pos hmod]
    exact (u.registerMods_mods (modBit mod)).1
  · rw [if_neg hmod, if_neg hmod]
    exact BitVec.or_zero.symm

theorem unregisterMod_realMods (mod : Byte) :
    (u.unregisterMod mod).realMods = u.realMods &&& ~~~modMask mod := by
  unfold unregisterMod modMask
  by_cases hmod : isMod mod
  · rw [if_pos hmod, if_pos hmod]
    exact (u.unregisterMods_mods (modBit mod)).1
  · rw [if_neg hmod, if_neg hmod]
    exact (and_not_zero u.realMods).symm

end Usb

namespace SpaceCadetState

variable (s : SpaceCadetState)

theorem tap_realMods (cadet : SpaceCadet) (mod : Byte) (hmod : isMod mod) :
    hasMod (s.tap b cadet).realMods mod ↔
      hasMod s.usb.realMods mod ∧ mod ≠ cadet.holdMod ∧ mod ≠ cadet.tapMod ∧
        mod ≠ cadet.keycode := by
  have hregister : ∀ u : Usb, (if b.modifierCarryover then
      { u with weakMods := s.mods } else u).realMods = u.realMods := fun u => by
    split <;> rfl
  have hclear : ∀ u : Usb, (if b.modifierCarryover = true then u.clearWeakMods
      else u).realMods = u.realMods := fun u => by
    split <;> rfl
  unfold tap
  dsimp only
  rw [Usb.unregisterMod_realMods, Usb.hasMod_delMask _ _ _ hmod, hclear,
    Usb.unregisterCode_realMods, Usb.hasMod_delMask _ _ _ hmod, Usb.registerCode_realMods,
    Usb.hasMod_addMask _ _ _ hmod, hregister]
  by_cases hsame : cadet.holdMod = cadet.tapMod
  · rw [if_neg (not_not_intro hsame), hsame]
    tauto
  · rw [if_pos hsame, Usb.registerMod_realMods, Usb.hasMod_addMask _ _ _ hmod,
      Usb.unregisterMod_realMods, Usb.hasMod_delMask _ _ _ hmod]
    tauto

end SpaceCadetState

/-! ### A key event -/

namespace CadetKeymap

variable (m : CadetKeymap b)

theorem holds_iff {k : Fin m.count} {code : Byte}
    (h : ((b.cadet? (m.keycode k)).map SpaceCadet.holdMod).getD (lowByte (m.keycode k)) = code)
    (mod : Byte) (hmod : isMod mod) : m.holds k = some mod ↔ mod = code := by
  unfold holds SpaceCadetBuild.holdMod?
  dsimp only
  rw [h]
  constructor
  · intro heq
    split at heq
    · exact (Option.some.inj heq).symm
    · cases heq
  · rintro rfl
    rw [if_pos hmod]

theorem holds_cadet {k : Fin m.count} {cadet : SpaceCadet}
    (h : b.cadet? (m.keycode k) = some cadet) (mod : Byte) (hmod : isMod mod) :
    m.holds k = some mod ↔ mod = cadet.holdMod :=
  m.holds_iff (by rw [h, Option.map_some, Option.getD_some]) mod hmod

theorem holds_plain {k : Fin m.count} (h : b.cadet? (m.keycode k) = none) (mod : Byte)
    (hmod : isMod mod) : m.holds k = some mod ↔ mod = lowByte (m.keycode k) :=
  m.holds_iff (by rw [h, Option.map_none, Option.getD_none]) mod hmod

end CadetKeymap

namespace CadetRun

variable {m : CadetKeymap b} {r : CadetRun m}

theorem press_realMods (r : CadetRun m) (e : CadetEvent m) (hpressed : e.pressed)
    (mod : Byte) (hmod : isMod mod) :
    hasMod (r.step e).state.usb.realMods mod ↔
      hasMod r.state.usb.realMods mod ∨ m.holds e.key = some mod := by
  unfold step SpaceCadetState.keyEvent SpaceCadetState.processSpaceCadet
  cases hcadet : b.cadet? (m.keycode e.key) with
  | some cadet =>
    simp only [hpressed, SpaceCadetState.performSpaceCadet, if_true, Bool.false_eq_true, if_false]
    rw [Usb.registerMod_realMods, Usb.hasMod_addMask _ _ _ hmod, m.holds_cadet hcadet mod hmod]
  | none =>
    simp only [hpressed, if_true]
    rw [Usb.registerCode_realMods, Usb.hasMod_addMask _ _ _ hmod, m.holds_plain hcadet mod hmod]

theorem release_realMods (r : CadetRun m) (e : CadetEvent m) (hpressed : e.pressed = false)
    (huntapped : ∀ cadet, b.cadet? (m.keycode e.key) = some cadet →
      r.state.tapped b e.now (m.keycode e.key) cadet = false)
    (mod : Byte) (hmod : isMod mod) :
    hasMod (r.step e).state.usb.realMods mod ↔
      hasMod r.state.usb.realMods mod ∧ m.holds e.key ≠ some mod := by
  unfold step SpaceCadetState.keyEvent SpaceCadetState.processSpaceCadet
  cases hcadet : b.cadet? (m.keycode e.key) with
  | some cadet =>
    simp only [hpressed, SpaceCadetState.performSpaceCadet, huntapped cadet hcadet,
      Bool.false_eq_true, if_false]
    rw [Usb.unregisterMod_realMods, Usb.hasMod_delMask _ _ _ hmod]
    exact and_congr_right (fun _ => (m.holds_cadet hcadet mod hmod).not.symm)
  | none =>
    simp only [hpressed, Bool.false_eq_true, if_false, if_true]
    rw [Usb.unregisterCode_realMods, Usb.hasMod_delMask _ _ _ hmod]
    exact and_congr_right (fun _ => (m.holds_plain hcadet mod hmod).not.symm)

theorem tap_realMods (r : CadetRun m) (e : CadetEvent m) (hpressed : e.pressed = false)
    (cadet : SpaceCadet) (hcadet : b.cadet? (m.keycode e.key) = some cadet)
    (htapped : r.state.tapped b e.now (m.keycode e.key) cadet)
    (mod : Byte) (hmod : isMod mod) :
    hasMod (r.step e).state.usb.realMods mod ↔
      (hasMod r.state.usb.realMods mod ∧ m.holds e.key ≠ some mod) ∧
        mod ≠ cadet.tapMod ∧ mod ≠ cadet.keycode := by
  unfold step SpaceCadetState.keyEvent SpaceCadetState.processSpaceCadet
  rw [hcadet, Ne, m.holds_cadet hcadet mod hmod]
  simp only [hpressed, SpaceCadetState.performSpaceCadet, htapped, Bool.false_eq_true, if_false,
    if_true]
  rw [r.state.tap_realMods cadet mod hmod]
  tauto

theorem Lawful.others (h : r.Lawful) (e : CadetEvent m) (mod : Byte)
    (hmod : isMod mod) :
    (hasMod r.state.usb.realMods mod ∧ m.holds e.key ≠ some mod) ↔
      ∃ k ∈ r.down.erase e.key, m.holds k = some mod := by
  rw [h mod hmod]
  constructor
  · rintro ⟨⟨k, hk, hholds⟩, hother⟩
    refine ⟨k, Finset.mem_erase.mpr ⟨?_, hk⟩, hholds⟩
    rintro rfl
    exact hother hholds
  · rintro ⟨k, hk, hholds⟩
    obtain ⟨hne, hk⟩ := Finset.mem_erase.mp hk
    -- no two keys hold the same
    exact ⟨⟨k, hk, hholds⟩, fun hsame => hne (m.apart k e.key mod hholds hsame)⟩

theorem Lawful.press (h : r.Lawful) (e : CadetEvent m) (hpressed : e.pressed) :
    (r.step e).Lawful := by
  intro mod hmod
  have hdown : (r.step e).down = insert e.key r.down := if_pos hpressed
  rw [press_realMods r e hpressed mod hmod, h mod hmod, hdown]
  simp only [Finset.mem_insert, exists_eq_or_imp]
  exact or_comm

theorem Lawful.release (h : r.Lawful) (e : CadetEvent m) (hpressed : e.pressed = false) :
    (r.step e).Lawful ↔ r.Spares e := by
  have hdown : (r.step e).down = r.down.erase e.key := by
    unfold step
    rw [hpressed]
    rfl
  unfold Lawful Spares
  rw [hdown]
  by_cases htap : ∃ cadet, b.cadet? (m.keycode e.key) = some cadet ∧
      r.state.tapped b e.now (m.keycode e.key) cadet
  swap
  · -- no tap
    refine iff_of_true (fun mod hmod => ?_) (fun cadet hcadet _ htapped => ?_)
    · rw [release_realMods r e hpressed (fun cadet hcadet => ?_) mod hmod,
        h.others e mod hmod]
      rw [Bool.eq_false_iff]
      exact fun htapped => htap ⟨cadet, hcadet, htapped⟩
    · exact absurd ⟨cadet, hcadet, htapped⟩ htap
  obtain ⟨cadet, hcadet, htapped⟩ := htap
  constructor
  · intro hlaw cadet' hcadet' _ _ k hk hne
    rw [hcadet, Option.some.injEq] at hcadet'
    subst hcadet'
    -- a modifier that is still held has not been taken back
    have hkept : ∀ mod, m.holds k = some mod → mod ≠ cadet.tapMod ∧ mod ≠ cadet.keycode := by
      intro mod hholds
      have hmod : isMod mod := by
        unfold CadetKeymap.holds SpaceCadetBuild.holdMod? at hholds
        dsimp only at hholds
        split at hholds
        · rename_i hmod
          cases hholds
          exact hmod
        · cases hholds
      have hreal := (hlaw mod hmod).mpr ⟨k, Finset.mem_erase.mpr ⟨hne, hk⟩, hholds⟩
      exact ((tap_realMods r e hpressed cadet hcadet htapped mod hmod).mp hreal).2
    exact ⟨fun hholds => (hkept _ hholds).1 rfl, fun hholds => (hkept _ hholds).2 rfl⟩
  · intro hspares mod hmod
    rw [tap_realMods r e hpressed cadet hcadet htapped mod hmod, h.others e mod hmod]
    refine and_iff_left_of_imp ?_
    rintro ⟨k, hk, hholds⟩
    obtain ⟨hne, hk⟩ := Finset.mem_erase.mp hk
    obtain ⟨htapMod, hkeycode⟩ := hspares cadet hcadet hpressed htapped k hk hne
    constructor
    · rintro rfl
      exact htapMod hholds
    · rintro rfl
      exact hkeycode hholds

theorem Lawful.step (h : r.Lawful) (e : CadetEvent m) :
    (r.step e).Lawful ↔ r.Spares e := by
  cases hpressed : e.pressed with
  | true =>
    refine iff_of_true (h.press e hpressed) (fun cadet _ hreleased _ => ?_)
    rw [hpressed] at hreleased
    cases hreleased
  | false => exact h.release e hpressed

theorem lawful_init (nkro : Bool) : (init nkro : CadetRun m).Lawful := by
  intro mod _
  have hnone : hasMod (init nkro : CadetRun m).state.usb.realMods mod = false :=
    BitVec.getLsbD_zero
  rw [hnone]
  simp [init]

end CadetRun

/-- After every event of a run the law holds, exactly if every tap spares the modifiers of
    the other keys that are down. -/
theorem space_cadet_mods_iff (m : CadetKeymap b) (nkro : Bool) (events : List (CadetEvent m)) :
    Always CadetRun.step CadetRun.Lawful (CadetRun.init nkro) events ↔
      Along CadetRun.step CadetRun.Spares (CadetRun.init nkro) events :=
  always_iff_along CadetRun.step CadetRun.Spares CadetRun.Lawful CadetRun.Lawful (fun _ h => h)
    (fun _ e h hspares => (h.step e).mpr hspares)
    (fun _ e h hspares hlaw => hspares ((h.step e).mp hlaw))
    events (CadetRun.init nkro) (CadetRun.lawful_init nkro)

/-! ### Left Shift, and a tap of `KC_LCPO` -/

namespace CadetPair

/-- The keycodes of the two keys, `KC_LEFT_SHIFT` and `KC_LCPO`. -/
def keycode (k : Fin 2) : Keycode :=
  if k.val = 0 then 0xE1 else 0x5CF4

theorem plain (k : Fin 2) (h : SpaceCadetBuild.defaults.cadet? (keycode k) = none) :
    keycode k ≤ 0xFF := by
  revert k
  decide

theorem apart (j k : Fin 2) (mod : Byte)
    (hj : SpaceCadetBuild.defaults.holdMod? (keycode j) = some mod)
    (hk : SpaceCadetBuild.defaults.holdMod? (keycode k) = some mod) : j = k := by
  have hholds : ∀ j k : Fin 2, SpaceCadetBuild.defaults.holdMod? (keycode j) =
      SpaceCadetBuild.defaults.holdMod? (keycode k) → j = k := by
    decide
  exact hholds j k (hj.trans hk.symm)

def keymap : CadetKeymap SpaceCadetBuild.defaults where
  count := 2
  keycode := keycode
  plain := plain
  apart := apart

/-- `KC_LEFT_SHIFT` -/
def shift : Fin keymap.count :=
  ⟨0, Nat.zero_lt_two⟩

/-- `KC_LCPO` -/
def cadet : Fin keymap.count :=
  ⟨1, Nat.one_lt_two⟩

/-- The one is pressed, and then the other is tapped. -/
def events : List (CadetEvent keymap) :=
  [⟨shift, true, 0⟩, ⟨cadet, true, 10⟩, ⟨cadet, false, 60⟩]

end CadetPair

/-- Left Shift is held, and is gone from the register after the tap. -/
theorem space_cadet_mods_broken :
    ¬ Always CadetRun.step CadetRun.Lawful (CadetRun.init false) CadetPair.events := by
  intro hall
  have hlast := (always_iff_visited _ _ _ _).mp hall _ [] (List.append_nil _).symm
  -- the key of the shift is down, and the tap of the other has taken its modifier back
  have hheld : ∃ k ∈ (run CadetRun.step (CadetRun.init false) CadetPair.events).down,
      CadetPair.keymap.holds k = some 0xE1 :=
    ⟨CadetPair.shift, by decide, by decide⟩
  have hgone : hasMod (run CadetRun.step (CadetRun.init false)
      CadetPair.events).state.usb.realMods 0xE1 = false := by decide +kernel
  have hreal := (hlast 0xE1 (by decide)).mpr hheld
  rw [hgone] at hreal
  cases hreal

end K530
