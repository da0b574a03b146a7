import K530.Keymap.Tracker
import K530.Lib.Places

/-!
# The Keys Held

What the Bluetooth tracker is for: the modifiers that are down, and the keys
that are, in the order they went down, six of them at most.

`Held` is that, with its invariant. No key is in it twice, so a release takes a
key out altogether, and none of them is a modifier or no key at all. `Tracker.Shows`
ties the tracker's six places to the list: the places are packed, so they are
the list and nothing else. `track_shows` says that the tracker keeps up with
every keycode.

## Main definitions

* `Held`: The modifiers and the keys that are down.

## Theorems

* `has_press`, `has_release`: A code going down or up changes that code alone.
* `isEmpty_iff`: Nothing is held when no code is.
-/

namespace K530

structure Held where
  mods : Byte
  keys : List Byte
  once : keys.Nodup
  kinds : ∀ key ∈ keys, key ≠ 0 ∧ isMod key = false
  few : keys.length ≤ 6

namespace Held

def empty : Held :=
  { mods := 0, keys := [], once := List.nodup_nil,
    kinds := fun _ hkey => absurd hkey List.not_mem_nil, few := Nat.zero_le 6 }

theorem byte_lawful : LawfulBEq Byte :=
  inferInstance

attribute [local instance] byte_lawful

def press (code : Byte) (h : Held) : Held :=
  if hmod : isMod code then { h with mods := h.mods ||| modBit code }
  else if hnew : code ≠ 0 ∧ code ∉ h.keys ∧ h.keys.length < 6 then
    { h with
      keys := h.keys ++ [code],
      once := List.nodup_append.mpr ⟨h.once, List.nodup_singleton code, fun a ha b hb hab =>
        hnew.2.1 (List.mem_singleton.mp hb ▸ hab ▸ ha)⟩,
      kinds := fun key hkey => (List.mem_append.mp hkey).elim (h.kinds key)
        (fun hc => List.mem_singleton.mp hc ▸ ⟨hnew.1, Bool.not_eq_true _ |>.mp hmod⟩),
      few := by
        rw [List.length_append, List.length_singleton]
        exact hnew.2.2 }
  else h

def release (code : Byte) (h : Held) : Held :=
  if isMod code then { h with mods := h.mods &&& ~~~modBit code }
  else
    { h with
      keys := h.keys.erase code,
      once := h.once.erase code,
      kinds := fun key hkey => h.kinds key (List.mem_of_mem_erase hkey),
      few := Nat.le_trans List.length_erase_le h.few }

def has (code : Byte) (h : Held) : Prop :=
  if isMod code then hasMod h.mods code = true else code ∈ h.keys

def room (code : Byte) (h : Held) : Prop :=
  isMod code = true ∨ code ∈ h.keys ∨ h.keys.length < 6

theorem has_empty (code : Byte) : ¬ empty.has code := by
  unfold has empty
  split
  · rw [show hasMod 0 code = false from BitVec.getLsbD_zero]
    exact Bool.false_ne_true
  · exact List.not_mem_nil

theorem isMod_ne_zero (code : Byte) (h : isMod code) : code ≠ 0 := by
  rintro rfl
  exact absurd h (by decide)

theorem has_press (code other : Byte) (h : Held) :
    (h.press code).has other ↔
      h.has other ∨ other = code ∧ code ≠ 0 ∧ h.room code := by
  unfold press has room
  by_cases hmod : isMod code
  · rw [dif_pos hmod]
    dsimp only
    by_cases hother : isMod other
    · rw [if_pos hother, if_pos hother, hasMod_add _ _ _ hmod hother, Bool.or_eq_true,
        decide_eq_true_eq]
      exact or_congr_right (iff_self_and.mpr (fun _ => ⟨isMod_ne_zero code hmod, Or.inl hmod⟩))
    · have hne : other ≠ code := fun hc => hother (hc ▸ hmod)
      rw [if_neg hother, if_neg hother]
      exact (or_iff_left (fun hc => hne hc.1)).symm
  · rw [dif_neg hmod]
    by_cases hnew : code ≠ 0 ∧ code ∉ h.keys ∧ h.keys.length < 6
    · rw [dif_pos hnew]
      dsimp only
      by_cases hother : isMod other
      · have hne : other ≠ code := fun hc => hmod (hc ▸ hother)
        rw [if_pos hother, if_pos hother]
        exact (or_iff_left (fun hc => hne hc.1)).symm
      · rw [if_neg hother, if_neg hother, List.mem_append, List.mem_singleton]
        exact or_congr_right (iff_self_and.mpr (fun _ => ⟨hnew.1, Or.inr (Or.inr hnew.2.2)⟩))
    · rw [dif_neg hnew]
      refine (or_iff_left_of_imp ?_).symm
      rintro ⟨rfl, hzero, hroom⟩
      -- it had room, so it was down already
      rw [if_neg hmod]
      by_contra hnot
      rcases hroom with hroom | hroom | hroom
      · exact hmod hroom
      · exact hnot hroom
      · exact hnew ⟨hzero, hnot, hroom⟩

theorem has_release (code other : Byte) (h : Held) :
    (h.release code).has other ↔ h.has other ∧ other ≠ code := by
  unfold release has
  by_cases hmod : isMod code
  · rw [if_pos hmod]
    dsimp only
    by_cases hother : isMod other
    · rw [if_pos hother, if_pos hother, hasMod_del _ _ _ hmod hother, Bool.and_eq_true,
        Bool.not_eq_true', decide_eq_false_iff_not]
    · have hne : other ≠ code := fun hc => hother (hc ▸ hmod)
      rw [if_neg hother, if_neg hother]
      exact (and_iff_left hne).symm
  · rw [if_neg hmod]
    dsimp only
    by_cases hother : isMod other
    · have hne : other ≠ code := fun hc => hmod (hc ▸ hother)
      rw [if_pos hother, if_pos hother]
      exact (and_iff_left hne).symm
    · rw [if_neg hother, if_neg hother, h.once.mem_erase_iff, and_comm]

theorem isEmpty_iff (h : Held) : h.mods = 0 ∧ h.keys = [] ↔ ∀ code, ¬ h.has code := by
  unfold has
  constructor
  · rintro ⟨hmods, hkeys⟩ code
    by_cases hmod : isMod code
    · rw [if_pos hmod, (mods_eq_zero_iff h.mods).mp hmods code hmod]
      exact Bool.false_ne_true
    · rw [if_neg hmod, hkeys]
      exact List.not_mem_nil
  · intro hnone
    constructor
    · refine (mods_eq_zero_iff h.mods).mpr (fun code hmod => ?_)
      have hcode := hnone code
      rw [if_pos hmod, Bool.not_eq_true] at hcode
      exact hcode
    · refine List.eq_nil_iff_forall_not_mem.mpr (fun key hkey => ?_)
      have hcode := hnone key
      rw [(h.kinds key hkey).2, if_neg Bool.false_ne_true] at hcode
      exact hcode hkey

end Held

namespace Tracker

/-- The tracker shows what is held: its places are the keys, and nothing
    else. -/
structure Shows (t : Tracker) (h : Held) : Prop where
  mods : t.mods = h.mods
  keys : Places.Packs 0 t.keys h.keys

theorem empty_shows : empty.Shows Held.empty :=
  ⟨rfl, Places.Packs.nil⟩

theorem btAddKey_shows (kc : Byte) (t : Tracker) (h : Held) (hs : t.Shows h)
    (hkey : ¬ isMod kc) : (t.btAddKey kc).Shows (h.press kc) := by
  unfold btAddKey Held.press
  rw [dif_neg hkey]
  by_cases hzero : kc = 0
  · rw [if_pos hzero, dif_neg (fun hc => hc.1 hzero)]
    exact hs
  · rw [if_neg hzero]
    have hmem := hs.keys.mem_iff kc hzero
    by_cases hin : kc ∈ t.keys
    · rw [if_pos (Vector.contains_iff_mem.mpr hin), dif_neg (fun hc => hc.2.1 (hmem.mp hin))]
      exact hs
    · rw [if_neg (fun hc => hin (Vector.contains_iff_mem.mp hc))]
      have hnotin : kc ∉ h.keys := fun hc => hin (hmem.mpr hc)
      cases hfree : t.keys.finIdxOf? 0 with
      | none =>
        -- six keys are down, and the seventh is dropped
        have hfull := hs.keys.full_iff.mp ((Places.finIdxOf?_eq_none _ _).mp hfree)
        rw [dif_neg (fun hc => absurd hc.2.2 (by omega))]
        exact hs
      | some i =>
        have hfew : h.keys.length < 6 := by
          rw [← hs.keys.firstFree i hfree]
          exact i.isLt
        rw [dif_pos ⟨hzero, hnotin, hfew⟩]
        exact ⟨hs.mods, hs.keys.set_free kc i hfree hzero hnotin⟩

theorem btDelKey_shows (kc : Byte) (t : Tracker) (h : Held) (hs : t.Shows h)
    (hkey : ¬ isMod kc) : (t.btDelKey kc).Shows (h.release kc) := by
  unfold btDelKey Held.release
  rw [if_neg hkey]
  by_cases hzero : kc = 0
  · -- a held key is not 0, so there is nothing to take out
    rw [if_pos hzero]
    refine ⟨hs.mods, ?_⟩
    dsimp only
    rw [List.erase_of_not_mem (fun hc => (h.kinds kc hc).1 hzero)]
    exact hs.keys
  · rw [if_neg hzero]
    cases hplace : t.keys.finIdxOf? kc with
    | none =>
      have hnotin : kc ∉ h.keys := fun hc =>
        (Places.finIdxOf?_eq_none _ _).mp hplace ((hs.keys.mem_iff kc hzero).mpr hc)
      refine ⟨hs.mods, ?_⟩
      dsimp only
      rw [List.erase_of_not_mem hnotin]
      exact hs.keys
    | some i => exact ⟨hs.mods, hs.keys.closeGap kc i hplace hzero⟩

theorem btModifierBit_setWidth : ∀ kc : Byte,
    btModifierBit (kc.setWidth 16) = if isMod kc then modBit kc else 0 := by
  decide +kernel

theorem modBit_ne_zero : ∀ kc : Byte, isMod kc → modBit kc ≠ 0 := by
  decide +kernel

theorem track_shows (keycode : Keycode) (pressed : Bool) (t : Tracker) (h : Held)
    (hs : t.Shows h) (hbasic : keycode ≤ 0xFF) :
    (t.track keycode pressed).Shows
      (if pressed then h.press (lowByte keycode) else h.release (lowByte keycode)) := by
  -- the tracker tells a modifier by its bit, not by its code
  have hbit : btModifierBit keycode =
      if isMod (lowByte keycode) then modBit (lowByte keycode) else 0 := by
    have hwide : (lowByte keycode).setWidth 16 = keycode := by
      unfold lowByte
      bv_omega
    rw [← btModifierBit_setWidth, hwide]
  unfold track
  dsimp only
  rw [hbit]
  by_cases hmod : isMod (lowByte keycode)
  · rw [if_pos hmod, if_pos (modBit_ne_zero _ hmod)]
    unfold Held.press Held.release
    rw [dif_pos hmod, if_pos hmod]
    cases pressed with
    | true => exact ⟨congrArg (· ||| modBit (lowByte keycode)) hs.mods, hs.keys⟩
    | false => exact ⟨congrArg (· &&& ~~~modBit (lowByte keycode)) hs.mods, hs.keys⟩
  · rw [if_neg hmod, if_neg (fun hc => hc rfl)]
    cases pressed with
    | true => exact btAddKey_shows _ t h hs hmod
    | false => exact btDelKey_shows _ t h hs hmod

/-! ### The tracker as a set of codes -/

def Packed (t : Tracker) : Prop :=
  ∃ h, t.Shows h

/-- The tracker holds a code. -/
def Holds (t : Tracker) (code : Byte) : Prop :=
  if isMod code then hasMod t.mods code = true else code ≠ 0 ∧ code ∈ t.keys

/-- A press of the code finds room. -/
def Room (t : Tracker) (code : Byte) : Prop :=
  isMod code = true ∨ code ∈ t.keys ∨ 0 ∈ t.keys

theorem holds_iff (t : Tracker) (h : Held) (hs : t.Shows h) (code : Byte) :
    t.Holds code ↔ h.has code := by
  unfold Holds Held.has
  rw [hs.mods]
  by_cases hmod : isMod code
  · rw [if_pos hmod, if_pos hmod]
  · rw [if_neg hmod, if_neg hmod]
    constructor
    · rintro ⟨hzero, hmem⟩
      exact (hs.keys.mem_iff code hzero).mp hmem
    · intro hmem
      have hzero := (h.kinds code hmem).1
      exact ⟨hzero, (hs.keys.mem_iff code hzero).mpr hmem⟩

theorem room_iff (t : Tracker) (h : Held) (hs : t.Shows h) (code : Byte) (hzero : code ≠ 0) :
    t.Room code ↔ h.room code := by
  have hfew := h.few
  have hfree : 0 ∈ t.keys ↔ h.keys.length < 6 := by
    have hfull := hs.keys.full_iff
    rw [← not_iff_not, hfull]
    omega
  unfold Room Held.room
  rw [hs.keys.mem_iff code hzero, hfree]

theorem holds_track (t : Tracker) (h : t.Packed) (keycode : Keycode) (pressed : Bool)
    (hbasic : keycode ≤ 0xFF) (code : Byte) :
    (t.track keycode pressed).Holds code ↔
      if pressed then
        t.Holds code ∨ code = lowByte keycode ∧ code ≠ 0 ∧ t.Room code
      else t.Holds code ∧ code ≠ lowByte keycode := by
  obtain ⟨held, hs⟩ := h
  have htrack := track_shows keycode pressed t held hs hbasic
  rw [holds_iff _ _ htrack, holds_iff _ _ hs]
  cases pressed with
  | true =>
    rw [if_pos rfl, if_pos rfl, Held.has_press]
    refine or_congr_right (and_congr_right (fun hsame => ?_))
    rw [← hsame]
    exact and_congr_right (fun hzero => (room_iff t held hs code hzero).symm)
  | false =>
    rw [if_neg Bool.false_ne_true, if_neg Bool.false_ne_true]
    exact Held.has_release _ _ _

theorem track_packed (t : Tracker) (h : t.Packed) (keycode : Keycode) (pressed : Bool)
    (hbasic : keycode ≤ 0xFF) : (t.track keycode pressed).Packed := by
  obtain ⟨held, hs⟩ := h
  exact ⟨_, track_shows keycode pressed t held hs hbasic⟩

theorem eq_empty_iff (t : Tracker) (h : t.Packed) : t = empty ↔ ∀ code, ¬ t.Holds code := by
  obtain ⟨held, hs⟩ := h
  constructor
  · rintro rfl code
    rw [holds_iff empty Held.empty empty_shows]
    exact Held.has_empty code
  · intro hnone
    have hempty := (Held.isEmpty_iff held).mpr
      (fun code hc => hnone code ((holds_iff t held hs code).mpr hc))
    have hplaces := hs.keys.places
    rw [hempty.2, List.nil_append, List.length_nil, Nat.sub_zero,
      ← Vector.toList_replicate] at hplaces
    -- packed around no key, the six places are all free
    have hkeys : t.keys = Vector.replicate 6 0 := Vector.toList_inj.mp hplaces
    cases t with
    | mk mods keys =>
      have hmods : mods = 0 := hs.mods.trans hempty.1
      dsimp only at hkeys
      rw [hmods, hkeys]
      rfl

end Tracker

end K530
