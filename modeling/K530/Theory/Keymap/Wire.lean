import K530.Core.Usb
import K530.Lib.Places

/-!
# What Is on the Wire

The keyboard report as a set of keys, whichever of its two views is in force.

A bitmap takes every key. Six places take six, so a press may find no room, and
`Report.room` is the condition. Apart from that the two views behave alike:
`isKeyPressed_add` and `isKeyPressed_del` say that adding a key changes the
answer for that key and no other, and so does taking it out.

The modifiers of the report are those of the last send. Every function that
changes a modifier register also sends, so between functions the report shows
the real and the weak modifiers; `Settled` says so. No function here ever fills
the macro or the one-shot register, which is the other half of it.

## Main definitions

* `Report.room`: A press finds room in the report.

## Theorems

* `isKeyPressed_add`, `isKeyPressed_del`: The report as a set of keys.
* `registerCode_spec`, `unregisterCode_spec`: What they do to the keys and the
  real modifiers.
-/

namespace K530

namespace Report

/-! ### The six places -/

variable (r : Report)

theorem keys_setKey (i : Fin 6) (code : Byte) :
    (r.setKey i code).keys = r.keys.setIfInBounds i code := by
  unfold keys setKey
  refine Vector.ext (fun j hj => ?_)
  rw [Vector.getElem_ofFn, Vector.getElem_setIfInBounds hj]
  dsimp only
  by_cases hij : i.val = j
  · subst hij
    rw [if_pos rfl, Vector.getElem_set_self]
  · rw [if_neg hij, Vector.getElem_set_ne _ _ (by omega), Vector.getElem_ofFn]

theorem mem_keys_delKeyByte (code a : Byte) (ha : a ≠ 0) :
    a ∈ (r.delKeyByte code).keys ↔ a ∈ r.keys ∧ a ≠ code := by
  rw [mem_keys, mem_keys]
  unfold delKeyByte
  simp only [Vector.getElem_mapIdx]
  constructor
  · rintro ⟨i, hi⟩
    by_cases hcode : r.bits[i.val + 1] = code
    · rw [if_pos ⟨by omega, by omega, hcode⟩] at hi
      exact absurd hi.symm ha
    · rw [if_neg (fun hc => hcode hc.2.2)] at hi
      exact ⟨⟨i, hi⟩, fun hc => hcode (hi.trans hc)⟩
  · rintro ⟨⟨i, hi⟩, hne⟩
    refine ⟨i, ?_⟩
    rw [if_neg (fun hc => hne (hi.symm.trans hc.2.2))]
    exact hi

theorem zero_mem_keys_delKeyByte (code : Byte) (h : code ∈ r.keys) :
    0 ∈ (r.delKeyByte code).keys := by
  rw [mem_keys] at h ⊢
  obtain ⟨i, hi⟩ := h
  refine ⟨i, ?_⟩
  unfold delKeyByte
  simp only [Vector.getElem_mapIdx]
  rw [if_pos ⟨by omega, by omega, hi⟩]

/-! ### Keys, in either view -/

/-- A press of the key finds room. -/
def room (nkro : Bool) (r : Report) (key : Byte) : Bool :=
  nkro || r.keys.contains key || r.keys.contains 0

theorem room_false (key : Byte) : room false r key ↔ key ∈ r.keys ∨ 0 ∈ r.keys := by
  unfold room
  rw [Bool.false_or, Bool.or_eq_true, Vector.contains_iff_mem, Vector.contains_iff_mem]

theorem isKeyPressed_false (j : Byte) : isKeyPressed false r j ↔ j ≠ 0 ∧ j ∈ r.keys := by
  unfold isKeyPressed
  by_cases hj : j = 0
  · rw [if_pos hj]
    exact ⟨fun h => Bool.noConfusion h, fun h => absurd hj h.1⟩
  · rw [if_neg hj, if_neg Bool.false_ne_true, Vector.contains_iff_mem]
    exact ⟨fun h => ⟨hj, h⟩, fun h => h.2⟩

theorem isKeyPressed_addKeyByte (code j : Byte) (hcode : code ≠ 0) :
    isKeyPressed false (r.addKeyByte code) j ↔
      isKeyPressed false r j ∨ room false r code ∧ j = code := by
  rw [isKeyPressed_false, isKeyPressed_false, room_false]
  unfold addKeyByte
  by_cases hin : code ∈ r.keys
  · -- the key is there already, and the report stays
    rw [if_pos (Vector.contains_iff_mem.mpr hin)]
    refine ⟨Or.inl, ?_⟩
    rintro (h | ⟨-, rfl⟩)
    · exact h
    · exact ⟨hcode, hin⟩
  · rw [if_neg (fun hc => hin (Vector.contains_iff_mem.mp hc))]
    cases hfree : r.keys.finIdxOf? 0 with
    | none =>
      -- no place is free, and the key is dropped
      have hfull := (Places.finIdxOf?_eq_none r.keys 0).mp hfree
      refine ⟨Or.inl, ?_⟩
      rintro (h | ⟨hroom, -⟩)
      · exact h
      · exact absurd hroom (not_or.mpr ⟨hin, hfull⟩)
    | some i =>
      have hfirst := Places.finIdxOf?_eq_some r.keys 0 i hfree
      have hroom : 0 ∈ r.keys := hfirst.1 ▸ Vector.getElem_mem i.isLt
      dsimp only
      rw [keys_setKey]
      constructor
      · rintro ⟨hj, hmem⟩
        rcases (Places.mem_set_free r.keys 0 code j i hfirst.1 hj).mp hmem with h | h
        · exact Or.inl ⟨hj, h⟩
        · exact Or.inr ⟨Or.inr hroom, h⟩
      · rintro (⟨hj, hmem⟩ | ⟨-, rfl⟩)
        · exact ⟨hj, (Places.mem_set_free r.keys 0 code j i hfirst.1 hj).mpr (Or.inl hmem)⟩
        · exact ⟨hcode, (Places.mem_set_free r.keys 0 j j i hfirst.1 hcode).mpr (Or.inr rfl)⟩

theorem isKeyPressed_delKeyByte (code j : Byte) :
    isKeyPressed false (r.delKeyByte code) j ↔
      isKeyPressed false r j ∧ j ≠ code := by
  rw [isKeyPressed_false, isKeyPressed_false]
  constructor
  · rintro ⟨hj, hmem⟩
    have h := (mem_keys_delKeyByte r code j hj).mp hmem
    exact ⟨⟨hj, h.1⟩, h.2⟩
  · rintro ⟨⟨hj, hmem⟩, hne⟩
    exact ⟨hj, (mem_keys_delKeyByte r code j hj).mpr ⟨hmem, hne⟩⟩

/-! ### The bitmap -/

theorem bit_inj (a b : Byte) (hbyte : a.toNat / 8 = b.toNat / 8)
    (hbit : a.toNat % 8 = b.toNat % 8) : a = b :=
  BitVec.eq_of_toNat_eq (by omega)

theorem isKeyPressed_true (j : Byte) :
    isKeyPressed true r j ↔
      j ≠ 0 ∧ ∃ h : j.toNat / 8 < 30, r.bits[j.toNat / 8].getLsbD (j.toNat % 8) := by
  unfold isKeyPressed
  by_cases hj : j = 0
  · rw [if_pos hj]
    exact ⟨fun h => Bool.noConfusion h, fun h => absurd hj h.1⟩
  · rw [if_neg hj, if_pos rfl]
    by_cases hfits : j.toNat / 8 < 30
    · rw [dif_pos hfits]
      exact ⟨fun h => ⟨hj, hfits, h⟩, fun h => h.2.2⟩
    · rw [dif_neg hfits]
      exact ⟨fun h => Bool.noConfusion h, fun h => absurd h.2.1 hfits⟩

theorem isKeyPressed_setByte (code : Byte) (byte : Byte) (hfits : code.toNat / 8 < 30) (on : Bool)
    (hbyte : ∀ k, byte.getLsbD k =
      if code.toNat % 8 = k then on else r.bits[code.toNat / 8].getLsbD k) (j : Byte) :
    isKeyPressed true { r with bits := r.bits.set (code.toNat / 8) byte } j ↔
      if j = code then j ≠ 0 ∧ on = true else isKeyPressed true r j = true := by
  rw [isKeyPressed_true, isKeyPressed_true]
  by_cases hsame : j = code
  · subst hsame
    rw [if_pos rfl]
    refine and_congr_right (fun _ => ?_)
    simp only [Vector.getElem_set_self, hbyte, if_true]
    exact ⟨fun h => h.2, fun h => ⟨hfits, h⟩⟩
  · rw [if_neg hsame]
    refine and_congr_right (fun _ => exists_congr (fun h => ?_))
    dsimp only
    by_cases hrow : code.toNat / 8 = j.toNat / 8
    · -- another bit of the same byte
      have hbit : code.toNat % 8 ≠ j.toNat % 8 := fun hc => hsame (bit_inj j code hrow.symm hc.symm)
      simp only [hrow, Vector.getElem_set_self] at hbyte ⊢
      rw [hbyte, if_neg hbit]
    · rw [Vector.getElem_set_ne _ _ hrow]

theorem isKeyPressed_addKeyBit (code j : Byte) (hcode : code ≠ 0) (hfits : code.toNat / 8 < 30) :
    isKeyPressed true (r.addKeyBit code) j ↔
      isKeyPressed true r j ∨ j = code := by
  unfold addKeyBit
  rw [dif_pos hfits, isKeyPressed_setByte r code _ hfits true]
  · by_cases hsame : j = code
    · rw [if_pos hsame]
      exact ⟨fun _ => Or.inr hsame, fun _ => ⟨hsame ▸ hcode, rfl⟩⟩
    · rw [if_neg hsame]
      exact ⟨Or.inl, fun h => h.resolve_right hsame⟩
  · intro k
    rw [BitVec.getLsbD_or, BitTable.one_shiftLeft_getLsbD _ _ (Nat.mod_lt _ (by omega))]
    by_cases hk : code.toNat % 8 = k
    · rw [if_pos hk, decide_eq_true hk, Bool.or_true]
    · rw [if_neg hk, decide_eq_false hk, Bool.or_false]

theorem isKeyPressed_delKeyBit (code j : Byte) (hfits : code.toNat / 8 < 30) :
    isKeyPressed true (r.delKeyBit code) j ↔
      isKeyPressed true r j ∧ j ≠ code := by
  unfold delKeyBit
  rw [dif_pos hfits, isKeyPressed_setByte r code _ hfits false]
  · by_cases hsame : j = code
    · rw [if_pos hsame]
      exact ⟨fun h => Bool.noConfusion h.2, fun h => absurd hsame h.2⟩
    · rw [if_neg hsame]
      exact ⟨fun h => ⟨h, hsame⟩, fun h => h.1⟩
  · intro k
    rw [BitVec.getLsbD_and, BitVec.getLsbD_not,
      BitTable.one_shiftLeft_getLsbD _ _ (Nat.mod_lt _ (by omega))]
    by_cases hk : code.toNat % 8 = k
    · rw [if_pos hk, decide_eq_true hk, Bool.not_true, Bool.and_false, Bool.and_false]
    · rw [if_neg hk, decide_eq_false hk, Bool.not_false, Bool.and_true]
      by_cases hlt : k < 8
      · rw [decide_eq_true hlt, Bool.and_true]
      · rw [BitVec.getLsbD_of_ge _ _ (Nat.not_lt.mp hlt), Bool.false_and]

/-! ### Either view -/

theorem isKeyPressed_add (nkro : Bool) (r : Report) (code j : Byte) (hcode : code ≠ 0)
    (hfits : code.toNat / 8 < 30) :
    isKeyPressed nkro (r.addKeyToReport nkro code) j ↔
      isKeyPressed nkro r j ∨ room nkro r code ∧ j = code := by
  cases nkro with
  | false => exact isKeyPressed_addKeyByte r code j hcode
  | true =>
    refine (isKeyPressed_addKeyBit r code j hcode hfits).trans ?_
    unfold room
    rw [Bool.true_or, Bool.true_or, and_iff_right rfl]

theorem isKeyPressed_del (nkro : Bool) (r : Report) (code j : Byte)
    (hfits : code.toNat / 8 < 30) :
    isKeyPressed nkro (r.delKeyFromReport nkro code) j ↔
      isKeyPressed nkro r j ∧ j ≠ code := by
  cases nkro with
  | false => exact isKeyPressed_delKeyByte r code j
  | true => exact isKeyPressed_delKeyBit r code j hfits

theorem room_del (nkro : Bool) (r : Report) (code : Byte)
    (h : isKeyPressed nkro r code) :
    room nkro r code ∧ room nkro (r.delKeyFromReport nkro code) code := by
  cases nkro with
  | false =>
    have hin := ((isKeyPressed_false r code).mp h).2
    rw [room_false, room_false]
    exact ⟨Or.inl hin, Or.inr (zero_mem_keys_delKeyByte r code hin)⟩
  | true =>
    unfold room
    exact ⟨rfl, rfl⟩

theorem isKeyPressed_clear (nkro : Bool) (r : Report) (key : Byte) :
    isKeyPressed nkro (r.clearKeysFromReport nkro) key = false := by
  rw [Bool.eq_false_iff]
  cases nkro with
  | false =>
    rw [ne_eq, isKeyPressed_false, mem_keys]
    rintro ⟨hkey, i, hi⟩
    unfold clearKeysFromReport at hi
    simp only [Bool.false_eq_true, if_false, Vector.getElem_mapIdx] at hi
    rw [if_pos ⟨by omega, by omega⟩] at hi
    exact hkey hi.symm
  | true =>
    rw [ne_eq, isKeyPressed_true]
    rintro ⟨-, _, hbit⟩
    unfold clearKeysFromReport at hbit
    simp only [if_true, Vector.getElem_replicate, BitVec.ofNat_eq_ofNat,
      BitVec.getLsbD_zero, Bool.false_eq_true] at hbit

/-- No key and no modifier. -/
def Clear (nkro : Bool) (r : Report) : Prop :=
  r.mods = 0 ∧ ∀ key, isKeyPressed nkro r key = false

end Report

namespace Usb

/-- The report shows the real and the weak modifiers, and there are no
    others. -/
structure Settled (u : Usb) : Prop where
  macroMods : u.macroMods = 0
  oneshotMods : u.oneshotMods = 0
  shown : u.report.mods = u.realMods ||| u.weakMods

/-- The host sees the key as down. -/
def Pressed (u : Usb) (key : Byte) : Prop :=
  u.report.isKeyPressed u.nkro key = true

/-- A press of the key finds room. -/
def Room (u : Usb) (key : Byte) : Prop :=
  u.report.room u.nkro key = true

/-- No key and no modifier, in the report or beside it. -/
def Clear (u : Usb) : Prop :=
  u.report.Clear u.nkro ∧ u.realMods = 0 ∧ u.weakMods = 0

theorem init_settled (nkro : Bool) : (init nkro).Settled :=
  ⟨rfl, rfl, BitVec.or_zero.symm⟩

variable (u : Usb)

theorem clear_of_empty (hreport : u.report = Report.empty) (hreal : u.realMods = 0)
    (hweak : u.weakMods = 0) : u.Clear := by
  refine ⟨⟨by rw [hreport]; rfl, fun key => ?_⟩, hreal, hweak⟩
  rw [hreport]
  have hcleared := Report.isKeyPressed_clear u.nkro Report.empty key
  have hsame : Report.empty.clearKeysFromReport u.nkro = Report.empty := by
    cases u.nkro <;> rfl
  rw [hsame] at hcleared
  exact hcleared

theorem room_of_clear (h : u.Clear) (key : Byte) : u.Room key := by
  have hfirst := h.1.2 (u.report.keys[0])
  unfold Room Report.room
  cases hnkro : u.nkro with
  | true => rfl
  | false =>
    rw [hnkro, Bool.eq_false_iff, ne_eq, Report.isKeyPressed_false] at hfirst
    -- the first place holds no key, so it is free
    have hfree : u.report.keys[0] = 0 := by
      by_contra hne
      exact hfirst ⟨hne, Vector.getElem_mem _⟩
    have hmem : 0 ∈ u.report.keys := hfree ▸ Vector.getElem_mem _
    rw [Vector.contains_iff_mem.mpr hmem, Bool.or_true]

theorem clear_iff (h : u.Settled) :
    u.Clear ↔ (∀ key, ¬ u.Pressed key) ∧ u.realMods = 0 ∧ u.weakMods = 0 := by
  unfold Clear Report.Clear Pressed
  simp only [Bool.not_eq_true]
  constructor
  · intro hc
    exact ⟨hc.1.2, hc.2⟩
  · intro hc
    refine ⟨⟨?_, hc.1⟩, hc.2⟩
    rw [h.shown, hc.2.1, hc.2.2]
    rfl

theorem or_noMods (mods : Byte) : mods ||| 0 = mods := BitVec.or_zero

theorem andNot_noMods (mods : Byte) : mods &&& ~~~0 = mods := BitVec.and_allOnes

/-! ### Sending -/

theorem sendKeyboardReport_eq (hmacroMods : u.macroMods = 0) (honeshot : u.oneshotMods = 0) :
    u.sendKeyboardReport =
      { u with
        report := { u.report with mods := u.realMods ||| u.weakMods },
        sent := u.sent ++ [.keyboard { u.report with mods := u.realMods ||| u.weakMods }] } := by
  unfold sendKeyboardReport
  dsimp only
  rw [honeshot, if_neg (fun hc => hc rfl), hmacroMods, or_noMods]

theorem sendKeyboardReport_settled (hmacroMods : u.macroMods = 0) (honeshot : u.oneshotMods = 0) :
    u.sendKeyboardReport.Settled := by
  rw [sendKeyboardReport_eq u hmacroMods honeshot]
  exact ⟨hmacroMods, honeshot, rfl⟩

/-- What a function did to the keys and to the two modifier registers: `keys`
    says which keys are down after it. -/
structure Became (u u' : Usb) (realMods weakMods : Byte) (keys : Byte → Prop) : Prop where
  settled : u'.Settled
  nkro : u'.nkro = u.nkro
  realMods : u'.realMods = realMods
  weakMods : u'.weakMods = weakMods
  keys : ∀ key, u'.Pressed key ↔ keys key

theorem became_self (h : u.Settled) : u.Became u u.realMods u.weakMods u.Pressed :=
  ⟨h, rfl, rfl, rfl, fun _ => Iff.rfl⟩

theorem became_send (u v : Usb) (keys : Byte → Prop) (hnkro : v.nkro = u.nkro)
    (hmacroMods : v.macroMods = 0) (honeshot : v.oneshotMods = 0)
    (hkeys : ∀ key, v.Pressed key ↔ keys key) :
    u.Became v.sendKeyboardReport v.realMods v.weakMods keys := by
  have heq := sendKeyboardReport_eq v hmacroMods honeshot
  refine ⟨sendKeyboardReport_settled v hmacroMods honeshot, ?_, ?_, ?_, fun key => ?_⟩
  · rw [heq]
    exact hnkro
  · rw [heq]
  · rw [heq]
  · rw [heq]
    exact hkeys key

theorem became_sent (h : u.Settled) (sent : List HostReport) (keys : Byte → Prop)
    (hkeys : ∀ key, u.Pressed key ↔ keys key) :
    u.Became { u with sent } u.realMods u.weakMods keys :=
  ⟨⟨h.macroMods, h.oneshotMods, h.shown⟩, rfl, rfl, rfl, hkeys⟩

/-! ### Eight bits -/

theorem code_kinds : ∀ code : Byte,
    (isKey code → code ≠ 0 ∧ code.toNat / 8 < 30 ∧ isMod code = false) ∧
      (isMod code → code ≠ 0) := by
  decide +kernel

/-- The modifier bit of a modifier keycode, and no bit of any other. -/
def modMask (code : Byte) : Byte :=
  if isMod code then modBit code else 0

theorem hasMod_addMask (mods code other : Byte) (hother : isMod other) :
    hasMod (mods ||| modMask code) other = true ↔ hasMod mods other = true ∨ other = code := by
  unfold modMask
  by_cases hmod : isMod code
  · rw [if_pos hmod, hasMod_add mods code other hmod hother, Bool.or_eq_true, decide_eq_true_eq]
  · have hne : other ≠ code := fun hc => hmod (hc ▸ hother)
    rw [if_neg hmod, or_noMods]
    exact (or_iff_left hne).symm

theorem hasMod_delMask (mods code other : Byte) (hother : isMod other) :
    hasMod (mods &&& ~~~modMask code) other = true ↔ hasMod mods other = true ∧ other ≠ code := by
  unfold modMask
  by_cases hmod : isMod code
  · rw [if_pos hmod, hasMod_del mods code other hmod hother, Bool.and_eq_true,
      Bool.not_eq_true', decide_eq_false_iff_not]
  · have hne : other ≠ code := fun hc => hmod (hc ▸ hother)
    rw [if_neg hmod, andNot_noMods]
    exact (and_iff_left hne).symm

theorem pressed_addKey (code key : Byte) (hkey : isKey code) :
    (u.addKey code).Pressed key ↔ u.Pressed key ∨ u.Room code ∧ key = code :=
  Report.isKeyPressed_add u.nkro u.report code key ((code_kinds code).1 hkey).1
    ((code_kinds code).1 hkey).2.1

theorem pressed_delKey (code key : Byte) (hkey : isKey code) :
    (u.delKey code).Pressed key ↔ u.Pressed key ∧ key ≠ code :=
  Report.isKeyPressed_del u.nkro u.report code key ((code_kinds code).1 hkey).2.1

theorem became_letGo (code : Byte) (u : Usb) (h : u.Settled) (hkey : isKey code) :
    let v := if u.report.isKeyPressed u.nkro code then (u.delKey code).sendKeyboardReport else u
    u.Became v u.realMods u.weakMods (fun key => u.Pressed key ∧ key ≠ code) ∧
      (v.Room code ↔ u.Room code) := by
  dsimp only
  by_cases hdown : u.report.isKeyPressed u.nkro code
  · -- the place of the key is free once it is out, and had been its own before
    rw [if_pos hdown]
    have hroom := Report.room_del u.nkro u.report code hdown
    refine ⟨became_send u (u.delKey code) _ rfl h.macroMods h.oneshotMods
      (fun key => pressed_delKey u code key hkey), ?_⟩
    rw [sendKeyboardReport_eq (u.delKey code) h.macroMods h.oneshotMods]
    exact ⟨fun _ => hroom.1, fun _ => hroom.2⟩
  · rw [if_neg hdown]
    refine ⟨⟨h, rfl, rfl, rfl, fun key => ⟨fun hp => ⟨hp, ?_⟩, fun hp => hp.1⟩⟩, Iff.rfl⟩
    rintro rfl
    exact hdown hp

theorem registerCode_spec (code : Byte) (u : Usb) (h : u.Settled) :
    u.Became (u.registerCode code) (u.realMods ||| modMask code) u.weakMods
      (fun key => u.Pressed key ∨ isKey code = true ∧ u.Room code ∧ key = code) := by
  unfold registerCode modMask
  by_cases hkey : isKey code
  · have hkind := (code_kinds code).1 hkey
    obtain ⟨hletGo, hroom⟩ := became_letGo code u h hkey
    rw [if_neg hkind.1, if_pos hkey, hkind.2.2, if_neg Bool.false_ne_true, or_noMods]
    dsimp only at hletGo hroom ⊢
    -- from here on, what matters of the key let go is what `became_letGo` says
    generalize (if u.report.isKeyPressed u.nkro code then (u.delKey code).sendKeyboardReport
      else u) = v at hletGo hroom ⊢
    have hsend := became_send u (v.addKey code)
      (fun key => u.Pressed key ∨ isKey code = true ∧ u.Room code ∧ key = code) hletGo.nkro
      hletGo.settled.macroMods hletGo.settled.oneshotMods (fun key => ?_)
    · rw [← hletGo.realMods, ← hletGo.weakMods]
      exact hsend
    · rw [pressed_addKey v code key hkey, hletGo.keys, hroom, and_iff_right hkey]
      constructor
      · rintro (hp | hp)
        · exact Or.inl hp.1
        · exact Or.inr hp
      · intro hp
        by_cases hsame : key = code
        · -- it was down, so the place it had is the one it takes again
          refine Or.inr ⟨?_, hsame⟩
          rcases hp with hp | hp
          · exact (Report.room_del u.nkro u.report code (hsame ▸ hp)).1
          · exact hp.1
        · exact Or.inl ⟨hp.resolve_right (fun hc => hsame hc.2), hsame⟩
  · have hkeys : ∀ key, u.Pressed key ↔
        u.Pressed key ∨ isKey code ∧ u.Room code ∧ key = code :=
      fun key => ⟨Or.inl, fun hp => hp.resolve_right (fun hc => hkey hc.1)⟩
    by_cases hmod : isMod code
    · rw [if_neg ((code_kinds code).2 hmod), if_neg hkey, if_pos hmod, if_pos hmod]
      exact became_send u (u.addMods (modBit code)) _ rfl h.macroMods h.oneshotMods hkeys
    · rw [if_neg hkey, if_neg hmod, if_neg hmod, or_noMods]
      -- a system or media key is only sent
      split
      · exact became_sent u h u.sent _ hkeys
      · split
        · exact became_sent u h _ _ hkeys
        · split
          · exact became_sent u h _ _ hkeys
          · exact became_sent u h u.sent _ hkeys

theorem unregisterCode_spec (code : Byte) (u : Usb) (h : u.Settled) :
    u.Became (u.unregisterCode code) (u.realMods &&& ~~~modMask code) u.weakMods
      (fun key => u.Pressed key ∧ ¬ (isKey code = true ∧ key = code)) := by
  unfold unregisterCode modMask
  by_cases hkey : isKey code
  · have hkind := (code_kinds code).1 hkey
    rw [if_neg hkind.1, if_pos hkey, hkind.2.2, if_neg Bool.false_ne_true,
      andNot_noMods]
    refine became_send u (u.delKey code) _ rfl h.macroMods h.oneshotMods (fun key => ?_)
    rw [pressed_delKey u code key hkey, and_iff_right hkey]
  · have hkeys : ∀ key, u.Pressed key ↔
        u.Pressed key ∧ ¬ (isKey code ∧ key = code) :=
      fun key => ⟨fun hp => ⟨hp, fun hc => hkey hc.1⟩, fun hp => hp.1⟩
    by_cases hmod : isMod code
    · rw [if_neg ((code_kinds code).2 hmod), if_neg hkey, if_pos hmod, if_pos hmod]
      exact became_send u (u.delMods (modBit code)) _ rfl h.macroMods h.oneshotMods hkeys
    · rw [if_neg hkey, if_neg hmod, if_neg hmod, andNot_noMods]
      split
      · exact became_sent u h u.sent _ hkeys
      · split
        · exact became_sent u h _ _ hkeys
        · split
          · exact became_sent u h _ _ hkeys
          · exact became_sent u h u.sent _ hkeys

/-! ### Clearing -/

theorem clearKeyboardButModsAndKeys_spec (h : u.Settled) :
    u.Became u.clearKeyboardButModsAndKeys u.realMods 0 u.Pressed :=
  became_send u (((u.systemSend 0).consumerSend 0).clearWeakMods.clearMacroMods) _ rfl rfl
    h.oneshotMods (fun _ => Iff.rfl)

theorem clearKeyboard_spec (h : u.Settled) : u.Became u.clearKeyboard 0 0 (fun _ => False) := by
  refine became_send u
    (((u.clearMods.clearKeys.systemSend 0).consumerSend 0).clearWeakMods.clearMacroMods) _ rfl rfl
    h.oneshotMods (fun key => ?_)
  have hnone := Report.isKeyPressed_clear u.nkro u.report key
  exact ⟨fun hp => absurd (hnone.symm.trans hp) Bool.false_ne_true, False.elim⟩

/-! ### Sixteen bits -/

variable (code : Keycode)

theorem extractModBits_plain (h : plainModOrNo code) : extractModBits code = 0 := by
  -- the bits of the modifiers are looked at from 0x0100 up
  have hlow : ¬ (0x0100 ≤ code ∧ code ≤ 0x1FFF) := by
    unfold plainModOrNo at h
    rw [Bool.or_eq_true, Bool.and_eq_true, decide_eq_true_eq, decide_eq_true_eq, beq_iff_eq] at h
    rintro ⟨hc, -⟩
    rcases h with h | h
    · have := h.2
      bv_omega
    · rw [h] at hc
      exact absurd hc (by decide)
  unfold extractModBits
  rw [if_neg hlow]

theorem registerWeakMods_spec (mods : Byte) (u : Usb) (h : u.Settled) :
    u.Became (u.registerWeakMods mods) u.realMods (u.weakMods ||| mods) u.Pressed ∧
      ∀ key, (u.registerWeakMods mods).Room key ↔ u.Room key := by
  unfold registerWeakMods
  by_cases hmods : mods = 0
  · subst hmods
    rw [if_neg (fun hc => hc rfl), or_noMods]
    exact ⟨became_self u h, fun _ => Iff.rfl⟩
  · rw [if_pos hmods]
    refine ⟨became_send u (u.addWeakMods mods) _ rfl h.macroMods h.oneshotMods
      (fun _ => Iff.rfl), fun key => ?_⟩
    rw [sendKeyboardReport_eq (u.addWeakMods mods) h.macroMods h.oneshotMods]
    exact Iff.rfl

theorem unregisterWeakMods_spec (mods : Byte) (u : Usb) (h : u.Settled) :
    u.Became (u.unregisterWeakMods mods) u.realMods (u.weakMods &&& ~~~mods) u.Pressed := by
  unfold unregisterWeakMods
  by_cases hmods : mods = 0
  · subst hmods
    rw [if_neg (fun hc => hc rfl), andNot_noMods]
    exact became_self u h
  · rw [if_pos hmods]
    exact became_send u (u.delWeakMods mods) _ rfl h.macroMods h.oneshotMods (fun _ => Iff.rfl)

theorem registerCode16_eq (u : Usb) :
    u.registerCode16 code =
      (u.registerWeakMods (extractModBits code)).registerCode (lowByte code) := by
  unfold registerCode16
  by_cases hplain : plainModOrNo code
  · rw [if_pos hplain, extractModBits_plain code hplain]
    rfl
  · rw [if_neg hplain]

theorem unregisterCode16_eq (u : Usb) :
    u.unregisterCode16 code =
      (u.unregisterCode (lowByte code)).unregisterWeakMods (extractModBits code) := by
  unfold unregisterCode16
  by_cases hplain : plainModOrNo code
  · rw [if_pos hplain, extractModBits_plain code hplain]
    rfl
  · rw [if_neg hplain]

theorem registerCode16_spec (u : Usb) (h : u.Settled) :
    u.Became (u.registerCode16 code) (u.realMods ||| modMask (lowByte code))
      (u.weakMods ||| extractModBits code)
      (fun key => u.Pressed key ∨
        isKey (lowByte code) ∧ u.Room (lowByte code) ∧ key = lowByte code) := by
  obtain ⟨hweak, hroom⟩ := registerWeakMods_spec (extractModBits code) u h
  have hcode := registerCode_spec (lowByte code) _ hweak.settled
  rw [registerCode16_eq]
  refine ⟨hcode.settled, hcode.nkro.trans hweak.nkro, ?_, ?_, fun key => ?_⟩
  · rw [hcode.realMods, hweak.realMods]
  · rw [hcode.weakMods, hweak.weakMods]
  · -- the weak modifiers take no room from the key
    rw [hcode.keys, hweak.keys, hroom]

theorem unregisterCode16_spec (u : Usb) (h : u.Settled) :
    u.Became (u.unregisterCode16 code) (u.realMods &&& ~~~modMask (lowByte code))
      (u.weakMods &&& ~~~extractModBits code)
      (fun key => u.Pressed key ∧ ¬ (isKey (lowByte code) = true ∧ key = lowByte code)) := by
  have hcode := unregisterCode_spec (lowByte code) u h
  have hweak := unregisterWeakMods_spec (extractModBits code) _ hcode.settled
  rw [unregisterCode16_eq]
  refine ⟨hweak.settled, hweak.nkro.trans hcode.nkro, ?_, ?_, fun key => ?_⟩
  · rw [hweak.realMods, hcode.realMods]
  · rw [hweak.weakMods, hcode.weakMods]
  · rw [hweak.keys, hcode.keys]

end Usb

end K530
