import K530.Theory.Via.Bounds

/-!
# Which Commands Stay in Their Region

The keymap and the macros have a region of the EEPROM each, and a command that
writes to one should leave everything else alone.

A stretch does, whatever its offset and size, because every byte of it is
compared with the end of the region before it is written; and so does a reset.
The keycode of a single key does not. Its address comes from three numbers that
are not compared with anything, and may be anywhere in the EEPROM. It is inside
the region when the key is one of the keymap, and then no other key is written.

## Main definitions

* `KeepsTo`: Nothing outside a region has changed.

## Theorems

* `via_region_iff`: Exactly the keycodes that are not written inside do not.
* `via_region_broken`: Some are not.
-/

namespace K530

open Checked

/-! ### The EEPROM -/

namespace Eeprom

variable {size : Nat}

/-- Nothing outside the region has changed. -/
def KeepsTo (addr length : Nat) (e e' : Eeprom size) : Prop :=
  ∀ i (h : i < size), ¬ (addr ≤ i ∧ i < addr + length) → e'[i] = e[i]

theorem KeepsTo.refl (addr length : Nat) (e : Eeprom size) : KeepsTo addr length e e :=
  fun _ _ _ => rfl

theorem KeepsTo.trans {addr length : Nat} {e e' e'' : Eeprom size} (h : KeepsTo addr length e e')
    (h' : KeepsTo addr length e' e'') : KeepsTo addr length e e'' :=
  fun i hi hout => (h' i hi hout).trans (h i hi hout)

theorem getElem_updateByte (e : Eeprom size) (address : Nat) (value : Byte) (i : Nat)
    (h : i < size) :
    (e.updateByte address value)[i] = if address % 2 ^ 16 = i then value else e[i] := by
  unfold updateByte
  exact Vector.getElem_setIfInBounds h

theorem readByte_eq (e : Eeprom size) (address : Nat) (h : address % 2 ^ 16 < size) :
    e.readByte address = e[address % 2 ^ 16] := by
  unfold readByte
  have hlen : address % 2 ^ 16 < e.toList.length := by rwa [Vector.length_toList]
  rw [List.getD_eq_getElem?_getD, List.getElem?_eq_getElem hlen, Option.getD_some,
    Vector.getElem_toList]

theorem readByte_updateByte (e : Eeprom size) (written read : Nat) (value : Byte)
    (h : read % 2 ^ 16 < size) :
    (e.updateByte written value).readByte read =
      if written % 2 ^ 16 = read % 2 ^ 16 then value else e.readByte read := by
  rw [readByte_eq _ _ h, getElem_updateByte _ _ _ _ h, readByte_eq _ _ h]

/-- A write is lost or in the region. -/
def WritesInside (size addr length address : Nat) : Prop :=
  size ≤ address % 2 ^ 16 ∨ addr ≤ address % 2 ^ 16 ∧ address % 2 ^ 16 < addr + length

instance (size addr length address : Nat) : Decidable (WritesInside size addr length address) :=
  inferInstanceAs (Decidable (_ ∨ _))

theorem updateByte_keepsTo (e : Eeprom size) (addr length address : Nat) (value : Byte)
    (h : WritesInside size addr length address) :
    KeepsTo addr length e (e.updateByte address value) := by
  intro i hi hout
  rw [getElem_updateByte, if_neg]
  rintro rfl
  rcases h with h | h
  · omega
  · exact hout h

theorem writesInside_of_lt (size addr length i : Nat) (hi : i < length)
    (hfits : addr + length ≤ 2 ^ 16) : WritesInside size addr length (addr + i) := by
  right
  omega

theorem KeepsTo.foldl {α : Type} {addr length : Nat} (f : Eeprom size → α → Eeprom size)
    (as : List α) (h : ∀ e, ∀ a ∈ as, KeepsTo addr length e (f e a)) :
    ∀ e, KeepsTo addr length e (as.foldl f e) := by
  induction as with
  | nil =>
    intro e
    exact KeepsTo.refl addr length e
  | cons a as ih =>
    intro e
    exact (h e a List.mem_cons_self).trans
      (ih (fun e b hb => h e b (List.mem_cons_of_mem a hb)) (f e a))

end Eeprom

namespace KeymapStore

open Eeprom

variable {n : Nat} (k : KeymapStore)

/-! ### Stretches -/

theorem writeStretch_keepsTo (addr region offset size source : Nat) (data : Vector Byte n)
    (hfits : addr + region ≤ 2 ^ 16) (e e' : Eeprom k.size)
    (h : k.writeStretch addr region offset size source data e = some e') :
    KeepsTo addr region e e' := by
  unfold writeStretch at h
  induction size generalizing e' with
  | zero =>
    rw [loop, Option.some_inj] at h
    rw [← h]
    exact KeepsTo.refl addr region e
  | succ size ih =>
    rw [loop, Option.bind_eq_some_iff] at h
    rcases h with ⟨before, hbefore, hlast⟩
    refine (ih before hbefore).trans ?_
    by_cases hin : offset + size < region
    · rw [if_pos hin, Option.map_eq_some_iff] at hlast
      rcases hlast with ⟨b, -, rfl⟩
      rw [Nat.add_assoc]
      exact updateByte_keepsTo before addr region _ b
        (writesInside_of_lt k.size addr region _ hin hfits)
    · rw [if_neg hin, Option.some_inj] at hlast
      rw [← hlast]
      exact KeepsTo.refl addr region before

theorem macroReset_keepsTo (e : Eeprom k.size) :
    KeepsTo k.macroAddr k.macroSize e (k.macroReset e) := by
  refine KeepsTo.foldl _ _ (fun e i hi => ?_) e
  exact updateByte_keepsTo e _ _ _ 0
    (writesInside_of_lt k.size _ _ i (List.mem_range.mp hi) k.macro_fits)

/-! ### One key -/

/-- A key of the keymap. -/
def InRange (layer row column : Byte) : Prop :=
  layer.toNat < k.layerCount ∧ row.toNat < k.rows ∧ column.toNat < k.cols

/-- The keycode of the key is written inside the region, or lost. -/
def SetsInside (layer row column : Byte) : Prop :=
  WritesInside k.size k.keymapAddr k.keymapSize (k.keyToEepromAddress layer row column) ∧
    WritesInside k.size k.keymapAddr k.keymapSize (k.keyToEepromAddress layer row column + 1)

instance (layer row column : Byte) : Decidable (k.SetsInside layer row column) :=
  inferInstanceAs (Decidable (_ ∧ _))

def keyIndex (layer row column : Byte) : Nat :=
  (layer.toNat * k.rows + row.toNat) * k.cols + column.toNat

theorem keyToEepromAddress_eq (layer row column : Byte) :
    k.keyToEepromAddress layer row column = k.keymapAddr + 2 * k.keyIndex layer row column := by
  unfold keyToEepromAddress keyIndex
  ring

variable {layer row column : Byte}

theorem keyIndex_lt (h : k.InRange layer row column) :
    2 * k.keyIndex layer row column + 1 < k.keymapSize := by
  rcases h with ⟨hlayer, hrow, hcolumn⟩
  have hrows : layer.toNat * k.rows + row.toNat + 1 ≤ k.layerCount * k.rows := by
    calc layer.toNat * k.rows + row.toNat + 1 ≤ (layer.toNat + 1) * k.rows := by
          rw [Nat.succ_mul]
          omega
      _ ≤ k.layerCount * k.rows := Nat.mul_le_mul_right _ hlayer
  have hcols : k.keyIndex layer row column + 1 ≤ k.layerCount * k.rows * k.cols := by
    calc k.keyIndex layer row column + 1
        ≤ (layer.toNat * k.rows + row.toNat + 1) * k.cols := by
          unfold keyIndex
          rw [Nat.succ_mul]
          omega
      _ ≤ k.layerCount * k.rows * k.cols := Nat.mul_le_mul_right _ hrows
  unfold keymapSize
  omega

theorem keyIndex_inj {layer row column layer' row' column' : Byte}
    (h : k.InRange layer row column) (h' : k.InRange layer' row' column')
    (heq : k.keyIndex layer row column = k.keyIndex layer' row' column') :
    layer = layer' ∧ row = row' ∧ column = column' := by
  rcases h with ⟨-, hrow, hcolumn⟩
  rcases h' with ⟨-, hrow', hcolumn'⟩
  unfold keyIndex at heq
  have hcols : column.toNat = column'.toNat := by
    have hmod := congrArg (· % k.cols) heq
    simpa [Nat.mul_add_mod_self_right, Nat.mod_eq_of_lt, hcolumn, hcolumn'] using hmod
  have hupper : layer.toNat * k.rows + row.toNat = layer'.toNat * k.rows + row'.toNat := by
    refine Nat.eq_of_mul_eq_mul_right (by omega : 0 < k.cols) ?_
    omega
  have hrows : row.toNat = row'.toNat := by
    have hmod := congrArg (· % k.rows) hupper
    simpa [Nat.mul_add_mod_self_right, Nat.mod_eq_of_lt, hrow, hrow'] using hmod
  have hlayers : layer.toNat = layer'.toNat := by
    refine Nat.eq_of_mul_eq_mul_right (by omega : 0 < k.rows) ?_
    omega
  exact ⟨BitVec.eq_of_toNat_eq hlayers, BitVec.eq_of_toNat_eq hrows, BitVec.eq_of_toNat_eq hcols⟩

theorem keyToEepromAddress_lt (h : k.InRange layer row column) :
    k.keyToEepromAddress layer row column + 1 < k.size := by
  have hindex := k.keyIndex_lt h
  have hfits := k.keymap_fits
  unfold keymapSize at hindex
  rw [keyToEepromAddress_eq]
  omega

theorem setsInside_of_inRange (h : k.InRange layer row column) : k.SetsInside layer row column := by
  have hindex := k.keyIndex_lt h
  have hfits : k.keymapAddr + k.keymapSize ≤ 2 ^ 16 := k.keymap_fits.trans k.size_le
  unfold SetsInside
  rw [keyToEepromAddress_eq, Nat.add_assoc]
  exact ⟨writesInside_of_lt _ _ _ _ (by omega) hfits, writesInside_of_lt _ _ _ _ hindex hfits⟩

theorem setKeycode_keepsTo (h : k.SetsInside layer row column) (e : Eeprom k.size)
    (keycode : Keycode) :
    KeepsTo k.keymapAddr k.keymapSize e (k.setKeycode e layer row column keycode) :=
  (updateByte_keepsTo e _ _ _ _ h.1).trans (updateByte_keepsTo _ _ _ _ _ h.2)

theorem writesInside_of_keepsTo {size addr length address : Nat} (value : Byte)
    (f : Eeprom size → Eeprom size) (hf : ∀ e i (_ : i < size), address % 2 ^ 16 = i →
      (f e)[i] = value) (h : ∀ e, KeepsTo addr length e (f e)) :
    WritesInside size addr length address := by
  by_contra hout
  unfold WritesInside at hout
  rcases not_or.mp hout with ⟨hlost, hbeside⟩
  have hin : address % 2 ^ 16 < size := by omega
  have hsame := h (Vector.replicate size (~~~value)) (address % 2 ^ 16) hin hbeside
  rw [hf _ _ hin rfl, Vector.getElem_replicate] at hsame
  have hbit := congrArg (fun b : Byte => b.getLsbD 0) hsame
  simp at hbit

theorem setKeycode_keepsTo_iff (layer row column : Byte) (keycode : Keycode) :
    (∀ e, KeepsTo k.keymapAddr k.keymapSize e (k.setKeycode e layer row column keycode)) ↔
      k.SetsInside layer row column := by
  constructor
  · intro h
    unfold setKeycode at h
    refine ⟨writesInside_of_keepsTo (keycode.extractLsb' 8 8) _ (fun e i hi haddress => ?_) h,
      writesInside_of_keepsTo (keycode.extractLsb' 0 8) _ (fun e i hi haddress => ?_) h⟩
    · -- the second byte goes elsewhere
      rw [getElem_updateByte _ _ _ _ hi, getElem_updateByte _ _ _ _ hi, if_neg (by omega),
        if_pos haddress]
    · rw [getElem_updateByte _ _ _ _ hi, if_pos haddress]
  · intro h e
    exact k.setKeycode_keepsTo h e keycode

theorem reset_keepsTo (e : Eeprom k.size) : KeepsTo k.keymapAddr k.keymapSize e (k.reset e) := by
  refine KeepsTo.foldl _ _ (fun e layer hlayer => ?_) e
  refine KeepsTo.foldl _ _ (fun e row hrow => ?_) e
  refine KeepsTo.foldl _ _ (fun e column hcolumn => ?_) e
  have hcut : ∀ i bound : Nat, i ∈ List.range bound → (BitVec.ofNat 8 i).toNat < bound := by
    intro i bound hi
    rw [BitVec.toNat_ofNat]
    exact (Nat.mod_le i _).trans_lt (List.mem_range.mp hi)
  exact k.setKeycode_keepsTo (k.setsInside_of_inRange
    ⟨hcut _ _ hlayer, hcut _ _ hrow, hcut _ _ hcolumn⟩) e _

/-! ### Reading a key back -/

theorem getKeycode_setKeycode_self (h : k.InRange layer row column) (e : Eeprom k.size)
    (keycode : Keycode) :
    k.getKeycode (k.setKeycode e layer row column keycode) layer row column = keycode := by
  have hlt := k.keyToEepromAddress_lt h
  have hsize := k.size_le
  unfold getKeycode setKeycode
  dsimp only
  generalize k.keyToEepromAddress layer row column = address at hlt
  rw [readByte_updateByte _ _ _ _ (by omega), readByte_updateByte _ _ _ _ (by omega),
    readByte_updateByte _ _ _ _ (by omega), if_neg (by omega), if_pos rfl, if_pos rfl]
  -- the two bytes of the keycode, put together again
  ext i hi
  simp only [← BitVec.getLsbD_eq_getElem, BitVec.getLsbD_append, BitVec.getLsbD_extractLsb']
  by_cases hlow : i < 8
  · simp [hlow]
  · have hhigh : 8 + (i - 8) = i := by omega
    have hrest : i - 8 < 8 := by omega
    simp [hlow, hhigh, hrest]

theorem getKeycode_setKeycode_other {layer row column layer' row' column' : Byte}
    (h : k.InRange layer row column) (h' : k.InRange layer' row' column')
    (hne : ¬ (layer = layer' ∧ row = row' ∧ column = column')) (e : Eeprom k.size)
    (keycode : Keycode) :
    k.getKeycode (k.setKeycode e layer row column keycode) layer' row' column' =
      k.getKeycode e layer' row' column' := by
  have hlt := k.keyToEepromAddress_lt h
  have hlt' := k.keyToEepromAddress_lt h'
  have hsize := k.size_le
  have hindex : k.keyIndex layer row column ≠ k.keyIndex layer' row' column' :=
    fun heq => hne (k.keyIndex_inj h h' heq)
  unfold getKeycode setKeycode
  dsimp only
  simp only [keyToEepromAddress_eq] at hlt hlt' ⊢
  rw [readByte_updateByte _ _ _ _ (by omega), readByte_updateByte _ _ _ _ (by omega),
    readByte_updateByte _ _ _ _ (by omega), readByte_updateByte _ _ _ _ (by omega),
    if_neg (by omega), if_neg (by omega), if_neg (by omega), if_neg (by omega)]

end KeymapStore

namespace ViaConfig

open Eeprom

variable {n m : Nat} (c : ViaConfig)

/-! ### Packets -/

/-- The region a command writes to: its first address and its length. -/
def regionOf (id : Byte) : Option (Nat × Nat) :=
  if id = Via.dynamicKeymapSetKeycode ∨ id = Via.dynamicKeymapReset ∨
      id = Via.dynamicKeymapSetBuffer then
    some (c.keymapAddr, c.keymapSize)
  else if id = Via.dynamicKeymapMacroSetBuffer ∨ id = Via.dynamicKeymapMacroReset then
    some (c.macroAddr, c.macroSize)
  else none

/-- Whatever the EEPROM holds, the command changes nothing outside its region. -/
def StaysInRegion (data : Vector Byte n) : Prop :=
  ∀ addr length, c.regionOf (Via.byte data 0) = some (addr, length) →
    ∀ s answer s', c.rawHidReceive s data = some (answer, s') →
      KeepsTo addr length s.eeprom s'.eeprom

/-- A keycode is read back as it was set, and the other keys keep theirs. -/
def ReadsBack (layer row column : Byte) : Prop :=
  ∀ e keycode, c.getKeycode (c.setKeycode e layer row column keycode) layer row column = keycode ∧
    ∀ layer' row' column', c.InRange layer' row' column' →
      ¬ (layer = layer' ∧ row = row' ∧ column = column') →
      c.getKeycode (c.setKeycode e layer row column keycode) layer' row' column' =
        c.getKeycode e layer' row' column'

theorem written_eq_some (eeprom : Option (Eeprom c.size)) {s s' : ViaState c.toKeymapStore}
    {data answer : Vector Byte n} (h : c.written s data eeprom = some (answer, s')) :
    eeprom = some s'.eeprom := by
  unfold written at h
  rw [Option.map_eq_some_iff] at h
  rcases h with ⟨e, he, hanswer⟩
  rw [Prod.mk.injEq] at hanswer
  rw [he, ← hanswer.2]

theorem rawHidReceive_eq (s : ViaState c.toKeymapStore) (data : Vector Byte n) (h : 32 ≤ n) :
    c.rawHidReceive s data = c.handle s data (Via.byte data 0) := by
  unfold rawHidReceive
  rw [Via.fetch_byte data 0 (by omega), Option.bind_some]

theorem handle_keepsTo {s s' : ViaState c.toKeymapStore} {data answer : Vector Byte n} {id : Byte}
    (hn : 32 ≤ n) (addr length : Nat) (hregion : c.regionOf id = some (addr, length))
    (hinside : id = Via.dynamicKeymapSetKeycode →
      c.SetsInside (Via.byte data 1) (Via.byte data 2) (Via.byte data 3))
    (h : c.handle s data id = some (answer, s')) : KeepsTo addr length s.eeprom s'.eeprom := by
  unfold regionOf at hregion
  by_cases hkeymap : id = Via.dynamicKeymapSetKeycode ∨ id = Via.dynamicKeymapReset ∨
      id = Via.dynamicKeymapSetBuffer
  · rw [if_pos hkeymap, Option.some_inj, Prod.mk.injEq] at hregion
    rcases hregion with ⟨rfl, rfl⟩
    rcases hkeymap with rfl | rfl | rfl
    · have hset := c.written_eq_some (c.dynamicKeymapSetKeycode s data) h
      rw [c.dynamicKeymapSetKeycode_eq s data hn, Option.some_inj] at hset
      rw [← hset]
      exact c.setKeycode_keepsTo (hinside rfl) s.eeprom _
    · have hreset := c.written_eq_some (some (c.reset s.eeprom)) h
      rw [← Option.some_inj.mp hreset]
      exact c.reset_keepsTo s.eeprom
    · have hset := c.written_eq_some (c.dynamicKeymapSetBuffer s data) h
      rw [dynamicKeymapSetBuffer, withStretch_eq _ _ hn, KeymapStore.setBuffer,
        KeymapStore.eepromSize_eq] at hset
      exact c.writeStretch_keepsTo _ _ _ _ _ data (c.keymap_fits.trans c.size_le) _ _ hset
  · rw [if_neg hkeymap] at hregion
    by_cases hmacro : id = Via.dynamicKeymapMacroSetBuffer ∨ id = Via.dynamicKeymapMacroReset
    · rw [if_pos hmacro, Option.some_inj, Prod.mk.injEq] at hregion
      rcases hregion with ⟨rfl, rfl⟩
      rcases hmacro with rfl | rfl
      · have hset := c.written_eq_some (c.dynamicKeymapMacroSetBuffer s data) h
        rw [dynamicKeymapMacroSetBuffer, withStretch_eq _ _ hn] at hset
        exact c.writeStretch_keepsTo _ _ _ _ _ data c.macro_fits _ _ hset
      · have hreset := c.written_eq_some (some (c.macroReset s.eeprom)) h
        rw [← Option.some_inj.mp hreset]
        exact c.macroReset_keepsTo s.eeprom
    · rw [if_neg hmacro] at hregion
      exact absurd hregion.symm (Option.some_ne_none _)

/-- A command keeps the EEPROM's other regions as they are, whatever these hold,
    exactly when it is not the setting of a keycode outside the region; and the
    keycode of a key of the keymap is read back, with no other key changed. -/
theorem via_region_iff (data : Vector Byte (32 + m)) :
    (c.StaysInRegion data ↔
        (Via.byte data 0 = Via.dynamicKeymapSetKeycode →
          c.SetsInside (Via.byte data 1) (Via.byte data 2) (Via.byte data 3))) ∧
      ∀ layer row column, c.InRange layer row column → c.ReadsBack layer row column := by
  refine ⟨⟨fun hstays hid => ?_, fun hinside addr length hregion s answer s' hresult => ?_⟩,
    fun layer row column h e keycode => ⟨c.getKeycode_setKeycode_self h e keycode,
      fun _ _ _ h' hne => c.getKeycode_setKeycode_other h h' hne e keycode⟩⟩
  · -- the setting of a keycode always has a result
    refine (c.setKeycode_keepsTo_iff (Via.byte data 1) (Via.byte data 2) (Via.byte data 3)
      (Via.byte data 4 ++ Via.byte data 5)).mp (fun e => ?_)
    have hregion : c.regionOf (Via.byte data 0) = some (c.keymapAddr, c.keymapSize) := by
      rw [hid]
      rfl
    refine hstays _ _ hregion { eeprom := e, uptime := 0, matrix := fun _ => 0 } data
      { eeprom := c.setKeycode e _ _ _ _, uptime := 0, matrix := fun _ => 0 } ?_
    rw [c.rawHidReceive_eq _ _ (by omega), hid]
    change c.written _ data (c.dynamicKeymapSetKeycode _ data) = _
    rw [c.dynamicKeymapSetKeycode_eq _ _ (by omega)]
    rfl
  · rw [c.rawHidReceive_eq _ _ (by omega)] at hresult
    exact c.handle_keepsTo (by omega) addr length hregion hinside hresult

def setBeyondLastLayer : Vector Byte (32 + 0) :=
  Vector.ofFn (fun i => [Via.dynamicKeymapSetKeycode, 4, 0, 0, 0, 4].getD i.val 0)

theorem via_region_broken :
    ¬ ∀ (c : ViaConfig) (m : Nat) (data : Vector Byte (32 + m)), c.StaysInRegion data := by
  intro h
  have hinside := (via_region_iff (byDefault (fun _ _ _ => 0) []) setBeyondLastLayer).1.mp
    (h _ 0 setBeyondLastLayer) (by decide +kernel)
  exact absurd hinside (by decide +kernel)

end ViaConfig

end K530
