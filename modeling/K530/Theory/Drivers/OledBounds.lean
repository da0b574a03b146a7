import K530.Drivers.Oled

/-!
# The Bounds of the Buffer

Every access should be inside the buffer, and every block that is marked one that there is.
The cursor is inside at all times: whatever moves it takes it back to the start if it would
not be. A character is wider than the cursor, though, and with the cursor in the last columns
of the last line it ends behind the buffer. And `oled_write_raw_byte` takes an index that is
too large to be the size of the buffer, which is one behind the end.

A display whose size is not divided by the number of its blocks has bytes behind the last
block, and there a change marks a block that there is none of.

## Main definitions

* `OledCall`: The calls, and `Oled.call` what they do.

## Theorems

* `oled_in_bounds_iff`: When a run stays inside.
* `oled_in_bounds_broken`: A character in the last column.
-/

namespace K530

open Checked

/-- The calls that draw, and move the cursor. -/
inductive OledCall where
  | setCursor (col line : Byte)
  | writeChar (data : Byte) (invert : Bool)
  | write (data : List Byte) (invert : Bool)
  | writeLn (data : List Byte) (invert : Bool)
  | advancePage (clearPageRemainder : Bool)
  | writeRaw (data : Nat → Byte) (size : BitVec 16)
  | writeRawByte (data : Byte) (index : BitVec 16)
  | writePixel (x y : Byte) (on : Bool)
  | pan (left : Bool)

namespace Oled

variable {c : OledBuild}

def call (s : Oled c) (e : OledCall) : Option (Oled c) :=
  match e with
  | .setCursor col line => some (s.setCursor col line)
  | .writeChar data invert => s.writeChar invert data
  | .write data invert => s.write data invert
  | .writeLn data invert => s.writeLn data invert
  | .advancePage clearPageRemainder => s.advancePage clearPageRemainder
  | .writeRaw data size => s.writeRaw data size
  | .writeRawByte data index => s.writeRawByte data index
  | .writePixel x y on => s.writePixel x y on
  | .pan left => s.pan left

/-- The character ends inside the buffer, and if it changes anything, in a block. -/
def GlyphFits (data : Byte) (invert : Bool) (s : Oled c) : Prop :=
  s.cursor + c.fontWidth ≤ c.matrixSize ∧
    (s.changes data invert = true → (s.cursor + c.fontWidth - 1) / c.blockSize < c.blockCount)

/-- The byte is in a block, if it is changed. -/
def ByteFits (index : Nat) (data : Byte) (s : Oled c) : Prop :=
  fetch s.buffer index ≠ some data → index / c.blockSize < c.blockCount

/-- Every space to the end of the line fits. -/
def SpacesFit (s : Oled c) : Prop :=
  AlongTo (fun s _ => s.putChar 0x20 false) (fun s _ => s.GlyphFits 0x20 false) s
    (List.replicate (s.remaining / c.fontWidth) ())

/-- A character fits: the spaces of '\n', or its own bytes. -/
def CharFits (invert : Bool) (s : Oled c) (data : Byte) : Prop :=
  if data = 0x0A then s.SpacesFit else data = 0x0D ∨ s.GlyphFits data invert

/-- The condition of each call. -/
def Fits (s : Oled c) (e : OledCall) : Prop :=
  match e with
  | .setCursor _ _ | .pan _ => True
  | .writeChar data invert => s.CharFits invert data
  | .write data invert => AlongTo (writeChar invert) (CharFits invert) s data
  | .writeLn data invert =>
    AlongTo (writeChar invert) (CharFits invert) s data ∧
      ∀ t, s.write data invert = some t → t.SpacesFit
  | .advancePage clearPageRemainder => clearPageRemainder = true → s.SpacesFit
  | .writeRaw data size => ∀ i < s.rawSize size, s.ByteFits (s.cursor + i) (data i)
  | .writeRawByte data index => index.toNat < c.matrixSize ∧ s.ByteFits index.toNat data
  | .writePixel x y on =>
    let index := x.toNat + y.toNat / 8 * c.rotationWidth
    x.toNat < c.rotationWidth → index < c.matrixSize →
      (s.buffer.toList.getD index 0).getLsbD (y.toNat % 8) ≠ on →
        index / c.blockSize < c.blockCount

end Oled

/-! ### The buffer -/

namespace OledBuild

variable (c : OledBuild)

theorem matrixSize_pos : 0 < c.matrixSize :=
  Nat.lt_of_lt_of_le c.blockCount_pos c.blockCount_le_size

theorem blockSize_pos : 0 < c.blockSize :=
  Nat.div_pos c.blockCount_le_size c.blockCount_pos

end OledBuild

namespace Oled

variable {c : OledBuild} (s : Oled c)

theorem mark_isSome_iff (block : Nat) : (s.mark block).isSome ↔ block < c.blockCount := by
  unfold mark
  by_cases h : block < c.blockCount
  · simp only [h, if_true, Option.isSome_some]
  · simp only [h, if_false, Option.isSome_none, Bool.false_eq_true]

theorem mark_cursor {block : Nat} {t : Oled c} (h : s.mark block = some t) :
    t.cursor = s.cursor := by
  unfold mark at h
  split at h
  · cases h
    rfl
  · cases h

theorem advanceChar_cursor : s.advanceChar.cursor < c.matrixSize := by
  have hpos := c.matrixSize_pos
  unfold advanceChar
  dsimp only
  split <;> split <;> omega

theorem putChar_isSome_iff (data : Byte) (invert : Bool) :
    (s.putChar data invert).isSome ↔ s.GlyphFits data invert := by
  unfold putChar GlyphFits
  by_cases hfits : s.cursor + c.fontWidth ≤ c.matrixSize
  swap
  · rw [if_neg hfits]
    simp [hfits]
  rw [if_pos hfits]
  dsimp only
  by_cases hchanged : s.changes data invert
  swap
  · rw [if_neg hchanged]
    simp [hfits, hchanged]
  rw [if_pos hchanged]
  -- the first block is before the last
  have hblocks : s.cursor / c.blockSize ≤ (s.cursor + c.fontWidth - 1) / c.blockSize :=
    Nat.div_le_div_right (by have := c.fontWidth_pos; omega)
  have hlast : ∀ t : Oled c, ((t.mark ((s.cursor + c.fontWidth - 1) / c.blockSize)).map
      advanceChar).isSome ↔ (s.cursor + c.fontWidth - 1) / c.blockSize < c.blockCount := by
    intro t
    rw [Option.isSome_map, mark_isSome_iff]
  cases hmark : ({ s with buffer := s.drawn data invert } : Oled c).mark
      (s.cursor / c.blockSize) with
  | none =>
    have hfirst := (mark_isSome_iff { s with buffer := s.drawn data invert }
      (s.cursor / c.blockSize)).not
    rw [hmark] at hfirst
    have hout := hfirst.mp (by simp)
    simp only [Option.bind_none, Option.isSome_none, Bool.false_eq_true, false_iff, not_and]
    intro _ hall
    exact hout (Nat.lt_of_le_of_lt hblocks (hall hchanged))
  | some t =>
    rw [Option.bind_some, hlast t]
    simp [hfits, hchanged]

theorem putChar_cursor (data : Byte) (invert : Bool) {t : Oled c}
    (h : s.putChar data invert = some t) : t.cursor < c.matrixSize := by
  unfold putChar at h
  dsimp only at h
  split at h
  · split at h
    · obtain ⟨u, _, hu⟩ := Option.bind_eq_some_iff.mp h
      obtain ⟨v, _, rfl⟩ := Option.map_eq_some_iff.mp hu
      exact v.advanceChar_cursor
    · cases h
      exact advanceChar_cursor _
  · cases h

theorem setByte_isSome_iff (index : Nat) (data : Byte) :
    (s.setByte index data).isSome ↔ index < c.matrixSize ∧ s.ByteFits index data := by
  unfold setByte ByteFits
  by_cases hin : index < c.matrixSize
  swap
  · have hnone : fetch s.buffer index = none := by
      rw [← Option.not_isSome_iff_eq_none, fetch_isSome_iff]
      exact hin
    simp [hnone, hin]
  obtain ⟨old, hold⟩ := fetch_total s.buffer index hin
  rw [hold, Option.bind_some]
  by_cases hsame : old = data
  · rw [if_pos hsame]
    simp [hin, hsame]
  · rw [if_neg hsame, store_of_lt s.buffer index data hin, Option.bind_some, mark_isSome_iff]
    simp [hin, hsame]

theorem setByte_cursor (index : Nat) (data : Byte) {t : Oled c}
    (h : s.setByte index data = some t) : t.cursor = s.cursor := by
  unfold setByte at h
  obtain ⟨old, _, h⟩ := Option.bind_eq_some_iff.mp h
  split at h
  · cases h
    rfl
  · obtain ⟨buffer, _, h⟩ := Option.bind_eq_some_iff.mp h
    exact (mark_cursor _ h).trans rfl

theorem setByte_fetch (index : Nat) (data : Byte) {t : Oled c}
    (h : s.setByte index data = some t) (i : Nat) :
    fetch t.buffer i = if index = i then some data else fetch s.buffer i := by
  unfold setByte at h
  obtain ⟨old, hold, h⟩ := Option.bind_eq_some_iff.mp h
  have hin : index < c.matrixSize := by
    rw [← fetch_isSome_iff s.buffer, hold]
    rfl
  split at h
  · rename_i hsame
    cases h
    split
    · rename_i hi
      rw [← hi, hold, hsame]
    · rfl
  · obtain ⟨buffer, hbuffer, h⟩ := Option.bind_eq_some_iff.mp h
    rw [store_of_lt s.buffer index data hin] at hbuffer
    cases hbuffer
    have hsame : t.buffer = s.buffer.setIfInBounds index data := by
      unfold mark at h
      split at h
      · cases h
        rfl
      · cases h
    rw [hsame, fetch_setIfInBounds s.buffer index i data hin]

/-! ### The calls -/

theorem pixel_eq_iff (data : Byte) (k : Nat) (on : Bool) (hk : k < 8) :
    (if on then data ||| (1 : Byte) <<< k else data &&& ~~~((1 : Byte) <<< k)) = data ↔
      data.getLsbD k = on := by
  have hbit : ∀ i, ((1 : Byte) <<< k).getLsbD i = decide (k = i) := fun i =>
    BitTable.one_shiftLeft_getLsbD k i hk
  cases on with
  | true =>
    rw [if_pos rfl]
    constructor
    · intro h
      rw [← h, BitVec.getLsbD_or, hbit, decide_eq_true rfl, Bool.or_true]
    · intro h
      apply BitVec.eq_of_getLsbD_eq
      intro i _
      rw [BitVec.getLsbD_or, hbit]
      by_cases hi : k = i
      · rw [← hi, h, Bool.true_or]
      · rw [decide_eq_false hi, Bool.or_false]
  | false =>
    rw [if_neg Bool.false_ne_true]
    constructor
    · intro h
      rw [← h, BitVec.getLsbD_and, BitVec.getLsbD_not, hbit, decide_eq_true rfl, Bool.not_true,
        Bool.and_false, Bool.and_false]
    · intro h
      apply BitVec.eq_of_getLsbD_eq
      intro i hlt
      rw [BitVec.getLsbD_and, BitVec.getLsbD_not, hbit, decide_eq_true hlt, Bool.true_and]
      by_cases hi : k = i
      · rw [← hi, h, Bool.false_and]
      · rw [decide_eq_false hi, Bool.not_false, Bool.and_true]

theorem spacesFit_iff :
    (s.advancePage true).isSome ↔ s.SpacesFit :=
  foldlM_isSome_iff (fun (s : Oled c) (_ : Unit) => s.putChar 0x20 false)
    (fun s _ => s.GlyphFits 0x20 false) (fun _ => True) (fun _ _ _ _ _ => trivial)
    (fun s _ _ => s.putChar_isSome_iff 0x20 false) _ s trivial

theorem advancePage_cursor (hcursor : s.cursor < c.matrixSize) (clearPageRemainder : Bool)
    {t : Oled c} (h : s.advancePage clearPageRemainder = some t) : t.cursor < c.matrixSize := by
  unfold advancePage at h
  split at h
  · exact foldlM_invariant (fun (s : Oled c) (_ : Unit) => s.putChar 0x20 false)
      (fun s => s.cursor < c.matrixSize) (fun s _ t _ h => s.putChar_cursor _ _ h) _ s t hcursor h
  · cases h
    unfold nextPage
    dsimp only
    split <;> omega

theorem writeChar_isSome_iff (invert : Bool) (data : Byte) :
    (s.writeChar invert data).isSome ↔ s.CharFits invert data := by
  unfold writeChar CharFits
  split
  · exact s.spacesFit_iff
  · split
    · rename_i hreturn
      exact iff_of_true rfl (Or.inl hreturn)
    · rename_i hreturn
      rw [putChar_isSome_iff, or_iff_right hreturn]

theorem writeChar_cursor (hcursor : s.cursor < c.matrixSize) (invert : Bool) (data : Byte)
    {t : Oled c} (h : s.writeChar invert data = some t) : t.cursor < c.matrixSize := by
  unfold writeChar at h
  split at h
  · exact s.advancePage_cursor hcursor true h
  · split at h
    · exact s.advancePage_cursor hcursor false h
    · exact s.putChar_cursor _ _ h

theorem write_isSome_iff (data : List Byte) (invert : Bool) :
    (s.write data invert).isSome ↔ AlongTo (writeChar invert) (CharFits invert) s data :=
  foldlM_isSome_iff (writeChar invert) (CharFits invert) (fun _ => True)
    (fun _ _ _ _ _ => trivial) (fun s data _ => s.writeChar_isSome_iff invert data) data s trivial

theorem write_cursor (hcursor : s.cursor < c.matrixSize) (data : List Byte) (invert : Bool)
    {t : Oled c} (h : s.write data invert = some t) : t.cursor < c.matrixSize :=
  foldlM_invariant (writeChar invert) (fun s => s.cursor < c.matrixSize)
    (fun s data _ hs h => s.writeChar_cursor hs invert data h) data s t hcursor h

theorem rawSize_le (hcursor : s.cursor < c.matrixSize) (size : BitVec 16) :
    s.cursor + s.rawSize size ≤ c.matrixSize := by
  unfold rawSize
  split <;> omega

theorem writeRaw_isSome_iff (hcursor : s.cursor < c.matrixSize) (data : Nat → Byte)
    (size : BitVec 16) :
    (s.writeRaw data size).isSome ↔
      ∀ i < s.rawSize size, s.ByteFits (s.cursor + i) (data i) := by
  have hle := s.rawSize_le hcursor size
  refine loop_isSome_iff_of (fun i t => t.setByte (s.cursor + i) (data i))
    (fun i t => ∀ j, i ≤ j → fetch t.buffer (s.cursor + j) = fetch s.buffer (s.cursor + j))
    (fun i => s.ByteFits (s.cursor + i) (data i)) (s.rawSize size) ?_ ?_ s (fun _ _ => rfl)
  · intro i hi t hlater
    rw [setByte_isSome_iff]
    unfold ByteFits
    rw [hlater i le_rfl]
    exact and_iff_right (by omega)
  · intro i _ t u hlater hset j hj
    rw [t.setByte_fetch _ _ hset, if_neg (by omega), hlater j (by omega)]

theorem writeRaw_cursor (data : Nat → Byte) (size : BitVec 16) {t : Oled c}
    (h : s.writeRaw data size = some t) : t.cursor = s.cursor :=
  loop_invariant (fun i (t : Oled c) => t.setByte (s.cursor + i) (data i))
    (fun _ (t : Oled c) => t.cursor = s.cursor) (s.rawSize size)
    (fun _ _ t _ ht hset => (t.setByte_cursor _ _ hset).trans ht) s t rfl h

theorem writeRawByte_isSome_iff (data : Byte) (index : BitVec 16) :
    (s.writeRawByte data index).isSome ↔
      index.toNat < c.matrixSize ∧ s.ByteFits index.toNat data := by
  unfold writeRawByte
  rw [setByte_isSome_iff]
  by_cases hin : index.toNat < c.matrixSize
  · rw [Nat.min_eq_left (by omega)]
  · rw [Nat.min_eq_right (by omega)]
    simp [hin]

theorem writePixel_isSome_iff (x y : Byte) (on : Bool) :
    (s.writePixel x y on).isSome ↔ s.Fits (.writePixel x y on) := by
  unfold writePixel Fits
  dsimp only
  by_cases hx : c.rotationWidth ≤ x.toNat
  · rw [if_pos hx]
    exact iff_of_true rfl (fun hlt => absurd hlt (by omega))
  rw [if_neg hx, imp_iff_right (by omega)]
  by_cases hindex : c.matrixSize ≤ x.toNat + y.toNat / 8 * c.rotationWidth
  · rw [if_pos hindex]
    exact iff_of_true rfl (fun hlt => absurd hlt (by omega))
  rw [if_neg hindex, imp_iff_right (by omega)]
  obtain ⟨data, hdata⟩ := fetch_total s.buffer _ (Nat.lt_of_not_le hindex)
  have hbyte : s.buffer.toList.getD (x.toNat + y.toNat / 8 * c.rotationWidth) 0 = data := by
    unfold fetch at hdata
    rw [List.getD_eq_getElem?_getD, hdata, Option.getD_some]
  rw [hdata, Option.bind_some, setByte_isSome_iff, hbyte]
  unfold ByteFits
  rw [hdata, and_iff_right (by omega), ne_eq, Option.some.injEq, eq_comm,
    pixel_eq_iff data _ on (Nat.mod_lt _ (by decide))]

theorem pan_index {y k : Nat} (hy : y < c.height / 8) (hk : k < c.width) :
    y * c.width + k < c.matrixSize :=
  calc y * c.width + k < y * c.width + c.width := by omega
    _ = (y + 1) * c.width := (Nat.succ_mul y c.width).symm
    _ ≤ c.height / 8 * c.width := Nat.mul_le_mul_right c.width hy

theorem moveByte_isSome_iff (source target : Nat) (buffer : Vector Byte c.matrixSize) :
    (moveByte source target buffer).isSome ↔ source < c.matrixSize ∧ target < c.matrixSize := by
  unfold moveByte
  by_cases hsource : source < c.matrixSize
  · obtain ⟨data, hdata⟩ := fetch_total buffer source hsource
    rw [hdata, Option.bind_some, store_isSome_iff]
    simp [hsource]
  · have hnone : fetch buffer source = none := by
      rw [← Option.not_isSome_iff_eq_none, fetch_isSome_iff]
      exact hsource
    simp [hnone, hsource]

theorem pan_isSome (left : Bool) : (s.pan left).isSome := by
  unfold pan
  rw [Option.isSome_map, loop_isSome_iff (panLine left) (fun y => y < c.height / 8)]
  · exact fun y hy => hy
  intro y hy buffer
  rw [iff_true_right hy]
  unfold panLine
  split
  · rw [loop_isSome_iff _ (fun x => x < c.width - 1)]
    · exact fun x hx => hx
    intro x hx buffer
    rw [moveByte_isSome_iff, iff_true_right hx]
    have hsource := pan_index hy (show x + 1 < c.width by omega)
    exact ⟨hsource, by omega⟩
  · rw [loop_isSome_iff _ (fun k => k < c.width - 1)]
    · exact fun k hk => hk
    intro k hk buffer
    rw [moveByte_isSome_iff, iff_true_right hk]
    have htarget := pan_index hy (show c.width - 1 - k < c.width by omega)
    exact ⟨by omega, htarget⟩

theorem call_isSome_iff (hcursor : s.cursor < c.matrixSize) (e : OledCall) :
    (s.call e).isSome ↔ s.Fits e := by
  cases e with
  | setCursor col line => exact iff_of_true rfl trivial
  | writeChar data invert => exact s.writeChar_isSome_iff invert data
  | write data invert => exact s.write_isSome_iff data invert
  | writeLn data invert =>
    have hwrite := s.write_isSome_iff data invert
    unfold call writeLn Fits
    dsimp only
    rw [← hwrite]
    cases s.write data invert with
    | none => simp
    | some t => simp [← spacesFit_iff]
  | advancePage clearPageRemainder =>
    cases clearPageRemainder with
    | true => exact s.spacesFit_iff.trans (imp_iff_right rfl).symm
    | false => exact iff_of_true rfl (fun h => by cases h)
  | writeRaw data size => exact s.writeRaw_isSome_iff hcursor data size
  | writeRawByte data index => exact s.writeRawByte_isSome_iff data index
  | writePixel x y on => exact s.writePixel_isSome_iff x y on
  | pan left => exact iff_of_true (s.pan_isSome left) trivial

theorem call_cursor (hcursor : s.cursor < c.matrixSize) (e : OledCall) {t : Oled c}
    (h : s.call e = some t) : t.cursor < c.matrixSize := by
  cases e with
  | setCursor col line =>
    cases h
    have hpos := c.matrixSize_pos
    unfold setCursor
    dsimp only
    split <;> omega
  | writeChar data invert => exact s.writeChar_cursor hcursor invert data h
  | write data invert => exact s.write_cursor hcursor data invert h
  | writeLn data invert =>
    obtain ⟨u, hu, h⟩ := Option.bind_eq_some_iff.mp h
    exact u.advancePage_cursor (s.write_cursor hcursor data invert hu) true h
  | advancePage clearPageRemainder => exact s.advancePage_cursor hcursor clearPageRemainder h
  | writeRaw data size => rwa [s.writeRaw_cursor data size h]
  | writeRawByte data index => rwa [s.setByte_cursor _ _ h]
  | writePixel x y on =>
    change s.writePixel x y on = some t at h
    unfold writePixel at h
    dsimp only at h
    split at h
    · cases h
      exact hcursor
    · split at h
      · cases h
        exact hcursor
      · obtain ⟨data, _, h⟩ := Option.bind_eq_some_iff.mp h
        rwa [s.setByte_cursor _ _ h]
  | pan left =>
    obtain ⟨buffer, _, rfl⟩ := Option.map_eq_some_iff.mp h
    exact hcursor

end Oled

/-- A run of calls makes every access inside the buffer, and marks blocks that there are,
    exactly if every call fits. -/
theorem oled_in_bounds_iff (c : OledBuild) (calls : List OledCall) :
    (calls.foldlM Oled.call (Oled.init : Oled c)).isSome ↔
      AlongTo Oled.call Oled.Fits (Oled.init : Oled c) calls :=
  foldlM_isSome_iff Oled.call Oled.Fits (fun s => s.cursor < c.matrixSize)
    (fun s e _ hs h => s.call_cursor hs e h) (fun s e hs => s.call_isSome_iff hs e) calls Oled.init
    c.matrixSize_pos

/-! ### The last column -/

theorem oledMaps_fit : ∀ i ∈ [0, 8, 16, 24] ++ [24, 16, 8, 0], i + 8 ≤ 32 / 8 * 128 / 16 := by
  decide

/-- A display of 128 by 32, with characters of 6 columns. -/
def OledBuild.defaults : OledBuild where
  width := 128
  height := 32
  width_pos := Nat.le_of_ble_eq_true rfl
  width_lt := Nat.le_of_ble_eq_true rfl
  height_ge := Nat.le_of_ble_eq_true rfl
  height_lt := Nat.le_of_ble_eq_true rfl
  rotation := 0
  fontWidth := 6
  fontWidth_pos := Nat.le_of_ble_eq_true rfl
  fontStart := 0
  fontEnd := 223
  font _ := 0x7F
  blockBits := 16
  blockCount := 16
  blockCount_pos := Nat.le_of_ble_eq_true rfl
  blockCount_le := Nat.le_of_ble_eq_true rfl
  blockCount_le_size := Nat.le_of_ble_eq_true rfl
  sourceMap := [0, 8, 16, 24]
  targetMap := [24, 16, 8, 0]
  maps_length := rfl
  maps_fit := oledMaps_fit
  sh1106 := false
  columnOffset := 0

/-- A character at column 21 of the last line ends behind the buffer. -/
theorem oled_in_bounds_broken :
    ¬ ([.setCursor 21 3, .writeChar 0x41 false].foldlM Oled.call
      (Oled.init : Oled OledBuild.defaults)).isSome := by
  decide

end K530
