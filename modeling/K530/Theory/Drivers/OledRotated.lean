import K530.Drivers.OledRotated
import K530.Theory.Drivers.OledBounds

/-!
# A Turned Picture

A square of eight bytes is turned as it should be: bit `i` of byte `j` becomes bit `7 - j` of
byte `i`. The window of a block is some columns of all the pages, and the display fills it page
after page. What is left is the tables, which have to put each square to its page, and the
squares of a page side by side.

Those of the display with 32 rows do, and so do those for blocks of 16 bits. The table for blocks
of 8 bits on the display with 64 rows is made for four pages, of which there are eight: the bottom
of the first column gets another square. And the table for blocks of 32 bits begins behind the
block, so that the last block is read behind the buffer.

## Main definitions

* `OledPanel.turn`, `OledPanel.turns`: What a byte of a block gets from the squares.

## Theorems

* `rotation_right_iff`: The tables that are right.
* `rotation_wrong`: Blocks of 8 bits on the display with 64 rows.
-/

namespace K530

open Checked

namespace OledPanel

/-! ### A square -/

theorem crot_bit (a : Byte) (i j : Nat) (hi : i < 8) (hj : j < 8) :
    Oled.crot (a &&& (1 : Byte) <<< i) (7 - (i : Int) - j) =
      if a.getLsbD i then BitVec.twoPow 8 (7 - j) else 0 := by
  have hmoved : ∀ i < 8, ∀ j : Nat, j < 8 →
      Oled.crot (BitVec.twoPow 8 i) (7 - (i : Int) - j) = BitVec.twoPow 8 (7 - j) := by
    decide
  have hbit : (1 : Byte) <<< i = BitVec.twoPow 8 i := rfl
  rw [hbit, BitVec.and_twoPow]
  split
  · exact hmoved i hi j hj
  · simp [Oled.crot]

theorem getLsbD_foldl_or {α : Type} (f : α → Byte) (l : List α) (d : Byte) (m : Nat) :
    (l.foldl (fun d k => d ||| f k) d).getLsbD m =
      (d.getLsbD m || l.any (fun k => (f k).getLsbD m)) := by
  induction l generalizing d with
  | nil => simp
  | cons k l ih => rw [List.foldl_cons, ih, BitVec.getLsbD_or, List.any_cons, Bool.or_assoc]

theorem rotate90_getLsbD (src : Nat → Byte) (i j : Nat) (hi : i < 8) (hj : j < 8) :
    (Oled.rotate90 src i).getLsbD (7 - j) = (src j).getLsbD i := by
  have hzero : (0 : Byte).getLsbD (7 - j) = false := BitVec.getLsbD_zero
  unfold Oled.rotate90
  rw [getLsbD_foldl_or, hzero, Bool.false_or, Bool.eq_iff_iff, List.any_eq_true]
  constructor
  · rintro ⟨k, hk, hbit⟩
    have hlt : k < 8 := List.mem_range.mp hk
    rw [crot_bit _ i k hi hlt] at hbit
    split at hbit
    · next hset =>
        rw [BitVec.getLsbD_twoPow, Bool.and_eq_true, decide_eq_true_eq, decide_eq_true_eq] at hbit
        have hkj : k = j := by omega
        rwa [← hkj]
    · rw [hzero] at hbit
      cases hbit
  · intro hset
    refine ⟨j, List.mem_range.mpr hj, ?_⟩
    rw [crot_bit _ i j hi hj, if_pos hset, BitVec.getLsbD_twoPow]
    simp only [Bool.and_eq_true, decide_eq_true_eq]
    exact ⟨by omega, trivial⟩

def turn (src : Nat → Byte) (dest q : Nat) (byte : Byte) : Byte :=
  if dest ≤ q ∧ q < dest + 8 then byte ||| Oled.rotate90 src (q - dest) else byte

section Square

variable {n m : Nat} (src dest : Nat) (buffer : Vector Byte n)

def moved (src : Nat → Byte) (i count : Nat) : Byte :=
  (List.range count).foldl
    (fun d (j : Nat) => d ||| Oled.crot (src j &&& (1 : Byte) <<< i) (7 - (i : Int) - j)) 0

theorem moved_succ (src : Nat → Byte) (i count : Nat) : moved src i (count + 1) =
    moved src i count ||| Oled.crot (src count &&& (1 : Byte) <<< i) (7 - (i : Int) - count) := by
  rw [moved, List.range_succ, List.foldl_append, List.foldl_cons, List.foldl_nil]
  rfl

theorem rotateByte_total (i : Nat) (temp : Vector Byte m) (hsrc : src + 8 ≤ n)
    (hdest : dest + i < m) :
    ∃ w, loop (fun j temp => (fetch buffer (src + j)).bind (fun byte =>
        (fetch temp (dest + i)).bind (fun old => store temp (dest + i)
          (old ||| Oled.crot (byte &&& (1 : Byte) <<< i) (7 - (i : Int) - j))))) 8 temp = some w ∧
      ∀ q, fetch w q = (fetch temp q).map (fun byte => if q = dest + i then
        byte ||| Oled.rotate90 (fun j => buffer.toList.getD (src + j) 0) i else byte) := by
  refine loop_total _ (fun count w => ∀ q, fetch w q = (fetch temp q).map (fun byte =>
    if q = dest + i then byte ||| moved (fun j => buffer.toList.getD (src + j) 0) i count
    else byte)) 8 (fun j hj v hv => ?_) temp (fun q => ?_)
  · obtain ⟨byte, hbyte⟩ := fetch_total buffer (src + j) (by omega)
    obtain ⟨first, hfirst⟩ := fetch_total temp _ hdest
    have hget : buffer.toList.getD (src + j) 0 = byte := by
      rw [List.getD_eq_getElem?_getD]
      exact congrArg (fun o : Option Byte => o.getD 0) hbyte
    have hold := hv (dest + i)
    rw [hfirst, Option.map_some, if_pos rfl] at hold
    rw [hbyte, Option.bind_some, hold, Option.bind_some, store_of_lt v _ _ hdest]
    refine ⟨_, rfl, fun q => ?_⟩
    rw [fetch_setIfInBounds v _ _ _ hdest]
    by_cases hq : dest + i = q
    · rw [if_pos hq, ← hq, hfirst, Option.map_some, if_pos rfl, moved_succ, hget,
        BitVec.or_assoc]
    · rw [if_neg hq, hv q]
      simp only [if_neg (Ne.symm hq)]
  · have hzero (byte : Byte) :
        byte ||| moved (fun j => buffer.toList.getD (src + j) 0) i 0 = byte :=
      BitVec.or_zero
    simp only [hzero, ite_self, Option.map_id']

theorem rotate90_total (temp : Vector Byte m) (hsrc : src + 8 ≤ n) (hdest : dest + 8 ≤ m) :
    ∃ w, rotate90 src dest buffer temp = some w ∧ ∀ q, fetch w q =
      (fetch temp q).map (turn (fun j => buffer.toList.getD (src + j) 0) dest q) := by
  refine loop_total _ (fun count w => ∀ q, fetch w q = (fetch temp q).map (fun byte =>
    if dest ≤ q ∧ q < dest + count then
      byte ||| Oled.rotate90 (fun j => buffer.toList.getD (src + j) 0) (q - dest)
    else byte)) 8 (fun i hi v hv => ?_) temp (fun q => ?_)
  · obtain ⟨u, hu, hone⟩ := rotateByte_total src dest buffer i v hsrc (by omega)
    refine ⟨u, hu, fun q => ?_⟩
    rw [hone q, hv q, Option.map_map]
    congr 1
    funext byte
    -- the byte of this turn is the one behind those of the turns before
    rcases Nat.lt_trichotomy q (dest + i) with hlt | rfl | hgt
    · rw [Function.comp_apply, if_neg hlt.ne]
      exact if_congr (by omega) rfl rfl
    · rw [Function.comp_apply, if_pos rfl, if_neg (by omega), if_pos (by omega),
        Nat.add_sub_cancel_left]
    · rw [Function.comp_apply, if_neg hgt.ne', if_neg (by omega), if_neg (by omega)]
  · have hnone : ¬ (dest ≤ q ∧ q < dest + 0) := by omega
    simp only [if_neg hnone, Option.map_id']

end Square

/-! ### A block -/

section Block

variable {n m : Nat}

def turns (src : Nat → Byte) (maps : List (Nat × Nat)) (q : Nat) (byte : Byte) : Byte :=
  maps.foldl (fun byte map => turn (fun j => src (map.1 + j)) map.2 q byte) byte

theorem squares_total (base : Nat) (buffer : Vector Byte n) (maps : List (Nat × Nat))
    (hmaps : ∀ map ∈ maps, base + map.1 + 8 ≤ n ∧ map.2 + 8 ≤ m) (temp : Vector Byte m) :
    ∃ w, maps.foldlM (fun temp map => rotate90 (base + map.1) map.2 buffer temp) temp = some w ∧
      ∀ q, fetch w q =
        (fetch temp q).map (turns (fun j => buffer.toList.getD (base + j) 0) maps q) := by
  induction maps generalizing temp with
  | nil => exact ⟨temp, rfl, fun q => Option.map_id'.symm⟩
  | cons map maps ih =>
    obtain ⟨hsrc, hdest⟩ := hmaps map List.mem_cons_self
    obtain ⟨v, hv, hfirst⟩ := rotate90_total (base + map.1) map.2 buffer temp hsrc hdest
    obtain ⟨w, hw, hrest⟩ := ih (fun map' h => hmaps map' (List.mem_cons_of_mem map h)) v
    refine ⟨w, by rw [List.foldlM_cons, hv]; exact hw, fun q => ?_⟩
    rw [hrest q, hfirst q, Option.map_map]
    simp only [Nat.add_assoc]
    rfl

theorem turns_eq (src : Nat → Byte) {maps : List (Nat × Nat)}
    (hapart : maps.Pairwise (fun a b => a.2 + 8 ≤ b.2 ∨ b.2 + 8 ≤ a.2)) {map : Nat × Nat}
    (hmap : map ∈ maps) (i : Nat) (hi : i < 8) :
    turns src maps (map.2 + i) 0 = Oled.rotate90 (fun j => src (map.1 + j)) i := by
  have haway : ∀ l : List (Nat × Nat), (∀ a ∈ l, a.2 + 8 ≤ map.2 ∨ map.2 + 8 ≤ a.2) →
      ∀ byte, turns src l (map.2 + i) byte = byte := by
    intro l hl byte
    induction l with
    | nil => rfl
    | cons a l ih =>
      have ha := hl a List.mem_cons_self
      rw [turns, List.foldl_cons, turn, if_neg (by omega)]
      exact ih (fun b hb => hl b (List.mem_cons_of_mem a hb))
  obtain ⟨before, behind, rfl⟩ := List.append_of_mem hmap
  obtain ⟨-, hbehind, hbefore⟩ := List.pairwise_append.mp hapart
  rw [turns, List.foldl_append, List.foldl_cons]
  have hfirst := haway before (fun a ha => hbefore a ha map List.mem_cons_self) 0
  have hlast := haway behind
    (fun a ha => (List.pairwise_cons.mp hbehind).1 a ha |>.symm)
  rw [turns] at hfirst
  rw [hfirst, turn, if_pos (by omega), Nat.add_sub_cancel_left]
  refine (hlast _).trans ?_
  exact BitVec.zero_or

end Block

end OledPanel

/-! ### The window -/

structure OledWindow.Spans (b : OledWindow) (column width page pages : Nat) : Prop where
  columnStart : b.columnStart.toNat % 128 = column
  columnEnd : b.columnEnd.toNat % 128 + 1 = column + width
  pageStart : b.pageStart.toNat % 8 = page
  pageEnd : b.pageEnd.toNat % 8 + 1 = page + pages
  width_pos : 0 < width
  pages_pos : 0 < pages

namespace OledRam

section Window

variable {b : OledWindow} {column width page pages : Nat}

theorem place_inj {q r q' r' : Nat} (hr : r < width) (hr' : r' < width)
    (h : width * q + r = width * q' + r') : q = q' ∧ r = r' := by
  have hpos : 0 < width := by omega
  have hq : q = q' := by
    have hdiv := congrArg (fun k => k / width) h
    rwa [Nat.mul_add_div hpos, Nat.mul_add_div hpos, Nat.div_eq_of_lt hr, Nat.div_eq_of_lt hr',
      Nat.add_zero, Nat.add_zero] at hdiv
  subst hq
  exact ⟨rfl, Nat.add_left_cancel h⟩

theorem next_eq (h : b.Spans column width page pages) {q r : Nat} (hr : r < width)
    (hroom : width * q + r + 1 < width * pages) :
    ∃ q₁ r₁, next b (page + q) (column + r) = (page + q₁, column + r₁) ∧ r₁ < width ∧
      width * q₁ + r₁ = width * q + r + 1 := by
  have hcolumn := Nat.mod_lt b.columnEnd.toNat (by omega : 0 < 128)
  have hpage := Nat.mod_lt b.pageEnd.toNat (by omega : 0 < 8)
  have hcend := h.columnEnd
  have hpend := h.pageEnd
  unfold next
  by_cases hlast : r + 1 < width
  · refine ⟨q, r + 1, ?_, hlast, rfl⟩
    rw [if_neg (by omega), Nat.mod_eq_of_lt (by omega), Nat.add_assoc]
  · have hwidth : r + 1 = width := by omega
    have hq : q + 1 < pages := by
      refine Nat.lt_of_mul_lt_mul_left (a := width) ?_
      rw [Nat.mul_add, Nat.mul_one]
      omega
    refine ⟨q + 1, 0, ?_, h.width_pos, by rw [Nat.mul_add, Nat.mul_one]; omega⟩
    rw [if_pos (by omega), if_neg (by omega), h.columnStart, Nat.mod_eq_of_lt (by omega),
      Nat.add_assoc]
    rfl

theorem fill_inside (h : b.Spans column width page pages) (data : List Byte) {q r : Nat}
    (hr : r < width) (hroom : width * q + r + data.length ≤ width * pages) (ram : OledRam)
    {s r' : Nat} (hr' : r' < width) :
    fill b data (page + q) (column + r) ram (page + s) (column + r') =
      if width * q + r ≤ width * s + r' ∧ width * s + r' < width * q + r + data.length then
        data.getD (width * s + r' - (width * q + r)) 0
      else ram (page + s) (column + r') := by
  induction data generalizing q r ram with
  | nil => rw [if_neg (by rw [List.length_nil]; omega)]; rfl
  | cons byte data ih =>
    have hput : ram.put (page + q) (column + r) byte (page + s) (column + r') =
        if width * q + r = width * s + r' then byte else ram (page + s) (column + r') := by
      refine if_congr ⟨?_, fun heq => ?_⟩ rfl rfl
      · rintro ⟨hq, hr⟩
        rw [Nat.add_left_cancel hq, Nat.add_left_cancel hr]
      · obtain ⟨rfl, rfl⟩ := place_inj hr hr' heq
        exact ⟨rfl, rfl⟩
    have hrest : fill b (byte :: data) (page + q) (column + r) ram (page + s) (column + r') =
        if width * q + r + 1 ≤ width * s + r' ∧
            width * s + r' < width * q + r + 1 + data.length then
          data.getD (width * s + r' - (width * q + r + 1)) 0
        else ram.put (page + q) (column + r) byte (page + s) (column + r') := by
      cases data with
      | nil => rw [if_neg (by rw [List.length_nil]; omega)]; rfl
      | cons byte' data =>
        rw [List.length_cons, List.length_cons] at hroom
        obtain ⟨q₁, r₁, hnext, hr₁, hplace⟩ := next_eq (q := q) h hr (by omega)
        have hroom₁ : width * q₁ + r₁ + (byte' :: data).length ≤ width * pages := by
          rw [List.length_cons]
          omega
        rw [fill, hnext, ih hr₁ hroom₁, hplace]
    rw [hrest, hput, List.length_cons]
    rcases Nat.lt_trichotomy (width * q + r) (width * s + r') with hlt | heq | hgt
    · have hsub : width * s + r' - (width * q + r) =
          width * s + r' - (width * q + r + 1) + 1 := by omega
      rw [if_neg hlt.ne, hsub, List.getD_cons_succ]
      exact if_congr (by omega) rfl rfl
    · rw [if_neg (by omega), if_pos heq, if_pos (by omega), heq, Nat.sub_self,
        List.getD_cons_zero]
    · rw [if_neg (by omega), if_neg hgt.ne', if_neg (by omega)]

theorem fill_outside (h : b.Spans column width page pages) (data : List Byte) {q r : Nat}
    (hr : r < width) (hroom : width * q + r + data.length ≤ width * pages) (ram : OledRam)
    (page' : Nat) {column' : Nat} (hout : column' < column ∨ column + width ≤ column') :
    fill b data (page + q) (column + r) ram page' column' = ram page' column' := by
  induction data generalizing q r ram with
  | nil => rfl
  | cons byte data ih =>
    have hput : ram.put (page + q) (column + r) byte page' column' = ram page' column' :=
      if_neg (by omega)
    cases data with
    | nil => exact hput
    | cons byte' data =>
      rw [List.length_cons, List.length_cons] at hroom
      obtain ⟨q₁, r₁, hnext, hr₁, hplace⟩ := next_eq (q := q) h hr (by omega)
      have hroom₁ : width * q₁ + r₁ + (byte' :: data).length ≤ width * pages := by
        rw [List.length_cons]
        omega
      rw [fill, hnext, ih hr₁ hroom₁, hput]

end Window

end OledRam

namespace OledPanel

variable {p : OledPanel}

structure Frames (p : OledPanel) (pages n : Nat) : Prop where
  height : p.height = 8 * pages
  width : p.width = 128
  size : p.blockSize = p.height * n
  count : 8 * n * p.blockCount = 128
  pages_pos : 0 < pages
  pages_le : pages ≤ 8
  n_pos : 0 < n
  fits : ∀ map ∈ p.sourceMap.zip p.targetMap,
    map.1 + 8 ≤ p.blockSize ∧ map.2 + 8 ≤ p.blockSize
  apart : (p.sourceMap.zip p.targetMap).Pairwise
    (fun a b => a.2 + 8 ≤ b.2 ∨ b.2 + 8 ≤ a.2)

variable {pages n : Nat} {block : Nat}

theorem block_fits (hblock : block < p.blockCount) :
    p.blockSize * block + p.blockSize ≤ p.matrixSize := by
  calc p.blockSize * block + p.blockSize = p.blockSize * (block + 1) := (Nat.mul_succ _ _).symm
    _ ≤ p.blockSize * p.blockCount := Nat.mul_le_mul_left _ hblock
    _ ≤ p.matrixSize := Nat.div_mul_le_self _ _

theorem turned_total (h : p.Frames pages n) (hblock : block < p.blockCount)
    (buffer : Vector Byte p.matrixSize) :
    ∃ temp, p.turned block buffer = some temp ∧
      ∀ map ∈ p.sourceMap.zip p.targetMap, ∀ i < 8, ∀ j < 8,
        (temp.toList.getD (map.2 + i) 0).getLsbD (7 - j) =
          (buffer.toList.getD (p.blockSize * block + map.1 + j) 0).getLsbD i := by
  have hfits := block_fits hblock
  obtain ⟨temp, htemp, hbytes⟩ := squares_total (p.blockSize * block) buffer
    (p.sourceMap.zip p.targetMap) (fun map hmap => by
      have := h.fits map hmap
      omega) (Vector.replicate p.blockSize 0)
  refine ⟨temp, htemp, fun map hmap i hi j hj => ?_⟩
  have hbyte := hbytes (map.2 + i)
  have hroom := (h.fits map hmap).2
  rw [fetch_replicate _ _ (by omega), Option.map_some, turns_eq _ h.apart hmap i hi] at hbyte
  have hget : temp.toList.getD (map.2 + i) 0 = Oled.rotate90 (fun j =>
      buffer.toList.getD (p.blockSize * block + (map.1 + j)) 0) i := by
    rw [List.getD_eq_getElem?_getD]
    exact congrArg (fun o : Option Byte => o.getD 0) hbyte
  rw [hget, rotate90_getLsbD _ i j hi hj, Nat.add_assoc]

theorem calcBounds90_spans (h : p.Frames pages n) (hblock : block < p.blockCount) :
    (p.calcBounds90 block).Spans (8 * n * block) (8 * n) 0 pages := by
  have hheight : 0 < p.height := by
    rw [h.height]
    have := h.pages_pos
    omega
  have hn := h.n_pos
  have hpages := h.pages_le
  have hlast : 8 * n * block + 8 * n ≤ 128 := by
    calc 8 * n * block + 8 * n = 8 * n * (block + 1) := (Nat.mul_succ _ _).symm
      _ ≤ 8 * n * p.blockCount := Nat.mul_le_mul_left _ hblock
      _ = 128 := h.count
  have hstart : p.blockSize * block / p.height * 8 = 8 * n * block := by
    rw [h.size, Nat.mul_assoc p.height, Nat.mul_div_cancel_left _ hheight, Nat.mul_assoc 8,
      Nat.mul_comm 8]
  have hpage : p.blockSize * block % p.height = 0 := by
    rw [h.size, Nat.mul_assoc p.height, Nat.mul_mod_right]
  have hcolumns : (p.blockSize + p.height - 1) / p.height = n := by
    rw [h.size, Nat.add_sub_assoc hheight, Nat.mul_add_div hheight,
      Nat.div_eq_of_lt (by omega), Nat.add_zero]
  have hrows : (p.blockSize + p.height - 1) % p.height = p.height - 1 := by
    rw [h.size, Nat.add_sub_assoc hheight, Nat.mul_add_mod, Nat.mod_eq_of_lt (by omega)]
  have hpos := h.pages_pos
  unfold calcBounds90
  rw [hstart, hpage, hcolumns, hrows, h.height]
  refine ⟨?_, ?_, ?_, ?_, by omega, hpos⟩
  · rw [BitVec.toNat_ofNat]
    omega
  · rw [BitVec.toNat_add, BitVec.toNat_ofNat, BitVec.toNat_ofNat]
    omega
  · rfl
  · rw [BitVec.toNat_ofNat]
    omega

theorem renderBlock_total (h : p.Frames pages n) (hblock : block < p.blockCount)
    (buffer : Vector Byte p.matrixSize) (ram : OledRam) :
    ∃ temp ram', p.turned block buffer = some temp ∧ p.renderBlock buffer ram block = some ram' ∧
      (∀ page < pages, ∀ c < 8 * n,
        ram' page (8 * n * block + c) = temp.toList.getD (8 * n * page + c) 0) ∧
      ∀ page column, column < 8 * n * block ∨ 8 * n * block + 8 * n ≤ column →
        ram' page column = ram page column := by
  obtain ⟨temp, htemp, -⟩ := turned_total h hblock buffer
  have hspans := calcBounds90_spans h hblock
  have hroom : 8 * n * 0 + 0 + temp.toList.length = 8 * n * pages := by
    rw [Vector.length_toList, h.size, h.height, Nat.mul_zero, Nat.zero_add,
      Nat.mul_right_comm]
  have hreceive : ram.receive (p.calcBounds90 block) temp.toList =
      OledRam.fill (p.calcBounds90 block) temp.toList (0 + 0) (8 * n * block + 0) ram := by
    rw [OledRam.receive, hspans.pageStart, hspans.columnStart]
    rfl
  refine ⟨temp, _, htemp, by rw [renderBlock, htemp, Option.map_some],
    fun page hpage c hc => ?_, fun page column hout => ?_⟩
  · have hplace : 8 * n * page + c < 8 * n * pages := by
      calc 8 * n * page + c < 8 * n * page + 8 * n := Nat.add_lt_add_left hc _
        _ = 8 * n * (page + 1) := (Nat.mul_succ _ _).symm
        _ ≤ 8 * n * pages := Nat.mul_le_mul_left _ hpage
    have hfill := OledRam.fill_inside hspans temp.toList hspans.width_pos hroom.le ram
      (s := page) hc
    rw [Nat.zero_add page] at hfill
    rw [hreceive, hfill, if_pos ⟨by omega, by omega⟩]
    rfl
  · rw [hreceive]
    exact OledRam.fill_outside hspans temp.toList hspans.width_pos hroom.le ram page hout

theorem renderBlocks_total (h : p.Frames pages n) (blocks : List Nat)
    (hblocks : ∀ u ∈ blocks, u < p.blockCount)
    (buffer : Vector Byte p.matrixSize) (ram : OledRam) :
    ∃ ram', p.renderBlocks blocks buffer ram = some ram' ∧ ∀ page < pages, ∀ column,
      (column / (8 * n) ∈ blocks → ∃ temp, p.turned (column / (8 * n)) buffer = some temp ∧
        ram' page column = temp.toList.getD (8 * n * page + column % (8 * n)) 0) ∧
      (column / (8 * n) ∉ blocks → ram' page column = ram page column) := by
  induction blocks generalizing ram with
  | nil =>
    exact ⟨ram, rfl, fun _ _ _ => ⟨fun hin => absurd hin List.not_mem_nil, fun _ => rfl⟩⟩
  | cons u blocks ih =>
    obtain ⟨temp, ram₁, htemp, hram₁, hinside, houtside⟩ :=
      renderBlock_total h (hblocks u List.mem_cons_self) buffer ram
    obtain ⟨ram', hram', hbytes⟩ := ih (fun v hv => hblocks v (List.mem_cons_of_mem u hv)) ram₁
    refine ⟨ram', ?_, fun page hpage column => ?_⟩
    · rw [renderBlocks, List.foldlM_cons, hram₁]
      exact hram'
    obtain ⟨hsent, hold⟩ := hbytes page hpage column
    have hn := h.n_pos
    have hcolumn : 8 * n * (column / (8 * n)) + column % (8 * n) = column :=
      Nat.div_add_mod column (8 * n)
    have hmod : column % (8 * n) < 8 * n := Nat.mod_lt _ (by omega)
    refine ⟨fun hin => ?_, fun hnot => ?_⟩
    · by_cases hlater : column / (8 * n) ∈ blocks
      · exact hsent hlater
      · have heq : column / (8 * n) = u := (List.mem_cons.mp hin).resolve_right hlater
        rw [heq] at hcolumn ⊢
        refine ⟨temp, htemp, (hold hlater).trans ?_⟩
        rw [← hinside page hpage _ hmod, hcolumn]
    · have hne : column / (8 * n) ≠ u := fun heq => hnot (heq ▸ List.mem_cons_self)
      refine (hold (fun hlater => hnot (List.mem_cons_of_mem u hlater))).trans
        (houtside page column ?_)
      -- the column is in the window of another block
      rcases Nat.lt_or_gt_of_ne hne with hlt | hgt
      · left
        rw [Nat.mul_comm]
        exact (Nat.div_lt_iff_lt_mul (by omega)).mp hlt
      · right
        rw [← Nat.mul_succ, Nat.mul_comm]
        exact (Nat.le_div_iff_mul_le (by omega)).mp hgt

/-! ### The picture -/

/-- The blocks that are sent are all the blocks there are. -/
structure Covers (p : OledPanel) (blocks : List Nat) : Prop where
  lt : ∀ u ∈ blocks, u < p.blockCount
  all : ∀ u < p.blockCount, u ∈ blocks

/-- When all blocks have been sent, in any order, what `oled_write_pixel` has set at `x` and `y`
    is in column `y` and in the row that is `x` from the bottom, and each pixel of the display
    comes from exactly one of the picture. -/
structure RotatesRight (p : OledPanel) : Prop where
  pixel : ∀ blocks, p.Covers blocks → ∀ (buffer : Vector Byte p.matrixSize) (ram : OledRam)
    (x y : Byte) (on : Bool), x.toNat < p.height → y.toNat < p.width →
    ∃ ram', (p.writePixel x y on buffer).bind (fun buffer => p.renderBlocks blocks buffer ram) =
      some ram' ∧ ram'.pixel y.toNat (p.height - 1 - x.toNat) = on
  source : ∀ column row, column < p.width → row < p.height →
    ∃! q : Nat × Nat, q.1 < p.height ∧ q.2 < p.width ∧ ∀ blocks, p.Covers blocks →
      ∀ (buffer : Vector Byte p.matrixSize) (ram : OledRam), ∃ ram',
        p.renderBlocks blocks buffer ram = some ram' ∧
          ram'.pixel column row = p.pixel buffer q.1 q.2

def Placed (p : OledPanel) (pages n : Nat) : Prop :=
  ∀ page < pages, ∀ k < n,
    (8 * (pages - 1 - page + pages * k), 8 * (n * page + k)) ∈ p.sourceMap.zip p.targetMap

theorem covers_range (p : OledPanel) : p.Covers (List.range p.blockCount) :=
  ⟨fun _ hu => List.mem_range.mp hu, fun _ hu => List.mem_range.mpr hu⟩

theorem pixel_replicate (p : OledPanel) (x y : Nat) :
    p.pixel (Vector.replicate p.matrixSize 0) x y = false := by
  unfold pixel
  rw [Vector.toList_replicate, List.getD_eq_getElem?_getD, List.getElem?_replicate]
  split
  · exact BitVec.getLsbD_zero
  · exact BitVec.getLsbD_zero

theorem height_pos (h : p.Frames pages n) : 0 < p.height := by
  rw [h.height]
  have := h.pages_pos
  omega

theorem setBit_getLsbD (data : Byte) (on : Bool) (k m : Nat) (hk : k < 8) :
    (if on then data ||| (1 : Byte) <<< k else data &&& ~~~((1 : Byte) <<< k)).getLsbD m =
      if k = m then on else data.getLsbD m := by
  cases on with
  | true =>
    refine (BitWords.or_bit_getLsbD data k m hk).trans ?_
    by_cases hkm : k = m <;> simp [hkm]
  | false =>
    refine (BitWords.andNot_bit_getLsbD data k m hk).trans ?_
    by_cases hkm : k = m <;> simp [hkm]

theorem writePixel_total (h : p.Frames pages n) (x y : Byte) (on : Bool)
    (buffer : Vector Byte p.matrixSize) (hx : x.toNat < p.height) (hy : y.toNat < p.width) :
    ∃ buffer', p.writePixel x y on buffer = some buffer' ∧ ∀ x' < p.height, ∀ y',
      p.pixel buffer' x' y' = if x' = x.toNat ∧ y' = y.toNat then on
        else p.pixel buffer x' y' := by
  have hindex : x.toNat + y.toNat / 8 * p.height < p.matrixSize := by
    have hpage : y.toNat / 8 * p.height ≤ 15 * p.height :=
      Nat.mul_le_mul_right _ (by rw [h.width] at hy; omega)
    rw [matrixSize, h.width]
    have := h.height
    omega
  obtain ⟨data, hdata⟩ := fetch_total buffer _ hindex
  refine ⟨buffer.setIfInBounds (x.toNat + y.toNat / 8 * p.height)
    (if on then data ||| (1 : Byte) <<< (y.toNat % 8)
      else data &&& ~~~((1 : Byte) <<< (y.toNat % 8))), ?_, fun x' hx' y' => ?_⟩
  · rw [writePixel, if_neg (by omega)]
    dsimp only
    rw [if_neg (by omega), hdata, Option.bind_some, store_of_lt _ _ _ hindex]
  · have hget := fetch_setIfInBounds buffer _ (x' + y' / 8 * p.height)
      (if on then data ||| (1 : Byte) <<< (y.toNat % 8)
        else data &&& ~~~((1 : Byte) <<< (y.toNat % 8))) hindex
    unfold pixel
    rw [List.getD_eq_getElem?_getD, List.getD_eq_getElem?_getD]
    by_cases hsame : x.toNat + y.toNat / 8 * p.height = x' + y' / 8 * p.height
    · rw [if_pos hsame] at hget
      have hold : fetch buffer (x' + y' / 8 * p.height) = some data := hsame ▸ hdata
      unfold fetch at hget hold
      rw [hget, hold, Option.getD_some, Option.getD_some,
        setBit_getLsbD data on _ _ (Nat.mod_lt _ (by omega))]
      -- the same byte of the buffer is the same column and the same eight rows
      have hplace : p.height * (y.toNat / 8) + x.toNat = p.height * (y' / 8) + x' := by
        rw [Nat.mul_comm p.height, Nat.mul_comm p.height]
        omega
      obtain ⟨hrow, hcolumn⟩ := OledRam.place_inj hx hx' hplace
      exact if_congr (by omega) rfl rfl
    · rw [if_neg hsame] at hget
      unfold fetch at hget
      rw [hget, if_neg ?_]
      rintro ⟨rfl, rfl⟩
      exact hsame rfl

theorem renderBlocks_pixel (h : p.Frames pages n) (hplaced : p.Placed pages n)
    {blocks : List Nat} (hblocks : p.Covers blocks) (buffer : Vector Byte p.matrixSize)
    (ram : OledRam) : ∃ ram', p.renderBlocks blocks buffer ram = some ram' ∧
      ∀ x < p.height, ∀ y < p.width,
        ram'.pixel y (p.height - 1 - x) = p.pixel buffer x y := by
  obtain ⟨ram', hram', hbytes⟩ := renderBlocks_total h blocks hblocks.lt buffer ram
  refine ⟨ram', hram', fun x hx y hy => ?_⟩
  have hn := h.n_pos
  have hheight := h.height
  have hblock : y / (8 * n) < p.blockCount := by
    refine Nat.div_lt_of_lt_mul ?_
    rw [h.count, ← h.width]
    exact hy
  have hpage : (p.height - 1 - x) / 8 < pages := by omega
  obtain ⟨temp, htemp, hbyte⟩ := (hbytes _ hpage y).1 (hblocks.all _ hblock)
  obtain ⟨temp', htemp', hbits⟩ := turned_total h hblock buffer
  cases htemp.symm.trans htemp'
  -- the square, the byte and the bit of the pixel
  have hmod : y % (8 * n) < 8 * n := Nat.mod_lt _ (by omega)
  have hsquare : y % (8 * n) / 8 < n := by omega
  have hbit := hbits _ (hplaced _ hpage _ hsquare) (y % (8 * n) % 8) (Nat.mod_lt _ (by omega))
    (7 - (p.height - 1 - x) % 8) (by omega)
  have hcolumn : 8 * (n * (y / (8 * n))) + y % (8 * n) = y := by
    rw [← Nat.mul_assoc]
    exact Nat.div_add_mod y (8 * n)
  have htarget : 8 * (n * ((p.height - 1 - x) / 8) + y % (8 * n) / 8) + y % (8 * n) % 8 =
      8 * n * ((p.height - 1 - x) / 8) + y % (8 * n) := by
    rw [Nat.mul_add, Nat.mul_assoc]
    omega
  have hy8 : y / 8 = n * (y / (8 * n)) + y % (8 * n) / 8 := by omega
  have hsource : p.blockSize * (y / (8 * n)) +
      8 * (pages - 1 - (p.height - 1 - x) / 8 + pages * (y % (8 * n) / 8)) +
        (7 - (p.height - 1 - x) % 8) = x + y / 8 * p.height := by
    rw [hy8, h.size, hheight, Nat.add_mul, Nat.mul_assoc (8 * pages), Nat.mul_comm _ (8 * pages),
      Nat.mul_comm _ (8 * pages), Nat.mul_assoc 8 pages (y % (8 * n) / 8)]
    omega
  rw [htarget, hsource, show 7 - (7 - (p.height - 1 - x) % 8) = (p.height - 1 - x) % 8 by omega]
    at hbit
  rw [OledRam.pixel, hbyte, hbit, pixel, show y % 8 = y % (8 * n) % 8 by omega]

theorem rotatesRight_of_placed (h : p.Frames pages n) (hplaced : p.Placed pages n) :
    p.RotatesRight := by
  constructor
  · intro blocks hblocks buffer ram x y on hx hy
    obtain ⟨buffer', hbuffer', hset⟩ := writePixel_total h x y on buffer hx hy
    obtain ⟨ram', hram', hpixels⟩ := renderBlocks_pixel h hplaced hblocks buffer' ram
    refine ⟨ram', by rw [hbuffer', Option.bind_some, hram'], ?_⟩
    rw [hpixels _ hx _ hy, hset _ hx, if_pos ⟨rfl, rfl⟩]
  · intro column row hcolumn hrow
    have hshow : ∀ blocks, p.Covers blocks → ∀ (buffer : Vector Byte p.matrixSize) (ram : OledRam),
        ∃ ram', p.renderBlocks blocks buffer ram = some ram' ∧
          ram'.pixel column row = p.pixel buffer (p.height - 1 - row) column := by
      intro blocks hblocks buffer ram
      obtain ⟨ram', hram', hpixels⟩ := renderBlocks_pixel h hplaced hblocks buffer ram
      refine ⟨ram', hram', ?_⟩
      rw [← hpixels _ (by omega) _ hcolumn, show p.height - 1 - (p.height - 1 - row) = row by omega]
    refine ⟨(p.height - 1 - row, column), ⟨by omega, hcolumn, hshow⟩, ?_⟩
    rintro ⟨x, y⟩ ⟨hx, hy, hfrom⟩
    -- a picture with one pixel tells the two places apart
    have hheight := h.height
    have hpages := h.pages_le
    have hx₀ : (BitVec.ofNat 8 (p.height - 1 - row)).toNat = p.height - 1 - row := by
      rw [BitVec.toNat_ofNat, Nat.mod_eq_of_lt (by omega)]
    have hy₀ : (BitVec.ofNat 8 column).toNat = column := by
      rw [BitVec.toNat_ofNat, Nat.mod_eq_of_lt (by rw [h.width] at hcolumn; omega)]
    obtain ⟨buffer, -, hset⟩ := writePixel_total h (BitVec.ofNat 8 (p.height - 1 - row))
      (BitVec.ofNat 8 column) true (Vector.replicate p.matrixSize 0) (by omega)
      (by rw [hy₀]; exact hcolumn)
    rw [hx₀, hy₀] at hset
    obtain ⟨ram, hram, hthere⟩ := hshow _ (covers_range p) buffer (fun _ _ => 0)
    obtain ⟨ram', hram', hhere⟩ := hfrom _ (covers_range p) buffer (fun _ _ => 0)
    cases hram.symm.trans hram'
    have hone : p.pixel buffer x y := by
      rw [← hhere, hthere, hset _ (by omega), if_pos ⟨rfl, rfl⟩]
    rw [hset x hx y] at hone
    split at hone
    · next hsame => rw [hsame.1, hsame.2]
    · rw [pixel_replicate] at hone
      cases hone

/-! ### Other pictures -/

theorem not_rotatesRight_of_corner (h : p.Frames pages n) {s : Nat} (hpos : 0 < s)
    (hlt : s < p.height)
    (hmap : (s, 8 * n * (pages - 1)) ∈ p.sourceMap.zip p.targetMap) : ¬ p.RotatesRight := by
  intro hright
  have hheight := h.height
  have hpages := h.pages_pos
  have hn := h.n_pos
  have hwidth : (0 : Byte).toNat < p.width := by
    rw [h.width]
    decide
  obtain ⟨ram', hrender, hcorner⟩ := hright.pixel _ (covers_range p)
    (Vector.replicate p.matrixSize 0) (fun _ _ => 0) 0 0 true (height_pos h) hwidth
  obtain ⟨buffer, hbuffer, hset⟩ := writePixel_total h 0 0 true
    (Vector.replicate p.matrixSize 0) (height_pos h) hwidth
  rw [hbuffer, Option.bind_some] at hrender
  have hblock : 0 < p.blockCount := by
    refine Nat.pos_of_ne_zero (fun hzero => ?_)
    have hcount := h.count
    rw [hzero] at hcount
    omega
  obtain ⟨ram, hram, hbytes⟩ := renderBlocks_total h _ (covers_range p).lt buffer (fun _ _ => 0)
  cases hrender.symm.trans hram
  obtain ⟨temp, htemp, hbyte⟩ := (hbytes (pages - 1) (by omega) 0).1
    (by rw [Nat.zero_div]; exact List.mem_range.mpr hblock)
  obtain ⟨temp', htemp', hbits⟩ := turned_total h hblock buffer
  rw [Nat.zero_div] at htemp
  cases htemp.symm.trans htemp'
  have hbit := hbits _ hmap 0 (by omega) 0 (by omega)
  have hother := hset s hlt 0
  rw [if_neg (fun hsame => hpos.ne' hsame.1), pixel_replicate] at hother
  have hrow : (p.height - 1 - (0 : Byte).toNat) / 8 = pages - 1 ∧
      (p.height - 1 - (0 : Byte).toNat) % 8 = 7 := by
    rw [show (0 : Byte).toNat = 0 from rfl]
    omega
  rw [OledRam.pixel, hrow.1, hrow.2, show (0 : Byte).toNat = 0 from rfl, hbyte, Nat.zero_mod]
    at hcorner
  -- bit 7 of the first byte there is the first pixel of the other square
  have hsame : p.pixel buffer s 0 := by
    refine Eq.trans ?_ (hbit.symm.trans hcorner)
    rw [pixel, Nat.zero_div, Nat.zero_mul, Nat.zero_mod, Nat.mul_zero, Nat.zero_add, Nat.add_zero]
  rw [hother] at hsame
  cases hsame

theorem rotate90_eq_none {n m : Nat} (src dest : Nat) (buffer : Vector Byte n)
    (temp : Vector Byte m) (hsrc : n ≤ src) : rotate90 src dest buffer temp = none := by
  refine Option.not_isSome_iff_eq_none.mp (fun hsome => ?_)
  refine (loop_isSome_iff _ (fun _ => False) 8 (fun i _ t => ?_) temp).mp hsome 0 (by omega)
  refine (loop_isSome_iff _ (fun _ => False) 8 (fun j _ u => ?_) t).trans
    ⟨fun hall => hall 0 (by omega), fun hfalse => hfalse.elim⟩
  have hnone : fetch buffer (src + j) = none :=
    Option.not_isSome_iff_eq_none.mp (mt (fetch_isSome_iff buffer _).mp (by omega))
  rw [hnone]
  exact iff_of_false (fun h => Bool.noConfusion h) id

theorem turned_isSome_of_renderBlocks {blocks : List Nat} {buffer : Vector Byte p.matrixSize}
    {ram ram' : OledRam} (hrender : p.renderBlocks blocks buffer ram = some ram') {u : Nat}
    (hu : u ∈ blocks) : (p.turned u buffer).isSome := by
  induction blocks generalizing ram with
  | nil => exact absurd hu List.not_mem_nil
  | cons v blocks ih =>
    rw [renderBlocks, List.foldlM_cons] at hrender
    obtain ⟨ram₁, hram₁, hrest⟩ := Option.bind_eq_some_iff.mp hrender
    rcases List.mem_cons.mp hu with rfl | hlater
    · obtain ⟨temp, htemp, -⟩ := Option.map_eq_some_iff.mp hram₁
      rw [htemp]
      rfl
    · exact ih hrest hlater

theorem not_rotatesRight_of_behind {map : Nat × Nat} {maps : List (Nat × Nat)}
    (hmaps : p.sourceMap.zip p.targetMap = map :: maps) (hheight : 0 < p.height)
    (hwidth : 0 < p.width) (hcount : 0 < p.blockCount)
    (hbehind : p.matrixSize ≤ p.blockSize * (p.blockCount - 1) + map.1) : ¬ p.RotatesRight := by
  intro hright
  obtain ⟨ram', hrender, -⟩ := hright.pixel _ (covers_range p)
    (Vector.replicate p.matrixSize 0) (fun _ _ => 0) 0 0 true hheight hwidth
  obtain ⟨buffer, -, hrender⟩ := Option.bind_eq_some_iff.mp hrender
  have hturned := turned_isSome_of_renderBlocks hrender
    (List.mem_range.mpr (Nat.sub_lt hcount (by omega : 0 < 1)))
  rw [turned, hmaps, List.foldlM_cons, rotate90_eq_none _ _ _ _ hbehind] at hturned
  cases hturned

/-! ### What `oled_render` sends -/

theorem rotate90_congr {src src' : Nat → Byte} (h : ∀ j < 8, src j = src' j) (i : Nat) :
    Oled.rotate90 src i = Oled.rotate90 src' i := by
  unfold Oled.rotate90
  refine List.foldl_ext _ _ _ (fun d j hj => ?_)
  rw [h j (List.mem_range.mp hj)]

theorem turns_congr {src src' : Nat → Byte} {size : Nat} (h : ∀ j < size, src j = src' j)
    (maps : List (Nat × Nat)) (hmaps : ∀ map ∈ maps, map.1 + 8 ≤ size) (q : Nat) (byte : Byte) :
    turns src maps q byte = turns src' maps q byte := by
  unfold turns
  refine List.foldl_ext _ _ _ (fun byte map hmap => ?_)
  have hfit := hmaps map hmap
  unfold turn
  rw [rotate90_congr (fun j hj => h (map.1 + j) (by omega))]

theorem rotated_getElem? (bytes : List Byte) (maps : List (Nat × Nat)) (temp : List Byte)
    (q : Nat) :
    (maps.foldl (fun temp map => temp.mapIdx (fun p byte =>
      if map.2 ≤ p ∧ p < map.2 + 8 then
        byte ||| Oled.rotate90 (fun j => bytes.getD (map.1 + j) 0) (p - map.2)
      else byte)) temp)[q]? = temp[q]?.map (turns (fun j => bytes.getD j 0) maps q) := by
  induction maps generalizing temp with
  | nil => exact Option.map_id'.symm
  | cons map maps ih =>
    rw [List.foldl_cons, ih, List.getElem?_mapIdx, Option.map_map]
    rfl

theorem turned_eq_payload {c : OledBuild} (hrotated : c.rotated) (s : Oled c)
    {block : Nat} (hblock : block < c.blockCount) :
    ∃ temp, c.panel.turned block s.buffer = some temp ∧
      temp.toList = Oled.payload c (s.blockBytes block) := by
  have hfits : c.blockSize * block + c.blockSize ≤ c.matrixSize := block_fits (p := c.panel) hblock
  have hmaps : ∀ map ∈ c.sourceMap.zip c.targetMap,
      map.1 + 8 ≤ c.blockSize ∧ map.2 + 8 ≤ c.blockSize := by
    intro map hmap
    obtain ⟨hsource, htarget⟩ := List.of_mem_zip hmap
    exact ⟨c.maps_fit _ (List.mem_append_left _ hsource),
      c.maps_fit _ (List.mem_append_right _ htarget)⟩
  obtain ⟨temp, htemp, hbytes⟩ := squares_total (c.blockSize * block) s.buffer
    (c.sourceMap.zip c.targetMap) (fun map hmap => by
      have := hmaps map hmap
      omega) (Vector.replicate c.blockSize 0)
  refine ⟨temp, htemp, List.ext_getElem? (fun q => ?_)⟩
  have hblockBytes : ∀ j < c.blockSize, s.buffer.toList.getD (c.blockSize * block + j) 0 =
      (s.blockBytes block).getD j 0 := by
    intro j hj
    rw [Oled.blockBytes, List.getD_eq_getElem?_getD, List.getD_eq_getElem?_getD, List.getElem?_map,
      List.getElem?_range hj]
    simp
  have hbyte := hbytes q
  unfold fetch at hbyte
  refine hbyte.trans ?_
  rw [Oled.payload, if_pos hrotated, Oled.rotatedBytes, rotated_getElem?,
    Vector.toList_replicate]
  congr 1
  funext byte
  exact turns_congr hblockBytes _ (fun map hmap => (hmaps map hmap).1) q byte

theorem render_eq {c : OledBuild} (hrotated : c.rotated) (s : Oled c) (onOk : Bool)
    {transfer : OledTransfer} (hsent : (s.render true true onOk).1 = some transfer)
    (hblock : transfer.block < c.blockCount) (ram : OledRam) :
    transfer.position = (c.panel.calcBounds90 transfer.block).command ∧
      c.panel.renderBlock s.buffer ram transfer.block =
        some (ram.receive (c.panel.calcBounds90 transfer.block) transfer.data) := by
  unfold Oled.render at hsent
  dsimp only at hsent
  split at hsent
  · cases hsent
  · rw [if_pos ⟨rfl, rfl⟩, Option.some.injEq] at hsent
    subst hsent
    obtain ⟨temp, htemp, hlist⟩ := turned_eq_payload hrotated s hblock
    refine ⟨rfl, ?_⟩
    refine (congrArg (Option.map _) htemp).trans ?_
    rw [Option.map_some, hlist]
    rfl

theorem store_of_setByte {c : OledBuild} {s t : Oled c} {index : Nat} {data : Byte}
    (h : s.setByte index data = some t) : store s.buffer index data = some t.buffer := by
  have hindex : index < c.matrixSize :=
    ((s.setByte_isSome_iff index data).mp (by rw [h]; rfl)).1
  rw [store_of_lt _ _ _ hindex, Option.some.injEq]
  refine Vector.toList_inj.mp (List.ext_getElem? (fun i => ?_))
  exact (fetch_setIfInBounds _ _ _ _ hindex).trans (s.setByte_fetch index data h i).symm

theorem writePixel_eq {c : OledBuild} (hrotated : c.rotated) (x y : Byte) (on : Bool)
    {s t : Oled c} (hset : s.writePixel x y on = some t) :
    c.panel.writePixel x y on s.buffer = some t.buffer := by
  have hwidth : c.rotationWidth = c.height := if_pos hrotated
  unfold Oled.writePixel at hset
  rw [hwidth] at hset
  by_cases hx : c.height ≤ x.toNat
  · rw [if_pos hx] at hset
    cases hset
    exact if_pos hx
  rw [if_neg hx] at hset
  refine (if_neg hx).trans ?_
  by_cases hy : c.matrixSize ≤ x.toNat + y.toNat / 8 * c.height
  · rw [if_pos hy] at hset
    cases hset
    exact if_pos hy
  rw [if_neg hy] at hset
  refine (if_neg hy).trans ?_
  obtain ⟨data, hdata, hset⟩ := Option.bind_eq_some_iff.mp hset
  exact Option.bind_eq_some_iff.mpr ⟨data, hdata, store_of_setByte hset⟩

/-! ### The tables of the header -/

theorem frames_of_maps {d : OledDisplay} {t : OledBlockType} {maps : List Nat × List Nat}
    (hmaps : rotationMaps d t = some maps) (ht : t ≠ .uint32) :
    (d.panel t maps).Frames (d.height / 8) (16 / t.bits) := by
  cases d <;> cases t <;> cases hmaps <;> first | exact absurd rfl ht | constructor <;> decide

theorem placed_of_maps {d : OledDisplay} {t : OledBlockType} {maps : List Nat × List Nat}
    (hmaps : rotationMaps d t = some maps) (hright : d = .of128x32 ∨ t = .uint16) :
    (d.panel t maps).Placed (d.height / 8) (16 / t.bits) := by
  unfold Placed
  cases d <;> cases t <;> cases hmaps <;> first | exact absurd hright (by decide) | decide

end OledPanel

/-- The rotation is right exactly on the display with 32 rows, and with blocks of 16 bits. -/
theorem rotation_right_iff (d : OledDisplay) (t : OledBlockType) (maps : List Nat × List Nat)
    (hmaps : rotationMaps d t = some maps) :
    (d.panel t maps).RotatesRight ↔ d = .of128x32 ∨ t = .uint16 := by
  constructor
  · intro hright
    by_contra hwrong
    rw [not_or] at hwrong
    cases t with
    | uint8 =>
      have hframes := OledPanel.frames_of_maps hmaps (by decide)
      cases d with
      | of128x32 => exact hwrong.1 rfl
      | of128x64 =>
        cases hmaps
        exact OledPanel.not_rotatesRight_of_corner hframes (s := 24) (by decide) (by decide)
          (by decide) hright
    | uint16 => exact hwrong.2 rfl
    | uint32 =>
      cases d with
      | of128x32 => exact hwrong.1 rfl
      | of128x64 =>
        cases hmaps
        exact OledPanel.not_rotatesRight_of_behind rfl (by decide) (by decide) (by decide)
          (by decide) hright
  · intro hright
    have ht : t ≠ .uint32 := by
      rintro rfl
      rcases hright with rfl | ht
      · cases hmaps
      · cases ht
    exact OledPanel.rotatesRight_of_placed (OledPanel.frames_of_maps hmaps ht)
      (OledPanel.placed_of_maps hmaps hright)

/-- The display with 32 rows and blocks of 16 bits. -/
theorem rotation_right_default :
    (OledDisplay.panel .of128x32 .uint16 ([0, 8, 16, 24], [24, 16, 8, 0])).RotatesRight :=
  (rotation_right_iff .of128x32 .uint16 _ rfl).mpr (Or.inl rfl)

/-- The display with 64 rows and blocks of 8 bits. -/
theorem rotation_wrong :
    ¬ (OledDisplay.panel .of128x64 .uint8
      ([0, 8, 16, 24, 32, 40, 48, 56, 64, 72, 80, 88, 96, 104, 112, 120],
        [56, 120, 48, 112, 40, 104, 32, 96, 24, 88, 16, 80, 8, 72, 0, 64])).RotatesRight :=
  OledPanel.not_rotatesRight_of_corner
    (OledPanel.frames_of_maps (d := .of128x64) (t := .uint8) rfl (by decide)) (s := 24) (by decide)
    (by decide) (by decide)

end K530
