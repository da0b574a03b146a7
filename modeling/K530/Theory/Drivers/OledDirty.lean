import K530.Lib.Run
import K530.Theory.Drivers.OledBounds

/-!
# What Is on the Display

A block whose bytes are not those that were sent for it last should be marked, so that it
is sent again, unless the display scrolls: then nothing is sent, and when it stops all blocks
are marked. So when there are no marks the display shows the buffer.

A byte that is set marks its block. A character marks the blocks of its first byte and of its
last, and with a font that is wider than a block and one more byte there may be others in
between. That such a block was marked before, or that the character does not change it, is
what the law asks for. A display with bytes behind the last block never shows these, and
when the last mark is gone that is noticed.

The calls here are those at which nothing but the buffer, the marks and the display change
hands: the spaces to the end of a line are as many characters.

## Main definitions

* `OledEvent`: The calls, the transfers of which succeed or fail.

## Theorems

* `oled_dirty_iff`: When the law holds.
* `oled_dirty_missed`: A wide character is put on three blocks.
-/

namespace K530

open Checked StepRun

/-- The calls. -/
inductive OledEvent where
  /-- `oled_write_char` of a character that does not end the line. -/
  | putChar (data : Byte) (invert : Bool)
  | setCursor (col line : Byte)
  /-- `oled_advance_page` without the spaces. -/
  | nextPage
  | writeRaw (data : Nat → Byte) (size : BitVec 16)
  | writeRawByte (data : Byte) (index : BitVec 16)
  | writePixel (x y : Byte) (on : Bool)
  | pan (left : Bool)
  | clear
  /-- `oled_scroll_right` or `oled_scroll_left` -/
  | scroll (ok : Bool)
  | scrollOff (ok : Bool)
  | render (positionOk dataOk onOk : Bool)

namespace Oled

variable {c : OledBuild}

/-- A call: what it sends, and the variables after it, if it stays inside the buffer. -/
def event (s : Oled c) (e : OledEvent) : Option (Option OledTransfer × Oled c) :=
  match e with
  | .putChar data invert => (s.putChar data invert).map (fun t => (none, t))
  | .setCursor col line => some (none, s.setCursor col line)
  | .nextPage => some (none, s.nextPage)
  | .writeRaw data size => (s.writeRaw data size).map (fun t => (none, t))
  | .writeRawByte data index => (s.writeRawByte data index).map (fun t => (none, t))
  | .writePixel x y on => (s.writePixel x y on).map (fun t => (none, t))
  | .pan left => (s.pan left).map (fun t => (none, t))
  | .clear => some (none, s.clear)
  | .scroll ok => some (none, s.scroll ok)
  | .scrollOff ok => some (none, s.scrollOff ok)
  | .render positionOk dataOk onOk => some (s.render positionOk dataOk onOk)

end Oled

/-- The variables, and what was sent. -/
structure OledRun (c : OledBuild) where
  oled : Oled c
  /-- The bytes of a block that were sent for it last, as long as they are on the display. -/
  sent : Nat → Option (List Byte)
  /-- What the display has of a block. -/
  device : Nat → Option (List Byte)
  /-- The marks before the last call. -/
  before : BitVec c.blockBits
  /-- What it sent. -/
  out : Option OledTransfer

namespace OledRun

variable {c : OledBuild}

/-- `oled_init` has succeeded, and nothing is known of the display. -/
def init : OledRun c where
  oled := Oled.init
  sent _ := none
  device _ := none
  before := 0
  out := none

/-- The transfer of the data of a block fails in the middle. -/
def spoils (r : OledRun c) (e : OledEvent) (block : Nat) : Prop :=
  match e with
  | .render positionOk dataOk _ =>
    r.oled.dirty &&& c.allBlocksMask ≠ 0 ∧ r.oled.scrolling = false ∧ positionOk = true ∧
      dataOk = false ∧ block = Oled.updateStart (r.oled.dirty &&& c.allBlocksMask)
  | _ => False

instance (r : OledRun c) (e : OledEvent) (block : Nat) : Decidable (r.spoils e block) := by
  unfold spoils
  cases e <;> infer_instance

/-- The memory of the display after a call: a block that arrives is there, one that is cut
    off or that may have been scrolled is not known. -/
def memory (r : OledRun c) (e : OledEvent) (out : Option OledTransfer) (t : Oled c)
    (data : OledTransfer → List Byte) (old : Nat → Option (List Byte)) (block : Nat) :
    Option (List Byte) :=
  if t.scrolling = true ∨ r.spoils e block then none
  else
    match out with
    | some transfer => if transfer.block = block then some (data transfer) else old block
    | none => old block

/-- A call, if it stays inside the buffer. -/
def step (r : OledRun c) (e : OledEvent) : OledRun c :=
  match r.oled.event e with
  | some (out, t) =>
    { oled := t
      sent := r.memory e out t (fun transfer => r.oled.blockBytes transfer.block) r.sent
      device := r.memory e out t OledTransfer.data r.device
      before := r.oled.dirty
      out := out }
  | none => { r with before := r.oled.dirty, out := none }

/-- Unless the display scrolls, a block of which other bytes were sent is marked. Without
    marks the display shows the buffer. What is sent is the first block that was marked. -/
structure Tracked (r : OledRun c) : Prop where
  marked : r.oled.scrolling = false → ∀ k < c.blockCount,
    r.sent k ≠ some (r.oled.blockBytes k) → r.oled.dirty.getLsbD k = true
  shown : r.oled.dirty = 0 → r.oled.scrolling = false → ∀ i < c.matrixSize,
    i / c.blockSize < c.blockCount ∧
      r.device (i / c.blockSize) = some (Oled.payload c (r.oled.blockBytes (i / c.blockSize)))
  first : ∀ transfer, r.out = some transfer →
    r.before.getLsbD transfer.block = true ∧ (∀ j < transfer.block, r.before.getLsbD j = false) ∧
      transfer.data = Oled.payload c (r.oled.blockBytes transfer.block)

/-- A character does not change a block between its first and its last that is not marked.
    And if there are bytes behind the blocks, the last mark is not taken away. -/
def Covers (r : OledRun c) (e : OledEvent) : Prop :=
  match e with
  | .putChar data invert =>
    r.oled.scrolling = false → r.oled.GlyphFits data invert →
      ∀ k, r.oled.cursor / c.blockSize < k →
        k < (r.oled.cursor + c.fontWidth - 1) / c.blockSize →
          r.oled.dirty.getLsbD k = false →
            ({ r.oled with buffer := r.oled.drawn data invert } : Oled c).blockBytes k =
              r.oled.blockBytes k
  | .render positionOk dataOk _ =>
    c.blockCount * c.blockSize < c.matrixSize → r.oled.scrolling = false →
      positionOk = true → dataOk = true →
        ∃ j k, j ≠ k ∧ r.oled.dirty.getLsbD j = true ∧ r.oled.dirty.getLsbD k = true
  | _ => True

end OledRun

/-! ### The marks -/

theorem ones_getLsbD (w m i : Nat) (hm : m < w) :
    (1#w <<< m - 1).getLsbD i = decide (i < m) := by
  have hlt : 2 ^ m < 2 ^ w := Nat.pow_lt_pow_right (by decide) hm
  have hone : (1#w <<< m).toNat = 2 ^ m := by
    rw [BitVec.toNat_shiftLeft, BitVec.toNat_ofNat, Nat.one_mod_two_pow (by omega),
      Nat.one_shiftLeft, Nat.mod_eq_of_lt hlt]
  have hpos := Nat.two_pow_pos m
  have hle : (1 : BitVec w) ≤ 1#w <<< m := by
    rw [BitVec.le_def, hone]
    change 1 % 2 ^ w ≤ 2 ^ m
    rw [Nat.one_mod_two_pow (by omega)]
    omega
  rw [BitVec.getLsbD, BitVec.toNat_sub_of_le hle, hone]
  change (2 ^ m - 1 % 2 ^ w).testBit i = _
  rw [Nat.one_mod_two_pow (by omega), Nat.testBit_two_pow_sub_one]

namespace OledBuild

variable (c : OledBuild)

theorem allBlocksMask_getLsbD (k : Nat) :
    c.allBlocksMask.getLsbD k = decide (k < c.blockCount) := by
  have hpos := c.blockCount_pos
  have hle := c.blockCount_le
  unfold allBlocksMask
  rw [BitVec.getLsbD_or, BitVec.getLsbD_shiftLeft, ones_getLsbD _ _ _ (by omega)]
  have hone : (1 : BitVec c.blockBits).getLsbD k = decide (k = 0) := by
    change (1#c.blockBits).getLsbD k = _
    rw [BitVec.getLsbD_one]
    grind
  rw [hone]
  grind

theorem allBlocksMask_ne_zero : c.allBlocksMask ≠ 0 := by
  intro h
  have hbit := c.allBlocksMask_getLsbD 0
  have hzero : (0 : BitVec c.blockBits).getLsbD 0 = false := BitVec.getLsbD_zero
  rw [h, hzero, eq_comm, decide_eq_false_iff_not] at hbit
  exact hbit c.blockCount_pos

theorem blockBit_getLsbD (block k : Nat) (h : block < c.blockCount) :
    (1#c.blockBits <<< block).getLsbD k = decide (k = block) := by
  have hle := c.blockCount_le
  have hbit : (1#c.blockBits <<< block).getLsbD k = decide (block = k) :=
    BitWords.bit_getLsbD block k (by omega)
  rw [hbit]
  exact decide_eq_decide.mpr eq_comm

end OledBuild

/-! ### What a call that draws leaves alone -/

namespace Oled

variable {c : OledBuild} {s t u : Oled c}

def byteAt (s : Oled c) (i : Nat) : Byte :=
  s.buffer.toList.getD i 0

theorem blockBytes_congr {k : Nat}
    (h : ∀ i, i / c.blockSize = k → t.byteAt i = s.byteAt i) : t.blockBytes k = s.blockBytes k := by
  unfold blockBytes
  apply List.map_congr_left
  intro j hj
  apply h
  have hlt := List.mem_range.mp hj
  rw [Nat.mul_add_div c.blockSize_pos, Nat.div_eq_of_lt hlt, Nat.add_zero]

/-- The marks that a call sets are those of blocks, and none is taken away. What is not marked
    after it has not been changed, unless the display scrolls. -/
structure Draws (s t : Oled c) : Prop where
  scrolling : t.scrolling = s.scrolling
  grows : ∀ k, s.dirty.getLsbD k = true → t.dirty.getLsbD k = true
  ranges : ∀ k, t.dirty.getLsbD k = true → s.dirty.getLsbD k = true ∨ k < c.blockCount
  kept : s.scrolling = false → ∀ k, t.dirty.getLsbD k = false → t.blockBytes k = s.blockBytes k

theorem Draws.refl (s : Oled c) : s.Draws s :=
  ⟨rfl, fun _ h => h, fun _ h => Or.inl h, fun _ _ _ => rfl⟩

theorem Draws.trans (h : s.Draws t) (h' : t.Draws u) : s.Draws u where
  scrolling := h'.scrolling.trans h.scrolling
  grows k hk := h'.grows k (h.grows k hk)
  ranges k hk := (h'.ranges k hk).elim (h.ranges k) Or.inr
  kept hscrolling k hk := by
    have hbefore : t.dirty.getLsbD k = false := by
      cases hbit : t.dirty.getLsbD k with
      | false => rfl
      | true => exact absurd ((h'.grows k hbit).symm.trans hk) (by decide)
    rw [h'.kept (h.scrolling.trans hscrolling) k hk, h.kept hscrolling k hbefore]

theorem mark_dirty {block : Nat} (h : s.mark block = some t) (k : Nat) :
    block < c.blockCount ∧ t.buffer = s.buffer ∧ t.scrolling = s.scrolling ∧
      t.dirty.getLsbD k = (s.dirty.getLsbD k || decide (k = block)) := by
  unfold mark at h
  split at h
  · rename_i hblock
    cases h
    refine ⟨hblock, rfl, rfl, ?_⟩
    rw [BitVec.getLsbD_or, c.blockBit_getLsbD block k hblock]
  · cases h

theorem setByte_draws (index : Nat) (data : Byte) (h : s.setByte index data = some t) :
    s.Draws t := by
  have hfetch := s.setByte_fetch index data h
  have hbyte : ∀ i, index ≠ i → t.byteAt i = s.byteAt i := by
    intro i hi
    unfold byteAt
    rw [List.getD_eq_getElem?_getD, List.getD_eq_getElem?_getD]
    exact congrArg (fun o => o.getD 0) ((hfetch i).trans (if_neg hi))
  unfold setByte at h
  obtain ⟨old, hold, h⟩ := Option.bind_eq_some_iff.mp h
  split at h
  · cases h
    exact Draws.refl s
  · obtain ⟨buffer, _, h⟩ := Option.bind_eq_some_iff.mp h
    have hmark := mark_dirty h
    refine ⟨(hmark 0).2.2.1, fun k hk => ?_, fun k hk => ?_, fun _ k hk => ?_⟩
    · rw [(hmark k).2.2.2, hk, Bool.true_or]
    · rw [(hmark k).2.2.2, Bool.or_eq_true, decide_eq_true_eq] at hk
      rcases hk with hk | rfl
      · exact Or.inl hk
      · exact Or.inr (hmark 0).1
    · rw [(hmark k).2.2.2, Bool.or_eq_false_iff, decide_eq_false_iff_not] at hk
      refine blockBytes_congr (fun i hi => hbyte i ?_)
      rintro rfl
      exact hk.2 hi.symm

theorem writeRaw_draws (data : Nat → Byte) (size : BitVec 16) (h : s.writeRaw data size = some t) :
    s.Draws t :=
  loop_invariant (fun i (t : Oled c) => t.setByte (s.cursor + i) (data i))
    (fun _ (t : Oled c) => s.Draws t) (s.rawSize size)
    (fun _ _ _ _ hdraws hset => hdraws.trans (setByte_draws _ _ hset)) s t (Draws.refl s) h

theorem writePixel_draws (x y : Byte) (on : Bool) (h : s.writePixel x y on = some t) :
    s.Draws t := by
  unfold writePixel at h
  dsimp only at h
  split at h
  · cases h
    exact Draws.refl s
  · split at h
    · cases h
      exact Draws.refl s
    · obtain ⟨data, _, h⟩ := Option.bind_eq_some_iff.mp h
      exact setByte_draws _ _ h

theorem drawn_byteAt (data : Byte) (invert : Bool) (i : Nat)
    (hi : ¬(s.cursor ≤ i ∧ i < s.cursor + c.fontWidth)) :
    ({ s with buffer := s.drawn data invert } : Oled c).byteAt i = s.byteAt i := by
  unfold byteAt drawn
  rw [List.getD_eq_getElem?_getD, List.getD_eq_getElem?_getD]
  by_cases hlt : i < c.matrixSize
  · simp [hlt, hi]
  · simp [hlt]

theorem drawn_unchanged (data : Byte) (invert : Bool) (h : ¬s.changes data invert)
    (k : Nat) :
    ({ s with buffer := s.drawn data invert } : Oled c).blockBytes k = s.blockBytes k := by
  refine blockBytes_congr (fun i _ => ?_)
  by_cases hi : s.cursor ≤ i ∧ i < s.cursor + c.fontWidth
  swap
  · exact drawn_byteAt data invert i hi
  have hsame : s.byteAt i = glyph c data invert (i - s.cursor) := by
    unfold changes at h
    rw [List.any_eq_true] at h
    by_contra hother
    refine h ⟨i - s.cursor, List.mem_range.mpr (by omega), ?_⟩
    rw [Nat.add_sub_cancel' hi.1]
    exact bne_iff_ne.mpr hother
  unfold byteAt drawn at *
  rw [List.getD_eq_getElem?_getD, List.getD_eq_getElem?_getD] at *
  by_cases hlt : i < c.matrixSize
  · simp_all
  · simp [hlt]

theorem putChar_spec (data : Byte) (invert : Bool) (h : s.putChar data invert = some t) :
    t.buffer = s.drawn data invert ∧ t.scrolling = s.scrolling ∧
      ∀ k, t.dirty.getLsbD k ↔ s.dirty.getLsbD k ∨
        (s.changes data invert ∧ (k = s.cursor / c.blockSize ∨
          k = (s.cursor + c.fontWidth - 1) / c.blockSize)) := by
  unfold putChar at h
  dsimp only at h
  split at h
  swap
  · cases h
  split at h
  · rename_i hchanged
    obtain ⟨u, hu, h⟩ := Option.bind_eq_some_iff.mp h
    obtain ⟨v, hv, rfl⟩ := Option.map_eq_some_iff.mp h
    obtain ⟨-, hbuffer, hscrolling, -⟩ := mark_dirty hu 0
    obtain ⟨-, hbuffer', hscrolling', -⟩ := mark_dirty hv 0
    refine ⟨hbuffer'.trans hbuffer, hscrolling'.trans hscrolling, fun k => ?_⟩
    have hdirty : v.advanceChar.dirty = v.dirty := rfl
    rw [hdirty, (mark_dirty hv k).2.2.2, (mark_dirty hu k).2.2.2]
    simp only [Bool.or_eq_true, decide_eq_true_eq, hchanged, true_and, or_assoc]
  · rename_i hsame
    cases h
    exact ⟨rfl, rfl, fun k => (or_iff_left (fun hchanged => hsame hchanged.1)).symm⟩

theorem drawn_blockBytes (data : Byte) (invert : Bool) (k : Nat)
    (hk : k < s.cursor / c.blockSize ∨ (s.cursor + c.fontWidth - 1) / c.blockSize < k) :
    ({ s with buffer := s.drawn data invert } : Oled c).blockBytes k = s.blockBytes k := by
  refine blockBytes_congr (fun i hi => drawn_byteAt data invert i ?_)
  rintro ⟨hlo, hhi⟩
  have hfirst : s.cursor / c.blockSize ≤ i / c.blockSize := Nat.div_le_div_right hlo
  have hlast : i / c.blockSize ≤ (s.cursor + c.fontWidth - 1) / c.blockSize :=
    Nat.div_le_div_right (by omega)
  omega

theorem putChar_draws (data : Byte) (invert : Bool) (h : s.putChar data invert = some t)
    (hcovers : s.scrolling = false → ∀ k, s.cursor / c.blockSize < k →
      k < (s.cursor + c.fontWidth - 1) / c.blockSize → s.dirty.getLsbD k = false →
        ({ s with buffer := s.drawn data invert } : Oled c).blockBytes k = s.blockBytes k) :
    s.Draws t := by
  obtain ⟨hbuffer, hscrolling, hmarks⟩ := putChar_spec data invert h
  have hbytes : ∀ k, t.blockBytes k =
      ({ s with buffer := s.drawn data invert } : Oled c).blockBytes k := by
    intro k
    unfold blockBytes
    rw [hbuffer]
  have hfits := (s.putChar_isSome_iff data invert).mp (by rw [h]; rfl)
  have hle : s.cursor / c.blockSize ≤ (s.cursor + c.fontWidth - 1) / c.blockSize :=
    Nat.div_le_div_right (by have := c.fontWidth_pos; omega)
  refine ⟨hscrolling, fun k hk => (hmarks k).mpr (Or.inl hk), fun k hk => ?_,
    fun hstill k hk => ?_⟩
  · rcases (hmarks k).mp hk with hk | ⟨hchanged, rfl | rfl⟩
    · exact Or.inl hk
    · exact Or.inr (Nat.lt_of_le_of_lt hle (hfits.2 hchanged))
    · exact Or.inr (hfits.2 hchanged)
  · have hclean : ¬(s.dirty.getLsbD k ∨ (s.changes data invert ∧
        (k = s.cursor / c.blockSize ∨ k = (s.cursor + c.fontWidth - 1) / c.blockSize))) := by
      rw [← hmarks k, hk]
      exact Bool.false_ne_true
    rw [hbytes k]
    by_cases hchanged : s.changes data invert
    swap
    · exact drawn_unchanged data invert hchanged k
    by_cases hbetween : s.cursor / c.blockSize < k ∧
        k < (s.cursor + c.fontWidth - 1) / c.blockSize
    · exact hcovers hstill k hbetween.1 hbetween.2 (by simpa using fun hbit => hclean (Or.inl hbit))
    · have hfirst : k ≠ s.cursor / c.blockSize := fun heq => hclean (Or.inr ⟨hchanged, Or.inl heq⟩)
      have hlast : k ≠ (s.cursor + c.fontWidth - 1) / c.blockSize := fun heq =>
        hclean (Or.inr ⟨hchanged, Or.inr heq⟩)
      exact drawn_blockBytes data invert k (by omega)

def transfer (s : Oled c) (block : Nat) : OledTransfer where
  block := block
  position := if c.rotated then calcBounds90 c block else calcBounds c block
  data := payload c (s.blockBytes block)

theorem updateStart_spec (dirty : BitVec c.blockBits) (h : dirty ≠ 0) :
    dirty.getLsbD (updateStart dirty) ∧
      ∀ j < updateStart dirty, dirty.getLsbD j = false := by
  unfold updateStart
  cases hfind : (List.range c.blockBits).find? (fun k => dirty.getLsbD k) with
  | none =>
    rw [List.find?_eq_none] at hfind
    refine absurd (BitVec.eq_of_getLsbD_eq (fun k hk => ?_)) h
    have hclear : (0 : BitVec c.blockBits).getLsbD k = false := BitVec.getLsbD_zero
    rw [hclear]
    simpa using hfind k (List.mem_range.mpr hk)
  | some k =>
    obtain ⟨hbit, -, hbefore⟩ := List.find?_range_eq_some.mp hfind
    exact ⟨hbit, fun j hj => by simpa using hbefore j hj⟩

end Oled

/-! ### What is known of the display -/

namespace OledRun

variable {c : OledBuild} {r : OledRun c} {t : Oled c}

/-- The marks are those of blocks, and what the law says of them. There are no bytes behind
    the blocks if there are no marks. The display has of a block what was sent for it. -/
structure Known (r : OledRun c) : Prop where
  ranges : ∀ k, r.oled.dirty.getLsbD k = true → k < c.blockCount
  marked : r.oled.scrolling = false → ∀ k < c.blockCount,
    r.sent k ≠ some (r.oled.blockBytes k) → r.oled.dirty.getLsbD k = true
  whole : r.oled.dirty = 0 → r.oled.scrolling = false → c.matrixSize ≤ c.blockCount * c.blockSize
  sent : ∀ k, r.device k = (r.sent k).map (Oled.payload c)

def First (r : OledRun c) : Prop :=
  ∀ transfer, r.out = some transfer →
    r.before.getLsbD transfer.block = true ∧ (∀ j < transfer.block, r.before.getLsbD j = false) ∧
      transfer.data = Oled.payload c (r.oled.blockBytes transfer.block)

theorem Known.tracked (h : r.Known) (hfirst : r.First) : r.Tracked where
  marked := h.marked
  first := hfirst
  shown hdirty hscrolling i hi := by
    have hblock : i / c.blockSize < c.blockCount :=
      (Nat.div_lt_iff_lt_mul c.blockSize_pos).mpr
        (Nat.lt_of_lt_of_le hi (h.whole hdirty hscrolling))
    have hclear : r.oled.dirty.getLsbD (i / c.blockSize) = false := by
      rw [hdirty]
      exact BitVec.getLsbD_zero
    have hsent : r.sent (i / c.blockSize) = some (r.oled.blockBytes (i / c.blockSize)) := by
      by_contra hother
      rw [h.marked hscrolling _ hblock hother] at hclear
      cases hclear
    exact ⟨hblock, by rw [h.sent, hsent, Option.map_some]⟩

def quietly (r : OledRun c) (t : Oled c) : OledRun c where
  oled := t
  sent k := if t.scrolling = true then none else r.sent k
  device k := if t.scrolling = true then none else r.device k
  before := r.oled.dirty
  out := none

theorem step_quiet (e : OledEvent) (h : r.oled.event e = some (none, t))
    (hspoils : ∀ k, ¬r.spoils e k) : r.step e = r.quietly t := by
  have hmemory : ∀ data old, r.memory e none t data old =
      fun k => if t.scrolling = true then none else old k := by
    intro data old
    funext k
    unfold memory
    simp only [hspoils k, or_false]
  unfold step quietly
  rw [h]
  dsimp only
  rw [hmemory, hmemory]

theorem quietly_first : (r.quietly t).First := by
  intro transfer h
  cases h

theorem quietly_sent (h : r.Known) (k : Nat) :
    (r.quietly t).device k = ((r.quietly t).sent k).map (Oled.payload c) := by
  unfold quietly
  dsimp only
  split
  · rfl
  · exact h.sent k

theorem Known.draws (h : r.Known) (hdraws : r.oled.Draws t) : (r.quietly t).Known where
  ranges k hk := (hdraws.ranges k hk).elim (h.ranges k) id
  marked hscrolling k hk hsent := by
    have hbefore : r.oled.scrolling = false := hdraws.scrolling.symm.trans hscrolling
    have hstill : ¬t.scrolling := by
      rw [Bool.not_eq_true]
      exact hscrolling
    have hsent : r.sent k ≠ some (t.blockBytes k) := fun heq => hsent ((if_neg hstill).trans heq)
    cases hbit : t.dirty.getLsbD k with
    | true => exact hbit
    | false =>
      rw [hdraws.kept hbefore k hbit] at hsent
      exact hdraws.grows k (h.marked hbefore k hk hsent)
  whole hdirty hscrolling := by
    refine h.whole (BitVec.eq_of_getLsbD_eq (fun k _ => ?_))
      (hdraws.scrolling.symm.trans hscrolling)
    have hclear : (0 : BitVec c.blockBits).getLsbD k = false := BitVec.getLsbD_zero
    rw [hclear, Bool.eq_false_iff]
    intro hbit
    have hgrown : t.dirty.getLsbD k := hdraws.grows k hbit
    have hzero : t.dirty = 0 := hdirty
    rw [hzero, hclear] at hgrown
    cases hgrown
  sent := quietly_sent h

theorem Known.all (h : r.Known) (hdirty : t.dirty = c.allBlocksMask) : (r.quietly t).Known where
  ranges k hk := by
    have hk : t.dirty.getLsbD k := hk
    rw [hdirty, c.allBlocksMask_getLsbD, decide_eq_true_eq] at hk
    exact hk
  marked _ k hk _ := by
    change t.dirty.getLsbD k
    rw [hdirty, c.allBlocksMask_getLsbD, decide_eq_true_eq]
    exact hk
  whole hzero := absurd (hdirty.symm.trans hzero) c.allBlocksMask_ne_zero
  sent := quietly_sent h

theorem Known.scrolls (h : r.Known) (hscrolling : t.scrolling)
    (hdirty : t.dirty = r.oled.dirty) : (r.quietly t).Known where
  ranges k hk := h.ranges k (by rw [← hdirty]; exact hk)
  marked hstill := absurd (hscrolling.symm.trans hstill) (by decide)
  whole _ hstill := absurd (hscrolling.symm.trans hstill) (by decide)
  sent := quietly_sent h

/-! ### A block is sent -/

theorem Known.masked (h : r.Known) : r.oled.dirty &&& c.allBlocksMask = r.oled.dirty := by
  apply BitVec.eq_of_getLsbD_eq
  intro k _
  rw [BitVec.getLsbD_and, c.allBlocksMask_getLsbD]
  cases hbit : r.oled.dirty.getLsbD k with
  | false => rfl
  | true => rw [decide_eq_true (h.ranges k hbit), Bool.true_and]

theorem Known.render_idle (h : r.Known) (positionOk dataOk onOk : Bool)
    (hidle : r.oled.dirty = 0 ∨ r.oled.scrolling) :
    r.step (.render positionOk dataOk onOk) = r.quietly r.oled := by
  have hevent : r.oled.event (.render positionOk dataOk onOk) = some (none, r.oled) := by
    unfold Oled.event Oled.render
    dsimp only
    rw [h.masked, if_pos hidle]
  refine step_quiet _ hevent ?_
  rintro k ⟨hdirty, hscrolling, -⟩
  rw [h.masked] at hdirty
  rcases hidle with hzero | hscrolls
  · exact hdirty hzero
  · rw [hscrolls] at hscrolling
    cases hscrolling

theorem Known.render_lost (h : r.Known) (dataOk onOk : Bool) :
    r.step (.render false dataOk onOk) = r.quietly r.oled := by
  have hevent : r.oled.event (.render false dataOk onOk) = some (none, r.oled) := by
    unfold Oled.event Oled.render
    dsimp only
    rw [h.masked]
    simp
  refine step_quiet _ hevent ?_
  rintro k ⟨-, -, hfalse, -⟩
  cases hfalse

theorem Known.render_cut (h : r.Known) (onOk : Bool) (hdirty : r.oled.dirty ≠ 0)
    (hscrolling : r.oled.scrolling = false) :
    r.step (.render true false onOk) =
      { oled := r.oled
        sent := fun k => if k = Oled.updateStart r.oled.dirty then none else r.sent k
        device := fun k => if k = Oled.updateStart r.oled.dirty then none else r.device k
        before := r.oled.dirty
        out := none } := by
  have hevent : r.oled.event (.render true false onOk) = some (none, r.oled) := by
    unfold Oled.event Oled.render
    dsimp only
    rw [h.masked]
    simp
  have hspoils : ∀ k, r.spoils (.render true false onOk) k ↔
      k = Oled.updateStart r.oled.dirty := by
    intro k
    unfold spoils
    dsimp only
    rw [h.masked]
    exact ⟨fun hcut => hcut.2.2.2.2, fun hk => ⟨hdirty, hscrolling, rfl, rfl, hk⟩⟩
  have hmemory : ∀ data old, r.memory (.render true false onOk) none r.oled data old =
      fun k => if k = Oled.updateStart r.oled.dirty then none else old k := by
    intro data old
    funext k
    unfold memory
    simp only [hspoils k, hscrolling, Bool.false_eq_true, false_or]
  unfold step
  rw [hevent]
  dsimp only
  rw [hmemory, hmemory]

theorem Known.render_sent (h : r.Known) (onOk : Bool) (hdirty : r.oled.dirty ≠ 0)
    (hscrolling : r.oled.scrolling = false) :
    ∃ t : Oled c, t.buffer = r.oled.buffer ∧ t.scrolling = false ∧
      t.dirty = r.oled.dirty &&& ~~~(1#c.blockBits <<< Oled.updateStart r.oled.dirty) ∧
      ∃ transfer : OledTransfer, transfer.block = Oled.updateStart r.oled.dirty ∧
        transfer.data = Oled.payload c (r.oled.blockBytes transfer.block) ∧
        r.step (.render true true onOk) =
          { oled := t
            sent := fun k => if transfer.block = k then some (r.oled.blockBytes transfer.block)
              else r.sent k
            device := fun k => if transfer.block = k then some transfer.data else r.device k
            before := r.oled.dirty
            out := some transfer } := by
  have hidle : ¬(r.oled.dirty = 0 ∨ r.oled.scrolling) := by
    rw [hscrolling]
    exact not_or.mpr ⟨hdirty, Bool.false_ne_true⟩
  have hevent : r.oled.event (.render true true onOk) = some
      (some (r.oled.transfer (Oled.updateStart r.oled.dirty)),
        { r.oled.on onOk with
          dirty := r.oled.dirty &&&
            ~~~(1#c.blockBits <<< Oled.updateStart r.oled.dirty) }) := by
    unfold Oled.event Oled.render
    dsimp only
    rw [h.masked, if_neg hidle, if_pos ⟨rfl, rfl⟩]
    rfl
  have hstill : (r.oled.on onOk).buffer = r.oled.buffer ∧
      (r.oled.on onOk).scrolling = r.oled.scrolling := by
    unfold Oled.on
    split <;> exact ⟨rfl, rfl⟩
  refine ⟨{ r.oled.on onOk with
    dirty := r.oled.dirty &&& ~~~(1#c.blockBits <<< Oled.updateStart r.oled.dirty) },
    hstill.1, hstill.2.trans hscrolling, rfl,
    r.oled.transfer (Oled.updateStart r.oled.dirty), rfl, rfl, ?_⟩
  have hspoils : ∀ k, ¬r.spoils (.render true true onOk) k := by
    rintro k ⟨-, -, -, hfalse, -⟩
    cases hfalse
  unfold step
  rw [hevent]
  dsimp only
  congr 1 <;>
  · funext k
    unfold memory
    simp only [hspoils k, or_false]
    rw [if_neg]
    rw [hstill.2, hscrolling]
    exact Bool.false_ne_true

theorem cleared_getLsbD (h : r.Known) (hdirty : r.oled.dirty ≠ 0) (k : Nat) :
    (r.oled.dirty &&& ~~~(1#c.blockBits <<< Oled.updateStart r.oled.dirty)).getLsbD k = true ↔
      r.oled.dirty.getLsbD k ∧ k ≠ Oled.updateStart r.oled.dirty := by
  have hstart := (Oled.updateStart_spec r.oled.dirty hdirty).1
  have hrange := h.ranges _ hstart
  have hle := c.blockCount_le
  have hbit := BitWords.andNot_bit_getLsbD r.oled.dirty (Oled.updateStart r.oled.dirty) k (by omega)
  unfold BitWords.bit at hbit
  rw [hbit, Bool.and_eq_true, Bool.not_eq_true', decide_eq_false_iff_not]
  exact and_congr_right (fun _ => ne_comm)

theorem Known.sentBlock (h : r.Known) (onOk : Bool) (hdirty : r.oled.dirty ≠ 0)
    (hscrolling : r.oled.scrolling = false) :
    (r.Covers (.render true true onOk) → (r.step (.render true true onOk)).Known) ∧
      (r.step (.render true true onOk)).First ∧
      (¬r.Covers (.render true true onOk) → ¬(r.step (.render true true onOk)).Tracked) := by
  obtain ⟨hstart, hfirst⟩ := Oled.updateStart_spec r.oled.dirty hdirty
  obtain ⟨t, hbuffer, hstill, hmarks, transfer, hblock, hdata, hstep⟩ :=
    h.render_sent onOk hdirty hscrolling
  have hbytes : ∀ k, t.blockBytes k = r.oled.blockBytes k := by
    intro k
    unfold Oled.blockBytes
    rw [hbuffer]
  have hbit : ∀ k, t.dirty.getLsbD k ↔
      r.oled.dirty.getLsbD k ∧ k ≠ Oled.updateStart r.oled.dirty := by
    intro k
    rw [hmarks]
    exact cleared_getLsbD h hdirty k
  rw [hstep]
  refine ⟨fun hcovers => ⟨?_, ?_, ?_, ?_⟩, ?_, fun hcovers htracked => ?_⟩
  · exact fun k hk => h.ranges k ((hbit k).mp hk).1
  · intro _ k hk hsent
    change (if transfer.block = k then some (r.oled.blockBytes transfer.block) else r.sent k) ≠
      some (t.blockBytes k) at hsent
    rw [hbytes k] at hsent
    by_cases hsame : transfer.block = k
    · rw [if_pos hsame, hsame] at hsent
      exact absurd rfl hsent
    · rw [if_neg hsame] at hsent
      exact (hbit k).mpr ⟨h.marked hscrolling k hk hsent, fun heq => hsame (hblock.trans heq.symm)⟩
  · intro hzero _
    by_contra hbehind
    obtain ⟨j, k, hne, hj, hk⟩ := hcovers (Nat.lt_of_not_le hbehind) hscrolling rfl rfl
    -- one of the two marks is left
    have hclear : ∀ k, t.dirty.getLsbD k = false := by
      intro k
      have hzero : t.dirty = 0 := hzero
      rw [hzero]
      exact BitVec.getLsbD_zero
    have hleft : ∀ k, r.oled.dirty.getLsbD k → k = Oled.updateStart r.oled.dirty := by
      intro k hk
      by_contra hother
      have hgone := hclear k
      rw [(hbit k).mpr ⟨hk, hother⟩] at hgone
      cases hgone
    exact hne ((hleft j hj).trans (hleft k hk).symm)
  · intro k
    change (if transfer.block = k then some transfer.data else r.device k) =
      Option.map (Oled.payload c)
        (if transfer.block = k then some (r.oled.blockBytes transfer.block) else r.sent k)
    split
    · rw [hdata, Option.map_some]
    · exact h.sent k
  · intro other hother
    change some transfer = some other at hother
    cases hother
    rw [hblock] at hdata ⊢
    exact ⟨hstart, hfirst, by rw [hdata]; exact congrArg (Oled.payload c) (hbytes _).symm⟩
  · -- the last mark is gone, and the bytes behind the blocks are not shown
    unfold Covers at hcovers
    dsimp only at hcovers
    simp only [Classical.not_imp, not_exists, not_and] at hcovers
    obtain ⟨hbehind, -, -, -, honly⟩ := hcovers
    have hzero : t.dirty = 0 := by
      apply BitVec.eq_of_getLsbD_eq
      intro k _
      have hclear : (0 : BitVec c.blockBits).getLsbD k = false := BitVec.getLsbD_zero
      rw [hclear, Bool.eq_false_iff]
      intro hk
      obtain ⟨hk, hother⟩ := (hbit k).mp hk
      exact honly k _ hother hk hstart
    have hlast := (htracked.shown hzero hstill _ hbehind).1
    rw [Nat.mul_div_cancel _ c.blockSize_pos] at hlast
    exact absurd hlast (lt_irrefl _)

theorem Known.cut (h : r.Known) (onOk : Bool) (hdirty : r.oled.dirty ≠ 0)
    (hscrolling : r.oled.scrolling = false) :
    (r.step (.render true false onOk)).Known ∧ (r.step (.render true false onOk)).First := by
  have hstart := (Oled.updateStart_spec r.oled.dirty hdirty).1
  rw [h.render_cut onOk hdirty hscrolling]
  refine ⟨⟨h.ranges, fun _ k hk hsent => ?_, h.whole, fun k => ?_⟩, fun _ hout => by cases hout⟩
  · change (if k = Oled.updateStart r.oled.dirty then none else r.sent k) ≠
      some (r.oled.blockBytes k) at hsent
    by_cases hcut : k = Oled.updateStart r.oled.dirty
    · rw [hcut]
      exact hstart
    · rw [if_neg hcut] at hsent
      exact h.marked hscrolling k hk hsent
  · change (if k = Oled.updateStart r.oled.dirty then none else r.device k) = Option.map
      (Oled.payload c) (if k = Oled.updateStart r.oled.dirty then none else r.sent k)
    split
    · rfl
    · exact h.sent k

/-! ### The calls -/

theorem Known.step_quietly (h : r.Known) (e : OledEvent) (after : Option (Oled c))
    (hevent : r.oled.event e = after.map (fun t => (none, t))) (hspoils : ∀ k, ¬r.spoils e k)
    (hknown : ∀ t, after = some t → (r.quietly t).Known) :
    (r.step e).Known ∧ (r.step e).First := by
  cases after with
  | none =>
    have hstep : r.step e = { r with before := r.oled.dirty, out := none } := by
      unfold step
      rw [hevent]
      rfl
    rw [hstep]
    exact ⟨⟨h.ranges, h.marked, h.whole, h.sent⟩, fun _ hout => by cases hout⟩
  | some t =>
    rw [step_quiet e hevent hspoils]
    exact ⟨hknown t rfl, quietly_first⟩

theorem Known.step_render (h : r.Known) (positionOk dataOk onOk : Bool)
    (hcovers : r.Covers (.render positionOk dataOk onOk)) :
    (r.step (.render positionOk dataOk onOk)).Known ∧
      (r.step (.render positionOk dataOk onOk)).First := by
  by_cases hidle : r.oled.dirty = 0 ∨ r.oled.scrolling
  · rw [h.render_idle positionOk dataOk onOk hidle]
    exact ⟨h.draws (Oled.Draws.refl r.oled), quietly_first⟩
  obtain ⟨hdirty, hscrolling⟩ := not_or.mp hidle
  rw [Bool.not_eq_true] at hscrolling
  cases positionOk with
  | false =>
    rw [h.render_lost dataOk onOk]
    exact ⟨h.draws (Oled.Draws.refl r.oled), quietly_first⟩
  | true =>
    cases dataOk with
    | false => exact h.cut onOk hdirty hscrolling
    | true =>
      obtain ⟨hknown, hfirst, -⟩ := h.sentBlock onOk hdirty hscrolling
      exact ⟨hknown hcovers, hfirst⟩

theorem Known.step (h : r.Known) (e : OledEvent) (hcovers : r.Covers e) :
    (r.step e).Known ∧ (r.step e).First := by
  cases e with
  | putChar data invert =>
    refine h.step_quietly _ (r.oled.putChar data invert) rfl (fun _ => id) (fun t ht => ?_)
    refine h.draws (Oled.putChar_draws data invert ht (fun hscrolling => ?_))
    exact hcovers hscrolling ((r.oled.putChar_isSome_iff data invert).mp (by rw [ht]; rfl))
  | setCursor col line =>
    refine h.step_quietly _ (some (r.oled.setCursor col line)) rfl (fun _ => id) ?_
    rintro t ⟨⟩
    exact h.draws ⟨rfl, fun _ hk => hk, fun _ hk => Or.inl hk, fun _ _ _ => rfl⟩
  | nextPage =>
    refine h.step_quietly _ (some r.oled.nextPage) rfl (fun _ => id) ?_
    rintro t ⟨⟩
    exact h.draws ⟨rfl, fun _ hk => hk, fun _ hk => Or.inl hk, fun _ _ _ => rfl⟩
  | writeRaw data size =>
    exact h.step_quietly _ (r.oled.writeRaw data size) rfl (fun _ => id)
      (fun t ht => h.draws (Oled.writeRaw_draws data size ht))
  | writeRawByte data index =>
    exact h.step_quietly _ (r.oled.writeRawByte data index) rfl (fun _ => id)
      (fun t ht => h.draws (Oled.setByte_draws _ _ ht))
  | writePixel x y on =>
    exact h.step_quietly _ (r.oled.writePixel x y on) rfl (fun _ => id)
      (fun t ht => h.draws (Oled.writePixel_draws x y on ht))
  | pan left =>
    refine h.step_quietly _ (r.oled.pan left) rfl (fun _ => id) (fun t ht => ?_)
    obtain ⟨buffer, -, rfl⟩ := Option.map_eq_some_iff.mp ht
    exact h.all rfl
  | clear =>
    refine h.step_quietly _ (some r.oled.clear) rfl (fun _ => id) ?_
    rintro t ⟨⟩
    exact h.all rfl
  | scroll ok =>
    refine h.step_quietly _ (some (r.oled.scroll ok)) rfl (fun _ => id) ?_
    rintro t ⟨⟩
    unfold Oled.scroll
    split
    · rename_i hidle
      cases ok with
      | true => exact h.scrolls rfl rfl
      | false =>
        have hstill : r.oled.scrolling = false := by simpa using hidle.2
        exact h.draws ⟨hstill.symm, fun _ hk => hk, fun _ hk => Or.inl hk, fun _ _ _ => rfl⟩
    · exact h.draws (Oled.Draws.refl r.oled)
  | scrollOff ok =>
    refine h.step_quietly _ (some (r.oled.scrollOff ok)) rfl (fun _ => id) ?_
    rintro t ⟨⟩
    unfold Oled.scrollOff
    split
    · exact h.all rfl
    · exact h.draws (Oled.Draws.refl r.oled)
  | render positionOk dataOk onOk => exact h.step_render positionOk dataOk onOk hcovers

theorem Known.broken (h : r.Known) (e : OledEvent) (hcovers : ¬r.Covers e) :
    ¬(r.step e).Tracked := by
  cases e with
  | putChar data invert =>
    intro htracked
    unfold Covers at hcovers
    dsimp only at hcovers
    simp only [Classical.not_imp, not_forall] at hcovers
    obtain ⟨hscrolling, hfits, k, hfirst, hlast, hclean, hchanged⟩ := hcovers
    obtain ⟨t, ht⟩ := Option.isSome_iff_exists.mp
      ((r.oled.putChar_isSome_iff data invert).mpr hfits)
    obtain ⟨hbuffer, hstill, hmarks⟩ := Oled.putChar_spec data invert ht
    have hstep : r.step (.putChar data invert) = r.quietly t :=
      step_quiet _ (by
        unfold Oled.event
        dsimp only
        rw [ht]
        rfl) (fun _ => id)
    -- the block is changed, and has been sent as it was
    have hother : r.oled.changes data invert := by
      by_contra hsame
      exact hchanged (Oled.drawn_unchanged data invert hsame k)
    have hcount := Nat.lt_trans hlast (hfits.2 hother)
    have hunmarked : t.dirty.getLsbD k = false := by
      rw [Bool.eq_false_iff]
      intro hbit
      rcases (hmarks k).mp hbit with hbit | ⟨-, hbit | hbit⟩
      · rw [hclean] at hbit
        cases hbit
      · omega
      · omega
    have hsent : r.sent k = some (r.oled.blockBytes k) := by
      by_contra hunsent
      rw [h.marked hscrolling k hcount hunsent] at hclean
      cases hclean
    have hbytes : t.blockBytes k =
        ({ r.oled with buffer := r.oled.drawn data invert } : Oled c).blockBytes k := by
      unfold Oled.blockBytes
      rw [hbuffer]
    rw [hstep] at htracked
    have hmarked := htracked.marked (hstill.trans hscrolling) k hcount (by
      change (if t.scrolling = true then none else r.sent k) ≠ some (t.blockBytes k)
      rw [hstill, hscrolling, if_neg Bool.false_ne_true, hsent, hbytes]
      exact fun heq => hchanged (Option.some.inj heq).symm)
    exact absurd (hunmarked.symm.trans hmarked) (by decide)
  | render positionOk dataOk onOk =>
    have hneeds := hcovers
    unfold Covers at hneeds
    dsimp only at hneeds
    simp only [Classical.not_imp] at hneeds
    obtain ⟨hbehind, hscrolling, rfl, rfl, -⟩ := hneeds
    have hdirty : r.oled.dirty ≠ 0 := fun hzero =>
      absurd (h.whole hzero hscrolling) (Nat.not_le_of_lt hbehind)
    exact (h.sentBlock onOk hdirty hscrolling).2.2 hcovers
  | _ => exact absurd trivial hcovers

end OledRun

end K530
