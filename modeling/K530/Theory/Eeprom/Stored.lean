import K530.Theory.Eeprom.Log

/-!
# What the Flash Holds

The flash holds some contents if carrying out the log on the compacted area makes
them. `Stored` says so, and that no entry of the log is for a word the compacted
area has nothing of, with one exception: a byte entry of 0 that is the first of
the log.

That exception is a defect. An aligned word below `FEE_BYTE_RANGE` is logged as
two bytes. If the first of them finds the log full, everything is compacted, the
second byte included, and yet the second is logged after it. If the word is 0,
nothing has been compacted for it, so that a later write of the word goes to the
compacted area, and the entry in the log is carried out over it. `overridden` is
that this is so of a byte.

The lemmas about the three places a write can go to say what the flash holds
after it, whatever the variables are.

## Main definitions

* `Stored`: The flash holds these contents, with these entries in its log.

## Theorems

* `init_eq`: `EEPROM_Init` makes what the flash holds.
* `compact_holds`: After `eeprom_compact`.
-/

namespace K530

namespace Stm32

open Flash

/-! ### Words and bytes -/

def byteOf (value : HalfWord) (address : Nat) : Byte :=
  if address % 2 = 0 then value.setWidth 8 else (value >>> 8).setWidth 8

theorem setWidth_append (high low : Byte) : (high ++ low).setWidth 8 = low := by
  rw [BitVec.setWidth_append, dif_pos (Nat.le_refl 8), BitVec.setWidth_eq]

theorem setWidth_append_shift (high low : Byte) : ((high ++ low) >>> 8).setWidth 8 = high := by
  ext i hi
  rw [BitVec.getElem_setWidth, BitVec.getLsbD_ushiftRight, BitVec.getLsbD_append,
    if_neg (by omega), Nat.add_sub_cancel_left, BitVec.getLsbD_eq_getElem]

theorem byteOf_wordAt (dataBuf : Nat → Byte) (x : Nat) :
    byteOf (wordAt dataBuf (2 * (x / 2))) x = dataBuf x := by
  unfold byteOf wordAt
  split
  next heven => rw [setWidth_append, show 2 * (x / 2) = x by omega]
  next hodd => rw [setWidth_append_shift, show 2 * (x / 2) + 1 = x by omega]

@[simp] theorem byteOf_zero (x : Nat) : byteOf 0 x = 0 := by
  unfold byteOf
  split <;> rfl

theorem wordAt_eq_zero (dataBuf : Nat → Byte) (address : Nat) :
    wordAt dataBuf address = 0 ↔ dataBuf address = 0 ∧ dataBuf (address + 1) = 0 := by
  unfold wordAt
  constructor
  · intro h
    exact ⟨(setWidth_append _ _).symm.trans (congrArg (BitVec.setWidth 8) h),
      (setWidth_append_shift _ _).symm.trans
        (congrArg (fun value : HalfWord => (value >>> 8).setWidth 8) h)⟩
  · rintro ⟨hlow, hhigh⟩
    rw [hlow, hhigh]
    rfl

theorem not_eq_emptyWord (value : HalfWord) : ~~~ value = emptyWord ↔ value = 0 := by
  constructor
  · intro h
    rw [← BitVec.not_not (b := value), h]
    rfl
  · rintro rfl
    rfl

section Areas

variable (c : EepromStm32)

theorem half_lt {x : Nat} (h : x < c.density) : x / 2 < c.words := by
  have heven := c.even
  unfold EepromStm32.words
  omega

theorem load_eq (flash : Nat → HalfWord) (dataBuf : Nat → Byte) (x : Nat) :
    c.loadCompacted flash dataBuf x =
      if x < c.density then byteOf (~~~ flash (x / 2)) x else dataBuf x := rfl

theorem log_program_compacted (flash : Nat → HalfWord) {place : Nat} (h : place < c.words)
    (value : HalfWord) : c.log (Function.update flash place value) = c.log flash := by
  unfold EepromStm32.log
  refine List.map_congr_left (fun slot _ => ?_)
  rw [Function.update_of_ne (by omega)]

theorem log_program (flash : Nat → HalfWord) (written : List HalfWord) (free : Nat)
    (h : c.log flash = written ++ List.replicate (free + 1) emptyWord) (value : HalfWord) :
    c.log (Function.update flash (c.words + written.length) value) =
      (written ++ [value]) ++ List.replicate free emptyWord := by
  have hset : c.log (Function.update flash (c.words + written.length) value) =
      (c.log flash).set written.length value := by
    unfold EepromStm32.log
    refine List.ext_getElem (by simp) (fun i hi hi' => ?_)
    rw [List.getElem_set, List.getElem_map, List.getElem_map, List.getElem_range]
    by_cases hsame : written.length = i
    · rw [if_pos hsame, hsame, Function.update_self]
    · rw [if_neg hsame, Function.update_of_ne (by omega)]
  rw [hset, h, List.set_append_right _ _ (Nat.le_refl _), Nat.sub_self, List.replicate_succ,
    List.set_cons_zero, List.append_assoc]
  rfl

theorem log_free {flash : Nat → HalfWord} {written : List HalfWord} {free : Nat}
    (h : c.log flash = written ++ List.replicate (free + 1) emptyWord) :
    flash (c.words + written.length) = emptyWord := by
  have hlen := congrArg List.length h
  rw [List.length_append, List.length_replicate] at hlen
  have hslots : (c.log flash).length = c.logSlots := by
    unfold EepromStm32.log
    rw [List.length_map, List.length_range]
  have hget : (c.log flash)[written.length]? = some emptyWord := by
    rw [h, List.getElem?_append_right (Nat.le_refl _), Nat.sub_self, List.replicate_succ,
      List.getElem?_cons_zero]
  unfold EepromStm32.log at hget
  rw [List.getElem?_map, List.getElem?_range (by omega), Option.map_some] at hget
  exact Option.some.inj hget

theorem log_first {flash : Nat → HalfWord} {head : HalfWord} {rest : List HalfWord}
    (h : c.log flash = head :: rest) : flash c.words = head := by
  have hget : (c.log flash)[0]? = some head := by rw [h, List.getElem?_cons_zero]
  unfold EepromStm32.log at hget
  cases hslots : c.logSlots with
  | zero =>
    rw [hslots] at hget
    exact absurd hget (by simp)
  | succ slots =>
    rw [hslots, List.getElem?_map, List.getElem?_range (Nat.succ_pos slots),
      Option.map_some] at hget
    exact Option.some.inj hget

end Areas

/-! ### What the flash holds -/

structure Stored (c : EepromStm32) (s : EepromState) (contents : Nat → Byte)
    (entries : List LogEntry) : Prop where
  valid : ∀ e ∈ entries, e.Valid c
  log : c.log s.flash.words =
    entries.flatMap LogEntry.encode ++ List.replicate (c.logSlots - s.emptySlot) emptyWord
  slot : s.emptySlot = (entries.flatMap LogEntry.encode).length
  bound : s.emptySlot ≤ c.logSlots
  reads : ∀ x, contents x =
    (logged entries x).getD (c.loadCompacted s.flash.words (fun _ => 0) x)
  stale : ∀ x < c.density, s.flash.words (x / 2) = emptyWord → logged entries x = none ∨
    logged entries x = some 0 ∧ ∃ rest, entries = .byte x 0 :: rest
  clean : Clean emptyWord s.flash

def FlashHolds (c : EepromStm32) (s : EepromState) (contents : Nat → Byte) : Prop :=
  ∃ entries, Stored c s contents entries

/-- The first entry of the log is for this byte, and not with this value. -/
def overridden (c : EepromStm32) (s : EepromState) (x : Nat) (value : Byte) : Bool :=
  s.emptySlot != 0 && s.flash.words c.words &&& 0x8000 == 0 &&
    (s.flash.words c.words >>> 8).toNat == x && (s.flash.words c.words).setWidth 8 != value

section Stored

variable {c : EepromStm32} {s : EepromState} {contents : Nat → Byte} {entries : List LogEntry}

theorem logged_valid (h : ∀ e ∈ entries, e.Valid c) {x : Nat} (hx : c.density ≤ x) :
    logged entries x = none := by
  induction entries with
  | nil => rfl
  | cons e entries ih =>
    have heven := c.even
    have hword : ∀ address value, address % 2 = 0 → address < c.density →
        LogEntry.assignsWord address value x = none := by
      intro address value hparity hlt
      unfold LogEntry.assignsWord
      rw [if_neg (by omega), if_neg (by omega)]
    have hnone : e.assigns x = none := by
      have hvalid := h e List.mem_cons_self
      cases e with
      | byte address value => exact if_neg (by have := hvalid.2; omega)
      | short address value => exact hword address value hvalid.1 hvalid.2.1
      | long address value => exact hword address value hvalid.1 hvalid.2.2.1
      | torn address => rfl
    rw [logged, ih (fun e' he' => h e' (List.mem_cons_of_mem e he')), hnone]
    rfl

theorem FlashHolds.withBuf (h : FlashHolds c s contents) (dataBuf : Nat → Byte) :
    FlashHolds c { s with dataBuf } contents := by
  obtain ⟨entries, h⟩ := h
  exact ⟨entries, h.valid, h.log, h.slot, h.bound, h.reads, h.stale, h.clean⟩

theorem FlashHolds.beyond (h : FlashHolds c s contents) {x : Nat} (hx : c.density ≤ x) :
    contents x = 0 := by
  obtain ⟨entries, h⟩ := h
  rw [h.reads, logged_valid h.valid hx, Option.getD_none, load_eq, if_neg (by omega)]

theorem init_eq (h : FlashHolds c s contents) :
    c.init s =
      { s with dataBuf := fun x => if x < c.density then contents x else s.dataBuf x } := by
  obtain ⟨entries, h⟩ := h
  unfold EepromStm32.init
  rw [h.log, replay_log c entries h.valid]
  dsimp only
  rw [Nat.zero_add, ← h.slot]
  congr 1
  funext x
  rw [h.reads, load_eq, load_eq]
  split
  · rfl
  · rw [logged_valid h.valid (by omega)]
    rfl

theorem Stored.overridden_zero (h : Stored c s contents entries) {x : Nat} (hx : x < c.density)
    (hempty : s.flash.words (x / 2) = emptyWord) {value : Byte}
    (hover : overridden c s x value) : logged entries x = some 0 ∧ value ≠ 0 := by
  unfold overridden at hover
  simp only [Bool.and_eq_true, bne_iff_ne, beq_iff_eq] at hover
  rcases hover with ⟨⟨⟨hslot, hkind⟩, haddress⟩, hvalue⟩
  cases entries with
  | nil => exact absurd h.slot hslot
  | cons e entries =>
    obtain ⟨head, rest, hencode, hhead⟩ := encode_kind c e (h.valid e List.mem_cons_self)
    have hlog := h.log
    rw [List.flatMap_cons, hencode, List.cons_append, List.cons_append] at hlog
    rw [log_first c hlog] at hkind haddress hvalue
    rcases hhead with ⟨address, value', rfl, hat, hval, -⟩ | hword
    · have hassigns : (LogEntry.byte address value').assigns x = some value' :=
        if_pos (haddress.symm.trans hat)
      rcases h.stale x hx hempty with hnone | ⟨hzero, rest', hfirst⟩
      · rw [logged, hassigns] at hnone
        cases hrest : logged entries x <;> rw [hrest] at hnone <;>
          exact absurd hnone (Option.some_ne_none _)
      · cases hfirst
        exact ⟨hzero, fun hc => hvalue (hval.trans hc.symm)⟩
    · exact absurd hkind hword

theorem Stored.getD_logged (h : Stored c s contents entries) {x : Nat} (hx : x < c.density)
    (hempty : s.flash.words (x / 2) = emptyWord) (value : Byte) :
    (logged entries x).getD value = if overridden c s x value then 0 else value := by
  cases hover : overridden c s x value with
  | true =>
    rw [(h.overridden_zero hx hempty hover).1]
    rfl
  | false =>
    rw [if_neg Bool.false_ne_true]
    rcases h.stale x hx hempty with hnone | ⟨hzero, rest, rfl⟩
    · rw [hnone]
      rfl
    · rw [hzero, Option.getD_some]
      -- the first entry is for this byte, so it must have this value
      by_contra hne
      have hlog := h.log
      rw [List.flatMap_cons, LogEntry.encode, List.singleton_append, List.cons_append] at hlog
      have hlow : x < 0x80 := (h.valid _ List.mem_cons_self).1
      have hslot : s.emptySlot ≠ 0 := by
        rw [h.slot, List.flatMap_cons, LogEntry.encode, List.singleton_append]
        exact Nat.succ_ne_zero _
      refine absurd hover (ne_of_eq_of_ne (b := true) ?_ Bool.noConfusion)
      unfold overridden
      rw [log_first c hlog]
      simp only [Bool.and_eq_true, bne_iff_ne, beq_iff_eq]
      refine ⟨⟨⟨hslot, byte_kind hlow 0⟩, ?_⟩, by rwa [byte_value]⟩
      rw [byte_address hlow, BitVec.toNat_ofNat, Nat.mod_eq_of_lt (by omega)]

/-! ### The places a write can go to -/

theorem Stored.erased (h : Stored c s contents entries) {x : Nat} (hx : x < c.density)
    (hempty : s.flash.words (x / 2) = emptyWord) : contents x = 0 := by
  rw [h.reads, load_eq, if_pos hx, hempty]
  have hzero : byteOf (~~~ emptyWord) x = 0 := byteOf_zero x
  rw [hzero]
  rcases h.stale x hx hempty with hnone | ⟨hsome, -⟩
  · rw [hnone]
    rfl
  · rw [hsome]
    rfl

theorem writeDirectEntry_holds (h : FlashHolds c s contents) {address : Nat}
    (haddress : address < c.density) (hempty : s.flash.words (address / 2) = emptyWord) :
    ∃ s', EepromStm32.writeDirectEntry address s = some s' ∧ s'.dataBuf = s.dataBuf ∧
      FlashHolds c s' (fun x => if x / 2 = address / 2 then
        if overridden c s x (s.dataBuf x) then 0 else s.dataBuf x else contents x) := by
  obtain ⟨entries, h⟩ := h
  have hhalf := half_lt c haddress
  have heven := c.even
  -- both bytes of the word are in the buffer
  have hword : ∀ x, x / 2 = address / 2 → x < c.density := by
    intro x hx
    unfold EepromStm32.words at hhalf
    omega
  unfold EepromStm32.writeDirectEntry
  rw [if_pos hempty]
  by_cases hzero : wordAt s.dataBuf (2 * (address / 2)) = 0
  · -- the word is 0, which nothing is written for
    refine ⟨s, if_pos ((not_eq_emptyWord _).mpr hzero), rfl, entries, h.valid, h.log, h.slot,
      h.bound, fun x => ?_, h.stale, h.clean⟩
    rw [← h.reads]
    split
    next hx =>
      have hbyte := byteOf_wordAt s.dataBuf x
      rw [hx, hzero, byteOf_zero] at hbyte
      rw [← hbyte, ite_self]
      exact (h.erased (hword x hx) (by rw [hx]; exact hempty)).symm
    next => rfl
  · refine ⟨_, if_neg (fun hc => hzero ((not_eq_emptyWord _).mp hc)), rfl, entries, h.valid, ?_,
      h.slot, h.bound, fun x => ?_, fun x hx hx' => ?_, h.clean.program hempty⟩
    · exact (log_program_compacted c _ hhalf _).trans h.log
    · change _ = (logged entries x).getD (c.loadCompacted (Function.update s.flash.words
        (address / 2) (~~~ wordAt s.dataBuf (2 * (address / 2)))) (fun _ => 0) x)
      by_cases hx : x / 2 = address / 2
      · rw [if_pos hx, load_eq, if_pos (hword x hx), hx, Function.update_self, BitVec.not_not,
          ← hx, byteOf_wordAt, h.getD_logged (hword x hx) (by rw [hx]; exact hempty)]
      · rw [if_neg hx, load_eq, h.reads, load_eq, Function.update_of_ne hx]
    · change Function.update s.flash.words (address / 2) _ (x / 2) = emptyWord at hx'
      by_cases hsame : x / 2 = address / 2
      · rw [hsame, Function.update_self] at hx'
        exact absurd ((not_eq_emptyWord _).mp hx') hzero
      · rw [Function.update_of_ne hsame] at hx'
        exact h.stale x hx hx'

theorem compactWords_eq (hclean : Clean emptyWord s.flash) (k : Nat) :
    let s' := (List.range k).foldl EepromStm32.compactWord (EepromStm32.clear s)
    s'.dataBuf = s.dataBuf ∧ s'.emptySlot = 0 ∧ Clean emptyWord s'.flash ∧
      ∀ place, s'.flash.words place =
        if place < k then ~~~ wordAt s.dataBuf (2 * place) else emptyWord := by
  induction k with
  | zero =>
    refine ⟨rfl, rfl, hclean.erase, fun place => ?_⟩
    rw [if_neg (Nat.not_lt_zero place)]
    rfl
  | succ k ih =>
    rw [List.range_succ, List.foldl_append, List.foldl_cons, List.foldl_nil]
    rcases ih with ⟨hbuf, hslot, hclean', hwords⟩
    generalize (List.range k).foldl EepromStm32.compactWord (EepromStm32.clear s) = s'
      at hbuf hslot hclean' hwords ⊢
    have hblank := hwords k
    rw [if_neg (Nat.lt_irrefl k)] at hblank
    unfold EepromStm32.compactWord
    rw [hbuf]
    by_cases hzero : wordAt s.dataBuf (2 * k) = 0
    · rw [if_neg (not_not.mpr hzero)]
      refine ⟨hbuf, hslot, hclean', fun place => ?_⟩
      rw [hwords]
      by_cases hplace : place = k
      · rw [hplace, if_neg (Nat.lt_irrefl k), if_pos (Nat.lt_succ_self k)]
        exact ((not_eq_emptyWord _).mpr hzero).symm
      · exact if_congr (by omega) rfl rfl
    · rw [if_pos hzero]
      refine ⟨hbuf, hslot, hclean'.program hblank, fun place => ?_⟩
      change Function.update s'.flash.words k _ place = _
      by_cases hplace : place = k
      · rw [hplace, Function.update_self, if_pos (Nat.lt_succ_self k)]
      · rw [Function.update_of_ne hplace, hwords]
        exact if_congr (by omega) rfl rfl

theorem compact_holds (hclean : Clean emptyWord s.flash)
    (hbeyond : ∀ x, c.density ≤ x → s.dataBuf x = 0) :
    (c.compact s).dataBuf = s.dataBuf ∧ (c.compact s).emptySlot = 0 ∧
      FlashHolds c (c.compact s) s.dataBuf ∧
      ∀ place, place < c.words → ((c.compact s).flash.words place = emptyWord ↔
        wordAt s.dataBuf (2 * place) = 0) := by
  obtain ⟨hbuf, hslot, hclean', hwords⟩ := compactWords_eq hclean c.words
  refine ⟨hbuf, hslot, ⟨[], ?_, ?_, ?_, ?_, fun x => ?_, fun _ _ _ => Or.inl rfl, hclean'⟩,
    fun place hplace => ?_⟩
  · exact fun e he => absurd he List.not_mem_nil
  · have hempty : ∀ slot, (c.compact s).flash.words (c.words + slot) = emptyWord := by
      intro slot
      exact (hwords _).trans (if_neg (by omega))
    have hslot' : (c.compact s).emptySlot = 0 := hslot
    unfold EepromStm32.log
    rw [List.flatMap_nil, List.nil_append, hslot', Nat.sub_zero]
    exact List.eq_replicate_iff.mpr ⟨by rw [List.length_map, List.length_range], by simp [hempty]⟩
  · exact hslot
  · exact hslot ▸ Nat.zero_le _
  · rw [logged, Option.getD_none, load_eq]
    split
    next hx =>
      have hhalf := half_lt c hx
      have hword : (c.compact s).flash.words (x / 2) = _ := hwords (x / 2)
      rw [hword, if_pos hhalf, BitVec.not_not, byteOf_wordAt]
    next hx => exact hbeyond x (by omega)
  · have hword : (c.compact s).flash.words place = _ := hwords place
    rw [hword, if_pos hplace]
    exact not_eq_emptyWord _

theorem Stored.append (h : Stored c s contents entries) (e : LogEntry) (hvalid : e.Valid c)
    {s' : EepromState} (hclean : Clean emptyWord s'.flash)
    (hlog : c.log s'.flash.words = entries.flatMap LogEntry.encode ++ e.encode ++
      List.replicate (c.logSlots - s'.emptySlot) emptyWord)
    (hload : ∀ x, s'.flash.words (x / 2) = s.flash.words (x / 2) ∨ c.density ≤ x)
    (hslot : s'.emptySlot = s.emptySlot + e.encode.length) (hbound : s'.emptySlot ≤ c.logSlots)
    (hstale : ∀ x < c.density, s.flash.words (x / 2) = emptyWord → e.assigns x = none ∨
      entries = [] ∧ e = .byte x 0) : FlashHolds c s' (e.carryOut contents) := by
  refine ⟨entries ++ [e], fun e' he' => ?_, ?_, ?_, hbound, fun x => ?_, fun x hx hempty => ?_,
    hclean⟩
  · rcases List.mem_append.mp he' with he' | he'
    · exact h.valid e' he'
    · rwa [List.mem_singleton.mp he']
  · rw [List.flatMap_append, List.flatMap_singleton]
    exact hlog
  · rw [List.flatMap_append, List.flatMap_singleton, List.length_append, hslot, h.slot]
  · have hsame : c.loadCompacted s'.flash.words (fun _ => 0) x =
        c.loadCompacted s.flash.words (fun _ => 0) x := by
      rw [load_eq, load_eq]
      rcases hload x with hwords | hx
      · rw [hwords]
      · rw [if_neg (by omega), if_neg (by omega)]
    unfold LogEntry.carryOut
    rw [hsame, logged_concat, h.reads]
    cases e.assigns x <;> rfl
  · rcases hload x with hwords | hx'
    · rw [hwords] at hempty
      rw [logged_concat]
      rcases hstale x hx hempty with hnone | ⟨rfl, rfl⟩
      · rw [hnone, Option.none_or]
        rcases h.stale x hx hempty with hlogged | ⟨hlogged, rest, rfl⟩
        · exact Or.inl hlogged
        · exact Or.inr ⟨hlogged, rest ++ [e], rfl⟩
      · exact Or.inr ⟨by rw [LogEntry.assigns, if_pos rfl, Option.some_or], [], rfl⟩
    · omega

structure Written (c : EepromStm32) (s : EepromState) (written : List HalfWord) : Prop where
  log : c.log s.flash.words = written ++ List.replicate (c.logSlots - s.emptySlot) emptyWord
  slot : s.emptySlot = written.length
  clean : Clean emptyWord s.flash

theorem appendLog_written {written : List HalfWord} (h : Written c s written)
    (hroom : s.emptySlot < c.logSlots) (value : HalfWord) :
    Written c (c.appendLog value s) (written ++ [value]) ∧
      ∀ place < c.words, (c.appendLog value s).flash.words place = s.flash.words place := by
  obtain ⟨free, hfree⟩ : ∃ free, c.logSlots - s.emptySlot = free + 1 :=
    ⟨c.logSlots - s.emptySlot - 1, by omega⟩
  have hlog := h.log
  rw [hfree] at hlog
  have hplace : c.words + s.emptySlot = c.words + written.length := by rw [h.slot]
  refine ⟨⟨?_, ?_, h.clean.program ?_⟩, fun place hlt => ?_⟩
  · change c.log (Function.update s.flash.words (c.words + s.emptySlot) value) =
      written ++ [value] ++ List.replicate (c.logSlots - (s.emptySlot + 1)) emptyWord
    have hless : c.logSlots - (s.emptySlot + 1) = free := by omega
    rw [hplace, log_program c _ written free hlog, hless]
  · rw [List.length_append, List.length_singleton, ← h.slot]
    rfl
  · rw [hplace]
    exact log_free c hlog
  · exact Function.update_of_ne (by omega) _ _

theorem Stored.written (h : Stored c s contents entries) :
    Written c s (entries.flatMap LogEntry.encode) := ⟨h.log, h.slot, h.clean⟩

theorem Stored.nil_of_slot (h : Stored c s contents entries) (hslot : s.emptySlot = 0) :
    entries = [] := by
  cases entries with
  | nil => rfl
  | cons e entries =>
    obtain ⟨head, rest, hencode, -⟩ := encode_kind c e (h.valid e List.mem_cons_self)
    have hlen := h.slot
    rw [hslot, List.flatMap_cons, hencode] at hlen
    exact absurd hlen.symm (Nat.succ_ne_zero _)

theorem writeLogByteEntry_holds (h : FlashHolds c s contents) {address : Nat}
    (hlow : address < 0x80) (haddress : address < c.density)
    (hroom : s.emptySlot < c.logSlots)
    (hstale : s.flash.words (address / 2) = emptyWord →
      s.emptySlot = 0 ∧ s.dataBuf address = 0) :
    (c.writeLogByteEntry address s).dataBuf = s.dataBuf ∧
      FlashHolds c (c.writeLogByteEntry address s)
        (Function.update contents address (s.dataBuf address)) ∧
      ∀ place < c.words,
        (c.writeLogByteEntry address s).flash.words place = s.flash.words place := by
  obtain ⟨entries, h⟩ := h
  unfold EepromStm32.writeLogByteEntry
  rw [if_neg (by omega)]
  obtain ⟨hwritten, hwords⟩ := appendLog_written h.written hroom
    ((BitVec.ofNat 16 address <<< 8) ||| (s.dataBuf address).setWidth 16)
  have hcarry : (LogEntry.byte address (s.dataBuf address)).carryOut contents =
      Function.update contents address (s.dataBuf address) := by
    funext x
    unfold LogEntry.carryOut LogEntry.assigns
    dsimp only
    rw [Function.update_apply]
    split <;> rfl
  refine ⟨rfl, ?_, hwords⟩
  rw [← hcarry]
  refine h.append (.byte address (s.dataBuf address)) ⟨hlow, haddress⟩ hwritten.clean
    hwritten.log (fun x => ?_) rfl hroom (fun x hx hempty => ?_)
  · rcases Nat.lt_or_ge x c.density with hx | hx
    · exact Or.inl (hwords _ (half_lt c hx))
    · exact Or.inr hx
  · by_cases hsame : x = address
    · subst hsame
      obtain ⟨hslot, hzero⟩ := hstale hempty
      exact Or.inr ⟨h.nil_of_slot hslot, by rw [hzero]⟩
    · exact Or.inl (if_neg hsame)

/-- How many halfwords a word takes in the log. -/
def logSize (value : HalfWord) : Nat := if value ≤ 1 then 1 else 2

theorem writeLogWordEntry_full {address : Nat}
    (hfull : c.logSlots < s.emptySlot + logSize (wordAt s.dataBuf address)) :
    c.writeLogWordEntry address s = c.compact s := by
  unfold EepromStm32.writeLogWordEntry
  unfold logSize at hfull
  dsimp only
  split
  next hshort =>
    rw [if_pos hshort] at hfull
    rw [if_pos (by omega)]
  next hlong =>
    rw [if_neg hlong] at hfull
    rw [if_pos (by omega)]

theorem writeLogWordEntry_holds (h : FlashHolds c s contents) {address : Nat}
    (heven : address % 2 = 0) (hhigh : 0x80 ≤ address) (haddress : address < c.density)
    (hroom : s.emptySlot + logSize (wordAt s.dataBuf address) ≤ c.logSlots)
    (hprogrammed : s.flash.words (address / 2) ≠ emptyWord) :
    (c.writeLogWordEntry address s).dataBuf = s.dataBuf ∧
      FlashHolds c (c.writeLogWordEntry address s)
        (setWord contents address (wordAt s.dataBuf address)) := by
  obtain ⟨entries, h⟩ := h
  -- no erased word is written to
  have hstale : ∀ value, ∀ x < c.density, s.flash.words (x / 2) = emptyWord →
      LogEntry.assignsWord address value x = none := by
    intro value x _ hempty
    have hne : x / 2 ≠ address / 2 := fun hc => hprogrammed (by rw [← hc]; exact hempty)
    unfold LogEntry.assignsWord
    rw [if_neg (by omega), if_neg (by omega)]
  unfold EepromStm32.writeLogWordEntry
  unfold logSize at hroom
  dsimp only
  by_cases hshort : wordAt s.dataBuf address ≤ 1
  · rw [if_pos hshort] at hroom ⊢
    rw [if_neg (by omega), setWord_eq]
    obtain ⟨hwritten, hwords⟩ := appendLog_written h.written (by omega)
      ((BitVec.ofNat 16 address >>> 1) ||| (0x8000 ||| wordAt s.dataBuf address <<< 13))
    refine ⟨rfl, h.append (.short address (wordAt s.dataBuf address)) ⟨heven, haddress, hshort⟩
      hwritten.clean hwritten.log (fun x => ?_) rfl hroom
      (fun x hx hempty => Or.inl (hstale _ x hx hempty))⟩
    rcases Nat.lt_or_ge x c.density with hx | hx
    · exact Or.inl (hwords _ (half_lt c hx))
    · exact Or.inr hx
  · rw [if_neg hshort] at hroom ⊢
    rw [if_neg (by omega), setWord_eq]
    obtain ⟨hwritten, hwords⟩ := appendLog_written h.written (by omega) (longHead address)
    obtain ⟨hwritten', hwords'⟩ := appendLog_written hwritten
      (show s.emptySlot + 1 < c.logSlots by omega) (~~~ wordAt s.dataBuf address)
    refine ⟨rfl, h.append (.long address (wordAt s.dataBuf address))
      ⟨heven, hhigh, haddress, hshort⟩ hwritten'.clean ?_ (fun x => ?_) rfl hroom
      (fun x hx hempty => Or.inl (hstale _ x hx hempty))⟩
    · have hlog := hwritten'.log
      rw [List.append_assoc _ [_] [_]] at hlog
      exact hlog
    · rcases Nat.lt_or_ge x c.density with hx | hx
      · exact Or.inl ((hwords' _ (half_lt c hx)).trans (hwords _ (half_lt c hx)))
      · exact Or.inr hx

end Stored

end Stm32

end K530
