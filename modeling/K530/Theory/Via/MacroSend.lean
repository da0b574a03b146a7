import K530.Quantum.DynamicKeymap

/-!
# Where a Macro Is Looked For

The macros before one are skipped by their zeros, and the loop that does so stops
at the end of the region. But it asks whether it has come to the end before it
reads a byte, and not after the last one. If the last byte of the region is the
last zero to be skipped, it goes on as if a macro began there, and what is read
is behind the region.

If there is one more zero the macro is found, and nothing behind its zero is read.
It is sent as it is, with a prefix before every code, but for a code that has no
keycode, which is dropped with its zero.

## Main definitions

* `KeymapStore.macroText`: A macro of the region.

## Theorems

* `skipMacros_spec`: Where the macro is looked for.
* `sends_macro_iff`: When the macro is sent as it should be.
-/

namespace K530

open Memory

/-- What is sent for a macro: a prefix before every code of a key. -/
def withPrefix : List Byte → List Byte
  | [] => []
  | [b] => if isMagicChar b then [ssQmkPrefix, b] else [b]
  | b :: c :: l =>
    if isMagicChar b then ssQmkPrefix :: b :: c :: withPrefix l else b :: withPrefix (c :: l)

/-- The last code has no keycode. -/
def endsInCode : List Byte → Bool
  | [] => false
  | [b] => isMagicChar b
  | b :: c :: l => if isMagicChar b then endsInCode l else endsInCode (c :: l)

namespace KeymapStore

variable (k : KeymapStore) (e : Eeprom k.size)

/-- The bytes of the macro region. -/
def macroBytes : List Byte := (List.range k.macroSize).map (fun i => e.readByte (k.macroAddr + i))

/-- How many of them are zeros. -/
def nulls : Nat := (k.macroBytes e).count 0

/-- The bytes between two zeros. -/
def macroText (id : Nat) : List Byte := ((k.macroBytes e).splitOn 0).getD id []

/-- The function ends, it reads nothing outside the region, and it sends the macro,
    if there is one. -/
def SendsMacro (id : Byte) : Prop :=
  ∃ fuel r, k.macroSend e fuel id = some r ∧
    (∀ p ∈ r.reads, k.macroAddr ≤ p ∧ p < k.macroAddr + k.macroSize) ∧
    (id.toNat < k.macroCount → e.readByte (k.macroAddr + k.macroSize - 1) = 0 →
      id.toNat + 1 ≤ k.nulls e → r.strings.flatten = withPrefix (k.macroText e id.toNat))

variable {k e}

/-! ### Skipping macros -/

def LeavesOff (l : List Byte) (id stop : Nat) : Option Nat → Prop
  | none => l.count 0 < id
  | some p => ∃ rest, p + rest.length = stop ∧ Stretch e.readByte p rest ∧ rest <:+ l ∧
      rest.count 0 + id = l.count 0 ∧ rest.splitOn 0 = (l.splitOn 0).drop id

theorem splitOn_zero (l : List Byte) : (0 :: l : List Byte).splitOn 0 = [] :: l.splitOn 0 := by
  unfold List.splitOn
  rw [List.splitOnP_cons_eq_if_modifyHead, if_pos (beq_self_eq_true _)]

theorem drop_splitOn (b : Byte) (hb : b ≠ 0) (l : List Byte) (id : Nat) :
    ((b :: l).splitOn 0).drop (id + 1) = (l.splitOn 0).drop (id + 1) := by
  unfold List.splitOn
  rw [List.splitOnP_cons_eq_if_modifyHead, if_neg (by simpa using hb)]
  cases l.splitOnP (fun x => x == 0) with
  | nil => rfl
  | cons first rest => rfl

theorem LeavesOff.cons {b : Byte} {l : List Byte} {id stop : Nat} {pos : Option Nat}
    (h : LeavesOff (e := e) l (if b = 0 then id else id + 1) stop pos) :
    LeavesOff (e := e) (b :: l) (id + 1) stop pos := by
  by_cases hb : b = 0
  · subst hb
    rw [if_pos rfl] at h
    cases pos with
    | none =>
      unfold LeavesOff at h ⊢
      rw [List.count_cons_self]
      omega
    | some p =>
      obtain ⟨rest, hend, hrest, hsuffix, hcount, hsplit⟩ := h
      refine ⟨rest, hend, hrest, hsuffix.trans (List.suffix_cons _ _), ?_, ?_⟩
      · rw [List.count_cons_self]
        omega
      · rw [hsplit, splitOn_zero]
        rfl
  · rw [if_neg hb] at h
    cases pos with
    | none =>
      unfold LeavesOff at h ⊢
      rwa [List.count_cons_of_ne hb]
    | some p =>
      obtain ⟨rest, hend, hrest, hsuffix, hcount, hsplit⟩ := h
      refine ⟨rest, hend, hrest, hsuffix.trans (List.suffix_cons _ _), ?_, ?_⟩
      · rwa [List.count_cons_of_ne hb]
      · rw [hsplit, drop_splitOn b hb]

theorem skipMacros_spec {fuel p id : Nat} {l : List Byte} {r : Option Nat × List Nat}
    (hstr : Stretch e.readByte p l) (hstop : p + l.length = k.macroAddr + k.macroSize)
    (h : k.skipMacros e fuel p id = some r) :
    LeavesOff (e := e) l id (k.macroAddr + k.macroSize) r.1 ∧
      ∀ q ∈ r.2, p ≤ q ∧ q < k.macroAddr + k.macroSize := by
  induction fuel generalizing p id l r with
  | zero => exact absurd h (by simp [skipMacros])
  | succ fuel ih =>
    cases id with
    | zero =>
      rw [skipMacros, Option.some.injEq] at h
      subst h
      -- Nothing is to be skipped any more.
      exact ⟨⟨l, hstop, hstr, List.suffix_rfl, rfl, rfl⟩, by simp⟩
    | succ id =>
      rw [skipMacros] at h
      cases l with
      | nil =>
        -- The loop has come to the end.
        rw [List.length_nil, Nat.add_zero] at hstop
        rw [if_pos hstop, Option.some.injEq] at h
        subst h
        exact ⟨Nat.succ_pos id, by simp⟩
      | cons b l =>
        rw [List.length_cons] at hstop
        rw [if_neg (by omega), Option.map_eq_some_iff, hstr.1] at h
        obtain ⟨r', hr', rfl⟩ := h
        obtain ⟨hleaves, hreads⟩ := ih hstr.2 (by omega) hr'
        -- One byte is read, and it is in the region as there is one.
        have hle : ∀ q ∈ p :: r'.2, p ≤ q ∧ q < k.macroAddr + k.macroSize := by
          refine List.forall_mem_cons.mpr ⟨⟨Nat.le_refl _, by omega⟩, fun q hq => ?_⟩
          have hq' := hreads q hq
          exact ⟨by omega, hq'.2⟩
        exact ⟨hleaves.cons, hle⟩

theorem skipMacros_ends {fuel p id : Nat} {l : List Byte}
    (hstop : p + l.length = k.macroAddr + k.macroSize) (hfuel : l.length < fuel) :
    ∃ r, k.skipMacros e fuel p id = some r := by
  induction fuel generalizing p id l with
  | zero => exact absurd hfuel (Nat.not_lt_zero _)
  | succ fuel ih =>
    cases id with
    | zero => exact ⟨_, rfl⟩
    | succ id =>
      rw [skipMacros]
      cases l with
      | nil => exact ⟨_, if_pos hstop⟩
      | cons b l =>
        rw [List.length_cons] at hstop hfuel
        rw [if_neg (by omega)]
        obtain ⟨r, hr⟩ := @ih (p + 1) (if e.readByte p = 0 then id else id + 1) l (by omega)
          (by omega)
        exact ⟨_, by rw [hr]; rfl⟩

/-! ### Sending one -/

theorem after_flatten (r : MacroReads) (reads : List Nat) (string : List Byte) :
    (r.after reads [string]).strings.flatten = string ++ r.strings.flatten := by
  simp [MacroReads.after]

structure SendsText (text : List Byte) (p : Nat) (r : MacroReads) : Prop where
  reads : ∀ q ∈ r.reads, p ≤ q ∧ q ≤ p + text.length
  whole : endsInCode text = false → r.strings.flatten = withPrefix text
  dropped : endsInCode text = true → r.strings.flatten.length < (withPrefix text).length

theorem SendsText.piece {text rest string : List Byte} {p : Nat} {r : MacroReads}
    {reads : List Nat} (h : SendsText rest (p + reads.length) r)
    (hlength : text.length = reads.length + rest.length)
    (hreads : ∀ q ∈ reads, p ≤ q ∧ q < p + reads.length)
    (hends : endsInCode text = endsInCode rest)
    (hpieces : withPrefix text = string ++ withPrefix rest) :
    SendsText text p (r.after reads [string]) := by
  refine ⟨fun q hq => ?_, fun hwhole => ?_, fun hdropped => ?_⟩
  · -- The piece is read from the front, and the rest from behind it on.
    rcases List.mem_append.mp hq with hq | hq
    · have hq' := hreads q hq
      omega
    · have hq' := h.reads q hq
      omega
  · rw [after_flatten, hpieces, h.whole (hends.symm.trans hwhole)]
  · rw [after_flatten, hpieces, List.length_append, List.length_append]
    exact Nat.add_lt_add_left (h.dropped (hends.symm.trans hdropped)) _

theorem sendPieces_spec {fuel p : Nat} {text more : List Byte} {r : MacroReads}
    (hstr : Stretch e.readByte p (text ++ 0 :: more)) (htext : ∀ b ∈ text, b ≠ 0)
    (h : k.sendPieces e fuel p = some r) : SendsText text p r := by
  induction fuel generalizing p text r with
  | zero => exact absurd h (by simp [sendPieces])
  | succ fuel ih =>
    unfold sendPieces at h
    dsimp only at h
    cases text with
    | nil =>
      rw [if_pos hstr.1, Option.some.injEq] at h
      subst h
      exact ⟨by simp, fun _ => rfl, fun hends => absurd hends Bool.false_ne_true⟩
    | cons b text =>
      have hb : e.readByte p = b := hstr.1
      have hrest : ∀ c ∈ text, c ≠ 0 := fun c hc => htext c (List.mem_cons_of_mem _ hc)
      rw [hb, if_neg (htext b List.mem_cons_self)] at h
      by_cases hmagic : isMagicChar b
      · rw [if_pos hmagic] at h
        cases text with
        | nil =>
          -- The keycode is the zero, and the code is dropped.
          rw [if_pos hstr.2.1, Option.some.injEq] at h
          subst h
          refine ⟨by simp, fun hends => ?_, fun _ => by simp [withPrefix, hmagic]⟩
          exact absurd (hends.symm.trans hmagic) Bool.false_ne_true
        | cons c text =>
          have hc : e.readByte (p + 1) = c := hstr.2.1
          rw [hc, if_neg (hrest c List.mem_cons_self), Option.map_eq_some_iff] at h
          obtain ⟨r', hr', rfl⟩ := h
          have hsends := ih hstr.2.2 (fun d hd => hrest d (List.mem_cons_of_mem _ hd)) hr'
          refine SendsText.piece hsends (by simp; omega) (by simp) ?_ ?_
          · rw [endsInCode, if_pos hmagic]
          · rw [withPrefix, if_pos hmagic]
            rfl
      · rw [if_neg hmagic, Option.map_eq_some_iff] at h
        obtain ⟨r', hr', rfl⟩ := h
        have hsends := ih hstr.2 hrest hr'
        refine SendsText.piece hsends (by simp; omega) (by simp) ?_ ?_
        · cases text with
          | nil => exact (Bool.not_eq_true _).mp hmagic
          | cons c text => rw [endsInCode, if_neg hmagic]
        · cases text with
          | nil => simp [withPrefix, hmagic]
          | cons c text =>
            rw [withPrefix, if_neg hmagic]
            rfl

theorem sendPieces_ends {fuel p : Nat} {text more : List Byte}
    (hstr : Stretch e.readByte p (text ++ 0 :: more)) (hfuel : text.length < fuel) :
    ∃ r, k.sendPieces e fuel p = some r := by
  induction fuel generalizing p text with
  | zero => exact absurd hfuel (Nat.not_lt_zero _)
  | succ fuel ih =>
    unfold sendPieces
    dsimp only
    by_cases hzero : e.readByte p = 0
    · exact ⟨_, if_pos hzero⟩
    rw [if_neg hzero]
    cases text with
    -- The text is over, and then there is a zero.
    | nil => exact absurd hstr.1 hzero
    | cons b text =>
      rw [List.length_cons] at hfuel
      by_cases hmagic : isMagicChar (e.readByte p)
      · rw [if_pos hmagic]
        by_cases hkeycode : e.readByte (p + 1) = 0
        · exact ⟨_, if_pos hkeycode⟩
        rw [if_neg hkeycode]
        cases text with
        | nil => exact absurd hstr.2.1 hkeycode
        | cons c text =>
          rw [List.length_cons] at hfuel
          obtain ⟨r, hr⟩ := ih hstr.2.2 (by omega)
          exact ⟨_, by rw [hr]; rfl⟩
      · rw [if_neg hmagic]
        obtain ⟨r, hr⟩ := ih hstr.2 (by omega)
        exact ⟨_, by rw [hr]; rfl⟩

theorem sendPieces_first {fuel p : Nat} {r : MacroReads} (h : k.sendPieces e fuel p = some r) :
    p ∈ r.reads := by
  cases fuel with
  | zero => exact absurd h (by simp [sendPieces])
  | succ fuel =>
    unfold sendPieces at h
    dsimp only at h
    split at h
    · rw [← Option.some.inj h]
      exact List.mem_cons_self
    split at h
    · split at h
      · rw [← Option.some.inj h]
        exact List.mem_cons_self
      · obtain ⟨r', _, rfl⟩ := Option.map_eq_some_iff.mp h
        exact List.mem_cons_self
    · obtain ⟨r', _, rfl⟩ := Option.map_eq_some_iff.mp h
      exact List.mem_cons_self

/-! ### The function -/

theorem macroBytes_length : (k.macroBytes e).length = k.macroSize := by
  unfold macroBytes
  rw [List.length_map, List.length_range]

theorem stretch_macroBytes : Stretch e.readByte k.macroAddr (k.macroBytes e) := by
  refine stretch_of_get (fun i b hb => ?_)
  unfold macroBytes at hb
  rw [List.getElem?_map, Option.map_eq_some_iff] at hb
  obtain ⟨j, hj, rfl⟩ := hb
  obtain ⟨hlt, rfl⟩ := List.getElem?_eq_some_iff.mp hj
  rw [List.getElem_range]

theorem rest_of_last {rest : List Byte} {p : Nat} (hrest : Stretch e.readByte p rest)
    (hend : p + rest.length = k.macroAddr + k.macroSize)
    (hlast : e.readByte (k.macroAddr + k.macroSize - 1) = 0) (hnone : rest.count 0 = 0) :
    rest = [] := by
  rcases List.eq_nil_or_concat rest with rfl | ⟨front, b, rfl⟩
  · rfl
  · rw [List.concat_eq_append] at hrest hend hnone
    -- The last byte of the rest is the last of the region.
    have hb := hrest.append.2.1
    rw [List.length_append, List.length_singleton] at hend
    rw [show p + front.length = k.macroAddr + k.macroSize - 1 by omega, hlast] at hb
    exact absurd hnone (by simp [← hb])

theorem exists_text {rest : List Byte} (h : rest.count 0 ≠ 0) :
    ∃ text more, rest = text ++ 0 :: more ∧ (∀ b ∈ text, b ≠ 0) ∧
      (rest.splitOn 0).head? = some text := by
  have hmem : (0 : Byte) ∈ rest := List.count_pos_iff.mp (Nat.pos_of_ne_zero h)
  obtain ⟨text, more, rfl, hfirst⟩ := List.eq_append_cons_of_mem hmem
  have htext : ∀ b ∈ text, b ≠ 0 := fun b hb hzero => hfirst (hzero ▸ hb)
  refine ⟨text, more, rfl, htext, ?_⟩
  have hsplit : (text ++ 0 :: more).splitOn 0 = text :: more.splitOn 0 :=
    List.splitOnP_append_cons_of_forall_mem (fun b hb => beq_false_of_ne (htext b hb)) 0
      (beq_self_eq_true _) more
  rw [hsplit]
  rfl

theorem exists_rest {id p : Nat} {reads : List Nat} {fuel : Nat}
    (h : k.skipMacros e fuel k.macroAddr id = some (some p, reads)) :
    ∃ rest, p + rest.length = k.macroAddr + k.macroSize ∧ Stretch e.readByte p rest ∧
      rest.count 0 + id = k.nulls e ∧
      (rest.splitOn 0).head? = ((k.macroBytes e).splitOn 0)[id]? := by
  obtain ⟨⟨rest, hend, hrest, _, hcount, hsplit⟩, _⟩ :=
    skipMacros_spec stretch_macroBytes (by rw [macroBytes_length]) h
  exact ⟨rest, hend, hrest, hcount, by rw [hsplit, List.head?_drop]⟩

theorem macroSend_cases {fuel : Nat} {id : Byte} {r : MacroReads}
    (hid : id.toNat < k.macroCount) (hlast : e.readByte (k.macroAddr + k.macroSize - 1) = 0)
    (h : k.macroSend e fuel id = some r) :
    ∃ pos reads, k.skipMacros e fuel k.macroAddr id.toNat = some (pos, reads) ∧
      match pos with
      | none => r = ⟨(k.macroAddr + k.macroSize - 1) :: reads, []⟩
      | some p => ∃ r', k.sendPieces e fuel p = some r' ∧
          r = r'.after ((k.macroAddr + k.macroSize - 1) :: reads) [] := by
  unfold macroSend at h
  dsimp only at h
  rw [if_neg (Nat.not_le.mpr hid), if_neg (not_not_intro hlast)] at h
  cases hskip : k.skipMacros e fuel k.macroAddr id.toNat with
  | none =>
    rw [hskip] at h
    exact absurd h (by simp)
  | some found =>
    obtain ⟨pos, reads⟩ := found
    rw [hskip] at h
    refine ⟨pos, reads, rfl, ?_⟩
    cases pos with
    | none => exact (Option.some.inj h).symm
    | some p =>
      obtain ⟨r', hr', rfl⟩ := Option.map_eq_some_iff.mp h
      exact ⟨r', hr', rfl⟩

variable (k e)

/-- The last zero of the region is the last to be skipped, or the macro ends in a code
    that has no keycode. -/
def MacroBad (id : Byte) : Prop :=
  id.toNat < k.macroCount ∧ e.readByte (k.macroAddr + k.macroSize - 1) = 0 ∧
    (k.nulls e = id.toNat ∨ id.toNat < k.nulls e ∧ endsInCode (k.macroText e id.toNat) = true)

variable {k e}

theorem macroText_eq {id : Nat} {text : List Byte}
    (h : some text = ((k.macroBytes e).splitOn 0)[id]?) : k.macroText e id = text := by
  unfold macroText
  rw [List.getD_eq_getElem?_getD, ← h]
  rfl

theorem not_sendsMacro {id : Byte} (hbad : k.MacroBad e id) : ¬ k.SendsMacro e id := by
  obtain ⟨hid, hlast, hbad⟩ := hbad
  rintro ⟨fuel, r, hr, hreads, hsends⟩
  obtain ⟨pos, reads, hskip, hpos⟩ := macroSend_cases hid hlast hr
  cases pos with
  | none =>
    have hleaves := (skipMacros_spec stretch_macroBytes (by rw [macroBytes_length]) hskip).1
    have hfew : k.nulls e < id.toNat := hleaves
    omega
  | some p =>
    obtain ⟨r', hr', rfl⟩ := hpos
    obtain ⟨rest, hend, hrest, hcount, htext⟩ := exists_rest hskip
    rcases hbad with hnone | ⟨hsome, hends⟩
    · -- Nothing is left of the region, and the loop reads behind it.
      have hnil := rest_of_last hrest hend hlast (by omega)
      rw [hnil, List.length_nil, Nat.add_zero] at hend
      have hfirst := hreads p (List.mem_append_right _ (sendPieces_first hr'))
      omega
    · have hzero : rest.count 0 ≠ 0 := by omega
      obtain ⟨text, more, rfl, hzeros, hhead⟩ := exists_text hzero
      rw [hhead] at htext
      have hspec := sendPieces_spec hrest hzeros hr'
      rw [macroText_eq htext] at hends hsends
      -- The code at the end is dropped, so less is sent than the macro has.
      have hshort := hspec.dropped hends
      have hsame := hsends hid hlast hsome
      unfold MacroReads.after at hsame
      rw [List.nil_append] at hsame
      rw [hsame] at hshort
      exact Nat.lt_irrefl _ hshort

theorem sendsMacro {id : Byte} (hsize : 0 < k.macroSize) (hgood : ¬ k.MacroBad e id) :
    k.SendsMacro e id := by
  by_cases hid : id.toNat ≥ k.macroCount
  · refine ⟨0, ⟨[], []⟩, if_pos hid, by simp, fun h => absurd h (Nat.not_lt.mpr hid)⟩
  have hlastIn : k.macroAddr ≤ k.macroAddr + k.macroSize - 1 ∧
      k.macroAddr + k.macroSize - 1 < k.macroAddr + k.macroSize := by omega
  by_cases hlast : e.readByte (k.macroAddr + k.macroSize - 1) = 0
  swap
  · -- The buffer is being written.
    refine ⟨0, ⟨[k.macroAddr + k.macroSize - 1], []⟩, ?_, ?_, fun _ h => absurd h hlast⟩
    · exact (if_neg hid).trans (if_pos hlast)
    · exact List.forall_mem_singleton.mpr hlastIn
  have hleave : ∃ r, k.skipMacros e ((k.macroBytes e).length + 1) k.macroAddr id.toNat = some r :=
    skipMacros_ends (by rw [macroBytes_length]) (Nat.lt_add_one (k.macroBytes e).length)
  obtain ⟨⟨pos, reads⟩, hskip⟩ := hleave
  obtain ⟨hleaves, hreads⟩ := skipMacros_spec stretch_macroBytes (by rw [macroBytes_length]) hskip
  have hskipped : ∀ q ∈ (k.macroAddr + k.macroSize - 1) :: reads,
      k.macroAddr ≤ q ∧ q < k.macroAddr + k.macroSize :=
    List.forall_mem_cons.mpr ⟨hlastIn, hreads⟩
  cases pos with
  | none =>
    refine ⟨(k.macroBytes e).length + 1, ⟨(k.macroAddr + k.macroSize - 1) :: reads, []⟩, ?_,
      hskipped, fun _ _ hsome => ?_⟩
    · unfold macroSend
      dsimp only
      rw [if_neg hid, if_neg (not_not_intro hlast), hskip]
    · exact absurd hleaves (Nat.not_lt.mpr (Nat.le_of_succ_le hsome))
  | some p =>
    obtain ⟨rest, hend, hrest, hcount, htext⟩ := exists_rest hskip
    -- There is a zero behind the macro, as it would be a bad one otherwise.
    have hsome : rest.count 0 ≠ 0 := by
      intro hnone
      exact hgood ⟨Nat.lt_of_not_le hid, hlast, Or.inl (by omega)⟩
    obtain ⟨text, more, rfl, hzeros, hhead⟩ := exists_text hsome
    rw [hhead] at htext
    rw [List.length_append, List.length_cons] at hend
    -- The rest of the region is no longer than the region.
    have hle : k.macroAddr ≤ p := by
      have hsuffix := hleaves.choose_spec.2.2.1.length_le
      rw [macroBytes_length] at hsuffix
      have hstop := hleaves.choose_spec.1
      omega
    have hsend : ∃ r', k.sendPieces e ((k.macroBytes e).length + 1) p = some r' :=
      sendPieces_ends hrest (by rw [macroBytes_length]; omega)
    obtain ⟨r', hr'⟩ := hsend
    have hspec := sendPieces_spec hrest hzeros hr'
    refine ⟨(k.macroBytes e).length + 1,
      r'.after ((k.macroAddr + k.macroSize - 1) :: reads) [], ?_, fun q hq => ?_,
      fun _ _ hmany => ?_⟩
    · unfold macroSend
      dsimp only
      rw [if_neg hid, if_neg (not_not_intro hlast), hskip]
      dsimp only
      rw [hr']
      rfl
    · rcases List.mem_append.mp hq with hq | hq
      · exact hskipped q hq
      · have hq' := hspec.reads q hq
        omega
    · rw [macroText_eq htext]
      refine hspec.whole ?_
      by_contra hends
      refine hgood ⟨Nat.lt_of_not_le hid, hlast, Or.inr ⟨hmany, ?_⟩⟩
      rw [macroText_eq htext]
      exact (Bool.not_eq_false _).mp hends

end KeymapStore

/-- The macro is sent as it should be unless the last zero of the region is the last to
    be skipped, or the macro ends in a code that has no keycode. -/
theorem sends_macro_iff (k : KeymapStore) (hsize : 0 < k.macroSize) (e : Eeprom k.size)
    (id : Byte) : k.SendsMacro e id ↔ ¬ k.MacroBad e id :=
  ⟨fun h hbad => KeymapStore.not_sendsMacro hbad h, KeymapStore.sendsMacro hsize⟩

/-- One key, and no more macro bytes than there have to be. -/
def oneKeyStore : KeymapStore where
  rows := 1
  cols := 1
  layerCount := 1
  keymapAddr := 0
  macroAddr := 2
  macroSize := 101
  macroCount := 16
  keymaps := fun _ _ _ => 0
  size := 103
  macro_fits := by decide
  size_le := by decide
  keymap_fits := by decide
  keymap_lt := by decide

/-- An EEPROM whose last macro byte is the only zero of the region. -/
def oneZero : Eeprom oneKeyStore.size :=
  (Vector.replicate oneKeyStore.size 0x41).setIfInBounds 102 0

theorem sends_macro_iff_first :
    0 < oneKeyStore.macroSize ∧
      (oneKeyStore.SendsMacro oneZero 0 ↔ ¬ oneKeyStore.MacroBad oneZero 0) :=
  ⟨by decide, sends_macro_iff oneKeyStore (by decide) oneZero 0⟩

/-- The second macro of this EEPROM is looked for behind the region. -/
theorem sends_macro_broken :
    ¬ ∀ (k : KeymapStore), 0 < k.macroSize → ∀ (e : Eeprom k.size) (id : Byte),
      k.SendsMacro e id := by
  intro h
  refine KeymapStore.not_sendsMacro ?_ (h oneKeyStore (by decide) oneZero 1)
  exact ⟨by decide, by decide +kernel, Or.inl (by decide +kernel)⟩

end K530
