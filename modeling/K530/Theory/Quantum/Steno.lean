import K530.Lib.Run
import K530.Quantum.Steno
import Mathlib.Algebra.Order.BigOperators.Group.Finset
import Mathlib.Data.Fintype.Basic

/-!
# A Packet Is a Chord

What the receiver makes of the packets is compared with the keys that were pressed. A
chord is a set of keys, gathered from the last packet or change of the protocol on, and
it comes to an end with the release after which no key is held. In GeminiPR the packet
is that set, and in TX Bolt it is the set of the codes of its keys.

The bits of a byte of the chord are those of the keys whose place is there. In TX Bolt
the highest two of them are the group, the same for all keys of the byte, so they can be
taken off again, and what is left has one bit for each code.

A key that is held across a change of the protocol is counted still and is no longer in
the chord. The count is a signed byte, so the keys of a board must not come to more than
127 in it. One key each for the 42 of the chord and the 11 that are two of them at once
comes to 64.

## Main definitions

* `StenoKey`, `StenoBoard`: Keys, and which of them there are.

## Theorems

* `Gathers.updateState`: A key is put into the chord.
* `steno_packets_carry_chord`: Every packet of a run is its chord.
-/

namespace K530

open BitTable StepRun

/-- A key of the chord, or one that is two of them. -/
inductive StenoKey
  | plain (key : Fin 42)
  | combined (i : Fin 11)
  deriving DecidableEq

namespace StenoKey

def keycode : StenoKey → Keycode
  | plain key => qkSteno + BitVec.ofNat 16 key.val
  | combined i => qkStenoComb + BitVec.ofNat 16 i.val

/-- The keys of the chord it is. -/
def parts : StenoKey → List Nat
  | plain key => [key.val]
  | combined i => [combinedmapFirst.getD i.val 0, combinedmapSecond.getD i.val 0]

end StenoKey

/-- The keys of a board. -/
structure StenoBoard where
  /-- `STENO_COMBINEDMAP` -/
  combinedMap : Bool
  count : Nat
  code : Fin count → StenoKey
  combined : ∀ k i, code k = .combined i → combinedMap = true
  /-- The count of the keys that are held is an `int8_t`. -/
  counted_le : (Finset.univ.sum fun k => (code k).parts.length) ≤ 127

variable {board : StenoBoard}

/-- A key is pressed or released, or one that changes the protocol. -/
inductive StenoEvent (board : StenoBoard)
  | press (k : Fin board.count)
  | release (k : Fin board.count)
  | mode (mode : StenoMode) (press : Bool)

def StenoMode.keycode : StenoMode → Keycode
  | bolt => qkStenoBolt
  | gemini => qkStenoGemini

/-- An event, answered with the protocol in force and what is sent. -/
def Steno.step (s : Steno) : StenoEvent board → Steno × (StenoMode × List Byte)
  | .press k =>
    let done := s.processSteno board.combinedMap (board.code k).keycode true
    (done.2.2, (s.mode, done.2.1))
  | .release k =>
    let done := s.processSteno board.combinedMap (board.code k).keycode false
    (done.2.2, (s.mode, done.2.1))
  | .mode mode press =>
    let done := s.processSteno board.combinedMap mode.keycode press
    (done.2.2, (s.mode, done.2.1))

/-- What a packet says: keys, or codes of keys. -/
inductive StenoPacket
  | gemini (keys : Finset Nat)
  | bolt (codes : Finset Byte)
  | malformed
  deriving DecidableEq

/-- The codes of a byte of TX Bolt: its group, and a bit for each. -/
def groupCodes (b : Byte) : List Byte :=
  ((List.range 6).filter (fun j => b.getLsbD j)).map
    (fun j => (b &&& (0xC0 : Byte)) ||| (1 : Byte) <<< j)

/-- What the receiver makes of the bytes that are sent at once. -/
def readPacket (mode : StenoMode) (bytes : List Byte) : Option StenoPacket :=
  if bytes = [] then none
  else
    match mode with
    | .gemini =>
      if bytes.map (fun b => b.getLsbD 7) = [true, false, false, false, false, false] then
        some (.gemini ((Finset.range 42).filter
          (fun key => (bytes.getD (key / 7) 0).getLsbD (6 - key % 7) = true)))
      else some .malformed
    | .bolt =>
      -- the zero at the end is the only one
      if bytes.getLast? = some 0 ∧ bytes.dropLast.all (fun b => b != 0) = true then
        some (.bolt (bytes.dropLast.flatMap groupCodes).toFinset)
      else some .malformed

/-- The keys that are held, and those pressed since the last packet or change of the
    protocol. -/
structure StenoChord (board : StenoBoard) where
  held : Finset (Fin board.count)
  since : Finset Nat
  mode : StenoMode

namespace StenoChord

def init (mode : StenoMode) : StenoChord board := { held := ∅, since := ∅, mode := mode }

/-- The packet of a chord. -/
def packet (mode : StenoMode) (since : Finset Nat) : StenoPacket :=
  match mode with
  | .gemini => .gemini since
  | .bolt => .bolt ((since.image boltcode).erase txbNul)

/-- An event, and the packet that should be sent. -/
def step (chord : StenoChord board) : StenoEvent board → StenoChord board × Option StenoPacket
  | .press k =>
    ({ chord with
      held := insert k chord.held
      since := chord.since ∪ (board.code k).parts.toFinset }, none)
  | .release k =>
    if chord.held.erase k = ∅ then
      ({ chord with held := ∅, since := ∅ }, some (packet chord.mode chord.since))
    else ({ chord with held := chord.held.erase k }, none)
  | .mode mode press =>
    (if press then { chord with since := ∅, mode := mode } else chord, none)

/-- Each key is pressed and released by turns. -/
def Alternates (chord : StenoChord board) : StenoEvent board → Prop
  | .press k => k ∉ chord.held
  | .release k => k ∈ chord.held
  | .mode _ _ => True

instance (chord : StenoChord board) :
    (event : StenoEvent board) → Decidable (chord.Alternates event)
  | .press k => inferInstanceAs (Decidable (k ∉ chord.held))
  | .release k => inferInstanceAs (Decidable (k ∈ chord.held))
  | .mode _ _ => inferInstanceAs (Decidable True)

end StenoChord

/-! ### The bytes of the chord -/

theorem chordByte_setIfInBounds (v : Vector Byte 6) (i j : Nat) (b : Byte) (hi : i < 6) :
    chordByte (v.setIfInBounds i b) j = if i = j then b else chordByte v j := by
  unfold chordByte
  rw [Vector.toList_setIfInBounds, List.getD_eq_getElem?_getD, List.getElem?_set,
    Vector.length_toList]
  by_cases hij : i = j
  · rw [if_pos hij, if_pos hij, if_pos (hij ▸ hi)]
    rfl
  · rw [if_neg hij, if_neg hij, List.getD_eq_getElem?_getD]

theorem chordByte_replicate (i : Nat) : chordByte (Vector.replicate 6 0) i = 0 := by
  unfold chordByte
  rw [Vector.toList_replicate, List.getD_eq_getElem?_getD, List.getElem?_replicate]
  split_ifs <;> rfl

theorem toList_eq_map_chordByte (v : Vector Byte 6) :
    v.toList = (List.range 6).map (chordByte v) := by
  apply List.ext_getElem
  · rw [Vector.length_toList, List.length_map, List.length_range]
  · intro i hi _
    rw [List.getElem_map, List.getElem_range, chordByte, List.getD_eq_getElem?_getD,
      List.getElem?_eq_getElem hi]
    rfl

theorem stenoPlace_lt (mode : StenoMode) (key : Nat) (hkey : key < 42) :
    (stenoPlace mode key).1 < 6 := by
  cases mode with
  | bolt =>
    have hgroup : (((boltcode key &&& 0b11000000) >>> 6 : Byte)).toNat < 6 := by
      rw [BitVec.toNat_ushiftRight, Nat.shiftRight_eq_div_pow]
      have := (boltcode key &&& 0b11000000).isLt
      omega
    exact hgroup
  | gemini =>
    change key / 7 < 6
    omega

theorem stenoPlace_gemini_bit (key b : Nat) :
    (stenoPlace .gemini key).2.getLsbD b ↔ 6 - key % 7 = b := by
  have hbit : (stenoPlace .gemini key).2.getLsbD b = decide (6 - key % 7 = b) :=
    one_shiftLeft_getLsbD (6 - key % 7) b (by omega)
  rw [hbit, decide_eq_true_eq]

structure Gathers (chord : Vector Byte 6) (mode : StenoMode) (since : Finset Nat) : Prop where
  keys : ∀ key ∈ since, key < 42
  bits : ∀ i < 6, ∀ b, (chordByte chord i).getLsbD b = true ↔
    ∃ key ∈ since, (stenoPlace mode key).1 = i ∧ (stenoPlace mode key).2.getLsbD b = true

theorem gathers_empty (mode : StenoMode) : Gathers (Vector.replicate 6 0) mode ∅ := by
  refine ⟨by simp, fun i _ b => ?_⟩
  rw [chordByte_replicate]
  simp

namespace Gathers

variable {chord : Vector Byte 6} {mode : StenoMode} {since : Finset Nat}

theorem updateState {s : Steno} (h : Gathers s.chord s.mode since) (key : Nat) (hkey : key < 42) :
    Gathers (s.updateState key true).chord s.mode (insert key since) := by
  have hplace := stenoPlace_lt s.mode key hkey
  refine ⟨fun key' hmem => ?_, fun i hi b => ?_⟩
  · rcases Finset.mem_insert.mp hmem with rfl | hold
    · exact hkey
    · exact h.keys key' hold
  · have hbyte : chordByte (s.updateState key true).chord i =
        if (stenoPlace s.mode key).1 = i then
          chordByte s.chord (stenoPlace s.mode key).1 ||| (stenoPlace s.mode key).2
        else chordByte s.chord i :=
      chordByte_setIfInBounds _ _ _ _ hplace
    simp only [Finset.mem_insert, exists_eq_or_imp]
    rw [hbyte]
    by_cases hhere : (stenoPlace s.mode key).1 = i
    · rw [if_pos hhere, BitVec.getLsbD_or, Bool.or_eq_true, hhere, h.bits i hi b]
      simp only [true_and]
      exact or_comm
    · rw [if_neg hhere, h.bits i hi b]
      simp only [hhere, false_and, false_or]

theorem read_gemini (h : Gathers chord .gemini since) :
    readPacket .gemini (Steno.sendStenoState 6 true
      (chord.setIfInBounds 0 (chordByte chord 0 ||| 0x80))) = some (.gemini since) := by
  have hbytes : Steno.sendStenoState 6 true (chord.setIfInBounds 0 (chordByte chord 0 ||| 0x80)) =
      (List.range 6).map
        (fun i => if 0 = i then chordByte chord 0 ||| 0x80 else chordByte chord i) := by
    unfold Steno.sendStenoState
    simp only [Bool.or_true, List.filter_true]
    rw [List.take_of_length_le (by rw [Vector.length_toList]), toList_eq_map_chordByte]
    refine List.map_congr_left (fun i _ => ?_)
    exact chordByte_setIfInBounds chord 0 i _ (by decide)
  -- the highest bit of a byte is no key
  have hhigh : ∀ i < 6, (chordByte chord i).getLsbD 7 = false := by
    intro i hi
    rw [Bool.eq_false_iff]
    intro hbit
    obtain ⟨key, -, -, hkey⟩ := (h.bits i hi 7).mp hbit
    rw [stenoPlace_gemini_bit] at hkey
    omega
  have hmark : ((List.range 6).map (fun i =>
      if 0 = i then chordByte chord 0 ||| 0x80 else chordByte chord i)).map
        (fun b => b.getLsbD 7) = [true, false, false, false, false, false] := by
    have hmap : ∀ i ∈ List.range 6, (if 0 = i then chordByte chord 0 ||| 0x80
        else chordByte chord i).getLsbD 7 = decide (i = 0) := by
      intro i hi
      by_cases hzero : 0 = i
      · rw [if_pos hzero, BitVec.getLsbD_or, decide_eq_true hzero.symm]
        exact Bool.or_true _
      · rw [if_neg hzero, hhigh i (List.mem_range.mp hi), decide_eq_false (Ne.symm hzero)]
    rw [List.map_map]
    exact List.map_congr_left hmap
  unfold readPacket
  rw [hbytes, if_neg (by simp)]
  dsimp only
  rw [if_pos hmark, Option.some.injEq, StenoPacket.gemini.injEq]
  ext key
  rw [Finset.mem_filter, Finset.mem_range]
  constructor
  · rintro ⟨hkey, hbit⟩
    have hplace : key / 7 < 6 := by omega
    rw [List.getD_eq_getElem?_getD, List.getElem?_map, List.getElem?_range hplace, Option.map_some,
      Option.getD_some] at hbit
    have hbyte : (chordByte chord (key / 7)).getLsbD (6 - key % 7) := by
      by_cases hzero : 0 = key / 7
      · -- the mark is another bit
        rw [if_pos hzero, BitVec.getLsbD_or, Bool.or_eq_true] at hbit
        rcases hbit with hold | hmarked
        · rw [← hzero]
          exact hold
        · have hbelow : ∀ b < 7, (0x80 : Byte).getLsbD b = false := by decide
          rw [hbelow (6 - key % 7) (by omega)] at hmarked
          cases hmarked
      · rwa [if_neg hzero] at hbit
    obtain ⟨key', hmem, hsame, hplaced⟩ := (h.bits _ hplace _).mp hbyte
    rw [stenoPlace_gemini_bit] at hplaced
    have heq : key' = key := by
      change key' / 7 = key / 7 at hsame
      omega
    rwa [← heq]
  · intro hmem
    have hkey := h.keys key hmem
    have hplace : key / 7 < 6 := by omega
    have hbyte : (chordByte chord (key / 7)).getLsbD (6 - key % 7) := by
      exact (h.bits _ hplace _).mpr ⟨key, hmem, rfl, (stenoPlace_gemini_bit key _).mpr rfl⟩
    refine ⟨hkey, ?_⟩
    rw [List.getD_eq_getElem?_getD, List.getElem?_map, List.getElem?_range hplace, Option.map_some,
      Option.getD_some]
    by_cases hzero : 0 = key / 7
    · rw [if_pos hzero, BitVec.getLsbD_or, hzero, hbyte, Bool.true_or]
    · rw [if_neg hzero, hbyte]

end Gathers

/-! ### The codes of TX Bolt -/

theorem boltcode_eq : ∀ key < 42, ∀ j < 6, (boltcode key).getLsbD j →
    (boltcode key &&& (0xC0 : Byte)) ||| (1 : Byte) <<< j = boltcode key := by
  decide +kernel

theorem boltcode_bit : ∀ key < 42, boltcode key ≠ txbNul →
    ∃ j < 6, (boltcode key).getLsbD j := by
  decide +kernel

theorem boltcode_group : ∀ key < 42, ∀ b < 2,
    (boltcode key).getLsbD (6 + b) = (txbGetGroup (boltcode key)).testBit b := by
  decide +kernel

theorem txbGetGroup_lt : ∀ key < 42, txbGetGroup (boltcode key) < 4 := by
  decide +kernel

namespace Gathers

variable {chord : Vector Byte 6} {since : Finset Nat}

theorem group_eq (h : Gathers chord .bolt since) {key : Nat} (hmem : key ∈ since) :
    chordByte chord (txbGetGroup (boltcode key)) &&& 0xC0 = boltcode key &&& 0xC0 := by
  have hkey := h.keys key hmem
  have hplace := txbGetGroup_lt key hkey
  have hmask : ∀ b < 8, (0xC0 : Byte).getLsbD b = decide (6 ≤ b) := by decide
  apply BitVec.eq_of_getLsbD_eq
  intro b hb
  rw [BitVec.getLsbD_and, BitVec.getLsbD_and, hmask b hb]
  by_cases hhigh : 6 ≤ b
  swap
  · rw [decide_eq_false hhigh, Bool.and_false, Bool.and_false]
  rw [decide_eq_true hhigh, Bool.and_true, Bool.and_true, Bool.eq_iff_iff,
    h.bits _ (by omega) b]
  obtain ⟨t, rfl⟩ := Nat.exists_eq_add_of_le hhigh
  constructor
  · rintro ⟨key', hmem', hsame, hbit⟩
    change txbGetGroup (boltcode key') = txbGetGroup (boltcode key) at hsame
    change (boltcode key').getLsbD (6 + t) = true at hbit
    rwa [boltcode_group key' (h.keys key' hmem') t (by omega), hsame,
      ← boltcode_group key hkey t (by omega)] at hbit
  · intro hbit
    exact ⟨key, hmem, rfl, hbit⟩

theorem read_bolt (h : Gathers chord .bolt since) :
    readPacket .bolt (Steno.sendStenoState 4 false chord ++ [0]) =
      some (.bolt ((since.image boltcode).erase txbNul)) := by
  have hbody : Steno.sendStenoState 4 false chord =
      ((List.range 4).map (chordByte chord)).filter (fun b => b != 0) := by
    unfold Steno.sendStenoState
    simp only [Bool.or_false]
    rw [toList_eq_map_chordByte, ← List.map_take]
    rfl
  have hall : (Steno.sendStenoState 4 false chord).all (fun b => b != 0) = true := by
    rw [hbody, List.all_eq_true]
    intro b hb
    exact (List.mem_filter.mp hb).2
  unfold readPacket
  rw [if_neg (by simp)]
  dsimp only
  rw [List.getLast?_concat, List.dropLast_concat, if_pos ⟨rfl, hall⟩, Option.some.injEq,
    StenoPacket.bolt.injEq]
  ext code
  rw [List.mem_toFinset, List.mem_flatMap, Finset.mem_erase, Finset.mem_image, hbody]
  unfold groupCodes
  simp only [List.mem_filter, List.mem_map, List.mem_range]
  constructor
  · rintro ⟨b, ⟨⟨i, hi, rfl⟩, -⟩, j, ⟨hj, hbit⟩, rfl⟩
    obtain ⟨key, hmem, hplace, hcode⟩ := (h.bits i (by omega) j).mp hbit
    change txbGetGroup (boltcode key) = i at hplace
    change (boltcode key).getLsbD j = true at hcode
    have heq : (chordByte chord i &&& (0xC0 : Byte)) ||| (1 : Byte) <<< j = boltcode key := by
      rw [← hplace, h.group_eq hmem]
      exact boltcode_eq key (h.keys key hmem) j hj hcode
    refine ⟨?_, key, hmem, heq.symm⟩
    rw [heq]
    intro hnul
    rw [hnul, txbNul, BitVec.ofNat_eq_ofNat, BitVec.getLsbD_zero] at hcode
    cases hcode
  · rintro ⟨hnul, key, hmem, rfl⟩
    have hkey := h.keys key hmem
    obtain ⟨j, hj, hcode⟩ := boltcode_bit key hkey hnul
    have hgroup := txbGetGroup_lt key hkey
    have hbit : (chordByte chord (txbGetGroup (boltcode key))).getLsbD j :=
      (h.bits _ (by omega) j).mpr ⟨key, hmem, rfl, hcode⟩
    refine ⟨_, ⟨⟨txbGetGroup (boltcode key), hgroup, rfl⟩, ?_⟩, j, ⟨hj, hbit⟩, ?_⟩
    · rw [bne_iff_ne]
      intro hzero
      rw [hzero, BitVec.ofNat_eq_ofNat, BitVec.getLsbD_zero] at hbit
      cases hbit
    · rw [h.group_eq hmem]
      exact boltcode_eq key hkey j hj hcode

end Gathers

theorem Gathers.sendStenoChord {s : Steno} {since : Finset Nat}
    (h : Gathers s.chord s.mode since) :
    readPacket s.mode s.sendStenoChord.1 = some (StenoChord.packet s.mode since) ∧
      Gathers s.sendStenoChord.2.chord s.mode ∅ ∧ s.sendStenoChord.2.mode = s.mode ∧
      s.sendStenoChord.2.pressed = s.pressed := by
  unfold Steno.sendStenoChord
  cases hmode : s.mode with
  | bolt =>
    rw [hmode] at h
    exact ⟨h.read_bolt, gathers_empty .bolt, hmode, rfl⟩
  | gemini =>
    rw [hmode] at h
    exact ⟨h.read_gemini, gathers_empty .gemini, hmode, rfl⟩

/-! ### A key event -/

namespace Steno

def processKeys : List Nat → Bool → Steno → List Byte × Steno
  | [], _, s => ([], s)
  | key :: keys, press, s =>
    ((s.processKey key press).1 ++ (processKeys keys press (s.processKey key press).2).1,
      (processKeys keys press (s.processKey key press).2).2)

theorem processSteno_key (s : Steno) (combinedMap : Bool) (key : StenoKey) (press : Bool)
    (hcombined : ∀ i, key = .combined i → combinedMap) :
    (s.processSteno combinedMap key.keycode press).2 = s.processKeys key.parts press := by
  cases key with
  | plain key =>
    have hcode : ∀ key : Fin 42, (StenoKey.plain key).keycode ≠ qkStenoBolt ∧
        (StenoKey.plain key).keycode ≠ qkStenoGemini ∧
        ¬ qkStenoComb ≤ (StenoKey.plain key).keycode ∧
        (qkSteno ≤ (StenoKey.plain key).keycode ∧ (StenoKey.plain key).keycode ≤ stnMax) ∧
        ((StenoKey.plain key).keycode - qkSteno).toNat = key.val := by
      decide
    obtain ⟨hbolt, hgemini, hcomb, hrange, hnumber⟩ := hcode key
    unfold processSteno
    rw [if_neg hbolt, if_neg hgemini, if_neg (fun h => hcomb h.2.1), if_pos hrange, hnumber]
    simp only [StenoKey.parts, processKeys, List.append_nil]
  | combined i =>
    have hcode : ∀ i : Fin 11, (StenoKey.combined i).keycode ≠ qkStenoBolt ∧
        (StenoKey.combined i).keycode ≠ qkStenoGemini ∧
        (qkStenoComb ≤ (StenoKey.combined i).keycode ∧
          (StenoKey.combined i).keycode ≤ qkStenoCombMax) ∧
        ((StenoKey.combined i).keycode - qkStenoComb).toNat = i.val := by
      decide
    obtain ⟨hbolt, hgemini, hrange, hnumber⟩ := hcode i
    unfold processSteno
    rw [if_neg hbolt, if_neg hgemini, if_pos ⟨hcombined i rfl, hrange⟩, hnumber]
    simp only [StenoKey.parts, processKeys, List.append_nil]

theorem processSteno_mode (s : Steno) (combinedMap : Bool) (mode : StenoMode) (press : Bool) :
    (s.processSteno combinedMap mode.keycode press).2 =
      ([], if press then s.setMode mode else s) := by
  cases mode with
  | bolt => rfl
  | gemini => rfl

theorem processKeys_press (keys : List Nat) (hkeys : ∀ key ∈ keys, key < 42) :
    ∀ (s : Steno) (since : Finset Nat), Gathers s.chord s.mode since →
      (s.processKeys keys true).1 = [] ∧ (s.processKeys keys true).2.mode = s.mode ∧
      Gathers (s.processKeys keys true).2.chord s.mode (since ∪ keys.toFinset) ∧
      (s.processKeys keys true).2.pressed = s.pressed + BitVec.ofNat 8 keys.length := by
  induction keys with
  | nil =>
    intro s since h
    refine ⟨rfl, rfl, ?_, ?_⟩
    · rw [List.toFinset_nil, Finset.union_empty]
      exact h
    · exact (BitVec.add_zero s.pressed).symm
  | cons key keys ih =>
    intro s since h
    have hfirst := h.updateState key (hkeys key List.mem_cons_self)
    obtain ⟨hsent, hmode, hgathers, hpressed⟩ := ih
      (fun key' hmem => hkeys key' (List.mem_cons_of_mem key hmem)) (s.processKey key true).2
      (insert key since) hfirst
    refine ⟨hsent, hmode, ?_, ?_⟩
    · have hunion : since ∪ (key :: keys).toFinset = insert key since ∪ keys.toFinset := by
        ext key'
        simp only [Finset.mem_union, Finset.mem_insert, List.mem_toFinset, List.mem_cons]
        tauto
      rw [hunion]
      exact hgathers
    · have hcount : (s.processKey key true).2.pressed = s.pressed + 1 := rfl
      rw [processKeys, hpressed, hcount, List.length_cons, BitVec.ofNat_add,
        BitVec.add_comm (BitVec.ofNat 8 keys.length), ← BitVec.add_assoc]
      rfl

theorem processKey_release (s : Steno) (key n : Nat) (hn : n + 2 ≤ 127)
    (hpressed : s.pressed = BitVec.ofNat 8 (n + 2)) :
    s.processKey key false = ([], { s.updateState key false with
      pressed := BitVec.ofNat 8 (n + 1) }) := by
  have hcount : (s.updateState key false).pressed - 1 = BitVec.ofNat 8 (n + 1) := by
    change s.pressed - 1 = _
    rw [hpressed, show n + 2 = n + 1 + 1 from rfl, BitVec.ofNat_add (n + 1) 1]
    exact BitVec.add_sub_cancel _ _
  have hheld : ¬ (BitVec.ofNat 8 (n + 1)).toInt ≤ 0 := by
    have hnat : (BitVec.ofNat 8 (n + 1)).toNat = n + 1 := by
      rw [BitVec.toNat_ofNat, Nat.mod_eq_of_lt (by omega)]
    rw [BitVec.toInt_eq_toNat_of_lt (by omega), hnat]
    omega
  unfold processKey
  simp only [Bool.false_eq_true, if_false, hcount, hheld]

theorem processKey_last (s : Steno) (key : Nat) (hpressed : s.pressed = 1) :
    s.processKey key false = { s.updateState key false with pressed := 0 }.sendStenoChord := by
  have hcount : (s.updateState key false).pressed - 1 = 0 := by
    change s.pressed - 1 = 0
    rw [hpressed]
    rfl
  unfold processKey
  simp only [Bool.false_eq_true, if_false, hcount]
  rfl

theorem processKeys_release (keys : List Nat) (hne : keys ≠ []) (n : Nat) :
    ∀ (s : Steno) (since : Finset Nat), Gathers s.chord s.mode since → n + keys.length ≤ 127 →
      s.pressed = BitVec.ofNat 8 (n + keys.length) →
      readPacket s.mode (s.processKeys keys false).1 =
        (if n = 0 then some (StenoChord.packet s.mode since) else none) ∧
      (s.processKeys keys false).2.mode = s.mode ∧
      Gathers (s.processKeys keys false).2.chord s.mode (if n = 0 then ∅ else since) ∧
      (s.processKeys keys false).2.pressed = BitVec.ofNat 8 n := by
  induction keys with
  | nil => exact absurd rfl hne
  | cons key keys ih =>
    intro s since h hle hpressed
    have hchord : Gathers (s.updateState key false).chord (s.updateState key false).mode
        since := h
    rw [List.length_cons] at hle hpressed
    cases keys with
    | nil =>
      cases n with
      | zero =>
        -- nothing is held any more
        have hlast := processKey_last s key hpressed
        obtain ⟨hread, hempty, hmode, hcount⟩ :=
          Gathers.sendStenoChord (s := { s.updateState key false with pressed := 0 }) hchord
        simp only [processKeys, List.append_nil, hlast, if_true]
        exact ⟨hread, hmode, hempty, hcount⟩
      | succ n =>
        have hmore := processKey_release s key n hle hpressed
        simp only [processKeys, List.append_nil, hmore, Nat.succ_ne_zero, if_false]
        exact ⟨rfl, rfl, hchord, trivial⟩
    | cons key' keys =>
      rw [List.length_cons] at hle hpressed
      have hmore := processKey_release s key (n + keys.length) (by omega) (by
        rw [hpressed]
        rfl)
      have hrest := ih (List.cons_ne_nil key' keys) { s.updateState key false with
        pressed := BitVec.ofNat 8 (n + keys.length + 1) } since hchord
        (by rw [List.length_cons]; omega) (by rw [List.length_cons]; rfl)
      rw [processKeys, hmore]
      exact hrest

end Steno

/-! ### A run -/

namespace StenoKey

theorem parts_lt (key : StenoKey) : ∀ part ∈ key.parts, part < 42 := by
  cases key with
  | plain key =>
    intro part hpart
    rw [List.mem_singleton.mp hpart]
    exact key.isLt
  | combined i =>
    revert i
    decide

theorem parts_ne_nil (key : StenoKey) : key.parts ≠ [] := by
  cases key <;> simp [parts]

end StenoKey

namespace StenoBoard

def counted (board : StenoBoard) (held : Finset (Fin board.count)) : Nat :=
  held.sum (fun k => (board.code k).parts.length)

theorem counted_le_of (held : Finset (Fin board.count)) : board.counted held ≤ 127 :=
  (Finset.sum_le_sum_of_subset (Finset.subset_univ held)).trans board.counted_le

theorem counted_eq_zero_iff (held : Finset (Fin board.count)) :
    board.counted held = 0 ↔ held = ∅ := by
  unfold counted
  rw [Finset.sum_eq_zero_iff]
  constructor
  · intro h
    rw [Finset.eq_empty_iff_forall_notMem]
    intro k hk
    exact (board.code k).parts_ne_nil (List.length_eq_zero_iff.mp (h k hk))
  · rintro rfl k hk
    exact absurd hk (Finset.notMem_empty k)

end StenoBoard

structure Steno.Follows (s : Steno) (chord : StenoChord board) : Prop where
  mode : s.mode = chord.mode
  gathers : Gathers s.chord s.mode chord.since
  pressed : s.pressed = BitVec.ofNat 8 (board.counted chord.held)

theorem Steno.follows_init (mode : StenoMode) :
    (Steno.init mode).Follows (StenoChord.init mode : StenoChord board) := by
  refine ⟨rfl, gathers_empty mode, ?_⟩
  have hzero : board.counted ∅ = 0 := Finset.sum_empty
  change (0 : BitVec 8) = BitVec.ofNat 8 (board.counted ∅)
  rw [hzero]
  rfl

theorem Steno.Follows.step {s : Steno} {chord : StenoChord board} (h : s.Follows chord)
    (event : StenoEvent board) (halternates : chord.Alternates event) :
    readPacket (s.step event).2.1 (s.step event).2.2 = (chord.step event).2 ∧
      (s.step event).1.Follows (chord.step event).1 := by
  cases event with
  | press k =>
    have hkeys := s.processSteno_key board.combinedMap (board.code k) true (board.combined k)
    obtain ⟨hsent, hmode, hgathers, hpressed⟩ :=
      Steno.processKeys_press _ (board.code k).parts_lt s chord.since h.gathers
    rw [← hkeys] at hsent hmode hgathers hpressed
    refine ⟨?_, ?_, ?_, ?_⟩
    · change readPacket s.mode (s.processSteno _ _ _).2.1 = none
      rw [hsent]
      rfl
    · exact hmode.trans h.mode
    · change Gathers (s.processSteno _ _ _).2.2.chord (s.processSteno _ _ _).2.2.mode _
      rw [hmode]
      exact hgathers
    · have hsum : board.counted (insert k chord.held) =
          (board.code k).parts.length + board.counted chord.held :=
        Finset.sum_insert halternates
      change (s.processSteno _ _ _).2.2.pressed =
        BitVec.ofNat 8 (board.counted (insert k chord.held))
      rw [hpressed, h.pressed, hsum, BitVec.ofNat_add, BitVec.add_comm]
  | release k =>
    have hkeys := s.processSteno_key board.combinedMap (board.code k) false (board.combined k)
    have hsum : board.counted (chord.held.erase k) + (board.code k).parts.length =
        board.counted chord.held :=
      Finset.sum_erase_add chord.held _ halternates
    obtain ⟨hread, hmode, hgathers, hpressed⟩ := Steno.processKeys_release _
      (board.code k).parts_ne_nil (board.counted (chord.held.erase k)) s chord.since h.gathers
      (by rw [hsum]; exact StenoBoard.counted_le_of chord.held) (by rw [hsum]; exact h.pressed)
    rw [← hkeys] at hread hmode hgathers hpressed
    simp only [StenoBoard.counted_eq_zero_iff] at hread hgathers
    have hstep : chord.step (.release k) =
        if chord.held.erase k = ∅ then
          ({ chord with held := ∅, since := ∅ },
            some (StenoChord.packet chord.mode chord.since))
        else ({ chord with held := chord.held.erase k }, none) := rfl
    rw [hstep]
    change readPacket s.mode (s.processSteno _ _ _).2.1 = _ ∧
      (s.processSteno _ _ _).2.2.Follows _
    by_cases hnone : chord.held.erase k = ∅
    · rw [if_pos hnone] at hread hgathers ⊢
      rw [hnone] at hpressed
      refine ⟨by rw [hread, h.mode], hmode.trans h.mode, ?_, hpressed⟩
      rw [hmode]
      exact hgathers
    · rw [if_neg hnone] at hread hgathers ⊢
      refine ⟨hread, hmode.trans h.mode, ?_, hpressed⟩
      rw [hmode]
      exact hgathers
  | mode mode press =>
    have hmode := s.processSteno_mode board.combinedMap mode press
    have hsent : (s.step (.mode mode press : StenoEvent board)).2.2 = [] :=
      congrArg Prod.fst hmode
    have hstate : (s.step (.mode mode press : StenoEvent board)).1 =
        if press then s.setMode mode else s := congrArg Prod.snd hmode
    refine ⟨by rw [hsent]; rfl, ?_⟩
    rw [hstate]
    cases press with
    | true => exact ⟨rfl, gathers_empty mode, h.pressed⟩
    | false => exact h

/-- Every packet of a run is the chord that has come to an end, and there is no other. -/
theorem steno_packets_carry_chord (board : StenoBoard) (mode : StenoMode)
    (events : List (StenoEvent board))
    (halternates : Along (next StenoChord.step) StenoChord.Alternates (StenoChord.init mode)
      events) :
    (trace Steno.step (Steno.init mode) events).map (fun sent => readPacket sent.1 sent.2) =
      trace StenoChord.step (StenoChord.init mode) events := by
  have hrun := trace_related_of Steno.step StenoChord.step
    (fun sent => readPacket sent.1 sent.2) id Steno.Follows StenoChord.Alternates
    (fun _ _ event h halternates => h.step event halternates) events (Steno.init mode)
    (StenoChord.init mode) (Steno.follows_init mode) halternates
  rwa [List.map_id] at hrun

/-- The 42 keys of the chord, and behind them the 11 that are two of them. -/
def fullKey (k : Fin 53) : StenoKey :=
  if h : k.val < 42 then .plain ⟨k.val, h⟩
  else .combined ⟨k.val - 42, Nat.sub_lt_left_of_lt_add (Nat.le_of_not_lt h) k.isLt⟩

theorem fullKey_counted : (Finset.univ.sum fun k => (fullKey k).parts.length) ≤ 127 := by
  decide

/-- One key for each. -/
def fullBoard : StenoBoard where
  combinedMap := true
  count := 53
  code := fullKey
  combined _ _ _ := rfl
  counted_le := fullKey_counted

/-- STN_S1, the key that is STN_TL and STN_KL, and STN_S2. -/
def strokeKeys : Fin fullBoard.count × Fin fullBoard.count × Fin fullBoard.count :=
  (⟨7, Nat.le_of_ble_eq_true rfl⟩, ⟨43, Nat.le_of_ble_eq_true rfl⟩,
    ⟨8, Nat.le_of_ble_eq_true rfl⟩)

/-- The first two at once, and the third in the other protocol. -/
def strokes : List (StenoEvent fullBoard) :=
  [.press strokeKeys.1, .press strokeKeys.2.1, .release strokeKeys.1, .release strokeKeys.2.1,
    .mode .gemini true, .press strokeKeys.2.2, .release strokeKeys.2.2]

theorem steno_packets_carry_chord_twice :
    (trace Steno.step (Steno.init .bolt) strokes).map (fun sent => readPacket sent.1 sent.2) =
      [none, none, none, some (.bolt {txbSL, txbTL, txbKL}), none, none,
        some (.gemini {8})] := by
  have halternates : Along (next StenoChord.step) StenoChord.Alternates (StenoChord.init .bolt)
      strokes := by
    decide
  rw [steno_packets_carry_chord fullBoard .bolt strokes halternates]
  decide

end K530
