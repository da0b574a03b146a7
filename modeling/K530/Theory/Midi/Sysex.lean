import K530.Midi.Device

/-!
# SysEx Data There and Back

What `sysex_encode` makes is told byte by byte: `encodedAt`. A section begins with the highest
bits of its bytes, `topBits`, one place further down for every byte, and none of them is at the
top. `sysex_decode` puts each of them back to the byte it is from, so decoding what has been
encoded is the data again.

All of it is for data whose length in sections has sixteen bits.

## Main definitions

* `topBits`, `encodedAt`: The first byte of a section, and any byte.

## Theorems

* `sysexEncode_total`, `sysexDecode_total`: What the two functions leave in the buffer.
* `sysex_round_trip`: The data comes back.
-/

namespace K530

open Checked

theorem top_getLsbD (i : Nat) : (0x80 : Byte).getLsbD i = decide (i = 7) := by
  have htwo : (0x80 : Byte) = BitVec.twoPow 8 7 := rfl
  rw [htwo, BitVec.getLsbD_twoPow]
  simp [eq_comm]

theorem rest_getLsbD (i : Nat) : (0x7F : Byte).getLsbD i = decide (i < 7) := by
  by_cases hi : i < 8
  · have hall : ∀ k : Fin 8, (0x7F : Byte).getLsbD k.val = decide (k.val < 7) := by decide
    exact hall ⟨i, hi⟩
  · rw [BitVec.getLsbD_of_ge _ _ (by omega), decide_eq_false (by omega)]

def topBits (source : List Byte) (start : Nat) : Nat → Byte
  | 0 => 0
  | count + 1 =>
    topBits source start count ||| (0x80 &&& source.getD (start + count) 0) >>> (1 + count)

theorem topBits_getLsbD (source : List Byte) (start count i : Nat) :
    (topBits source start count).getLsbD i =
      (decide (i ≤ 6 ∧ 6 - i < count) && (source.getD (start + (6 - i)) 0).getLsbD 7) := by
  induction count with
  | zero => simp [topBits]
  | succ count ih =>
    rw [topBits, BitVec.getLsbD_or, ih, BitVec.getLsbD_ushiftRight, BitVec.getLsbD_and,
      top_getLsbD]
    by_cases hplace : i + count = 6
    · -- the bit of the byte that is new
      have hlast : 6 - i = count := by omega
      have hseven : 1 + count + i = 7 := by omega
      rw [hlast, hseven, decide_eq_false (by omega), decide_eq_true (by omega),
        decide_eq_true (by omega), Bool.false_and, Bool.false_or]
    · rw [decide_eq_false (p := 1 + count + i = 7) (by omega), Bool.false_and, Bool.or_false]
      congr 2
      exact propext ⟨fun h => ⟨h.1, by omega⟩, fun h => ⟨h.1, by omega⟩⟩

def encodedAt (source : List Byte) (q : Nat) : Byte :=
  if q % 8 = 0 then topBits source (q / 8 * 7) (min 7 (source.length - q / 8 * 7))
  else 0x7F &&& source.getD (q / 8 * 7 + (q % 8 - 1)) 0

def decodedAt (source : List Byte) (p : Nat) : Byte :=
  (0x7F &&& source.getD (p / 7 * 8 + p % 7 + 1) 0) |||
    0x80 &&& source.getD (p / 7 * 8) 0 <<< (1 + p % 7)

theorem getElem?_of_getD (source : List Byte) (i : Nat) (h : i < source.length) :
    source[i]? = some (source.getD i 0) := by
  rw [List.getD_eq_getElem?_getD, List.getElem?_eq_getElem h, Option.getD_some]

variable {size : Nat} (source : List Byte)

theorem encodeSection_total (i count : Nat) (hcount : count = min 7 (source.length - i * 7))
    (v : Vector Byte size) (hroom : i * 8 + count < size) :
    ∃ w, encodeSection source (i * 8) (i * 7) count v = some w ∧
      Checked.Written (encodedAt source) (i * 8) (i * 8 + count + 1) v w := by
  obtain ⟨u, hu⟩ := store_total v (i * 8) 0 (by omega)
  have hfirst : encodedAt source (i * 8) = topBits source (i * 7) count := by
    unfold encodedAt
    rw [if_pos (by omega), show i * 8 / 8 = i by omega, ← hcount]
  unfold encodeSection
  rw [hu, Option.bind_some]
  -- after `j` turns the section is there for the first `j` bytes
  refine (loop_total _ (fun j w => ∀ q, fetch w q =
    if i * 8 ≤ q ∧ q < i * 8 + j + 1 then
      some (if q = i * 8 then topBits source (i * 7) j else encodedAt source q)
    else fetch v q) count (fun j hj w hw => ?_) u (fun q => ?_)).imp
      (fun w h => ⟨h.1, fun q => ?_⟩)
  · obtain ⟨x, hx⟩ := store_total w (i * 8)
      (topBits source (i * 7) j ||| (0x80 &&& source.getD (i * 7 + j) 0) >>> (1 + j)) (by omega)
    obtain ⟨y, hy⟩ := store_total x (i * 8 + 1 + j) (0x7F &&& source.getD (i * 7 + j) 0) (by omega)
    refine ⟨y, ?_, fun q => ?_⟩
    · rw [getElem?_of_getD source _ (by omega), Option.bind_some, hw (i * 8), if_pos (by omega),
        if_pos rfl, Option.bind_some, hx, Option.bind_some, hy]
    · rw [fetch_store hy, fetch_store hx, hw q, topBits]
      by_cases hlast : i * 8 + 1 + j = q
      · have hnew : encodedAt source q = 0x7F &&& source.getD (i * 7 + j) 0 := by
          unfold encodedAt
          rw [if_neg (by omega), show q / 8 * 7 + (q % 8 - 1) = i * 7 + j by omega]
        rw [if_pos hlast, if_pos (by omega), if_neg (by omega), hnew]
      · rw [if_neg hlast]
        by_cases hq : q = i * 8
        · rw [if_pos hq.symm, if_pos (by omega), if_pos hq]
        · rw [if_neg (Ne.symm hq), if_neg hq, if_neg hq]
          exact if_congr (by omega) rfl rfl
  · rw [fetch_store hu]
    by_cases hq : q = i * 8
    · rw [if_pos hq.symm, if_pos (by omega), if_pos hq]
      rfl
    · rw [if_neg (Ne.symm hq), if_neg (by omega)]
  · rw [h.2 q]
    split
    · split
      · rename_i hq
        rw [hq, hfirst]
      · rfl
    · rfl

theorem sysexEncodedLength_eq (length : Nat) (h : length < 57344) :
    sysexEncodedLength length = length + (length + 6) / 7 := by
  unfold sysexEncodedLength
  split
  · rw [Nat.mod_eq_of_lt (by omega)]
    omega
  · rw [Nat.mod_eq_of_lt (by omega)]
    omega

theorem sysexDecodedLength_encoded_iff (length : Nat) (h : length < 2 ^ 16) :
    sysexDecodedLength (sysexEncodedLength length) = length ↔ length < 57344 := by
  unfold sysexDecodedLength sysexEncodedLength
  split <;> split <;> omega

theorem sysexEncode_total (v : Vector Byte size) (hlen : source.length < 57344)
    (hroom : source.length + (source.length + 6) / 7 ≤ size) :
    ∃ w, sysexEncode source v = some (source.length + (source.length + 6) / 7, w) ∧
      Checked.Written (encodedAt source) 0 (source.length + (source.length + 6) / 7) v w := by
  obtain ⟨w, hloop, hw⟩ := loop_written (encodedAt source)
    (fun i => encodeSection source (i * 8 % 2 ^ 16) (i * 7) 7) (· * 8)
    (fun _ _ h => Nat.mul_le_mul_right 8 h) (source.length / 7) (fun i hi v => by
      rw [Nat.mod_eq_of_lt (by omega), Nat.succ_mul]
      exact encodeSection_total source i 7 (by omega) v (by omega)) v
  rw [Nat.zero_mul] at hw
  have hwide : source.length / 7 * 8 % 2 ^ 16 = source.length / 7 * 8 :=
    Nat.mod_eq_of_lt (by omega)
  unfold sysexEncode
  rw [hloop, Option.bind_some, hwide]
  by_cases hrest : source.length % 7 = 0
  · have hend : source.length / 7 * 8 = source.length + (source.length + 6) / 7 := by omega
    rw [if_neg (not_not.mpr hrest), hend]
    exact ⟨w, rfl, hend ▸ hw⟩
  · obtain ⟨u, hu, hlast⟩ := encodeSection_total source (source.length / 7) (source.length % 7)
      (by omega) w (by omega)
    have hend : source.length / 7 * 8 + source.length % 7 + 1 =
        source.length + (source.length + 6) / 7 := by omega
    rw [if_pos hrest, hu, Option.map_some, Nat.mod_eq_of_lt (by omega), hend]
    exact ⟨u, rfl, hend ▸ hw.append hlast (Nat.zero_le _) (by omega)⟩

theorem decodeSection_total (i count : Nat) (hcount : count ≤ 7) (v : Vector Byte size)
    (hsource : i * 8 + count < source.length) (hroom : i * 7 + count ≤ size) :
    ∃ w, decodeSection source (i * 8) (i * 7) count v = some w ∧
      Checked.Written (decodedAt source) (i * 7) (i * 7 + count) v w := by
  refine loop_written (decodedAt source) _ (i * 7 + ·) (fun _ _ h => Nat.add_le_add_left h _) count
    (fun j hj v => ?_) v
  have hj7 : j < 7 := by omega
  obtain ⟨x, hx⟩ := store_total v (i * 7 + j) (0x7F &&& source.getD (i * 8 + j + 1) 0) (by omega)
  obtain ⟨y, hy⟩ := store_total x (i * 7 + j) (decodedAt source (i * 7 + j)) (by omega)
  refine ⟨y, ?_, fun p => ?_⟩
  · unfold decodedAt at hy
    rw [show (i * 7 + j) / 7 = i by omega, show (i * 7 + j) % 7 = j by omega] at hy
    rw [getElem?_of_getD source (i * 8 + j + 1) (by omega), Option.bind_some, hx, Option.bind_some,
      getElem?_of_getD source (i * 8) (by omega), Option.bind_some, fetch_store hx, if_pos rfl,
      Option.bind_some]
    exact hy
  · rw [fetch_store hy, fetch_store hx]
    by_cases hp : i * 7 + j = p
    · rw [if_pos hp, if_pos (by omega), hp]
    · rw [if_neg hp, if_neg hp, if_neg (by omega)]

theorem sysexDecode_total (v : Vector Byte size) (hroom : sysexDecodedLength source.length ≤ size) :
    ∃ w, sysexDecode source v = some (sysexDecodedLength source.length, w) ∧
      Checked.Written (decodedAt source) 0 (sysexDecodedLength source.length) v w := by
  have hlength : sysexDecodedLength source.length =
      source.length / 8 * 7 + (source.length % 8 - 1) := by
    unfold sysexDecodedLength
    split <;> omega
  rw [hlength] at hroom ⊢
  unfold sysexDecode
  by_cases hshort : source.length < 2
  · rw [if_pos hshort, show source.length / 8 * 7 + (source.length % 8 - 1) = 0 by omega]
    exact ⟨v, rfl, fun p => by rw [if_neg (by omega)]⟩
  · obtain ⟨w, hloop, hw⟩ := loop_written (decodedAt source)
      (fun i => decodeSection source (i * 8) (i * 7) 7) (· * 7)
      (fun _ _ h => Nat.mul_le_mul_right 7 h) (source.length / 8) (fun i hi v => by
        rw [Nat.succ_mul]
        exact decodeSection_total source i 7 (Nat.le_refl 7) v (by omega) (by omega)) v
    rw [Nat.zero_mul] at hw
    rw [if_neg hshort, hloop, Option.bind_some]
    by_cases hrest : source.length % 8 = 0
    · rw [if_neg (not_not.mpr hrest), hrest]
      exact ⟨w, rfl, hw⟩
    · obtain ⟨u, hu, hlast⟩ := decodeSection_total source (source.length / 8)
        (source.length % 8 - 1) (by omega) w (by omega) (by omega)
      rw [if_pos hrest, hu, Option.map_some, Nat.add_sub_assoc (by omega)]
      exact ⟨u, rfl, hw.append hlast (Nat.zero_le _) (by omega)⟩

def encodedList (source : List Byte) : List Byte :=
  (List.range (source.length + (source.length + 6) / 7)).map (encodedAt source)

@[simp] theorem encodedList_length :
    (encodedList source).length = source.length + (source.length + 6) / 7 := by
  unfold encodedList
  rw [List.length_map, List.length_range]

theorem encodedList_getElem? (q : Nat) (hq : q < (encodedList source).length) :
    (encodedList source)[q]? = some (encodedAt source q) := by
  rw [encodedList_length] at hq
  unfold encodedList
  rw [List.getElem?_map, List.getElem?_range hq, Option.map_some]

theorem encodedList_getD (q : Nat) (hq : q < (encodedList source).length) :
    (encodedList source).getD q 0 = encodedAt source q := by
  rw [List.getD_eq_getElem?_getD, encodedList_getElem? source q hq, Option.getD_some]

theorem encodedAt_lt (q : Nat) : encodedAt source q < 0x80 := by
  have htop : (encodedAt source q).getLsbD 7 = false := by
    unfold encodedAt
    split
    · rw [topBits_getLsbD, decide_eq_false (by omega), Bool.false_and]
    · rw [BitVec.getLsbD_and, rest_getLsbD, decide_eq_false (by omega), Bool.false_and]
  have hmsb : (encodedAt source q).msb = false := by
    rw [BitVec.msb_eq_getLsbD_last]
    exact htop
  rw [BitVec.lt_def]
  exact BitVec.toNat_lt_of_msb_false hmsb

theorem decodedAt_encodedList (p : Nat) (hp : p < source.length) :
    decodedAt (encodedList source) p = source.getD p 0 := by
  have hlow : encodedAt source (p / 7 * 8 + p % 7 + 1) = 0x7F &&& source.getD p 0 := by
    have hplace : p / 7 * 7 + (p % 7 + 1 - 1) = p := by omega
    have hdiv : (p / 7 * 8 + p % 7 + 1) / 8 = p / 7 := by omega
    have hmod : (p / 7 * 8 + p % 7 + 1) % 8 = p % 7 + 1 := by omega
    unfold encodedAt
    rw [hdiv, hmod, if_neg (by omega), hplace]
  have hhigh : (encodedAt source (p / 7 * 8)).getLsbD (6 - p % 7) =
      (source.getD p 0).getLsbD 7 := by
    have hplace : p / 7 * 7 + (6 - (6 - p % 7)) = p := by omega
    have hdiv : p / 7 * 8 / 8 = p / 7 := by omega
    unfold encodedAt
    rw [if_pos (by omega), hdiv, topBits_getLsbD, hplace, decide_eq_true (by omega), Bool.true_and]
  unfold decodedAt
  have hlength := encodedList_length source
  rw [encodedList_getD source _ (by omega), encodedList_getD source _ (by omega), hlow]
  refine BitVec.eq_of_getLsbD_eq (fun i hi => ?_)
  rw [BitVec.getLsbD_or, BitVec.getLsbD_and, BitVec.getLsbD_and, BitVec.getLsbD_and, rest_getLsbD,
    top_getLsbD, BitVec.getLsbD_shiftLeft]
  by_cases hseven : i = 7
  · have hbit : 7 - (1 + p % 7) = 6 - p % 7 := by omega
    rw [hseven, hbit, hhigh]
    simp
    omega
  · rw [decide_eq_true (by omega : i < 7), decide_eq_false hseven]
    simp

/-- Data that is encoded and decoded again is the data, for every length up to the one whose
    sections an index of sixteen bits can count. Nothing that is sent has its highest bit, and
    what is behind the end of either buffer is as it was. -/
theorem sysex_round_trip {size' : Nat} (encoded : Vector Byte size) (decoded : Vector Byte size')
    (hlen : source.length < 57344) (hroom : sysexEncodedLength source.length ≤ size)
    (hback : source.length ≤ size') :
    ∃ sent v w, sysexEncode source encoded = some (sent.length, v) ∧
      sent.length = sysexEncodedLength source.length ∧
      sysexDecodedLength sent.length = source.length ∧
      (∀ q, fetch v q = if q < sent.length then sent[q]? else fetch encoded q) ∧
      (∀ b ∈ sent, b < 0x80) ∧
      sysexDecode sent decoded = some (source.length, w) ∧
      ∀ p, fetch w p = if p < source.length then source[p]? else fetch decoded p := by
  have hlength := sysexEncodedLength_eq source.length hlen
  rw [hlength] at hroom
  obtain ⟨v, hv, hencoded⟩ := sysexEncode_total source encoded hlen hroom
  have hdecoded : sysexDecodedLength (encodedList source).length = source.length := by
    rw [encodedList_length]
    unfold sysexDecodedLength
    split <;> omega
  obtain ⟨w, hw, hfetch⟩ := sysexDecode_total (encodedList source) decoded (by rwa [hdecoded])
  rw [hdecoded] at hw hfetch
  rw [← encodedList_length] at hv hencoded
  refine ⟨encodedList source, v, w, hv, ?_, hdecoded, fun q => ?_, fun b hb => ?_, hw, fun p => ?_⟩
  · rw [encodedList_length, hlength]
  · rw [hencoded q]
    split_ifs with hin hq hq
    · exact (encodedList_getElem? source q hq).symm
    · omega
    · omega
    · rfl
  · obtain ⟨q, -, rfl⟩ := List.mem_map.mp hb
    exact encodedAt_lt source q
  · rw [hfetch p]
    split_ifs with hin hp hp
    · rw [decodedAt_encodedList source p hp, getElem?_of_getD source p hp]
    · omega
    · omega
    · rfl

theorem sysex_round_trip_two : ∃ (sent : List Byte) (w : Vector Byte 2),
    sysexDecode sent (Vector.replicate 2 0) = some (2, w) ∧ ∀ b ∈ sent, b < 0x80 := by
  obtain ⟨sent, -, w, -, -, -, -, hlow, hdecode, -⟩ := sysex_round_trip [0x81, 0x02]
    (Vector.replicate 3 0) (Vector.replicate 2 0) (by decide) (by decide) (by decide)
  exact ⟨sent, w, hdecode, hlow⟩

end K530
