import K530.Quantum.Via
import Mathlib.Tactic.Ring

/-!
# Which VIA Packets Stay in Bounds

Four commands read or write a stretch of bytes of the packet, and take its size
out of the packet. There is room for twenty-eight bytes behind the header. A
larger size leaves the packet, unless nothing is taken from there: a byte that
is beyond the region of the EEPROM is not written, and so it is not read out of
the packet.

Every other command keeps to the packet whatever is in it.

## Main definitions

* `InPacket`: The packet keeps its handler inside itself.

## Theorems

* `via_in_bounds_iff`: Exactly the packets of which `InPacket` holds are handled.
* `via_in_bounds_broken`: Not every packet is.
-/

namespace K530

open Checked

namespace Via

variable {n : Nat}

/-- A byte of the packet, or of what lies behind it. -/
def byte (data : Vector Byte n) (i : Nat) : Byte := data.toList.getD i 0

theorem fetch_byte (data : Vector Byte n) (i : Nat) (h : i < n) :
    fetch data i = some (byte data i) := by
  unfold fetch byte
  have hlen : i < data.toList.length := by rwa [Vector.length_toList]
  rw [List.getD_eq_getElem?_getD, List.getElem?_eq_getElem hlen, Option.getD_some]

/-- The offset of a stretch. -/
def offsetOf (data : Vector Byte n) : Nat := (byte data 1 ++ byte data 2).toNat

/-- The size of a stretch. -/
def sizeOf (data : Vector Byte n) : Nat := (byte data 3).toNat

end Via

namespace KeymapStore

variable {n : Nat} (k : KeymapStore)

/-! ### Stretches -/

theorem readStretch_isSome_iff (e : Eeprom k.size) (addr region offset size target : Nat)
    (data : Vector Byte n) :
    (k.readStretch e addr region offset size target data).isSome ↔
      ∀ i < size, target + i < n :=
  loop_isSome_iff _ (fun i => target + i < n) size (fun _ _ _ => store_isSome_iff _ _ _) data

theorem writeStretch_isSome_iff (addr region offset size source : Nat) (data : Vector Byte n)
    (e : Eeprom k.size) :
    (k.writeStretch addr region offset size source data e).isSome ↔
      ∀ i < size, offset + i < region → source + i < n := by
  refine loop_isSome_iff _ _ size (fun i _ e => ?_) e
  by_cases hregion : offset + i < region
  · simp only [hregion, if_true, Option.isSome_map, fetch_isSome_iff, forall_const]
  · simp only [hregion, if_false, Option.isSome_some, false_implies]

theorem readStretch_packet (e : Eeprom k.size) (addr region offset size : Nat)
    (data : Vector Byte 32) :
    (k.readStretch e addr region offset size 4 data).isSome ↔ size ≤ 28 := by
  rw [readStretch_isSome_iff]
  constructor
  · intro h
    by_contra hmore
    have hlast := h 28 (by omega)
    omega
  · intro h i hi
    omega

theorem writeStretch_packet (addr region offset size : Nat) (data : Vector Byte 32)
    (e : Eeprom k.size) :
    (k.writeStretch addr region offset size 4 data e).isSome ↔
      size ≤ 28 ∨ region ≤ offset + 28 := by
  rw [writeStretch_isSome_iff]
  constructor
  · intro h
    by_contra hmore
    have hlast := h 28 (by omega) (by omega)
    omega
  · intro h i hi hregion
    omega

end KeymapStore

namespace ViaConfig

variable {n : Nat} (c : ViaConfig)

/-! ### Numbers and the matrix -/

theorem storeWord_isSome (value : BitVec 32) (start : Nat) (data : Vector Byte n)
    (h : start + 3 < n) : (storeWord value start data).isSome := by
  unfold storeWord
  simp (disch := omega) only [store_of_lt, Option.bind_eq_bind, Option.bind_some,
    Option.isSome_some]

theorem rowBytes_le : c.rowBytes ≤ c.cols / 8 + 1 := by
  unfold rowBytes
  split_ifs <;> omega

theorem storeMatrix_isSome (matrix : Nat → BitVec 32) (data : Vector Byte n) (h : 32 ≤ n) :
    (c.storeMatrix matrix data).isSome := by
  unfold storeMatrix
  by_cases hfits : (c.cols / 8 + 1) * c.rows ≤ 28
  · rw [if_pos hfits, loop_isSome_iff _ (fun _ => True)]
    · exact fun _ _ => trivial
    · intro row hrow data
      rw [iff_true, loop_isSome_iff _ (fun j => 2 + row * c.rowBytes + j < n) _
        (fun _ _ _ => store_isSome_iff _ _ _)]
      intro j hj
      have hrows : row * c.rowBytes + c.rowBytes ≤ 28 := by
        calc row * c.rowBytes + c.rowBytes = (row + 1) * c.rowBytes := by ring
          _ ≤ c.rows * c.rowBytes := Nat.mul_le_mul_right _ hrow
          _ ≤ c.rows * (c.cols / 8 + 1) := Nat.mul_le_mul_left _ c.rowBytes_le
          _ ≤ 28 := by rwa [Nat.mul_comm]
      omega
  · rw [if_neg hfits]
    rfl

variable (s : ViaState c.toKeymapStore) (data : Vector Byte n)

theorem getKeyboardValue_isSome (h : 32 ≤ n) : (c.getKeyboardValue s data).isSome := by
  unfold getKeyboardValue rawHidReceiveKb
  rw [Via.fetch_byte data 1 (by omega), Option.bind_eq_bind, Option.bind_some]
  split_ifs
  · exact storeWord_isSome _ _ _ (by omega)
  · exact storeWord_isSome _ _ _ (by omega)
  · exact c.storeMatrix_isSome _ _ h
  · rw [store_isSome_iff]
    omega

theorem setKeyboardValue_isSome (h : 32 ≤ n) : (c.setKeyboardValue s data).isSome := by
  unfold setKeyboardValue rawHidReceiveKb
  simp (disch := omega) only [Via.fetch_byte, store_of_lt, Option.bind_eq_bind, Option.bind_some,
    Option.pure_def]
  split_ifs <;> rfl

/-! ### Packets -/

theorem withStretch_eq {β : Type} (f : Nat → Nat → Option β) (data : Vector Byte n)
    (h : 32 ≤ n) : withStretch f data = f (Via.offsetOf data) (Via.sizeOf data) := by
  unfold withStretch
  simp (disch := omega) only [Via.fetch_byte, Option.bind_eq_bind, Option.bind_some]
  rfl

@[simp] theorem answered_isSome (data : Option (Vector Byte n)) :
    (c.answered s data).isSome = data.isSome :=
  Option.isSome_map

@[simp] theorem written_isSome (eeprom : Option (Eeprom c.size)) :
    (c.written s data eeprom).isSome = eeprom.isSome :=
  Option.isSome_map

theorem getProtocolVersion_isSome (h : 32 ≤ n) : (getProtocolVersion data).isSome := by
  unfold getProtocolVersion
  simp (disch := omega) only [store_of_lt, Option.bind_eq_bind, Option.bind_some,
    Option.isSome_some]

theorem dynamicKeymapGetKeycode_isSome (h : 32 ≤ n) :
    (c.dynamicKeymapGetKeycode s data).isSome := by
  unfold dynamicKeymapGetKeycode
  simp (disch := omega) only [Via.fetch_byte, store_of_lt, Option.bind_eq_bind, Option.bind_some,
    Option.isSome_some]

theorem dynamicKeymapSetKeycode_eq (h : 32 ≤ n) : c.dynamicKeymapSetKeycode s data =
      some (c.setKeycode s.eeprom (Via.byte data 1) (Via.byte data 2) (Via.byte data 3)
        (Via.byte data 4 ++ Via.byte data 5)) := by
  unfold dynamicKeymapSetKeycode
  simp (disch := omega) only [Via.fetch_byte, Option.bind_eq_bind, Option.bind_some,
    Option.pure_def]

theorem dynamicKeymapMacroGetBufferSize_isSome (h : 32 ≤ n) :
    (c.dynamicKeymapMacroGetBufferSize data).isSome := by
  unfold dynamicKeymapMacroGetBufferSize
  simp (disch := omega) only [store_of_lt, Option.bind_eq_bind, Option.bind_some,
    Option.isSome_some]

def IsStretch (id : Byte) : Prop :=
  id = Via.dynamicKeymapMacroGetBuffer ∨ id = Via.dynamicKeymapMacroSetBuffer ∨
    id = Via.dynamicKeymapGetBuffer ∨ id = Via.dynamicKeymapSetBuffer

instance : DecidablePred IsStretch :=
  fun _ => inferInstanceAs (Decidable (_ ∨ _ ∨ _ ∨ _))

theorem isSome_ite {β : Type} {p : Prop} [Decidable p] {a b : Option β} (ha : p → a.isSome)
    (hb : ¬ p → b.isSome) : (if p then a else b).isSome := by
  split
  · exact ha ‹_›
  · exact hb ‹_›

theorem handle_isSome (h : 32 ≤ n) (id : Byte) (hid : ¬ IsStretch id) :
    (c.handle s data id).isSome := by
  have hstore : ∀ (i : Nat) (b : Byte), i < 32 → (c.answered s (store data i b)).isSome := by
    intro i b hi
    rw [answered_isSome, store_isSome_iff]
    omega
  have hwritten : ∀ e, (c.written s data (some e)).isSome := fun e => rfl
  have hanswered : ∀ d : Option (Vector Byte n), d.isSome → (c.answered s d).isSome := by
    intro d hd
    rwa [answered_isSome]
  unfold handle
  refine isSome_ite (fun _ => hanswered _ (getProtocolVersion_isSome data h)) (fun _ => ?_)
  refine isSome_ite (fun _ => hanswered _ (c.getKeyboardValue_isSome s data h)) (fun _ => ?_)
  refine isSome_ite (fun _ => c.setKeyboardValue_isSome s data h) (fun _ => ?_)
  refine isSome_ite (fun _ => hanswered _ (c.dynamicKeymapGetKeycode_isSome s data h))
    (fun _ => ?_)
  refine isSome_ite (fun _ => ?_) (fun _ => ?_)
  · rw [c.dynamicKeymapSetKeycode_eq s data h]
    exact hwritten _
  refine isSome_ite (fun _ => hwritten _) (fun _ => ?_)
  refine isSome_ite (fun _ => hwritten _) (fun _ => ?_)
  refine isSome_ite (fun _ => hstore 1 _ (by omega)) (fun _ => ?_)
  refine isSome_ite (fun _ => hanswered _ (c.dynamicKeymapMacroGetBufferSize_isSome data h))
    (fun _ => ?_)
  refine isSome_ite (fun hc => absurd (Or.inl hc) hid) (fun _ => ?_)
  refine isSome_ite (fun hc => absurd (Or.inr (Or.inl hc)) hid) (fun _ => ?_)
  refine isSome_ite (fun _ => hwritten _) (fun _ => ?_)
  refine isSome_ite (fun _ => hstore 1 _ (by omega)) (fun _ => ?_)
  refine isSome_ite (fun hc => absurd (Or.inr (Or.inr (Or.inl hc))) hid) (fun _ => ?_)
  refine isSome_ite (fun hc => absurd (Or.inr (Or.inr (Or.inr hc))) hid) (fun _ => ?_)
  exact hstore 0 _ (by omega)

theorem handle_stretch :
    c.handle s data Via.dynamicKeymapMacroGetBuffer =
        c.answered s (c.dynamicKeymapMacroGetBuffer s data) ∧
      c.handle s data Via.dynamicKeymapMacroSetBuffer =
        c.written s data (c.dynamicKeymapMacroSetBuffer s data) ∧
      c.handle s data Via.dynamicKeymapGetBuffer =
        c.answered s (c.dynamicKeymapGetBuffer s data) ∧
      c.handle s data Via.dynamicKeymapSetBuffer =
        c.written s data (c.dynamicKeymapSetBuffer s data) :=
  ⟨rfl, rfl, rfl, rfl⟩

/-- The packet keeps its handler inside itself. -/
def InPacket (data : Vector Byte 32) : Prop :=
  (Via.byte data 0 = Via.dynamicKeymapGetBuffer ∨
      Via.byte data 0 = Via.dynamicKeymapMacroGetBuffer → Via.sizeOf data ≤ 28) ∧
    (Via.byte data 0 = Via.dynamicKeymapSetBuffer →
      Via.sizeOf data ≤ 28 ∨ c.keymapSize ≤ Via.offsetOf data + 28) ∧
    (Via.byte data 0 = Via.dynamicKeymapMacroSetBuffer →
      Via.sizeOf data ≤ 28 ∨ c.macroSize ≤ Via.offsetOf data + 28)

/-- A packet is handled without leaving it exactly when it reads or writes no
    stretch of more than twenty-eight bytes; or writes one, and the bytes after
    the first twenty-eight are beyond the region. -/
theorem via_in_bounds_iff (s : ViaState c.toKeymapStore) (data : Vector Byte 32) :
    (c.rawHidReceive s data).isSome ↔ c.InPacket data := by
  unfold rawHidReceive InPacket
  rw [Via.fetch_byte data 0 (by omega), Option.bind_some]
  generalize Via.byte data 0 = id
  obtain ⟨hmacroGet, hmacroSet, hget, hset⟩ := c.handle_stretch s data
  by_cases hid : IsStretch id
  · rcases hid with rfl | rfl | rfl | rfl
    · rw [hmacroGet, answered_isSome, dynamicKeymapMacroGetBuffer, withStretch_eq _ _ (by omega),
        KeymapStore.macroGetBuffer, KeymapStore.readStretch_packet]
      simp [Via.dynamicKeymapMacroGetBuffer, Via.dynamicKeymapGetBuffer,
        Via.dynamicKeymapSetBuffer, Via.dynamicKeymapMacroSetBuffer]
    · rw [hmacroSet, written_isSome, dynamicKeymapMacroSetBuffer, withStretch_eq _ _ (by omega),
        KeymapStore.macroSetBuffer, KeymapStore.writeStretch_packet]
      simp [Via.dynamicKeymapMacroGetBuffer, Via.dynamicKeymapGetBuffer,
        Via.dynamicKeymapSetBuffer, Via.dynamicKeymapMacroSetBuffer]
    · rw [hget, answered_isSome, dynamicKeymapGetBuffer, withStretch_eq _ _ (by omega),
        KeymapStore.getBuffer, KeymapStore.readStretch_packet]
      simp [Via.dynamicKeymapMacroGetBuffer, Via.dynamicKeymapGetBuffer,
        Via.dynamicKeymapSetBuffer, Via.dynamicKeymapMacroSetBuffer]
    · rw [hset, written_isSome, dynamicKeymapSetBuffer, withStretch_eq _ _ (by omega),
        KeymapStore.setBuffer, KeymapStore.writeStretch_packet, KeymapStore.eepromSize_eq]
      simp [Via.dynamicKeymapMacroGetBuffer, Via.dynamicKeymapGetBuffer,
        Via.dynamicKeymapSetBuffer, Via.dynamicKeymapMacroSetBuffer]
  · refine iff_of_true (c.handle_isSome s data (by omega) id hid) ⟨fun hc => ?_, fun hc => ?_,
      fun hc => ?_⟩
    · rcases hc with hc | hc
      · exact absurd (Or.inr (Or.inr (Or.inl hc))) hid
      · exact absurd (Or.inl hc) hid
    · exact absurd (Or.inr (Or.inr (Or.inr hc))) hid
    · exact absurd (Or.inr (Or.inl hc)) hid

instance (data : Vector Byte 32) : Decidable (c.InPacket data) :=
  inferInstanceAs (Decidable (_ ∧ _ ∧ _))

def askedTooMuch : Vector Byte 32 :=
  Vector.ofFn (fun i => [Via.dynamicKeymapGetBuffer, 0, 0, 29].getD i.val 0)

theorem via_in_bounds_broken :
    ¬ ∀ (c : ViaConfig) (s : ViaState c.toKeymapStore) (data : Vector Byte 32),
      (c.rawHidReceive s data).isSome := by
  intro h
  have hinside := (via_in_bounds_iff (byDefault (fun _ _ _ => 0) []) _ askedTooMuch).mp
    (h _ { eeprom := Vector.replicate _ (0 : Byte), uptime := 0, matrix := fun _ => 0 } _)
  exact absurd (hinside.1 (Or.inl (by decide +kernel))) (by decide +kernel)

end ViaConfig

end K530
