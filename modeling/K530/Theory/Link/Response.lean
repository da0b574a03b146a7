import K530.Bluetooth.Adafruit

/-!
# Answers That Fit

A part that is copied is never longer than the room there is, for that is what `min` is for,
although it has eight bits and the room may have more. But it may be longer than the payload
of a packet. If it is not, the buffer gets the payloads one after the other.

A zero is put behind them, and then the code looks at what is before it. For the first there
must be room left, and for the second there must be something. When packets stop coming,
nothing is put behind them, and the buffer is a string only if it has a zero already.

## Main definitions

* `Response.SdepEnd`, `Response.taken`: The packets of an answer, and how it ends.

## Theorems

* `Response.response_in_bounds_iff`: When `read_response` is in bounds.
* `Response.response_out_of_bounds`: An answer that is empty.
-/

namespace K530

open Checked

namespace Response

variable {size : Nat}

/-- How the packets of an answer end: with the last one, with one of another type, or with one
    that does not come. -/
inductive SdepEnd where
  | last
  | other
  | failed
deriving DecidableEq

/-- The packets of an answer, and how they end. -/
def taken : List SdepPacket → List SdepPacket × SdepEnd
  | [] => ([], .failed)
  | p :: packets =>
    if p.type ≠ sdepResponse then ([], .other)
    else if p.more then (p :: (taken packets).1, (taken packets).2)
    else ([p], .last)

/-- How far packets fill a buffer that is filled up to a place. -/
def filled (size : Nat) : Nat → List SdepPacket → Nat
  | dest, [] => dest
  | dest, p :: packets => filled size (dest + partLen size dest p) packets

/-- And with what. -/
def bytes (size : Nat) : Nat → List SdepPacket → List Byte
  | _, [] => []
  | dest, p :: packets =>
    p.payload.toList.take (partLen size dest p) ++
      bytes size (dest + partLen size dest p) packets

/-- No packet says that it is longer than a payload, where there is room for that. -/
def Short (size : Nat) : Nat → List SdepPacket → Prop
  | _, [] => True
  | dest, p :: packets =>
    (p.len.toNat ≤ sdepMaxPayload ∨ (size - dest) % 256 ≤ sdepMaxPayload) ∧
      Short size (dest + partLen size dest p) packets

/-- What has to be so at the end. -/
def EndFits (resp : Vector Byte size) (packets : List SdepPacket) : SdepEnd → Prop
  | .last => 0 < filled size 0 packets ∧ filled size 0 packets < size
  | .other => True
  | .failed => 0 ∈ bytes size 0 packets ++ resp.toList.drop (filled size 0 packets)

/-- The condition on a buffer and the packets that come. -/
def Fits (resp : Vector Byte size) (packets : List SdepPacket) : Prop :=
  Short size 0 (taken packets).1 ∧ EndFits resp (taken packets).1 (taken packets).2

/-- `read_response` stays inside the buffer and the payloads, and leaves a string. -/
def InBounds (resp : Vector Byte size) (packets : List SdepPacket) : Prop :=
  ∃ out, readResponse packets resp = some out ∧ 0 ∈ out.2.toList

/-! ### A part -/

theorem min_toNat (a b : Byte) : (min a b).toNat = Nat.min a.toNat b.toNat := by
  unfold min
  split
  · next h => exact (Nat.min_eq_left (BitVec.lt_def.mp h).le).symm
  · next h => exact (Nat.min_eq_right (BitVec.not_lt.mp h)).symm

theorem partLen_eq (size dest : Nat) (p : SdepPacket) :
    partLen size dest p = Nat.min p.len.toNat ((size - dest) % 256) := by
  have hlen : (p.len.setWidth 8).toNat = p.len.toNat := by
    rw [BitVec.toNat_setWidth]
    omega
  rw [partLen, min_toNat, hlen, BitVec.toNat_ofNat]

theorem partLen_le (size dest : Nat) (p : SdepPacket) : partLen size dest p ≤ size - dest := by
  rw [partLen_eq]
  exact (Nat.min_le_right _ _).trans (Nat.mod_le _ _)

theorem partLen_short_iff (size dest : Nat) (p : SdepPacket) :
    partLen size dest p ≤ sdepMaxPayload ↔
      p.len.toNat ≤ sdepMaxPayload ∨ (size - dest) % 256 ≤ sdepMaxPayload := by
  rw [partLen_eq]
  exact min_le_iff

theorem copyPayload_isSome_iff (p : SdepPacket) (dest : Nat) (hdest : dest ≤ size)
    (resp : Vector Byte size) :
    (copyPayload p (partLen size dest p) dest resp).isSome ↔
      partLen size dest p ≤ sdepMaxPayload := by
  have hroom := partLen_le size dest p
  unfold copyPayload
  split
  · refine (bind_isSome_iff_of (fun part hpart => ?_)).trans (readFirst_isSome_iff _ _)
    have hlen : part.length ≤ partLen size dest p := by
      unfold readFirst at hpart
      split at hpart
      · rw [← Option.some.inj hpart]
        exact List.length_take_le _ _
      · cases hpart
    exact (writeFrom_isSome_iff part dest resp hdest).mpr (by omega)
  · exact iff_of_true rfl (by omega)

theorem copyPayload_eq (p : SdepPacket) (dest : Nat) (hdest : dest ≤ size)
    (resp : Vector Byte size) (hshort : partLen size dest p ≤ sdepMaxPayload) :
    ∃ w, copyPayload p (partLen size dest p) dest resp = some w ∧
      w.toList = resp.toList.take dest ++ p.payload.toList.take (partLen size dest p) ++
        resp.toList.drop (dest + partLen size dest p) := by
  have hroom := partLen_le size dest p
  unfold copyPayload
  split
  · have hlen : (p.payload.toList.take (partLen size dest p)).length = partLen size dest p := by
      rw [List.length_take, Vector.length_toList]
      omega
    obtain ⟨w, hw, hlist⟩ := writeFrom_total (p.payload.toList.take (partLen size dest p)) dest
      resp (by omega)
    rw [hlen] at hlist
    exact ⟨w, by rw [readFirst, if_pos hshort, Option.bind_some, hw], hlist⟩
  · next hzero =>
      refine ⟨resp, rfl, ?_⟩
      rw [Nat.eq_zero_of_not_pos hzero, List.take_zero, List.append_nil, Nat.add_zero,
        List.take_append_drop]

/-! ### The first loop -/

section Taken

variable {p : SdepPacket} (packets : List SdepPacket)

theorem taken_other (htype : p.type ≠ sdepResponse) : taken (p :: packets) = ([], .other) :=
  if_pos htype

theorem taken_more (htype : ¬ p.type ≠ sdepResponse) (hmore : p.more) :
    taken (p :: packets) = (p :: (taken packets).1, (taken packets).2) := by
  rw [taken, if_neg htype, if_pos hmore]

theorem taken_last (htype : ¬ p.type ≠ sdepResponse) (hlast : ¬ p.more) :
    taken (p :: packets) = ([p], .last) := by
  rw [taken, if_neg htype, if_neg hlast]

end Taken

theorem le_filled (size : Nat) (packets : List SdepPacket) (dest : Nat) :
    dest ≤ filled size dest packets := by
  induction packets generalizing dest with
  | nil => exact Nat.le_refl dest
  | cons p packets ih => exact (Nat.le_add_right _ _).trans (ih _)

def leave (dest : Nat) (resp : Vector Byte size) :
    SdepEnd → Option (Option Nat × Vector Byte size)
  | .last => some (some dest, resp)
  | .other => (store resp 0 0).map (fun resp => (none, resp))
  | .failed => some (none, resp)

theorem receive_eq (packets : List SdepPacket) (dest : Nat) (hdest : dest ≤ size)
    (resp : Vector Byte size) (hshort : Short size dest (taken packets).1) :
    ∃ w, receive packets dest resp =
        leave (filled size dest (taken packets).1) w (taken packets).2 ∧
      w.toList = resp.toList.take dest ++ bytes size dest (taken packets).1 ++
        resp.toList.drop (filled size dest (taken packets).1) := by
  induction packets generalizing dest resp with
  | nil =>
    refine ⟨resp, rfl, ?_⟩
    show resp.toList = resp.toList.take dest ++ [] ++ resp.toList.drop dest
    rw [List.append_nil, List.take_append_drop]
  | cons p packets ih =>
    have hroom := partLen_le size dest p
    rw [receive]
    by_cases htype : p.type ≠ sdepResponse
    · rw [taken_other packets htype, if_pos htype]
      refine ⟨resp, rfl, ?_⟩
      show resp.toList = resp.toList.take dest ++ [] ++ resp.toList.drop dest
      rw [List.append_nil, List.take_append_drop]
    rw [if_neg htype]
    by_cases hmore : p.more
    · rw [taken_more packets htype hmore] at hshort ⊢
      have hpart := (partLen_short_iff size dest p).mpr hshort.1
      obtain ⟨v, hv, hcopied⟩ := copyPayload_eq p dest hdest resp hpart
      obtain ⟨w, hw, hrest⟩ := ih (dest + partLen size dest p) (by omega) v hshort.2
      refine ⟨w, by rw [hv, Option.bind_some, if_pos hmore, hw]; rfl, ?_⟩
      -- what the next parts leave alone is what is there after this one
      have hboth : (resp.toList.take dest ++
          p.payload.toList.take (partLen size dest p)).length =
            dest + partLen size dest p := by
        rw [List.length_append, List.length_take, List.length_take, Vector.length_toList,
          Vector.length_toList]
        omega
      have hfilled := le_filled size (taken packets).1 (dest + partLen size dest p)
      have hfirst : v.toList.take (dest + partLen size dest p) =
          resp.toList.take dest ++ p.payload.toList.take (partLen size dest p) := by
        rw [hcopied, List.take_left' hboth]
      have hbehind : v.toList.drop (filled size (dest + partLen size dest p) (taken packets).1) =
          resp.toList.drop (filled size (dest + partLen size dest p) (taken packets).1) := by
        rw [hcopied, List.drop_append, List.drop_of_length_le (by rw [hboth]; exact hfilled),
          List.nil_append, List.drop_drop, hboth, Nat.add_sub_cancel' hfilled]
      rw [hrest, hfirst, hbehind, List.append_assoc (resp.toList.take dest)]
      rfl
    · rw [taken_last packets htype hmore] at hshort ⊢
      obtain ⟨v, hv, hcopied⟩ := copyPayload_eq p dest hdest resp
        ((partLen_short_iff size dest p).mpr hshort.1)
      refine ⟨v, by rw [hv, Option.bind_some, if_neg hmore]; rfl, hcopied.trans ?_⟩
      show _ = resp.toList.take dest ++ (p.payload.toList.take (partLen size dest p) ++ []) ++ _
      rw [List.append_nil]
      rfl

theorem receive_eq_none (packets : List SdepPacket) (dest : Nat) (hdest : dest ≤ size)
    (resp : Vector Byte size) (hlong : ¬ Short size dest (taken packets).1) :
    receive packets dest resp = none := by
  induction packets generalizing dest resp with
  | nil => exact absurd trivial hlong
  | cons p packets ih =>
    have hroom := partLen_le size dest p
    rw [receive]
    by_cases htype : p.type ≠ sdepResponse
    · rw [taken_other packets htype] at hlong
      exact absurd trivial hlong
    rw [if_neg htype]
    by_cases hpart : partLen size dest p ≤ sdepMaxPayload
    · obtain ⟨v, hv, -⟩ := copyPayload_eq p dest hdest resp hpart
      have hfits := (partLen_short_iff size dest p).mp hpart
      rw [hv, Option.bind_some]
      by_cases hmore : p.more
      · rw [taken_more packets htype hmore] at hlong
        rw [if_pos hmore]
        exact ih _ (by omega) v (fun hrest => hlong ⟨hfits, hrest⟩)
      · rw [taken_last packets htype hmore] at hlong
        exact absurd ⟨hfits, trivial⟩ hlong
    · have hnone := mt (copyPayload_isSome_iff p dest hdest resp).mp hpart
      rw [Option.not_isSome_iff_eq_none.mp hnone]
      rfl

/-! ### The end of the line -/

theorem zero_mem_set (resp : Vector Byte size) (i : Nat) (hi : i < size) :
    0 ∈ (resp.setIfInBounds i 0).toList := by
  rw [Vector.toList_setIfInBounds]
  have hlen : i < resp.toList.length := by rwa [Vector.length_toList]
  exact List.mem_set hlen 0

theorem trim_total (dest : Nat) (resp : Vector Byte size) (hdest : dest < size) :
    ∃ w, trim dest resp = some w ∧ (0 ∈ resp.toList → 0 ∈ w.toList) := by
  induction dest generalizing resp with
  | zero => exact ⟨resp, rfl, id⟩
  | succ dest ih =>
    obtain ⟨c, hc⟩ := fetch_total resp (dest + 1) hdest
    rw [trim, hc, Option.bind_some]
    split
    · rw [store_of_lt resp (dest + 1) 0 hdest, Option.bind_some]
      obtain ⟨w, hw, hzero⟩ := ih (resp.setIfInBounds (dest + 1) 0) (by omega)
      exact ⟨w, hw, fun _ => hzero (zero_mem_set resp (dest + 1) hdest)⟩
    · exact ⟨resp, rfl, id⟩

theorem parse_total (dest : Nat) (resp : Vector Byte size) (hpos : 0 < dest) (hlt : dest < size) :
    ∃ out, parse dest resp = some out ∧ 0 ∈ out.2.toList := by
  obtain ⟨w, hw, hzero⟩ := trim_total (dest - 1) (resp.setIfInBounds dest 0) (by omega)
  have hend : 0 ∈ w.toList := hzero (zero_mem_set resp dest hlt)
  obtain ⟨dest, rfl⟩ : ∃ d, dest = d + 1 := ⟨dest - 1, by omega⟩
  refine ⟨(decide (lastLine (w.toList.takeWhile (fun c => c ≠ 0)) = kOK), w), ?_, hend⟩
  rw [parse, store_of_lt resp (dest + 1) 0 hlt, Option.bind_some, stepBack, Option.bind_some]
  rw [Nat.add_sub_cancel] at hw
  rw [hw, Option.bind_some, text, if_pos hend]
  rfl

theorem parse_isSome_iff (dest : Nat) (resp : Vector Byte size) :
    (parse dest resp).isSome ↔ 0 < dest ∧ dest < size := by
  constructor
  · intro h
    have hstore : (store resp dest 0).isSome := Option.isSome_of_isSome_bind h
    obtain ⟨w, hw⟩ := Option.isSome_iff_exists.mp hstore
    rw [parse, hw, Option.bind_some] at h
    refine ⟨Nat.pos_of_ne_zero ?_, (store_isSome_iff resp dest 0).mp hstore⟩
    rintro rfl
    exact Bool.noConfusion h
  · rintro ⟨hpos, hlt⟩
    obtain ⟨out, hout, -⟩ := parse_total dest resp hpos hlt
    rw [hout]
    rfl

/-- `read_response` is in bounds exactly if no part is longer than a payload, and there is
    something in the buffer at the end, and room for the zero. If the packets stop coming, the
    buffer must have a zero already. -/
theorem response_in_bounds_iff (resp : Vector Byte (size + 1)) (packets : List SdepPacket) :
    InBounds resp packets ↔ Fits resp packets := by
  unfold InBounds Fits readResponse
  by_cases hshort : Short (size + 1) 0 (taken packets).1
  · obtain ⟨w, hw, hlist⟩ := receive_eq packets 0 (Nat.zero_le _) resp hshort
    rw [hw, and_iff_right hshort]
    cases (taken packets).2 with
    | last =>
      refine Iff.trans ⟨?_, ?_⟩ (parse_isSome_iff _ w)
      · rintro ⟨out, hout, -⟩
        exact Option.isSome_iff_exists.mpr ⟨out, hout⟩
      · intro hparse
        obtain ⟨hpos, hlt⟩ := (parse_isSome_iff _ w).mp hparse
        exact parse_total _ w hpos hlt
    | other =>
      refine iff_of_true ⟨(false, w.setIfInBounds 0 0), ?_, ?_⟩ trivial
      · rw [leave, store_of_lt w 0 0 (Nat.succ_pos size)]
        rfl
      · exact zero_mem_set w 0 (Nat.succ_pos size)
    | failed =>
      have hzero : 0 ∈ w.toList ↔ EndFits resp (taken packets).1 .failed := by
        rw [hlist]
        rfl
      refine Iff.trans ⟨?_, fun h => ⟨(false, w), rfl, h⟩⟩ hzero
      rintro ⟨out, hout, hmem⟩
      cases hout
      exact hmem
  · rw [receive_eq_none packets 0 (Nat.zero_le _) resp hshort]
    refine iff_of_false ?_ (fun h => hshort h.1)
    rintro ⟨out, hout, -⟩
    cases hout

/-- An answer that is empty: the pointer is moved before the buffer. -/
theorem response_out_of_bounds :
    ¬ InBounds (Vector.replicate 128 0)
      [{ type := sdepResponse, cmdLow := 0, cmdHigh := 0x0A, len := 0, more := false,
         payload := Vector.replicate 16 0 }] := by
  rintro ⟨out, hout, -⟩
  revert hout
  simp [readResponse, receive, copyPayload, partLen_eq, parse, store, stepBack, sdepResponse]

end Response

end K530
