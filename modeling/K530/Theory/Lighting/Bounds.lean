import K530.Lighting.OpenRgb

/-!
# Which Packets Stay in Bounds

The handlers of OpenRGB packets take counts and indexes out of the packet, and
whether they leave an array is decided by the packet alone.

Two commands can. A query for LED descriptions has room for nine of them in the
buffer, the tenth beginning at byte 64 and being as long as any. A bulk setting
has room for fifteen entries in the packet, and its LED numbers must exist.
Every other command has bounds of its own: a single LED is checked, a mode is
checked, and the names and effects fit.

## Main definitions

* `InBounds`: The packet keeps its handler inside the arrays.

## Theorems

* `keycodeOfLed_total`: Looking a LED up in the matrix faults for none.
* `rawHidReceive_isSome_iff`: Exactly the packets in bounds are handled.
-/

namespace K530

open Checked

/-- The packet keeps its handler inside the arrays. -/
def InBounds (d : Device) (data : Packet) : Prop :=
  (data.at 0 = OpenRgb.getLedInfo → (data.at 2).toNat ≤ 9) ∧
    (data.at 0 = OpenRgb.directModeSetLeds →
      (data.at 1).toNat ≤ 15 ∧
        ∀ i < (data.at 1).toNat, (data.at (4 * i + 2)).toNat < d.ledTotal)

instance (d : Device) (data : Packet) : Decidable (InBounds d data) :=
  inferInstanceAs (Decidable (_ ∧ _))

namespace Firmware

variable {d : Device}

/-! ### Descriptions -/

theorem columnOfLed_total (led : Byte) (row : Nat) (h : row < d.rows) :
    ∃ col, columnOfLed d led row = some col ∧ col ≤ d.cols := by
  unfold columnOfLed
  obtain ⟨entries, hentries⟩ := fetch_total d.matrixCo row h
  rw [hentries]
  refine search_total _ d.cols (fun col hcol => ?_)
  rw [Option.isSome_map]
  exact (fetch_isSome_iff entries col).mpr hcol

theorem rowOfLed_total (led : Byte) : ∃ row, rowOfLed d led = some row ∧ row ≤ d.rows := by
  refine search_total _ d.rows (fun row hrow => ?_)
  obtain ⟨col, hcol, -⟩ := columnOfLed_total led row hrow
  rw [hcol]
  rfl

theorem keycodeOfLed_total (led : Byte) : ∃ keycode, keycodeOfLed d led = some keycode := by
  unfold keycodeOfLed
  obtain ⟨row, hrow, hle⟩ := @rowOfLed_total d led
  rw [hrow]
  simp only [Option.bind_eq_bind, Option.bind_some]
  by_cases hnone : row ≥ d.rows
  · exact ⟨0, if_pos hnone⟩
  · rw [if_neg hnone]
    obtain ⟨col, hcol, -⟩ := columnOfLed_total led row (Nat.lt_of_not_le hnone)
    rw [hcol]
    simp only [Option.bind_some]
    by_cases hoff : col ≥ d.cols
    · exact ⟨0, if_pos hoff⟩
    · rw [if_neg hoff]
      obtain ⟨keycodes, hkeycodes⟩ := fetch_total d.baseLayer row (Nat.lt_of_not_le hnone)
      obtain ⟨keycode, hkeycode⟩ := fetch_total keycodes col (Nat.lt_of_not_le hoff)
      refine ⟨lowByte keycode, ?_⟩
      simp only [hkeycodes, hkeycode, Option.bind_some, Option.pure_def]

theorem ledIdx_toNat (i : Nat) (h : i < 37) : (BitVec.ofNat 8 i * 7).toNat = i * 7 := by
  rw [BitVec.toNat_mul, BitVec.toNat_ofNat]
  have hseven : (7 : Byte).toNat = 7 := rfl
  rw [hseven]
  omega

theorem describeLed_isSome (colors : Vector Rgb d.ledTotal) (ledIdx : Byte) (dataIdx : Nat)
    (buffer : Packet) (h : dataIdx + 6 < 64) :
    (describeLed d colors ledIdx dataIdx buffer).isSome := by
  unfold describeLed
  by_cases hled : ledIdx.toNat ≥ d.ledTotal
  · rw [if_pos hled, store_isSome_iff]
    omega
  · rw [if_neg hled]
    have hlt := Nat.lt_of_not_le hled
    obtain ⟨point, hpoint⟩ := fetch_total d.point _ hlt
    obtain ⟨flags, hflags⟩ := fetch_total d.ledFlags _ hlt
    obtain ⟨color, hcolor⟩ := fetch_total colors _ hlt
    simp (disch := omega) only [hpoint, hflags, hcolor, Option.bind_eq_bind, Option.bind_some,
      store_of_lt, Option.isSome_some]

theorem ledInfoTurn_isSome_iff (colors : Vector Rgb d.ledTotal) (firstLed : Byte) (i : Nat)
    (buffer : Packet) :
    (ledInfoTurn d colors firstLed i buffer).isSome ↔ (BitVec.ofNat 8 i * 7).toNat + 7 < 64 := by
  obtain ⟨keycode, hkeycode⟩ := @keycodeOfLed_total d (firstLed + BitVec.ofNat 8 i)
  unfold ledInfoTurn
  simp only [hkeycode, Option.bind_eq_bind, Option.bind_some]
  constructor
  · intro h
    obtain ⟨result, hresult⟩ := Option.isSome_iff_exists.mp h
    obtain ⟨written, -, hlast⟩ := Option.bind_eq_some_iff.mp hresult
    exact (store_isSome_iff written _ keycode).mp (by rw [hlast]; rfl)
  · intro h
    obtain ⟨written, hwritten⟩ := Option.isSome_iff_exists.mp
      (describeLed_isSome colors (firstLed + BitVec.ofNat 8 i) (BitVec.ofNat 8 i * 7).toNat buffer
        (by omega))
    rw [hwritten, Option.bind_some, store_isSome_iff]
    exact h

variable (data : Packet) (fw : Firmware d)

theorem getLedInfo_isSome_iff : (getLedInfo data fw).isSome ↔ (data.at 2).toNat ≤ 9 := by
  unfold getLedInfo
  simp (disch := omega) only [Packet.fetch_of_lt, store_of_lt, Option.bind_eq_bind,
    Option.bind_some]
  rw [loop_isSome_iff _ (fun i => (BitVec.ofNat 8 i * 7).toNat + 7 < 64) _
    (fun i _ buffer => ledInfoTurn_isSome_iff fw.colors (data.at 1) i buffer)]
  constructor
  · intro h
    by_contra hmore
    have htenth := h 9 (by omega)
    rw [ledIdx_toNat 9 (by omega)] at htenth
    omega
  · intro h i hi
    rw [ledIdx_toNat i (by omega)]
    omega

/-! ### Bulk settings -/

theorem entryIdx_toNat (i : Nat) (h : i < 64) : (BitVec.ofNat 8 i * 4).toNat = 4 * i := by
  rw [BitVec.toNat_mul, BitVec.toNat_ofNat]
  have hfour : (4 : Byte).toNat = 4 := rfl
  rw [hfour]
  omega

theorem setLedsTurn_isSome_iff (i : Nat) (colors : Vector Rgb d.ledTotal) :
    (setLedsTurn d data i colors).isSome ↔
      (BitVec.ofNat 8 i * 4).toNat + 5 < 64 ∧
        (data.at ((BitVec.ofNat 8 i * 4).toNat + 2)).toNat < d.ledTotal := by
  unfold setLedsTurn
  simp only [Option.bind_eq_bind]
  by_cases hin : (BitVec.ofNat 8 i * 4).toNat + 5 < 64
  · simp (disch := omega) only [Packet.fetch_of_lt, Option.bind_some, store_isSome_iff, hin,
      true_and]
  · simp only [hin, false_and, iff_false]
    intro hsome
    obtain ⟨result, hresult⟩ := Option.isSome_iff_exists.mp hsome
    obtain ⟨colorIdx, -, hresult⟩ := Option.bind_eq_some_iff.mp hresult
    obtain ⟨r, -, hresult⟩ := Option.bind_eq_some_iff.mp hresult
    obtain ⟨g, -, hresult⟩ := Option.bind_eq_some_iff.mp hresult
    obtain ⟨b, hb, -⟩ := Option.bind_eq_some_iff.mp hresult
    exact hin ((fetch_isSome_iff data _).mp (by rw [hb]; rfl))

theorem directModeSetLeds_isSome_iff :
    (directModeSetLeds data fw).isSome ↔
      (data.at 1).toNat ≤ 15 ∧
        ∀ i < (data.at 1).toNat, (data.at (4 * i + 2)).toNat < d.ledTotal := by
  have hturns := loop_isSome_iff (setLedsTurn d data) _ (data.at 1).toNat
    (fun i _ colors => setLedsTurn_isSome_iff data i colors) fw.colors
  have hresult : (directModeSetLeds data fw).isSome =
      (loop (setLedsTurn d data) (data.at 1).toNat fw.colors).isSome := by
    unfold directModeSetLeds
    simp (disch := omega) only [Packet.fetch_of_lt, Option.bind_eq_bind, Option.bind_some,
      Option.pure_def, Option.isSome_bind, Option.isSome_some, Option.any_true]
  rw [hresult, hturns]
  constructor
  · intro h
    have hfew : (data.at 1).toNat ≤ 15 := by
      by_contra hmore
      have hlast := (h 15 (by omega)).1
      rw [entryIdx_toNat 15 (by omega)] at hlast
      omega
    refine ⟨hfew, fun i hi => ?_⟩
    have hled := (h i hi).2
    rwa [entryIdx_toNat i (by omega)] at hled
  · rintro ⟨hfew, hled⟩ i hi
    rw [entryIdx_toNat i (by omega)]
    exact ⟨by omega, hled i hi⟩

/-! ### Packets -/

theorem getQmkVersion_isSome (buffer : Packet) : (getQmkVersion d buffer).isSome := by
  unfold getQmkVersion
  obtain ⟨k, copied, hcopy, -, -, -⟩ := copyUpTo_total 62 (by omega) d.qmkVersion 1
    (buffer.setIfInBounds 0 OpenRgb.getQmkVersion) (by omega)
  simp (disch := omega) only [store_of_lt, hcopy, Option.bind_eq_bind, Option.bind_some,
    Option.pure_def, Option.isSome_some]

theorem getDeviceInfo_answer (buffer : Packet) :
    ∃ answer, getDeviceInfo d buffer = some answer ∧
      fetch answer 1 = some (BitVec.ofNat 8 d.ledTotal) ∧
      fetch answer 2 = some (BitVec.ofNat 8 (d.cols * d.rows)) := by
  unfold getDeviceInfo
  simp (disch := omega) only [store_of_lt, Option.bind_eq_bind, Option.bind_some]
  obtain ⟨k, named, hproduct, hstart, hk, hbefore⟩ := copyUpTo_total 31 (by omega) d.product 3
    (((buffer.setIfInBounds 0 OpenRgb.getDeviceInfo).setIfInBounds 1
      (BitVec.ofNat 8 d.ledTotal)).setIfInBounds 2 (BitVec.ofNat 8 (d.cols * d.rows))) (by omega)
  obtain ⟨k', filled, hmanufacturer, -, -, hold⟩ := copyUpTo_total 62 (by omega) d.manufacturer
    (k + 1) (named.setIfInBounds k 0) (by omega)
  refine ⟨filled, ?_, ?_, ?_⟩
  · simp (disch := omega) only [hproduct, hmanufacturer, store_of_lt, Option.bind_some,
      Option.pure_def]
  · simp (disch := omega) only [hold, hbefore, fetch_setIfInBounds]
    rw [if_neg (by omega)]
    rfl
  · simp (disch := omega) only [hold, hbefore, fetch_setIfInBounds]
    rw [if_neg (by omega)]
    rfl

theorem getEnabledModes_answer (buffer : Packet) :
    ∃ answer, getEnabledModes d buffer = some answer ∧
      (∀ i < d.effects.length, fetch answer (i + 1) = some (d.effects.getD i 0)) ∧
      fetch answer (d.effects.length + 1) = some d.direct ∧
      ∀ i, d.effects.length + 1 < i → fetch answer i = fetch buffer i := by
  have hfit := d.effects_fit
  obtain ⟨listed, hlisted, hinv⟩ := loop_total
    (fun i (buffer : Packet) => d.effects[i]?.bind (store buffer (i + 1)))
    (fun count listed => (∀ i < count, fetch listed (i + 1) = some (d.effects.getD i 0)) ∧
      ∀ i, count < i → fetch listed i = fetch buffer i) d.effects.length
    (fun i hi listed hlisted => ⟨listed.setIfInBounds (i + 1) (d.effects.getD i 0), by
      rw [List.getD_eq_getElem?_getD, List.getElem?_eq_getElem hi, Option.bind_some,
        Option.getD_some, store_of_lt _ _ _ (by omega)], by
      refine ⟨fun j hj => ?_, fun j hj => ?_⟩
      · rw [fetch_setIfInBounds _ _ _ _ (by omega)]
        rcases Nat.lt_succ_iff_lt_or_eq.mp hj with hlt | rfl
        · rw [if_neg (by omega)]
          exact hlisted.1 j hlt
        · rw [if_pos rfl]
      · rw [fetch_setIfInBounds _ _ _ _ (by omega), if_neg (by omega)]
        exact hlisted.2 j (by omega)⟩)
    (buffer.setIfInBounds 0 OpenRgb.getEnabledModes)
    ⟨fun i hi => absurd hi (Nat.not_lt_zero i), fun i hi => by
      rw [fetch_setIfInBounds _ _ _ _ (by omega), if_neg (by omega)]⟩
  refine ⟨listed.setIfInBounds (d.effects.length + 1) d.direct, ?_, fun i hi => ?_, ?_,
    fun i hi => ?_⟩
  · unfold getEnabledModes
    simp (disch := omega) only [store_of_lt, Option.bind_eq_bind, Option.bind_some]
    rw [hlisted]
    rfl
  · rw [fetch_setIfInBounds _ _ _ _ (by omega), if_neg (by omega)]
    exact hinv.1 i hi
  · rw [fetch_setIfInBounds _ _ _ _ (by omega), if_pos rfl]
  · rw [fetch_setIfInBounds _ _ _ _ (by omega), if_neg (by omega)]
    exact hinv.2 i (by omega)

theorem setMode_isSome : (setMode data fw).isSome := by
  unfold setMode
  simp (disch := omega) only [Packet.fetch_of_lt, store_of_lt, Option.bind_eq_bind,
    Option.bind_some, Option.pure_def]
  split <;> rfl

theorem directModeSetSingleLed_isSome : (directModeSetSingleLed data fw).isSome := by
  unfold directModeSetSingleLed
  simp (disch := omega) only [Packet.fetch_of_lt, store_of_lt, Option.bind_eq_bind,
    Option.bind_some, Option.pure_def]
  split <;> rfl

theorem handleCommand_isSome (command : Byte) (data : Packet) (fw : Firmware d)
    (hinfo : command ≠ OpenRgb.getLedInfo) (hleds : command ≠ OpenRgb.directModeSetLeds) :
    (handleCommand command data fw).isSome := by
  unfold handleCommand
  simp only [hinfo, hleds, if_false]
  split_ifs
  · rw [Option.isSome_map]
    rfl
  · rw [Option.isSome_map]
    exact getQmkVersion_isSome fw.buffer
  · rw [Option.isSome_map]
    obtain ⟨answer, hanswer, -⟩ := @getDeviceInfo_answer d fw.buffer
    rw [hanswer]
    rfl
  · rw [Option.isSome_map]
    rfl
  · rw [Option.isSome_map]
    obtain ⟨answer, hanswer, -⟩ := @getEnabledModes_answer d fw.buffer
    rw [hanswer]
    rfl
  · exact setMode_isSome data fw
  · exact directModeSetSingleLed_isSome data fw
  · rfl

theorem handleCommand_isSome_iff :
    (handleCommand (data.at 0) data fw).isSome ↔ InBounds d data := by
  unfold InBounds
  by_cases hinfo : data.at 0 = OpenRgb.getLedInfo
  · have hother : OpenRgb.getLedInfo ≠ OpenRgb.directModeSetLeds := by decide
    have hhandler : (handleCommand OpenRgb.getLedInfo data fw).isSome =
        (getLedInfo data fw).isSome := Option.isSome_map
    simp only [hinfo, hother, hhandler, getLedInfo_isSome_iff, true_implies, false_implies,
      and_true]
  · by_cases hleds : data.at 0 = OpenRgb.directModeSetLeds
    · have hother : OpenRgb.directModeSetLeds ≠ OpenRgb.getLedInfo := by decide
      have hhandler : handleCommand OpenRgb.directModeSetLeds data fw =
          directModeSetLeds data fw := rfl
      simp only [hleds, hother, hhandler, directModeSetLeds_isSome_iff, true_implies,
        false_implies, true_and]
    · simp only [hinfo, hleds, false_implies, and_self, iff_true]
      exact handleCommand_isSome _ data fw hinfo hleds

theorem rawHidReceive_isSome_eq :
    (rawHidReceive data fw).isSome = (handleCommand (data.at 0) data fw).isSome := by
  unfold rawHidReceive
  simp (disch := omega) only [Packet.fetch_of_lt, store_of_lt, Option.bind_eq_bind,
    Option.bind_some, Option.pure_def]
  cases handleCommand (data.at 0) data fw with
  | none => rfl
  | some handled =>
    rw [Option.bind_some]
    split <;> rfl

/-- Exactly the packets in bounds are handled. -/
theorem rawHidReceive_isSome_iff (data : Packet) (fw : Firmware d) :
    (rawHidReceive data fw).isSome ↔ InBounds d data := by
  rw [rawHidReceive_isSome_eq]
  exact handleCommand_isSome_iff data fw

def tenLeds : Packet := Packet.ofList [OpenRgb.getLedInfo, 0, 10]

/-- The tenth description leaves the buffer. -/
theorem not_every_packet_handled :
    ¬ ∀ data, (rawHidReceive data
      (init (RgbConfig.default 2) : Firmware (Device.k530 []))).isSome := by
  intro h
  have hten := h tenLeds
  rw [rawHidReceive_isSome_eq, handleCommand_isSome_iff] at hten
  exact absurd (hten.1 (by decide)) (by decide)

end Firmware

end K530
