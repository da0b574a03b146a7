import K530.Lighting.Plugin
import K530.Theory.Lighting.Bounds

/-!
# The Plugin and the Firmware Agree

The two ends of the protocol were written apart, one in Lua and counting from
one, the other in C and counting from zero. Here they are run against each
other.

An answer is read where it was written. The buffer is zero between two packets,
so behind the modes there is a zero for the scan to stop at, and the direct mode
is the last entry before it. A page of LEDs holds eight descriptions of seven
bytes, and the positions taken out of it are those put in. A packet of colors
holds fifteen entries of four bytes, whose LED numbers exist. Pages and packets
are cut from the front, the last one short, and both loops are followed by
strong induction on what is left.

## Main definitions

* `placeOf`: The place of a LED, as the plugin keeps it.

## Theorems

* `payload_at`: What `build_packet` puts into a packet.
* `plugin_agrees`: The plugin and the firmware agree.
-/

namespace K530

open Checked

theorem Plugin.payload_at (cmd : Nat) (extraBytes : List Nat) (i : Nat) (h : i < 64) :
    (Plugin.payload (Plugin.buildPacket cmd extraBytes)).at i =
      BitVec.ofNat 8 ((cmd :: extraBytes).getD i 0) := by
  unfold Plugin.payload Plugin.buildPacket
  rw [Packet.ofList_at _ i h, List.getD_eq_getElem?_getD, List.getElem?_map,
    List.getD_eq_getElem?_getD]
  by_cases hin : i < (cmd :: extraBytes).length
  · rw [List.getElem?_append_left hin, List.getElem?_eq_getElem hin]
    rfl
  · rw [List.getElem?_append_right (by omega), List.getElem?_replicate, List.getElem?_eq_none
      (by omega)]
    by_cases hpad : i - (cmd :: extraBytes).length < 64 - (cmd :: extraBytes).length
    · rw [if_pos hpad]
      rfl
    · rw [if_neg hpad]
      rfl

namespace Firmware

variable {d : Device}

theorem rawHidReceive_answer (data : Packet) (fw handled : Firmware d)
    (h : handleCommand (data.at 0) data fw = some handled)
    (hne : data.at 0 ≠ OpenRgb.directModeSetLeds) :
    rawHidReceive data fw = some ({ handled with buffer := Packet.zero },
      some (handled.buffer.setIfInBounds 63 OpenRgb.endOfMessage)) := by
  unfold rawHidReceive
  simp (disch := omega) only [Packet.fetch_of_lt, h, store_of_lt, Option.bind_eq_bind,
    Option.bind_some, Option.pure_def]
  rw [if_pos hne]

theorem rawHidReceive_setLeds (data : Packet) (fw : Firmware d)
    (h : data.at 0 = OpenRgb.directModeSetLeds) (colors : Vector Rgb d.ledTotal)
    (hloop : loop (setLedsTurn d data) (data.at 1).toNat fw.colors = some colors) :
    rawHidReceive data fw = some ({ fw with colors }, none) := by
  have hhandler : handleCommand OpenRgb.directModeSetLeds data fw = directModeSetLeds data fw := rfl
  unfold rawHidReceive
  simp (disch := omega) only [Packet.fetch_of_lt, h, hhandler, directModeSetLeds, hloop,
    Option.bind_eq_bind, Option.bind_some, Option.pure_def]
  rw [if_neg (fun hne => hne rfl)]

theorem rawHidReceive_idle (data : Packet) (fw fw' : Firmware d) (answer : Option Packet)
    (hfw : fw.buffer = Packet.zero) (h : rawHidReceive data fw = some (fw', answer)) :
    fw'.buffer = Packet.zero := by
  have hsome : (handleCommand (data.at 0) data fw).isSome := by
    rw [← rawHidReceive_isSome_eq, h]
    rfl
  obtain ⟨handled, hhandled⟩ := Option.isSome_iff_exists.mp hsome
  by_cases hleds : data.at 0 = OpenRgb.directModeSetLeds
  · have hhandler : handleCommand OpenRgb.directModeSetLeds data fw = directModeSetLeds data fw :=
      rfl
    rw [hleds, hhandler] at hhandled
    unfold directModeSetLeds at hhandled
    simp (disch := omega) only [Packet.fetch_of_lt, Option.bind_eq_bind, Option.bind_some,
      Option.pure_def] at hhandled
    obtain ⟨colors, hcolors, -⟩ := Option.bind_eq_some_iff.mp hhandled
    rw [rawHidReceive_setLeds data fw hleds colors hcolors] at h
    simp only [Option.some.injEq, Prod.mk.injEq] at h
    rw [← h.1]
    exact hfw
  · rw [rawHidReceive_answer data fw handled hhandled hleds] at h
    simp only [Option.some.injEq, Prod.mk.injEq] at h
    rw [← h.1]

theorem handleAll_idle (packets : List Packet) :
    ∀ fw fw' : Firmware d, fw.buffer = Packet.zero → handleAll packets fw = some fw' →
      fw'.buffer = Packet.zero := by
  induction packets with
  | nil =>
    intro fw fw' hfw h
    rw [handleAll, Option.some.injEq] at h
    rwa [← h]
  | cons data packets ih =>
    intro fw fw' hfw h
    rw [handleAll] at h
    obtain ⟨handled, hhandled, hrest⟩ := Option.bind_eq_some_iff.mp h
    exact ih handled.1 fw' (rawHidReceive_idle data fw handled.1 handled.2 hfw hhandled) hrest

/-! ### Descriptions of LEDs -/

theorem ledInfoTurn_answer (colors : Vector Rgb d.ledTotal) (firstLed : Byte) (i : Nat)
    (hi : i < 8) (hled : firstLed.toNat + i < d.ledTotal) (point : LedPoint)
    (hpoint : fetch d.point (firstLed.toNat + i) = some point) (buffer : Packet) :
    ∃ answer, ledInfoTurn d colors firstLed i buffer = some answer ∧
      fetch answer (i * 7 + 1) = some point.x ∧ fetch answer (i * 7 + 2) = some point.y ∧
      ∀ j < i * 7 + 1, fetch answer j = fetch buffer j := by
  have htotal := d.ledTotal_le
  have hidx : (firstLed + BitVec.ofNat 8 i).toNat = firstLed.toNat + i := by
    rw [BitVec.toNat_add, BitVec.toNat_ofNat]
    omega
  have hdata := ledIdx_toNat i (by omega)
  obtain ⟨keycode, hkeycode⟩ := @keycodeOfLed_total d (firstLed + BitVec.ofNat 8 i)
  obtain ⟨flags, hflags⟩ := fetch_total d.ledFlags (firstLed.toNat + i) hled
  obtain ⟨color, hcolor⟩ := fetch_total colors (firstLed.toNat + i) hled
  have hturn : ledInfoTurn d colors firstLed i buffer =
      some (((((((buffer.setIfInBounds (i * 7 + 1) point.x).setIfInBounds
        (i * 7 + 2) point.y).setIfInBounds (i * 7 + 3) flags).setIfInBounds
        (i * 7 + 4) color.r).setIfInBounds (i * 7 + 5) color.g).setIfInBounds
        (i * 7 + 6) color.b).setIfInBounds (i * 7 + 7) keycode) := by
    unfold ledInfoTurn describeLed
    simp only [hidx, hdata, hkeycode, hpoint, hflags, hcolor, if_neg (Nat.not_le.mpr hled),
      ge_iff_le, Option.bind_eq_bind, Option.bind_some]
    simp (disch := omega) only [store_of_lt, Option.bind_some]
  refine ⟨_, hturn, ?_, ?_, fun j hj => ?_⟩
  · simp (disch := omega) only [fetch_setIfInBounds, if_neg, if_true]
  · simp (disch := omega) only [fetch_setIfInBounds, if_neg, if_true]
  · simp (disch := omega) only [fetch_setIfInBounds, if_neg]

theorem getLedInfo_answer (data : Packet) (fw : Firmware d) (hcount : (data.at 2).toNat ≤ 8)
    (hleds : (data.at 1).toNat + (data.at 2).toNat ≤ d.ledTotal) :
    ∃ answer, getLedInfo data fw = some answer ∧
      ∀ i < (data.at 2).toNat, ∀ point, fetch d.point ((data.at 1).toNat + i) = some point →
        fetch answer (i * 7 + 1) = some point.x ∧ fetch answer (i * 7 + 2) = some point.y := by
  obtain ⟨answer, hanswer, hinv⟩ := loop_total (ledInfoTurn d fw.colors (data.at 1))
    (fun count answer => ∀ i < count, ∀ point,
      fetch d.point ((data.at 1).toNat + i) = some point →
        fetch answer (i * 7 + 1) = some point.x ∧ fetch answer (i * 7 + 2) = some point.y)
    (data.at 2).toNat
    (fun i hi buffer hbuffer => by
      obtain ⟨point, hpoint⟩ := fetch_total d.point ((data.at 1).toNat + i) (by omega)
      obtain ⟨answer, hanswer, hx, hy, hold⟩ := ledInfoTurn_answer fw.colors (data.at 1) i
        (by omega) (by omega) point hpoint buffer
      refine ⟨answer, hanswer, fun j hj other hother => ?_⟩
      rcases Nat.lt_succ_iff_lt_or_eq.mp hj with hlt | rfl
      · rw [hold _ (by omega), hold _ (by omega)]
        exact hbuffer j hlt other hother
      · rw [hpoint, Option.some.injEq] at hother
        rw [← hother]
        exact ⟨hx, hy⟩)
    (fw.buffer.setIfInBounds 0 OpenRgb.getLedInfo) (fun i hi => absurd hi (Nat.not_lt_zero i))
  refine ⟨answer, ?_, hinv⟩
  unfold getLedInfo
  simp (disch := omega) only [Packet.fetch_of_lt, store_of_lt, Option.bind_eq_bind,
    Option.bind_some]
  exact hanswer

end Firmware

namespace Plugin

variable {d : Device}

theorem query_answer (cmd : Nat) (extraBytes : List Nat) (fw : Firmware d) (answer : Packet)
    (matrix : RgbMatrix) (hfw : fw.buffer = Packet.zero)
    (hne : BitVec.ofNat 8 cmd ≠ OpenRgb.directModeSetLeds)
    (h : Firmware.handleCommand (BitVec.ofNat 8 cmd) (payload (buildPacket cmd extraBytes)) fw =
      some { fw with buffer := answer, matrix }) :
    query cmd extraBytes fw =
      some ({ fw with matrix }, answer.setIfInBounds 63 OpenRgb.endOfMessage) := by
  have hcmd : (payload (buildPacket cmd extraBytes)).at 0 = BitVec.ofNat 8 cmd :=
    payload_at cmd extraBytes 0 (by omega)
  unfold query sendCommand
  rw [Firmware.rawHidReceive_answer _ fw { fw with buffer := answer, matrix }
    (by rw [hcmd]; exact h) (by rw [hcmd]; exact hne)]
  simp only [Option.bind_eq_bind, Option.bind_some, Option.pure_def, ← hfw]

theorem entry_answer (answer : Packet) (i : Nat) (b : Byte) (hi : i < 63)
    (h : fetch answer i = some b) :
    entry (answer.setIfInBounds 63 OpenRgb.endOfMessage) (i + 1) = b.toNat := by
  unfold entry
  rw [Nat.add_sub_cancel, Packet.at_of_fetch _ i b]
  rw [fetch_setIfInBounds _ _ _ _ (by omega), if_neg (by omega)]
  exact h

/-! ### `on_init` -/

variable (fw : Firmware d)

theorem query_deviceInfo (hfw : fw.buffer = Packet.zero) :
    ∃ resp, query 3 [] fw = some (fw, resp) ∧ entry resp 2 = d.ledTotal ∧
      entry resp 3 = d.cols * d.rows % 256 := by
  obtain ⟨answer, hanswer, hleds, hmatrix⟩ := @Firmware.getDeviceInfo_answer d fw.buffer
  have hhandler : Firmware.handleCommand OpenRgb.getDeviceInfo (payload (buildPacket 3 [])) fw =
      (Firmware.getDeviceInfo d fw.buffer).map (fun buffer => { fw with buffer }) := rfl
  rw [hanswer, Option.map_some] at hhandler
  have hquery := query_answer 3 [] fw answer fw.matrix hfw (by decide) hhandler
  refine ⟨_, hquery, ?_, ?_⟩
  · rw [entry_answer answer 1 _ (by omega) hleds, BitVec.toNat_ofNat]
    exact Nat.mod_eq_of_lt (Nat.lt_succ_of_le d.ledTotal_le)
  · rw [entry_answer answer 2 _ (by omega) hmatrix, BitVec.toNat_ofNat]

theorem lastModeByte_of_zero (resp : Packet) (count : Nat) :
    ∀ (remaining i : Nat) (last : Option Nat), count ≤ remaining →
      (∀ j < count, entry resp (i + j) ≠ 0) → (count < remaining → entry resp (i + count) = 0) →
      lastModeByte resp remaining i last =
        if count = 0 then last else some (entry resp (i + count - 1)) := by
  induction count with
  | zero =>
    intro remaining i last _ _ hzero
    cases remaining with
    | zero => rfl
    | succ remaining =>
      have hstop : entry resp i = 0 := hzero (Nat.zero_lt_succ remaining)
      rw [lastModeByte, if_neg (not_not.mpr hstop), if_pos rfl]
  | succ count ih =>
    intro remaining i last hle hne hzero
    cases remaining with
    | zero => omega
    | succ remaining =>
      have hgo : entry resp i ≠ 0 := hne 0 (Nat.zero_lt_succ count)
      rw [lastModeByte, if_pos hgo, ih remaining (i + 1) _ (by omega)
        (fun j hj => by rw [Nat.add_right_comm]; exact hne (j + 1) (by omega))
        (fun hlt => by rw [Nat.add_right_comm]; exact hzero (by omega)),
        if_neg (Nat.succ_ne_zero count)]
      by_cases hlast : count = 0
      · rw [if_pos hlast, hlast]
        rfl
      · rw [if_neg hlast]
        congr 2
        omega

theorem query_modes (hfw : fw.buffer = Packet.zero) :
    ∃ resp, query 6 [] fw = some (fw, resp) ∧
      lastModeByte resp 62 2 none = some d.direct.toNat := by
  have hfit := d.effects_fit
  obtain ⟨answer, hanswer, heffects, hdirect, hrest⟩ :=
    @Firmware.getEnabledModes_answer d fw.buffer
  have hhandler : Firmware.handleCommand OpenRgb.getEnabledModes (payload (buildPacket 6 [])) fw =
      (Firmware.getEnabledModes d fw.buffer).map (fun buffer => { fw with buffer }) := rfl
  rw [hanswer, Option.map_some] at hhandler
  have hquery := query_answer 6 [] fw answer fw.matrix hfw (by decide) hhandler
  refine ⟨_, hquery, ?_⟩
  have hnonzero : ∀ b : Byte, b ≠ 0 → b.toNat ≠ 0 := by
    intro b hb hzero
    exact hb (BitVec.eq_of_toNat_eq hzero)
  rw [lastModeByte_of_zero _ (d.effects.length + 1) 62 2 none hfit, if_neg (Nat.succ_ne_zero _)]
  · rw [show 2 + (d.effects.length + 1) - 1 = d.effects.length + 1 + 1 from by omega,
      entry_answer answer _ _ (by omega) hdirect]
  · intro j hj
    rw [Nat.add_comm 2 j]
    rcases Nat.lt_succ_iff_lt_or_eq.mp hj with hlt | rfl
    · rw [entry_answer answer (j + 1) _ (by omega) (heffects j hlt)]
      refine hnonzero _ (d.effects_ne _ ?_)
      rw [List.getD_eq_getElem?_getD, List.getElem?_eq_getElem hlt]
      exact List.getElem_mem hlt
    · rw [entry_answer answer (d.effects.length + 1) _ (by omega) hdirect]
      exact hnonzero _ d.direct_ne
  · intro hlt
    rw [show 2 + (d.effects.length + 1) = d.effects.length + 2 + 1 from by omega,
      entry_answer answer _ 0 (by omega)]
    · rfl
    · rw [hrest _ (by omega), hfw]
      exact fetch_replicate 0 _ (by omega)

def placeOf (d : Device) (k : Nat) : Option (Nat × Nat) :=
  (fetch d.point k).map (fun point => (point.x.toNat, point.y.toNat))

theorem takePositions_apply (resp : Packet) (firstLed count : Nat)
    (positions : Nat → Option (Nat × Nat)) (k : Nat) :
    takePositions resp firstLed count positions k =
      if firstLed ≤ k ∧ k < firstLed + count then
        some (entry resp ((k - firstLed) * 7 + 2), entry resp ((k - firstLed) * 7 + 3))
      else positions k := by
  unfold takePositions
  induction count with
  | zero =>
    rw [if_neg (by omega)]
    rfl
  | succ count ih =>
    rw [List.range_succ, List.foldl_append, List.foldl_cons, List.foldl_nil,
      Function.update_apply]
    by_cases hlast : k = firstLed + count
    · rw [if_pos hlast, if_pos (by omega), hlast, Nat.add_sub_cancel_left]
    · -- the last entry of the page is that of another LED
      rw [if_neg hlast, ih]
      exact if_congr ⟨fun h => ⟨h.1, by omega⟩, fun h => ⟨h.1, by omega⟩⟩ rfl rfl

theorem query_page (hfw : fw.buffer = Packet.zero) (firstLed count : Nat) (hcount : count ≤ 8)
    (hleds : firstLed + count ≤ d.ledTotal) :
    ∃ resp, query 5 [firstLed, count] fw = some (fw, resp) ∧
      ∀ k, firstLed ≤ k → k < firstLed + count →
        some (entry resp ((k - firstLed) * 7 + 2), entry resp ((k - firstLed) * 7 + 3)) =
          placeOf d k := by
  have htotal := d.ledTotal_le
  have hfirst : ((payload (buildPacket 5 [firstLed, count])).at 1).toNat = firstLed := by
    rw [payload_at 5 [firstLed, count] 1 (by omega)]
    exact Nat.mod_eq_of_lt (by omega : firstLed < 2 ^ 8)
  have hnumber : ((payload (buildPacket 5 [firstLed, count])).at 2).toNat = count := by
    rw [payload_at 5 [firstLed, count] 2 (by omega)]
    exact Nat.mod_eq_of_lt (by omega : count < 2 ^ 8)
  obtain ⟨answer, hanswer, hplaces⟩ := Firmware.getLedInfo_answer
    (payload (buildPacket 5 [firstLed, count])) fw (by omega) (by omega)
  rw [hfirst, hnumber] at hplaces
  have hhandler : Firmware.handleCommand OpenRgb.getLedInfo
      (payload (buildPacket 5 [firstLed, count])) fw =
      (Firmware.getLedInfo (payload (buildPacket 5 [firstLed, count])) fw).map
        (fun buffer => { fw with buffer }) := rfl
  rw [hanswer, Option.map_some] at hhandler
  have hquery := query_answer 5 [firstLed, count] fw answer fw.matrix hfw (by decide) hhandler
  refine ⟨_, hquery, fun k hlow hhigh => ?_⟩
  obtain ⟨point, hpoint⟩ := fetch_total d.point k (by omega)
  obtain ⟨hx, hy⟩ := hplaces (k - firstLed) (by omega) point
    (by rw [Nat.add_sub_cancel' hlow]; exact hpoint)
  rw [entry_answer answer ((k - firstLed) * 7 + 1) _ (by omega) hx,
    entry_answer answer ((k - firstLed) * 7 + 2) _ (by omega) hy]
  unfold placeOf
  rw [hpoint]
  rfl

theorem queryPositions_answer (hfw : fw.buffer = Packet.zero) (remaining : Nat) :
    ∀ (firstLed : Nat) (p : Plugin), p.ledCount = d.ledTotal →
      d.ledTotal - firstLed ≤ remaining →
      ∃ positions, queryPositions firstLed p fw =
          some ({ p with ledPositions := positions }, fw) ∧
        (∀ k < firstLed, positions k = p.ledPositions k) ∧
        ∀ k, firstLed ≤ k → k < d.ledTotal → positions k = placeOf d k := by
  induction remaining using Nat.strong_induction_on with
  | _ remaining ih =>
    intro firstLed p hcount hremaining
    rw [queryPositions]
    by_cases hmore : firstLed < p.ledCount
    · have hpage : 0 < min maxLedsPerGetInfo (p.ledCount - firstLed) ∧
          min maxLedsPerGetInfo (p.ledCount - firstLed) ≤ 8 ∧
          firstLed + min maxLedsPerGetInfo (p.ledCount - firstLed) ≤ d.ledTotal := by
        unfold maxLedsPerGetInfo
        omega
      -- a page is never empty, so what remains gets less
      rw [if_pos hmore]
      generalize min maxLedsPerGetInfo (p.ledCount - firstLed) = count at hpage
      obtain ⟨resp, hquery, hplaces⟩ := query_page fw hfw firstLed count hpage.2.1 hpage.2.2
      obtain ⟨positions, hrest, hbefore, hbehind⟩ := ih (d.ledTotal - (firstLed + count))
        (by omega) (firstLed + count)
        { p with ledPositions := takePositions resp firstLed count p.ledPositions } hcount
        (Nat.le_refl _)
      dsimp only at hrest hbefore
      refine ⟨positions, ?_, fun k hk => ?_, fun k hlow hhigh => ?_⟩
      · simp only [hquery, hrest, Option.bind_eq_bind, Option.bind_some]
      · rw [hbefore k (by omega), takePositions_apply, if_neg (by omega)]
      · by_cases hin : k < firstLed + count
        · rw [hbefore k hin, takePositions_apply, if_pos ⟨hlow, hin⟩]
          exact hplaces k hlow hin
        · exact hbehind k (by omega) hhigh
    · rw [if_neg hmore]
      exact ⟨p.ledPositions, rfl, fun _ _ => rfl, fun k hlow hhigh => by omega⟩

theorem query_setMode (hfw : fw.buffer = Packet.zero) :
    ∃ resp matrix, query 7 [0, 0, 255, d.direct.toNat, 0, 0] fw =
        some ({ fw with matrix }, resp) ∧ entry resp 63 = 50 := by
  have hmode : (payload (buildPacket 7 [0, 0, 255, d.direct.toNat, 0, 0])).at 4 = d.direct := by
    rw [payload_at _ _ 4 (by omega)]
    exact (BitVec.ofNat_toNat 8 d.direct).trans (BitVec.setWidth_eq d.direct)
  obtain ⟨matrix, hmatrix⟩ : ∃ matrix, Firmware.setMode
      (payload (buildPacket 7 [0, 0, 255, d.direct.toNat, 0, 0])) fw =
        some { fw with
          buffer := (fw.buffer.setIfInBounds 0 OpenRgb.setMode).setIfInBounds 62 OpenRgb.success,
          matrix } := by
    unfold Firmware.setMode
    simp (disch := omega) only [Packet.fetch_of_lt, hmode, store_of_lt, Option.bind_eq_bind,
      Option.bind_some, Option.pure_def, if_neg (Nat.not_le.mpr d.direct_lt), ge_iff_le]
    exact ⟨_, rfl⟩
  have hhandler : Firmware.handleCommand OpenRgb.setMode
      (payload (buildPacket 7 [0, 0, 255, d.direct.toNat, 0, 0])) fw =
        Firmware.setMode (payload (buildPacket 7 [0, 0, 255, d.direct.toNat, 0, 0])) fw := rfl
  rw [hmatrix] at hhandler
  refine ⟨_, matrix, query_answer 7 _ fw _ matrix hfw (by decide) hhandler, ?_⟩
  rw [entry_answer _ 62 OpenRgb.success (by omega)]
  · rfl
  · rw [fetch_setIfInBounds _ _ _ _ (by omega), if_pos rfl]

theorem onInit_answer (addOutput : Bool) (p : Plugin) (fw : Firmware d)
    (hfw : fw.buffer = Packet.zero) :
    ∃ positions matrix, onInit addOutput p fw =
        some ({ initialized := addOutput || p.initialized, ledCount := d.ledTotal,
                matrixSize := d.cols * d.rows % 256, directModeId := some d.direct.toNat,
                ledPositions := positions }, { fw with matrix }) ∧
      ∀ k < d.ledTotal, positions k = placeOf d k := by
  obtain ⟨devInfo, hdevInfo, hleds, hmatrixSize⟩ := query_deviceInfo fw hfw
  obtain ⟨modes, hmodes, hdirect⟩ := query_modes fw hfw
  obtain ⟨positions, hplaced, -, hplaces⟩ := queryPositions_answer fw hfw d.ledTotal 0
    { p with
      ledCount := d.ledTotal, matrixSize := d.cols * d.rows % 256,
      directModeId := some d.direct.toNat } rfl (Nat.sub_le _ _)
  obtain ⟨switched, matrix, hswitched, hsuccess⟩ := query_setMode fw hfw
  cases addOutput with
  | true =>
    refine ⟨positions, matrix, ?_, fun k hk => hplaces k (Nat.zero_le k) hk⟩
    unfold onInit
    simp only [hdevInfo, hleds, hmatrixSize, hmodes, hdirect, hplaced, hswitched, hsuccess,
      Option.bind_eq_bind, Option.bind_some]
    rfl
  | false =>
    refine ⟨positions, fw.matrix, ?_, fun k hk => hplaces k (Nat.zero_le k) hk⟩
    unfold onInit
    simp only [hdevInfo, hleds, hmatrixSize, hmodes, hdirect, hplaced, Option.bind_eq_bind,
      Option.bind_some]
    rfl

/-! ### `on_tick` -/

/-- The color of a LED in a string of bytes, missing ones being zero. -/
def triplet (bytes : List Byte) (k : Nat) : Rgb :=
  { r := bytes.getD (3 * k) 0, g := bytes.getD (3 * k + 1) 0, b := bytes.getD (3 * k + 2) 0 }

variable (bytes : List Byte)

theorem ofNat_byteOrZero (i : Nat) :
    BitVec.ofNat 8 (byteOrZero bytes (i + 1)) = bytes.getD i 0 := by
  unfold byteOrZero
  exact (BitVec.ofNat_toNat 8 _).trans (BitVec.setWidth_eq _)

theorem setLeds_at (i chunk j r : Nat) (hchunk : chunk ≤ 15) (hj : j < chunk) (hr : r < 4) :
    (payload (buildPacket 9 (setLedsArguments bytes i chunk))).at (4 * j + r + 2) =
      BitVec.ofNat 8 ([i + j, byteOrZero bytes ((i + j) * 3 + 1),
        byteOrZero bytes ((i + j) * 3 + 2), byteOrZero bytes ((i + j) * 3 + 3)].getD r 0) := by
  rw [payload_at _ _ _ (by omega)]
  unfold setLedsArguments
  rw [List.getD_cons_succ, List.getD_cons_succ,
    getD_blocks (fun j => [i + j, byteOrZero bytes ((i + j) * 3 + 1),
      byteOrZero bytes ((i + j) * 3 + 2), byteOrZero bytes ((i + j) * 3 + 3)]) 4 (fun _ => rfl) 0
      chunk j r hj hr]

theorem setLedsTurn_answer (i chunk j : Nat) (hchunk : chunk ≤ 15) (hj : j < chunk)
    (hleds : i + chunk ≤ d.ledTotal) (colors : Vector Rgb d.ledTotal) :
    Firmware.setLedsTurn d (payload (buildPacket 9 (setLedsArguments bytes i chunk))) j colors =
      some (colors.setIfInBounds (i + j) (triplet bytes (i + j))) := by
  have htotal := d.ledTotal_le
  -- the number of a LED fits in its byte
  have hled : (BitVec.ofNat 8 (i + j)).toNat = i + j :=
    Nat.mod_eq_of_lt (by omega : i + j < 2 ^ 8)
  have hcolor : triplet bytes (i + j) =
      { r := BitVec.ofNat 8 (byteOrZero bytes ((i + j) * 3 + 1)),
        g := BitVec.ofNat 8 (byteOrZero bytes ((i + j) * 3 + 2)),
        b := BitVec.ofNat 8 (byteOrZero bytes ((i + j) * 3 + 3)) } := by
    unfold triplet
    rw [ofNat_byteOrZero, ofNat_byteOrZero, ofNat_byteOrZero, Nat.mul_comm 3 (i + j)]
  unfold Firmware.setLedsTurn
  simp only [Firmware.entryIdx_toNat j (by omega), Option.bind_eq_bind]
  simp (disch := omega) only [Packet.fetch_of_lt, Option.bind_some]
  rw [setLeds_at bytes i chunk j 0 hchunk hj (by omega),
    show 4 * j + 3 = 4 * j + 1 + 2 from rfl, setLeds_at bytes i chunk j 1 hchunk hj (by omega),
    show 4 * j + 4 = 4 * j + 2 + 2 from rfl, setLeds_at bytes i chunk j 2 hchunk hj (by omega),
    show 4 * j + 5 = 4 * j + 3 + 2 from rfl, setLeds_at bytes i chunk j 3 hchunk hj (by omega),
    List.getD_cons_zero, hled, store_of_lt _ _ _ (by omega), hcolor]
  rfl

theorem sendCommand_setLeds (i chunk : Nat) (hchunk : chunk ≤ 15) (hleds : i + chunk ≤ d.ledTotal)
    (fw : Firmware d) :
    ∃ colors, sendCommand 9 (setLedsArguments bytes i chunk) fw = some ({ fw with colors }, none) ∧
      ∀ k, fetch colors k =
        if i ≤ k ∧ k < i + chunk then some (triplet bytes k) else fetch fw.colors k := by
  have hcmd : (payload (buildPacket 9 (setLedsArguments bytes i chunk))).at 0 =
      OpenRgb.directModeSetLeds := by
    rw [payload_at 9 _ 0 (by omega), List.getD_cons_zero]
    rfl
  have hnumber : ((payload (buildPacket 9 (setLedsArguments bytes i chunk))).at 1).toNat =
      chunk := by
    rw [payload_at 9 _ 1 (by omega), List.getD_cons_succ, setLedsArguments, List.getD_cons_zero,
      BitVec.toNat_ofNat]
    exact Nat.mod_eq_of_lt (by omega)
  obtain ⟨colors, hcolors, hset⟩ := loop_total
    (Firmware.setLedsTurn d (payload (buildPacket 9 (setLedsArguments bytes i chunk))))
    (fun j colors => ∀ k, fetch colors k =
      if i ≤ k ∧ k < i + j then some (triplet bytes k) else fetch fw.colors k) chunk
    (fun j hj colors hcolors => ⟨_, setLedsTurn_answer bytes i chunk j hchunk hj hleds colors, by
      intro k
      rw [fetch_setIfInBounds _ _ _ _ (by omega), hcolors k]
      by_cases hk : i + j = k
      · rw [if_pos hk, if_pos (by omega), hk]
      · rw [if_neg hk]
        exact if_congr ⟨fun h => ⟨h.1, by omega⟩, fun h => ⟨h.1, by omega⟩⟩ rfl rfl⟩)
    fw.colors (fun k => by rw [if_neg (by omega)])
  refine ⟨colors, ?_, hset⟩
  unfold sendCommand
  exact Firmware.rawHidReceive_setLeds _ fw hcmd colors (by rw [hnumber]; exact hcolors)

theorem sendColors_answer (countAvailable : Nat) (hcount : countAvailable ≤ d.ledTotal)
    (remaining : Nat) :
    ∀ (i : Nat) (fw : Firmware d), countAvailable - i ≤ remaining →
      ∃ fw', sendColors bytes countAvailable i fw = some fw' ∧
        ∀ k, fetch fw'.colors k =
          if i ≤ k ∧ k < countAvailable then some (triplet bytes k) else fetch fw.colors k := by
  induction remaining using Nat.strong_induction_on with
  | _ remaining ih =>
    intro i fw hremaining
    rw [sendColors]
    by_cases hmore : i < countAvailable
    · have hchunk : 0 < min maxLedsPerSetPacket (countAvailable - i) ∧
          min maxLedsPerSetPacket (countAvailable - i) ≤ 15 ∧
          i + min maxLedsPerSetPacket (countAvailable - i) ≤ countAvailable := by
        unfold maxLedsPerSetPacket
        omega
      -- nor is a packet of colors
      rw [if_pos hmore]
      generalize min maxLedsPerSetPacket (countAvailable - i) = chunk at hchunk
      obtain ⟨colors, hsent, hset⟩ := sendCommand_setLeds bytes i chunk hchunk.2.1
        (by omega) fw
      obtain ⟨fw', hrest, hbehind⟩ := ih (countAvailable - (i + chunk)) (by omega) (i + chunk)
        { fw with colors } (Nat.le_refl _)
      refine ⟨fw', ?_, fun k => ?_⟩
      · simp only [hsent, hrest, Option.bind_eq_bind, Option.bind_some]
      · rw [hbehind k]
        dsimp only
        rw [hset k]
        -- this packet's LEDs are not in the ones after it
        by_cases hin : i ≤ k ∧ k < i + chunk
        · rw [if_pos hin, if_neg (by omega), if_pos (by omega)]
        · rw [if_neg hin]
          exact if_congr ⟨fun h => ⟨by omega, h.2⟩, fun h => ⟨by omega, h.2⟩⟩ rfl rfl
    · rw [if_neg hmore]
      exact ⟨fw, rfl, fun k => by rw [if_neg (by omega)]⟩

theorem onTick_answer (n : Int) (bytes : List Byte) (p : Plugin) (hp : p.initialized)
    (hcount : p.ledCount = d.ledTotal) (fw : Firmware d) :
    ∃ fw', onTick (some n) (some bytes) p fw = some fw' ∧
      ∀ k < d.ledTotal, fetch fw'.colors k =
        if (k : Int) < n then some (triplet bytes k) else fetch fw.colors k := by
  unfold onTick
  rw [hp]
  by_cases hnone : n ≤ 0
  · exact ⟨fw, if_pos hnone, fun k _ => by rw [if_neg (by omega)]⟩
  · obtain ⟨fw', hsent, hset⟩ := sendColors_answer bytes (min n.toNat p.ledCount)
      (by omega) _ 0 fw (Nat.le_refl _)
    refine ⟨fw', ?_, fun k hk => ?_⟩
    · simp only [Bool.not_true, Bool.false_eq_true, if_false, if_neg hnone, hsent]
    · rw [hset k]
      exact if_congr ⟨fun h => by omega, fun h => ⟨Nat.zero_le k, by omega⟩⟩ rfl rfl

/-- The plugin and the firmware agree. Whatever the keyboard has handled
    before, `on_init` finds every LED where it is, and the direct mode; and
    whatever it handles between, a tick gives each LED its color, as far as the
    output has LEDs, and leaves the others alone. -/
theorem plugin_agrees (config : RgbConfig) (earlier : List Packet) (fw : Firmware d)
    (hfw : Firmware.handleAll earlier (Firmware.init config) = some fw) (p : Plugin)
    (n : Int) (bytes : List Byte) :
    ∃ p' fw', onInit true p fw = some (p', fw') ∧
      p'.directModeId = some d.direct.toNat ∧
      (∀ k < d.ledTotal, p'.ledPositions k =
        (fetch d.point k).map (fun point => (point.x.toNat, point.y.toNat))) ∧
      ∀ between fw₁, Firmware.handleAll between fw' = some fw₁ →
        ∃ fw₂, onTick (some n) (some bytes) p' fw₁ = some fw₂ ∧
          ∀ k < d.ledTotal, fetch fw₂.colors k =
            if (k : Int) < n then some (triplet bytes k) else fetch fw₁.colors k := by
  have hidle := Firmware.handleAll_idle earlier (Firmware.init config) fw rfl hfw
  obtain ⟨positions, matrix, hinit, hplaces⟩ := onInit_answer true p fw hidle
  refine ⟨_, _, hinit, rfl, hplaces, fun between fw₁ _ => ?_⟩
  exact onTick_answer n bytes _ (Bool.true_or p.initialized) rfl fw₁

/-- For this keyboard, just switched on. -/
theorem plugin_agrees_k530 : ∃ p' fw',
    onInit true init (Firmware.init (RgbConfig.default 2) : Firmware (Device.k530 [])) =
        some (p', fw') ∧ p'.directModeId = some 2 := by
  obtain ⟨p', fw', hinit, hmode, -⟩ := plugin_agrees (RgbConfig.default 2) []
    (Firmware.init (RgbConfig.default 2) : Firmware (Device.k530 [])) rfl init 63 []
  exact ⟨p', fw', hinit, hmode⟩

end Plugin

end K530
