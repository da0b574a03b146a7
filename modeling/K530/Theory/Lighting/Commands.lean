import K530.Theory.Lighting.Agree

/-!
# What the Commands Do

Two of the commands that change something, against what they say of themselves.

A bulk setting is as good as its entries sent one by one, as long as every LED it names
exists. One that does not exist is refused when it is sent alone. In a bulk setting it
is not looked at, and the handler leaves the array of colors.

A mode is set by three setters, each with guards of its own, and the answer does not ask
what they did. While the lighting is off only the speed is taken. A mode of zero is
taken for the first effect. Both are answered like a success.

## Main definitions

* `entryPacket`: An entry of a bulk setting as a packet of its own.

## Theorems

* `setsAlike_iff`: When a bulk setting does what its entries would.
* `setMode_truthful_iff`: When the answer to a setting of the mode is true.
-/

namespace K530

open Checked

namespace Firmware

variable {d : Device}

/-! ### Bulk settings -/

/-- An entry of a bulk setting as a packet of its own. -/
def entryPacket (data : Packet) (i : Nat) : Packet :=
  Packet.ofList [OpenRgb.directModeSetSingleLed, data.at (4 * i + 2), data.at (4 * i + 3),
    data.at (4 * i + 4), data.at (4 * i + 5)]

def setEntry (data : Packet) (colors : Vector Rgb d.ledTotal) (i : Nat) : Vector Rgb d.ledTotal :=
  colors.setIfInBounds (data.at (4 * i + 2)).toNat
    { r := data.at (4 * i + 3), g := data.at (4 * i + 4), b := data.at (4 * i + 5) }

/-- The packet leaves the colors as its entries would, sent one by one, and nothing else
    changes. -/
def SetsAlike (data : Packet) (fw : Firmware d) : Prop :=
  ∃ fw' single : Firmware d, rawHidReceive data fw = some (fw', none) ∧
    handleAll ((List.range (data.at 1).toNat).map (entryPacket data)) fw = some single ∧
    fw'.colors = single.colors ∧ fw' = { fw with colors := fw'.colors }

variable (data : Packet) (fw : Firmware d)

theorem rawHidReceive_setSingleLed (hcommand : data.at 0 = OpenRgb.directModeSetSingleLed) :
    ∃ answer, rawHidReceive data fw =
      some ({ fw with
        buffer := Packet.zero
        colors := fw.colors.setIfInBounds (data.at 1).toNat
          { r := data.at 2, g := data.at 3, b := data.at 4 } }, some answer) := by
  have hhandler : handleCommand (data.at 0) data fw = directModeSetSingleLed data fw := by
    rw [hcommand]
    rfl
  have hne : data.at 0 ≠ OpenRgb.directModeSetLeds := by
    rw [hcommand]
    decide
  unfold directModeSetSingleLed at hhandler
  simp (disch := omega) only [Packet.fetch_of_lt, store_of_lt, Option.bind_eq_bind,
    Option.bind_some, Option.pure_def] at hhandler
  by_cases hled : (data.at 1).toNat ≥ d.ledTotal
  · rw [if_pos hled] at hhandler
    have hkept : fw.colors.setIfInBounds (data.at 1).toNat
        { r := data.at 2, g := data.at 3, b := data.at 4 } = fw.colors :=
      Vector.setIfInBounds_eq_of_size_le hled
    have hanswer := rawHidReceive_answer data fw _ hhandler hne
    rw [hkept]
    exact ⟨_, hanswer⟩
  · rw [if_neg hled] at hhandler
    have hanswer := rawHidReceive_answer data fw _ hhandler hne
    exact ⟨_, hanswer⟩

theorem handleAll_entries (is : List Nat) (fw : Firmware d) :
    ∃ single : Firmware d, handleAll (is.map (entryPacket data)) fw = some single ∧
      single.colors = is.foldl (setEntry data) fw.colors := by
  induction is generalizing fw with
  | nil => exact ⟨fw, rfl, rfl⟩
  | cons i is ih =>
    obtain ⟨answer, hanswer⟩ := rawHidReceive_setSingleLed (entryPacket data i) fw
      (Packet.ofList_at _ 0 (by omega))
    obtain ⟨single, hsingle, hcolors⟩ := ih
      { fw with
        buffer := Packet.zero
        colors := fw.colors.setIfInBounds ((entryPacket data i).at 1).toNat
          { r := (entryPacket data i).at 2, g := (entryPacket data i).at 3,
            b := (entryPacket data i).at 4 } }
    refine ⟨single, ?_, ?_⟩
    · rw [List.map_cons, handleAll, hanswer, Option.bind_some]
      exact hsingle
    · rw [hcolors, List.foldl_cons]
      unfold setEntry entryPacket
      simp (disch := omega) only [Packet.ofList_at]
      rfl

theorem loop_setLedsTurn (count : Nat) (hcount : count ≤ 15)
    (hleds : ∀ i < count, (data.at (4 * i + 2)).toNat < d.ledTotal)
    (colors : Vector Rgb d.ledTotal) :
    loop (setLedsTurn d data) count colors =
      some ((List.range count).foldl (setEntry data) colors) := by
  induction count with
  | zero => rfl
  | succ count ih =>
    have hturn : ∀ colors : Vector Rgb d.ledTotal,
        setLedsTurn d data count colors = some (setEntry data colors count) := by
      intro colors
      unfold setLedsTurn setEntry
      rw [entryIdx_toNat count (by omega)]
      simp (disch := omega) only [Packet.fetch_of_lt, Option.bind_eq_bind, Option.bind_some]
      exact store_of_lt _ _ _ (hleds count (Nat.lt_succ_self count))
    rw [loop, ih (by omega) (fun i hi => hleds i (by omega)), Option.bind_some, hturn,
      List.range_succ, List.foldl_append]
    rfl

/-- A bulk setting of no more entries than the packet holds does what its entries would do
    one by one, and nothing else, exactly when every LED it names exists. -/
theorem setsAlike_iff (data : Packet) (fw : Firmware d)
    (hcommand : data.at 0 = OpenRgb.directModeSetLeds) (hfits : (data.at 1).toNat ≤ 15) :
    SetsAlike data fw ↔ ∀ i < (data.at 1).toNat, (data.at (4 * i + 2)).toNat < d.ledTotal := by
  constructor
  · rintro ⟨fw', single, hreceive, -⟩
    have hin := (rawHidReceive_isSome_iff data fw).mp (by rw [hreceive]; rfl)
    exact (hin.2 hcommand).2
  · intro hleds
    obtain ⟨single, hsingle, hcolors⟩ := handleAll_entries data (List.range (data.at 1).toNat) fw
    have hloop := loop_setLedsTurn data _ hfits hleds fw.colors
    refine ⟨_, single, rawHidReceive_setLeds data fw hcommand _ hloop, hsingle, ?_, rfl⟩
    exact hcolors.symm

/-- A bulk setting of one LED. -/
def setOneLed (led : Byte) : Packet :=
  Packet.ofList [OpenRgb.directModeSetLeds, 1, led, 10, 20, 30]

/-- The last LED of this keyboard. -/
theorem setsAlike_last :
    SetsAlike (setOneLed 62) (init (RgbConfig.default 2) : Firmware (Device.k530 [])) :=
  (setsAlike_iff (setOneLed 62) _ (by decide) (by decide)).mpr (by decide)

/-- The LED behind it is one that a single setting refuses. -/
theorem bulk_setting_leaves :
    ¬ SetsAlike (setOneLed 63) (init (RgbConfig.default 2) : Firmware (Device.k530 [])) := by
  rintro ⟨fw', single, hreceive, -⟩
  have hsome : (rawHidReceive (setOneLed 63)
      (init (RgbConfig.default 2) : Firmware (Device.k530 []))).isSome := by rw [hreceive]; rfl
  rw [rawHidReceive_isSome_iff] at hsome
  exact absurd ((hsome.2 (by decide)).2 0 (by decide)) (by decide)

/-! ### Modes -/

/-- The settings have the mode and the color the packet asks for. -/
def HasModeAndColor (data : Packet) (config : RgbConfig) : Prop :=
  config.mode.setWidth 8 = data.at 4 ∧
    config.hsv = { h := data.at 1, s := data.at 2, v := data.at 3 }

/-- What a query for the mode answers is what the packet asks for. -/
def Reports (info data : Packet) : Prop :=
  info.at 1 = data.at 4 ∧ info.at 2 = data.at 5 ∧
    info.at 3 = data.at 1 ∧ info.at 4 = data.at 2 ∧ info.at 5 = data.at 3

/-- The query for the mode. -/
def modeQuery : Packet := Packet.ofList [OpenRgb.getModeInfo]

/-- A setting of the mode is answered by a success exactly if a query for the mode says
    afterwards what was asked for, and answered by a failure only if nothing has changed. -/
def Truthful (data : Packet) (fw : Firmware d) : Prop :=
  ∃ (fw' asked : Firmware d) (answer info : Packet),
    rawHidReceive data fw = some (fw', some answer) ∧
    rawHidReceive modeQuery fw' = some (asked, some info) ∧
    (answer.at 62 = OpenRgb.success ↔ Reports info data) ∧
    (answer.at 62 = OpenRgb.failure → fw'.matrix = fw.matrix)

/-- The packet asks for what the setters can do: with the lighting on, for an effect that
    is compiled in and has a number of six bits. With the lighting off they keep the mode
    and the color there are. A mode that is refused must not be the one there is. -/
def Settable (data : Packet) (fw : Firmware d) : Prop :=
  if (data.at 4).toNat ≥ d.effectMax then
    ¬ (HasModeAndColor data fw.matrix.config ∧ fw.matrix.config.speed = data.at 5)
  else if fw.matrix.config.enable then data.at 4 ≠ 0 ∧ (data.at 4).toNat < 64
  else HasModeAndColor data fw.matrix.config

instance (data : Packet) (fw : Firmware d) : Decidable (Settable data fw) := by
  unfold Settable HasModeAndColor
  infer_instance

theorem rawHidReceive_modeQuery :
    ∃ asked info, rawHidReceive modeQuery fw = some (asked, some info) ∧
      (Reports info data ↔
        HasModeAndColor data fw.matrix.config ∧ fw.matrix.config.speed = data.at 5) := by
  have hhandler : handleCommand (modeQuery.at 0) modeQuery fw =
      (getModeInfo fw.matrix.config fw.buffer).map (fun buffer => { fw with buffer }) := rfl
  unfold getModeInfo at hhandler
  simp (disch := omega) only [store_of_lt, Option.bind_eq_bind, Option.bind_some,
    Option.map_some] at hhandler
  refine ⟨_, _, rawHidReceive_answer modeQuery fw _ hhandler (by decide), ?_⟩
  unfold Reports HasModeAndColor
  simp (disch := omega) only [Packet.at_setIfInBounds, if_neg, if_true]
  rw [Hsv.mk.injEq]
  grind

def settle (data : Packet) (fw : Firmware d) : RgbMatrix :=
  RgbMatrix.sethsvHelper { h := data.at 1, s := data.at 2, v := data.at 3 } (data.at 6 == 1)
    (RgbMatrix.setSpeedHelper (data.at 5) (data.at 6 == 1)
      (RgbMatrix.modeHelper d.effectMax (data.at 4) (data.at 6 == 1) fw.matrix))

theorem rawHidReceive_refused (hcommand : data.at 0 = OpenRgb.setMode)
    (hmode : (data.at 4).toNat ≥ d.effectMax) :
    ∃ answer, rawHidReceive data fw = some ({ fw with buffer := Packet.zero }, some answer) ∧
      answer.at 62 = OpenRgb.failure := by
  have hhandler : handleCommand (data.at 0) data fw = setMode data fw := by
    rw [hcommand]
    rfl
  unfold setMode at hhandler
  simp (disch := omega) only [Packet.fetch_of_lt, store_of_lt, Option.bind_eq_bind,
    Option.bind_some, Option.pure_def] at hhandler
  rw [if_pos hmode] at hhandler
  have hanswer := rawHidReceive_answer data fw _ hhandler (by rw [hcommand]; decide)
  refine ⟨_, hanswer, ?_⟩
  simp (disch := omega) only [Packet.at_setIfInBounds, if_neg, if_true]

theorem rawHidReceive_settled (hcommand : data.at 0 = OpenRgb.setMode)
    (hmode : ¬ (data.at 4).toNat ≥ d.effectMax) :
    ∃ answer, rawHidReceive data fw =
        some ({ fw with buffer := Packet.zero, matrix := settle data fw }, some answer) ∧
      answer.at 62 = OpenRgb.success := by
  have hhandler : handleCommand (data.at 0) data fw = setMode data fw := by
    rw [hcommand]
    rfl
  unfold setMode at hhandler
  simp (disch := omega) only [Packet.fetch_of_lt, store_of_lt, Option.bind_eq_bind,
    Option.bind_some, Option.pure_def] at hhandler
  rw [if_neg hmode] at hhandler
  have hanswer := rawHidReceive_answer data fw _ hhandler (by rw [hcommand]; decide)
  refine ⟨_, hanswer, ?_⟩
  simp (disch := omega) only [Packet.at_setIfInBounds, if_neg, if_true]

theorem settle_speed : (settle data fw).config.speed = data.at 5 := by
  unfold settle RgbMatrix.sethsvHelper
  split <;> rfl

theorem settle_off (hoff : fw.matrix.config.enable = false) :
    (settle data fw).config.mode = fw.matrix.config.mode ∧
      (settle data fw).config.hsv = fw.matrix.config.hsv := by
  have hmode : RgbMatrix.modeHelper d.effectMax (data.at 4) (data.at 6 == 1) fw.matrix =
      fw.matrix := by
    unfold RgbMatrix.modeHelper
    rw [hoff]
    rfl
  have hkept : settle data fw =
      RgbMatrix.setSpeedHelper (data.at 5) (data.at 6 == 1) fw.matrix := by
    unfold settle RgbMatrix.sethsvHelper
    rw [hmode]
    exact if_pos (by simp [RgbMatrix.setSpeedHelper, RgbMatrix.flag, hoff])
  rw [hkept]
  exact ⟨rfl, rfl⟩

theorem settle_on (hon : fw.matrix.config.enable)
    (hmode : ¬ (data.at 4).toNat ≥ d.effectMax) :
    (settle data fw).config.mode = (if data.at 4 < 1 then 1 else (data.at 4).setWidth 6) ∧
      (settle data fw).config.hsv = { h := data.at 1, s := data.at 2, v := data.at 3 } := by
  have hchosen : (RgbMatrix.modeHelper d.effectMax (data.at 4) (data.at 6 == 1)
      fw.matrix).config =
        { fw.matrix.config with
          mode := if data.at 4 < 1 then 1 else (data.at 4).setWidth 6 } := by
    unfold RgbMatrix.modeHelper
    rw [hon, if_neg (by decide), if_neg hmode]
    rfl
  have hlit : (RgbMatrix.setSpeedHelper (data.at 5) (data.at 6 == 1) (RgbMatrix.modeHelper
      d.effectMax (data.at 4) (data.at 6 == 1) fw.matrix)).config.enable = true :=
    (congrArg RgbConfig.enable hchosen).trans hon
  unfold settle RgbMatrix.sethsvHelper
  rw [hlit, if_neg (by decide)]
  exact ⟨congrArg RgbConfig.mode hchosen, rfl⟩

theorem chosen_eq_iff (mode : Byte) :
    ((if mode < 1 then 1 else mode.setWidth 6 : BitVec 6).setWidth 8 = mode) ↔
      mode ≠ 0 ∧ mode.toNat < 64 := by
  revert mode
  decide +kernel

theorem truthful_iff (fw fw' : Firmware d) (answer : Packet)
    (hanswer : rawHidReceive data fw = some (fw', some answer)) :
    Truthful data fw ↔
      (answer.at 62 = OpenRgb.success ↔
        HasModeAndColor data fw'.matrix.config ∧ fw'.matrix.config.speed = data.at 5) ∧
      (answer.at 62 = OpenRgb.failure → fw'.matrix = fw.matrix) := by
  obtain ⟨asked, info, hinfo, hreports⟩ := rawHidReceive_modeQuery data fw'
  constructor
  · rintro ⟨fw₁, asked₁, answer₁, info₁, hanswer₁, hinfo₁, hsuccess, hfailure⟩
    cases hanswer.symm.trans hanswer₁
    cases hinfo.symm.trans hinfo₁
    exact ⟨hsuccess.trans hreports, hfailure⟩
  · rintro ⟨hsuccess, hfailure⟩
    exact ⟨fw', asked, answer, info, hanswer, hinfo, hsuccess.trans hreports.symm, hfailure⟩

/-- The answer to a setting of the mode is true exactly when the setters can do what it
    asks for. -/
theorem setMode_truthful_iff (data : Packet) (fw : Firmware d)
    (hcommand : data.at 0 = OpenRgb.setMode) : Truthful data fw ↔ Settable data fw := by
  have hdistinct : OpenRgb.failure ≠ OpenRgb.success := by decide
  unfold Settable
  by_cases hmode : (data.at 4).toNat ≥ d.effectMax
  · obtain ⟨answer, hanswer, hfailure⟩ := rawHidReceive_refused data fw hcommand hmode
    rw [if_pos hmode, truthful_iff data fw _ answer hanswer, hfailure]
    simp only [hdistinct, false_iff, forall_const, and_true]
  · obtain ⟨answer, hanswer, hsuccess⟩ := rawHidReceive_settled data fw hcommand hmode
    rw [if_neg hmode, truthful_iff data fw _ answer hanswer, hsuccess]
    simp only [hdistinct.symm, true_iff, false_implies, and_true, settle_speed]
    unfold HasModeAndColor
    by_cases hon : fw.matrix.config.enable = true
    · obtain ⟨hchosen, hhsv⟩ := settle_on data fw hon hmode
      rw [if_pos hon, hchosen, hhsv, chosen_eq_iff]
      simp only [and_true]
    · obtain ⟨hkept, hhsv⟩ := settle_off data fw (Bool.eq_false_iff.mpr hon)
      rw [if_neg hon, hkept, hhsv]

/-- A setting of the second effect, in red. -/
def setRed : Packet := Packet.ofList [OpenRgb.setMode, 0, 255, 255, 2, 127, 0]

/-- It is done while the lighting is on. -/
theorem setMode_truthful_lit :
    Truthful setRed (init (RgbConfig.default 1) : Firmware (Device.k530 [])) :=
  (setMode_truthful_iff setRed _ (by decide)).mpr (by decide)

/-- While it is off, the answer says so and it is not. -/
theorem success_while_off :
    ¬ Truthful setRed (init { RgbConfig.default 1 with enable := false } :
      Firmware (Device.k530 [])) := by
  intro h
  obtain ⟨answer, hanswer, hsuccess⟩ := rawHidReceive_settled setRed
    (init { RgbConfig.default 1 with enable := false } : Firmware (Device.k530 []))
    (by decide) (by decide)
  rw [truthful_iff setRed _ _ answer hanswer] at h
  exact absurd (h.1.mp hsuccess).1.1 (by decide)

end Firmware

end K530
