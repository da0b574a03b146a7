import K530.Bluetooth.Task

/-!
# The Host Slot on Both Sides

The selector names a host by its position and the module has to be told, by a
host switch, whenever the position or the toggle changes. What should hold is
that the module has been told the position the selector is committed to.

It holds once the selector has been read. The exception is power-on with the
toggle already on: the toggle commits on its eighteenth reading and the selector
on its hundred and fifty-second. The host switch that goes out in between names
host 0, and the slot committed later is adopted in silence, so the module is left
on a host nobody selected.

`host_slot_agrees_iff` says that this is the only way to go wrong. The run is
watched by `watch`, which remembers the index last sent since Bluetooth came on;
`Agrees` is what should hold after each call.

## Main definitions

* `slotNumber`: The number printed beside a slot.

## Theorems

* `settleHostSlot_spec`: The three things a selector reading can do.
* `host_slot_agrees_iff`: And so for a run from power-on.
-/

namespace K530

namespace Link

open StepRun Driver

/-- The number of a slot. -/
def slotNumber : HostSlot → Byte
  | .slot1 => 1
  | .slot2 => 2
  | .slot3 => 3
  | .unknown => 0

/-- A host switch: command `0xA6`, marker `0x02`. -/
def IsHostSwitch (f : TxFrame) : Prop :=
  f.toList.getD 0 0 = 0xA6 ∧ f.toList.getD 3 0 = 0x02

instance (f : TxFrame) : Decidable (IsHostSwitch f) :=
  inferInstanceAs (Decidable (_ ∧ _))

/-- The driver, and the index of the last host switch since Bluetooth came on. -/
structure Watched where
  driver : Driver
  lastHost : Option Byte

/-- What can be seen after a call: the frames it loaded, and where the toggle,
    the selector and the module stand. -/
structure Seen where
  loaded : List TxFrame
  enabled : Bool
  slot : HostSlot
  lastHost : Option Byte

/-- The indices of the host switches among some frames. -/
def hostsNamed (loaded : List TxFrame) : List Byte :=
  (loaded.filter (fun f => IsHostSwitch f)).map (fun f => f.toList.getD 4 0)

/-- The task as a step, watched. -/
def watch (w : Watched) (input : Readings × Byte) : Watched × Seen :=
  let out := bluetoothTask input.1 input.2 w.driver
  let lastHost :=
    if out.1.isEnabled then (hostsNamed out.2).getLast?.or w.lastHost else none
  ({ driver := out.1, lastHost },
    { loaded := out.2, enabled := out.1.isEnabled, slot := out.1.selector.stable, lastHost })

/-- Every host switch names the slot the selector is committed to, and if there
    has been one since Bluetooth came on, the last of them still does. -/
def Agrees (seen : Seen) : Prop :=
  (∀ idx ∈ hostsNamed seen.loaded,
      seen.slot ≠ .unknown ∧ idx = slotNumber seen.slot - 1) ∧
    (seen.enabled = true → seen.slot ≠ .unknown →
      ∀ idx ∈ seen.lastHost, idx = slotNumber seen.slot - 1)

instance (seen : Seen) : Decidable (Agrees seen) :=
  inferInstanceAs (Decidable (_ ∧ _))

/-- The selector is committed to a slot, or has rested in one long enough for
    this reading to commit it. -/
def SlotRead (s : Selector) (r : Readings) : Prop :=
  s.stable ≠ .unknown ∨
    (s.candidate ≠ .unknown ∧ Selector.settlePolls ≤ s.counter ∧
      Selector.detect r.slotHi r.slotLo .unknown = s.candidate)

/-- If this reading commits the toggle on, the slot has been read. -/
def ComesOnRead (w : Watched) (input : Readings × Byte) : Prop :=
  input.1.toggle = false → Toggle.threshold < w.driver.toggle.lo →
    w.driver.toggle.enabled = false → SlotRead w.driver.selector input.1

/-! ### The selector -/

theorem detect_known (resultHi resultLo : Bool) (stable : HostSlot) (h : stable ≠ .unknown) :
    Selector.detect resultHi resultLo stable ≠ .unknown := by
  cases resultHi <;> cases resultLo <;> simp [Selector.detect, h]

theorem settleHostSlot_spec (detected : HostSlot) (s : Selector) :
    ((settleHostSlot detected s).1.stable = s.stable ∧ (settleHostSlot detected s).2 = false) ∨
      (detected = s.candidate ∧ detected ≠ s.stable ∧ Selector.settlePolls ≤ s.counter ∧
        (settleHostSlot detected s).1.stable = detected ∧
        (settleHostSlot detected s).2 = decide (s.stable ≠ .unknown)) := by
  unfold settleHostSlot
  by_cases hcand : detected = s.candidate
  · -- the candidate has to rest, and to be news
    rw [if_neg (not_not_intro hcand)]
    by_cases hstable : detected = s.stable
    · rw [if_neg (not_not_intro hstable)]
      exact Or.inl ⟨rfl, rfl⟩
    · rw [if_pos hstable]
      by_cases hcount : s.counter < Selector.settlePolls
      · rw [if_pos hcount]
        exact Or.inl ⟨rfl, rfl⟩
      · rw [if_neg hcount]
        exact Or.inr ⟨hcand, hstable, Nat.not_lt.mp hcount, rfl, rfl⟩
  · rw [if_pos hcand]
    exact Or.inl ⟨rfl, rfl⟩

theorem pollHostSlot_known_iff (s : Selector) (r : Readings) :
    (pollHostSlot r.slotHi r.slotLo s).1.stable ≠ .unknown ↔ SlotRead s r := by
  unfold pollHostSlot SlotRead
  by_cases hstable : s.stable = .unknown
  · rw [hstable]
    rcases settleHostSlot_spec (Selector.detect r.slotHi r.slotLo .unknown) s with
      ⟨hsame, -⟩ | ⟨hcand, hne, hcount, hnew, -⟩
    · rw [hsame, hstable]
      refine ⟨fun hc => absurd rfl hc, fun hread => ?_⟩
      rcases hread with hc | ⟨hcand, hcount, hdet⟩
      · exact absurd rfl hc
      · -- such a reading would have committed
        have hcommit : (settleHostSlot s.candidate s).1.stable = s.candidate := by
          unfold settleHostSlot
          rw [if_neg (not_not_intro rfl), if_pos (by rw [hstable]; exact hcand),
            if_neg (Nat.not_lt.mpr hcount)]
        rw [hdet, hcommit, hstable] at hsame
        exact absurd hsame hcand
    · rw [hstable] at hne
      rw [hnew]
      refine ⟨fun _ => Or.inr ⟨?_, hcount, hcand⟩, fun _ => hne⟩
      rw [← hcand]
      exact hne
  · refine ⟨fun _ => Or.inl hstable, fun _ => ?_⟩
    rcases settleHostSlot_spec (Selector.detect r.slotHi r.slotLo s.stable) s with
      ⟨hsame, -⟩ | ⟨-, -, -, hnew, -⟩
    · rw [hsame]
      exact hstable
    · rw [hnew]
      exact detect_known _ _ _ hstable

theorem pollHostSlot_changed (s : Selector) (r : Readings) :
    ((pollHostSlot r.slotHi r.slotLo s).2 → s.stable ≠ .unknown) ∧
      ((pollHostSlot r.slotHi r.slotLo s).2 = false → s.stable ≠ .unknown →
        (pollHostSlot r.slotHi r.slotLo s).1.stable = s.stable) := by
  unfold pollHostSlot
  rcases settleHostSlot_spec (Selector.detect r.slotHi r.slotLo s.stable) s with
    ⟨hsame, hno⟩ | ⟨-, -, -, -, hchanged⟩
  · rw [hno]
    exact ⟨fun hc => absurd hc Bool.false_ne_true, fun _ _ => hsame⟩
  · rw [hchanged]
    exact ⟨of_decide_eq_true, fun hc hknown => absurd hknown (of_decide_eq_false hc)⟩

/-! ### The frames of one call -/

theorem hostIdx_eq (slot : HostSlot) (h : slot ≠ .unknown) :
    Frame.hostIdx slot = slotNumber slot - 1 := by
  cases slot with
  | unknown => exact absurd rfl h
  | slot1 => rfl
  | slot2 => rfl
  | slot3 => rfl

theorem hostsNamed_append (fs gs : List TxFrame) :
    hostsNamed (fs ++ gs) = hostsNamed fs ++ hostsNamed gs := by
  unfold hostsNamed
  rw [List.filter_append, List.map_append]

theorem hostsNamed_cons_switch (d : Driver) (fs : List TxFrame) :
    hostsNamed (d.sendBtHostSwitch :: fs) =
      Frame.hostIdx d.selector.stable :: hostsNamed fs := by
  have hswitch : IsHostSwitch d.sendBtHostSwitch := by
    unfold IsHostSwitch sendBtHostSwitch Frame.buildHostSwitchFrame
    rw [Frame.sealFrame_getD _ 0 (by omega), Frame.sealFrame_getD _ 3 (by omega)]
    exact ⟨rfl, rfl⟩
  unfold hostsNamed
  rw [List.filter_cons, if_pos (decide_eq_true hswitch), List.map_cons]
  unfold sendBtHostSwitch Frame.buildHostSwitchFrame
  rw [Frame.sealFrame_getD _ 4 (by omega)]
  rfl

theorem hostsNamed_cons_control (enabled : Bool) (d : Driver) (fs : List TxFrame) :
    hostsNamed (d.sendBtControl enabled :: fs) = hostsNamed fs := by
  have hcontrol : ¬ IsHostSwitch (d.sendBtControl enabled) := by
    unfold IsHostSwitch sendBtControl Frame.buildControlFrame
    rw [Frame.sealFrame_getD _ 0 (by omega)]
    exact fun hc => absurd (show Frame.cmdBtControl = 0xA6 from hc.1) (by decide)
  unfold hostsNamed
  rw [List.filter_cons, if_neg (by rw [decide_eq_true_eq]; exact hcontrol)]

theorem holdLink_spec (link : Byte) (d : Driver) :
    (holdLink link d).1.toggle = d.toggle ∧ (holdLink link d).1.selector = d.selector ∧
      hostsNamed (holdLink link d).2 = [] := by
  unfold holdLink
  split
  · split
    · split
      · exact ⟨rfl, rfl, hostsNamed_cons_control false d []⟩
      · exact ⟨rfl, rfl, rfl⟩
    · exact ⟨rfl, rfl, rfl⟩
  · split
    · split
      · exact ⟨rfl, rfl, hostsNamed_cons_control true d []⟩
      · exact ⟨rfl, rfl, rfl⟩
    · exact ⟨rfl, rfl, rfl⟩

theorem reactEdges_spec (btChanged hostChanged : Bool) (d : Driver) :
    (reactEdges btChanged hostChanged d).1.toggle = d.toggle ∧
      (reactEdges btChanged hostChanged d).1.selector = d.selector ∧
      hostsNamed (reactEdges btChanged hostChanged d).2 =
        if d.isEnabled && (btChanged || hostChanged) then [Frame.hostIdx d.selector.stable]
        else [] := by
  unfold reactEdges
  cases btChanged with
  | true =>
    cases henabled : d.isEnabled with
    | true =>
      -- the control frame first, then the host switch
      refine ⟨rfl, rfl, ?_⟩
      rw [if_pos rfl, if_pos rfl, hostsNamed_cons_switch, hostsNamed_cons_control]
      rfl
    | false => exact ⟨rfl, rfl, hostsNamed_cons_control false d []⟩
  | false =>
    cases henabled : d.isEnabled with
    | true =>
      cases hostChanged with
      | true => exact ⟨rfl, rfl, hostsNamed_cons_switch d []⟩
      | false => exact ⟨rfl, rfl, rfl⟩
    | false =>
      rw [Bool.and_false]
      exact ⟨rfl, rfl, rfl⟩

theorem bluetoothTask_spec (r : Readings) (link : Byte) (d : Driver) :
    (bluetoothTask r link d).1.toggle = (pollBtToggle r.toggle d.toggle).1 ∧
      (bluetoothTask r link d).1.selector = (pollHostSlot r.slotHi r.slotLo d.selector).1 ∧
      hostsNamed (bluetoothTask r link d).2 =
        if (pollBtToggle r.toggle d.toggle).1.enabled &&
            ((pollBtToggle r.toggle d.toggle).2 ||
              (pollHostSlot r.slotHi r.slotLo d.selector).2) then
          [Frame.hostIdx (pollHostSlot r.slotHi r.slotLo d.selector).1.stable]
        else [] := by
  have hreact := reactEdges_spec (pollBtToggle r.toggle d.toggle).2
    (pollHostSlot r.slotHi r.slotLo d.selector).2 (pollInputs r d)
  have hhold := holdLink_spec link
    (reactEdges (pollBtToggle r.toggle d.toggle).2
      (pollHostSlot r.slotHi r.slotLo d.selector).2 (pollInputs r d)).1
  unfold bluetoothTask
  dsimp only
  rw [hhold.1, hhold.2.1, hreact.1, hreact.2.1, hostsNamed_append, hhold.2.2, hreact.2.2,
    List.append_nil]
  exact ⟨rfl, rfl, rfl⟩

/-! ### Runs -/

def ComesOn (pinLevel : Bool) (t : Toggle) : Prop :=
  pinLevel = false ∧ Toggle.threshold < t.lo ∧ t.enabled = false

theorem pollBtToggle_spec (pinLevel : Bool) (t : Toggle) :
    (pollBtToggle pinLevel t).1.enabled =
        (if pinLevel then !decide (Toggle.threshold < t.hi) && t.enabled
          else decide (Toggle.threshold < t.lo) || t.enabled) ∧
      (pollBtToggle pinLevel t).2 = ((pollBtToggle pinLevel t).1.enabled != t.prev) ∧
      (pollBtToggle pinLevel t).1.prev = (pollBtToggle pinLevel t).1.enabled := by
  unfold pollBtToggle
  cases pinLevel with
  | true =>
    by_cases hcount : Toggle.threshold < t.hi
    · simp [hcount]
    · simp [hcount]
  | false =>
    by_cases hcount : Toggle.threshold < t.lo
    · simp [hcount]
    · simp [hcount]

theorem pollBtToggle_comesOn (pinLevel : Bool) (t : Toggle) (h : t.prev = t.enabled) :
    ((pollBtToggle pinLevel t).1.enabled ∧ (pollBtToggle pinLevel t).2) ↔
      ComesOn pinLevel t := by
  have hspec := pollBtToggle_spec pinLevel t
  rw [hspec.2.1, hspec.1, h]
  unfold ComesOn
  cases pinLevel <;> cases t.enabled <;> simp

/-- What the watched driver keeps as long as the toggle does not come on unread:
    the module knows no host while Bluetooth is off, and the right one if it
    knows any. -/
def InStep (w : Watched) : Prop :=
  w.driver.toggle.prev = w.driver.toggle.enabled ∧
    (w.driver.toggle.enabled = false → w.lastHost = none) ∧
    ∀ idx, w.lastHost = some idx →
      w.driver.selector.stable ≠ .unknown ∧ idx = slotNumber w.driver.selector.stable - 1

theorem agrees_of_off (w : Watched) (input : Readings × Byte)
    (hoff : (pollBtToggle input.1.toggle w.driver.toggle).1.enabled = false) :
    Agrees (watch w input).2 ∧ InStep (watch w input).1 := by
  have htask := bluetoothTask_spec input.1 input.2 w.driver
  have hspec := pollBtToggle_spec input.1.toggle w.driver.toggle
  unfold Agrees InStep watch isEnabled
  dsimp only
  rw [htask.2.2, htask.1, hoff, hspec.2.2, hoff]
  refine ⟨⟨fun idx hidx => ?_, fun hc => ?_⟩, rfl, fun _ => rfl, fun idx hidx => ?_⟩
  · exact absurd hidx List.not_mem_nil
  · exact absurd hc Bool.false_ne_true
  · exact nomatch hidx

theorem agrees_of_named (w : Watched) (input : Readings × Byte)
    (hon : (pollBtToggle input.1.toggle w.driver.toggle).1.enabled)
    (hnamed : ((pollBtToggle input.1.toggle w.driver.toggle).2 ||
      (pollHostSlot input.1.slotHi input.1.slotLo w.driver.selector).2)) :
    (Agrees (watch w input).2 ↔
        (pollHostSlot input.1.slotHi input.1.slotLo w.driver.selector).1.stable ≠ .unknown) ∧
      ((pollHostSlot input.1.slotHi input.1.slotLo w.driver.selector).1.stable ≠ .unknown →
        InStep (watch w input).1) := by
  have htask := bluetoothTask_spec input.1 input.2 w.driver
  have hspec := pollBtToggle_spec input.1.toggle w.driver.toggle
  unfold Agrees InStep watch isEnabled
  dsimp only
  rw [htask.2.2, htask.1, htask.2.1, hon, hspec.2.2, hon, hnamed]
  simp only [Bool.and_self, if_true, List.getLast?_singleton, Option.some_or,
    List.mem_singleton, forall_eq, Option.mem_def, Option.some.injEq, forall_eq', true_implies,
    true_and, Bool.true_eq_false, false_implies]
  refine ⟨⟨fun h => h.1.1, fun hknown => ?_⟩, fun hknown => ⟨hknown, hostIdx_eq _ hknown⟩⟩
  exact ⟨⟨hknown, hostIdx_eq _ hknown⟩, fun _ => hostIdx_eq _ hknown⟩

theorem agrees_of_quiet (w : Watched) (input : Readings × Byte) (h : InStep w)
    (hon : (pollBtToggle input.1.toggle w.driver.toggle).1.enabled)
    (hquiet : ((pollBtToggle input.1.toggle w.driver.toggle).2 ||
      (pollHostSlot input.1.slotHi input.1.slotLo w.driver.selector).2) = false) :
    Agrees (watch w input).2 ∧ InStep (watch w input).1 := by
  have htask := bluetoothTask_spec input.1 input.2 w.driver
  have hspec := pollBtToggle_spec input.1.toggle w.driver.toggle
  have hchanged := pollHostSlot_changed w.driver.selector input.1
  -- a known slot stays, so what the module was last told is still right
  have hstays : ∀ idx, w.lastHost = some idx →
      (pollHostSlot input.1.slotHi input.1.slotLo w.driver.selector).1.stable ≠ .unknown ∧
        idx = slotNumber
          (pollHostSlot input.1.slotHi input.1.slotLo w.driver.selector).1.stable - 1 := by
    intro idx hidx
    have hknown := h.2.2 idx hidx
    rw [hchanged.2 (Bool.or_eq_false_iff.mp hquiet).2 hknown.1]
    exact hknown
  unfold Agrees InStep watch isEnabled
  dsimp only
  rw [htask.2.2, htask.1, htask.2.1, hon, hspec.2.2, hon, hquiet]
  simp only [Bool.and_false, Bool.false_eq_true, if_false, if_true, List.getLast?_nil,
    Option.none_or, List.not_mem_nil, false_implies, implies_true, true_and, true_implies,
    Bool.true_eq_false]
  exact ⟨fun _ idx hidx => (hstays idx hidx).2, hstays⟩

theorem agrees_iff_comesOnRead (w : Watched) (input : Readings × Byte) (h : InStep w) :
    (Agrees (watch w input).2 ↔ ComesOnRead w input) ∧
      (ComesOnRead w input → InStep (watch w input).1) := by
  have hcomes := pollBtToggle_comesOn input.1.toggle w.driver.toggle h.1
  have hread := pollHostSlot_known_iff w.driver.selector input.1
  cases hon : (pollBtToggle input.1.toggle w.driver.toggle).1.enabled with
  | false =>
    -- off after the call, so it has not come on in it
    have hoff := agrees_of_off w input hon
    refine ⟨⟨fun _ hpin hcount hen => ?_, fun _ => hoff.1⟩, fun _ => hoff.2⟩
    have hcontra := (hcomes.mpr ⟨hpin, hcount, hen⟩).1
    rw [hon] at hcontra
    exact absurd hcontra Bool.false_ne_true
  | true =>
    cases hchange : (pollBtToggle input.1.toggle w.driver.toggle).2 with
    | true =>
      have hnow := hcomes.mp ⟨hon, hchange⟩
      have hnamed := agrees_of_named w input hon (by rw [hchange, Bool.true_or])
      rw [hread] at hnamed
      have hiff : ComesOnRead w input ↔ SlotRead w.driver.selector input.1 :=
        ⟨fun hc => hc hnow.1 hnow.2.1 hnow.2.2, fun hc _ _ _ => hc⟩
      rw [hiff]
      exact hnamed
    | false =>
      have hnot : ComesOnRead w input := by
        intro hpin hcount hen
        have hcontra := (hcomes.mpr ⟨hpin, hcount, hen⟩).2
        rw [hchange] at hcontra
        exact absurd hcontra Bool.false_ne_true
      have hagrees : Agrees (watch w input).2 ∧ InStep (watch w input).1 := by
        cases hhost : (pollHostSlot input.1.slotHi input.1.slotLo w.driver.selector).2 with
        | true =>
          -- a slot only takes the place of a known one
          have hknown := hread.mpr
            (Or.inl ((pollHostSlot_changed w.driver.selector input.1).1 hhost))
          have hnamed := agrees_of_named w input hon (by rw [hhost, Bool.or_true])
          exact ⟨hnamed.1.mpr hknown, hnamed.2 hknown⟩
        | false =>
          exact agrees_of_quiet w input h hon (by rw [hchange, hhost, Bool.or_self])
      exact ⟨⟨fun _ => hnot, fun _ => hagrees.1⟩, fun _ => hagrees.2⟩

/-- The watched driver after power-on. -/
def powerOn (r : Readings) : Watched :=
  { driver := (bluetoothInit r reset).1, lastHost := none }

theorem powerOn_inStep (r : Readings) : InStep (powerOn r) :=
  ⟨rfl, fun _ => rfl, fun _ hidx => nomatch hidx⟩

theorem hostsNamed_bluetoothInit (r : Readings) :
    hostsNamed (bluetoothInit r reset).2 = [] := by
  unfold bluetoothInit
  dsimp only
  split
  · exact hostsNamed_cons_control false _ []
  · rfl

/-- From power-on, no host switch names a slot that is not the selector's, and
    after every call the module was last told the slot the selector is at, if
    Bluetooth is on, the slot is known and it was told any, exactly when the
    toggle never comes on before the slot has been read. -/
theorem host_slot_agrees_iff (r : Readings) (calls : List (Readings × Byte)) :
    (hostsNamed (bluetoothInit r reset).2 = [] ∧
        ∀ seen ∈ trace watch (powerOn r) calls, Agrees seen) ↔
      Along (next watch) ComesOnRead (powerOn r) calls := by
  rw [and_iff_right (hostsNamed_bluetoothInit r)]
  exact forall_trace_iff_along watch ComesOnRead InStep Agrees
    (fun w input h hC => (agrees_iff_comesOnRead w input h).2 hC)
    (fun w input h => (agrees_iff_comesOnRead w input h).1) calls (powerOn r) (powerOn_inStep r)

def onAtPowerOn : Readings :=
  { charging := false, toggle := false, slotHi := true, slotLo := false }

/-- The eighteenth reading names host 0. -/
theorem on_at_power_on_disagrees :
    ¬ ∀ (r : Readings) (calls : List (Readings × Byte)),
      hostsNamed (bluetoothInit r reset).2 = [] ∧
        ∀ seen ∈ trace watch (powerOn r) calls, Agrees seen := by
  intro h
  exact absurd (h onAtPowerOn (List.replicate 17 (onAtPowerOn, 0x02))).2 (by decide +kernel)

end Link

end K530
