import K530.Theory.Keymap.Dispatch

/-!
# Which Host Types

With Bluetooth on the wire should be mute: whatever a key types goes to the
tracker, and nothing is added to the report of the USB host.

The hook decides by the keycode of the event, and a basic one is stopped there.
A layer-tap key has a keycode above `0xFF` whether it is held or tapped, so it
is passed on, and when the tapping code has counted a tap QMK registers its low
byte on the wire. The tracker never hears of it.

`exclusive_iff` says that this is all that gets past: in a run with Bluetooth on
at every key event, every event is exclusive exactly when no layer-tap key is
tapped.

## Main definitions

* `resolved`: The basic keycode a press resolves to, directly or as a tap.

## Theorems

* `usb_of_event`: What an event with Bluetooth on can do to the wire.
* `exclusive_iff`: And so for a run.
-/

namespace K530

open StepRun World

/-- Nothing is in the new report that was not in the old one. -/
def Report.Within (nkro : Bool) (old new : Report) : Prop :=
  (∀ key, new.isKeyPressed nkro key = true → old.isKeyPressed nkro key = true) ∧
    new.mods &&& ~~~old.mods = 0

/-- No report sent in between, nor the one left at the end, holds a key or a
    modifier that the report did not hold before. -/
def AddsNothing (u u' : Usb) : Prop :=
  (∀ r, HostReport.keyboard r ∈ u'.sent.drop u.sent.length → Report.Within u.nkro u.report r) ∧
    Report.Within u.nkro u.report u'.report

/-- The basic keycode an event resolves to: its own, or the one a tapped
    layer-tap key stands for. -/
def resolved (record : KeyRecord) (keycode : Keycode) : Option Keycode :=
  if keycode ≤ 0xFF then some keycode
  else if (keycode = Keymap.fn2Tap ∨ keycode = Keymap.fnCapsTap) ∧ 0 < record.tapCount then
    some ((lowByte keycode).setWidth 16)
  else none

/-- The tracker has been given the keycode, and has it unless there was no room
    for it. -/
def Delivered (keycode : Keycode) (t t' : Tracker) : Prop :=
  t' = t.track keycode true ∧
    (keycode = kcNo ∨ t'.Holds (lowByte keycode) ∨ ¬ t.Room (lowByte keycode))

/-- An event, with the worlds before and after it. -/
def observe (w : World) (e : Event) : World × World × Event × World :=
  (react w e, w, e, react w e)

/-- What should hold of every event while Bluetooth is on. -/
def Exclusive : World × Event × World → Prop
  | (w, .key _ record, w') =>
    AddsNothing w.qmk.usb w'.qmk.usb ∧
      (record.pressed = true → ∀ keycode ∈ resolved record (getRecordKeycode record w.qmk),
        Delivered keycode w.tracker w'.tracker)
  | (w, .scan _ _ _ _, w') => AddsNothing w.qmk.usb w'.qmk.usb

/-- The record is the press of a layer-tap key that was tapped. -/
def Taps (record : KeyRecord) (keycode : Keycode) : Prop :=
  record.pressed = true ∧ (keycode = Keymap.fn2Tap ∨ keycode = Keymap.fnCapsTap) ∧
    0 < record.tapCount

/-- The event does not tap a layer-tap key. -/
def NoTap (w : World) : Event → Prop
  | .key _ record => ¬ Taps record (getRecordKeycode record w.qmk)
  | .scan _ _ _ _ => True

/-! ### The wire stays clear -/

namespace Usb

structure Quiet (u u' : Usb) : Prop where
  clear : u'.Clear
  nkro : u'.nkro = u.nkro
  sent : ∃ reports, u'.sent = u.sent ++ reports ∧
    ∀ r, HostReport.keyboard r ∈ reports → r.Clear u.nkro

theorem quiet_self (u : Usb) (h : u.Clear) : u.Quiet u :=
  ⟨h, rfl, [], (List.append_nil _).symm, fun _ hr => absurd hr List.not_mem_nil⟩

theorem quiet_send (u v : Usb) (hmacroMods : v.macroMods = 0)
    (honeshot : v.oneshotMods = 0) (hnkro : v.nkro = u.nkro) (hreal : v.realMods = 0)
    (hweak : v.weakMods = 0) (hkeys : ∀ key, v.report.isKeyPressed v.nkro key = false)
    (hsent : ∃ reports, v.sent = u.sent ++ reports ∧ ∀ r, HostReport.keyboard r ∉ reports) :
    u.Quiet v.sendKeyboardReport := by
  obtain ⟨reports, hreports, hother⟩ := hsent
  have hnone : v.realMods ||| v.weakMods = 0 := by
    rw [hreal, hweak]
    exact or_noMods 0
  have hclear : Report.Clear v.nkro { v.report with mods := v.realMods ||| v.weakMods } :=
    ⟨hnone, hkeys⟩
  rw [sendKeyboardReport_eq v hmacroMods honeshot]
  refine ⟨⟨hclear, hreal, hweak⟩, hnkro, ?_⟩
  refine ⟨reports ++ [.keyboard { v.report with mods := v.realMods ||| v.weakMods }], ?_,
    fun r hr => ?_⟩
  · dsimp only
    rw [hreports, List.append_assoc]
  · rcases List.mem_append.mp hr with hr | hr
    · exact absurd hr (hother r)
    · rw [List.mem_singleton, HostReport.keyboard.injEq] at hr
      rw [hr, ← hnkro]
      exact hclear

theorem quiet_sent (u : Usb) (h : u.Clear) (reports : List HostReport)
    (hother : ∀ r, HostReport.keyboard r ∉ reports) :
    u.Quiet { u with sent := u.sent ++ reports } :=
  ⟨h, rfl, reports, rfl, fun r hr => absurd hr (hother r)⟩

theorem quiet_layer (u : Usb) (hs : u.Settled) (h : u.Clear) :
    u.Quiet u.clearKeyboardButModsAndKeys := by
  refine quiet_send u (((u.systemSend 0).consumerSend 0).clearWeakMods.clearMacroMods) rfl
    hs.oneshotMods rfl h.2.1 rfl h.1.2 ⟨[.system 0, .consumer 0], ?_, fun r hr => ?_⟩
  · exact List.append_assoc _ _ _
  · simp only [List.mem_cons, reduceCtorEq, List.not_mem_nil, or_self] at hr

theorem quiet_clearKeyboard (u : Usb) (hs : u.Settled) : u.Quiet u.clearKeyboard := by
  refine quiet_send u
    (((u.clearMods.clearKeys.systemSend 0).consumerSend 0).clearWeakMods.clearMacroMods) rfl
    hs.oneshotMods rfl rfl rfl (Report.isKeyPressed_clear u.nkro u.report)
    ⟨[.system 0, .consumer 0], ?_, fun r hr => ?_⟩
  · exact List.append_assoc _ _ _
  · simp only [List.mem_cons, reduceCtorEq, List.not_mem_nil, or_self] at hr

theorem quiet_unregisterCode (code : Byte) (u : Usb) (hs : u.Settled) (h : u.Clear) :
    u.Quiet (u.unregisterCode code) := by
  have hother : ∀ r, HostReport.keyboard r ∉ [HostReport.system 0] ∧
      HostReport.keyboard r ∉ [HostReport.consumer 0] := by
    intro r
    simp only [List.mem_singleton, reduceCtorEq, not_false_eq_true, and_self]
  unfold unregisterCode
  by_cases hzero : code = 0
  · rw [if_pos hzero]
    exact quiet_self u h
  · rw [if_neg hzero]
    by_cases hkey : isKey code
    · rw [if_pos hkey]
      refine quiet_send u (u.delKey code) hs.macroMods hs.oneshotMods rfl h.2.1 h.2.2
        (fun key => ?_) ⟨[], (List.append_nil _).symm, fun _ hr => absurd hr List.not_mem_nil⟩
      -- what is taken out of an empty report leaves it empty
      refine Bool.not_eq_true _ |>.mp (fun hp => ?_)
      have hbefore := ((pressed_delKey u code key hkey).mp hp).1
      exact Bool.noConfusion ((h.1.2 key).symm.trans hbefore)
    · rw [if_neg hkey]
      split
      · refine quiet_send u (u.delMods (modBit code)) hs.macroMods hs.oneshotMods rfl ?_ h.2.2
          h.1.2 ⟨[], (List.append_nil _).symm, fun _ hr => absurd hr List.not_mem_nil⟩
        show u.realMods &&& ~~~modBit code = 0
        rw [h.2.1]
        exact BitVec.zero_and
      · split
        · exact quiet_sent u h _ (fun r => (hother r).1)
        · split
          · exact quiet_sent u h _ (fun r => (hother r).2)
          · exact quiet_self u h

end Usb

theorem within_of_clear (nkro : Bool) (old new : Report) (h : new.Clear nkro) :
    Report.Within nkro old new := by
  refine ⟨fun key hp => ?_, ?_⟩
  · exact Bool.noConfusion ((h.2 key).symm.trans hp)
  · rw [h.1]
    exact BitVec.zero_and

theorem addsNothing_of_quiet (u u' : Usb) (h : u.Quiet u') : AddsNothing u u' := by
  obtain ⟨reports, hsent, hclear⟩ := h.sent
  refine ⟨fun r hr => ?_, ?_⟩
  · rw [hsent, List.drop_left] at hr
    exact within_of_clear _ _ _ (hclear r hr)
  · rw [← h.nkro]
    exact within_of_clear _ _ _ h.clear.1

/-! ### Events that are no taps -/

theorem handler_usb (record : KeyRecord) (q : Qmk) (habove : getRecordKeycode record q > 0xFF)
    (hnotap : ¬ Taps record (getRecordKeycode record q)) :
    (processRecordHandler record (rememberLayer record q)).usb = q.usb ∨
      (processRecordHandler record (rememberLayer record q)).usb =
        q.usb.clearKeyboardButModsAndKeys ∨
      (processRecordHandler record (rememberLayer record q)).usb = q.usb.clearKeyboard ∨
      ∃ code, (processRecordHandler record (rememberLayer record q)).usb =
        q.usb.unregisterCode code := by
  have hframe := rememberLayer_frame record q
  have hframe' := rememberLayer_frame record (rememberLayer record q)
  have husb := hframe'.1.trans hframe.1
  unfold processRecordHandler
  rw [getRecordKeycode_rememberLayer, hframe.2.1]
  -- a layer-tap key: a layer, or the release of a tap
  have htapKey : ∀ layer code,
      getRecordKeycode record q = Keymap.fn2Tap ∨ getRecordKeycode record q = Keymap.fnCapsTap →
      ((rememberLayer record (rememberLayer record q)).processAction record.pressed
          record.tapCount (.layerTapKey layer code)).usb = q.usb.clearKeyboardButModsAndKeys ∨
        ((rememberLayer record (rememberLayer record q)).processAction record.pressed
          record.tapCount (.layerTapKey layer code)).usb = q.usb.unregisterCode code := by
    intro layer code hkey
    rw [← husb]
    unfold Qmk.processAction
    dsimp only
    by_cases htap : 0 < record.tapCount
    · have hreleased : ¬ record.pressed = true := fun hp => hnotap ⟨hp, hkey, htap⟩
      rw [if_neg hreleased, if_pos htap]
      exact Or.inr rfl
    · rw [if_neg htap, if_neg htap]
      split <;> exact Or.inl rfl
  -- above 0xFF the keymap has a momentary key, the two layer-tap keys and
  -- keycodes without an action
  rcases special_action q.config _ habove (Keymap.keymap_keycodes _ _) with
    ⟨-, ha⟩ | ⟨hk, ha⟩ | ⟨hk, ha⟩ | ha
  · rw [ha, ← husb]
    unfold Qmk.processAction
    dsimp only
    split <;> exact Or.inr (Or.inl rfl)
  · rw [ha]
    rcases htapKey 3 0x65 (Or.inl hk) with hc | hc
    · exact Or.inr (Or.inl hc)
    · exact Or.inr (Or.inr (Or.inr ⟨_, hc⟩))
  · rw [ha]
    rcases htapKey 2 0x39 (Or.inr hk) with hc | hc
    · exact Or.inr (Or.inl hc)
    · exact Or.inr (Or.inr (Or.inr ⟨_, hc⟩))
  · rw [ha]
    refine Or.inl ?_
    have hidle :=
      processMods_idle record.pressed (rememberLayer record (rememberLayer record q)).usb
    show Qmk.processMods record.pressed 0 0 _ = _
    rw [hidle.1, husb]

theorem usb_of_event (now : BitVec 32) (record : KeyRecord) (w : World)
    (hon : w.btEnabled) (hnotap : ¬ Taps record (getRecordKeycode record w.qmk)) :
    (processRecord now record w).qmk.usb = w.qmk.usb ∨
      (processRecord now record w).qmk.usb = w.qmk.usb.clearKeyboardButModsAndKeys ∨
      (processRecord now record w).qmk.usb = w.qmk.usb.clearKeyboard ∨
      ∃ code, (processRecord now record w).qmk.usb = w.qmk.usb.unregisterCode code := by
  have hframe := rememberLayer_frame record w.qmk
  have husb := processRecordUser_usb_on now (getRecordKeycode record w.qmk) record
    (remembered record w) hon
  have hgoesOn := processRecordUser_goesOn now (getRecordKeycode record w.qmk) record
    (remembered record w)
  rw [remembered_qmk] at husb hgoesOn
  rw [hframe.1] at husb
  generalize huser : processRecordUser now (getRecordKeycode record w.qmk) record
    (remembered record w) = out at husb hgoesOn
  obtain ⟨v, goesOn⟩ := out
  rcases processRecord_cases now record w v goesOn huser with ⟨-, hc⟩ | ⟨-, -, -, hc⟩ |
    ⟨ht, -, -, hc⟩ | ⟨ht, hc⟩
  · rw [hc]
    exact husb.imp_right Or.inl
  · rw [hc]
    exact husb.imp_right Or.inl
  · -- the jump to the bootloader clears the keyboard first
    have hqmk := (hgoesOn ht).1
    dsimp only at hqmk
    refine Or.inr (Or.inr (Or.inl ?_))
    rw [hc]
    show v.qmk.usb.clearKeyboard = _
    rw [hqmk, hframe.1]
  · have hqmk := (hgoesOn ht).1
    dsimp only at hqmk
    rw [hc]
    dsimp only
    rw [hqmk]
    exact handler_usb record w.qmk ((hgoesOn ht).2 hon) hnotap

theorem quiet_of_event (now : BitVec 32) (record : KeyRecord) (w : World) (h : w.Sound)
    (hclear : w.qmk.usb.Clear) (hon : w.btEnabled)
    (hnotap : ¬ Taps record (getRecordKeycode record w.qmk)) :
    w.qmk.usb.Quiet (processRecord now record w).qmk.usb := by
  rcases usb_of_event now record w hon hnotap with hc | hc | hc | ⟨code, hc⟩
  · rw [hc]
    exact Usb.quiet_self _ hclear
  · rw [hc]
    exact Usb.quiet_layer _ h.settled hclear
  · rw [hc]
    exact Usb.quiet_clearKeyboard _ h.settled
  · rw [hc]
    exact Usb.quiet_unregisterCode code _ h.settled hclear

theorem delivered_basic (keycode : Keycode) (t : Tracker) (h : t.Packed)
    (hbasic : keycode ≤ 0xFF) : Delivered keycode t (t.track keycode true) := by
  refine ⟨rfl, ?_⟩
  by_cases hzero : keycode = kcNo
  · exact Or.inl hzero
  · by_cases hroom : t.Room (lowByte keycode)
    · refine Or.inr (Or.inl ?_)
      rw [Tracker.holds_track t h keycode true hbasic, if_pos rfl]
      refine Or.inr ⟨rfl, fun hc => hzero ?_, hroom⟩
      exact lowByte_injective keycode kcNo hbasic (by decide) hc
    · exact Or.inr (Or.inr hroom)

def Mute (w : World) : Prop :=
  w.Sound ∧ w.qmk.usb.Clear

theorem exclusive_of_noTap (w : World) (e : Event) (h : Mute w) (hon : OnAtKeys w e)
    (hnotap : NoTap w e) : Exclusive (w, e, react w e) ∧ Mute (react w e) := by
  have hsound := react_sound w e h.1
  cases e with
  | key now record =>
    have hquiet := quiet_of_event now record w h.1 h.2 hon hnotap
    refine ⟨⟨addsNothing_of_quiet _ _ hquiet, fun hpressed keycode hmem => ?_⟩, hsound,
      hquiet.clear⟩
    unfold resolved at hmem
    by_cases hbasic : getRecordKeycode record w.qmk ≤ 0xFF
    · rw [if_pos hbasic, Option.mem_def, Option.some.injEq] at hmem
      subst hmem
      have hevent := processRecord_basic now record w hbasic h.1.settled
      unfold react
      rw [hevent.tracker, hpressed]
      exact delivered_basic _ _ h.1.packed hbasic
    · rw [if_neg hbasic] at hmem
      split at hmem
      · -- a tap would resolve to its code, and is left out
        rename_i htap
        exact absurd ⟨hpressed, htap⟩ hnotap
      · exact absurd hmem (Option.not_mem_none keycode)
  | scan now r link anyKeyDown =>
    have hframe := matrixScanUser_frame now r link anyKeyDown w
    have hquiet : w.qmk.usb.Quiet (react w (.scan now r link anyKeyDown)).qmk.usb := by
      unfold react
      rw [hframe.1]
      exact Usb.quiet_self _ h.2
    exact ⟨addsNothing_of_quiet _ _ hquiet, hsound, hquiet.clear⟩

/-! ### Taps -/

theorem usb_of_tap (now : BitVec 32) (record : KeyRecord) (w : World)
    (h : Taps record (getRecordKeycode record w.qmk)) :
    ∃ code, isKey code ∧
      (processRecord now record w).qmk.usb = w.qmk.usb.registerCode code := by
  obtain ⟨hpressed, hkey, htap⟩ := h
  have hframe := rememberLayer_frame record w.qmk
  have hframe' := rememberLayer_frame record (rememberLayer record w.qmk)
  have huser : processRecordUser now (getRecordKeycode record w.qmk) record (remembered record w) =
      (beforeSwitch now (getRecordKeycode record w.qmk) record (remembered record w), true) := by
    rcases hkey with hk | hk <;> rw [hk] <;>
      exact processRecordUser_above now _ record _ (by decide) (by decide) (by decide)
        (by decide) (by decide)
  have hnot : getRecordKeycode record w.qmk ≠ Keymap.rgbTog ∧
      getRecordKeycode record w.qmk ≠ Keymap.reset := by
    rcases hkey with hk | hk <;> rw [hk] <;> decide
  have haction : ∀ layer code, ((rememberLayer record (rememberLayer record w.qmk)).processAction
      record.pressed record.tapCount (.layerTapKey layer code)).usb =
        w.qmk.usb.registerCode code := by
    intro layer code
    unfold Qmk.processAction
    dsimp only
    rw [if_pos hpressed, if_pos htap]
    unfold Qmk.onUsb
    rw [hframe'.1, hframe.1]
  rw [processRecord_passed now record w _ huser hnot.1 hnot.2]
  dsimp only
  rw [beforeSwitch_qmk, remembered_qmk]
  unfold processRecordHandler
  rw [getRecordKeycode_rememberLayer]
  rcases hkey with hk | hk
  · rw [hk, actionForKeycode_fn2Tap]
    exact ⟨0x65, rfl, haction 3 0x65⟩
  · rw [hk, actionForKeycode_fnCapsTap]
    exact ⟨0x39, rfl, haction 2 0x39⟩

theorem not_exclusive_of_tap (now : BitVec 32) (record : KeyRecord) (w : World) (h : Mute w)
    (htap : Taps record (getRecordKeycode record w.qmk)) :
    ¬ Exclusive (w, .key now record, react w (.key now record)) := by
  obtain ⟨code, hkey, husb⟩ := usb_of_tap now record w htap
  rintro ⟨hadds, -⟩
  -- there is always room for it in a clear report
  have hafter : (react w (.key now record)).qmk.usb.Pressed code := by
    unfold react
    rw [husb, (Usb.registerCode_spec code w.qmk.usb h.1.settled).keys]
    exact Or.inr ⟨hkey, Usb.room_of_clear _ h.2 code, rfl⟩
  have hnkro : (react w (.key now record)).qmk.usb.nkro = w.qmk.usb.nkro := by
    unfold react
    rw [husb, (Usb.registerCode_spec code w.qmk.usb h.1.settled).nkro]
  unfold Usb.Pressed at hafter
  rw [hnkro] at hafter
  exact Bool.noConfusion ((h.2.1.2 code).symm.trans (hadds.2.1 code hafter))

theorem exclusive_step_iff (w : World) (e : Event) (h : Mute w) (hon : OnAtKeys w e) :
    Exclusive (observe w e).2 ↔ NoTap w e := by
  refine ⟨fun hex => ?_, fun hnotap => (exclusive_of_noTap w e h hon hnotap).1⟩
  cases e with
  | key now record =>
    intro htap
    exact not_exclusive_of_tap now record w h htap hex
  | scan now r link anyKeyDown => trivial

/-- From power-on, in a run with Bluetooth on at every key event: every event
    is exclusive exactly when none is the tap of a layer-tap key. -/
theorem exclusive_iff (config : KeymapConfig) (nkro rgbEnabled : Bool) (r : Readings)
    (events : List Event)
    (hon : Along react OnAtKeys (powerOn config nkro rgbEnabled r) events) :
    (∀ seen ∈ trace observe (powerOn config nkro rgbEnabled r) events, Exclusive seen) ↔
      Along react NoTap (powerOn config nkro rgbEnabled r) events := by
  have hstart : Mute (powerOn config nkro rgbEnabled r) :=
    ⟨powerOn_sound config nkro rgbEnabled r, Usb.clear_of_empty _ rfl rfl rfl⟩
  exact forall_trace_iff_along_of observe OnAtKeys NoTap Mute Exclusive
    (fun w e h hon hnotap => (exclusive_of_noTap w e h hon hnotap).2)
    exclusive_step_iff events _ hstart hon

/-- The toggle on, the selector in position 1. -/
def switchedOn : Readings :=
  { charging := false, toggle := false, slotHi := true, slotLo := true }

/-- Bluetooth comes on, the second layer-tap key is tapped, and its release
    follows. -/
def tappedWithBluetooth : List Event :=
  List.replicate 17 (.scan 0 switchedOn 0x02 false) ++
    [.key 0 { key := { row := 4, col := 12 }, pressed := true, tapCount := 1 },
      .key 0 { key := { row := 4, col := 12 }, pressed := false, tapCount := 1 }]

/-- The general statement, for the tap. -/
theorem exclusive_iff_tapped :
    (∀ seen ∈ trace observe (powerOn KeymapConfig.default true true switchedOn)
        tappedWithBluetooth, Exclusive seen) ↔
      Along react NoTap (powerOn KeymapConfig.default true true switchedOn)
        tappedWithBluetooth :=
  exclusive_iff KeymapConfig.default true true switchedOn tappedWithBluetooth (by decide +kernel)

/-- The tap types Application on the wire, though Bluetooth is on. -/
theorem tappedWithBluetooth_types :
    ¬ ∀ (config : KeymapConfig) (nkro rgbEnabled : Bool) (r : Readings) (events : List Event),
      Along react OnAtKeys (powerOn config nkro rgbEnabled r) events →
      ∀ seen ∈ trace observe (powerOn config nkro rgbEnabled r) events, Exclusive seen := by
  intro h
  have hall := h KeymapConfig.default true true switchedOn tappedWithBluetooth (by decide +kernel)
  unfold tappedWithBluetooth at hall
  rw [trace_append] at hall
  have hpress := hall _ (List.mem_append_right _ List.mem_cons_self)
  have hbefore := hpress.1.2.1 0x65 (by decide +kernel)
  exact absurd hbefore (by decide +kernel)

end K530
