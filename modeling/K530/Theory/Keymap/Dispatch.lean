import K530.Keymap.Process
import K530.Theory.Keymap.Held
import K530.Theory.Keymap.Hooks
import K530.Theory.Keymap.Wire

/-!
# Where a Key Event Goes

A key event takes one of a few ways through `processRecord`, by the keycode it
stands for. A basic keycode goes to the tracker, and to the wire unless
Bluetooth is on. A key that holds a layer changes the layers and sends a report
without the weak modifiers. The others do what the hook does with them.

The wire sees a basic keycode as its remapping says, `wireCode`, and the tracker
sees it as it is.

A release stands for what the press stood for, whatever the layers have become
in between: `heldKeycode` is the keycode a key was last pressed as.

`Sound` is the invariant of every run. The report shows the modifiers, and the
tracker is packed. A channel is one thing that a run can leave on: a code in the
tracker, a key or a modifier on the wire.

## Main definitions

* `wireCode`: What the wire sees of a basic keycode.

## Theorems

* `handler_basic`: What QMK does with a basic keycode.
* `processRecord_basic`: Where a basic keycode goes.
-/

namespace K530

/-- What the wire sees of a basic keycode. -/
def wireCode (c : KeymapConfig) (keycode : Keycode) : Byte :=
  lowByte (keycodeConfig c keycode)

namespace Usb

def Typed (pressed : Bool) (code : Byte) (u u' : Usb) : Prop :=
  if pressed then
    u.Became u' (u.realMods ||| modMask code) u.weakMods
      (fun key => u.Pressed key ∨ isKey code = true ∧ u.Room code ∧ key = code)
  else
    u.Became u' (u.realMods &&& ~~~modMask code) u.weakMods
      (fun key => u.Pressed key ∧ ¬ (isKey code = true ∧ key = code))

theorem Typed.weakMods {pressed : Bool} {code : Byte} {u u' : Usb} (h : u.Typed pressed code u') :
    u'.weakMods = u.weakMods := by
  unfold Typed at h
  cases pressed with
  | true => exact Became.weakMods h
  | false => exact Became.weakMods h

theorem typed_other (pressed : Bool) (code : Byte) (u u' : Usb) (hkey : isKey code = false)
    (hmod : isMod code = false) (h : u.Became u' u.realMods u.weakMods u.Pressed) :
    u.Typed pressed code u' := by
  unfold Typed modMask
  rw [hmod, if_neg Bool.false_ne_true, or_noMods, andNot_noMods]
  cases pressed with
  | true =>
    refine ⟨h.settled, h.nkro, h.realMods, h.weakMods, fun key => ?_⟩
    rw [h.keys, hkey]
    exact ⟨Or.inl, fun hc => hc.resolve_right (fun hc => Bool.noConfusion hc.1)⟩
  | false =>
    refine ⟨h.settled, h.nkro, h.realMods, h.weakMods, fun key => ?_⟩
    rw [h.keys, hkey]
    exact ⟨fun hc => ⟨hc, fun hc => Bool.noConfusion hc.1⟩, fun hc => hc.1⟩

end Usb

namespace World

/-! ### The keycode of an event -/

def recalled (key : KeyPos) (q : Qmk) : Nat :=
  (Layers.readSourceLayersCache key q.layers.source).toNat

def heldKeycode (key : KeyPos) (q : Qmk) : Keycode :=
  Keymap.keymapKeyToKeycode (recalled key q) key

variable (record : KeyRecord) (q : Qmk)

theorem rememberLayer_frame :
    (rememberLayer record q).usb = q.usb ∧ (rememberLayer record q).config = q.config ∧
      (rememberLayer record q).layers.state = q.layers.state ∧
      (rememberLayer record q).layers.default = q.layers.default := by
  unfold rememberLayer
  split <;> exact ⟨rfl, rfl, rfl, rfl⟩

theorem layerSwitchGetLayer_congr (key : KeyPos) (q q' : Qmk) (hconfig : q'.config = q.config)
    (hstate : q'.layers.state = q.layers.state) (hdefault : q'.layers.default = q.layers.default) :
    layerSwitchGetLayer key q' = layerSwitchGetLayer key q := by
  unfold layerSwitchGetLayer Layers.highestLayer
  rw [hconfig, hstate, hdefault]

theorem getRecordKeycode_rememberLayer :
    getRecordKeycode record (rememberLayer record q) = getRecordKeycode record q := by
  have hframe := rememberLayer_frame record q
  unfold getRecordKeycode sourceLayer
  by_cases hpressed : record.pressed
  · rw [if_pos hpressed, if_pos hpressed,
      layerSwitchGetLayer_congr record.key q _ hframe.2.1 hframe.2.2.1 hframe.2.2.2]
  · unfold rememberLayer
    rw [if_neg hpressed, if_neg hpressed, if_neg hpressed]

theorem getRecordKeycode_release (h : record.pressed = false) :
    getRecordKeycode record q = heldKeycode record.key q := by
  unfold getRecordKeycode sourceLayer
  rw [h, if_neg Bool.false_ne_true]
  rfl

theorem heldKeycode_press (h : record.pressed) :
    heldKeycode record.key (rememberLayer record q) = getRecordKeycode record q := by
  unfold heldKeycode recalled rememberLayer getRecordKeycode sourceLayer
  rw [if_pos h, if_pos h]
  have hlt : layerSwitchGetLayer record.key q < 32 := Layers.highestLayer_lt _ _
  have hlayer : (BitVec.ofNat 8 (layerSwitchGetLayer record.key q)).toNat =
      layerSwitchGetLayer record.key q := by
    rw [BitVec.toNat_ofNat]
    omega
  dsimp only
  rw [Layers.read_update_self _ _ _ (by rw [hlayer]; exact hlt), hlayer]

theorem heldKeycode_other (key : KeyPos) (q : Qmk) (h : record.pressed → key ≠ record.key) :
    heldKeycode key (rememberLayer record q) = heldKeycode key q := by
  unfold heldKeycode recalled rememberLayer
  by_cases hpressed : record.pressed
  · rw [if_pos hpressed]
    dsimp only
    rw [Layers.read_update_other _ _ _ _ (Ne.symm (h hpressed))]
  · rw [if_neg hpressed]

/-! ### Actions -/

theorem actionForKeycode_key (c : KeymapConfig) (keycode : Keycode) (h : keycode ≤ 0xFF)
    (hkind : isKey (wireCode c keycode) ∨ isMod (wireCode c keycode)) :
    actionForKeycode c keycode = some (.mods false 0 (wireCode c keycode)) := by
  unfold actionForKeycode
  dsimp only
  rw [if_pos (keycodeConfig_basic c keycode h), if_pos]
  · rfl
  · rw [Bool.or_eq_true]
    exact hkind

theorem actionForKeycode_other (c : KeymapConfig) (keycode : Keycode) (h : keycode ≤ 0xFF)
    (hkey : isKey (wireCode c keycode) = false) (hmod : isMod (wireCode c keycode) = false) :
    actionForKeycode c keycode = none ∨ actionForKeycode c keycode = some .no ∨
      actionForKeycode c keycode = some .transparent ∨
      (∃ usage, actionForKeycode c keycode = some (.system usage)) ∨
      ∃ usage, actionForKeycode c keycode = some (.consumer usage) := by
  unfold wireCode at hkey hmod
  unfold actionForKeycode
  dsimp only
  rw [if_pos (keycodeConfig_basic c keycode h), hkey, hmod, Bool.or_self,
    if_neg Bool.false_ne_true]
  split
  · exact Or.inr (Or.inr (Or.inr (Or.inl ⟨_, rfl⟩)))
  · split
    · exact Or.inr (Or.inr (Or.inr (Or.inr ⟨_, rfl⟩)))
    · split
      · exact Or.inr (Or.inr (Or.inl rfl))
      · split
        · exact Or.inl rfl
        · exact Or.inr (Or.inl rfl)

theorem processMods_idle (pressed : Bool) (u : Usb) :
    Qmk.processMods pressed 0 0 u = u ∧ Qmk.processMods pressed 0 1 u = u := by
  cases pressed <;> exact ⟨rfl, rfl⟩

theorem processMods_typed (pressed : Bool) (code : Byte) (u : Usb) (h : u.Settled) :
    u.Typed pressed code (Qmk.processMods pressed 0 code u) := by
  cases pressed with
  | true => exact Usb.registerCode_spec code u h
  | false => exact Usb.unregisterCode_spec code u h

theorem handler_basic (h : getRecordKeycode record q ≤ 0xFF) (hs : q.usb.Settled) :
    q.usb.Typed record.pressed (wireCode q.config (getRecordKeycode record q))
        (processRecordHandler record q).usb ∧
      ((processRecordHandler record q).layers = q.layers ∨
        (processRecordHandler record q).layers = (rememberLayer record q).layers) ∧
      (processRecordHandler record q).config = q.config := by
  have hframe := rememberLayer_frame record q
  unfold processRecordHandler
  by_cases hkind : isKey (wireCode q.config (getRecordKeycode record q)) ∨
      isMod (wireCode q.config (getRecordKeycode record q))
  · rw [actionForKeycode_key _ _ h hkind]
    refine ⟨?_, Or.inr rfl, hframe.2.1⟩
    rw [← hframe.1]
    exact processMods_typed record.pressed _ _ (by rw [hframe.1]; exact hs)
  · have hkey : isKey (wireCode q.config (getRecordKeycode record q)) = false :=
      Bool.not_eq_true _ |>.mp (fun hc => hkind (Or.inl hc))
    have hmod : isMod (wireCode q.config (getRecordKeycode record q)) = false :=
      Bool.not_eq_true _ |>.mp (fun hc => hkind (Or.inr hc))
    have hidle := processMods_idle record.pressed (rememberLayer record q).usb
    have hself := Usb.became_self q.usb hs
    -- nothing is typed: the code is neither a key nor a modifier
    rcases actionForKeycode_other _ _ h hkey hmod with ha | ha | ha | ⟨usage, ha⟩ | ⟨usage, ha⟩
    · -- no action, and the layer is not even remembered
      rw [ha]
      exact ⟨Usb.typed_other _ _ _ _ hkey hmod hself, Or.inl rfl, rfl⟩
    · rw [ha]
      refine ⟨Usb.typed_other _ _ _ _ hkey hmod ?_, Or.inr rfl, hframe.2.1⟩
      show q.usb.Became (Qmk.processMods record.pressed 0 0 (rememberLayer record q).usb) _ _ _
      rw [hidle.1, hframe.1]
      exact hself
    · -- a transparent action is the key with code 1, which is no key
      rw [ha]
      refine ⟨Usb.typed_other _ _ _ _ hkey hmod ?_, Or.inr rfl, hframe.2.1⟩
      show q.usb.Became (Qmk.processMods record.pressed 0 1 (rememberLayer record q).usb) _ _ _
      rw [hidle.2, hframe.1]
      exact hself
    · -- a system or media key goes out in a report of its own
      rw [ha]
      refine ⟨Usb.typed_other _ _ _ _ hkey hmod ?_, Or.inr rfl, hframe.2.1⟩
      show q.usb.Became (Usb.systemSend _ (rememberLayer record q).usb) _ _ _
      rw [hframe.1]
      exact Usb.became_sent q.usb hs _ _ (fun _ => Iff.rfl)
    · rw [ha]
      refine ⟨Usb.typed_other _ _ _ _ hkey hmod ?_, Or.inr rfl, hframe.2.1⟩
      show q.usb.Became (Usb.consumerSend _ (rememberLayer record q).usb) _ _ _
      rw [hframe.1]
      exact Usb.became_sent q.usb hs _ _ (fun _ => Iff.rfl)

/-- A key that holds a layer: a momentary one, or a layer-tap key that has not
    been tapped. -/
def HoldsLayer (record : KeyRecord) (keycode : Keycode) : Prop :=
  keycode = mo Keymap.fnLayer ∨
    (keycode = Keymap.fn2Tap ∨ keycode = Keymap.fnCapsTap) ∧ record.tapCount = 0

/-- What a change of layer does: the weak modifiers go, the rest of the wire
    stays, and so does the memory of the keys. -/
structure LayerChange (q q' : Qmk) : Prop where
  usb : q.usb.Became q'.usb q.usb.realMods 0 q.usb.Pressed
  source : q'.layers.source = q.layers.source
  config : q'.config = q.config

theorem layerStateSet_change (state : BitVec 32) (q : Qmk) (hs : q.usb.Settled) :
    LayerChange q (q.layerStateSet state) :=
  ⟨Usb.clearKeyboardButModsAndKeys_spec q.usb hs, rfl, rfl⟩

theorem handler_layer (h : HoldsLayer record (getRecordKeycode record q)) (hs : q.usb.Settled) :
    LayerChange (rememberLayer record q) (processRecordHandler record q) := by
  have hs' : (rememberLayer record q).usb.Settled := by
    rw [(rememberLayer_frame record q).1]
    exact hs
  have hchange : ∀ state, LayerChange (rememberLayer record q)
      ((rememberLayer record q).layerStateSet state) :=
    fun state => layerStateSet_change state _ hs'
  unfold processRecordHandler
  -- without a tap, a layer-tap key sets its layer as a momentary one does
  rcases h with h | ⟨h | h, htap⟩
  · rw [h, actionForKeycode_mo]
    cases record.pressed <;> exact hchange _
  · rw [h, actionForKeycode_fn2Tap, htap]
    cases record.pressed <;> exact hchange _
  · rw [h, actionForKeycode_fnCapsTap, htap]
    cases record.pressed <;> exact hchange _

/-! ### Events -/

variable (now : BitVec 32) (keycode : Keycode)

theorem processRecordUser_above (record : KeyRecord) (w : World) (habove : keycode > 0xFF)
    (hfn2 : keycode ≠ Keymap.fn2Rec) (hrec : Keymap.recSlot? keycode = none)
    (hunpair : keycode ≠ Keymap.btUnpair) (hplay : Keymap.playSlot? keycode = none) :
    processRecordUser now keycode record w = (beforeSwitch now keycode record w, true) := by
  unfold processRecordUser
  dsimp only
  rw [if_neg hfn2, hrec]
  dsimp only
  rw [if_neg hunpair, hplay]
  dsimp only
  -- the tracker only takes basic keycodes, and only they are kept from the wire
  have hsame : btTrackBasicKeycode keycode record.pressed (beforeSwitch now keycode record w) =
      beforeSwitch now keycode record w := by
    unfold btTrackBasicKeycode
    rw [if_pos habove]
  rw [hsame, decide_eq_false (BitVec.not_le.mpr habove), Bool.and_false, Bool.not_false]

theorem heldKeycode_congr (key : KeyPos) (q q' : Qmk) (h : q'.layers.source = q.layers.source) :
    heldKeycode key q' = heldKeycode key q := by
  unfold heldKeycode recalled
  rw [h]

theorem heldKeycode_twice (key : KeyPos) (q : Qmk) :
    heldKeycode key (rememberLayer record (rememberLayer record q)) =
      heldKeycode key (rememberLayer record q) := by
  by_cases hself : record.pressed ∧ key = record.key
  · -- the second time finds the keycode the first one left
    rw [hself.2, heldKeycode_press record _ hself.1, getRecordKeycode_rememberLayer,
      heldKeycode_press record _ hself.1]
  · exact heldKeycode_other record key _ (fun hp hc => hself ⟨hp, hc⟩)

structure BasicEvent (record : KeyRecord) (w w' : World) : Prop where
  tracker : w'.tracker = w.tracker.track (getRecordKeycode record w.qmk) record.pressed
  driver : w'.driver = w.driver
  mute : w.btEnabled = true → w'.qmk.usb = w.qmk.usb
  wire : w.btEnabled = false → w.qmk.usb.Typed record.pressed
    (wireCode w.qmk.config (getRecordKeycode record w.qmk)) w'.qmk.usb
  held : ∀ key, heldKeycode key w'.qmk = heldKeycode key (rememberLayer record w.qmk)
  config : w'.qmk.config = w.qmk.config

/-- The world with the layer of the event remembered: what the hook gets. -/
def remembered (record : KeyRecord) (w : World) : World :=
  { w with qmk := rememberLayer record w.qmk }

@[simp] theorem remembered_qmk (w : World) :
    (remembered record w).qmk = rememberLayer record w.qmk := rfl

@[simp] theorem remembered_driver (w : World) : (remembered record w).driver = w.driver := rfl

@[simp] theorem remembered_tracker (w : World) : (remembered record w).tracker = w.tracker := rfl

variable (record : KeyRecord)

theorem processRecord_cases (w v : World) (goesOn : Bool)
    (h : processRecordUser now (getRecordKeycode record w.qmk) record (remembered record w) =
      (v, goesOn)) :
    (goesOn = false ∧ processRecord now record w = v) ∨
    (goesOn ∧ getRecordKeycode record w.qmk = Keymap.rgbTog ∧ record.pressed ∧
      processRecord now record w = { v with rgbEnabled := !v.rgbEnabled }) ∨
    (goesOn ∧ getRecordKeycode record w.qmk = Keymap.reset ∧ record.pressed ∧
      processRecord now record w = { v with qmk := v.qmk.onUsb Usb.clearKeyboard }) ∨
    (goesOn ∧
      processRecord now record w = { v with qmk := processRecordHandler record v.qmk }) := by
  unfold remembered at h
  unfold processRecord processRecordQuantum
  dsimp only
  rw [h]
  dsimp only
  cases goesOn with
  | false => exact Or.inl ⟨rfl, rfl⟩
  | true =>
    rw [Bool.not_true, if_neg Bool.false_ne_true]
    split
    · rename_i hrgb
      rw [Bool.and_eq_true, beq_iff_eq] at hrgb
      exact Or.inr (Or.inl ⟨rfl, hrgb.2, hrgb.1, rfl⟩)
    · split
      · rename_i hreset
        rw [Bool.and_eq_true, beq_iff_eq] at hreset
        exact Or.inr (Or.inr (Or.inl ⟨rfl, hreset.2, hreset.1, rfl⟩))
      · exact Or.inr (Or.inr (Or.inr ⟨rfl, rfl⟩))

theorem processRecord_ended (w v : World)
    (h : processRecordUser now (getRecordKeycode record w.qmk) record (remembered record w) =
      (v, false)) : processRecord now record w = v := by
  rcases processRecord_cases now record w v false h with hc | hc | hc | hc
  · exact hc.2
  · exact absurd hc.1 Bool.false_ne_true
  · exact absurd hc.1 Bool.false_ne_true
  · exact absurd hc.1 Bool.false_ne_true

theorem processRecord_passed (w v : World)
    (h : processRecordUser now (getRecordKeycode record w.qmk) record (remembered record w) =
      (v, true)) (hrgb : getRecordKeycode record w.qmk ≠ Keymap.rgbTog)
    (hreset : getRecordKeycode record w.qmk ≠ Keymap.reset) :
    processRecord now record w = { v with qmk := processRecordHandler record v.qmk } := by
  rcases processRecord_cases now record w v true h with hc | hc | hc | hc
  · exact Bool.noConfusion hc.1
  · exact absurd hc.2.1 hrgb
  · exact absurd hc.2.1 hreset
  · exact hc.2

variable (w : World)

theorem processRecord_basic (h : getRecordKeycode record w.qmk ≤ 0xFF) (hs : w.qmk.usb.Settled) :
    BasicEvent record w (processRecord now record w) := by
  have hframe := rememberLayer_frame record w.qmk
  have huser := processRecordUser_basic now _ record (remembered record w) h
  have htracker := btTrackBasicKeycode_tracker (getRecordKeycode record w.qmk) record.pressed
    (beforeSwitch now (getRecordKeycode record w.qmk) record (remembered record w))
  rw [if_neg (BitVec.not_lt.mpr h), beforeSwitch_tracker, remembered_tracker] at htracker
  cases hon : w.btEnabled with
  | true =>
    rw [show World.btEnabled (remembered record w) = true from hon,
      Bool.not_true] at huser
    rw [processRecord_ended now record w _ huser]
    refine ⟨htracker, ?_, fun _ => ?_, fun hoff => ?_, fun key => ?_, ?_⟩
    · rw [btTrackBasicKeycode_driver, beforeSwitch_driver, remembered_driver]
    · rw [btTrackBasicKeycode_qmk, beforeSwitch_qmk, remembered_qmk]
      exact hframe.1
    · exact Bool.noConfusion (hon.symm.trans hoff)
    · rw [btTrackBasicKeycode_qmk, beforeSwitch_qmk, remembered_qmk]
    · rw [btTrackBasicKeycode_qmk, beforeSwitch_qmk, remembered_qmk]
      exact hframe.2.1
  | false =>
    rw [show World.btEnabled (remembered record w) = false from hon,
      Bool.not_false] at huser
    have hne : ∀ own : Keycode, 0xFF < own → getRecordKeycode record w.qmk ≠ own := by
      intro own hown hc
      rw [hc] at h
      exact absurd h (BitVec.not_le.mpr hown)
    rw [processRecord_passed now record w _ huser (hne _ (by decide)) (hne _ (by decide))]
    have hsame := getRecordKeycode_rememberLayer record w.qmk
    have hhandler := handler_basic record (rememberLayer record w.qmk) (by rw [hsame]; exact h)
      (by rw [hframe.1]; exact hs)
    rw [hsame, hframe.1, hframe.2.1] at hhandler
    refine ⟨htracker, ?_, fun hc => absurd (hon.symm.trans hc) Bool.false_ne_true, fun _ => ?_,
      fun key => ?_, ?_⟩
    · show (btTrackBasicKeycode _ _ _).driver = _
      rw [btTrackBasicKeycode_driver, beforeSwitch_driver, remembered_driver]
    · dsimp only
      rw [btTrackBasicKeycode_qmk, beforeSwitch_qmk, remembered_qmk]
      exact hhandler.1
    · dsimp only
      rw [btTrackBasicKeycode_qmk, beforeSwitch_qmk, remembered_qmk]
      rcases hhandler.2.1 with hlayers | hlayers
      · exact heldKeycode_congr key _ _ (congrArg Layers.source hlayers)
      · rw [← heldKeycode_twice]
        exact heldKeycode_congr key _ _ (congrArg Layers.source hlayers)
    · dsimp only
      rw [btTrackBasicKeycode_qmk, beforeSwitch_qmk, remembered_qmk]
      exact hhandler.2.2

structure LayerEvent (record : KeyRecord) (w w' : World) : Prop where
  tracker : w'.tracker = w.tracker
  driver : w'.driver = w.driver
  wire : w.qmk.usb.Became w'.qmk.usb w.qmk.usb.realMods 0 w.qmk.usb.Pressed
  held : ∀ key, heldKeycode key w'.qmk = heldKeycode key (rememberLayer record w.qmk)
  config : w'.qmk.config = w.qmk.config

theorem processRecord_layer (h : HoldsLayer record (getRecordKeycode record w.qmk))
    (hs : w.qmk.usb.Settled) : LayerEvent record w (processRecord now record w) := by
  have hframe := rememberLayer_frame record w.qmk
  have hkeycode : getRecordKeycode record w.qmk = mo Keymap.fnLayer ∨
      getRecordKeycode record w.qmk = Keymap.fn2Tap ∨
      getRecordKeycode record w.qmk = Keymap.fnCapsTap :=
    h.imp id (fun hc => hc.1)
  have hsame := getRecordKeycode_rememberLayer record w.qmk
  have hhandler := handler_layer record (rememberLayer record w.qmk) (by rw [hsame]; exact h)
    (by rw [hframe.1]; exact hs)
  have huser : processRecordUser now (getRecordKeycode record w.qmk) record (remembered record w) =
      (beforeSwitch now (getRecordKeycode record w.qmk) record (remembered record w), true) := by
    rcases hkeycode with hk | hk | hk <;> rw [hk] <;>
      exact processRecordUser_above now _ record _ (by decide) (by decide) (by decide)
        (by decide) (by decide)
  have hnot : getRecordKeycode record w.qmk ≠ Keymap.rgbTog ∧
      getRecordKeycode record w.qmk ≠ Keymap.reset := by
    rcases hkeycode with hk | hk | hk <;> rw [hk] <;> decide
  rw [processRecord_passed now record w _ huser hnot.1 hnot.2]
  have hwire := hhandler.usb
  have hframe' := rememberLayer_frame record (rememberLayer record w.qmk)
  rw [hframe'.1, hframe.1] at hwire
  refine ⟨?_, ?_, ?_, fun key => ?_, ?_⟩
  · exact beforeSwitch_tracker now (getRecordKeycode record w.qmk) record (remembered record w)
  · exact beforeSwitch_driver now (getRecordKeycode record w.qmk) record (remembered record w)
  · dsimp only
    rw [beforeSwitch_qmk, remembered_qmk]
    exact hwire
  · dsimp only
    rw [beforeSwitch_qmk, remembered_qmk, heldKeycode_congr key _ _ hhandler.source,
      heldKeycode_twice]
  · dsimp only
    rw [beforeSwitch_qmk, remembered_qmk, hhandler.config, hframe'.2.1, hframe.2.1]

/-! ### Runs -/

/-- What happens in the main loop: a key event, or a turn. -/
inductive Event where
  | key (now : BitVec 32) (record : KeyRecord)
  | scan (now : BitVec 32) (r : Readings) (link : Byte) (anyKeyDown : Bool)

/-- The world after an event. -/
def react (w : World) : Event → World
  | .key now record => processRecord now record w
  | .scan now r link anyKeyDown => matrixScanUser now r link anyKeyDown w

/-- A key pressed or released at time 0, without a tap. -/
def keyAt (row : Fin 5) (col : Fin 14) (pressed : Bool) : Event :=
  .key 0 { key := { row, col }, pressed, tapCount := 0 }

/-- The invariant of a run: the report shows the modifiers, and the tracker is
    packed. -/
structure Sound (w : World) : Prop where
  settled : w.qmk.usb.Settled
  packed : w.tracker.Packed

theorem powerOn_sound (config : KeymapConfig) (nkro rgbEnabled : Bool) (r : Readings) :
    (powerOn config nkro rgbEnabled r).Sound :=
  ⟨Usb.init_settled nkro, Held.empty, Tracker.empty_shows⟩

theorem btTrackBasicKeycode_sound (pressed : Bool) (w : World) (h : w.Sound) :
    (btTrackBasicKeycode keycode pressed w).Sound := by
  refine ⟨?_, ?_⟩
  · rw [btTrackBasicKeycode_qmk]
    exact h.settled
  · rw [btTrackBasicKeycode_tracker]
    by_cases habove : keycode > 0xFF
    · rw [if_pos habove]
      exact h.packed
    · rw [if_neg habove]
      exact Tracker.track_packed _ h.packed keycode pressed (BitVec.not_lt.mp habove)

theorem playEvent_sound (e : MacroEvent) (h : w.Sound) : (playEvent w e).Sound := by
  unfold playEvent
  refine btTrackBasicKeycode_sound e.keycode e.pressed _ ?_
  split
  · refine ⟨?_, h.packed⟩
    cases e.pressed with
    | true => exact (Usb.registerCode16_spec e.keycode _ h.settled).settled
    | false => exact (Usb.unregisterCode16_spec e.keycode _ h.settled).settled
  · exact h

theorem processMods_settled (pressed : Bool) (mods code : Byte) (u : Usb) (h : u.Settled) :
    (Qmk.processMods pressed mods code u).Settled := by
  have hsend : ∀ v : Usb, v.macroMods = 0 → v.oneshotMods = 0 → v.sendKeyboardReport.Settled :=
    Usb.sendKeyboardReport_settled
  unfold Qmk.processMods
  cases pressed with
  | true =>
    refine (Usb.registerCode_spec code _ ?_).settled
    split
    · split <;> exact hsend _ h.macroMods h.oneshotMods
    · exact h
  | false =>
    have hcode := (Usb.unregisterCode_spec code u h).settled
    rw [if_neg Bool.false_ne_true]
    dsimp only
    split
    · split <;> exact hsend _ hcode.macroMods hcode.oneshotMods
    · exact hcode

theorem processAction_settled (pressed : Bool) (tapCount : Nat) (action : Action) (q : Qmk)
    (h : q.usb.Settled) : (q.processAction pressed tapCount action).usb.Settled := by
  have hlayer : ∀ state, (q.layerStateSet state).usb.Settled :=
    fun state => (layerStateSet_change state q h).usb.settled
  unfold Qmk.processAction
  cases action with
  | mods right mods code => exact processMods_settled pressed _ code q.usb h
  | system usage => exact ⟨h.macroMods, h.oneshotMods, h.shown⟩
  | consumer usage => exact ⟨h.macroMods, h.oneshotMods, h.shown⟩
  | layerOnOff layer => cases pressed <;> exact hlayer _
  | layerTapKey layer code =>
    -- a tap types the code, anything else changes the layers
    cases pressed with
    | true =>
      dsimp only
      rw [if_pos rfl]
      split
      · exact (Usb.registerCode_spec code q.usb h).settled
      · exact hlayer _
    | false =>
      dsimp only
      rw [if_neg Bool.false_ne_true]
      split
      · exact (Usb.unregisterCode_spec code q.usb h).settled
      · exact hlayer _

theorem processRecordUser_sound (h : w.Sound) :
    (processRecordUser now keycode record w).1.Sound := by
  have hbefore : (beforeSwitch now keycode record w).Sound := by
    refine ⟨?_, ?_⟩
    · rw [beforeSwitch_qmk]
      exact h.settled
    · rw [beforeSwitch_tracker]
      exact h.packed
  unfold processRecordUser
  dsimp only
  -- the cases of the switch: FN2_REC, a recording key, BT_UNPAIR, a playback key
  -- and the default
  split
  · unfold handleFn2Rec
    split
    · exact ⟨(layerStateSet_change _ _ hbefore.settled).usb.settled, hbefore.packed⟩
    · exact ⟨(layerStateSet_change _ _ hbefore.settled).usb.settled, hbefore.packed⟩
  · split
    · split
      · exact ⟨hbefore.settled, hbefore.packed⟩
      · exact hbefore
    · split
      · unfold handleBtUnpair
        split
        · exact ⟨hbefore.settled, hbefore.packed⟩
        · exact ⟨hbefore.settled, hbefore.packed⟩
      · split
        · split
          · -- the loop that plays a slot, event by event
            exact StepRun.run_invariant playEvent Sound playEvent_sound _ _ hbefore
          · exact hbefore
        · exact btTrackBasicKeycode_sound _ _ _ hbefore

theorem handler_settled (q : Qmk) (h : q.usb.Settled) :
    (processRecordHandler record q).usb.Settled := by
  unfold processRecordHandler
  split
  · refine processAction_settled _ _ _ _ ?_
    rw [(rememberLayer_frame record q).1]
    exact h
  · exact h

theorem processRecord_sound (h : w.Sound) : (processRecord now record w).Sound := by
  have huser := processRecordUser_sound now (getRecordKeycode record w.qmk) record
    (remembered record w)
    ⟨by rw [remembered_qmk, (rememberLayer_frame record w.qmk).1]; exact h.settled, h.packed⟩
  -- the hook ends it, RGB_TOG, the bootloader, or QMK goes on
  rcases processRecord_cases now record w _ _ rfl with ⟨-, hc⟩ | ⟨-, -, -, hc⟩ | ⟨-, -, -, hc⟩ |
    ⟨-, hc⟩
  · rw [hc]
    exact huser
  · rw [hc]
    exact ⟨huser.settled, huser.packed⟩
  · rw [hc]
    exact ⟨(Usb.clearKeyboard_spec _ huser.settled).settled, huser.packed⟩
  · rw [hc]
    exact ⟨handler_settled record _ huser.settled, huser.packed⟩

theorem react_sound (e : Event) (h : w.Sound) : (react w e).Sound := by
  cases e with
  | key now record => exact processRecord_sound now record w h
  | scan now r link anyKeyDown =>
    have hframe := matrixScanUser_frame now r link anyKeyDown w
    refine ⟨?_, ?_⟩
    · unfold react
      rw [hframe.1]
      exact h.settled
    · unfold react
      rw [hframe.2.2.1]
      exact h.packed

end World

open World

/-- Bluetooth is on at every key event. -/
def OnAtKeys (w : World) : Event → Prop
  | .key _ _ => w.btEnabled = true
  | .scan _ _ _ _ => True

instance decidableOnAtKeys (w : World) : (e : Event) → Decidable (OnAtKeys w e)
  | .key _ _ => inferInstanceAs (Decidable (_ = _))
  | .scan _ _ _ _ => inferInstanceAs (Decidable True)

/-! ### Channels -/

/-- One thing that can be left on. -/
inductive Channel where
  /-- a code in the tracker -/
  | tracked (code : Byte)
  /-- a key in the report -/
  | key (code : Byte)
  /-- a real modifier -/
  | realMod (code : Byte)
  /-- a weak modifier -/
  | weakMod (i : Fin 8)

def Channel.on (w : World) : Channel → Prop
  | tracked code => w.tracker.Holds code
  | key code => w.qmk.usb.Pressed code
  | realMod code => isMod code = true ∧ hasMod w.qmk.usb.realMods code = true
  | weakMod i => w.qmk.usb.weakMods.getLsbD i = true

/-- A press of the channel finds room. -/
def Channel.hasRoom (w : World) : Channel → Prop
  | tracked code => w.tracker.Room code
  | key code => w.qmk.usb.Room code
  | realMod _ => True
  | weakMod _ => True

def Channel.OnWire : Channel → Prop
  | key _ => True
  | realMod _ => True
  | _ => False

/-- A code typed on the wire is about the channel. -/
def Channel.Types (typed : Byte) : Channel → Prop
  | key code => isKey code = true ∧ code = typed
  | realMod code => isMod code = true ∧ code = typed
  | _ => False

theorem Channel.on_of_press (ch : Channel) (h : ch.OnWire) (code : Byte) (w w' : World)
    (hkeys : ∀ key, w'.qmk.usb.Pressed key ↔
      w.qmk.usb.Pressed key ∨ isKey code ∧ w.qmk.usb.Room code ∧ key = code)
    (hreal : w'.qmk.usb.realMods = w.qmk.usb.realMods ||| Usb.modMask code) :
    ch.on w' ↔ ch.on w ∨ ch.Types code ∧ ch.hasRoom w := by
  cases ch with
  | tracked _ => exact h.elim
  | weakMod _ => exact h.elim
  | key key =>
    unfold on Types hasRoom
    dsimp only
    rw [hkeys]
    refine or_congr_right ⟨?_, ?_⟩
    · rintro ⟨hkey, hroom, rfl⟩
      exact ⟨⟨hkey, rfl⟩, hroom⟩
    · rintro ⟨⟨hkey, rfl⟩, hroom⟩
      exact ⟨hkey, hroom, rfl⟩
  | realMod mod =>
    unfold on Types hasRoom
    dsimp only
    rw [hreal, and_true]
    constructor
    · rintro ⟨hmod, hbit⟩
      rcases (Usb.hasMod_addMask _ _ _ hmod).mp hbit with hbit | hsame
      · exact Or.inl ⟨hmod, hbit⟩
      · exact Or.inr ⟨hmod, hsame⟩
    · rintro (⟨hmod, hbit⟩ | ⟨hmod, hsame⟩)
      · exact ⟨hmod, (Usb.hasMod_addMask _ _ _ hmod).mpr (Or.inl hbit)⟩
      · exact ⟨hmod, (Usb.hasMod_addMask _ _ _ hmod).mpr (Or.inr hsame)⟩

theorem Channel.on_of_release (ch : Channel) (h : ch.OnWire) (code : Byte) (w w' : World)
    (hkeys : ∀ key, w'.qmk.usb.Pressed key ↔
      w.qmk.usb.Pressed key ∧ ¬ (isKey code ∧ key = code))
    (hreal : w'.qmk.usb.realMods = w.qmk.usb.realMods &&& ~~~Usb.modMask code) :
    ch.on w' ↔ ch.on w ∧ ¬ ch.Types code := by
  cases ch with
  | tracked _ => exact h.elim
  | weakMod _ => exact h.elim
  | key key =>
    unfold on Types
    dsimp only
    rw [hkeys]
    refine and_congr_right (fun _ => not_congr ⟨?_, ?_⟩)
    · rintro ⟨hkey, rfl⟩
      exact ⟨hkey, rfl⟩
    · rintro ⟨hkey, rfl⟩
      exact ⟨hkey, rfl⟩
  | realMod mod =>
    unfold on Types
    dsimp only
    rw [hreal]
    constructor
    · rintro ⟨hmod, hbit⟩
      have hdel := (Usb.hasMod_delMask _ _ _ hmod).mp hbit
      exact ⟨⟨hmod, hdel.1⟩, fun hc => hdel.2 hc.2⟩
    · rintro ⟨⟨hmod, hbit⟩, hnot⟩
      exact ⟨hmod, (Usb.hasMod_delMask _ _ _ hmod).mpr ⟨hbit, fun hsame => hnot ⟨hmod, hsame⟩⟩⟩

theorem Channel.on_congr (ch : Channel) (h : ch.OnWire) (w w' : World)
    (hkeys : ∀ key, w'.qmk.usb.Pressed key ↔ w.qmk.usb.Pressed key)
    (hreal : w'.qmk.usb.realMods = w.qmk.usb.realMods) : ch.on w' ↔ ch.on w := by
  cases ch with
  | tracked _ => exact h.elim
  | weakMod _ => exact h.elim
  | key key => exact hkeys key
  | realMod mod =>
    unfold on
    dsimp only
    rw [hreal]

theorem clear_iff_channels (w : World) (h : w.Sound) :
    w.qmk.usb.Clear ∧ w.tracker = Tracker.empty ↔ ∀ ch : Channel, ¬ ch.on w := by
  rw [Usb.clear_iff _ h.settled, Tracker.eq_empty_iff _ h.packed]
  constructor
  · rintro ⟨⟨hkeys, hreal, hweak⟩, htracked⟩ ch
    cases ch with
    | tracked code => exact htracked code
    | key code => exact hkeys code
    | realMod code =>
      rintro ⟨hmod, hbit⟩
      rw [(mods_eq_zero_iff _).mp hreal code hmod] at hbit
      exact Bool.noConfusion hbit
    | weakMod i =>
      intro hbit
      unfold Channel.on at hbit
      dsimp only at hbit
      rw [hweak, show (0 : Byte).getLsbD i = false from BitVec.getLsbD_zero] at hbit
      exact Bool.noConfusion hbit
  · intro hoff
    -- the modifiers are two bytes, and the channels are their bits
    refine ⟨⟨fun key => hoff (.key key), ?_, ?_⟩, fun code => hoff (.tracked code)⟩
    · refine (mods_eq_zero_iff _).mpr (fun code hmod => ?_)
      exact Bool.not_eq_true _ |>.mp (fun hbit => hoff (.realMod code) ⟨hmod, hbit⟩)
    · refine BitVec.eq_of_getLsbD_eq (fun i hi => ?_)
      rw [show (0 : Byte).getLsbD i = false from BitVec.getLsbD_zero]
      exact Bool.not_eq_true _ |>.mp (hoff (.weakMod ⟨i, hi⟩))

end K530
