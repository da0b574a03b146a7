import K530.Lib.Run
import K530.Theory.Keymap.Dispatch
import Mathlib.Data.Finset.Insert
import Mathlib.Data.Finset.Erase

/-!
# Keys Across the Toggle

A key may go down with Bluetooth off and come up with it on. The tracker sees
both events, since every basic keycode goes to it whatever the toggle says. The
wire sees the events that come while Bluetooth is off and no others, so it keeps
the key.

`Hands` is the main loop with the keys that are physically down. A run is one of
basic keycodes and of keys that hold a layer, each going down before it comes
up, with turns of the main loop in between that may move the toggle.

The tracker is right at every moment: what it holds is held by some key that is
down. The wire is a latch per key and modifier, turned on by the presses and off
by the releases that come while Bluetooth is off, and `nothing_stuck_iff` says
when it ends up clear.

## Main definitions

* `Hands`: The main loop, and the keys that are down.

## Theorems

* `step_tracked`: What the tracker holds is held by a key that is down.
* `nothing_stuck_iff`: Nothing is left down exactly when every press on the wire
  is released there.
-/

namespace K530

open StepRun World

/-- The main loop, and the keys that are physically down. -/
structure Hands where
  world : World
  down : Finset KeyPos

namespace Hands

/-- The keys that are down after a key event. -/
def downAfter (record : KeyRecord) (down : Finset KeyPos) : Finset KeyPos :=
  if record.pressed then insert record.key down else down.erase record.key

/-- An event, for both. -/
def step (s : Hands) : Event → Hands
  | .key now record =>
    { world := react s.world (.key now record),
      down := downAfter record s.down }
  | .scan now r link anyKeyDown =>
    { s with world := react s.world (.scan now r link anyKeyDown) }

/-- A key goes down that was up, or up that was down, and it stands for a basic
    keycode or holds a layer. -/
def Ordinary (s : Hands) : Event → Prop
  | .key _ record =>
    (getRecordKeycode record s.world.qmk ≤ 0xFF ∨
      HoldsLayer record (getRecordKeycode record s.world.qmk)) ∧
    (record.pressed = true ↔ record.key ∉ s.down)
  | .scan _ _ _ _ => True

/-- The event is a basic keycode that goes to the wire, and is about the
    channel. -/
def TypedOff (ch : Channel) (s : Hands) (record : KeyRecord) : Prop :=
  s.world.btEnabled = false ∧ getRecordKeycode record s.world.qmk ≤ 0xFF ∧
    ch.Types (wireCode s.world.qmk.config (getRecordKeycode record s.world.qmk))

/-- The event is a press on the wire that finds room. -/
def sets (ch : Channel) (s : Hands) : Event → Prop
  | .key _ record => record.pressed = true ∧ TypedOff ch s record ∧ ch.hasRoom s.world
  | .scan _ _ _ _ => False

/-- The event is a release on the wire. -/
def resets (ch : Channel) (s : Hands) : Event → Prop
  | .key _ record => record.pressed = false ∧ TypedOff ch s record
  | .scan _ _ _ _ => False

/-- Every press on the wire is followed by a release of the same key or modifier
    on the wire. -/
def Released (s : Hands) (events : List Event) : Prop :=
  ∀ code, Answered step (sets (.key code)) (resets (.key code)) s events ∧
    Answered step (sets (.realMod code)) (resets (.realMod code)) s events

/-! ### The invariant -/

def HeldBy (down : Finset KeyPos) (q : Qmk) (code : Byte) : Prop :=
  ∃ key ∈ down, heldKeycode key q ≤ 0xFF ∧ lowByte (heldKeycode key q) = code

theorem heldBy_other (down : Finset KeyPos) (record : KeyRecord) (q q' : Qmk)
    (hheld : ∀ key, heldKeycode key q' = heldKeycode key (rememberLayer record q)) (key : KeyPos)
    (hkey : key ∈ down) (hne : key ≠ record.key) (hle : heldKeycode key q ≤ 0xFF) :
    HeldBy (downAfter record down) q' (lowByte (heldKeycode key q)) := by
  have hsame : heldKeycode key q' = heldKeycode key q := by
    rw [hheld, heldKeycode_other record key _ (fun _ => hne)]
  refine ⟨key, ?_, ?_, ?_⟩
  · unfold downAfter
    split
    · exact Finset.mem_insert_of_mem hkey
    · exact Finset.mem_erase.mpr ⟨hne, hkey⟩
  · rw [hsame]
    exact hle
  · rw [hsame]

/-- The tracker holds what some key that is down was pressed as, and no weak
    modifier is set. -/
structure Tracked (s : Hands) : Prop where
  sound : s.world.Sound
  weakMods : s.world.qmk.usb.weakMods = 0
  held : ∀ code, s.world.tracker.Holds code → HeldBy s.down s.world.qmk code

theorem tracked_basic (s : Hands) (now : BitVec 32) (record : KeyRecord) (h : s.Tracked)
    (hbasic : getRecordKeycode record s.world.qmk ≤ 0xFF)
    (hturn : record.pressed ↔ record.key ∉ s.down) :
    (s.step (.key now record)).Tracked := by
  have hevent := processRecord_basic now record s.world hbasic h.sound.settled
  refine ⟨processRecord_sound now record s.world h.sound, ?_, fun code hcode => ?_⟩
  · show (processRecord now record s.world).qmk.usb.weakMods = 0
    cases hon : s.world.btEnabled with
    | true => rw [hevent.mute hon, h.weakMods]
    | false => rw [(hevent.wire hon).weakMods, h.weakMods]
  · change (processRecord now record s.world).tracker.Holds code at hcode
    show HeldBy (downAfter record s.down) (processRecord now record s.world).qmk code
    rw [hevent.tracker, Tracker.holds_track _ h.sound.packed _ _ hbasic] at hcode
    by_cases hpressed : record.pressed
    · rw [if_pos hpressed] at hcode
      rcases hcode with hcode | ⟨hsame, -, -⟩
      · -- some other key held it, and still does
        obtain ⟨key, hkey, hle, rfl⟩ := h.held code hcode
        have hne : key ≠ record.key := by
          rintro rfl
          exact hturn.mp hpressed hkey
        exact heldBy_other s.down record _ _ hevent.held key hkey hne hle
      · -- the event's own key holds it from now on
        have hself : heldKeycode record.key (processRecord now record s.world).qmk =
            getRecordKeycode record s.world.qmk := by
          rw [hevent.held, heldKeycode_press record _ hpressed]
        refine ⟨record.key, ?_, ?_, ?_⟩
        · unfold downAfter
          rw [if_pos hpressed]
          exact Finset.mem_insert_self _ _
        · rw [hself]
          exact hbasic
        · rw [hself]
          exact hsame.symm
    · rw [if_neg hpressed] at hcode
      obtain ⟨key, hkey, hle, rfl⟩ := h.held code hcode.1
      -- the event's own key held what has been released
      have hne : key ≠ record.key := by
        rintro rfl
        rw [getRecordKeycode_release record _ (Bool.not_eq_true _ |>.mp hpressed)] at hcode
        exact hcode.2 rfl
      exact heldBy_other s.down record _ _ hevent.held key hkey hne hle

theorem holdsLayer_above (record : KeyRecord) (keycode : Keycode) (h : HoldsLayer record keycode) :
    ¬ keycode ≤ 0xFF := by
  rcases h with rfl | ⟨rfl | rfl, -⟩ <;> decide

theorem tracked_layer (s : Hands) (now : BitVec 32) (record : KeyRecord) (h : s.Tracked)
    (hlayer : HoldsLayer record (getRecordKeycode record s.world.qmk))
    (hturn : record.pressed ↔ record.key ∉ s.down) :
    (s.step (.key now record)).Tracked := by
  have hevent := processRecord_layer now record s.world hlayer h.sound.settled
  refine ⟨processRecord_sound now record s.world h.sound, hevent.wire.weakMods,
    fun code hcode => ?_⟩
  change (processRecord now record s.world).tracker.Holds code at hcode
  show HeldBy (downAfter record s.down) (processRecord now record s.world).qmk code
  rw [hevent.tracker] at hcode
  obtain ⟨key, hkey, hle, rfl⟩ := h.held code hcode
  -- a key that holds a layer holds no code
  have hne : key ≠ record.key := by
    rintro rfl
    by_cases hpressed : record.pressed
    · exact hturn.mp hpressed hkey
    · rw [getRecordKeycode_release record _ (Bool.not_eq_true _ |>.mp hpressed)] at hlayer
      exact holdsLayer_above record _ hlayer hle
  exact heldBy_other s.down record _ _ hevent.held key hkey hne hle

theorem step_tracked (s : Hands) (e : Event) (h : s.Tracked) (hord : s.Ordinary e) :
    (s.step e).Tracked := by
  cases e with
  | key now record =>
    rcases hord.1 with hbasic | hlayer
    · exact tracked_basic s now record h hbasic hord.2
    · exact tracked_layer s now record h hlayer hord.2
  | scan now r link anyKeyDown =>
    -- a turn may commit the toggle, and that clears nothing
    have hframe := matrixScanUser_frame now r link anyKeyDown s.world
    refine ⟨react_sound s.world (.scan now r link anyKeyDown) h.sound, ?_, fun code hcode => ?_⟩
    · show (matrixScanUser now r link anyKeyDown s.world).qmk.usb.weakMods = 0
      rw [hframe.1, h.weakMods]
    · change (matrixScanUser now r link anyKeyDown s.world).tracker.Holds code at hcode
      rw [hframe.2.2.1] at hcode
      show HeldBy s.down (matrixScanUser now r link anyKeyDown s.world).qmk code
      rw [hframe.1]
      exact h.held code hcode

/-! ### The wire -/

theorem turns_of_quiet (ch : Channel) (s : Hands) (now : BitVec 32) (record : KeyRecord)
    (hsame : ch.on (s.step (.key now record)).world ↔ ch.on s.world)
    (hquiet : ¬ TypedOff ch s record) :
    ch.on (s.step (.key now record)).world ↔
      sets ch s (.key now record) ∨ ch.on s.world ∧ ¬ resets ch s (.key now record) := by
  rw [hsame]
  exact ⟨fun hon => Or.inr ⟨hon, fun hr => hquiet hr.2⟩,
    fun hc => hc.elim (fun hs => absurd hs.2.1 hquiet) (fun hs => hs.1)⟩

theorem turns_of_typed (ch : Channel) (h : ch.OnWire) (s : Hands) (now : BitVec 32)
    (record : KeyRecord) (hbasic : getRecordKeycode record s.world.qmk ≤ 0xFF)
    (hoff : s.world.btEnabled = false)
    (hevent : BasicEvent record s.world (processRecord now record s.world)) :
    ch.on (s.step (.key now record)).world ↔
      sets ch s (.key now record) ∨ ch.on s.world ∧ ¬ resets ch s (.key now record) := by
  have htyped := hevent.wire hoff
  unfold Usb.Typed at htyped
  have htypes : TypedOff ch s record ↔
      ch.Types (wireCode s.world.qmk.config (getRecordKeycode record s.world.qmk)) :=
    ⟨fun hc => hc.2.2, fun hc => ⟨hoff, hbasic, hc⟩⟩
  refine turns_iff record.pressed _ _ _ _ (fun hpressed => ?_) (fun hpressed => ?_)
  · rw [if_pos hpressed] at htyped
    rw [htypes]
    exact ch.on_of_press h _ _ _ htyped.keys htyped.realMods
  · rw [if_neg (by rw [hpressed]; exact Bool.false_ne_true)] at htyped
    rw [htypes]
    exact ch.on_of_release h _ _ _ htyped.keys htyped.realMods

theorem wire_isLatch (ch : Channel) (h : ch.OnWire) :
    IsLatch step Ordinary Tracked (fun s => ch.on s.world) (sets ch) (resets ch) := by
  refine ⟨step_tracked, fun s e hs hord => ?_⟩
  cases e with
  | key now record =>
    rcases hord.1 with hbasic | hlayer
    · have hevent := processRecord_basic now record s.world hbasic hs.sound.settled
      cases hon : s.world.btEnabled with
      | true =>
        -- the hook ends the event before QMK sees it
        refine turns_of_quiet ch s now record ?_ (fun hc => ?_)
        · show ch.on (processRecord now record s.world) ↔ _
          have husb := hevent.mute hon
          exact ch.on_congr h _ _ (fun key => by rw [husb]) (by rw [husb])
        · exact Bool.noConfusion (hon.symm.trans hc.1)
      | false => exact turns_of_typed ch h s now record hbasic hon hevent
    · have hevent := processRecord_layer now record s.world hlayer hs.sound.settled
      refine turns_of_quiet ch s now record ?_ (fun hc => ?_)
      · exact ch.on_congr h _ _ hevent.wire.keys hevent.wire.realMods
      · exact holdsLayer_above record _ hlayer hc.2.1
  | scan now r link anyKeyDown =>
    have hframe := matrixScanUser_frame now r link anyKeyDown s.world
    have hsame : ch.on (matrixScanUser now r link anyKeyDown s.world) ↔ ch.on s.world :=
      ch.on_congr h _ _ (fun key => by rw [hframe.1]) (by rw [hframe.1])
    show ch.on (matrixScanUser now r link anyKeyDown s.world) ↔ False ∨ _ ∧ ¬ False
    rw [hsame, false_or, not_false_eq_true, and_true]

/-- The main loop at power-on, with no key down. -/
def start (config : KeymapConfig) (nkro rgbEnabled : Bool) (r : Readings) : Hands :=
  { world := powerOn config nkro rgbEnabled r, down := ∅ }

theorem start_tracked (config : KeymapConfig) (nkro rgbEnabled : Bool) (r : Readings) :
    (start config nkro rgbEnabled r).Tracked := by
  refine ⟨powerOn_sound config nkro rgbEnabled r, rfl, fun code hcode => ?_⟩
  have hnone := (Tracker.eq_empty_iff _ (powerOn_sound config nkro rgbEnabled r).packed).mp rfl
  exact absurd hcode (hnone code)

/-- From power-on, and however key events and the toggle interleave: when every
    key is up again nothing is down, on the wire or in the tracker, exactly when
    every press on the wire was followed by a release on the wire. -/
theorem nothing_stuck_iff (config : KeymapConfig) (nkro rgbEnabled : Bool) (r : Readings)
    (events : List Event) (hord : Along step Ordinary (start config nkro rgbEnabled r) events)
    (hup : (run step (start config nkro rgbEnabled r) events).down = ∅) :
    (run step (start config nkro rgbEnabled r) events).world.qmk.usb.Clear ∧
        (run step (start config nkro rgbEnabled r) events).world.tracker = Tracker.empty ↔
      Released (start config nkro rgbEnabled r) events := by
  have hstart := start_tracked config nkro rgbEnabled r
  have hend : (run step (start config nkro rgbEnabled r) events).Tracked :=
    run_invariant_along step Ordinary Tracked step_tracked events _ hstart hord
  have hclear := (clear_iff_channels _ hstart.sound).mp
    ⟨Usb.clear_of_empty _ rfl rfl rfl, rfl⟩
  have hlatch : ∀ ch : Channel, ch.OnWire →
      (¬ ch.on (run step (start config nkro rgbEnabled r) events).world ↔
        Answered step (sets ch) (resets ch) (start config nkro rgbEnabled r) events) :=
    fun ch hch => off_run_iff step Ordinary Tracked (fun s => ch.on s.world) (sets ch) (resets ch)
      (wire_isLatch ch hch) events _ hstart (hclear ch) hord
  -- the wire is as its latches say; the other channels are off on their own
  rw [clear_iff_channels _ hend.sound]
  constructor
  · intro hoff code
    exact ⟨(hlatch (.key code) trivial).mp (hoff _), (hlatch (.realMod code) trivial).mp (hoff _)⟩
  · intro hreleased ch
    cases ch with
    | key code => exact (hlatch (.key code) trivial).mpr (hreleased code).1
    | realMod code => exact (hlatch (.realMod code) trivial).mpr (hreleased code).2
    | tracked code =>
      intro hholds
      obtain ⟨key, hkey, -⟩ := hend.held code hholds
      rw [hup] at hkey
      exact absurd hkey (Finset.notMem_empty key)
    | weakMod i =>
      unfold Channel.on
      dsimp only
      rw [hend.weakMods, show (0 : Byte).getLsbD i = false from BitVec.getLsbD_zero]
      exact Bool.false_ne_true

/-! ### A key held across the toggle -/

instance decidableHoldsLayer (record : KeyRecord) (keycode : Keycode) :
    Decidable (HoldsLayer record keycode) :=
  inferInstanceAs (Decidable (_ ∨ _))

instance decidableOrdinary (s : Hands) : (e : Event) → Decidable (Ordinary s e)
  | .key _ record =>
    inferInstanceAs (Decidable ((getRecordKeycode record s.world.qmk ≤ 0xFF ∨
      HoldsLayer record (getRecordKeycode record s.world.qmk)) ∧
      (record.pressed = true ↔ record.key ∉ s.down)))
  | .scan _ _ _ _ => inferInstanceAs (Decidable True)

/-- A goes down, the toggle comes on, and A is let go. -/
def heldAcrossToggle : List Event :=
  [keyAt 2 1 true] ++
    List.replicate 18 (.scan 0 { atRest with toggle := false } 0x02 true) ++
    [keyAt 2 1 false]

theorem heldAcrossToggle_ordinary :
    Along step Ordinary (start KeymapConfig.default true true atRest) heldAcrossToggle ∧
      (run step (start KeymapConfig.default true true atRest) heldAcrossToggle).down = ∅ := by
  decide +kernel

/-- The wire keeps A. -/
theorem heldAcrossToggle_sticks :
    ¬ ∀ (config : KeymapConfig) (nkro rgbEnabled : Bool) (r : Readings) (events : List Event),
      Along step Ordinary (start config nkro rgbEnabled r) events →
      (run step (start config nkro rgbEnabled r) events).down = ∅ →
      (run step (start config nkro rgbEnabled r) events).world.qmk.usb.Clear ∧
        (run step (start config nkro rgbEnabled r) events).world.tracker = Tracker.empty := by
  intro h
  have hend := h KeymapConfig.default true true atRest heldAcrossToggle
    heldAcrossToggle_ordinary.1 heldAcrossToggle_ordinary.2
  exact absurd (hend.1.1.2 0x04) (by decide +kernel)

/-- The general statement, for the key above. -/
theorem nothing_stuck_iff_held :
    (run step (start KeymapConfig.default true true atRest)
        heldAcrossToggle).world.qmk.usb.Clear ∧
        (run step (start KeymapConfig.default true true atRest) heldAcrossToggle).world.tracker =
          Tracker.empty ↔
      Released (start KeymapConfig.default true true atRest) heldAcrossToggle :=
  nothing_stuck_iff KeymapConfig.default true true atRest heldAcrossToggle
    heldAcrossToggle_ordinary.1 heldAcrossToggle_ordinary.2

end Hands

end K530
