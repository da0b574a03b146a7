import K530.Keymap.Layout

/-!
# The Tracker and the Recorder

What the keymap keeps of its own. The tracker has the keys and modifiers the
Bluetooth host should see as down, beside QMK's report, because the frame has six
places and QMK's report may be a bitmap. The keys are kept packed to the front. A
seventh key is dropped without a word, as in a six-key report, and its release finds
nothing to remove.

The macro recorder has six slots of thirty-two events, at most one of which is being
recorded into. A recording is started and finished by the same key, and given up when
the key that holds the recording layer is let go without one of the recording keys
having been pressed. While it runs, every event is captured but those of the
control keys.

Events are captured straight into the slot's buffer, the one playback reads. Only
the length waits for the recording to finish. What a slot plays is therefore the
first `len` entries of its buffer, whoever wrote them last.

## Main definitions

* `Tracker`: The modifiers and the six places.
-/

namespace K530

/-- `bt_report_mods` and `bt_report_keys`. -/
structure Tracker where
  mods : Byte
  keys : Vector Byte 6
  deriving DecidableEq

namespace Tracker

def empty : Tracker :=
  { mods := 0, keys := Vector.replicate 6 0 }

def btModifierBit (keycode : Keycode) : Byte :=
  if keycode = kcLeftCtrl then 0x01
  else if keycode = kcLeftShift then 0x02
  else if keycode = kcLeftAlt then 0x04
  else if keycode = kcLeftGui then 0x08
  else if keycode = kcRightCtrl then 0x10
  else if keycode = kcRightShift then 0x20
  else if keycode = kcRightAlt then 0x40
  else if keycode = kcRightGui then 0x80
  else 0

/-- `bt_add_key`: the first free place, if the key is not there already and
    there is one. -/
def btAddKey (kc : Byte) (t : Tracker) : Tracker :=
  if kc = 0 then t
  else if t.keys.contains kc then t
  else
    match t.keys.finIdxOf? 0 with
    | some i => { t with keys := t.keys.setIfInBounds i kc }
    | none => t

/-- `bt_del_key`: the places after the key's move up by one. -/
def btDelKey (kc : Byte) (t : Tracker) : Tracker :=
  if kc = 0 then t
  else
    match t.keys.finIdxOf? kc with
    | some i =>
      { t with
        keys := Vector.ofFn (fun j =>
          if j < i then t.keys.get j else if h : j.val + 1 < 6 then t.keys[j.val + 1] else 0) }
    | none => t

/-- The tracker after a keycode of at most `0xFF` has been pressed or
    released. -/
def track (keycode : Keycode) (pressed : Bool) (t : Tracker) : Tracker :=
  let modBit := btModifierBit keycode
  if modBit ≠ 0 then
    { t with mods := if pressed then t.mods ||| modBit else t.mods &&& ~~~modBit }
  else if pressed then t.btAddKey (lowByte keycode)
  else t.btDelKey (lowByte keycode)

/-- The report `bt_sync_and_send` builds. -/
def report (t : Tracker) : Report :=
  Report.ofKeys t.mods t.keys

end Tracker

/-! ### The macro recorder -/

structure MacroEvent where
  keycode : Keycode
  pressed : Bool
  deriving DecidableEq

abbrev macroMaxEvents : Nat := 32

structure Recorder where
  /-- `macro_buf` -/
  buf : Vector (Vector MacroEvent macroMaxEvents) 6
  /-- `macro_len` -/
  len : Vector Nat 6
  /-- `macro_has_content` -/
  hasContent : Vector Bool 6
  /-- `recording_active` -/
  active : Bool
  /-- `recording_slot`, counted from 0, while a recording is active -/
  slot : Fin 6
  /-- `recording_index` -/
  index : Nat
  /-- `fn2_rec_key_used`: a recording key was pressed since `FN2_REC` was -/
  keyUsed : Bool
  deriving DecidableEq

namespace Recorder

def init : Recorder :=
  { buf := Vector.replicate 6 (Vector.replicate 32 { keycode := 0, pressed := false }),
    len := Vector.replicate 6 0, hasContent := Vector.replicate 6 false,
    active := false, slot := 0, index := 0, keyUsed := false }

def recordable (keycode : Keycode) : Bool :=
  keycode ≠ Keymap.fn2Rec ∧ Keymap.recSlot? keycode = none ∧ keycode ≠ Keymap.fn2Tap ∧
    keycode ≠ Keymap.fnCapsTap ∧ Keymap.playSlot? keycode = none ∧ keycode ≠ Keymap.btUnpair

/-- The capture at the head of `process_record_user`. A full buffer takes no
    more. -/
def capture (e : MacroEvent) (r : Recorder) : Recorder :=
  if r.active && recordable e.keycode then
    if h : r.index < macroMaxEvents then
      { r with
        buf := r.buf.setIfInBounds r.slot ((r.buf.get r.slot).set r.index e h),
        index := r.index + 1 }
    else r
  else r

/-- `FN2_REC` pressed. -/
def fn2RecPress (r : Recorder) : Recorder :=
  { r with keyUsed := false }

/-- `FN2_REC` released: a recording goes on only if a recording key has been
    pressed meanwhile. -/
def fn2RecRelease (r : Recorder) : Recorder :=
  if !r.keyUsed && r.active then { r with active := false } else r

def save (slot : Fin 6) (r : Recorder) : Recorder :=
  { r with
    active := false, len := r.len.setIfInBounds slot r.index,
    hasContent := r.hasContent.setIfInBounds slot (decide (0 < r.index)) }

/-- A recording key pressed: start, finish, or nothing if another slot is being
    recorded into. -/
def recToggle (slot : Fin 6) (r : Recorder) : Recorder :=
  let r := { r with keyUsed := true }
  if !r.active then { r with active := true, slot, index := 0 }
  else if r.slot = slot then r.save slot
  else r

/-- `macro_buf` of a slot, whole. -/
def entries (slot : Fin 6) (r : Recorder) : List MacroEvent := (r.buf.get slot).toList

/-- `macro_len` of a slot. -/
def length (slot : Fin 6) (r : Recorder) : Nat := r.len.get slot

/-- What a slot plays: as many entries of its buffer as its length says. -/
def stored (slot : Fin 6) (r : Recorder) : List MacroEvent :=
  (r.entries slot).take (r.length slot)

end Recorder

end K530
