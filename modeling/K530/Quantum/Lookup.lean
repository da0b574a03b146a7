import K530.Lib.Run
import K530.Quantum.ActionCode

/-!
# Looking Up a Key

Which keycode and which action a key event is, for any keymap on any matrix.

A press is looked up twice. `process_record_quantum` asks for its keycode and
shows it to the handlers; if none of them ends the event,
`process_record_handler` asks for its action. Each looks for the highest layer
that is on and not transparent at the key, and each stores that layer in the
cache. A release reads the cache both times.

The cache numbers the keys with one byte, so a matrix may have 256 positions.

The handlers in between are seen only through what they can do to a lookup.
The magic keycodes are done as the source does them, and so is the keycode that
resets the EEPROM. Any other handler, before or after them, may end the event.
Layers change between two events, to any layers whatever, and not within one;
the keycodes that switch one-shots, whose press can turn a one-shot layer off
before its action is looked up, are outside this.

## Main definitions

* `MatrixPos`, `Keymap`: A key, and what a keymap gives it on every layer.
-/

namespace K530

/-- `keypos_t`, on a matrix of any size. -/
structure MatrixPos (rows cols : Nat) where
  row : Fin rows
  col : Fin cols
  deriving DecidableEq

/-- `key_number`, a `uint8_t`. -/
def MatrixPos.keyNumber {rows cols : Nat} (key : MatrixPos rows cols) : Nat :=
  (key.col.val + key.row.val * cols) % 256

/-- A keymap: `keymaps`, and the actions of its function keycodes. -/
structure MatrixKeymap (rows cols : Nat) where
  keycode : Nat → MatrixPos rows cols → Keycode
  functions : BitVec 16 → ActionCode

structure MatrixEvent (rows cols : Nat) where
  key : MatrixPos rows cols
  pressed : Bool
  deriving DecidableEq

structure Lookup (rows cols : Nat) where
  /-- `layer_state` -/
  state : BitVec 32
  /-- `default_layer_state` -/
  default : BitVec 32
  /-- `source_layers_cache` -/
  source : BitTable.Table ((rows * cols + 7) / 8) 5
  /-- `keymap_config` -/
  config : KeymapConfig
  /-- The copy of `keymap_config` in the EEPROM -/
  stored : KeymapConfig
  deriving DecidableEq

/-- What an event was looked up as. The action is that of an event no handler
    has ended. -/
structure Looked where
  keycode : Keycode
  action : Option ActionCode
  deriving DecidableEq

namespace Lookup

variable {rows cols : Nat}

def init : Lookup rows cols :=
  { state := 0, default := 0, source := Vector.replicate _ (Vector.replicate 5 0),
    config := KeymapConfig.default, stored := KeymapConfig.default }

def updateSourceLayersCache (key : MatrixPos rows cols) (layer : Nat) (l : Lookup rows cols) :
    Lookup rows cols :=
  { l with source := BitTable.put key.keyNumber (BitVec.ofNat 8 layer) l.source }

def readSourceLayersCache (key : MatrixPos rows cols) (l : Lookup rows cols) : Nat :=
  (BitTable.get key.keyNumber l.source).toNat

def actionForKey (keymap : MatrixKeymap rows cols) (layer : Nat) (key : MatrixPos rows cols)
    (l : Lookup rows cols) : ActionCode :=
  actionCodeForKeycode keymap.functions l.config (keymap.keycode layer key)

def layerSwitchGetLayer (keymap : MatrixKeymap rows cols) (key : MatrixPos rows cols)
    (l : Lookup rows cols) : Nat :=
  ((List.range 32).reverse.find? (fun layer =>
    (l.state ||| l.default).getLsbD layer &&
      actionForKey keymap layer key l != ActionCode.transparent)).getD 0

def sourceLayer (keymap : MatrixKeymap rows cols) (event : MatrixEvent rows cols)
    (l : Lookup rows cols) : Nat × Lookup rows cols :=
  if event.pressed then
    let layer := layerSwitchGetLayer keymap event.key l
    (layer, updateSourceLayersCache event.key layer l)
  else (readSourceLayersCache event.key l, l)

/-- `get_event_keycode`, updating the cache. -/
def getEventKeycode (keymap : MatrixKeymap rows cols) (event : MatrixEvent rows cols)
    (l : Lookup rows cols) : Keycode × Lookup rows cols :=
  let found := sourceLayer keymap event l
  (keymap.keycode found.1 event.key, found.2)

def storeOrGetAction (keymap : MatrixKeymap rows cols) (event : MatrixEvent rows cols)
    (l : Lookup rows cols) : ActionCode × Lookup rows cols :=
  let found := sourceLayer keymap event l
  (actionForKey keymap found.1 event.key found.2, found.2)

/-- `process_magic`, and whether the event goes on. -/
def processMagic (keycode : Keycode) (pressed : Bool) (l : Lookup rows cols) :
    Lookup rows cols × Bool :=
  if pressed && isMagic keycode then
    ({ l with config := magicConfig keycode l.stored, stored := magicConfig keycode l.stored },
      false)
  else (l, true)

/-- `EEPROM_RESET` in `process_record_quantum`. -/
def processEepromReset (keycode : Keycode) (pressed : Bool) (l : Lookup rows cols) :
    Lookup rows cols × Bool :=
  if pressed && keycode == 0x5CDF then
    ({ l with default := 0, stored := KeymapConfig.default }, false)
  else (l, true)

/-- The handlers of `process_record_quantum`. -/
def handlers (before after : Bool) (keycode : Keycode) (pressed : Bool) (l : Lookup rows cols) :
    Lookup rows cols × Bool :=
  if before then (l, false)
  else
    let magic := processMagic keycode pressed l
    if !magic.2 then magic
    else if after then (magic.1, false)
    else processEepromReset keycode pressed magic.1

/-- `process_record`, as far as the event is looked up. A handler before or
    after the magic keycodes may end it. -/
def processRecord (keymap : MatrixKeymap rows cols) (event : MatrixEvent rows cols)
    (before after : Bool) (l : Lookup rows cols) : Lookup rows cols × Looked :=
  let record := getEventKeycode keymap event l
  let handled := handlers before after record.1 event.pressed record.2
  if handled.2 then
    let stored := storeOrGetAction keymap event handled.1
    (stored.2, { keycode := record.1, action := some stored.1 })
  else (handled.1, { keycode := record.1, action := none })

inductive Move (rows cols : Nat) where
  | event (e : MatrixEvent rows cols) (before after : Bool)
  | layers (state default : BitVec 32)
  deriving DecidableEq

def step (keymap : MatrixKeymap rows cols) (l : Lookup rows cols) :
    Move rows cols → Lookup rows cols
  | .event e before after => (processRecord keymap e before after l).1
  | .layers state default => { l with state, default }

end Lookup

end K530
