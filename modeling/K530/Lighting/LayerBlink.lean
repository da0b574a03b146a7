import K530.Core.Keycode

/-!
# Layers That Blink

`rgblight.c` with `RGBLIGHT_LAYER_BLINK`: a lighting layer is turned on for a time, or on and
off so many times. The layers that are doing so are in a mask, and everything else there is
only once: a number of changes that are still to be made, the duration, and the time of the
next. Every call of `rgblight_task` that finds it passed goes through the mask, and each
layer in it takes one change off the number: the layer is turned off if the number was odd,
and on if it was even. When it is zero no layer blinks any more.

## Main definitions

* `LayerBlink`: The variables, and the layers that are on.
-/

namespace K530

/-- The bits of `rgblight_layer_mask_t`, of so many layers. -/
def layerMaskBits (maxLayers : Nat) : Nat :=
  if maxLayers ≤ 8 then 8 else if maxLayers ≤ 16 then 16 else 32

/-- `RGBLIGHT_MAX_LAYERS` -/
structure MaxLayers where
  count : Nat
  count_pos : 0 < count
  count_le : count ≤ 32

/-- `rgblight_layer_mask_t` -/
abbrev MaxLayers.Mask (c : MaxLayers) := BitVec (layerMaskBits c.count)

structure LayerBlink (c : MaxLayers) where
  /-- `rgblight_status.enabled_layer_mask` -/
  enabledLayerMask : c.Mask
  /-- `_blinking_layer_mask` -/
  blinkingLayerMask : c.Mask
  /-- `_repeat_timer` -/
  repeatTimer : BitVec 16
  /-- `_times_remaining` -/
  timesRemaining : Byte
  /-- `_dur` -/
  dur : BitVec 16

def timerExpired (current future : BitVec 16) : Bool :=
  decide ((current - future).toNat < 32767)

namespace LayerBlink

variable {c : MaxLayers}

def init : LayerBlink c where
  enabledLayerMask := 0
  blinkingLayerMask := 0
  repeatTimer := 0
  timesRemaining := 0
  dur := 0

def layerBit (c : MaxLayers) (layer : Nat) : c.Mask :=
  1#(layerMaskBits c.count) <<< layer

/-- `rgblight_set_layer_state` -/
def setLayerState (layer : Nat) (enabled : Bool) (s : LayerBlink c) : LayerBlink c :=
  { s with
    enabledLayerMask :=
      if enabled then s.enabledLayerMask ||| layerBit c layer
      else s.enabledLayerMask &&& ~~~layerBit c layer }

/-- `rgblight_get_layer_state` -/
def getLayerState (layer : Nat) (s : LayerBlink c) : Bool :=
  s.enabledLayerMask &&& layerBit c layer != 0

def blinking (layer : Nat) (s : LayerBlink c) : Bool :=
  s.blinkingLayerMask &&& layerBit c layer != 0

/-- `rgblight_blink_layer_repeat` -/
def blinkLayerRepeat (now : BitVec 16) (layer : Nat) (duration : BitVec 16) (times : Byte)
    (s : LayerBlink c) : LayerBlink c :=
  let s := { s with timesRemaining := times * 2, dur := duration }
  let s := s.setLayerState layer true
  { s with
    timesRemaining := s.timesRemaining - 1
    blinkingLayerMask := s.blinkingLayerMask ||| layerBit c layer
    repeatTimer := now + duration }

/-- `rgblight_blink_layer` -/
def blinkLayer (now : BitVec 16) (layer : Nat) (duration : BitVec 16) (s : LayerBlink c) :
    LayerBlink c :=
  s.blinkLayerRepeat now layer duration 1

def turnsOn (s : LayerBlink c) : Bool :=
  s.timesRemaining.toNat % 2 != 1

def change (now : BitVec 16) (layer : Nat) (s : LayerBlink c) : LayerBlink c :=
  let s := s.setLayerState layer s.turnsOn
  { s with timesRemaining := s.timesRemaining - 1, repeatTimer := now + s.dur }

/-- A turn of the loop. With the variables goes what `rgblight_set_layer_state` has been
    called with. -/
def turn (now : BitVec 16) (done : List (Nat × Bool) × LayerBlink c) (layer : Nat) :
    List (Nat × Bool) × LayerBlink c :=
  if done.2.blinking layer ∧ done.2.timesRemaining > 0 then
    (done.1 ++ [(layer, done.2.turnsOn)], done.2.change now layer)
  else done

/-- `rgblight_blink_layer_repeat_helper`, which is the end of `rgblight_task`. -/
def blinkLayerRepeatHelper (now : BitVec 16) (s : LayerBlink c) :
    List (Nat × Bool) × LayerBlink c :=
  if s.blinkingLayerMask ≠ 0 ∧ timerExpired now s.repeatTimer then
    let done := (List.range c.count).foldl (turn now) ([], s)
    (done.1,
      if done.2.timesRemaining = 0 then { done.2 with blinkingLayerMask := 0 } else done.2)
  else ([], s)

end LayerBlink

end K530
