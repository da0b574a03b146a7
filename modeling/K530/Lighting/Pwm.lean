import K530.Lighting.OpenRgb

/-!
# The Row Scan

`rgb_matrix_sn32f24xb.c`: the timer interrupt that scans the keys and lights the
LEDs, one row of keys and one color channel of one row of LEDs at a time.

Two counters advance in the interrupt. `current_row` goes round the row pins, of
which every row of LEDs has three, one for each channel. `row_idx` goes round
the rows, and moves on with every third pin. Both are eight-bit.

For each column `update_pwm_channels` looks the LED up in the layout and reads
it. A cell of the layout without an LED holds `NO_LED`, and the read is made all
the same. What lies in memory beyond `led_state` is not the driver's to say, so
each interrupt is given it.

`enable_pwm` is raised when an LED that is not black has been read. Nothing
lowers it.

The loops over the row pins count in eight bits, so with more than 255 pins they
do not end, and the interrupt does not return.

## Main definitions

* `LedBoard`: What a keyboard declares.
-/

namespace K530

structure LedBoard where
  /-- `LED_MATRIX_ROWS`, which is `MATRIX_ROWS` -/
  rows : Nat
  /-- `LED_MATRIX_COLS` -/
  cols : Nat
  /-- `DRIVER_LED_TOTAL` -/
  total : Nat
  /-- `g_led_config.matrix_co`, by row and column -/
  matrixCo : Nat → Nat → Byte
  /-- `chan_col_order` -/
  chanColOrder : Nat → Byte
  /-- `underglow_leds`, none of them without `UNDERGLOW_RBG` -/
  underglow : List Byte
  /-- The PWM has twenty-four channels, and every column one of its own. -/
  cols_le : cols ≤ 24

namespace LedBoard

/-- `LED_MATRIX_ROWS_HW`, with `LED_MATRIX_ROW_CHANNELS` pins to a row. -/
def rowsHw (b : LedBoard) : Nat := b.rows * 3

def noLed : Byte := 255

/-- A cell of the layout holds an LED or `NO_LED`. -/
def WellFormed (b : LedBoard) : Prop :=
  ∀ row < b.rows, ∀ col < b.cols,
    (b.matrixCo row col).toNat < b.total ∨ b.matrixCo row col = noLed

end LedBoard

/-- The K530. Its columns are the pins from A8 to B5, which are the channels from
    8 on. -/
def k530Board : LedBoard :=
  { rows := 5, cols := 14, total := 63,
    matrixCo := fun row col =>
      BitVec.ofNat 8 ((Keymap.matrixCo.getD row []).getD col Keymap.noLed),
    chanColOrder := fun col => BitVec.ofNat 8 (col + 8), underglow := [], cols_le := by decide }

structure Pwm (b : LedBoard) where
  /-- `current_row` -/
  currentRow : Byte
  /-- `row_idx` -/
  rowIdx : Byte
  /-- `led_state` -/
  ledState : Vector Rgb b.total
  /-- `enable_pwm` -/
  enablePwm : Bool

/-- What `update_pwm_channels` does. -/
structure Drive where
  /-- the indexes `led_state` is read at -/
  accessed : List Byte
  /-- the calls of `pwmEnableChannelI`: channel and width -/
  enabled : List (Byte × Byte)

structure RowTurn (b : LedBoard) where
  /-- the row of keys that is scanned -/
  scanned : Nat
  /-- the row of LEDs whose columns are updated -/
  row : Nat
  /-- their color channel, counted blue, green, red -/
  channel : Nat
  /-- the row pin whose turn it is -/
  pin : Nat
  drive : Drive
  /-- the row pin that is raised, if one is -/
  raised : Option Nat
  /-- the colors it is done with -/
  ledState : Vector Rgb b.total
  /-- and what lies beyond them -/
  beyond : Byte → Rgb

namespace Pwm

variable {b : LedBoard}

def init (b : LedBoard) : Pwm b :=
  { currentRow := 0, rowIdx := 0, ledState := Vector.replicate b.total ⟨0, 0, 0⟩,
    enablePwm := false }

/-! ### Colors -/

/-- `SN32F24xB_set_color`. -/
def setColor (index : Nat) (red green blue : Byte) (s : Pwm b) : Pwm b :=
  let flipGb := b.underglow.any (fun led => led.toNat == index)
  let color : Rgb := if flipGb then ⟨red, blue, green⟩ else ⟨red, green, blue⟩
  { s with ledState := s.ledState.setIfInBounds index color }

/-- `SN32F24xB_set_color_all`. -/
def setColorAll (red green blue : Byte) (s : Pwm b) : Pwm b :=
  (List.range b.total).foldl (fun s index => setColor index red green blue s) s

theorem setColorAll_frame (red green blue : Byte) (s : Pwm b) :
    s.setColorAll red green blue =
      { s with ledState := (s.setColorAll red green blue).ledState } := by
  let all (leds : List Nat) (s : Pwm b) : Pwm b :=
    leds.foldl (fun s index => setColor index red green blue s) s
  have hloop : ∀ (leds : List Nat) (s : Pwm b),
      all leds s = { s with ledState := (all leds s).ledState } := by
    intro leds
    induction leds with
    | nil => exact fun s => rfl
    | cons led leds ih => exact fun s => ih (setColor led red green blue s)
  exact hloop (List.range b.total) s

/-! ### The interrupt -/

/-- `led_state[led_index]`. -/
def readLed (leds : Vector Rgb b.total) (beyond : Byte → Rgb) (ledIndex : Byte) : Rgb :=
  if h : ledIndex.toNat < b.total then leds.get ⟨ledIndex.toNat, h⟩ else beyond ledIndex

def channelOf (led : Rgb) (channel : Nat) : Byte :=
  match channel with
  | 0 => led.b
  | 1 => led.g
  | _ => led.r

def isLit (led : Rgb) : Bool := led.b != 0 || led.g != 0 || led.r != 0

/-- A turn of the loop of `update_pwm_channels`. The three tests of the LED are
    three reads, and its channel is read once more when it is shown. -/
def updateColumn (beyond : Byte → Rgb) (s : Pwm b × Drive) (colIdx : Nat) : Pwm b × Drive :=
  let ledIndex := b.matrixCo s.1.rowIdx.toNat colIdx
  let led := readLed s.1.ledState beyond ledIndex
  -- `enable_pwm` is set here and never taken back.
  let enablePwm := s.1.enablePwm || isLit led
  let shown : Byte × Byte :=
    (b.chanColOrder colIdx, channelOf led (s.1.currentRow.toNat % 3))
  ({ s.1 with enablePwm },
    { accessed := s.2.accessed ++ List.replicate (if enablePwm then 4 else 3) ledIndex,
      enabled := s.2.enabled ++ if enablePwm then [shown] else [] })

def updatePwmChannels (beyond : Byte → Rgb) (s : Pwm b) : Pwm b × Drive :=
  (List.range b.cols).foldl (updateColumn beyond) (s, { accessed := [], enabled := [] })

def meetsLit (beyond : Byte → Rgb) (s : Pwm b) : Bool :=
  (List.range b.cols).any
    (fun colIdx => isLit (readLed s.ledState beyond (b.matrixCo s.rowIdx.toNat colIdx)))

theorem updatePwmChannels_state (beyond : Byte → Rgb) (s : Pwm b) :
    (updatePwmChannels beyond s).1 = { s with enablePwm := s.enablePwm || meetsLit beyond s } := by
  have hloop : ∀ (cols : List Nat) (r : Pwm b × Drive),
      (cols.foldl (updateColumn beyond) r).1 =
        { r.1 with
          enablePwm := r.1.enablePwm || cols.any (fun colIdx =>
            isLit (readLed r.1.ledState beyond (b.matrixCo r.1.rowIdx.toNat colIdx))) } := by
    intro cols
    induction cols with
    | nil =>
      intro r
      simp only [List.foldl_nil, List.any_nil, Bool.or_false]
    | cons col cols ih =>
      intro r
      rw [List.foldl_cons, ih]
      simp only [updateColumn, List.any_cons, Bool.or_assoc]
  exact hloop (List.range b.cols) _

def advance (s : Pwm b) : Pwm b :=
  -- The row of LEDs moves on at the third channel, and wraps on its own.
  let currentRow := if b.rowsHw ≤ (s.currentRow + 1).toNat then 0 else s.currentRow + 1
  let rowIdx := if currentRow.toNat % 3 = 2 then s.rowIdx + 1 else s.rowIdx
  { s with currentRow, rowIdx := if b.rows ≤ rowIdx.toNat then 0 else rowIdx }

/-- `rgb_callback`, for a matrix with diodes from columns to rows. All outputs
    are off while the keys are scanned. -/
def rgbCallback (beyond : Byte → Rgb) (s : Pwm b) : Option (Pwm b × RowTurn b) :=
  -- The loop that turns the row pins off does not end.
  if 255 < b.rowsHw then none
  else
    let moved := s.advance
    let updated := updatePwmChannels beyond moved
    some (updated.1,
      { scanned := moved.rowIdx.toNat, row := moved.rowIdx.toNat,
        channel := moved.currentRow.toNat % 3, pin := moved.currentRow.toNat,
        drive := updated.2,
        -- What an earlier row or interrupt has set raises this pin too.
        raised := if updated.1.enablePwm then some moved.currentRow.toNat else none,
        ledState := s.ledState, beyond })

end Pwm

inductive PwmEvent (b : LedBoard) where
  | setColor (index : Fin b.total) (red green blue : Byte)
  | setColorAll (red green blue : Byte)
  /-- The interrupt, and what it finds beyond `led_state`. -/
  | interrupt (beyond : Byte → Rgb)

namespace PwmEvent

def isInterrupt {b : LedBoard} : PwmEvent b → Bool
  | .interrupt _ => true
  | _ => false

end PwmEvent

namespace Pwm

variable {b : LedBoard}

def step (s : Pwm b) : PwmEvent b → Option (Pwm b × List (RowTurn b))
  | .setColor index red green blue => some (s.setColor index.val red green blue, [])
  | .setColorAll red green blue => some (s.setColorAll red green blue, [])
  | .interrupt beyond => (s.rgbCallback beyond).map (fun r => (r.1, [r.2]))

/-- Events in any order. There is no result when an interrupt does not return. -/
def run (s : Pwm b) : List (PwmEvent b) → Option (Pwm b × List (RowTurn b))
  | [] => some (s, [])
  | e :: es =>
    (s.step e).bind (fun r => (run r.1 es).map (fun r' => (r'.1, r.2 ++ r'.2)))

end Pwm

end K530
