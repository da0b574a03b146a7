import K530.Core.Keycode
import K530.Lib.Checked

/-!
# The OLED

`ssd1306_sh1106.c`: the picture is in a buffer, which the calls that draw write to, and is
sent to the display a block at a time. A mask has a bit for each block that is to be sent.
Everything that draws sets the bits of the blocks it changes, by an arithmetic of its own.

An access outside the buffer has no result here, and neither has a mark of a block that
there is none of. The run begins when `oled_init` has succeeded.

## Main definitions

* `OledBuild`: The configuration.
-/

namespace K530

open Checked

structure OledBuild where
  /-- `OLED_DISPLAY_WIDTH` -/
  width : Nat
  /-- `OLED_DISPLAY_HEIGHT` -/
  height : Nat
  width_pos : 0 < width
  width_lt : width < 256
  height_ge : 8 ≤ height
  height_lt : height < 256
  /-- `oled_rotation`, as `oled_init` has set it -/
  rotation : BitVec 2
  /-- `OLED_FONT_WIDTH` -/
  fontWidth : Nat
  fontWidth_pos : 0 < fontWidth
  /-- `OLED_FONT_START` -/
  fontStart : Byte
  /-- `OLED_FONT_END` -/
  fontEnd : Byte
  /-- `font` -/
  font : Nat → Byte
  /-- The bits of `OLED_BLOCK_TYPE`. -/
  blockBits : Nat
  /-- `OLED_BLOCK_COUNT` -/
  blockCount : Nat
  blockCount_pos : 0 < blockCount
  blockCount_le : blockCount ≤ blockBits
  /-- A block has a byte at least, or the compiler rejects the division by its size. -/
  blockCount_le_size : blockCount ≤ height / 8 * width
  /-- `OLED_SOURCE_MAP` -/
  sourceMap : List Nat
  /-- `OLED_TARGET_MAP` -/
  targetMap : List Nat
  maps_length : sourceMap.length = targetMap.length
  /-- The eight bytes at an entry of either are inside the block. -/
  maps_fit : ∀ i ∈ sourceMap ++ targetMap, i + 8 ≤ height / 8 * width / blockCount
  /-- `OLED_IC` is the SH1106. -/
  sh1106 : Bool
  /-- `OLED_COLUMN_OFFSET` -/
  columnOffset : Nat

namespace OledBuild

variable (c : OledBuild)

/-- `OLED_MATRIX_SIZE` -/
def matrixSize : Nat :=
  c.height / 8 * c.width

/-- `OLED_BLOCK_SIZE` -/
def blockSize : Nat :=
  c.matrixSize / c.blockCount

/-- `HAS_FLAGS(oled_rotation, OLED_ROTATION_90)` -/
def rotated : Bool :=
  c.rotation.getLsbD 0

/-- `oled_rotation_width` -/
def rotationWidth : Nat :=
  if c.rotated then c.height else c.width

/-- `OLED_ALL_BLOCKS_MASK` -/
def allBlocksMask : BitVec c.blockBits :=
  ((1#c.blockBits <<< (c.blockCount - 1) - 1) <<< 1) ||| 1

end OledBuild

structure Oled (c : OledBuild) where
  /-- `oled_buffer` -/
  buffer : Vector Byte c.matrixSize
  /-- `oled_cursor`, as an index -/
  cursor : Nat
  /-- `oled_dirty` -/
  dirty : BitVec c.blockBits
  /-- `oled_active` -/
  active : Bool
  /-- `oled_scrolling` -/
  scrolling : Bool

/-- What `oled_render` sends: the bytes of the command that sets the position, and a block. -/
structure OledTransfer where
  block : Nat
  position : List Byte
  data : List Byte
deriving DecidableEq

namespace Oled

variable {c : OledBuild}

def clear (s : Oled c) : Oled c :=
  { s with buffer := Vector.replicate c.matrixSize 0, cursor := 0, dirty := c.allBlocksMask }

/-- The end of `oled_init`. -/
def init : Oled c where
  buffer := Vector.replicate c.matrixSize 0
  cursor := 0
  dirty := c.allBlocksMask
  active := true
  scrolling := false

/-! ### The cursor -/

def setCursor (col line : Byte) (s : Oled c) : Oled c :=
  let index := (line.toNat * c.rotationWidth + col.toNat * c.fontWidth) % 65536
  { s with cursor := if c.matrixSize ≤ index then 0 else index }

def advanceChar (s : Oled c) : Oled c :=
  let nextIndex := (s.cursor + c.fontWidth) % 65536
  let remainingSpace := (c.rotationWidth - nextIndex % c.rotationWidth) % 256
  let nextIndex :=
    if remainingSpace < c.fontWidth then (nextIndex + remainingSpace) % 65536 else nextIndex
  { s with cursor := if c.matrixSize ≤ nextIndex then 0 else nextIndex }

/-- The space that `oled_advance_page` finds on the line. -/
def remaining (s : Oled c) : Nat :=
  (c.rotationWidth - s.cursor % c.rotationWidth) % 256

/-- `oled_advance_page` without the spaces. -/
def nextPage (s : Oled c) : Oled c :=
  { s with cursor := if c.matrixSize ≤ s.cursor + s.remaining then 0 else s.cursor + s.remaining }

/-! ### Drawing -/

def mark (block : Nat) (s : Oled c) : Option (Oled c) :=
  if block < c.blockCount then some { s with dirty := s.dirty ||| 1#c.blockBits <<< block }
  else none

def glyph (c : OledBuild) (data : Byte) (invert : Bool) (j : Nat) : Byte :=
  let byte :=
    if data < c.fontStart ∨ c.fontEnd < data then 0
    else c.font ((data.toNat - c.fontStart.toNat) * c.fontWidth + j)
  if invert then ~~~byte else byte

def drawn (data : Byte) (invert : Bool) (s : Oled c) : Vector Byte c.matrixSize :=
  s.buffer.mapIdx (fun i byte =>
    if s.cursor ≤ i ∧ i < s.cursor + c.fontWidth then glyph c data invert (i - s.cursor) else byte)

def changes (data : Byte) (invert : Bool) (s : Oled c) : Bool :=
  (List.range c.fontWidth).any (fun j =>
    s.buffer.toList.getD (s.cursor + j) 0 != glyph c data invert j)

/-- `oled_write_char`, of a character that is not the end of a line. -/
def putChar (data : Byte) (invert : Bool) (s : Oled c) : Option (Oled c) :=
  if s.cursor + c.fontWidth ≤ c.matrixSize then
    let drawn : Oled c := { s with buffer := s.drawn data invert }
    if s.changes data invert then
      (drawn.mark (s.cursor / c.blockSize)).bind (fun t =>
        (t.mark ((s.cursor + c.fontWidth - 1) / c.blockSize)).map advanceChar)
    else some drawn.advanceChar
  else none

def advancePage (clearPageRemainder : Bool) (s : Oled c) : Option (Oled c) :=
  if clearPageRemainder then
    (List.replicate (s.remaining / c.fontWidth) ()).foldlM (fun s _ => s.putChar 0x20 false) s
  else some s.nextPage

def writeChar (invert : Bool) (s : Oled c) (data : Byte) : Option (Oled c) :=
  -- '\n'
  if data = 0x0A then s.advancePage true
  -- '\r'
  else if data = 0x0D then s.advancePage false
  else s.putChar data invert

def write (data : List Byte) (invert : Bool) (s : Oled c) : Option (Oled c) :=
  data.foldlM (writeChar invert) s

def writeLn (data : List Byte) (invert : Bool) (s : Oled c) : Option (Oled c) :=
  (s.write data invert).bind (advancePage true)

/-- A byte of the buffer is set, and its block marked if it was another. -/
def setByte (index : Nat) (data : Byte) (s : Oled c) : Option (Oled c) :=
  (fetch s.buffer index).bind (fun old =>
    if old = data then some s
    else (store s.buffer index data).bind (fun buffer =>
      ({ s with buffer := buffer } : Oled c).mark (index / c.blockSize)))

def writeRawByte (data : Byte) (index : BitVec 16) (s : Oled c) : Option (Oled c) :=
  s.setByte (min index.toNat c.matrixSize) data

/-- The size that `oled_write_raw` comes to. -/
def rawSize (size : BitVec 16) (s : Oled c) : Nat :=
  if c.matrixSize < size.toNat + s.cursor then c.matrixSize - s.cursor else size.toNat

def writeRaw (data : Nat → Byte) (size : BitVec 16) (s : Oled c) : Option (Oled c) :=
  loop (fun i t => t.setByte (s.cursor + i) (data i)) (s.rawSize size) s

def writePixel (x y : Byte) (on : Bool) (s : Oled c) : Option (Oled c) :=
  if c.rotationWidth ≤ x.toNat then some s
  else
    let index := x.toNat + y.toNat / 8 * c.rotationWidth
    if c.matrixSize ≤ index then some s
    else (fetch s.buffer index).bind (fun data =>
      s.setByte index
        (if on then data ||| (1 : Byte) <<< (y.toNat % 8)
          else data &&& ~~~((1 : Byte) <<< (y.toNat % 8))))

def moveByte (source target : Nat) (buffer : Vector Byte c.matrixSize) :
    Option (Vector Byte c.matrixSize) :=
  (fetch buffer source).bind (store buffer target)

/-- A line of `oled_pan`. -/
def panLine (left : Bool) (y : Nat) (buffer : Vector Byte c.matrixSize) :
    Option (Vector Byte c.matrixSize) :=
  if left then
    loop (fun x => moveByte (y * c.width + x + 1) (y * c.width + x)) (c.width - 1) buffer
  else
    -- from the last column to the second
    loop (fun k => moveByte (y * c.width + (c.width - 1 - k) - 1) (y * c.width + (c.width - 1 - k)))
      (c.width - 1) buffer

def pan (left : Bool) (s : Oled c) : Option (Oled c) :=
  (loop (panLine left) (c.height / 8) s.buffer).map (fun buffer =>
    { s with buffer := buffer, dirty := c.allBlocksMask })

/-! ### The display -/

def blockBytes (block : Nat) (s : Oled c) : List Byte :=
  (List.range c.blockSize).map (fun j => s.buffer.toList.getD (c.blockSize * block + j) 0)

def crot (a : Byte) (n : Int) : Byte :=
  a <<< (n % 8).toNat ||| a >>> (-n % 8).toNat

/-- `rotate_90`: a byte of the target. -/
def rotate90 (src : Nat → Byte) (i : Nat) : Byte :=
  (List.range 8).foldl
    (fun dest (j : Nat) => dest ||| crot (src j &&& (1 : Byte) <<< i) (7 - (i : Int) - j)) 0

def rotatedBytes (c : OledBuild) (bytes : List Byte) : List Byte :=
  (c.sourceMap.zip c.targetMap).foldl
    (fun temp map => temp.mapIdx (fun p byte =>
      if map.2 ≤ p ∧ p < map.2 + 8 then
        byte ||| rotate90 (fun j => bytes.getD (map.1 + j) 0) (p - map.2)
      else byte))
    (List.replicate c.blockSize 0)

def payload (c : OledBuild) (bytes : List Byte) : List Byte :=
  if c.rotated then rotatedBytes c bytes else bytes

/-- `calc_bounds`, with the bytes around it in the array. -/
def calcBounds (c : OledBuild) (block : Nat) : List Byte :=
  let page := BitVec.ofNat 8 (c.blockSize * block / c.width)
  let column := BitVec.ofNat 8 (c.blockSize * block % c.width)
  if c.sh1106 then
    let offset := c.columnOffset + column.toNat
    [0xB0 ||| page, BitVec.ofNat 8 (offset % 16), 0x10 ||| BitVec.ofNat 8 (offset / 16 % 16),
      0xE3, 0xE3, 0xE3]
  else
    [0x21, column, BitVec.ofNat 8 ((c.blockSize + c.width - 1) % c.width) + column,
      0x22, page, BitVec.ofNat 8 ((c.blockSize + c.width - 1) / c.width - 1)]

/-- `calc_bounds_90`, with the bytes around it in the array. -/
def calcBounds90 (c : OledBuild) (block : Nat) : List Byte :=
  let start := BitVec.ofNat 8 (c.blockSize * block / c.height * 8)
  [0x21, start, BitVec.ofNat 8 ((c.blockSize + c.height - 1) / c.height * 8 - 1) + start,
    0x22, BitVec.ofNat 8 (c.blockSize * block % c.height),
    BitVec.ofNat 8 ((c.blockSize + c.height - 1) % c.height / 8)]

def updateStart (dirty : BitVec c.blockBits) : Nat :=
  ((List.range c.blockBits).find? (fun k => dirty.getLsbD k)).getD 0

def on (ok : Bool) (s : Oled c) : Oled c :=
  if s.active then s else { s with active := ok }

/-- `oled_render`: what arrives, and the variables after it. The transfers of the position,
    of the data and of `oled_on` succeed or not. -/
def render (positionOk dataOk onOk : Bool) (s : Oled c) : Option OledTransfer × Oled c :=
  let s := { s with dirty := s.dirty &&& c.allBlocksMask }
  if s.dirty = 0 ∨ s.scrolling then (none, s)
  else
    let start := updateStart s.dirty
    if positionOk ∧ dataOk then
      (some
        { block := start
          position := if c.rotated then calcBounds90 c start else calcBounds c start
          data := payload c (s.blockBytes start) },
        { s.on onOk with dirty := s.dirty &&& ~~~(1#c.blockBits <<< start) })
    else (none, s)

/-- `oled_scroll_right` and `oled_scroll_left`. -/
def scroll (ok : Bool) (s : Oled c) : Oled c :=
  if s.dirty = 0 ∧ !s.scrolling then { s with scrolling := ok } else s

def scrollOff (ok : Bool) (s : Oled c) : Oled c :=
  if s.scrolling ∧ ok then { s with scrolling := false, dirty := c.allBlocksMask } else s

end Oled

end K530
