import K530.Drivers.Oled

/-!
# The OLED on its Side

On a display that is turned by 90 degrees the picture is as wide as the display is high. A block
of it is columns of the display, and `oled_render` turns it in squares of eight bytes, which it
takes from the places of one table and puts to the places of another. The display fills the
columns of the block page after page.

An access outside the buffer or outside a block has no result. Only the blocks that are sent are
modelled, of any buffer; which of them are sent is in the other module.

## Main definitions

* `OledDisplay`, `OledBlockType`, `rotationMaps`: The tables of `oled_driver.h`.
-/

namespace K530

open Checked

/-- `OLED_DISPLAY_128X32`, the default, and `OLED_DISPLAY_128X64`. -/
inductive OledDisplay where
  | of128x32
  | of128x64
deriving DecidableEq

inductive OledBlockType where
  | uint8
  | uint16
  | uint32
deriving DecidableEq

def OledDisplay.height : OledDisplay → Nat
  | .of128x32 => 32
  | .of128x64 => 64

/-- `sizeof(OLED_BLOCK_TYPE) * 8` -/
def OledBlockType.bits : OledBlockType → Nat
  | .uint8 => 8
  | .uint16 => 16
  | .uint32 => 32

/-- `OLED_SOURCE_MAP` and `OLED_TARGET_MAP`, as they are defined or given in a comment. -/
def rotationMaps : OledDisplay → OledBlockType → Option (List Nat × List Nat)
  | .of128x64, .uint32 => some ([32, 40, 48, 56], [24, 16, 8, 0])
  | .of128x64, .uint16 =>
    some ([0, 8, 16, 24, 32, 40, 48, 56], [56, 48, 40, 32, 24, 16, 8, 0])
  | .of128x64, .uint8 =>
    some ([0, 8, 16, 24, 32, 40, 48, 56, 64, 72, 80, 88, 96, 104, 112, 120],
      [56, 120, 48, 112, 40, 104, 32, 96, 24, 88, 16, 80, 8, 72, 0, 64])
  | .of128x32, .uint16 => some ([0, 8, 16, 24], [24, 16, 8, 0])
  | .of128x32, .uint8 => some ([0, 8, 16, 24, 32, 40, 48, 56], [48, 32, 16, 0, 56, 40, 24, 8])
  | .of128x32, .uint32 => none

structure OledPanel where
  /-- `OLED_DISPLAY_WIDTH` -/
  width : Nat
  /-- `OLED_DISPLAY_HEIGHT`, the width of the picture -/
  height : Nat
  /-- `OLED_BLOCK_COUNT` -/
  blockCount : Nat
  /-- `OLED_SOURCE_MAP` -/
  sourceMap : List Nat
  /-- `OLED_TARGET_MAP` -/
  targetMap : List Nat

def OledDisplay.panel (d : OledDisplay) (t : OledBlockType) (maps : List Nat × List Nat) :
    OledPanel where
  width := 128
  height := d.height
  blockCount := t.bits
  sourceMap := maps.1
  targetMap := maps.2

def OledBuild.panel (c : OledBuild) : OledPanel where
  width := c.width
  height := c.height
  blockCount := c.blockCount
  sourceMap := c.sourceMap
  targetMap := c.targetMap

structure OledWindow where
  columnStart : Byte
  columnEnd : Byte
  pageStart : Byte
  pageEnd : Byte
deriving DecidableEq

/-- `COLUMN_ADDR` and `PAGE_ADDR`, with their bytes. -/
def OledWindow.command (b : OledWindow) : List Byte :=
  [0x21, b.columnStart, b.columnEnd, 0x22, b.pageStart, b.pageEnd]

/-! ### The display -/

/-- The memory of an SSD1306: the bytes of its pages and columns. -/
abbrev OledRam := Nat → Nat → Byte

namespace OledRam

def pixel (ram : OledRam) (column row : Nat) : Bool :=
  (ram (row / 8) column).getLsbD (row % 8)

def put (ram : OledRam) (page column : Nat) (byte : Byte) : OledRam :=
  fun p c => if p = page ∧ c = column then byte else ram p c

/-- Where the next byte goes, in horizontal addressing. A page has three bits, and a column
    seven. -/
def next (b : OledWindow) (page column : Nat) : Nat × Nat :=
  if column = b.columnEnd.toNat % 128 then
    (if page = b.pageEnd.toNat % 8 then b.pageStart.toNat % 8 else (page + 1) % 8,
      b.columnStart.toNat % 128)
  else (page, (column + 1) % 128)

def fill (b : OledWindow) : List Byte → Nat → Nat → OledRam → OledRam
  | [], _, _, ram => ram
  | byte :: data, page, column, ram =>
    fill b data (next b page column).1 (next b page column).2 (ram.put page column byte)

def receive (b : OledWindow) (data : List Byte) (ram : OledRam) : OledRam :=
  fill b data (b.pageStart.toNat % 8) (b.columnStart.toNat % 128) ram

end OledRam

namespace OledPanel

variable (p : OledPanel)

/-- `OLED_MATRIX_SIZE` -/
def matrixSize : Nat := p.height / 8 * p.width

/-- `OLED_BLOCK_SIZE` -/
def blockSize : Nat := p.matrixSize / p.blockCount

def pixel (buffer : Vector Byte p.matrixSize) (x y : Nat) : Bool :=
  (buffer.toList.getD (x + y / 8 * p.height) 0).getLsbD (y % 8)

/-- `oled_write_pixel`, in the buffer. -/
def writePixel (x y : Byte) (on : Bool) (buffer : Vector Byte p.matrixSize) :
    Option (Vector Byte p.matrixSize) :=
  if p.height ≤ x.toNat then some buffer
  else
    let index := x.toNat + y.toNat / 8 * p.height
    if p.matrixSize ≤ index then some buffer
    else (fetch buffer index).bind (fun data =>
      store buffer index
        (if on then data ||| (1 : Byte) <<< (y.toNat % 8)
          else data &&& ~~~((1 : Byte) <<< (y.toNat % 8))))

def calcBounds90 (block : Nat) : OledWindow :=
  let start := BitVec.ofNat 8 (p.blockSize * block / p.height * 8)
  { columnStart := start
    columnEnd := BitVec.ofNat 8 ((p.blockSize + p.height - 1) / p.height * 8 - 1) + start
    pageStart := BitVec.ofNat 8 (p.blockSize * block % p.height)
    pageEnd := BitVec.ofNat 8 ((p.blockSize + p.height - 1) % p.height / 8) }

def rotate90 {n m : Nat} (src dest : Nat) (buffer : Vector Byte n) (temp : Vector Byte m) :
    Option (Vector Byte m) :=
  loop (fun i => loop (fun j temp =>
    (fetch buffer (src + j)).bind (fun byte =>
      (fetch temp (dest + i)).bind (fun old =>
        store temp (dest + i)
          (old ||| Oled.crot (byte &&& (1 : Byte) <<< i) (7 - (i : Int) - j))))) 8) 8 temp

/-- `temp_buffer`, with the block turned. -/
def turned (block : Nat) (buffer : Vector Byte p.matrixSize) : Option (Vector Byte p.blockSize) :=
  (p.sourceMap.zip p.targetMap).foldlM
    (fun temp map => rotate90 (p.blockSize * block + map.1) map.2 buffer temp)
    (Vector.replicate p.blockSize 0)

/-- `oled_render`, of a block. -/
def renderBlock (buffer : Vector Byte p.matrixSize) (ram : OledRam) (block : Nat) :
    Option OledRam :=
  (p.turned block buffer).map (fun temp => ram.receive (p.calcBounds90 block) temp.toList)

def renderBlocks (blocks : List Nat) (buffer : Vector Byte p.matrixSize) (ram : OledRam) :
    Option OledRam :=
  blocks.foldlM (p.renderBlock buffer) ram

end OledPanel

end K530
