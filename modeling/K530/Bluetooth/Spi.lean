import K530.Core.Keycode
import K530.Lib.Run

/-!
# The SPI Slave

The byte machine of the Bluetooth link, and the interrupt that drives it.

The radio module is the SPI master, and every byte it clocks in carries one byte
of ours out. `rxTxStep` is the whole of that exchange: the poll byte `0xA2` starts
the frame in the transmit buffer over, and every other byte both carries the next
byte of the frame out and, if a status frame is open, is stored as part of it.

A status frame opens with `0xA7` and has no length. It ends at the first byte
equal to the sum of everything before it. The buffer holds sixty-four bytes;
`collect` goes on summing after it is full but stores no more.

`txIdx` is eight bits wide and is incremented past the end of the frame as well,
so it wraps. `rxLen` never does; it is a `Nat` here.

The interrupt latches three bytes of a status frame for the main loop and
restarts the peripheral at every frame boundary, which leaves nothing to model.
Neither does the debug snapshot.

## Main definitions

* `TxFrame`: What the transmit buffer holds.
-/

namespace K530

/-- `K530_RX_FRAME_LEN`. -/
abbrev rxFrameLen : Nat := 64

/-- A frame on its way to the module, `K530_FRAME_LEN` bytes. -/
abbrev TxFrame := Vector Byte 39

namespace Spi

/-- `K530_CMD_TXPOLL`: the master polls for our frame. -/
def cmdTxpoll : Byte := 0xA2

/-- `K530_CMD_STATUS`: a status frame from the module. -/
def cmdStatus : Byte := 0xA7

/-- `K530_CMD_LOOPBACK`. -/
def cmdLoopback : Byte := 0x20

/-- `K530_A7_OPCODE_ALT`: the second opcode the status latch accepts. -/
def a7OpcodeAlt : Byte := 0x04

end Spi

structure Spi where
  /-- `k530_tx_frame` -/
  txFrame : TxFrame
  /-- `k530_tx_idx`, eight bits -/
  txIdx : Byte
  /-- `k530_cmd`: the command of the current transaction -/
  cmd : Byte
  rxBuf : Vector Byte rxFrameLen
  rxLen : Nat
  rxSum : BitVec 16
  rxActive : Bool
  /-- A7[3]: the host's LEDs -/
  a7HidLed : Byte
  /-- A7[4]: the state of the link -/
  a7Link : Byte
  /-- A7[5]: the battery level -/
  a7Batt : Byte
  /-- when the status was last latched -/
  a7Stamp : BitVec 32
  a7Valid : Bool
  deriving DecidableEq

/-- What one step of the byte machine answers: the byte to shift out, and the
    status frame the byte completed, if it completed one. `*complete` and
    `*csok` are raised together, so the frame stands for both. -/
@[ext]
structure StepOut where
  resp : Byte
  frame : Option (List Byte)
  deriving DecidableEq

namespace Spi

def reset : Spi :=
  { txFrame := Vector.replicate 39 0, txIdx := 0, cmd := 0,
    rxBuf := Vector.replicate rxFrameLen 0, rxLen := 0, rxSum := 0, rxActive := false,
    a7HidLed := 0, a7Link := 0, a7Batt := 0, a7Stamp := 0, a7Valid := false }

/-- `k530_spi0_load_tx_buffer`, as one step. Every caller passes a whole
    frame. -/
def loadTxBuffer (frame : TxFrame) (s : Spi) : Spi :=
  { s with txFrame := frame }

/-- The poll byte: the transmit index goes back to the start, an open status
    frame is dropped, and the first byte of our frame is shifted out. -/
def poll (s : Spi) : Spi × StepOut :=
  ({ s with cmd := cmdTxpoll, txIdx := 1, rxActive := false },
    { resp := s.txFrame[0], frame := none })

def openFrame (rx : Byte) (s : Spi) : Spi :=
  if rx = cmdStatus ∧ s.rxActive = false then
    { s with
      rxActive := true, rxLen := 0, rxSum := 0,
      cmd := if s.cmd ≠ cmdTxpoll then cmdStatus else s.cmd }
  else s

def store (rx : Byte) (s : Spi) : Spi :=
  if h : s.rxLen < rxFrameLen then
    { s with rxBuf := s.rxBuf.set s.rxLen rx h, rxLen := s.rxLen + 1 }
  else s

/-- The bytes stored so far: what `memcpy` delivers on completion. -/
def stored (s : Spi) : List Byte :=
  s.rxBuf.toList.take s.rxLen

/-- A byte of an open status frame. From the second byte on, a byte equal to
    the running sum closes the frame. -/
def collect (rx : Byte) (s : Spi) : Spi × Option (List Byte) :=
  let s := store rx s
  if 2 ≤ s.rxLen ∧ rx = s.rxSum.setWidth 8 then
    ({ s with rxActive := false }, some s.stored)
  else
    ({ s with rxSum := s.rxSum + rx.setWidth 16 }, none)

/-- The byte shifted out for a byte that is not a poll. The index moves on
    whether or not the frame has ended. -/
def respond (rx : Byte) (s : Spi) : Spi × Byte :=
  if s.cmd = cmdTxpoll then
    ({ s with txIdx := s.txIdx + 1 },
      if h : s.txIdx.toNat < 39 then s.txFrame[s.txIdx.toNat] else 0)
  else if s.cmd = cmdLoopback then (s, rx)
  else (s, 0)

def receive (rx : Byte) (s : Spi) : Spi × Option (List Byte) :=
  let s := openFrame rx s
  if s.rxActive then collect rx s else (s, none)

/-- `k530_rx_tx_step`. -/
def rxTxStep (s : Spi) (rx : Byte) : Spi × StepOut :=
  if rx = cmdTxpoll then poll s
  else
    let received := receive rx s
    let answered := respond rx received.1
    (answered.1, { resp := answered.2, frame := received.2 })

/-- The status latch of the interrupt: bytes 3, 4 and 5 of a long enough frame
    with a status opcode. -/
def latch (now : BitVec 32) (frame : List Byte) (s : Spi) : Spi :=
  if 6 ≤ frame.length ∧ (frame.getD 0 0 = cmdStatus ∨ frame.getD 0 0 = a7OpcodeAlt) then
    { s with
      a7HidLed := frame.getD 3 0, a7Link := frame.getD 4 0, a7Batt := frame.getD 5 0,
      a7Stamp := now, a7Valid := true }
  else s

/-- `k530_spi0_isr`, for one received byte. The re-entrancy guard never finds
    the interrupt already inside, an interrupt being one step here. -/
def spi0Isr (now : BitVec 32) (s : Spi) (byteIn : Byte) : Spi × StepOut :=
  let out := rxTxStep s byteIn
  match out.2.frame with
  | none => out
  | some frame => (latch now frame out.1, out.2)

end Spi

end K530
