import K530.Core.Keycode
import K530.Lib.Paged

/-!
# External EEPROMs

`eeprom_i2c.c` and `eeprom_spi.c`: an EEPROM on a bus, and `eeprom_driver.c` over
either of them.

A write is split at the ends of the device's pages, since the device goes round
in a page. A packet on the I2C bus has the address bytes and what is to be
written; the bits of the location that do not fit into the address bytes are in
the device address. On the SPI bus a frame begins with a command, and before each
write the driver waits for the last one to be finished.

The lengths that `i2c_receive`, `i2c_transmit`, `spi_receive` and `spi_transmit`
take have sixteen bits. A loop of the driver has as much fuel as it is given, and
is `none` when that is not enough. Locations are numbers, since the ones there are
fit into a pointer. A read goes on through the device, whatever the address bytes can
tell apart. The debug print, the write protection pin, the time an I2C
device is given to write, and what the buses answer are left out; that a frame on
the SPI bus does not start is not.

## Main definitions

* `ExternalEeprom`: The sizes of a device.
-/

namespace K530

open Paged

/-- The sizes of a device. The ones on the I2C bus with more than the address bytes
    can say take further bits from the device address. -/
structure ExternalEeprom where
  /-- `EXTERNAL_EEPROM_BYTE_COUNT` -/
  byteCount : Nat
  /-- `EXTERNAL_EEPROM_PAGE_SIZE` -/
  pageSize : Nat
  /-- `EXTERNAL_EEPROM_ADDRESS_SIZE` -/
  addressSize : Nat
  page : ∃ k ≤ 8, pageSize = 2 ^ k
  /-- a packet has a length -/
  packet : addressSize + pageSize < 2 ^ 16

namespace ExternalEeprom

variable (c : ExternalEeprom)

theorem pageSize_pos : 0 < c.pageSize := by
  rcases c.page with ⟨k, -, hk⟩
  rw [hk]
  exact Nat.two_pow_pos k

theorem pageSize_le : c.pageSize ≤ 256 := by
  rcases c.page with ⟨k, hle, hk⟩
  rw [hk]
  exact Nat.pow_le_pow_right (by decide) hle

end ExternalEeprom

/-- The loop of `fill_target_address`, and of `spi_eeprom_transmit_address`: the bytes
    of a location, from the last to the first. -/
def addressBytes : Nat → Nat → List Byte
  | 0, _ => []
  | n + 1, p => addressBytes n (p >>> 8) ++ [BitVec.ofNat 8 p]

def locationOf (bytes : List Byte) : Nat :=
  bytes.foldl (fun location byte => location * 256 + byte.toNat) 0

structure EepromDriver (σ : Type) where
  /-- `eeprom_read_block` -/
  readBlock : (fuel addr : Nat) → (buf : List Byte) → σ → Option (List Byte × σ)
  /-- `eeprom_write_block` -/
  writeBlock : (fuel : Nat) → (buf : List Byte) → (addr : Nat) → σ → Option σ

/-- A use of an EEPROM. A read has a buffer with something in it, and the buffer of
    an update is somewhere on the stack. -/
inductive EepromCall where
  | read (addr : Nat) (buf : List Byte)
  | write (buf : List Byte) (addr : Nat)
  | update (buf : List Byte) (addr : Nat) (stack : List Byte)
  deriving DecidableEq

namespace EepromDriver

variable {σ : Type} (d : EepromDriver σ)

/-- `eeprom_update_block` -/
def updateBlock (fuel : Nat) (buf : List Byte) (addr : Nat) (stack : List Byte) (s : σ) :
    Option σ := do
  let (readBuf, s) ← d.readBlock fuel addr stack s
  if buf ≠ readBuf then d.writeBlock fuel buf addr s else some s

def call (fuel : Nat) (s : σ) : EepromCall → Option (List Byte × σ)
  | .read addr buf => d.readBlock fuel addr buf s
  | .write buf addr => (d.writeBlock fuel buf addr s).map (fun s => (buf, s))
  | .update buf addr stack => (d.updateBlock fuel buf addr stack s).map (fun s => (buf, s))

def calls (fuel : Nat) : σ → List EepromCall → Option (List (List Byte) × σ)
  | s, [] => some ([], s)
  | s, i :: is => do
      let (buf, s) ← d.call fuel s i
      let (bufs, s) ← calls fuel s is
      return (buf :: bufs, s)

end EepromDriver

/-! ### On the I2C bus -/

structure I2cEeprom extends ExternalEeprom where
  /-- `EXTERNAL_EEPROM_I2C_BASE_ADDRESS` -/
  baseAddress : Byte
  /-- how many bits of the location are in the device address -/
  bankBits : Nat
  banks : bankBits ≤ 7
  free : (baseAddress >>> 1).toNat % 2 ^ bankBits = 0
  capacity : byteCount ≤ 256 ^ addressSize * 2 ^ bankBits

structure I2cBus where
  device : Paged.Device Byte
  pointer : Nat

namespace I2cEeprom

variable (c : I2cEeprom)

def bankSize : Nat := 256 ^ c.addressSize

/-- `EXTERNAL_EEPROM_I2C_ADDRESS` -/
def i2cAddress (loc : Nat) : Byte :=
  c.baseAddress |||
    (BitVec.ofNat 8 ((loc >>> (8 * c.addressSize)) % 2 ^ c.bankBits) <<< 1)

def bankOf (address : Byte) : Nat := (address >>> 1).toNat % 2 ^ c.bankBits

/-- The device takes a packet: it goes to the location, and writes if there is
    anything to be written. -/
def takePacket (address : Byte) (packet : List Byte) (s : I2cBus) : I2cBus :=
  let location :=
    c.bankOf address * c.bankSize + locationOf (packet.take c.addressSize)
  { device :=
      if packet.drop c.addressSize = [] then s.device
      else s.device.write c.pageSize location (packet.drop c.addressSize)
    pointer := location }

/-- `i2c_transmit` of the first bytes of a buffer. -/
def i2cTransmit (address : Byte) (data : List Byte) (length : Nat) (s : I2cBus) : I2cBus :=
  c.takePacket address (data.take (length % 2 ^ 16)) s

/-- `i2c_receive` into a buffer. -/
def i2cReceive (buf : List Byte) (length : Nat) (s : I2cBus) : List Byte :=
  get s.device.values s.pointer (length % 2 ^ 16) ++ buf.drop (length % 2 ^ 16)

def fillTargetAddress (packet : List Byte) (addr : Nat) : List Byte :=
  addressBytes c.addressSize addr ++ packet.drop c.addressSize

/-- `eeprom_read_block` -/
def readBlock (addr : Nat) (buf : List Byte) (s : I2cBus) : List Byte × I2cBus :=
  let s := c.i2cTransmit (c.i2cAddress addr) (addressBytes c.addressSize addr) c.addressSize s
  (i2cReceive buf buf.length s, s)

/-- The loop that copies into the packet. Its variable has eight bits. -/
def copyPacket (writeLength : Nat) (readBuf : List Byte) :
    (fuel : Nat) → (i : Byte) → (packet : List Byte) → Option (List Byte)
  | 0, _, _ => none
  | fuel + 1, i, packet =>
    if i.toNat < writeLength then
      copyPacket writeLength readBuf fuel (i + 1)
        (packet.set (c.addressSize + i.toNat) (readBuf.getD i.toNat 0))
    else some packet

/-- The loop of `eeprom_write_block`. The device address is that of the block. -/
def writeLoop (addr : Nat) :
    (fuel : Nat) → (packet readBuf : List Byte) → (targetAddr : Nat) → I2cBus → Option I2cBus
  | 0, _, _, _, _ => none
  | fuel + 1, packet, readBuf, targetAddr, s =>
    if 0 < readBuf.length then do
      let writeLength := pieceLength c.pageSize targetAddr readBuf.length
      let packet ← c.copyPacket writeLength readBuf fuel 0 (c.fillTargetAddress packet targetAddr)
      writeLoop addr fuel packet (readBuf.drop writeLength) (targetAddr + writeLength)
        (c.i2cTransmit (c.i2cAddress addr) packet (c.addressSize + writeLength) s)
    else some s

/-- `eeprom_write_block`. What is in the packet at first is overwritten. -/
def writeBlock (fuel : Nat) (buf : List Byte) (addr : Nat) (s : I2cBus) : Option I2cBus :=
  c.writeLoop addr fuel (List.replicate (c.addressSize + c.pageSize) 0) buf addr s

def driver : EepromDriver I2cBus where
  readBlock _ addr buf s := some (c.readBlock addr buf s)
  writeBlock := c.writeBlock

end I2cEeprom

/-! ### On the SPI bus -/

structure SpiEeprom extends ExternalEeprom where
  capacity : byteCount ≤ 256 ^ addressSize

/-- The status register looked at: whether the device is busy, and the clock after
    that. -/
structure SpiPoll where
  busy : Bool
  now : BitVec 32
  deriving DecidableEq

/-- A wait for the device: the clock when it begins, and what is seen. -/
structure SpiWait where
  now : BitVec 32
  polls : List SpiPoll
  deriving DecidableEq

/-- The device, its write enable latch, and what is to come on the bus: whether the
    frames start, and the waits. -/
structure SpiBus where
  device : Paged.Device Byte
  writeEnabled : Bool
  starts : Nat → Bool
  waits : Nat → SpiWait

/-- `SPI_STATUS_SUCCESS` or `SPI_STATUS_TIMEOUT`. -/
inductive SpiStatus where
  | success
  | timeout
  deriving DecidableEq

namespace SpiEeprom

/-- `EXTERNAL_EEPROM_SPI_TIMEOUT` -/
def timeoutMs : BitVec 32 := 100

def cmdWren : Byte := 6
def cmdWrdi : Byte := 4
def cmdWrite : Byte := 2

def start (s : SpiBus) : Bool × SpiBus :=
  (s.starts 0, { s with starts := fun n => s.starts (n + 1) })

/-- The loop of `spi_eeprom_wait_while_busy`, as far as the world goes. -/
def pollWhileBusy (deadline : BitVec 32) : List SpiPoll → Option SpiStatus
  | [] => none
  | p :: ps =>
    if deadline ≤ p.now then some .timeout
    else if p.busy then pollWhileBusy deadline ps
    else some .success

def waitWhileBusy (s : SpiBus) : Option (SpiStatus × SpiBus) :=
  (pollWhileBusy ((s.waits 0).now + timeoutMs) (s.waits 0).polls).map
    (fun status => (status, { s with waits := fun n => s.waits (n + 1) }))

/-- The frame in which the driver waits for the device; whether it may go on. -/
def awaitReady (s : SpiBus) : Option (Bool × SpiBus) :=
  let started := start s
  if started.1 then
    (waitWhileBusy started.2).map (fun waited => (decide (waited.1 = .success), waited.2))
  else some (false, started.2)

variable (c : SpiEeprom)

def frame (sent : List Byte) (s : SpiBus) : SpiBus :=
  match sent with
  | [] => s
  | command :: sent =>
    if command = cmdWren then { s with writeEnabled := true }
    else if command = cmdWrdi then { s with writeEnabled := false }
    else if command = cmdWrite && s.writeEnabled then
      { s with
        device := s.device.write c.pageSize (locationOf (sent.take c.addressSize))
          (sent.drop c.addressSize)
        writeEnabled := false }
    else s

def command (sent : List Byte) (s : SpiBus) : Bool × SpiBus :=
  let started := start s
  if started.1 then (true, c.frame sent started.2) else (false, started.2)

/-- What is received into a buffer in a frame with `CMD_READ` and a location. -/
def spiReceive (addr : Nat) (buf : List Byte) (length : Nat) (s : SpiBus) : List Byte :=
  get s.device.values (locationOf (addressBytes c.addressSize addr)) (length % 2 ^ 16) ++
    buf.drop (length % 2 ^ 16)

/-- `eeprom_read_block` -/
def readBlock (addr : Nat) (buf : List Byte) (s : SpiBus) : Option (List Byte × SpiBus) := do
  let (ready, s) ← awaitReady s
  if ready then
    let started := start s
    if started.1 then some (c.spiReceive addr buf buf.length started.2, started.2)
    else some (List.replicate buf.length 0, started.2)
  else some (List.replicate buf.length 0, s)

/-- The loop of `eeprom_write_block`; whether it has come to its end. -/
def writeLoop : (fuel : Nat) → (readBuf : List Byte) → (targetAddr : Nat) → SpiBus →
    Option (Bool × SpiBus)
  | 0, _, _, _ => none
  | fuel + 1, readBuf, targetAddr, s =>
    if 0 < readBuf.length then do
      let writeLength := pieceLength c.pageSize targetAddr readBuf.length
      let (ready, s) ← awaitReady s
      if ready then
        let enabled := c.command [cmdWren] s
        if enabled.1 then
          let written := c.command
            (cmdWrite :: (addressBytes c.addressSize targetAddr ++
              readBuf.take (writeLength % 2 ^ 16))) enabled.2
          if written.1 then
            writeLoop fuel (readBuf.drop writeLength) (targetAddr + writeLength) written.2
          else some (false, written.2)
        else some (false, enabled.2)
      else some (false, s)
    else some (true, s)

/-- `eeprom_write_block` -/
def writeBlock (fuel : Nat) (buf : List Byte) (addr : Nat) (s : SpiBus) : Option SpiBus := do
  let (finished, s) ← c.writeLoop fuel buf addr s
  return if finished then (c.command [cmdWrdi] s).2 else s

def driver : EepromDriver SpiBus where
  readBlock _ := c.readBlock
  writeBlock := c.writeBlock

end SpiEeprom

end K530
