import K530.Core.Keycode
import Mathlib.Logic.Function.Iterate

/-!
# Split Transactions and Their Checksum

The two halves of a split keyboard guard what they hand each other with a check
value of one byte, `crc8`. There are two of it, and a build has the one or the
other: with `CRC8_USE_TABLE` a lookup for each byte, without it a shift for each
bit.

`crc_t` is the type the check value is computed in. It has at least eight bits,
and with `CRC8_OPTIMIZE_SPEED` as many as the platform likes; `extra` is how
many more than eight. The loop over the bits lets ones run out into them and
drops them at the end. The table never has more than a byte in hand.

## Main definitions

* `crcTable`: The table.
-/

namespace K530

set_option maxRecDepth 4096 in
def crcTable : Vector Byte 256 :=
  #v[
    0x00, 0x07, 0x0e, 0x09, 0x1c, 0x1b, 0x12, 0x15, 0x38, 0x3f, 0x36, 0x31, 0x24, 0x23, 0x2a, 0x2d,
    0x70, 0x77, 0x7e, 0x79, 0x6c, 0x6b, 0x62, 0x65, 0x48, 0x4f, 0x46, 0x41, 0x54, 0x53, 0x5a, 0x5d,
    0xe0, 0xe7, 0xee, 0xe9, 0xfc, 0xfb, 0xf2, 0xf5, 0xd8, 0xdf, 0xd6, 0xd1, 0xc4, 0xc3, 0xca, 0xcd,
    0x90, 0x97, 0x9e, 0x99, 0x8c, 0x8b, 0x82, 0x85, 0xa8, 0xaf, 0xa6, 0xa1, 0xb4, 0xb3, 0xba, 0xbd,
    0xc7, 0xc0, 0xc9, 0xce, 0xdb, 0xdc, 0xd5, 0xd2, 0xff, 0xf8, 0xf1, 0xf6, 0xe3, 0xe4, 0xed, 0xea,
    0xb7, 0xb0, 0xb9, 0xbe, 0xab, 0xac, 0xa5, 0xa2, 0x8f, 0x88, 0x81, 0x86, 0x93, 0x94, 0x9d, 0x9a,
    0x27, 0x20, 0x29, 0x2e, 0x3b, 0x3c, 0x35, 0x32, 0x1f, 0x18, 0x11, 0x16, 0x03, 0x04, 0x0d, 0x0a,
    0x57, 0x50, 0x59, 0x5e, 0x4b, 0x4c, 0x45, 0x42, 0x6f, 0x68, 0x61, 0x66, 0x73, 0x74, 0x7d, 0x7a,
    0x89, 0x8e, 0x87, 0x80, 0x95, 0x92, 0x9b, 0x9c, 0xb1, 0xb6, 0xbf, 0xb8, 0xad, 0xaa, 0xa3, 0xa4,
    0xf9, 0xfe, 0xf7, 0xf0, 0xe5, 0xe2, 0xeb, 0xec, 0xc1, 0xc6, 0xcf, 0xc8, 0xdd, 0xda, 0xd3, 0xd4,
    0x69, 0x6e, 0x67, 0x60, 0x75, 0x72, 0x7b, 0x7c, 0x51, 0x56, 0x5f, 0x58, 0x4d, 0x4a, 0x43, 0x44,
    0x19, 0x1e, 0x17, 0x10, 0x05, 0x02, 0x0b, 0x0c, 0x21, 0x26, 0x2f, 0x28, 0x3d, 0x3a, 0x33, 0x34,
    0x4e, 0x49, 0x40, 0x47, 0x52, 0x55, 0x5c, 0x5b, 0x76, 0x71, 0x78, 0x7f, 0x6a, 0x6d, 0x64, 0x63,
    0x3e, 0x39, 0x30, 0x37, 0x22, 0x25, 0x2c, 0x2b, 0x06, 0x01, 0x08, 0x0f, 0x1a, 0x1d, 0x14, 0x13,
    0xae, 0xa9, 0xa0, 0xa7, 0xb2, 0xb5, 0xbc, 0xbb, 0x96, 0x91, 0x98, 0x9f, 0x8a, 0x8d, 0x84, 0x83,
    0xde, 0xd9, 0xd0, 0xd7, 0xc2, 0xc5, 0xcc, 0xcb, 0xe6, 0xe1, 0xe8, 0xef, 0xfa, 0xfd, 0xf4, 0xf3]

/-- `crc8` with `CRC8_USE_TABLE`. -/
def crc8Table (data : List Byte) : Byte :=
  data.foldl (fun crc d => crcTable.get ⟨(crc ^^^ d).toNat, (crc ^^^ d).isLt⟩ &&& 0xff) 0xff

/-- One turn of the inner loop of `crc8`. -/
def crcShift {extra : Nat} (crc : BitVec (8 + extra)) : BitVec (8 + extra) :=
  if crc &&& 0x80 ≠ 0 then (crc <<< 1) ^^^ 0x31 else crc <<< 1

/-- `crc8` without `CRC8_USE_TABLE`. -/
def crc8Bitwise (extra : Nat) (data : List Byte) : Byte :=
  (data.foldl (fun crc d => crcShift^[8] (crc ^^^ d.setWidth (8 + extra))) 0xff).setWidth 8

/-- Whether `CRC8_USE_TABLE` is set, and if not how long `crc_t` is. -/
inductive Crc8Build
  | table
  | bitwise (extra : Nat)
  deriving DecidableEq

/-- The `crc8` of a build. -/
def crc8 (build : Crc8Build) (data : List Byte) : Byte :=
  match build with
  | .table => crc8Table data
  | .bitwise extra => crc8Bitwise extra data

/-!
### Split Transactions

How the master half of a split keyboard hands a datum to the other half: the
LED state, the lighting configuration, its own matrix. And how it gets the matrix of
the other half. Master and slave each
have a copy of the shared memory. A transaction first writes what it carries
into the master's own copy and then sends it; it either delivers or reports that
it failed.

A handler built on `send_if_data_mismatch` sends when the datum differs from the
master's own copy, and besides when nothing was sent for a while. The master
calls it through `transaction_handler_master`, which tries again when it fails,
ten times on a link that counts as connected and once on one that does not.

A handler built on `read_if_checksum_mismatch` gets the checksum first, and then the
datum unless the master's own copy has that checksum already and the last transfer is
not long ago. What is transferred goes into the master's own copy, and may be anything
after a transfer that fails, or one that does not.

The datum is any type with decidable equality, which is what `memcmp` sees of
it. Callbacks, the waits between the attempts and the debug print are left out.
-/

universe u

/-- A datum of the master, and the copies of it in the two shared memories. -/
structure SplitDatum (α : Type u) where
  /-- what the handler reads on the master -/
  source : α
  /-- the place in the master's `split_shmem` -/
  shmem : α
  /-- the same place on the slave -/
  slave : α
  /-- `last_update`, the static of the handler -/
  lastUpdate : BitVec 32
  deriving DecidableEq

/-- One call of a handler: the clock when the throttle is looked at, the clock
    after the transfer, and whether a transfer, if there is one, is delivered. -/
structure Attempt where
  now : BitVec 32
  sent : BitVec 32
  delivered : Bool
  deriving DecidableEq

namespace SplitDatum

variable {α : Type u}

def forcedSyncThrottleMs : Nat := 100

def due (a : Attempt) (s : SplitDatum α) : Bool :=
  decide (forcedSyncThrottleMs ≤ (a.now - s.lastUpdate).toNat)

/-- `transport_execute_transaction` of something to send. The master's own copy
    is written before the outcome is known. -/
def transportWrite (a : Attempt) (s : SplitDatum α) : Bool × SplitDatum α :=
  let s := { s with shmem := s.source }
  if a.delivered then (true, { s with slave := s.source }) else (false, s)

def sendIfCondition (a : Attempt) (condition : Bool) (s : SplitDatum α) : Bool × SplitDatum α :=
  if s.due a || condition then
    let written := s.transportWrite a
    (written.1,
      if written.1 then { written.2 with lastUpdate := a.sent } else written.2)
  else (true, s)

variable [DecidableEq α]

def sendIfDataMismatch (a : Attempt) (s : SplitDatum α) : Bool × SplitDatum α :=
  s.sendIfCondition a (decide (s.source ≠ s.shmem))

/-- The loop of `transaction_handler_master` over the attempts it has. -/
def retry : List Attempt → SplitDatum α → Bool × SplitDatum α
  | [], s => (false, s)
  | a :: attempts, s =>
    let called := s.sendIfDataMismatch a
    if called.1 then called else retry attempts called.2

/-- `transaction_handler_master`: ten attempts on a connected link, else one. -/
def transactionHandlerMaster (connected : Bool) (attempts : Vector Attempt 10)
    (s : SplitDatum α) : Bool × SplitDatum α :=
  retry (attempts.toList.take (if connected then 10 else 1)) s

end SplitDatum

structure SlaveMatrix (n : Nat) where
  /-- `split_shmem->smatrix.matrix` on the master -/
  shmem : Vector Byte n
  /-- `last_update`, the static of the handler -/
  lastUpdate : BitVec 32
  /-- `last_matrix`, the other static -/
  lastMatrix : Vector Byte n
  deriving DecidableEq

/-- One call of the handler: the byte that has arrived as the checksum, unless that
    transfer failed; the clock when the throttle is looked at; what the transfer of
    the matrix, if there is one, leaves in the shared memory, and whether it is
    delivered; the clock after it; and what is on the stack. -/
structure ReadAttempt (n : Nat) where
  checksum : Option Byte
  now : BitVec 32
  data : Vector Byte n
  delivered : Bool
  read : BitVec 32
  stack : Vector Byte n
  deriving DecidableEq

namespace SlaveMatrix

variable {n : Nat} (build : Crc8Build)

/-- `read_if_checksum_mismatch`: the outcome, what is in `destination`, and the
    memory after it. -/
def readIfChecksumMismatch (a : ReadAttempt n) (s : SlaveMatrix n) :
    Bool × Vector Byte n × SlaveMatrix n :=
  match a.checksum with
  | none => (false, s.shmem, s)
  | some currChecksum =>
    if SplitDatum.forcedSyncThrottleMs ≤ (a.now - s.lastUpdate).toNat ∨
        currChecksum ≠ crc8 build s.shmem.toList then
      -- the transfer goes through the shared memory
      let destination := if a.delivered then a.data else a.stack
      let okay := a.delivered && currChecksum == crc8 build a.data.toList
      (okay, destination,
        { s with
          shmem := a.data,
          lastUpdate := if okay then a.read else s.lastUpdate })
    else (true, s.shmem, s)

/-- `slave_matrix_handlers_master`: the outcome, the matrix that is handed out, and
    the memory after it. -/
def handlersMaster (a : ReadAttempt n) (s : SlaveMatrix n) :
    Bool × Vector Byte n × SlaveMatrix n :=
  let called := s.readIfChecksumMismatch build a
  let lastMatrix := if called.1 then called.2.1 else s.lastMatrix
  (called.1, lastMatrix, { called.2.2 with lastMatrix := lastMatrix })

end SlaveMatrix

end K530
