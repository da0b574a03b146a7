import K530.Core.Keycode

/-!
# Remote Calls over the Split Link

The firmware of a keyboard may have transactions of its own between the two halves.
They all go through the same scratch buffers. The master sends a block with the
number of the transaction and the two lengths, then the data, then the number again,
and the slave calls what is registered for it.

`split_transaction_table` has an entry for every transaction, those of the core first:
the last four of them are the ones that carry remote calls. Two of the entries have
callbacks of the core itself, which act on what is in the shared memory. The number is
a signed byte and the lengths are bytes.

A function that is called from the table is not followed here. What the callbacks do
with the table and the lengths is a list of events.

## Main definitions

* `RpcConfig`: What the build fixes.
-/

namespace K530

/-- What `slave_callback` points to. -/
inductive SlaveCallback
  | rpcInfo
  | rpcExec
  | user (name : Nat)
  deriving DecidableEq

/-- `split_transaction_desc_t`, without the status. -/
structure TransactionDesc where
  initiator2targetBufferSize : Byte
  initiator2targetOffset : BitVec 16
  target2initiatorBufferSize : Byte
  target2initiatorOffset : BitVec 16
  slaveCallback : Option SlaveCallback
  deriving DecidableEq

structure RpcConfig where
  /-- the transactions before `PUT_RPC_INFO`, which have no callback -/
  core : List TransactionDesc
  /-- the transactions of the keyboard and of the keymap -/
  own : Nat
  /-- `RPC_M2S_BUFFER_SIZE` -/
  m2sBufferSize : Nat
  /-- `RPC_S2M_BUFFER_SIZE` -/
  s2mBufferSize : Nat
  /-- where `rpc_info` is in the shared memory -/
  infoOffset : BitVec 16
  /-- `rpc_m2s_buffer` -/
  m2sOffset : BitVec 16
  /-- `rpc_s2m_buffer` -/
  s2mOffset : BitVec 16
  core_callback : ∀ desc ∈ core, desc.slaveCallback = none
  /-- "only use 5 bits for transaction" -/
  total_le : core.length + 4 + own ≤ 32

namespace RpcConfig

variable (c : RpcConfig)

def putRpcInfo : Nat := c.core.length

def putRpcReqData : Nat := c.core.length + 1

def executeRpc : Nat := c.core.length + 2

def getRpcRespData : Nat := c.core.length + 3

/-- `NUM_TOTAL_TRANSACTIONS` -/
def numTotal : Nat := c.core.length + 4 + c.own

/-- `split_transaction_table` as it is compiled in. -/
def table : List TransactionDesc :=
  c.core ++
    [{ initiator2targetBufferSize := 3
       initiator2targetOffset := c.infoOffset
       target2initiatorBufferSize := 0
       target2initiatorOffset := 0
       slaveCallback := some .rpcInfo },
     { initiator2targetBufferSize := BitVec.ofNat 8 c.m2sBufferSize
       initiator2targetOffset := c.m2sOffset
       target2initiatorBufferSize := 0
       target2initiatorOffset := 0
       slaveCallback := none },
     { initiator2targetBufferSize := 1
       initiator2targetOffset := c.infoOffset
       target2initiatorBufferSize := 0
       target2initiatorOffset := 0
       slaveCallback := some .rpcExec },
     { initiator2targetBufferSize := 0
       initiator2targetOffset := 0
       target2initiatorBufferSize := BitVec.ofNat 8 c.s2mBufferSize
       target2initiatorOffset := c.s2mOffset
       slaveCallback := none }] ++
    List.replicate c.own
      { initiator2targetBufferSize := 0
        initiator2targetOffset := 0
        target2initiatorBufferSize := 0
        target2initiatorOffset := 0
        slaveCallback := none }

end RpcConfig

/-- `rpc_sync_info_t`. -/
structure RpcInfo where
  transactionId : BitVec 8
  m2sLength : Byte
  s2mLength : Byte
  deriving DecidableEq

inductive RpcEvent
  /-- an entry of the table is looked at or set -/
  | index (i : Int)
  /-- the lengths of the transfers to and from the buffers are set -/
  | configure (m2sLength s2mLength : Byte)
  /-- what is registered for a transaction is called, with the lengths of the buffers -/
  | dispatch (id : Int) (callback : SlaveCallback) (m2sLength s2mLength : Byte)
  deriving DecidableEq

variable (c : RpcConfig)

/-- `transaction_register_rpc`, for a transaction there is. -/
def transactionRegisterRpc (id : Fin c.numTotal) (callback : SlaveCallback)
    (table : List TransactionDesc) : List TransactionDesc :=
  if id.val ≤ c.getRpcRespData then table
  else
    table.modify id.val (fun desc =>
      { desc with
        slaveCallback := some callback,
        initiator2targetOffset := c.m2sOffset,
        target2initiatorOffset := c.s2mOffset })

/-- `transaction_rpc_exec`: the block it sends, if it comes to send one. -/
def transactionRpcExec (connected : Bool) (id : BitVec 8) (m2sSize s2mSize : Byte) :
    Option RpcInfo :=
  if !connected then none
  else if id.toInt ≤ c.getRpcRespData then none
  else if c.m2sBufferSize < m2sSize.toNat then none
  else if c.s2mBufferSize < s2mSize.toNat then none
  else some { transactionId := id, m2sLength := m2sSize, s2mLength := s2mSize }

def slaveRpcInfoCallback (info : RpcInfo) (table : List TransactionDesc) :
    List TransactionDesc × List RpcEvent :=
  let table := table.modify c.putRpcReqData (fun desc =>
    { desc with initiator2targetBufferSize := info.m2sLength })
  let table := table.modify c.getRpcRespData (fun desc =>
    { desc with target2initiatorBufferSize := info.s2mLength })
  (table, [.index c.putRpcReqData, .index c.getRpcRespData,
    .configure info.m2sLength info.s2mLength])

/-- `slave_rpc_exec_callback`. A number below zero is less than the number of
    transactions; what lies before the table is not known, and nothing follows. -/
def slaveRpcExecCallback (info : RpcInfo) (table : List TransactionDesc) : List RpcEvent :=
  let id := info.transactionId.toInt
  if id < c.numTotal then
    .index id ::
      if id < 0 then []
      else
        match table[id.toNat]?.bind TransactionDesc.slaveCallback with
        | some callback => [.dispatch id callback info.m2sLength info.s2mLength]
        | none => []
  else []

end K530
