import K530.Lib.Run
import K530.Split.Rpc

/-!
# What the Slave Does Not Check

The slave takes the number of the transaction and the lengths as they come. The
master would not send a number that is no transaction of the keyboard, or a length
that is more than a buffer, but the transfers are not checked and what arrives may be
anything.

A length that is too long is set, and handed on. A number below zero is an entry
before the table. And of the transactions of the core two have callbacks, which are
called like any other: the one that sets the lengths, and the one that calls.

## Main definitions

* `RpcEvent.InBounds`: What the callbacks may do.

## Theorems

* `rpc_in_bounds`: When all calls of a run do.
* `rpc_in_bounds_broken`: A number below zero.
-/

namespace K530

open StepRun

/-- What is registered for a transaction. -/
def callbackOf (table : List TransactionDesc) (i : Nat) : Option SlaveCallback :=
  table[i]?.bind TransactionDesc.slaveCallback

variable (c : RpcConfig)

/-- The lengths are not more than the buffers. -/
def RpcInfo.Fits (info : RpcInfo) : Prop :=
  info.m2sLength.toNat ≤ c.m2sBufferSize ∧ info.s2mLength.toNat ≤ c.s2mBufferSize

instance (info : RpcInfo) : Decidable (info.Fits c) := inferInstanceAs (Decidable (_ ∧ _))

/-- What the callbacks may do: look at entries there are, set lengths that are not
    more than the buffers, and call what a keyboard or a keymap has registered. -/
def RpcEvent.InBounds : RpcEvent → Prop
  | .index i => 0 ≤ i ∧ i < c.numTotal
  | .configure m2s s2m => m2s.toNat ≤ c.m2sBufferSize ∧ s2m.toNat ≤ c.s2mBufferSize
  | .dispatch id callback m2s s2m =>
    (c.getRpcRespData : Int) < id ∧ (∃ name, callback = .user name) ∧
      m2s.toNat ≤ c.m2sBufferSize ∧ s2m.toNat ≤ c.s2mBufferSize

/-- A registration, or a call of a callback with what has arrived. -/
inductive RpcInput
  | register (id : Fin c.numTotal) (name : Nat)
  | info (block : RpcInfo)
  | exec (block : RpcInfo)

namespace RpcInput

variable {c}

/-- A step, and what it does with the table. -/
def step (table : List TransactionDesc) : RpcInput c → List TransactionDesc × List RpcEvent
  | .register id name => (transactionRegisterRpc c id (.user name) table, [])
  | .info block => slaveRpcInfoCallback c block table
  | .exec block => (table, slaveRpcExecCallback c block table)

/-- The lengths fit; the number is not below zero and not one of the two that have
    callbacks of the core, and the lengths fit if something is registered for it. -/
def Sound (table : List TransactionDesc) : RpcInput c → Prop
  | .register _ _ => True
  | .info block => block.Fits c
  | .exec block =>
    let id := block.transactionId.toInt
    0 ≤ id ∧ id ≠ c.putRpcInfo ∧ id ≠ c.executeRpc ∧
      (callbackOf table id.toNat ≠ none → block.Fits c)

end RpcInput

structure Registered (table : List TransactionDesc) : Prop where
  length_eq : table.length = c.numTotal
  info_eq : callbackOf table c.putRpcInfo = some .rpcInfo
  exec_eq : callbackOf table c.executeRpc = some .rpcExec
  core_eq : ∀ i ≤ c.getRpcRespData, i ≠ c.putRpcInfo → i ≠ c.executeRpc →
    callbackOf table i = none
  own_eq : ∀ i callback, c.getRpcRespData < i → callbackOf table i = some callback →
    ∃ name, callback = .user name

theorem callbackOf_modify (table : List TransactionDesc) (i j : Nat)
    (f : TransactionDesc → TransactionDesc)
    (h : ∀ desc, (f desc).slaveCallback = desc.slaveCallback) :
    callbackOf (table.modify i f) j = callbackOf table j := by
  unfold callbackOf
  rw [List.getElem?_modify]
  cases table[j]? with
  | none => rfl
  | some desc =>
    by_cases hij : i = j
    · simp [hij, h]
    · simp [hij]

theorem callbackOf_modify_ne (table : List TransactionDesc) (i j : Nat)
    (f : TransactionDesc → TransactionDesc) (h : i ≠ j) :
    callbackOf (table.modify i f) j = callbackOf table j := by
  unfold callbackOf
  rw [List.getElem?_modify]
  simp [h]

theorem registered_table : Registered c c.table := by
  have hcore : ∀ i < c.core.length, callbackOf c.table i = none := by
    intro i hi
    unfold callbackOf RpcConfig.table
    rw [List.append_assoc, List.getElem?_append_left hi, List.getElem?_eq_getElem hi,
      Option.bind_some]
    exact c.core_callback _ (List.getElem_mem hi)
  -- behind those of the core are the four, and behind these there is nothing
  have hrest : ∀ i, callbackOf c.table (c.core.length + i) =
      if i = 0 then some .rpcInfo else if i = 2 then some .rpcExec else none := by
    intro i
    unfold callbackOf RpcConfig.table
    rw [List.append_assoc, List.getElem?_append_right (Nat.le_add_right _ _),
      Nat.add_sub_cancel_left]
    match i with
    | 0 => rfl
    | 1 => rfl
    | 2 => rfl
    | 3 => rfl
    | i + 4 =>
      simp only [List.cons_append, List.nil_append, List.getElem?_cons_succ,
        List.getElem?_replicate]
      split <;> rfl
  refine ⟨?_, hrest 0, hrest 2, ?_, ?_⟩
  · unfold RpcConfig.table RpcConfig.numTotal
    simp only [List.length_append, List.length_cons, List.length_nil, List.length_replicate]
  · intro i hi hinfo hexec
    unfold RpcConfig.getRpcRespData at hi
    unfold RpcConfig.putRpcInfo at hinfo
    unfold RpcConfig.executeRpc at hexec
    rcases Nat.lt_or_ge i c.core.length with hlt | hge
    · exact hcore i hlt
    · -- one of the four, which are neither of the two
      obtain ⟨j, rfl⟩ := Nat.exists_eq_add_of_le hge
      rw [hrest, if_neg (by omega), if_neg (by omega)]
  · intro i callback hi hcallback
    unfold RpcConfig.getRpcRespData at hi
    obtain ⟨j, rfl⟩ := Nat.exists_eq_add_of_le (Nat.le_of_lt (Nat.lt_of_le_of_lt
      (Nat.le_add_right c.core.length 3) hi))
    rw [hrest, if_neg (by omega), if_neg (by omega)] at hcallback
    exact absurd hcallback (by simp)

namespace Registered

variable {c} {table : List TransactionDesc}

theorem register (h : Registered c table) (id : Fin c.numTotal) (name : Nat) :
    Registered c (transactionRegisterRpc c id (.user name) table) := by
  unfold transactionRegisterRpc
  by_cases hid : id.val ≤ c.getRpcRespData
  · rw [if_pos hid]
    exact h
  · rw [if_neg hid]
    -- the other entries are what they were
    have hother := fun j (hj : id.val ≠ j) => callbackOf_modify_ne table id.val j (fun desc =>
      { desc with
        slaveCallback := some (.user name),
        initiator2targetOffset := c.m2sOffset,
        target2initiatorOffset := c.s2mOffset }) hj
    refine ⟨by rw [List.length_modify]; exact h.length_eq, ?_, ?_, ?_, ?_⟩
    · rw [hother _ (by unfold RpcConfig.getRpcRespData at hid; unfold RpcConfig.putRpcInfo; omega)]
      exact h.info_eq
    · rw [hother _ (by unfold RpcConfig.getRpcRespData at hid; unfold RpcConfig.executeRpc; omega)]
      exact h.exec_eq
    · intro i hi hinfo hexec
      rw [hother i (by omega)]
      exact h.core_eq i hi hinfo hexec
    · intro i callback hi hcallback
      by_cases hsame : id.val = i
      · have hin : i < table.length := by
          rw [h.length_eq, ← hsame]
          exact id.isLt
        unfold callbackOf at hcallback
        rw [List.getElem?_modify, List.getElem?_eq_getElem hin] at hcallback
        simp only [hsame, if_true, Option.map_eq_map, Option.map_some, Option.bind_some,
          Option.some.injEq] at hcallback
        exact ⟨name, hcallback.symm⟩
      · rw [hother i hsame] at hcallback
        exact h.own_eq i callback hi hcallback

theorem info (h : Registered c table) (block : RpcInfo) :
    Registered c (slaveRpcInfoCallback c block table).1 := by
  -- only the lengths of two entries are set
  have hsame : ∀ i, callbackOf (slaveRpcInfoCallback c block table).1 i = callbackOf table i := by
    intro i
    unfold slaveRpcInfoCallback
    dsimp only
    rw [callbackOf_modify, callbackOf_modify]
    · exact fun _ => rfl
    · exact fun _ => rfl
  refine ⟨?_, ?_, ?_, ?_, ?_⟩
  · unfold slaveRpcInfoCallback
    simp only [List.length_modify, h.length_eq]
  · rw [hsame, h.info_eq]
  · rw [hsame, h.exec_eq]
  · intro i hi hinfo hexec
    rw [hsame, h.core_eq i hi hinfo hexec]
  · intro i callback hi hcallback
    rw [hsame] at hcallback
    exact h.own_eq i callback hi hcallback

end Registered

theorem info_inBounds_iff (block : RpcInfo) (table : List TransactionDesc) :
    (∀ e ∈ (slaveRpcInfoCallback c block table).2, e.InBounds c) ↔ block.Fits c := by
  unfold slaveRpcInfoCallback
  simp only [List.forall_mem_cons, List.not_mem_nil, false_implies, implies_true, and_true,
    RpcEvent.InBounds, RpcConfig.putRpcReqData, RpcConfig.getRpcRespData, RpcConfig.numTotal,
    RpcInfo.Fits]
  constructor
  · intro h
    exact h.2.2
  · intro h
    exact ⟨by omega, by omega, h⟩

namespace Registered

variable {c} {table : List TransactionDesc}

theorem ne_of_none (h : Registered c table) {i : Nat} (hnone : callbackOf table i = none) :
    i ≠ c.putRpcInfo ∧ i ≠ c.executeRpc := by
  constructor
  · rintro rfl
    exact absurd (hnone.symm.trans h.info_eq) (by simp)
  · rintro rfl
    exact absurd (hnone.symm.trans h.exec_eq) (by simp)

theorem own_iff (h : Registered c table) {i : Nat} {callback : SlaveCallback}
    (hsome : callbackOf table i = some callback) :
    c.getRpcRespData < i ↔ i ≠ c.putRpcInfo ∧ i ≠ c.executeRpc := by
  constructor
  · intro hown
    unfold RpcConfig.getRpcRespData at hown
    unfold RpcConfig.putRpcInfo RpcConfig.executeRpc
    omega
  · rintro ⟨hnotInfo, hnotExec⟩
    by_contra hcore
    have hnone := h.core_eq i (Nat.le_of_not_lt hcore) hnotInfo hnotExec
    exact absurd (hnone.symm.trans hsome) (by simp)

theorem dispatch_inBounds_iff (h : Registered c table) {i : Nat} {callback : SlaveCallback}
    (hsome : callbackOf table i = some callback) (block : RpcInfo) :
    (RpcEvent.dispatch i callback block.m2sLength block.s2mLength).InBounds c ↔
      i ≠ c.putRpcInfo ∧ i ≠ c.executeRpc ∧ block.Fits c := by
  have hiff := h.own_iff hsome
  unfold RpcEvent.InBounds RpcInfo.Fits
  dsimp only
  rw [Int.ofNat_lt, hiff, and_assoc]
  constructor
  · rintro ⟨hnotInfo, hnotExec, -, hfits⟩
    exact ⟨hnotInfo, hnotExec, hfits⟩
  · rintro ⟨hnotInfo, hnotExec, hfits⟩
    exact ⟨hnotInfo, hnotExec, h.own_eq i callback (hiff.mpr ⟨hnotInfo, hnotExec⟩) hsome, hfits⟩

end Registered

theorem exec_eq (block : RpcInfo) (table : List TransactionDesc) (i : Nat)
    (hid : block.transactionId.toInt = i) (hlt : i < c.numTotal) :
    slaveRpcExecCallback c block table =
      RpcEvent.index i :: ((callbackOf table i).map
        (fun callback => .dispatch i callback block.m2sLength block.s2mLength)).toList := by
  have hin : (i : Int) < c.numTotal := Int.ofNat_lt.mpr hlt
  unfold slaveRpcExecCallback callbackOf
  dsimp only
  rw [hid, if_pos hin, if_neg (by omega), Int.toNat_natCast]
  cases table[i]?.bind TransactionDesc.slaveCallback with
  | none => rfl
  | some callback => rfl

theorem exec_inBounds_of_lt (block : RpcInfo) (table : List TransactionDesc)
    (h : Registered c table) (i : Nat) (hid : block.transactionId.toInt = i)
    (hlt : i < c.numTotal) :
    (∀ e ∈ slaveRpcExecCallback c block table, e.InBounds c) ↔
      i ≠ c.putRpcInfo ∧ i ≠ c.executeRpc ∧ (callbackOf table i ≠ none → block.Fits c) := by
  have hindex : (RpcEvent.index i).InBounds c := by
    unfold RpcEvent.InBounds
    dsimp only
    omega
  rw [exec_eq c block table i hid hlt, List.forall_mem_cons, and_iff_right hindex]
  cases hcallback : callbackOf table i with
  | none =>
    -- nothing is registered, and nothing is called
    obtain ⟨hnotInfo, hnotExec⟩ := h.ne_of_none hcallback
    exact iff_of_true (List.forall_mem_nil _) ⟨hnotInfo, hnotExec, fun hsome => absurd rfl hsome⟩
  | some callback =>
    rw [Option.map_some, Option.toList_some, List.forall_mem_singleton,
      h.dispatch_inBounds_iff hcallback block]
    simp only [ne_eq, reduceCtorEq, not_false_eq_true, true_implies]

theorem exec_inBounds_iff (block : RpcInfo) (table : List TransactionDesc)
    (h : Registered c table) :
    (∀ e ∈ slaveRpcExecCallback c block table, e.InBounds c) ↔
      (RpcInput.exec block : RpcInput c).Sound table := by
  unfold RpcInput.Sound
  dsimp only
  rcases Int.lt_or_le block.transactionId.toInt 0 with hneg | hnonneg
  · -- an entry before the table
    unfold slaveRpcExecCallback
    dsimp only
    rw [if_pos (by omega), if_pos hneg, List.forall_mem_singleton]
    unfold RpcEvent.InBounds
    dsimp only
    omega
  obtain ⟨i, hid⟩ := Int.eq_ofNat_of_zero_le hnonneg
  by_cases hlt : i < c.numTotal
  · rw [exec_inBounds_of_lt c block table h i hid hlt, hid, Int.toNat_natCast]
    simp only [ne_eq, Int.natCast_inj, Int.natCast_nonneg, true_and]
  · -- nothing is done for a number beyond the table
    have hnone : callbackOf table i = none := by
      unfold callbackOf
      rw [List.getElem?_eq_none (by rw [h.length_eq]; omega)]
      rfl
    have hidle : slaveRpcExecCallback c block table = [] := by
      unfold slaveRpcExecCallback
      dsimp only
      rw [hid, if_neg (by omega)]
    obtain ⟨hnotInfo, hnotExec⟩ := h.ne_of_none hnone
    rw [hidle, hid, Int.toNat_natCast, hnone]
    refine iff_of_true (List.forall_mem_nil _) ⟨Int.natCast_nonneg i, ?_, ?_, ?_⟩
    · exact fun heq => hnotInfo (Int.ofNat_inj.mp heq)
    · exact fun heq => hnotExec (Int.ofNat_inj.mp heq)
    · exact fun hsome => absurd rfl hsome

/-- In a run from the table as it is compiled in, whatever arrives, all that the
    callbacks do is in bounds exactly when every call is one of the sound ones. -/
theorem rpc_in_bounds (inputs : List (RpcInput c)) :
    (∀ events ∈ trace RpcInput.step c.table inputs, ∀ e ∈ events, e.InBounds c) ↔
      Along (next RpcInput.step) RpcInput.Sound c.table inputs := by
  refine forall_trace_iff_along RpcInput.step RpcInput.Sound (Registered c)
    (fun events => ∀ e ∈ events, e.InBounds c) ?_ ?_ inputs c.table (registered_table c)
  · intro table input h _
    cases input with
    | register id name => exact h.register id name
    | info block => exact h.info block
    | exec block => exact h
  · intro table input h
    cases input with
    | register id name =>
      simp [RpcInput.step, RpcInput.Sound]
    | info block => exact info_inBounds_iff c block table
    | exec block => exact exec_inBounds_iff c block table h

def oneOwn : RpcConfig where
  core := List.replicate 2
    { initiator2targetBufferSize := 0
      initiator2targetOffset := 0
      target2initiatorBufferSize := 1
      target2initiatorOffset := 0
      slaveCallback := none }
  own := 1
  m2sBufferSize := 32
  s2mBufferSize := 32
  infoOffset := 8
  m2sOffset := 11
  s2mOffset := 43
  core_callback desc h := by rw [List.eq_of_mem_replicate h]
  total_le := Nat.le_of_ble_eq_true rfl

/-- The number of a transaction, with its highest bit set. -/
theorem rpc_in_bounds_broken :
    ¬ ∀ (c : RpcConfig) (inputs : List (RpcInput c)),
      ∀ events ∈ trace RpcInput.step c.table inputs, ∀ e ∈ events, e.InBounds c := by
  intro h
  have hindex := h oneOwn [.exec { transactionId := 0x86, m2sLength := 1, s2mLength := 1 }]
    [.index (-122)] (List.mem_singleton.mpr (by decide)) _ List.mem_cons_self
  exact absurd hindex.1 (by decide)

theorem transactionRpcExec_sound (connected : Bool) (id : BitVec 8) (m2sSize s2mSize : Byte)
    (table : List TransactionDesc) (block : RpcInfo)
    (h : transactionRpcExec c connected id m2sSize s2mSize = some block) :
    (RpcInput.info block : RpcInput c).Sound table ∧
      (RpcInput.exec block : RpcInput c).Sound table := by
  unfold transactionRpcExec at h
  split at h
  · exact absurd h (by simp)
  split at h
  · exact absurd h (by simp)
  rename_i hid
  split at h
  · exact absurd h (by simp)
  rename_i hm2s
  split at h
  · exact absurd h (by simp)
  rename_i hs2m
  cases h
  -- the master has checked both lengths, and that the number is not of the core
  have hfits : RpcInfo.Fits c { transactionId := id, m2sLength := m2sSize, s2mLength := s2mSize } :=
    ⟨Nat.le_of_not_lt hm2s, Nat.le_of_not_lt hs2m⟩
  unfold RpcConfig.getRpcRespData at hid
  refine ⟨hfits, ?_, ?_, ?_, fun _ => hfits⟩
  · dsimp only
    omega
  · unfold RpcConfig.putRpcInfo
    dsimp only
    omega
  · unfold RpcConfig.executeRpc
    dsimp only
    omega

/-! ### What the master asks for -/

/-- A registration on the slave, or a call of `transaction_rpc_exec` on the master, of whose
    transfers with the number in them the slave gets none, the first or both. -/
inductive RpcCall
  | register (id : Fin c.numTotal) (name : Nat)
  | request (connected : Bool) (id : BitVec 8) (m2sSize s2mSize : Byte) (arrived : Nat)

variable {c} in
def RpcCall.inputs : RpcCall c → List (RpcInput c)
  | .register id name => [.register id name]
  | .request connected id m2sSize s2mSize arrived =>
    match transactionRpcExec c connected id m2sSize s2mSize with
    | some block => [.info block, .exec block].take arrived
    | none => []

theorem step_registered (table : List TransactionDesc) (input : RpcInput c)
    (h : Registered c table) : Registered c (RpcInput.step table input).1 := by
  cases input with
  | register id name => exact h.register id name
  | info block => exact h.info block
  | exec block => exact h

theorem step_inBounds_iff (table : List TransactionDesc) (input : RpcInput c)
    (h : Registered c table) :
    (∀ e ∈ (RpcInput.step table input).2, e.InBounds c) ↔ input.Sound table := by
  cases input with
  | register id name => simp [RpcInput.step, RpcInput.Sound]
  | info block => exact info_inBounds_iff c block table
  | exec block => exact exec_inBounds_iff c block table h

theorem inputs_sound (call : RpcCall c) (table : List TransactionDesc) :
    ∀ input ∈ call.inputs, input.Sound table := by
  intro input hinput
  cases call with
  | register id name =>
    rw [List.mem_singleton.mp hinput]
    trivial
  | request connected id m2sSize s2mSize arrived =>
    unfold RpcCall.inputs at hinput
    dsimp only at hinput
    cases hblock : transactionRpcExec c connected id m2sSize s2mSize with
    | none =>
      rw [hblock] at hinput
      exact absurd hinput List.not_mem_nil
    | some block =>
      rw [hblock] at hinput
      obtain ⟨hinfo, hexec⟩ :=
        transactionRpcExec_sound c connected id m2sSize s2mSize table block hblock
      rcases List.mem_cons.mp (List.mem_of_mem_take hinput) with rfl | hinput
      · exact hinfo
      · rw [List.mem_singleton.mp hinput]
        exact hexec

/-- Whatever the master asks for, and whatever is registered in between, the slave stays in
    bounds. -/
theorem rpc_requests_in_bounds (calls : List (RpcCall c)) :
    ∀ events ∈ trace RpcInput.step c.table (calls.flatMap RpcCall.inputs),
      ∀ e ∈ events, e.InBounds c := by
  refine (forall_trace_iff_along RpcInput.step RpcInput.Sound (Registered c)
    (fun events => ∀ e ∈ events, e.InBounds c)
    (fun table input h _ => step_registered c table input h)
    (fun table input h => step_inBounds_iff c table input h) _ c.table (registered_table c)).mpr
    (along_of_forall _ _ _ (fun table input hinput => ?_) _)
  obtain ⟨call, _, hcall⟩ := List.mem_flatMap.mp hinput
  exact inputs_sound c call table input hcall

/-- A function is registered, and the master asks for it. -/
theorem rpc_requests_in_bounds_own :
    [RpcEvent.index 6, .dispatch 6 (.user 1) 1 1] ∈ trace RpcInput.step oneOwn.table
        (([.register (Fin.last 6) 1, .request true 6 1 1 2] : List (RpcCall oneOwn)).flatMap
          RpcCall.inputs) ∧
      (RpcEvent.dispatch 6 (.user 1) 1 1).InBounds oneOwn := by
  have hmem : [RpcEvent.index 6, .dispatch 6 (.user 1) 1 1] ∈ trace RpcInput.step oneOwn.table
      (([.register (Fin.last 6) 1, .request true 6 1 1 2] : List (RpcCall oneOwn)).flatMap
        RpcCall.inputs) := by
    decide
  exact ⟨hmem, rpc_requests_in_bounds oneOwn _ _ hmem _ (by decide)⟩

end K530
