import K530.Lib.Run
import K530.Platform.ExternalEeprom

/-!
# External EEPROMs Are Byte Arrays

Either driver makes of its device an array of bytes, whatever is read, written and
updated, as long as the lengths of the reads fit into sixteen bits. The SPI
driver needs no more than that the device is seen to be ready in time. The I2C
driver needs besides that no block takes a whole page of 256 bytes, since the loop
that copies a page counts with eight bits and does not come to its end, and that no
block goes beyond what the address bytes tell apart, since the device address of a
block is that of its first byte.

`arrayStep` is the array. A call at a time is `Refines`, and `calls_array` is the run.

## Main definitions

* `EepromCall.InRange`: A call within the device.

## Theorems

* `external_eeprom_array`: Both drivers along a run.
* `external_eeprom_broken`: A page of 256 bytes.
-/

namespace K530

open Paged
open StepRun

/-! ### Locations -/

@[simp] theorem addressBytes_length (n : Nat) : ∀ p, (addressBytes n p).length = n := by
  induction n with
  | zero => intro p; rfl
  | succ n ih => intro p; simp [addressBytes, ih]

theorem locationOf_addressBytes (n : Nat) :
    ∀ p, locationOf (addressBytes n p) = p % 256 ^ n := by
  induction n with
  | zero => intro p; simp [addressBytes, locationOf, Nat.mod_one]
  | succ n ih =>
    intro p
    have hhigh := ih (p >>> 8)
    have hshift : p >>> 8 = p / 256 := Nat.shiftRight_eq_div_pow p 8
    unfold locationOf at hhigh ⊢
    simp only [addressBytes, List.foldl_append, List.foldl_cons, List.foldl_nil, hhigh,
      BitVec.toNat_ofNat]
    rw [pow_succ' 256 n, Nat.mod_mul, hshift]
    omega

/-! ### Calls -/

namespace EepromCall

/-- The block is within the device, and the buffer of an update is as long as it. -/
def InRange (byteCount : Nat) : EepromCall → Prop
  | read addr buf | write buf addr => addr + buf.length ≤ byteCount
  | update buf addr stack => addr + buf.length ≤ byteCount ∧ stack.length = buf.length

/-- What is read has a length of sixteen bits. -/
def Short : EepromCall → Prop
  | read _ buf => buf.length < 2 ^ 16
  | write _ _ => True
  | update buf _ _ => buf.length < 2 ^ 16

end EepromCall

/-- What an array of bytes makes of a call, and what is in the buffer afterwards. -/
def arrayStep (bytes : Nat → Byte) : EepromCall → (Nat → Byte) × List Byte
  | .read addr buf => (bytes, get bytes addr buf.length)
  | .write buf addr => (put bytes addr buf, buf)
  | .update buf addr _ => (put bytes addr buf, buf)

/-- The calls come back, with what an array has in the buffers; the device has what
    the array has; and no write to it crosses a page. -/
def IsArray {σ : Type} (d : EepromDriver σ) (device : σ → Paged.Device Byte) (pageSize : Nat)
    (s : σ) (calls : List EepromCall) : Prop :=
  ∃ fuel s', d.calls fuel s calls = some (trace arrayStep (device s).values calls, s') ∧
    (device s').values = run (next arrayStep) (device s).values calls ∧
    (device s).InPages pageSize (device s')

section Refinement

variable {σ : Type} (d : EepromDriver σ) (device : σ → Paged.Device Byte) (pageSize : Nat)

structure CameToHold (s s' : σ) (bytes : Nat → Byte) : Prop where
  values : (device s').values = bytes
  inPages : (device s).InPages pageSize (device s')

theorem cameToHold_nil (s : σ) (targetAddr : Nat) (readBuf : List Byte)
    (hempty : ¬ 0 < readBuf.length) :
    CameToHold device pageSize s s (put (device s).values targetAddr readBuf) := by
  have hnil := List.eq_nil_of_length_eq_zero (by omega : readBuf.length = 0)
  refine ⟨?_, Paged.Device.InPages.refl pageSize (device s)⟩
  rw [hnil]
  rfl

variable {device} {pageSize}

theorem CameToHold.piece {s s₁ s' : σ} {targetAddr w : Nat} {readBuf : List Byte}
    (hpiece : InPage pageSize (targetAddr, readBuf.take w)) (hle : w ≤ readBuf.length)
    (hsent : device s₁ = (device s).write pageSize targetAddr (readBuf.take w))
    (hrest : CameToHold device pageSize s₁ s'
      (put (device s₁).values (targetAddr + w) (readBuf.drop w))) :
    CameToHold device pageSize s s' (put (device s).values targetAddr readBuf) := by
  constructor
  · rw [hrest.values, hsent, Paged.Device.write_values hpiece]
    have happend := put_append (readBuf.take w) (readBuf.drop w) (device s).values targetAddr
    rw [List.take_append_drop, List.length_take, Nat.min_eq_left hle] at happend
    exact happend.symm
  · have hinPages := hrest.inPages
    rw [hsent] at hinPages
    exact (Paged.Device.inPages_write hpiece (device s)).trans hinPages

variable (device) (pageSize)

variable (I : σ → Prop) (fuel : Nat)

def Refines (s : σ) (i : EepromCall) : Prop :=
  ∃ s', d.call fuel s i = some ((arrayStep (device s).values i).2, s') ∧ I s' ∧
    CameToHold device pageSize s s' (arrayStep (device s).values i).1

theorem update_refines (s : σ) (buf : List Byte) (addr : Nat) (stack : List Byte)
    (hlength : stack.length = buf.length)
    (hread : Refines d device pageSize I fuel s (.read addr stack))
    (hwrite : get (device s).values addr buf.length ≠ buf → ∀ s', I s' →
      Refines d device pageSize I fuel s' (.write buf addr)) :
    Refines d device pageSize I fuel s (.update buf addr stack) := by
  rcases hread with ⟨s', hcall, hs', hholds⟩
  have hvalues : (device s').values = (device s).values := hholds.values
  simp only [EepromDriver.call, arrayStep, hlength] at hcall
  by_cases hsame : get (device s).values addr buf.length = buf
  · refine ⟨s', ?_, hs', ⟨?_, hholds.inPages⟩⟩
    · simp [EepromDriver.call, EepromDriver.updateBlock, hcall, hsame, arrayStep]
    · have hput := put_get buf.length (device s).values addr
      rw [hsame] at hput
      exact hvalues.trans hput.symm
  · rcases hwrite hsame s' hs' with ⟨s'', hcall', hs'', hholds'⟩
    simp only [EepromDriver.call, arrayStep] at hcall'
    refine ⟨s'', ?_, hs'', ⟨?_, hholds.inPages.trans hholds'.inPages⟩⟩
    · simp [EepromDriver.call, EepromDriver.updateBlock, hcall, Ne.symm hsame, arrayStep, hcall']
    · rw [hholds'.values, hvalues]
      rfl

theorem calls_array (C : (Nat → Byte) → EepromCall → Prop)
    (hcall : ∀ s i, I s → C (device s).values i → Refines d device pageSize I fuel s i)
    (calls : List EepromCall) :
    ∀ s, I s → Along (next arrayStep) C (device s).values calls →
      ∃ s', d.calls fuel s calls = some (trace arrayStep (device s).values calls, s') ∧
        CameToHold device pageSize s s' (run (next arrayStep) (device s).values calls) := by
  induction calls with
  | nil =>
    intro s _ _
    exact ⟨s, rfl, ⟨rfl, Paged.Device.InPages.refl pageSize (device s)⟩⟩
  | cons i calls ih =>
    intro s hs hC
    rcases hcall s i hs hC.1 with ⟨s', hone, hs', hholds⟩
    have hvalues : (device s').values = next arrayStep (device s).values i := hholds.values
    rcases ih s' hs' (by rw [hvalues]; exact hC.2) with ⟨s'', hrest, hholds'⟩
    refine ⟨s'', ?_, ⟨?_, hholds.inPages.trans hholds'.inPages⟩⟩
    · simp [EepromDriver.calls, hone, hrest, trace, hvalues, next]
    · rw [hholds'.values, hvalues]
      rfl

end Refinement

/-! ### On the I2C bus -/

namespace I2cEeprom

variable (c : I2cEeprom)

theorem bankOf_i2cAddress (loc : Nat) :
    c.bankOf (c.i2cAddress loc) = loc / c.bankSize % 2 ^ c.bankBits := by
  have hlt : loc / c.bankSize % 2 ^ c.bankBits < 2 ^ 7 :=
    (Nat.mod_lt _ (Nat.two_pow_pos _)).trans_le (Nat.pow_le_pow_right (by decide) c.banks)
  have hshift : loc >>> (8 * c.addressSize) = loc / c.bankSize := by
    rw [Nat.shiftRight_eq_div_pow, pow_mul]
    rfl
  have hfree := c.free
  unfold bankOf i2cAddress
  rw [hshift]
  generalize hbank : loc / c.bankSize % 2 ^ c.bankBits = bank at hlt
  have hmod : bank % 2 ^ c.bankBits = bank := by rw [← hbank, Nat.mod_mod]
  have hvalue : ((BitVec.ofNat 8 bank <<< 1) >>> 1 : BitVec 8).toNat = bank := by
    simp only [BitVec.toNat_ushiftRight, BitVec.toNat_shiftLeft, BitVec.toNat_ofNat,
      Nat.shiftLeft_eq, Nat.shiftRight_eq_div_pow]
    omega
  rw [BitVec.ushiftRight_or_distrib, BitVec.toNat_or, Nat.or_mod_two_pow, hfree, hvalue, hmod,
    Nat.zero_or]

theorem copyPacket_spec (writeLength : Nat) (readBuf : List Byte) (hshort : writeLength ≤ 255)
    (hread : writeLength ≤ readBuf.length) (n : Nat) :
    ∀ (fuel : Nat) (i : Byte) (packet : List Byte), i.toNat + n = writeLength → n < fuel →
      c.addressSize + writeLength ≤ packet.length →
      packet.take (c.addressSize + i.toNat) =
        packet.take c.addressSize ++ readBuf.take i.toNat →
      ∃ packet', c.copyPacket writeLength readBuf fuel i packet = some packet' ∧
        packet'.length = packet.length ∧
        packet'.take (c.addressSize + writeLength) =
          packet.take c.addressSize ++ readBuf.take writeLength := by
  induction n with
  | zero =>
    intro fuel i packet hi hfuel hlength htake
    obtain ⟨fuel, rfl⟩ : ∃ k, fuel = k + 1 := ⟨fuel - 1, by omega⟩
    refine ⟨packet, ?_, rfl, ?_⟩
    · simp only [copyPacket]
      rw [if_neg (by omega)]
    · rw [Nat.add_zero] at hi
      rw [← hi]
      exact htake
  | succ n ih =>
    intro fuel i packet hi hfuel hlength htake
    obtain ⟨fuel, rfl⟩ : ∃ k, fuel = k + 1 := ⟨fuel - 1, by omega⟩
    have hnext : (i + 1).toNat = i.toNat + 1 := by
      rw [BitVec.toNat_add]
      exact Nat.mod_eq_of_lt (by simp; omega)
    have hkept : (packet.set (c.addressSize + i.toNat) (readBuf.getD i.toNat 0)).take
        c.addressSize = packet.take c.addressSize := by
      rw [List.take_set_of_le (by omega)]
    rcases ih fuel (i + 1) (packet.set (c.addressSize + i.toNat) (readBuf.getD i.toNat 0))
      (by omega) (by omega) (by simpa using hlength) (by
        rw [hkept, hnext, ← Nat.add_assoc, List.take_add_one, List.take_set_of_le (by omega),
          htake, List.take_add_one, List.append_assoc]
        congr 2
        rw [List.getElem?_set_self (by omega), List.getD_eq_getElem?_getD,
          List.getElem?_eq_getElem (by omega)]
        rfl) with ⟨packet', hcopy, hlength', htake'⟩
    refine ⟨packet', ?_, by simpa using hlength', by rw [htake', hkept]⟩
    rw [← hcopy]
    simp only [copyPacket]
    rw [if_pos (by omega)]

theorem copyPacket_never (readBuf : List Byte) (fuel : Nat) :
    ∀ (i : Byte) (packet : List Byte), c.copyPacket 256 readBuf fuel i packet = none := by
  induction fuel with
  | zero => intro i packet; rfl
  | succ fuel ih =>
    intro i packet
    simp only [copyPacket]
    rw [if_pos i.isLt]
    exact ih _ _

theorem writeBlock_never (hpage : c.pageSize = 256) (fuel : Nat) (buf : List Byte) (addr : Nat)
    (s : I2cBus) (haddr : addr % 256 = 0) (hlen : 256 ≤ buf.length) :
    c.writeBlock fuel buf addr s = none := by
  have hpiece : pieceLength c.pageSize addr buf.length = 256 := by
    unfold pieceLength
    rw [hpage, haddr, if_neg (by omega)]
  cases fuel with
  | zero => rfl
  | succ fuel =>
    unfold writeBlock writeLoop
    rw [if_pos (by omega)]
    dsimp only
    rw [hpiece, copyPacket_never]
    rfl

/-- The block is in one bank, and no piece of it is a whole page of 256 bytes. -/
structure Writes (addr len : Nat) : Prop where
  bank : ∀ x, addr ≤ x → x < addr + len → x / c.bankSize = addr / c.bankSize
  page : c.pageSize = 256 → ∀ k, addr ≤ 256 * k → addr + len < 256 * k + 256

theorem location_eq (addr : Nat) (hrange : addr < c.byteCount) :
    c.bankOf (c.i2cAddress addr) * c.bankSize + addr % c.bankSize = addr := by
  have hcapacity : addr < c.bankSize * 2 ^ c.bankBits := hrange.trans_le c.capacity
  rw [bankOf_i2cAddress, Nat.mod_eq_of_lt (Nat.div_lt_of_lt_mul hcapacity)]
  exact Nat.div_add_mod' addr c.bankSize

theorem bankOf_congr {addr targetAddr : Nat}
    (hbank : targetAddr / c.bankSize = addr / c.bankSize) :
    c.bankOf (c.i2cAddress addr) = c.bankOf (c.i2cAddress targetAddr) := by
  rw [bankOf_i2cAddress, bankOf_i2cAddress, hbank]

theorem i2cTransmit_write (addr targetAddr len : Nat) (packet values : List Byte) (s : I2cBus)
    (hpacket : packet.take (c.addressSize + len) = addressBytes c.addressSize targetAddr ++ values)
    (hlen : len ≤ c.pageSize) (hvalues : values ≠ [])
    (hbank : targetAddr / c.bankSize = addr / c.bankSize) (hrange : targetAddr < c.byteCount) :
    (c.i2cTransmit (c.i2cAddress addr) packet (c.addressSize + len) s).device =
      s.device.write c.pageSize targetAddr values := by
  have hfits : (c.addressSize + len) % 2 ^ 16 = c.addressSize + len := by
    have := c.packet
    exact Nat.mod_eq_of_lt (by omega)
  have hlocation :
      c.bankOf (c.i2cAddress addr) * c.bankSize + targetAddr % c.bankSize = targetAddr := by
    rw [c.bankOf_congr hbank]
    exact c.location_eq targetAddr hrange
  have htake : (addressBytes c.addressSize targetAddr ++ values).take c.addressSize =
      addressBytes c.addressSize targetAddr := List.take_left' (addressBytes_length _ _)
  have hdrop : (addressBytes c.addressSize targetAddr ++ values).drop c.addressSize = values :=
    List.drop_left' (addressBytes_length _ _)
  unfold i2cTransmit takePacket
  dsimp only
  rw [hfits, hpacket, htake, hdrop, locationOf_addressBytes, if_neg hvalues]
  congr 1

theorem writeLoop_spec (addr fuel : Nat) :
    ∀ (packet readBuf : List Byte) (targetAddr : Nat) (s : I2cBus),
      readBuf.length + 257 < fuel → packet.length = c.addressSize + c.pageSize →
      targetAddr + readBuf.length ≤ c.byteCount →
      (∀ x, targetAddr ≤ x → x < targetAddr + readBuf.length →
        x / c.bankSize = addr / c.bankSize) →
      (c.pageSize = 256 → ∀ k, targetAddr ≤ 256 * k →
        targetAddr + readBuf.length < 256 * k + 256) →
      ∃ s', c.writeLoop addr fuel packet readBuf targetAddr s = some s' ∧
        CameToHold I2cBus.device c.pageSize s s' (put s.device.values targetAddr readBuf) := by
  induction fuel with
  | zero => intro packet readBuf targetAddr s hfuel; omega
  | succ fuel ih =>
    intro packet readBuf targetAddr s hfuel hlength hrange hbank hpage
    unfold writeLoop
    by_cases hpos : 0 < readBuf.length
    · rw [if_pos hpos]
      obtain ⟨w, hw, hpiece, hwpos, hwle, hwpage⟩ :=
        exists_piece c.pageSize_pos targetAddr readBuf hpos
      rw [hw]
      have hwshort : w ≤ 255 := by
        have hsize := c.pageSize_le
        by_contra hlong
        have hwhole := mod_eq_zero_of_pieceLength_eq c.pageSize_pos
          (by omega : pieceLength c.pageSize targetAddr readBuf.length = c.pageSize)
        have h256 : c.pageSize = 256 := by omega
        rw [h256] at hwhole
        have := hpage h256 (targetAddr / 256) (by omega)
        omega
      -- the packet that is sent has the location and the piece
      have hfilled : (c.fillTargetAddress packet targetAddr).length =
          c.addressSize + c.pageSize := by
        simp [fillTargetAddress, hlength]
      have hfill : (c.fillTargetAddress packet targetAddr).take c.addressSize =
          addressBytes c.addressSize targetAddr := List.take_left' (addressBytes_length _ _)
      rcases c.copyPacket_spec w readBuf hwshort hwle w fuel 0
        (c.fillTargetAddress packet targetAddr) (by simp) (by omega) (by omega) (by simp)
        with ⟨packet', hcopy, hlength', htake⟩
      rw [hfill] at htake
      have hsent := c.i2cTransmit_write addr targetAddr w packet' (readBuf.take w) s htake hwpage
        (List.ne_nil_of_length_pos (by rw [List.length_take]; omega))
        (hbank targetAddr (Nat.le_refl _) (by omega)) (by omega)
      -- and the rest of the block is written after it
      rcases ih packet' (readBuf.drop w) (targetAddr + w)
        (c.i2cTransmit (c.i2cAddress addr) packet' (c.addressSize + w) s)
        (by rw [List.length_drop]; omega) (by rw [hlength', hfilled])
        (by rw [List.length_drop]; omega)
        (by rw [List.length_drop]; exact fun x hx hx' => hbank x (by omega) (by omega))
        (by
          rw [List.length_drop]
          intro hsize k hk
          have := hpage hsize k (by omega)
          omega) with ⟨s', hloop, hholds⟩
      refine ⟨s', ?_, hholds.piece hpiece hwle hsent⟩
      dsimp only
      rw [hcopy]
      exact hloop
    · rw [if_neg hpos]
      exact ⟨s, rfl, cameToHold_nil I2cBus.device c.pageSize s targetAddr readBuf hpos⟩

/-- What a call has to be like: what is read is short, and what is written is in one
    bank and has no whole page of 256 bytes. An update writes if there is something
    to change. -/
def Serves (bytes : Nat → Byte) : EepromCall → Prop
  | .read _ buf => buf.length < 2 ^ 16
  | .write buf addr => c.Writes addr buf.length
  | .update buf addr _ =>
    buf.length < 2 ^ 16 ∧ (get bytes addr buf.length ≠ buf → c.Writes addr buf.length)

theorem read_refines (fuel : Nat) (s : I2cBus) (addr : Nat) (buf : List Byte)
    (hrange : addr + buf.length ≤ c.byteCount) (hshort : buf.length < 2 ^ 16) :
    Refines c.driver I2cBus.device c.pageSize (fun _ => True) fuel s (.read addr buf) := by
  have hfits : c.addressSize % 2 ^ 16 = c.addressSize := by
    have := c.packet
    exact Nat.mod_eq_of_lt (by omega)
  have htake : (addressBytes c.addressSize addr).take c.addressSize =
      addressBytes c.addressSize addr := List.take_of_length_le (by simp)
  have hdrop : (addressBytes c.addressSize addr).drop c.addressSize = [] :=
    List.drop_of_length_le (by simp)
  have hsent : c.i2cTransmit (c.i2cAddress addr) (addressBytes c.addressSize addr) c.addressSize s =
      { device := s.device
        pointer := c.bankOf (c.i2cAddress addr) * c.bankSize + addr % c.bankSize } := by
    unfold i2cTransmit takePacket
    dsimp only
    rw [hfits, htake, htake, hdrop, if_pos rfl, locationOf_addressBytes]
    rfl
  have hread : (c.readBlock addr buf s).1 = get s.device.values addr buf.length := by
    simp only [readBlock, i2cReceive, hsent, Nat.mod_eq_of_lt hshort, List.drop_length,
      List.append_nil]
    rcases Nat.eq_zero_or_pos buf.length with hnil | hpos
    · rw [hnil]
      rfl
    · rw [c.location_eq addr (by omega)]
  have hdevice : (c.readBlock addr buf s).2.device = s.device := by
    simp only [readBlock, hsent]
  refine ⟨(c.readBlock addr buf s).2, ?_, trivial, ?_, ?_⟩
  · simp only [EepromDriver.call, driver, arrayStep, ← hread]
  · rw [hdevice]
    rfl
  · rw [hdevice]
    exact Paged.Device.InPages.refl c.pageSize s.device

theorem write_refines (fuel : Nat) (s : I2cBus) (addr : Nat) (buf : List Byte)
    (hfuel : buf.length + 257 < fuel) (hrange : addr + buf.length ≤ c.byteCount)
    (h : c.Writes addr buf.length) :
    Refines c.driver I2cBus.device c.pageSize (fun _ => True) fuel s (.write buf addr) := by
  rcases c.writeLoop_spec addr fuel (List.replicate (c.addressSize + c.pageSize) 0) buf addr s
    hfuel (by simp) hrange h.bank h.page with ⟨s', hloop, hholds⟩
  have hwrite : c.driver.writeBlock fuel buf addr s = some s' := hloop
  refine ⟨s', ?_, trivial, hholds⟩
  simp [EepromDriver.call, hwrite, arrayStep]

theorem call_refines (fuel : Nat) (hfuel : c.byteCount + 257 < fuel) (s : I2cBus) (i : EepromCall)
    (hrange : i.InRange c.byteCount) (h : c.Serves s.device.values i) :
    Refines c.driver I2cBus.device c.pageSize (fun _ => True) fuel s i := by
  cases i with
  | read addr buf => exact c.read_refines fuel s addr buf hrange h
  | write buf addr =>
    have hlen : addr + buf.length ≤ c.byteCount := hrange
    exact c.write_refines fuel s addr buf (by omega) hlen h
  | update buf addr stack =>
    have hlen : addr + buf.length ≤ c.byteCount := hrange.1
    refine update_refines c.driver I2cBus.device c.pageSize _ fuel s buf addr stack hrange.2
      (c.read_refines fuel s addr stack (by rw [hrange.2]; exact hlen) ?_)
      (fun hdiffers s' _ => ?_)
    · rw [hrange.2]
      exact h.1
    · exact c.write_refines fuel s' addr buf (by omega) hlen (h.2 hdiffers)

end I2cEeprom

/-! ### On the SPI bus -/

/-- The device is seen to be ready before the deadline. -/
def AnswersInTime (deadline : BitVec 32) : List SpiPoll → Prop
  | [] => False
  | p :: ps => p.now < deadline ∧ (p.busy = true → AnswersInTime deadline ps)

/-- Every frame starts, and every wait is answered before the deadline that the driver
    sets. -/
structure SpiBus.Ready (s : SpiBus) : Prop where
  starts : ∀ n, s.starts n = true
  waits : ∀ n, AnswersInTime ((s.waits n).now + SpiEeprom.timeoutMs) (s.waits n).polls

namespace SpiEeprom

theorem pollWhileBusy_answered (deadline : BitVec 32) (polls : List SpiPoll)
    (h : AnswersInTime deadline polls) : pollWhileBusy deadline polls = some .success := by
  induction polls with
  | nil => exact h.elim
  | cons p ps ih =>
    unfold pollWhileBusy
    rw [if_neg (BitVec.not_le.mpr h.1)]
    split
    · rename_i hbusy
      exact ih (h.2 hbusy)
    · rfl

theorem awaitReady_spec (s : SpiBus) (hs : s.Ready) :
    ∃ s', awaitReady s = some (true, s') ∧ s'.Ready ∧ s'.device = s.device := by
  have hpoll := pollWhileBusy_answered _ _ (hs.waits 0)
  refine ⟨{ s with starts := fun n => s.starts (n + 1), waits := fun n => s.waits (n + 1) }, ?_,
    ⟨fun n => hs.starts (n + 1), fun n => hs.waits (n + 1)⟩, rfl⟩
  simp [awaitReady, start, hs.starts 0, waitWhileBusy, hpoll]

variable (c : SpiEeprom)

theorem frame_ready (sent : List Byte) (s : SpiBus) (hs : s.Ready) : (c.frame sent s).Ready := by
  unfold frame
  cases sent with
  | nil => exact hs
  | cons command sent =>
    dsimp only
    split
    · exact ⟨hs.starts, hs.waits⟩
    · split
      · exact ⟨hs.starts, hs.waits⟩
      · split
        · exact ⟨hs.starts, hs.waits⟩
        · exact hs

theorem start_ready (s : SpiBus) (hs : s.Ready) : (start s).2.Ready :=
  ⟨fun n => hs.starts (n + 1), hs.waits⟩

theorem command_eq (sent : List Byte) (s : SpiBus) (hs : s.Ready) :
    c.command sent s = (true, c.frame sent (start s).2) := by
  simp [command, start, hs.starts 0]

theorem command_write (s : SpiBus) (hs : s.Ready) (targetAddr : Nat) (values : List Byte)
    (hrange : targetAddr < c.byteCount) :
    ∃ s', c.command (cmdWrite :: (addressBytes c.addressSize targetAddr ++ values))
        (c.command [cmdWren] s).2 = (true, s') ∧ (c.command [cmdWren] s).1 ∧ s'.Ready ∧
      s'.device = s.device.write c.pageSize targetAddr values := by
  have hlocation : targetAddr % 256 ^ c.addressSize = targetAddr :=
    Nat.mod_eq_of_lt (hrange.trans_le c.capacity)
  have htake : (addressBytes c.addressSize targetAddr ++ values).take c.addressSize =
      addressBytes c.addressSize targetAddr := List.take_left' (addressBytes_length _ _)
  have hdrop : (addressBytes c.addressSize targetAddr ++ values).drop c.addressSize = values :=
    List.drop_left' (addressBytes_length _ _)
  have henabled := c.frame_ready [cmdWren] _ (start_ready s hs)
  rw [c.command_eq [cmdWren] s hs, c.command_eq _ _ henabled]
  refine ⟨_, rfl, rfl, c.frame_ready _ _ (start_ready _ henabled), ?_⟩
  simp only [frame, start, cmdWren, cmdWrdi, cmdWrite, htake, hdrop, locationOf_addressBytes,
    hlocation]
  rfl

theorem writeLoop_spec (fuel : Nat) :
    ∀ (readBuf : List Byte) (targetAddr : Nat) (s : SpiBus), s.Ready →
      readBuf.length < fuel → targetAddr + readBuf.length ≤ c.byteCount →
      ∃ s', c.writeLoop fuel readBuf targetAddr s = some (true, s') ∧ s'.Ready ∧
        CameToHold SpiBus.device c.pageSize s s' (put s.device.values targetAddr readBuf) := by
  induction fuel with
  | zero => intro readBuf targetAddr s _ hfuel; omega
  | succ fuel ih =>
    intro readBuf targetAddr s hs hfuel hrange
    unfold writeLoop
    by_cases hpos : 0 < readBuf.length
    · rw [if_pos hpos]
      obtain ⟨w, hw, hpiece, hwpos, hwle, hwpage⟩ :=
        exists_piece c.pageSize_pos targetAddr readBuf hpos
      rw [hw]
      have hfits : w % 2 ^ 16 = w := by
        have := c.packet
        exact Nat.mod_eq_of_lt (by omega)
      rcases awaitReady_spec s hs with ⟨s₁, hwait, hs₁, hdevice₁⟩
      rcases c.command_write s₁ hs₁ targetAddr (readBuf.take w) (by omega)
        with ⟨s₂, hwrite, henable, hs₂, hdevice₂⟩
      rcases ih (readBuf.drop w) (targetAddr + w) s₂ hs₂ (by rw [List.length_drop]; omega)
        (by rw [List.length_drop]; omega) with ⟨s', hloop, hs', hholds⟩
      rw [hdevice₁] at hdevice₂
      refine ⟨s', ?_, hs', hholds.piece hpiece hwle hdevice₂⟩
      simp only [hwait, Option.bind_eq_bind, Option.bind_some, if_true, henable, hfits, hwrite]
      exact hloop
    · rw [if_neg hpos]
      exact ⟨s, rfl, hs, cameToHold_nil SpiBus.device c.pageSize s targetAddr readBuf hpos⟩

theorem read_refines (fuel : Nat) (s : SpiBus) (addr : Nat) (buf : List Byte) (hs : s.Ready)
    (hrange : addr + buf.length ≤ c.byteCount) (hshort : buf.length < 2 ^ 16) :
    Refines c.driver SpiBus.device c.pageSize SpiBus.Ready fuel s (.read addr buf) := by
  rcases awaitReady_spec s hs with ⟨s', hwait, hs', hdevice⟩
  refine ⟨(start s').2, ?_, start_ready s' hs', ?_, ?_⟩
  · simp only [EepromDriver.call, driver, readBlock, hwait, arrayStep, spiReceive,
      Nat.mod_eq_of_lt hshort, List.drop_length, List.append_nil, locationOf_addressBytes]
    simp [start, hs'.starts 0, hdevice]
    rcases Nat.eq_zero_or_pos buf.length with hnil | hpos
    · rw [hnil]
      rfl
    · rw [Nat.mod_eq_of_lt ((by omega : addr < c.byteCount).trans_le c.capacity)]
  · simp [start, hdevice, arrayStep]
  · simp only [start, hdevice]
    exact Paged.Device.InPages.refl c.pageSize s.device

theorem write_refines (fuel : Nat) (s : SpiBus) (addr : Nat) (buf : List Byte) (hs : s.Ready)
    (hfuel : buf.length < fuel) (hrange : addr + buf.length ≤ c.byteCount) :
    Refines c.driver SpiBus.device c.pageSize SpiBus.Ready fuel s (.write buf addr) := by
  rcases c.writeLoop_spec fuel buf addr s hs hfuel hrange with ⟨s', hloop, hs', hholds⟩
  have hwrite : c.driver.writeBlock fuel buf addr s =
      some (c.frame [cmdWrdi] (start s').2) := by
    simp [driver, writeBlock, hloop, c.command_eq [cmdWrdi] s' hs']
  have hdevice : (c.frame [cmdWrdi] (start s').2).device = s'.device := rfl
  refine ⟨c.frame [cmdWrdi] (start s').2, ?_, c.frame_ready _ _ (start_ready s' hs'), ?_, ?_⟩
  · simp [EepromDriver.call, hwrite, arrayStep]
  · rw [hdevice]
    exact hholds.values
  · rw [hdevice]
    exact hholds.inPages

theorem call_refines (fuel : Nat) (hfuel : c.byteCount < fuel) (s : SpiBus) (i : EepromCall)
    (hs : s.Ready) (hrange : i.InRange c.byteCount) (h : i.Short) :
    Refines c.driver SpiBus.device c.pageSize SpiBus.Ready fuel s i := by
  cases i with
  | read addr buf => exact c.read_refines fuel s addr buf hs hrange h
  | write buf addr =>
    have hlen : addr + buf.length ≤ c.byteCount := hrange
    exact c.write_refines fuel s addr buf hs (by omega) hlen
  | update buf addr stack =>
    have hlen : addr + buf.length ≤ c.byteCount := hrange.1
    refine update_refines c.driver SpiBus.device c.pageSize _ fuel s buf addr stack hrange.2
      (c.read_refines fuel s addr stack hs (by rw [hrange.2]; exact hlen) ?_) (fun _ s' hs' => ?_)
    · rw [hrange.2]
      exact h
    · exact c.write_refines fuel s' addr buf hs' (by omega) hlen

end SpiEeprom

/-! ### Both -/

/-- Whatever is read, written and updated, each driver and its device are an array of
    bytes, as long as the bus is ready and the calls are of the kind the driver
    serves. -/
theorem external_eeprom_array (calls : List EepromCall) :
    (∀ (c : I2cEeprom) (s : I2cBus), (∀ i ∈ calls, i.InRange c.byteCount) →
      Along (next arrayStep) c.Serves s.device.values calls →
      IsArray c.driver I2cBus.device c.pageSize s calls) ∧
    (∀ (c : SpiEeprom) (s : SpiBus), (∀ i ∈ calls, i.InRange c.byteCount) → s.Ready →
      (∀ i ∈ calls, i.Short) → IsArray c.driver SpiBus.device c.pageSize s calls) := by
  constructor
  · intro c s hrange hserves
    have hboth := (along_and (next arrayStep) (fun _ i => i.InRange c.byteCount) c.Serves calls
      s.device.values).mpr ⟨along_of_forall _ _ calls (fun _ i hi => hrange i hi) _, hserves⟩
    rcases calls_array c.driver I2cBus.device c.pageSize (fun _ => True) (c.byteCount + 258)
      (fun bytes i => i.InRange c.byteCount ∧ c.Serves bytes i)
      (fun s i _ hi => c.call_refines _ (by omega) s i hi.1 hi.2) calls s trivial hboth
      with ⟨s', hcalls, hholds⟩
    exact ⟨_, s', hcalls, hholds.values, hholds.inPages⟩
  · intro c s hrange hready hshort
    rcases calls_array c.driver SpiBus.device c.pageSize SpiBus.Ready (c.byteCount + 1)
      (fun _ i => i.InRange c.byteCount ∧ i.Short)
      (fun s i hs hi => c.call_refines _ (by omega) s i hs hi.1 hi.2) calls s hready
      (along_of_forall _ _ calls (fun _ i hi => ⟨hrange i hi, hshort i hi⟩) _)
      with ⟨s', hcalls, hholds⟩
    exact ⟨_, s', hcalls, hholds.values, hholds.inPages⟩

/-- 256 KiB in pages of 256 bytes, with two bits of the location in the device
    address. -/
def twoMegabit : I2cEeprom where
  byteCount := 262144
  pageSize := 256
  addressSize := 2
  page := ⟨8, by decide, rfl⟩
  packet := by decide
  baseAddress := 0b10100000
  bankBits := 2
  banks := by decide
  free := by decide
  capacity := by decide

/-- 32 KiB in pages of 64 bytes. -/
def spi256 : SpiEeprom where
  byteCount := 32768
  pageSize := 64
  addressSize := 2
  page := ⟨6, by decide, rfl⟩
  packet := by decide
  capacity := by decide

/-- A device with nothing on it. -/
def blankBus : I2cBus := { device := { values := fun _ => 0, issued := [] }, pointer := 0 }

/-- Another, that is ready when it is first looked at. -/
def readyBus : SpiBus :=
  { device := { values := fun _ => 0, issued := [] }, writeEnabled := false,
    starts := fun _ => true
    waits := fun _ => { now := 0, polls := [{ busy := false, now := 0 }] } }

/-- Four bytes across the end of a page, written and read again on both. -/
theorem external_eeprom_array_across :
    IsArray twoMegabit.driver I2cBus.device 256 blankBus
        [.write [1, 2, 3, 4] 254, .read 254 [0, 0, 0, 0]] ∧
      IsArray spi256.driver SpiBus.device 64 readyBus
        [.write [1, 2, 3, 4] 62, .read 62 [0, 0, 0, 0]] := by
  constructor
  · refine (external_eeprom_array _).1 twoMegabit blankBus ?_ ⟨⟨?_, ?_⟩, ?_, trivial⟩
    · simp [EepromCall.InRange, twoMegabit]
    · intro x hx hx'
      simp [I2cEeprom.bankSize, twoMegabit] at hx' ⊢
      omega
    · intro _ k hk
      simp at hk ⊢
      omega
    · simp [I2cEeprom.Serves]
  · refine (external_eeprom_array _).2 spi256 readyBus ?_ ⟨fun _ => rfl, fun _ => ?_⟩ ?_
    · simp [EepromCall.InRange, spi256]
    · exact ⟨(by decide : (0 : BitVec 32) < 100), fun h => absurd h Bool.false_ne_true⟩
    · simp [EepromCall.Short]

/-- A block with a whole page of 256 bytes is not written: the loop that copies the
    page does not come to its end. -/
theorem external_eeprom_broken :
    ¬ ∀ (c : I2cEeprom) (s : I2cBus) (calls : List EepromCall),
      (∀ i ∈ calls, i.InRange c.byteCount) →
      IsArray c.driver I2cBus.device c.pageSize s calls := by
  intro h
  obtain ⟨buf, hbuf⟩ : ∃ buf : List Byte, buf.length = 256 :=
    ⟨List.replicate 256 1, List.length_replicate⟩
  have hrange : ∀ i ∈ [EepromCall.write buf 0], i.InRange twoMegabit.byteCount := by
    simp [EepromCall.InRange, twoMegabit, hbuf]
  rcases h twoMegabit blankBus _ hrange with ⟨fuel, s', hcalls, -⟩
  have hnever : twoMegabit.driver.writeBlock fuel buf 0 blankBus = none :=
    twoMegabit.writeBlock_never rfl fuel buf 0 blankBus rfl hbuf.ge
  simp [EepromDriver.calls, EepromDriver.call, hnever] at hcalls

/-- The device address is that of the first byte: the second byte of a block that goes
    on in the next bank is written to the beginning of the bank it comes from. -/
example : (twoMegabit.driver.writeBlock 300 [1, 2] 65535 blankBus).map
    (fun s => s.device.issued) = some [(65535, [1]), (0, [2])] := by decide +kernel

end K530
