import K530.Lib.Run
import K530.Quantum.Encoder
import Mathlib.Data.Int.ModEq
import Mathlib.Tactic.IntervalCases

/-!
# No Detent Is Lost

The turns of an encoder are what its callbacks say: as many detents as there were
callbacks one way and not the other. Multiplied by the pulses of a detent, and
with the pulses that are left over, they are all the pulses there have been. It
is so because a reading has one pulse at most, and fewer pulses than a detent has
are left over: the detent is complete when the remainder is zero, whichever way
it was gone through and wherever it was turned back.

The value counts the turns in a byte. It comes round, and what it has come round
is told by taking each change for what it is, by one up or by one down.

What the other hand reports is caught up with in the shorter way round.

## Main definitions

* `netTurns`: The callbacks one way without those the other way.

## Theorems

* `Encoders.encoderRead_knob`: Each encoder is read for itself.
* `encoder_conserves`: Both.
-/

namespace K530

open StepRun

/-- One up for a callback one way, one down for the other. -/
def Rotation.sign : Rotation → Int
  | .counterClockwise => 1
  | .clockwise => -1

/-- The callbacks one way without those the other way. -/
def netTurns (calls : List Rotation) : Int := (calls.map Rotation.sign).sum

theorem netTurns_append (calls more : List Rotation) :
    netTurns (calls ++ more) = netTurns calls + netTurns more := by
  simp only [netTurns, List.map_append, List.sum_append]

/-- What the table has for two readings. -/
def pulse (before after : Pads) : Int :=
  (encoderLut.getD ((before.bits <<< 2) ||| after.bits).toNat 0).toInt

/-- The pulses of readings after a first one. -/
def pulseSum : Pads → List Pads → Int
  | _, [] => 0
  | before, after :: rest => pulse before after + pulseSum after rest

/-- How far one value is from another, in the shorter way round. -/
def shortestWay (a b : Byte) : Nat := min (b - a).toNat (a - b).toNat

theorem pulse_cases (before after : Pads) :
    pulse before after = 0 ∨ pulse before after = 1 ∨ pulse before after = -1 := by
  rcases before with ⟨_ | _, _ | _⟩ <;> rcases after with ⟨_ | _, _ | _⟩ <;> decide

theorem Pads.bits_and (p : Pads) :
    p.bits &&& (0xF : Byte) = p.bits ∧ p.bits &&& (0x3 : Byte) = p.bits := by
  rcases p with ⟨_ | _, _ | _⟩ <;> decide

theorem shiftLeft_two_and (state : Byte) :
    (state <<< 2) &&& (0xF : Byte) = (state &&& (0x3 : Byte)) <<< 2 ∧
      (state <<< 2) &&& (0x3 : Byte) = 0 := by
  constructor <;> ext i hi <;> interval_cases i <;> simp

theorem state_and (state : Byte) (before after : Pads) (h : state &&& (0x3 : Byte) = before.bits) :
    ((state <<< 2) ||| after.bits) &&& (0xF : Byte) = (before.bits <<< 2) ||| after.bits ∧
      ((state <<< 2) ||| after.bits) &&& (0x3 : Byte) = after.bits := by
  rw [BitVec.and_or_distrib_right, BitVec.and_or_distrib_right, (shiftLeft_two_and state).1,
    (shiftLeft_two_and state).2, after.bits_and.1, after.bits_and.2, h]
  exact ⟨rfl, BitVec.zero_or⟩

namespace Encoders

variable {c : EncoderConfig}

/-- The callbacks about an index. -/
def rotations (index : Fin (c.count + c.count)) (e : Encoders c) : List Rotation :=
  (e.calls.filter (fun call => call.1 = index)).map Prod.snd

structure Knob where
  state : Byte
  pulses : BitVec 8
  value : Byte
  calls : List Rotation

def knob (i : Fin c.count) (e : Encoders c) : Knob where
  state := e.state i
  pulses := e.pulses i
  value := e.value (c.here i)
  calls := e.rotations (c.here i)

namespace Knob

def read (resolution : Byte) (defaultPos : Option Byte) (pads : Pads) (k : Knob) : Knob :=
  let state := (k.state <<< 2) ||| pads.bits
  let pulses := k.pulses + encoderLut.getD (state &&& 0xF).toNat 0
  let above := decide ((resolution.toNat : Int) ≤ pulses.toInt)
  let below := decide (pulses.toInt ≤ -resolution.toNat)
  let left := BitVec.ofInt 8 (pulses.toInt.tmod resolution.toNat)
  let raised := if above then k.value + 1 else k.value
  { state, pulses := if defaultPos = some (state &&& 0x3) then 0 else left,
    value := if below then raised - 1 else raised,
    calls := k.calls ++ (if above then [.counterClockwise] else []) ++
      (if below then [.clockwise] else []) }

end Knob

theorem here_injective {i j : Fin c.count} (h : c.here i = c.here j) : i = j := by
  unfold EncoderConfig.here at h
  split at h
  · exact Fin.castAdd_injective _ _ h
  · exact Fin.natAdd_injective _ _ h

theorem there_injective {i j : Fin c.count} (h : c.there i = c.there j) : i = j := by
  unfold EncoderConfig.there at h
  split at h
  · exact Fin.natAdd_injective _ _ h
  · exact Fin.castAdd_injective _ _ h

variable (index : Fin (c.count + c.count)) (r : Rotation)

@[simp] theorem move_state (e : Encoders c) : (e.move index r).state = e.state := rfl

@[simp] theorem move_pulses (e : Encoders c) : (e.move index r).pulses = e.pulses := rfl

theorem move_value_self (e : Encoders c) :
    (e.move index r).value index = e.value index + BitVec.ofInt 8 r.sign := by
  cases r with
  | clockwise => exact (Function.update_self ..).trans (sub_eq_add_neg _ _)
  | counterClockwise => exact Function.update_self ..

theorem move_value_other {index other : Fin (c.count + c.count)} (h : other ≠ index) (r : Rotation)
    (e : Encoders c) : (e.move index r).value other = e.value other :=
  Function.update_of_ne h ..

theorem move_rotations_self (e : Encoders c) :
    (e.move index r).rotations index = e.rotations index ++ [r] := by
  simp [rotations, move]

theorem move_rotations_other {index other : Fin (c.count + c.count)} (h : other ≠ index)
    (r : Rotation) (e : Encoders c) : (e.move index r).rotations other = e.rotations other := by
  simp [rotations, move, h.symm]

variable (pads : Fin c.count → Pads)

theorem readOne_self (s : Bool × Encoders c) (i : Fin c.count) :
    (readOne pads s i).2.knob i = (s.2.knob i).read (c.resolution i) c.defaultPos (pads i) := by
  unfold readOne encoderUpdate Knob.read knob
  dsimp only
  -- the two comparisons go either way, and with a resolution of zero both hold
  generalize decide (((c.resolution i).toNat : Int) ≤ _) = above
  generalize decide (_ ≤ -((c.resolution i).toNat : Int)) = below
  cases above <;> cases below <;> simp [move, rotations]

theorem readOne_other (s : Bool × Encoders c) (i j : Fin c.count) (h : j ≠ i) :
    (readOne pads s i).2.knob j = s.2.knob j := by
  have hindex : c.here j ≠ c.here i := fun heq => h (here_injective heq)
  unfold readOne encoderUpdate knob
  dsimp only
  generalize decide (((c.resolution i).toNat : Int) ≤ _) = above
  generalize decide (_ ≤ -((c.resolution i).toNat : Int)) = below
  cases above <;> cases below <;>
    simp [move, rotations, Function.update_of_ne, h, hindex, hindex.symm]

theorem encoderRead_knob (e : Encoders c) (i : Fin c.count) :
    (e.encoderRead pads).2.knob i = (e.knob i).read (c.resolution i) c.defaultPos (pads i) :=
  run_separate (readOne pads) (fun s i => s.2.knob i)
    (fun s a b h => readOne_other pads s a b h)
    (fun i k => k.read (c.resolution i) c.defaultPos (pads i)) (readOne_self pads)
    (List.finRange c.count) (List.nodup_finRange c.count) i (List.mem_finRange i) (false, e)

/-! ### Pulses and turns -/

/-- The pulses of the readings so far are those of the turns and those left
    over, which are fewer than a detent has. -/
structure Knob.Counts (resolution : Byte) (k : Knob) (last : Pads) (total : Int) : Prop where
  last : k.state &&& 0x3 = last.bits
  total : netTurns k.calls * resolution.toNat + k.pulses.toInt = total
  small : -resolution.toNat < k.pulses.toInt ∧ k.pulses.toInt < resolution.toNat
  value : k.value = BitVec.ofInt 8 (netTurns k.calls)

theorem toInt_add_pulse (pulses : BitVec 8) (before after : Pads) (resolution : Nat)
    (hsmall : -resolution < pulses.toInt ∧ pulses.toInt < resolution) (hle : resolution ≤ 127) :
    (pulses + encoderLut.getD ((before.bits <<< 2) ||| after.bits).toNat 0).toInt =
      pulses.toInt + pulse before after := by
  have hpulse := pulse_cases before after
  rw [BitVec.toInt_add]
  refine Int.bmod_eq_of_le ?_ ?_
  · change _ ≤ pulses.toInt + pulse before after
    omega
  · change pulses.toInt + pulse before after < _
    omega

theorem toInt_left (pulses resolution : Int) (hle : resolution ≤ 127) (hpos : 0 < resolution)
    (hrange : -resolution ≤ pulses ∧ pulses ≤ resolution) :
    (BitVec.ofInt 8 (pulses.tmod resolution)).toInt =
      if pulses = resolution ∨ pulses = -resolution then 0 else pulses := by
  rw [BitVec.toInt_ofInt]
  split
  next hfull =>
    -- a detent that is complete leaves no remainder, whichever way it went
    have hzero : pulses.tmod resolution = 0 := by
      rcases hfull with rfl | rfl
      · exact Int.tmod_self
      · rw [Int.neg_tmod, Int.tmod_self, Int.neg_zero]
    rw [hzero]
    rfl
  next hpart =>
    -- with fewer pulses the remainder is what there was, with its sign
    have hsame : pulses.tmod resolution = pulses := by
      rcases Int.lt_or_le pulses 0 with hneg | hnonneg
      · rw [← Int.neg_neg pulses, Int.neg_tmod, Int.tmod_eq_of_lt (by omega) (by omega)]
      · exact Int.tmod_eq_of_lt hnonneg (by omega)
    rw [hsame]
    exact Int.bmod_eq_of_le (by omega) (by omega)

def completed (resolution sum : Int) : List Rotation :=
  if sum = resolution then [.counterClockwise]
  else if sum = -resolution then [.clockwise]
  else []

theorem completed_cases (resolution sum : Int) :
    (completed resolution sum = [] ∧ sum ≠ resolution ∧ sum ≠ -resolution) ∨
      completed resolution sum = [.counterClockwise] ∧ sum = resolution ∨
      completed resolution sum = [.clockwise] ∧ sum ≠ resolution ∧ sum = -resolution := by
  unfold completed
  by_cases hup : sum = resolution
  · rw [if_pos hup]
    exact Or.inr (Or.inl ⟨rfl, hup⟩)
  · rw [if_neg hup]
    by_cases hdown : sum = -resolution
    · rw [if_pos hdown]
      exact Or.inr (Or.inr ⟨rfl, hup, hdown⟩)
    · rw [if_neg hdown]
      exact Or.inl ⟨rfl, hup, hdown⟩

theorem Knob.Counts.read_eq {resolution : Byte} {k : Knob} {last : Pads} {total : Int}
    (h : k.Counts resolution last total) (pads : Pads) (hpos : 1 ≤ resolution.toNat)
    (hle : resolution.toNat ≤ 127) :
    (k.read resolution none pads).state &&& (0x3 : Byte) = pads.bits ∧
      (k.read resolution none pads).pulses.toInt =
        (if completed resolution.toNat (k.pulses.toInt + pulse last pads) = [] then
          k.pulses.toInt + pulse last pads else 0) ∧
      (k.read resolution none pads).value = k.value + BitVec.ofInt 8
        (netTurns (completed resolution.toNat (k.pulses.toInt + pulse last pads))) ∧
      (k.read resolution none pads).calls =
        k.calls ++ completed resolution.toNat (k.pulses.toInt + pulse last pads) := by
  have hstate := state_and k.state last pads h.last
  have hsum := toInt_add_pulse k.pulses last pads resolution.toNat h.small hle
  have hpulse := pulse_cases last pads
  have hsmall := h.small
  have hrange : -(resolution.toNat : Int) ≤ k.pulses.toInt + pulse last pads ∧
      k.pulses.toInt + pulse last pads ≤ resolution.toNat := by omega
  have hleft := toInt_left _ resolution.toNat (by omega) (by omega) hrange
  unfold Knob.read
  dsimp only
  rw [hstate.1, hsum]
  refine ⟨hstate.2, ?_⟩
  generalize k.pulses.toInt + pulse last pads = sum at *
  have hneg : ∀ value : Byte, value - 1#8 = value + 255#8 := fun value => sub_eq_add_neg value 1
  rcases completed_cases resolution.toNat sum with ⟨hturn, hup, hdown⟩ | ⟨hturn, rfl⟩ |
    ⟨hturn, hup, rfl⟩
  · -- the pulses are too few either way
    have habove : ¬ (resolution.toNat : Int) ≤ sum := by omega
    have hbelow : ¬ sum ≤ -resolution.toNat := by omega
    simp [hturn, hleft, habove, hbelow, netTurns, hup, hdown]
  · have hbelow : ¬ (resolution.toNat : Int) ≤ -resolution.toNat := by omega
    simp [hturn, hbelow, netTurns, Rotation.sign]
  · have habove : ¬ (resolution.toNat : Int) ≤ -resolution.toNat := by omega
    simp [hturn, habove, netTurns, Rotation.sign, hneg]

theorem completed_spec (resolution sum : Int) (hpos : 1 ≤ resolution)
    (hrange : -resolution ≤ sum ∧ sum ≤ resolution) :
    let left := if completed resolution sum = [] then sum else 0
    netTurns (completed resolution sum) * resolution + left = sum ∧
      (-resolution < left ∧ left < resolution) ∧
      (BitVec.ofInt 8 (netTurns (completed resolution sum))).toInt =
        netTurns (completed resolution sum) := by
  rcases completed_cases resolution sum with ⟨hturn, hup, hdown⟩ | ⟨hturn, hup⟩ | ⟨hturn, _, hdown⟩
  · rw [hturn, if_pos rfl, show netTurns [] = 0 from rfl]
    exact ⟨by omega, by omega, rfl⟩
  · rw [hturn, if_neg (List.cons_ne_nil _ _), show netTurns [.counterClockwise] = 1 from rfl]
    exact ⟨by omega, by omega, rfl⟩
  · rw [hturn, if_neg (List.cons_ne_nil _ _), show netTurns [.clockwise] = -1 from rfl]
    exact ⟨by omega, by omega, rfl⟩

theorem Knob.Counts.read {resolution : Byte} {k : Knob} {last : Pads} {total : Int}
    (h : k.Counts resolution last total) (pads : Pads) (hpos : 1 ≤ resolution.toNat)
    (hle : resolution.toNat ≤ 127) :
    (k.read resolution none pads).Counts resolution pads (total + pulse last pads) ∧
      ((k.read resolution none pads).value - k.value).toInt =
        netTurns (k.read resolution none pads).calls - netTurns k.calls := by
  rcases h.read_eq pads hpos hle with ⟨hstate, hpulses, hvalue, hcalls⟩
  have hpulse := pulse_cases last pads
  have hsmall := h.small
  rcases completed_spec resolution.toNat (k.pulses.toInt + pulse last pads) (by omega) (by omega)
    with ⟨hsum, hleft, hone⟩
  have hnet := congrArg netTurns hcalls
  rw [netTurns_append] at hnet
  constructor
  · refine ⟨hstate, ?_, by rw [hpulses]; exact hleft, ?_⟩
    · -- the turn and what is left over are the pulse and what was left over before
      rw [hnet, hpulses, add_mul, add_assoc, hsum, ← add_assoc, h.total]
    · rw [hvalue, hnet, h.value, BitVec.ofInt_add]
  · rw [hvalue, add_sub_cancel_left, hnet, add_sub_cancel_left]
    exact hone

/-- The state after readings. -/
def afterReadings : Encoders c → List (Fin c.count → Pads) → Encoders c :=
  run (fun e pads => (e.encoderRead pads).2)

/-- How far a value of this hand goes in the course of readings: each change by
    one, and not by how it looks when it has come round. -/
def unwrappedChange (i : Fin c.count) : Encoders c → List (Fin c.count → Pads) → Int
  | _, [] => 0
  | e, pads :: readings =>
    ((e.encoderRead pads).2.value (c.here i) - e.value (c.here i)).toInt +
      unwrappedChange i (e.encoderRead pads).2 readings

theorem afterReadings_counts (i : Fin c.count) (hpos : 1 ≤ (c.resolution i).toNat)
    (hle : (c.resolution i).toNat ≤ 127) (hnone : c.defaultPos = none)
    (readings : List (Fin c.count → Pads)) :
    ∀ (e : Encoders c) (last : Pads) (total : Int),
      (e.knob i).Counts (c.resolution i) last total →
      (∃ last', ((afterReadings e readings).knob i).Counts (c.resolution i) last'
        (total + pulseSum last (readings.map (fun pads => pads i)))) ∧
      netTurns ((afterReadings e readings).rotations (c.here i)) =
        netTurns (e.rotations (c.here i)) + unwrappedChange i e readings := by
  induction readings with
  | nil =>
    intro e last total h
    rw [List.map_nil, pulseSum, unwrappedChange, add_zero, add_zero]
    exact ⟨⟨last, h⟩, rfl⟩
  | cons pads readings ih =>
    intro e last total h
    have hknob := encoderRead_knob pads e i
    rw [hnone] at hknob
    rcases h.read (pads i) hpos hle with ⟨hcounts, hchange⟩
    rw [← hknob] at hcounts hchange
    -- the rest of the readings begins with what this one has left
    rcases ih (e.encoderRead pads).2 (pads i) _ hcounts with ⟨⟨last', hrest⟩, hnet⟩
    refine ⟨⟨last', ?_⟩, ?_⟩
    · rw [List.map_cons, pulseSum, ← add_assoc]
      exact hrest
    · rw [unwrappedChange]
      change netTurns ((afterReadings (e.encoderRead pads).2 readings).rotations (c.here i)) = _
      have hvalue : ((e.encoderRead pads).2.value (c.here i) - e.value (c.here i)).toInt =
          netTurns ((e.encoderRead pads).2.rotations (c.here i)) -
            netTurns (e.rotations (c.here i)) := hchange
      rw [hnet, hvalue]
      omega

/-! ### The other hand -/

theorem moveTimes_spec (n : Nat) :
    ∀ e : Encoders c,
      (e.moveTimes index r n).value index = e.value index + BitVec.ofInt 8 (n * r.sign) ∧
      (e.moveTimes index r n).rotations index = e.rotations index ++ List.replicate n r ∧
      ∀ other ≠ index, (e.moveTimes index r n).value other = e.value other ∧
        (e.moveTimes index r n).rotations other = e.rotations other := by
  induction n with
  | zero =>
    intro e
    refine ⟨?_, (List.append_nil _).symm, fun other _ => ⟨rfl, rfl⟩⟩
    simp [moveTimes]
  | succ n ih =>
    intro e
    rcases ih (e.move index r) with ⟨hvalue, hrotations, hother⟩
    refine ⟨?_, ?_, fun other hne => ?_⟩
    · rw [moveTimes, hvalue, move_value_self, add_assoc, ← BitVec.ofInt_add, Nat.cast_succ,
        add_mul, one_mul, add_comm r.sign]
    · rw [moveTimes, hrotations, move_rotations_self, List.append_assoc]
      rfl
    · rw [moveTimes, (hother other hne).1, (hother other hne).2, move_value_other hne,
        move_rotations_other hne]
      exact ⟨rfl, rfl⟩

def atIndex (index : Fin (c.count + c.count)) (e : Encoders c) : Byte × List Rotation :=
  (e.value index, e.rotations index)

def catchUp (slave : Byte) (known : Byte × List Rotation) : Byte × List Rotation :=
  (slave, known.2 ++
    List.replicate (slave - known.1).toInt.toNat .counterClockwise ++
    List.replicate (-(slave - known.1).toInt).toNat .clockwise)

variable (slaveState : Fin c.count → Byte)

theorem updateRawOne_self (s : Bool × Encoders c) (i : Fin c.count) :
    (updateRawOne slaveState s i).2.atIndex (c.there i) =
      catchUp (slaveState i) (s.2.atIndex (c.there i)) := by
  unfold updateRawOne catchUp atIndex
  dsimp only
  generalize hdelta : (slaveState i - s.2.value (c.there i)).toInt = delta
  rcases moveTimes_spec (c.there i) .counterClockwise delta.toNat s.2 with ⟨hup, hups, _⟩
  rcases moveTimes_spec (c.there i) .clockwise (-delta).toNat
    (s.2.moveTimes (c.there i) .counterClockwise delta.toNat) with ⟨hdown, hdowns, _⟩
  rw [hdown, hup, hdowns, hups, add_assoc, ← BitVec.ofInt_add]
  -- one of the two loops has nothing to do, and the other makes up the difference
  have hboth : (delta.toNat : Int) * Rotation.sign .counterClockwise +
      ((-delta).toNat : Int) * Rotation.sign .clockwise = delta := by
    simp only [Rotation.sign]
    omega
  rw [hboth, ← hdelta, BitVec.ofInt_toInt, add_sub_cancel]

theorem updateRawOne_other (s : Bool × Encoders c) (i j : Fin c.count) (h : j ≠ i) :
    (updateRawOne slaveState s i).2.atIndex (c.there j) = s.2.atIndex (c.there j) := by
  have hindex : c.there j ≠ c.there i := fun heq => h (there_injective heq)
  unfold updateRawOne atIndex
  dsimp only
  generalize (slaveState i - s.2.value (c.there i)).toInt = delta
  rcases moveTimes_spec (c.there i) .counterClockwise delta.toNat s.2 with ⟨_, _, hup⟩
  rcases moveTimes_spec (c.there i) .clockwise (-delta).toNat
    (s.2.moveTimes (c.there i) .counterClockwise delta.toNat) with ⟨_, _, hdown⟩
  rw [(hdown _ hindex).1, (hdown _ hindex).2, (hup _ hindex).1, (hup _ hindex).2]

theorem encoderUpdateRaw_atIndex (e : Encoders c) (i : Fin c.count) :
    (e.encoderUpdateRaw slaveState).2.atIndex (c.there i) =
      catchUp (slaveState i) (e.atIndex (c.there i)) :=
  run_separate (updateRawOne slaveState) (fun s i => s.2.atIndex (c.there i))
    (fun s a b h => updateRawOne_other slaveState s a b h) (fun i => catchUp (slaveState i))
    (updateRawOne_self slaveState) (List.finRange c.count) (List.nodup_finRange c.count) i
    (List.mem_finRange i) (false, e)

theorem catchUp_shortest (slave : Byte) (known : Byte × List Rotation) :
    (catchUp slave known).1 = slave ∧ ∃ r, (catchUp slave known).2 =
      known.2 ++ List.replicate (shortestWay known.1 slave) r := by
  refine ⟨rfl, ?_⟩
  unfold catchUp shortestWay
  have hback : known.1 - slave = -(slave - known.1) := (neg_sub slave known.1).symm
  rw [hback]
  -- only the difference of the two values matters
  generalize slave - known.1 = d
  have hlt := d.isLt
  -- the two ways round are a byte and what it lacks to 256
  have hneg : (-d).toNat = (256 - d.toNat) % 256 := BitVec.toNat_neg d
  have hint : d.toInt = if 2 * d.toNat < 256 then (d.toNat : Int) else d.toNat - 256 :=
    BitVec.toInt_eq_toNat_cond d
  by_cases hhalf : 2 * d.toNat < 256
  · refine ⟨.counterClockwise, ?_⟩
    rw [if_pos hhalf] at hint
    rw [hint, show (-(d.toNat : Int)).toNat = 0 by omega, List.replicate_zero, List.append_nil,
      Int.toNat_natCast, show min d.toNat (-d).toNat = d.toNat by omega]
  · refine ⟨.clockwise, ?_⟩
    rw [if_neg hhalf] at hint
    rw [hint, show ((d.toNat : Int) - 256).toNat = 0 by omega, List.replicate_zero,
      List.append_nil, show (-((d.toNat : Int) - 256)).toNat = min d.toNat (-d).toNat by omega]

theorem init_counts (first : Fin c.count → Pads) (i : Fin c.count)
    (hpos : 1 ≤ (c.resolution i).toNat) :
    ((init first : Encoders c).knob i).Counts (c.resolution i) (first i) 0 where
  last := (first i).bits_and.2
  total := by
    change (0 : Int) * _ + 0 = 0
    rw [zero_mul, zero_add]
  small := by
    change -((c.resolution i).toNat : Int) < 0 ∧ (0 : Int) < (c.resolution i).toNat
    omega
  value := rfl

end Encoders

open Encoders

/-- Value and pulses make up the pulses of all readings, but for the rounds of the
    value; fewer pulses than a detent has are left over; and the callbacks are the
    turns of the value. And the values of the other hand become what it reports,
    with callbacks one way only, as many as the shorter way takes. -/
theorem encoder_conserves (c : EncoderConfig)
    (hresolution : ∀ i, 1 ≤ (c.resolution i).toNat ∧ (c.resolution i).toNat ≤ 127)
    (hnone : c.defaultPos = none) :
    (∀ (first : Fin c.count → Pads) (readings : List (Fin c.count → Pads)) (i : Fin c.count),
      let e := afterReadings (init first) readings
      (e.value (c.here i)).toNat * (c.resolution i).toNat + (e.pulses i).toInt ≡
          pulseSum (first i) (readings.map (fun pads => pads i))
            [ZMOD 256 * (c.resolution i).toNat] ∧
        |(e.pulses i).toInt| < (c.resolution i).toNat ∧
        netTurns (e.rotations (c.here i)) = unwrappedChange i (init first) readings) ∧
    ∀ (e : Encoders c) (slaveState : Fin c.count → Byte) (i : Fin c.count),
      (e.encoderUpdateRaw slaveState).2.value (c.there i) = slaveState i ∧
        ∃ r, (e.encoderUpdateRaw slaveState).2.rotations (c.there i) =
          e.rotations (c.there i) ++
            List.replicate (shortestWay (e.value (c.there i)) (slaveState i)) r := by
  refine ⟨fun first readings i => ?_, fun e slaveState i => ?_⟩
  · rcases afterReadings_counts i (hresolution i).1 (hresolution i).2 hnone readings _ (first i) 0
      (init_counts first i (hresolution i).1) with ⟨⟨last', hcounts⟩, hnet⟩
    rw [zero_add] at hcounts
    refine ⟨?_, abs_lt.mpr hcounts.small, hnet.trans (zero_add _)⟩
    -- the value is the turns, but for the rounds it has come round
    have hvalue := hcounts.value
    have hmod : ((afterReadings (init first) readings).value (c.here i)).toNat ≡
        netTurns ((afterReadings (init first) readings).rotations (c.here i)) [ZMOD 256] := by
      change (((afterReadings (init first) readings).knob i).value.toNat : Int) ≡ _ [ZMOD 256]
      rw [hvalue, BitVec.toNat_ofInt]
      change ((_ % (2 ^ 8 : Nat) : Int).toNat : Int) % 256 = _ % 256
      rw [Int.toNat_of_nonneg (Int.emod_nonneg _ (by decide))]
      exact Int.emod_emod_of_dvd _ (dvd_refl _)
    have htotal := hcounts.total
    rw [← htotal]
    exact Int.ModEq.add_right _ (Int.ModEq.mul_right' hmod)
  · have hcaught := encoderUpdateRaw_atIndex slaveState e i
    rcases catchUp_shortest (slaveState i) (e.atIndex (c.there i)) with ⟨hvalue, r, hcalls⟩
    rw [← hcaught] at hvalue hcalls
    exact ⟨hvalue, r, hcalls⟩

/-- One encoder of four pulses to a detent. -/
def fourPulses : EncoderConfig where
  count := 1
  resolution _ := 4
  defaultPos := none
  isLeftHand := true
  count_le := by decide

/-- A detent and a half forwards, and two backwards. -/
def forthAndBack : List (Fin fourPulses.count → Pads) :=
  ([⟨false, true⟩, ⟨false, false⟩, ⟨true, false⟩, ⟨true, true⟩, ⟨false, true⟩, ⟨false, false⟩,
    ⟨false, true⟩, ⟨true, true⟩, ⟨true, false⟩, ⟨false, false⟩] : List Pads).map (fun p _ => p)

theorem encoder_conserves_four :
    (|((afterReadings (init (fun _ => ⟨true, true⟩)) forthAndBack : Encoders fourPulses).pulses
        ⟨0, by decide⟩).toInt| < 4) ∧
      (encoderUpdateRaw (fun _ => 250) (init (fun _ => ⟨true, true⟩) : Encoders fourPulses)).2.value
        (fourPulses.there ⟨0, by decide⟩) = 250 := by
  have h := encoder_conserves fourPulses
    (fun _ => (by decide : 1 ≤ (4 : Byte).toNat ∧ (4 : Byte).toNat ≤ 127)) rfl
  exact ⟨(h.1 _ forthAndBack ⟨0, by decide⟩).2.1, (h.2 _ _ ⟨0, by decide⟩).1⟩

end K530
