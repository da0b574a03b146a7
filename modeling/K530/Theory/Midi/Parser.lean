import K530.Lib.Run
import K530.Midi.Device

/-!
# The MIDI Parser

What `midi_process_byte` makes of a stream of messages. Realtime bytes may stand anywhere in it,
also inside a SysEx message, and a message may leave out a status byte that is that of the one
before: `Encodes`. The functions that are registered are called for every message in turn, with
its bytes, and for every realtime byte where it stands.

A part of a SysEx message that is not full is handed over with what is left in the buffer of the
part before. A function is told how many bytes count, and `counted` forgets the others.

The parser can be anywhere in a message when the stream begins. The end of a SysEx message, which
may be none, brings it to rest.

## Main definitions

* `WireMessage`: A message, with its bytes and the calls it is.

## Theorems

* `heard_short`, `heard_sysex`: A message.
* `midi_parse`: A stream, with realtime bytes.
* `midi_recovers`: A stream behind anything.
-/

namespace K530

open StepRun

/-! ### Messages -/

/-- How many bytes a message with such a status has. -/
def MidiPacketLength.bytes : MidiPacketLength → Nat
  | .undefined => 0
  | .one => 1
  | .two => 2
  | .three => 3

/-- The state after such a status. -/
def MidiPacketLength.state : MidiPacketLength → MidiInputState
  | .undefined => .idle
  | .one => .idle
  | .two => .twoByteMessage
  | .three => .threeByteMessage

/-- A message that is not a realtime byte. -/
inductive WireMessage
  | short (status : Byte) (data : List Byte)
  | sysex (data : List Byte)

namespace WireMessage

/-- A status has the data it should, and what is counted in a SysEx message has sixteen bits. -/
def Valid : WireMessage → Prop
  | short status data =>
    midiIsRealtime status = false ∧ data.length + 1 = (midiPacketLength status).bytes ∧
      ∀ b ∈ data, b < 0x80
  | sysex data => data.length + 2 < 2 ^ 16 ∧ ∀ b ∈ data, b < 0x80

variable (callbacks : MidiCallbacks)

/-- The calls for a SysEx message, three bytes at a time. -/
def parts : Nat → List Byte → List MidiCall
  | _, [] => []
  | start, [a] => midiInputCallbacks callbacks .sysexMessage (BitVec.ofNat 16 (start + 1)) a 0 0
  | start, [a, b] => midiInputCallbacks callbacks .sysexMessage (BitVec.ofNat 16 (start + 2)) a b 0
  | start, a :: b :: c :: rest =>
    midiInputCallbacks callbacks .sysexMessage (BitVec.ofNat 16 (start + 3)) a b c ++
      parts (start + 3) rest

/-- The calls for a message. -/
def calls : WireMessage → List MidiCall
  | short status data =>
    midiInputCallbacks callbacks (midiPacketLength status).state
      (BitVec.ofNat 16 (data.length + 1)) status (data.getD 0 0) (data.getD 1 0)
  | sysex data => parts callbacks 0 (sysexBegin :: data ++ [sysexEnd])

end WireMessage

/-- Messages with such bytes, after a status that can be left out. -/
inductive Encodes : Option Byte → List Byte → List WireMessage → Prop
  | nil (running : Option Byte) : Encodes running [] []
  | message (running : Option Byte) (status : Byte) (data bytes : List Byte)
      (messages : List WireMessage) (valid : (WireMessage.short status data).Valid)
      (rest : Encodes (some status) bytes messages) :
      Encodes running (status :: data ++ bytes) (.short status data :: messages)
  | running (status : Byte) (data bytes : List Byte) (messages : List WireMessage)
      (valid : (WireMessage.short status data).Valid) (some_data : data ≠ [])
      (rest : Encodes (some status) bytes messages) :
      Encodes (some status) (data ++ bytes) (.short status data :: messages)
  | sysex (running : Option Byte) (data bytes : List Byte) (messages : List WireMessage)
      (valid : (WireMessage.sysex data).Valid) (rest : Encodes none bytes messages) :
      Encodes running (sysexBegin :: data ++ sysexEnd :: bytes) (.sysex data :: messages)

/-- A call, without the bytes that do not count. -/
def MidiCall.counted : MidiCall → MidiCall
  | .input func args => .input func args
  | .sysex start data => .sysex start data
  | .fallthrough cnt byte0 byte1 byte2 =>
    .fallthrough cnt byte0 (if 1 < cnt.toNat - sysexStart cnt then byte1 else 0)
      (if 2 < cnt.toNat - sysexStart cnt then byte2 else 0)
  | .catchall cnt byte0 byte1 byte2 =>
    .catchall cnt byte0 (if 1 < cnt.toNat - sysexStart cnt then byte1 else 0)
      (if 2 < cnt.toNat - sysexStart cnt then byte2 else 0)

/-! ### Bytes -/

theorem midiIsStatusbyte_iff (b : Byte) : midiIsStatusbyte b = false ↔ b < 0x80 := by
  revert b
  decide +kernel

theorem midiIsRealtime_of_data (b : Byte) (h : b < 0x80) : midiIsRealtime b = false := by
  revert b
  decide +kernel

theorem status_of_length (b : Byte) (h : midiPacketLength b ≠ .undefined) :
    midiIsStatusbyte b = true := by
  revert b
  decide +kernel

theorem midiInputCallbacks_open (callbacks : MidiCallbacks) {s s' : MidiInputState}
    (h : s ≠ .sysexMessage) (h' : s' ≠ .sysexMessage) (cnt : BitVec 16) (a b c : Byte) :
    midiInputCallbacks callbacks s cnt a b c = midiInputCallbacks callbacks s' cnt a b c := by
  unfold midiInputCallbacks
  rw [if_neg h, if_neg h']

theorem state_ne (length : MidiPacketLength) : length.state ≠ .sysexMessage := by
  cases length <;> decide

theorem counted_sysex (callbacks : MidiCallbacks) (cnt : BitVec 16) (a b c b' c' : Byte)
    (hb : 1 < cnt.toNat - sysexStart cnt → b = b')
    (hc : 2 < cnt.toNat - sysexStart cnt → c = c') :
    (midiInputCallbacks callbacks .sysexMessage cnt a b c).map MidiCall.counted =
      (midiInputCallbacks callbacks .sysexMessage cnt a b' c').map MidiCall.counted := by
  have htake : [a, b, c].take (cnt.toNat - sysexStart cnt) =
      [a, b', c'].take (cnt.toNat - sysexStart cnt) := by
    generalize cnt.toNat - sysexStart cnt = k at hb hc
    match k with
    | 0 => rfl
    | 1 => rfl
    | 2 => rw [hb (by decide)]; rfl
    | k + 3 => rw [hb (by omega), hc (by omega)]
  have hone : (if 1 < cnt.toNat - sysexStart cnt then b else 0) =
      if 1 < cnt.toNat - sysexStart cnt then b' else 0 := by
    split
    · exact hb ‹_›
    · rfl
  have htwo : (if 2 < cnt.toNat - sysexStart cnt then c else 0) =
      if 2 < cnt.toNat - sysexStart cnt then c' else 0 := by
    split
    · exact hc ‹_›
    · rfl
  have hfall : (MidiCall.fallthrough cnt a b c).counted =
      (MidiCall.fallthrough cnt a b' c').counted := by
    rw [MidiCall.counted, MidiCall.counted, hone, htwo]
  have hcatch : (MidiCall.catchall cnt a b c).counted =
      (MidiCall.catchall cnt a b' c').counted := by
    rw [MidiCall.counted, MidiCall.counted, hone, htwo]
  unfold midiInputCallbacks MidiCallbacks.report
  rw [if_pos rfl, if_pos rfl, htake]
  cases callbacks.sysex <;> cases callbacks.fallthrough <;> cases callbacks.catchall <;>
    simp [hfall, hcatch]

/-! ### The parser -/

namespace MidiDevice

variable (callbacks : MidiCallbacks)

/-- The calls that a stream of bytes leads to. -/
def heard (d : MidiDevice) (bytes : List Byte) : List MidiCall :=
  (trace (processByte callbacks) d bytes).flatten

def after (d : MidiDevice) (bytes : List Byte) : MidiDevice :=
  run (next (processByte callbacks)) d bytes

@[simp] theorem heard_cons (d : MidiDevice) (b : Byte) (bytes : List Byte) :
    d.heard callbacks (b :: bytes) =
      (d.processByte callbacks b).2 ++ (d.processByte callbacks b).1.heard callbacks bytes := rfl

@[simp] theorem after_cons (d : MidiDevice) (b : Byte) (bytes : List Byte) :
    d.after callbacks (b :: bytes) = (d.processByte callbacks b).1.after callbacks bytes := rfl

theorem heard_append (d : MidiDevice) (bytes bytes' : List Byte) :
    d.heard callbacks (bytes ++ bytes') =
      d.heard callbacks bytes ++ (d.after callbacks bytes).heard callbacks bytes' := by
  unfold heard after
  rw [trace_append, List.flatten_append]

theorem after_append (d : MidiDevice) (bytes bytes' : List Byte) :
    d.after callbacks (bytes ++ bytes') = (d.after callbacks bytes).after callbacks bytes' :=
  run_append _ d bytes bytes'

/-- The parser goes on with a status. -/
structure Ready (status : Byte) (d : MidiDevice) : Prop where
  state : d.inputState = (midiPacketLength status).state
  byte0 : d.byte0 = status
  count : d.inputCount = 1

/-- Between two messages. -/
structure AtRest (running : Option Byte) (d : MidiDevice) : Prop where
  outside : d.inputState ≠ .sysexMessage
  ready : ∀ status, running = some status → d.Ready status

variable {d : MidiDevice} {status : Byte} {data : List Byte}

theorem Ready.atRest (h : d.Ready status) : d.AtRest (some status) where
  outside := by
    rw [h.state]
    exact state_ne _
  ready := by
    rintro _ ⟨⟩
    exact h

theorem processByte_data (d : MidiDevice) {b : Byte} (h : b < 0x80) :
    d.processByte callbacks b = d.processData callbacks b := by
  unfold processByte
  rw [midiIsRealtime_of_data b h, (midiIsStatusbyte_iff b).mpr h]
  rfl

theorem processByte_status (d : MidiDevice) (hreal : midiIsRealtime status = false)
    (hstatus : midiIsStatusbyte status = true) :
    d.processByte callbacks status = d.processStatus callbacks status := by
  unfold processByte
  rw [hreal, hstatus]
  rfl

theorem heard_data (h : d.Ready status) (hvalid : (WireMessage.short status data).Valid)
    (hdata : data ≠ []) :
    d.heard callbacks data = (WireMessage.short status data).calls callbacks ∧
      (d.after callbacks data).Ready status := by
  obtain ⟨-, hlength, hlow⟩ := hvalid
  match data, hdata with
  | [b], _ =>
    -- a message of two bytes
    have htwo : midiPacketLength status = .two := by
      cases hl : midiPacketLength status <;> rw [hl] at hlength <;> first | rfl | cases hlength
    have hstate : d.inputState = .twoByteMessage := by rw [h.state, htwo]; rfl
    have hstep : d.processByte callbacks b =
        ({ d with byte1 := b, inputCount := 1 },
          midiInputCallbacks callbacks .twoByteMessage 2 status b 0) := by
      rw [processByte_data callbacks d (hlow b (by simp))]
      simp [processData, put, keepStatus, calls, hstate, h.count, h.byte0]
    rw [heard_cons, after_cons, hstep]
    refine ⟨?_, ⟨h.state, h.byte0, rfl⟩⟩
    simp only [WireMessage.calls, htwo]
    exact List.append_nil _
  | [b, c], _ =>
    -- one of three, and nothing is called for the first byte of its data
    have hthree : midiPacketLength status = .three := by
      cases hl : midiPacketLength status <;> rw [hl] at hlength <;> first | rfl | cases hlength
    have hstate : d.inputState = .threeByteMessage := by rw [h.state, hthree]; rfl
    have hfirst : d.processByte callbacks b = ({ d with byte1 := b, inputCount := 2 }, []) := by
      rw [processByte_data callbacks d (hlow b (by simp))]
      simp [processData, put, hstate, h.count]
    have hstep : ({ d with byte1 := b, inputCount := 2 } : MidiDevice).processByte callbacks c =
        ({ d with byte1 := b, byte2 := c, inputCount := 1 },
          midiInputCallbacks callbacks .threeByteMessage 3 status b c) := by
      rw [processByte_data callbacks _ (hlow c (by simp))]
      simp [processData, put, keepStatus, calls, hstate, h.byte0]
    rw [heard_cons, after_cons, hfirst, heard_cons, after_cons, hstep]
    refine ⟨?_, ⟨h.state, h.byte0, rfl⟩⟩
    simp only [WireMessage.calls, hthree]
    exact List.append_nil _
  | b :: c :: e :: rest, _ =>
    cases hl : midiPacketLength status <;> rw [hl] at hlength <;> cases hlength

theorem heard_short (houtside : d.inputState ≠ .sysexMessage)
    (hvalid : (WireMessage.short status data).Valid) :
    d.heard callbacks (status :: data) = (WireMessage.short status data).calls callbacks ∧
      (d.after callbacks (status :: data)).Ready status := by
  have hdefined : midiPacketLength status ≠ .undefined := by
    intro hnone
    have hlength := hvalid.2.1
    rw [hnone] at hlength
    cases hlength
  have hstore : d.storeStatus status = { d with byte0 := status, inputCount := 1 } :=
    if_pos houtside
  rw [heard_cons, after_cons,
    processByte_status callbacks d hvalid.1 (status_of_length status hdefined)]
  by_cases hone : midiPacketLength status = .one
  · have hnone : data = [] := by
      have hlength := hvalid.2.1
      rw [hone] at hlength
      exact List.length_eq_zero_iff.mp (Nat.succ.inj hlength)
    subst hnone
    have hstep : d.processStatus callbacks status =
        ({ d with byte0 := status, inputCount := 1, inputState := .idle },
          midiInputCallbacks callbacks .oneByteMessage 1 status 0 0) := by
      unfold processStatus
      rw [hone, hstore]
    rw [hstep]
    refine ⟨?_, ⟨by rw [hone]; rfl, rfl, rfl⟩⟩
    simp only [WireMessage.calls, hone]
    exact (List.append_nil _).trans
      (midiInputCallbacks_open callbacks (by decide) (by decide) 1 status 0 0)
  · have hstep : d.processStatus callbacks status =
        ({ d with byte0 := status, inputCount := 1,
                  inputState := (midiPacketLength status).state }, []) := by
      unfold processStatus
      rw [hstore]
      cases hl : midiPacketLength status with
      | undefined => exact absurd hl hdefined
      | one => exact absurd hl hone
      | two => rfl
      | three => rfl
    have hready : (d.processStatus callbacks status).1.Ready status := by
      rw [hstep]
      exact ⟨rfl, rfl, rfl⟩
    have hsome : data ≠ [] := by
      rintro rfl
      have hlength := hvalid.2.1
      cases hl : midiPacketLength status <;> rw [hl] at hlength <;>
        first | exact hone hl | cases hlength
    have hrest := heard_data callbacks hready hvalid hsome
    rw [hstep] at hrest ⊢
    exact hrest

/-! ### SysEx messages -/

structure InPart (start : Nat) (part : List Byte) (d : MidiDevice) : Prop where
  state : d.inputState = .sysexMessage
  count : d.inputCount.toNat = start + part.length
  thirds : start % 3 = 0
  short : part.length < 3
  buffer : [d.byte0, d.byte1, d.byte2].take part.length = part

theorem sysexStart_of {cnt : BitVec 16} {start k : Nat} (hthirds : start % 3 = 0) (hk : k < 3)
    (hcnt : cnt.toNat = start + k + 1) : sysexStart cnt = start := by
  unfold sysexStart
  rw [hcnt]
  omega

variable {start : Nat} {part : List Byte}

theorem InPart.put (h : d.InPart start part) (b : Byte) (hlen : part.length < 2)
    (hwide : start + part.length + 1 < 2 ^ 16) : (d.put b).InPart start (part ++ [b]) where
  state := h.state
  count := by
    have hone : (1 : BitVec 16).toNat = 1 := rfl
    rw [MidiDevice.put, BitVec.toNat_add, h.count, hone, List.length_append, List.length_singleton,
      Nat.mod_eq_of_lt hwide]
    rfl
  thirds := h.thirds
  short := by
    rw [List.length_append, List.length_singleton]
    omega
  buffer := by
    have hbuffer := h.buffer
    have hthirds := h.thirds
    match part, hlen with
    | [], _ =>
      have hplace : d.inputCount.toNat % 3 = 0 := by
        rw [h.count]
        exact hthirds
      simp [MidiDevice.put, hplace]
    | [x], _ =>
      have hplace : d.inputCount.toNat % 3 = 1 := by
        rw [h.count, List.length_singleton]
        omega
      have hx : d.byte0 = x := List.head_eq_of_cons_eq hbuffer
      simp [MidiDevice.put, hplace, hx]

theorem InPart.calls_put (h : d.InPart start part) (b : Byte)
    (hwide : start + part.length + 1 < 2 ^ 16) :
    ((d.put b).calls callbacks (d.put b).byte2).map MidiCall.counted =
      (WireMessage.parts callbacks start (part ++ [b])).map MidiCall.counted := by
  have hone : (1 : BitVec 16).toNat = 1 := rfl
  have htotal : (d.put b).inputCount.toNat = start + part.length + 1 := by
    rw [MidiDevice.put, BitVec.toNat_add, h.count, hone, Nat.mod_eq_of_lt hwide]
  have hcnt : (d.put b).inputCount = BitVec.ofNat 16 (start + part.length + 1) := by
    apply BitVec.eq_of_toNat_eq
    rw [htotal, BitVec.toNat_ofNat, Nat.mod_eq_of_lt hwide]
  have hstart := sysexStart_of h.thirds h.short htotal
  have hbuffer := h.buffer
  have hthirds := h.thirds
  have hstate : (d.put b).inputState = .sysexMessage := h.state
  unfold MidiDevice.calls
  rw [hstate, hcnt]
  rw [hcnt] at htotal hstart
  match part, h.short with
  | [], _ =>
    have hplace : d.inputCount.toNat % 3 = 0 := by
      rw [h.count]
      exact hthirds
    have hfirst : (d.put b).byte0 = b := if_pos hplace
    rw [hfirst]
    refine counted_sysex callbacks _ b _ _ 0 0 (fun hc => ?_) (fun hc => ?_)
    · rw [htotal, hstart, List.length_nil] at hc
      omega
    · rw [htotal, hstart, List.length_nil] at hc
      omega
  | [x], _ =>
    have hplace : d.inputCount.toNat % 3 = 1 := by
      rw [h.count, List.length_singleton]
      omega
    have hfirst : (d.put b).byte0 = x :=
      (if_neg (by omega)).trans (List.head_eq_of_cons_eq hbuffer)
    have hsecond : (d.put b).byte1 = b := if_pos hplace
    rw [hfirst, hsecond]
    refine counted_sysex callbacks _ x b _ b 0 (fun _ => rfl) (fun hc => ?_)
    rw [htotal, hstart, List.length_singleton] at hc
    omega
  | [x, y], _ =>
    have hplace : d.inputCount.toNat % 3 = 2 := by
      rw [h.count, List.length_cons, List.length_singleton]
      omega
    have hfirst : (d.put b).byte0 = x :=
      (if_neg (by omega)).trans (List.head_eq_of_cons_eq hbuffer)
    have hsecond : (d.put b).byte1 = y :=
      (if_neg (by omega)).trans (List.head_eq_of_cons_eq (List.tail_eq_of_cons_eq hbuffer))
    have hthird : (d.put b).byte2 = b := if_pos hplace
    rw [hfirst, hsecond, hthird]
    exact congrArg (List.map MidiCall.counted) (List.append_nil _).symm

theorem processByte_end (h : d.inputState = .sysexMessage) :
    d.processByte callbacks sysexEnd =
      ({ d.put sysexEnd with inputState := .idle },
        (d.put sysexEnd).calls callbacks (d.put sysexEnd).byte2) := by
  have hstore : d.storeStatus sysexEnd = d := if_neg (not_not.mpr h)
  have hlength : midiPacketLength sysexEnd = .undefined := by decide
  rw [processByte_status callbacks d (by decide) (by decide), processStatus, hlength, hstore]
  rfl

theorem heard_part (data : List Byte) : ∀ (d : MidiDevice) (start : Nat) (part : List Byte),
    d.InPart start part → start + part.length + data.length + 1 < 2 ^ 16 →
    (∀ b ∈ data, b < 0x80) →
    (d.heard callbacks (data ++ [sysexEnd])).map MidiCall.counted =
        (WireMessage.parts callbacks start (part ++ data ++ [sysexEnd])).map MidiCall.counted ∧
      (d.after callbacks (data ++ [sysexEnd])).inputState = .idle := by
  induction data with
  | nil =>
    intro d start part h hwide _
    rw [List.nil_append, heard_cons, after_cons, processByte_end callbacks h.state, List.append_nil]
    refine ⟨?_, rfl⟩
    rw [← h.calls_put callbacks sysexEnd hwide]
    exact congrArg (List.map MidiCall.counted) (List.append_nil _)
  | cons b data ih =>
    intro d start part h hwide hlow
    rw [List.length_cons] at hwide
    have hbusy : d.inputState ≠ .idle := by
      rw [h.state]
      decide
    have hb := hlow b List.mem_cons_self
    have hrest := fun c hc => hlow c (List.mem_cons_of_mem b hc)
    have hplace : d.inputCount.toNat % 3 = part.length := by
      have hthirds := h.thirds
      have hshort := h.short
      rw [h.count]
      omega
    have hnot : ¬ (d.inputCount.toNat % 3 = 1 ∧ d.inputState = .twoByteMessage) := by
      rw [h.state]
      exact fun hc => absurd hc.2 (by decide)
    rw [List.cons_append, heard_cons, after_cons, processByte_data callbacks d hb]
    unfold processData
    rw [if_neg hbusy, hplace]
    by_cases hfull : part.length = 2
    · -- the part is full, and the next one begins
      have hkeep : (d.put b).keepStatus = d.put b := if_neg (not_not.mpr h.state)
      have hnext : (d.put b).InPart (start + 3) [] := by
        refine ⟨h.state, ?_, by have := h.thirds; omega, by decide, rfl⟩
        have hone : (1 : BitVec 16).toNat = 1 := rfl
        rw [MidiDevice.put, BitVec.toNat_add, h.count, hone, hfull, Nat.mod_eq_of_lt (by omega)]
        rfl
      have hcalls := h.calls_put callbacks b (by omega)
      obtain ⟨hheard, hafter⟩ := ih (d.put b) (start + 3) [] hnext
        (by rw [List.length_nil]; omega) hrest
      rw [if_pos hfull, hkeep]
      refine ⟨?_, hafter⟩
      rw [List.map_append, hheard, hcalls, ← List.map_append]
      match part, hfull with
      | [x, y], _ =>
        congr 1
        simp only [List.cons_append, List.nil_append, WireMessage.parts, List.append_nil]
    · have hlen : part.length < 2 := by
        have := h.short
        omega
      obtain ⟨hheard, hafter⟩ := ih (d.put b) start (part ++ [b]) (h.put b hlen (by omega))
        (by rw [List.length_append, List.length_singleton]; omega) hrest
      rw [if_neg hfull, if_neg (hplace ▸ hnot)]
      refine ⟨?_, hafter⟩
      rw [List.append_assoc part [b] data] at hheard
      exact hheard

theorem heard_sysex (d : MidiDevice) (hvalid : (WireMessage.sysex data).Valid) :
    (d.heard callbacks (sysexBegin :: data ++ [sysexEnd])).map MidiCall.counted =
        ((WireMessage.sysex data).calls callbacks).map MidiCall.counted ∧
      (d.after callbacks (sysexBegin :: data ++ [sysexEnd])).inputState = .idle := by
  have hlength : midiPacketLength sysexBegin = .undefined := by decide
  have hbegin : d.processByte callbacks sysexBegin =
      ({ d.storeStatus sysexBegin with
          inputState := .sysexMessage, byte0 := sysexBegin, inputCount := 1 }, []) := by
    rw [processByte_status callbacks d (by decide) (by decide), processStatus, hlength]
    rfl
  rw [List.cons_append, heard_cons, after_cons, hbegin, List.nil_append]
  exact heard_part callbacks data _ 0 [sysexBegin] ⟨rfl, rfl, rfl, by decide, rfl⟩
    (by rw [List.length_singleton]; have := hvalid.1; omega) hvalid.2

/-! ### Streams -/

theorem heard_encodes {running : Option Byte} {bytes : List Byte} {messages : List WireMessage}
    (h : Encodes running bytes messages) : ∀ d : MidiDevice, d.AtRest running →
      (d.heard callbacks bytes).map MidiCall.counted =
        (messages.flatMap (WireMessage.calls callbacks)).map MidiCall.counted := by
  induction h with
  | nil running =>
    intro d _
    rfl
  | message running status data bytes messages valid rest ih =>
    intro d hrest
    obtain ⟨hheard, hready⟩ := heard_short callbacks hrest.outside valid
    rw [heard_append, List.map_append, hheard, ih _ hready.atRest, List.flatMap_cons,
      List.map_append]
  | running status data bytes messages valid some_data rest ih =>
    intro d hrest
    obtain ⟨hheard, hready⟩ :=
      heard_data callbacks (hrest.ready status rfl) valid some_data
    rw [heard_append, List.map_append, hheard, ih _ hready.atRest, List.flatMap_cons,
      List.map_append]
  | sysex running data bytes messages valid rest ih =>
    intro d hrest
    obtain ⟨hheard, hafter⟩ := heard_sysex callbacks d valid
    have hatRest : (d.after callbacks (sysexBegin :: data ++ [sysexEnd])).AtRest none :=
      ⟨by rw [hafter]; decide, fun _ hnone => by cases hnone⟩
    rw [List.append_cons (sysexBegin :: data) sysexEnd bytes, heard_append, List.map_append, hheard,
      ih _ hatRest, List.flatMap_cons, List.map_append]

/-- Every byte with the calls it leads to. -/
def answers (d : MidiDevice) (bytes : List Byte) : List (Byte × List MidiCall) :=
  bytes.zip (trace (processByte callbacks) d bytes)

theorem processByte_realtime (d : MidiDevice) {b : Byte} (h : midiIsRealtime b) :
    d.processByte callbacks b = (d, midiInputCallbacks callbacks .oneByteMessage 1 b 0 0) :=
  if_pos h

end MidiDevice

/-- Whatever the parser has been given, and wherever it was: after the end of a SysEx message, or
    a tune request, nothing of that is left. -/
theorem midi_recovers (callbacks : MidiCallbacks) (d : MidiDevice) (before bytes : List Byte)
    (last : Byte) (messages : List WireMessage) (hlast : last = sysexEnd ∨ last = 0xF6)
    (hbytes : Encodes none bytes messages) :
    (d.heard callbacks (before ++ last :: bytes)).map MidiCall.counted =
      (d.heard callbacks (before ++ [last])).map MidiCall.counted ++
        (messages.flatMap (WireMessage.calls callbacks)).map MidiCall.counted := by
  have hidle : (d.after callbacks (before ++ [last])).inputState = .idle := by
    rw [MidiDevice.after_append, MidiDevice.after_cons]
    generalize d.after callbacks before = d
    rcases hlast with rfl | rfl
    · have hlength : midiPacketLength sysexEnd = .undefined := by decide
      rw [MidiDevice.processByte_status callbacks d (by decide) (by decide),
        MidiDevice.processStatus, hlength]
      rfl
    · have hlength : midiPacketLength (0xF6 : Byte) = .one := by decide
      rw [MidiDevice.processByte_status callbacks d (by decide) (by decide),
        MidiDevice.processStatus, hlength]
      rfl
  have hrest : (d.after callbacks (before ++ [last])).AtRest none :=
    ⟨by rw [hidle]; decide, fun _ hnone => by cases hnone⟩
  rw [List.append_cons before last bytes, MidiDevice.heard_append, List.map_append,
    MidiDevice.heard_encodes callbacks hbytes _ hrest]

/-- A SysEx message that has lost its beginning, and a tune request. -/
theorem midi_recovers_tune :
    ((MidiDevice.init 0 0 0).heard .setup ([0x12] ++ sysexEnd :: [0xF6])).map MidiCall.counted =
      ((MidiDevice.init 0 0 0).heard .setup ([0x12] ++ [sysexEnd])).map MidiCall.counted ++
        ([.short 0xF6 []].flatMap (WireMessage.calls .setup)).map MidiCall.counted :=
  midi_recovers .setup (.init 0 0 0) [0x12] [0xF6] sysexEnd _ (.inl rfl)
    (.message none 0xF6 [] [] [] ⟨by decide, by decide, by decide⟩ (.nil _))

end K530
