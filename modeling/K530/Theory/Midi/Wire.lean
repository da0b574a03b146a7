import K530.Theory.Midi.Parser
import K530.Theory.Midi.Process

/-!
# MIDI From End to End

A message that is sent becomes packets, the packets bytes in a queue, and the bytes calls of the
functions that are registered at the other end.

The queue holds one byte less than it has places for, and drops what comes when it is full. As
long as what `usb_get_midi` finds at one call of `midi_device_process` is no more than that, the
calls are those for what has been sent, in order, whatever packets come at which call. So the
messages of the MIDI keys come out as they went in.

`MIDI_EVENT` has to tell the four commands of a SysEx packet from each other.

## Main definitions

* `MidiOut.Complete`: What sends whole messages.

## Theorems

* `ByteQueue.contents_input`, `process_spec`: The queue, and a call of `midi_device_process`.
* `midi_end_to_end`: What is sent is what is called.
* `midi_keys_end_to_end`: What the MIDI keys send.
-/

namespace K530

open StepRun

/-! ### The queue -/

namespace ByteQueue

variable {n : Nat} [NeZero n]

theorem walk_length (k : Nat) (read : Fin n) : (Ring.walk k read).length = k := by
  induction k generalizing read with
  | zero => rfl
  | succ k ih => rw [Ring.walk, List.length_cons, ih]

theorem contents_length (q : ByteQueue n) : q.contents.length = q.length := by
  have hlength : q.contents.length = (q.stop - q.start).val := by
    unfold contents Ring.contents Ring.positions
    rw [List.filterMap_eq_map', List.length_map, walk_length]
  have hstart := q.start.isLt
  have hstop := q.stop.isLt
  rw [hlength, Fin.val_sub]
  unfold length
  split
  · rw [show n - q.start.val + q.stop.val = n + (q.stop.val - q.start.val) by omega,
      Nat.add_mod_left, Nat.mod_eq_of_lt (by omega)]
  · rw [Nat.mod_eq_of_lt (by omega)]

omit [NeZero n] in
theorem length_lt (q : ByteQueue n) : q.length < n := by
  have hstart := q.start.isLt
  have hstop := q.stop.isLt
  unfold length
  split <;> omega

theorem full_iff (q : ByteQueue n) : q.stop + 1 = q.start ↔ q.length = n - 1 := by
  have hstart := q.start.isLt
  have hstop := q.stop.isLt
  have hval : (q.stop + 1).val = if q.stop.val + 1 = n then 0 else q.stop.val + 1 := by
    rw [Fin.val_add, Fin.val_one', Nat.add_mod_mod]
    split
    · rename_i hlast
      rw [hlast, Nat.mod_self]
    · exact Nat.mod_eq_of_lt (by omega)
  rw [Fin.ext_iff, hval]
  unfold length
  split <;> split <;> omega

theorem contents_enqueue (item : Byte) (q : ByteQueue n) :
    (q.enqueue item).2.contents = (q.contents ++ [item]).take (n - 1) := by
  have hle := (q.enqueue item).2.length_lt
  rw [← contents_length] at hle
  unfold enqueue at hle ⊢
  split at hle
  · rename_i hfull
    have hlength := (full_iff q).mp hfull
    rw [← contents_length] at hlength
    rw [if_pos hfull, List.take_append_of_le_length (by omega), List.take_of_length_le (by omega)]
  · rename_i hroom
    have hdata : (fun p => some (Function.update q.data q.stop item p)) =
        Function.update (fun p => some (q.data p)) q.stop (some item) := by
      funext p
      by_cases hp : p = q.stop
      · simp [hp]
      · simp [Function.update_of_ne hp]
    have hpush : ({ q with data := Function.update q.data q.stop item,
                           stop := q.stop + 1 } : ByteQueue n).contents = q.contents ++ [item] := by
      unfold contents
      dsimp only
      rw [hdata, Ring.contents_push, if_neg hroom]
    dsimp only at hle
    rw [hpush] at hle
    rw [if_neg hroom]
    dsimp only
    rw [hpush, List.take_of_length_le (by omega)]

/-- What there is no room for is dropped. -/
theorem contents_input (bytes : List Byte) : ∀ q : ByteQueue n,
    (bytes.foldl (fun q byte => (q.enqueue byte).2) q).contents =
      (q.contents ++ bytes).take (n - 1) := by
  induction bytes with
  | nil =>
    intro q
    have hlt := q.length_lt
    rw [← contents_length] at hlt
    rw [List.append_nil, List.take_of_length_le (by omega)]
    rfl
  | cons b bytes ih =>
    intro q
    have hagain : ((q.contents ++ [b]).take (n - 1) ++ bytes).take (n - 1) =
        (q.contents ++ [b] ++ bytes).take (n - 1) := by
      generalize q.contents ++ [b] = l
      rw [List.take_append, List.take_append, List.take_take, Nat.min_self, List.length_take]
      congr 2
      omega
    rw [List.foldl_cons, ih, contents_enqueue, hagain, ← List.append_cons q.contents b bytes]

theorem contents_head {q : ByteQueue n} {b : Byte} {bytes : List Byte}
    (h : q.contents = b :: bytes) : q.get 0 = b ∧ (q.remove 1).contents = bytes := by
  have hne : q.start ≠ q.stop := by
    intro hc
    unfold contents at h
    rw [hc, Ring.contents_self] at h
    cases h
  have hzero : Fin.ofNat n 0 = 0 := rfl
  unfold contents Ring.contents at h
  rw [Ring.positions_cons _ _ hne, List.filterMap_cons] at h
  obtain ⟨hhead, htail⟩ := List.cons.inj h
  constructor
  · unfold get
    rw [hzero, add_zero, hhead]
  · exact htail

end ByteQueue

/-! ### A call of `midi_device_process` -/

namespace MidiPort

variable {n : Nat} [NeZero n] (callbacks : MidiCallbacks) (event : Byte → Byte)

theorem takeOut_spec (bytes : List Byte) : ∀ p : MidiPort n, p.queue.contents = bytes →
    (p.takeOut callbacks bytes.length).2 = p.device.heard callbacks bytes ∧
      (p.takeOut callbacks bytes.length).1.device = p.device.after callbacks bytes ∧
      (p.takeOut callbacks bytes.length).1.queue.contents = [] := by
  induction bytes with
  | nil =>
    intro p h
    exact ⟨rfl, rfl, h⟩
  | cons b bytes ih =>
    intro p h
    obtain ⟨hhead, htail⟩ := ByteQueue.contents_head h
    obtain ⟨hcalls, hdevice, hqueue⟩ :=
      ih { device := (p.device.processByte callbacks b).1, queue := p.queue.remove 1 } htail
    rw [List.length_cons, takeOut, hhead]
    refine ⟨?_, hdevice, hqueue⟩
    rw [MidiDevice.heard_cons]
    exact congrArg ((p.device.processByte callbacks b).2 ++ ·) hcalls

/-- A call handles what it finds in turn, as much of it as the queue holds, and leaves nothing. -/
theorem process_spec (p : MidiPort n) (packets : List MidiPacket) :
    ∃ bytes, bytes = (p.queue.contents ++ packets.flatMap (MidiPacket.input event)).take (n - 1) ∧
      (p.process event callbacks packets).2 = p.device.heard callbacks bytes ∧
      (p.process event callbacks packets).1.device = p.device.after callbacks bytes ∧
      (p.process event callbacks packets).1.queue.contents = [] := by
  have hinput : ∀ p : MidiPort n,
      (packets.foldl (fun p packet => p.input (packet.input event)) p).device = p.device ∧
        (packets.foldl (fun p packet => p.input (packet.input event)) p).queue =
          (packets.flatMap (MidiPacket.input event)).foldl (fun q byte => (q.enqueue byte).2)
            p.queue := by
    induction packets with
    | nil =>
      intro p
      exact ⟨rfl, rfl⟩
    | cons packet packets ih =>
      intro p
      obtain ⟨hdevice, hqueue⟩ := ih (p.input (packet.input event))
      rw [List.foldl_cons, hdevice, hqueue, List.flatMap_cons, List.foldl_append]
      exact ⟨rfl, rfl⟩
  obtain ⟨hdevice, hqueue⟩ := hinput p
  have hcontents := (congrArg ByteQueue.contents hqueue).trans (ByteQueue.contents_input _ _)
  obtain ⟨hcalls, hafter, hempty⟩ := takeOut_spec callbacks _ _ hcontents
  rw [← hcontents, ByteQueue.contents_length] at hcalls hafter hempty
  refine ⟨_, rfl, hcalls.trans ?_, hafter.trans ?_, hempty⟩
  · rw [hdevice, hcontents]
  · rw [hdevice, hcontents]

end MidiPort

/-! ### Packets -/

/-- The commands of the packets of a SysEx message. -/
def sysexCommands : List Byte := [0x40, 0x50, 0x60, 0x70]

def MidiSend.bytes (s : MidiSend) : List Byte := [s.byte0, s.byte1, s.byte2].take s.cnt.toNat

def MidiSend.Whole (s : MidiSend) : Prop :=
  (midiPacketLength s.byte0 ≠ .undefined ∧ s.cnt.toNat = (midiPacketLength s.byte0).bytes) ∨
    midiPacketLength s.byte0 = .undefined ∧
      (s.cnt = 3 ∨ s.cnt = 2 ∧ s.byte1 = sysexEnd ∨ s.cnt = 1 ∧ s.byte0 = sysexEnd)

theorem input_undefined (event : Byte → Byte) (p : MidiPacket)
    (h : midiPacketLength p.data1 = .undefined) :
    p.input event =
      if p.event = event 0x40 ∨ p.event = event 0x70 then [p.data1, p.data2, p.data3]
      else if p.event = event 0x60 then [p.data1, p.data2]
      else if p.event = event 0x50 then [p.data1]
      else [] := by
  unfold MidiPacket.input
  rw [h]

theorem input_usbSendFunc (event : Byte → Byte)
    (hevent : ∀ a ∈ sysexCommands, ∀ b ∈ sysexCommands, event a = event b → a = b)
    (s : MidiSend) (h : s.Whole) :
    ∃ packet, usbSendFunc event s = some packet ∧ packet.input event = s.bytes := by
  obtain ⟨cnt, byte0, byte1, byte2⟩ := s
  rcases h with ⟨hdefined, hcount⟩ | ⟨hundefined, hcount⟩
  · have hcommand : ∃ command,
        (⟨cnt, byte0, byte1, byte2⟩ : MidiSend).command = some command := by
      unfold MidiSend.command
      rw [if_neg hdefined]
      split
      · exact ⟨_, rfl⟩
      · split <;> exact ⟨_, rfl⟩
    obtain ⟨command, hcommand⟩ := hcommand
    refine ⟨_, by rw [usbSendFunc, hcommand, Option.map_some], ?_⟩
    unfold MidiPacket.input MidiSend.bytes
    rw [hcount]
    dsimp only at hdefined ⊢
    cases hl : midiPacketLength byte0 with
    | undefined => exact absurd hl hdefined
    | one => rfl
    | two => rfl
    | three => rfl
  · have hne : ∀ a ∈ sysexCommands, ∀ b ∈ sysexCommands, a ≠ b → event a ≠ event b :=
      fun a ha b hb hab hc => hab (hevent a ha b hb hc)
    dsimp only at hundefined hcount
    rcases hcount with rfl | ⟨rfl, rfl⟩ | ⟨rfl, rfl⟩
    · have hcommand : (⟨3, byte0, byte1, byte2⟩ : MidiSend).command =
          some (if byte2 = sysexEnd then 0x70 else 0x40) := by
        rw [MidiSend.command, if_pos hundefined, if_pos rfl]
      have hevents : event (if byte2 = sysexEnd then 0x70 else 0x40) = event 0x40 ∨
          event (if byte2 = sysexEnd then 0x70 else 0x40) = event 0x70 := by
        split
        · exact .inr rfl
        · exact .inl rfl
      refine ⟨_, by rw [usbSendFunc, hcommand, Option.map_some], ?_⟩
      rw [input_undefined event _ hundefined, if_pos hevents]
      rfl
    · have hcommand : (⟨2, byte0, sysexEnd, byte2⟩ : MidiSend).command = some 0x60 := by
        rw [MidiSend.command, if_pos hundefined]
        rfl
      refine ⟨_, by rw [usbSendFunc, hcommand, Option.map_some], ?_⟩
      rw [input_undefined event _ hundefined,
        if_neg (not_or.mpr ⟨hne 0x60 (by decide) 0x40 (by decide) (by decide),
          hne 0x60 (by decide) 0x70 (by decide) (by decide)⟩), if_pos rfl]
      rfl
    · have hcommand : (⟨1, sysexEnd, byte1, byte2⟩ : MidiSend).command = some 0x50 := by
        rw [MidiSend.command, if_pos hundefined]
        rfl
      refine ⟨_, by rw [usbSendFunc, hcommand, Option.map_some], ?_⟩
      rw [input_undefined event _ hundefined,
        if_neg (not_or.mpr ⟨hne 0x50 (by decide) 0x40 (by decide) (by decide),
          hne 0x50 (by decide) 0x70 (by decide) (by decide)⟩),
        if_neg (hne 0x50 (by decide) 0x60 (by decide) (by decide)), if_pos rfl]
      rfl

theorem midiSendArray_spec (bytes : List Byte) :
    (∀ b ∈ bytes, midiPacketLength b = .undefined) →
    (∀ b, bytes.getLast? = some b → b = sysexEnd) →
    (∀ s ∈ midiSendArray bytes, s.Whole) ∧
      (midiSendArray bytes).flatMap MidiSend.bytes = bytes := by
  induction bytes using midiSendArray.induct with
  | case1 =>
    intro _ _
    exact ⟨fun s hs => absurd hs List.not_mem_nil, rfl⟩
  | case2 a =>
    intro hbytes hlast
    refine ⟨fun s hs => ?_, rfl⟩
    rw [List.mem_singleton.mp hs]
    exact .inr ⟨hbytes a (by simp), .inr (.inr ⟨rfl, hlast a rfl⟩)⟩
  | case3 a b =>
    intro hbytes hlast
    refine ⟨fun s hs => ?_, rfl⟩
    rw [List.mem_singleton.mp hs]
    exact .inr ⟨hbytes a (by simp), .inr (.inl ⟨rfl, hlast b rfl⟩)⟩
  | case4 a b c bytes ih =>
    intro hbytes hlast
    obtain ⟨hwhole, hflat⟩ := ih (fun x hx => hbytes x (by simp [hx])) (fun x hx => by
      refine hlast x ?_
      cases bytes with
      | nil => cases hx
      | cons y bytes => rw [← hx]; rfl)
    constructor
    · intro s hs
      rcases List.mem_cons.mp hs with rfl | hs
      · exact .inr ⟨hbytes a (by simp), .inl rfl⟩
      · exact hwhole s hs
    · rw [midiSendArray, List.flatMap_cons, hflat]
      rfl

/-! ### What is sent -/

/-- Bytes that are a whole message, a SysEx message where they are an array. -/
def MidiOut.Complete : MidiOut → Prop
  | .byte b => midiPacketLength b = .one
  | .array bytes =>
    ∃ data, bytes = sysexBegin :: data ++ [sysexEnd] ∧ (WireMessage.sysex data).Valid
  | _ => True

/-- The function at the other end, and what it is called with. -/
def MidiOut.func : MidiOut → Option (MidiFunc × List Byte)
  | .cc chan num val => some (.cc, [chan &&& 0x0F, num &&& 0x7F, val &&& 0x7F])
  | .noteon chan num vel => some (.noteon, [chan &&& 0x0F, num &&& 0x7F, vel &&& 0x7F])
  | .noteoff chan num vel => some (.noteoff, [chan &&& 0x0F, num &&& 0x7F, vel &&& 0x7F])
  | .aftertouch chan noteNum amt =>
    some (.aftertouch, [chan &&& 0x0F, noteNum &&& 0x7F, amt &&& 0x7F])
  | .pitchbend chan amt =>
    some (.pitchbend, [chan &&& 0x0F, (bendAmount amt).setWidth 8 &&& 0x7F,
      (bendAmount amt >>> 7).setWidth 8 &&& 0x7F])
  | .programchange chan num => some (.progchange, [chan &&& 0x0F, num &&& 0x7F])
  | .channelpressure chan amt => some (.chanpressure, [chan &&& 0x0F, amt &&& 0x7F])
  | .clock => some (.realtime, [0xF8])
  | .tick => some (.realtime, [0xF9])
  | .start => some (.realtime, [0xFA])
  | .resume => some (.realtime, [0xFB])
  | .stop => some (.realtime, [0xFC])
  | .activesense => some (.realtime, [0xFE])
  | .reset => some (.realtime, [0xFF])
  | .tcquarterframe time => some (.tcQuarterframe, [0xF1, time &&& 0x7F])
  | .songposition pos =>
    some (.songposition, [0xF2, pos.setWidth 8 &&& 0x7F, (pos >>> 7).setWidth 8 &&& 0x7F])
  | .songselect song => some (.songselect, [0xF3, song &&& 0x7F])
  | .tunerequest => some (.tunerequest, [0xF6])
  | .byte b => (oneByteFunc b).map (fun func => (func, [b]))
  | .array _ => none

/-- The calls at the other end: the function for the message, and those for any message. -/
def MidiOut.calls (callbacks : MidiCallbacks) : MidiOut → List MidiCall
  | .array bytes => WireMessage.parts callbacks 0 bytes
  | out => out.sends.flatMap (fun s =>
      callbacks.report (callbacks.registered out.func) s.cnt s.byte0 s.byte1 s.byte2)

inductive MidiSend.Short (func : Option (MidiFunc × List Byte)) : MidiSend → Prop
  | one (byte0 : Byte) (length : midiPacketLength byte0 = .one)
      (input : inputFunc 1 byte0 0 0 = func) : Short func ⟨1, byte0, 0, 0⟩
  | two (byte0 a : Byte) (length : midiPacketLength byte0 = .two) (low : a < 0x80)
      (input : inputFunc 2 byte0 a 0 = func) : Short func ⟨2, byte0, a, 0⟩
  | three (byte0 a b : Byte) (length : midiPacketLength byte0 = .three) (low : a < 0x80)
      (low' : b < 0x80) (input : inputFunc 3 byte0 a b = func) : Short func ⟨3, byte0, a, b⟩

theorem low_lt (x : Byte) : x &&& 0x7F < 0x80 := by
  revert x
  decide +kernel

theorem channel_three (kind : Byte) (func : MidiFunc)
    (h : (kind, func) ∈ [((0xB0 : Byte), MidiFunc.cc), (0x90, .noteon), (0x80, .noteoff),
      (0xA0, .aftertouch), (0xE0, .pitchbend)]) (chan a b : Byte) (ha : a < 0x80) (hb : b < 0x80) :
    MidiSend.Short (some (func, [chan &&& 0x0F, a, b])) ⟨3, kind ||| chan &&& 0x0F, a, b⟩ := by
  have hstatus : midiPacketLength (kind ||| chan &&& 0x0F) = .three ∧
      threeByteFunc (kind ||| chan &&& 0x0F) = some func ∧
      (if kind ||| chan &&& 0x0F = 0xF2 then kind ||| chan &&& 0x0F
        else (kind ||| chan &&& 0x0F) &&& 0x0F) = chan &&& 0x0F := by
    simp only [List.mem_cons, Prod.mk.injEq, List.not_mem_nil, or_false] at h
    rcases h with ⟨rfl, rfl⟩ | ⟨rfl, rfl⟩ | ⟨rfl, rfl⟩ | ⟨rfl, rfl⟩ | ⟨rfl, rfl⟩ <;>
      (clear ha hb; revert chan; decide +kernel)
  obtain ⟨hlength, hfunc, hchan⟩ := hstatus
  refine .three _ a b hlength ha hb ?_
  unfold inputFunc
  rw [if_pos rfl, hfunc, hchan, Option.map_some]

theorem channel_two (kind : Byte) (func : MidiFunc)
    (h : (kind, func) ∈ [((0xC0 : Byte), MidiFunc.progchange), (0xD0, .chanpressure)])
    (chan a : Byte) (ha : a < 0x80) :
    MidiSend.Short (some (func, [chan &&& 0x0F, a])) ⟨2, kind ||| chan &&& 0x0F, a, 0⟩ := by
  have hstatus : midiPacketLength (kind ||| chan &&& 0x0F) = .two ∧
      twoByteFunc (kind ||| chan &&& 0x0F) = some func ∧
      (if kind ||| chan &&& 0x0F = 0xF3 ∨ kind ||| chan &&& 0x0F = 0xF1 then
        kind ||| chan &&& 0x0F else (kind ||| chan &&& 0x0F) &&& 0x0F) = chan &&& 0x0F := by
    simp only [List.mem_cons, Prod.mk.injEq, List.not_mem_nil, or_false] at h
    rcases h with ⟨rfl, rfl⟩ | ⟨rfl, rfl⟩ <;> (clear ha; revert chan; decide +kernel)
  obtain ⟨hlength, hfunc, hchan⟩ := hstatus
  refine .two _ a hlength ha ?_
  unfold inputFunc
  rw [if_neg (by decide), if_pos rfl, hfunc, hchan, Option.map_some]

theorem short_of_sends (out : MidiOut) (hcomplete : out.Complete)
    (hout : ∀ bytes, out ≠ .array bytes) : ∀ s ∈ out.sends, s.Short out.func := by
  cases out <;> intro s hs <;>
    first
    | exact absurd rfl (hout _)
    | (simp only [MidiOut.sends, List.mem_singleton] at hs; subst hs)
  case cc chan num val => exact channel_three 0xB0 .cc (by decide) chan _ _ (low_lt _) (low_lt _)
  case noteon chan num vel =>
    exact channel_three 0x90 .noteon (by decide) chan _ _ (low_lt _) (low_lt _)
  case noteoff chan num vel =>
    exact channel_three 0x80 .noteoff (by decide) chan _ _ (low_lt _) (low_lt _)
  case aftertouch chan num amt =>
    exact channel_three 0xA0 .aftertouch (by decide) chan _ _ (low_lt _) (low_lt _)
  case pitchbend chan amt =>
    exact channel_three 0xE0 .pitchbend (by decide) chan _ _ (low_lt _) (low_lt _)
  case programchange chan num => exact channel_two 0xC0 .progchange (by decide) chan _ (low_lt _)
  case channelpressure chan amt =>
    exact channel_two 0xD0 .chanpressure (by decide) chan _ (low_lt _)
  case byte b => exact .one b hcomplete rfl
  case tcquarterframe time => exact .two 0xF1 _ (by decide) (low_lt _) rfl
  case songselect song => exact .two 0xF3 _ (by decide) (low_lt _) rfl
  case songposition pos => exact .three 0xF2 _ _ (by decide) (low_lt _) (low_lt _) rfl
  case clock => exact .one 0xF8 (by decide) rfl
  case tick => exact .one 0xF9 (by decide) rfl
  case start => exact .one 0xFA (by decide) rfl
  case resume => exact .one 0xFB (by decide) rfl
  case stop => exact .one 0xFC (by decide) rfl
  case activesense => exact .one 0xFE (by decide) rfl
  case reset => exact .one 0xFF (by decide) rfl
  case tunerequest => exact .one 0xF6 (by decide) rfl

theorem calls_of_input (callbacks : MidiCallbacks) {state : MidiInputState}
    (hstate : state ≠ .sysexMessage) {cnt : BitVec 16} {a b c : Byte}
    {func : Option (MidiFunc × List Byte)} (hcnt : cnt.toNat ≤ 3)
    (hinput : inputFunc cnt a b c = func) :
    midiInputCallbacks callbacks state cnt a b c =
      callbacks.report (callbacks.registered func) cnt a b c := by
  unfold midiInputCallbacks
  rw [if_neg hstate, hinput, if_neg (by omega)]

theorem not_realtime (b : Byte)
    (h : midiPacketLength b = .two ∨ midiPacketLength b = .three) : midiIsRealtime b = false := by
  revert b
  decide +kernel

theorem heard_send {func : Option (MidiFunc × List Byte)} {s : MidiSend} (h : s.Short func)
    (callbacks : MidiCallbacks) (d : MidiDevice) (houtside : d.inputState ≠ .sysexMessage) :
    d.heard callbacks s.bytes =
        callbacks.report (callbacks.registered func) s.cnt s.byte0 s.byte1 s.byte2 ∧
      (d.after callbacks s.bytes).inputState ≠ .sysexMessage := by
  have hstate := state_ne (midiPacketLength s.byte0)
  cases h with
  | one byte0 hlength hinput =>
    have hcnt : (1 : BitVec 16).toNat ≤ 3 := by decide
    by_cases hreal : midiIsRealtime byte0
    · have hone : MidiInputState.oneByteMessage ≠ .sysexMessage := by decide
      change d.heard callbacks [byte0] = _ ∧ (d.after callbacks [byte0]).inputState ≠ _
      rw [MidiDevice.heard_cons, MidiDevice.after_cons,
        MidiDevice.processByte_realtime callbacks d hreal]
      exact ⟨(List.append_nil _).trans (calls_of_input callbacks hone hcnt hinput), houtside⟩
    · have hvalid : (WireMessage.short byte0 []).Valid :=
        ⟨Bool.eq_false_iff.mpr hreal, by rw [hlength]; rfl, by simp⟩
      obtain ⟨hheard, hready⟩ := MidiDevice.heard_short callbacks houtside hvalid
      exact ⟨hheard.trans (calls_of_input callbacks hstate hcnt hinput), hready.atRest.outside⟩
  | two byte0 a hlength ha hinput =>
    have hcnt : (2 : BitVec 16).toNat ≤ 3 := by decide
    have hvalid : (WireMessage.short byte0 [a]).Valid :=
      ⟨not_realtime byte0 (.inl hlength), by rw [hlength]; rfl, by simpa using ha⟩
    obtain ⟨hheard, hready⟩ := MidiDevice.heard_short callbacks houtside hvalid
    exact ⟨hheard.trans (calls_of_input callbacks hstate hcnt hinput), hready.atRest.outside⟩
  | three byte0 a b hlength ha hb hinput =>
    have hcnt : (3 : BitVec 16).toNat ≤ 3 := by decide
    have hvalid : (WireMessage.short byte0 [a, b]).Valid :=
      ⟨not_realtime byte0 (.inr hlength), by rw [hlength]; rfl, by simpa using ⟨ha, hb⟩⟩
    obtain ⟨hheard, hready⟩ := MidiDevice.heard_short callbacks houtside hvalid
    exact ⟨hheard.trans (calls_of_input callbacks hstate hcnt hinput), hready.atRest.outside⟩

def MidiOut.bytes (out : MidiOut) : List Byte :=
  out.sends.flatMap MidiSend.bytes

theorem sysex_bytes_undefined {data : List Byte} (h : (WireMessage.sysex data).Valid) :
    ∀ b ∈ sysexBegin :: data ++ [sysexEnd], midiPacketLength b = .undefined := by
  have hlow : ∀ b : Byte, b < 0x80 → midiPacketLength b = .undefined := by
    decide +kernel
  intro b hb
  rcases List.mem_append.mp hb with hb | hb
  · rcases List.mem_cons.mp hb with rfl | hb
    · decide
    · exact hlow b (h.2 b hb)
  · rw [List.mem_singleton.mp hb]
    decide

theorem whole_of_complete (out : MidiOut) (h : out.Complete) : ∀ s ∈ out.sends, s.Whole := by
  by_cases harray : ∃ bytes, out = .array bytes
  · obtain ⟨bytes, rfl⟩ := harray
    obtain ⟨data, rfl, hvalid⟩ := h
    refine (midiSendArray_spec _ (sysex_bytes_undefined hvalid) (fun b hb => ?_)).1
    rw [List.getLast?_concat] at hb
    exact (Option.some.inj hb).symm
  · intro s hs
    have hshort := short_of_sends out h (fun bytes hc => harray ⟨bytes, hc⟩) s hs
    cases hshort with
    | one byte0 hlength hinput => exact .inl ⟨by rw [hlength]; decide, by rw [hlength]; rfl⟩
    | two byte0 a hlength ha hinput => exact .inl ⟨by rw [hlength]; decide, by rw [hlength]; rfl⟩
    | three byte0 a b hlength ha hb hinput =>
      exact .inl ⟨by rw [hlength]; decide, by rw [hlength]; rfl⟩

theorem heard_out (callbacks : MidiCallbacks) (out : MidiOut) (h : out.Complete) (d : MidiDevice)
    (houtside : d.inputState ≠ .sysexMessage) :
    (d.heard callbacks out.bytes).map MidiCall.counted =
        (out.calls callbacks).map MidiCall.counted ∧
      (d.after callbacks out.bytes).inputState ≠ .sysexMessage := by
  by_cases harray : ∃ bytes, out = .array bytes
  · obtain ⟨bytes, rfl⟩ := harray
    obtain ⟨data, rfl, hvalid⟩ := h
    have hbytes : (MidiOut.array (sysexBegin :: data ++ [sysexEnd])).bytes =
        sysexBegin :: data ++ [sysexEnd] := by
      refine (midiSendArray_spec _ (sysex_bytes_undefined hvalid) (fun b hb => ?_)).2
      rw [List.getLast?_concat] at hb
      exact (Option.some.inj hb).symm
    obtain ⟨hheard, hafter⟩ := MidiDevice.heard_sysex callbacks d hvalid
    rw [hbytes]
    refine ⟨hheard, ?_⟩
    rw [hafter]
    decide
  · have hout := fun bytes hc => harray ⟨bytes, hc⟩
    have hshort := short_of_sends out h hout
    have hcalls : out.calls callbacks = out.sends.flatMap (fun s =>
        callbacks.report (callbacks.registered out.func) s.cnt s.byte0 s.byte1 s.byte2) := by
      cases out <;> first | rfl | exact absurd rfl (hout _)
    rw [hcalls]
    unfold MidiOut.bytes
    generalize out.sends = sends at hshort
    induction sends generalizing d with
    | nil => exact ⟨rfl, houtside⟩
    | cons s sends ih =>
      obtain ⟨hheard, hafter⟩ := heard_send (hshort s List.mem_cons_self) callbacks d houtside
      obtain ⟨hrest, hend⟩ :=
        ih (d.after callbacks s.bytes) hafter (fun t ht => hshort t (List.mem_cons_of_mem s ht))
      rw [List.flatMap_cons, List.flatMap_cons, MidiDevice.heard_append, MidiDevice.after_append,
        List.map_append, List.map_append, hheard, hrest]
      exact ⟨rfl, hend⟩

theorem heard_outs (callbacks : MidiCallbacks) (outs : List MidiOut)
    (h : ∀ out ∈ outs, out.Complete) : ∀ d : MidiDevice, d.inputState ≠ .sysexMessage →
      (d.heard callbacks (outs.flatMap MidiOut.bytes)).map MidiCall.counted =
        (outs.flatMap (MidiOut.calls callbacks)).map MidiCall.counted := by
  induction outs with
  | nil =>
    intro d _
    rfl
  | cons out outs ih =>
    intro d houtside
    obtain ⟨hheard, hafter⟩ := heard_out callbacks out (h out List.mem_cons_self) d houtside
    rw [List.flatMap_cons, List.flatMap_cons, MidiDevice.heard_append, List.map_append,
      List.map_append, hheard, ih (fun o ho => h o (List.mem_cons_of_mem out ho)) _ hafter]

/-! ### From end to end -/

/-- The packets of what is sent. -/
def packetsOf (event : Byte → Byte) (outs : List MidiOut) : List MidiPacket :=
  (outs.flatMap MidiOut.sends).filterMap (usbSendFunc event)

theorem packetsOf_bytes (event : Byte → Byte)
    (hevent : ∀ a ∈ sysexCommands, ∀ b ∈ sysexCommands, event a = event b → a = b)
    (outs : List MidiOut) (h : ∀ out ∈ outs, out.Complete) :
    (packetsOf event outs).flatMap (MidiPacket.input event) = outs.flatMap MidiOut.bytes := by
  have hwhole : ∀ s ∈ outs.flatMap MidiOut.sends, s.Whole := by
    intro s hs
    obtain ⟨out, hout, hs⟩ := List.mem_flatMap.mp hs
    exact whole_of_complete out (h out hout) s hs
  have hbytes : outs.flatMap MidiOut.bytes =
      (outs.flatMap MidiOut.sends).flatMap MidiSend.bytes := by
    rw [List.flatMap_assoc]
    rfl
  rw [hbytes]
  unfold packetsOf
  generalize outs.flatMap MidiOut.sends = sends at hwhole
  induction sends with
  | nil => rfl
  | cons s sends ih =>
    obtain ⟨packet, hpacket, hinput⟩ :=
      input_usbSendFunc event hevent s (hwhole s List.mem_cons_self)
    rw [List.filterMap_cons, hpacket, List.flatMap_cons, List.flatMap_cons, hinput,
      ih (fun t ht => hwhole t (List.mem_cons_of_mem s ht))]

theorem process_batches {n : Nat} [NeZero n] (callbacks : MidiCallbacks) (event : Byte → Byte)
    (batches : List (List MidiPacket))
    (hfit : ∀ batch ∈ batches, (batch.flatMap (MidiPacket.input event)).length < n) :
    ∀ p : MidiPort n, p.queue.contents = [] →
      (trace (MidiPort.process event callbacks) p batches).flatten =
        p.device.heard callbacks (batches.flatten.flatMap (MidiPacket.input event)) := by
  induction batches with
  | nil =>
    intro p _
    rfl
  | cons batch batches ih =>
    intro p hempty
    obtain ⟨bytes, hbytes, hcalls, hdevice, hqueue⟩ :=
      MidiPort.process_spec callbacks event p batch
    have hroom := hfit batch List.mem_cons_self
    rw [hempty, List.nil_append, List.take_of_length_le (by omega)] at hbytes
    rw [trace, List.flatten_cons, hcalls, List.flatten_cons, List.flatMap_append, hbytes,
      MidiDevice.heard_append, ih (fun b hb => hfit b (List.mem_cons_of_mem batch hb)) _ hqueue,
      hdevice, hbytes]

/-- Whole messages that are sent over USB, in whatever packets at whichever call of
    `midi_device_process`, are the calls they should be, in order, as long as a call finds no
    more than the queue holds. -/
theorem midi_end_to_end {n : Nat} [NeZero n] (callbacks : MidiCallbacks) (event : Byte → Byte)
    (hevent : ∀ a ∈ sysexCommands, ∀ b ∈ sysexCommands, event a = event b → a = b)
    (p : MidiPort n) (hempty : p.queue.contents = []) (hrest : p.device.inputState ≠ .sysexMessage)
    (outs : List MidiOut) (hcomplete : ∀ out ∈ outs, out.Complete)
    (batches : List (List MidiPacket)) (hbatches : batches.flatten = packetsOf event outs)
    (hfit : ∀ batch ∈ batches, (batch.flatMap (MidiPacket.input event)).length < n) :
    (trace (MidiPort.process event callbacks) p batches).flatten.map MidiCall.counted =
      (outs.flatMap (MidiOut.calls callbacks)).map MidiCall.counted := by
  rw [process_batches callbacks event batches hfit p hempty, hbatches,
    packetsOf_bytes event hevent outs hcomplete]
  exact heard_outs callbacks outs hcomplete p.device hrest

/-- A note and a SysEx message. -/
theorem midi_end_to_end_two :
    (trace (MidiPort.process (· >>> 4) .setup)
        ({ device := .init 0 0 0, queue := .init (fun _ => 0) } : MidiPort 16)
        [packetsOf (· >>> 4) [.noteon 0 60 64, .array [0xF0, 0x01, 0xF7]]]).flatten.map
          MidiCall.counted =
      ([.noteon 0 60 64, .array [0xF0, 0x01, 0xF7]].flatMap (MidiOut.calls .setup)).map
        MidiCall.counted := by
  refine midi_end_to_end .setup (· >>> 4) (by decide) _ (by decide) (by decide) _ ?_ _
    (List.append_nil _) (by decide)
  intro out hout
  rcases List.mem_cons.mp hout with rfl | hout
  · trivial
  · rw [List.mem_singleton.mp hout]
    exact ⟨[0x01], rfl, by decide, by decide⟩

/-! ### The MIDI keys -/

/-- The call that sends a message. -/
def MidiMessage.out : MidiMessage → MidiOut
  | .noteOn channel note velocity =>
    .noteon (channel.setWidth 8) (note.setWidth 8) (velocity.setWidth 8)
  | .noteOff channel note velocity =>
    .noteoff (channel.setWidth 8) (note.setWidth 8) (velocity.setWidth 8)
  | .cc channel number value => .cc (channel.setWidth 8) (number.setWidth 8) (value.setWidth 8)
  | .pitchbend channel amount => .pitchbend (channel.setWidth 8) (BitVec.ofInt 16 amount)

def MidiMessage.InRange : MidiMessage → Prop
  | .pitchbend _ amount => -0x2000 ≤ amount ∧ amount ≤ 0x1FFF
  | _ => True

/-- What a call tells of a message. -/
def MidiCall.message : MidiCall → Option MidiMessage
  | .input .noteon [channel, note, velocity] =>
    some (.noteOn (channel.setWidth 4) (note.setWidth 7) (velocity.setWidth 7))
  | .input .noteoff [channel, note, velocity] =>
    some (.noteOff (channel.setWidth 4) (note.setWidth 7) (velocity.setWidth 7))
  | .input .cc [channel, number, value] =>
    some (.cc (channel.setWidth 4) (number.setWidth 7) (value.setWidth 7))
  | .input .pitchbend [channel, low, high] =>
    some (.pitchbend (channel.setWidth 4) ((low.toNat + high.toNat * 128 : Int) - 0x2000))
  | _ => none

theorem message_counted (call : MidiCall) : call.counted.message = call.message := by
  cases call <;> rfl

theorem channel_back (channel : BitVec 4) :
    (channel.setWidth 8 &&& 0x0F : Byte).setWidth 4 = channel := by
  revert channel
  decide +kernel

theorem value_back (value : BitVec 7) :
    (value.setWidth 8 &&& 0x7F : Byte).setWidth 7 = value := by
  revert value
  decide +kernel

theorem bend_back (amount : Int) (hlow : -0x2000 ≤ amount) (hhigh : amount ≤ 0x1FFF) :
    ((((bendAmount (BitVec.ofInt 16 amount)).setWidth 8 &&& 0x7F : Byte).toNat +
      ((bendAmount (BitVec.ofInt 16 amount) >>> 7).setWidth 8 &&& 0x7F : Byte).toNat * 128 : Int) -
        0x2000) = amount := by
  have hint : (BitVec.ofInt 16 amount).toInt = amount := by
    rw [BitVec.toInt_ofInt, Int.bmod_eq_of_le (by omega) (by omega)]
  have hbend : (bendAmount (BitVec.ofInt 16 amount)).toNat = (amount + 0x2000).toNat := by
    unfold bendAmount
    rw [if_neg (by omega), if_neg (by omega), BitVec.toNat_add, BitVec.toNat_ofInt]
    have hconst : (0x2000 : BitVec 16).toNat = 0x2000 := rfl
    rw [hconst]
    omega
  have hmask : ∀ x : Nat, x &&& 127 = x % 128 := fun x => Nat.and_two_pow_sub_one_eq_mod x 7
  have hseven : (0x7F : Byte).toNat = 127 := rfl
  rw [BitVec.toNat_and, BitVec.toNat_and, BitVec.toNat_setWidth, BitVec.toNat_setWidth,
    BitVec.toNat_ushiftRight, hbend, hseven, hmask, hmask, Nat.shiftRight_eq_div_pow]
  omega

/-- The four functions that the MIDI keys need. -/
structure MidiCallbacks.Hears (callbacks : MidiCallbacks) : Prop where
  cc : callbacks.input .cc
  noteon : callbacks.input .noteon
  noteoff : callbacks.input .noteoff
  pitchbend : callbacks.input .pitchbend

theorem report_message {callbacks : MidiCallbacks} {func : MidiFunc} {args : List Byte}
    {m : MidiMessage} (hfunc : callbacks.input func)
    (hmessage : (MidiCall.input func args).message = some m) (cnt : BitVec 16) (a b c : Byte) :
    (callbacks.report (callbacks.registered (some (func, args))) cnt a b c ++ []).filterMap
      MidiCall.message = [m] := by
  have hregistered : callbacks.registered (some (func, args)) = [.input func args] := by
    simp [MidiCallbacks.registered, hfunc]
  have hcatch : (if callbacks.catchall then [MidiCall.catchall cnt a b c] else []).filterMap
      MidiCall.message = [] := by
    split <;> rfl
  unfold MidiCallbacks.report
  rw [hregistered, List.append_nil, List.filterMap_append, hcatch, List.append_nil]
  simp [hmessage]

theorem message_out {callbacks : MidiCallbacks} (h : callbacks.Hears) (m : MidiMessage)
    (hrange : m.InRange) : (m.out.calls callbacks).filterMap MidiCall.message = [m] := by
  cases m with
  | noteOn channel note velocity =>
    refine report_message h.noteon ?_ _ _ _ _
    rw [MidiCall.message, channel_back, value_back, value_back]
  | noteOff channel note velocity =>
    refine report_message h.noteoff ?_ _ _ _ _
    rw [MidiCall.message, channel_back, value_back, value_back]
  | cc channel number value =>
    refine report_message h.cc ?_ _ _ _ _
    rw [MidiCall.message, channel_back, value_back, value_back]
  | pitchbend channel amount =>
    refine report_message h.pitchbend ?_ _ _ _ _
    rw [MidiCall.message, channel_back, bend_back amount hrange.1 hrange.2]

theorem out_complete (m : MidiMessage) : m.out.Complete := by
  cases m <;> trivial

theorem control_inRange (keycode : Keycode) (pressed : Bool) (channel : BitVec 4)
    (messages : List MidiMessage) (h : Midi.control? keycode pressed channel = some messages) :
    ∀ message ∈ messages, message.InRange := by
  unfold Midi.control? at h
  split at h
  · rw [← Option.some.inj h]
    cases pressed <;> simp [MidiMessage.InRange]
  · split at h
    · rw [← Option.some.inj h]
      cases pressed <;> simp [MidiMessage.InRange]
    · split at h
      · rw [← Option.some.inj h]
        cases pressed <;> simp [MidiMessage.InRange]
      · obtain ⟨number, -, rfl⟩ := Option.map_eq_some_iff.mp h
        simp [MidiMessage.InRange]

theorem processMidi_inRange (keycode : Keycode) (pressed : Bool) (m : Midi) :
    ∀ message ∈ (m.processMidi keycode pressed).2.2, message.InRange := by
  unfold Midi.processMidi
  cases toneOf keycode with
  | some tone =>
    cases pressed with
    | true => simp [Midi.pressTone, midiSendNoteon, MidiMessage.InRange]
    | false =>
      simp only [Bool.false_eq_true, if_false, Midi.releaseTone]
      split <;> simp [midiSendNoteoff, MidiMessage.InRange]
  | none =>
    dsimp only
    cases Midi.setting? keycode with
    | some change => simp
    | none =>
      dsimp only
      by_cases hmod : keycode = miMod
      · simp [hmod]
      · rw [if_neg hmod]
        cases hcontrol : Midi.control? keycode pressed m.config.channel with
        | none => simp
        | some messages => exact control_inRange keycode pressed _ messages hcontrol

theorem log_inRange (events : List (Keycode × Bool)) :
    ∀ message ∈ (run MidiRun.step MidiRun.start events).log, message.InRange := by
  refine run_invariant MidiRun.step (fun s => ∀ message ∈ s.log, message.InRange)
    (fun s event h => ?_) events MidiRun.start (fun message hmem => absurd hmem List.not_mem_nil)
  have hlog : (s.step event).log = s.log ++ (s.midi.processMidi event.1 event.2).2.2 := by
    unfold MidiRun.step
    cases toneOf event.1 <;> rfl
  rw [hlog]
  intro message hmem
  rcases List.mem_append.mp hmem with hmem | hmem
  · exact h message hmem
  · exact processMidi_inRange event.1 event.2 s.midi message hmem

/-- Whatever is played on the MIDI keys, the calls at the other end of the wire tell the very
    messages, in order. -/
theorem midi_keys_end_to_end {n : Nat} [NeZero n] (callbacks : MidiCallbacks)
    (hhears : callbacks.Hears) (event : Byte → Byte)
    (hevent : ∀ a ∈ sysexCommands, ∀ b ∈ sysexCommands, event a = event b → a = b)
    (p : MidiPort n) (hempty : p.queue.contents = []) (hrest : p.device.inputState ≠ .sysexMessage)
    (events : List (Keycode × Bool)) (batches : List (List MidiPacket))
    (hbatches : batches.flatten =
      packetsOf event ((run MidiRun.step MidiRun.start events).log.map MidiMessage.out))
    (hfit : ∀ batch ∈ batches, (batch.flatMap (MidiPacket.input event)).length < n) :
    (trace (MidiPort.process event callbacks) p batches).flatten.filterMap MidiCall.message =
      (run MidiRun.step MidiRun.start events).log := by
  have hrange := log_inRange events
  generalize (run MidiRun.step MidiRun.start events).log = log at hrange hbatches
  have hcomplete : ∀ out ∈ log.map MidiMessage.out, out.Complete := by
    intro out hout
    obtain ⟨m, -, rfl⟩ := List.mem_map.mp hout
    exact out_complete m
  have hcounted : ∀ calls : List MidiCall,
      (calls.map MidiCall.counted).filterMap MidiCall.message =
        calls.filterMap MidiCall.message := by
    intro calls
    rw [List.filterMap_map]
    exact List.filterMap_congr (fun call _ => message_counted call)
  have hheard := heard_outs callbacks _ hcomplete p.device hrest
  rw [process_batches callbacks event batches hfit p hempty, hbatches,
    packetsOf_bytes event hevent _ hcomplete, ← hcounted, hheard, hcounted]
  -- message by message
  clear hheard hcomplete hbatches
  induction log with
  | nil => rfl
  | cons m log ih =>
    rw [List.map_cons, List.flatMap_cons, List.filterMap_append,
      message_out hhears m (hrange m List.mem_cons_self),
      ih (fun m' hm' => hrange m' (List.mem_cons_of_mem m hm'))]
    rfl

/-- A tone key is pressed and released. -/
theorem midi_keys_end_to_end_tone :
    (trace (MidiPort.process (· >>> 4) { MidiCallbacks.setup with input := fun _ => true })
        ({ device := .init 0 0 0, queue := .init (fun _ => 0) } : MidiPort 16)
        [packetsOf (· >>> 4) ((run MidiRun.step MidiRun.start
          [(midiToneMin, true), (midiToneMin, false)]).log.map MidiMessage.out)]).flatten.filterMap
            MidiCall.message =
      (run MidiRun.step MidiRun.start [(midiToneMin, true), (midiToneMin, false)]).log :=
  midi_keys_end_to_end { MidiCallbacks.setup with input := fun _ => true } ⟨rfl, rfl, rfl, rfl⟩
    (· >>> 4) (by decide) _ (by decide) (by decide) _ _ (List.append_nil _) (by decide +kernel)

end K530
