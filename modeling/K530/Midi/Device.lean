import K530.Core.Keycode
import K530.Lib.Checked
import K530.Lib.Ring

/-!
# MIDI on the Wire

`midi.c`, `midi_device.c`, `bytequeue.c`, `sysex_tools.c` and `qmk_midi.c`: how a message becomes
packets on the USB bus, and how what comes from there becomes calls of the functions that are
registered.

A packet has up to three bytes and an event, which tells how many where the first byte does not.
What comes in goes through a queue to a parser of bytes. A status byte begins a message, and
without one the next message has the status of the last. A realtime byte may come anywhere. A
SysEx message is handed over in parts of three bytes, as soon as they are there.

The data of a SysEx message has no highest bits. `sysex_encode` makes eight bytes of seven: the
first of them has the highest bits, that of the first byte below the place that has to stay zero,
and the others follow without theirs. What is left at the end is a shorter section. An index into
the encoded data has sixteen bits, and an access outside a buffer is a fault.

Functions that are registered are told by whether they are there. `MIDI_EVENT`, for the only
cable there is, is a parameter. What the functions do, and what comes in while they do it, are
left out.

## Main definitions

* `sysexEncode`, `sysexDecode`: The highest bits of SysEx data.
-/

namespace K530

open Checked

/-! ### SysEx data -/

def sysexEncodedLength (decodedLength : Nat) : Nat :=
  if decodedLength % 7 ≠ 0 then (decodedLength / 7 * 8 + decodedLength % 7 + 1) % 2 ^ 16
  else decodedLength / 7 * 8 % 2 ^ 16

def sysexDecodedLength (encodedLength : Nat) : Nat :=
  if encodedLength % 8 ≠ 0 then encodedLength / 8 * 7 + encodedLength % 8 - 1
  else encodedLength / 8 * 7

section

variable {size : Nat}

/-- The body of the two loops of `sysex_encode`. -/
def encodeSection (source : List Byte) (encodedMsbIdx inputStartIdx count : Nat)
    (encoded : Vector Byte size) : Option (Vector Byte size) :=
  (store encoded encodedMsbIdx 0).bind (loop (fun j encoded =>
    (source[inputStartIdx + j]?).bind (fun current =>
      (fetch encoded encodedMsbIdx).bind (fun msb =>
        (store encoded encodedMsbIdx (msb ||| (0x80 &&& current) >>> (1 + j))).bind (fun encoded =>
          store encoded (encodedMsbIdx + 1 + j) (0x7F &&& current))))) count)

def sysexEncode (source : List Byte) (encoded : Vector Byte size) :
    Option (Nat × Vector Byte size) :=
  (loop (fun i => encodeSection source (i * 8 % 2 ^ 16) (i * 7) 7) (source.length / 7)
    encoded).bind (fun encoded =>
      if source.length % 7 ≠ 0 then
        (encodeSection source (source.length / 7 * 8 % 2 ^ 16) (source.length / 7 * 7)
          (source.length % 7) encoded).map (fun encoded =>
            ((source.length / 7 * 8 % 2 ^ 16 + source.length % 7 + 1) % 2 ^ 16, encoded))
      else some (source.length / 7 * 8 % 2 ^ 16, encoded))

/-- The body of the two loops of `sysex_decode`. -/
def decodeSection (source : List Byte) (encodedMsbIdx outputStartIndex count : Nat)
    (decoded : Vector Byte size) : Option (Vector Byte size) :=
  loop (fun j decoded =>
    (source[encodedMsbIdx + j + 1]?).bind (fun current =>
      (store decoded (outputStartIndex + j) (0x7F &&& current)).bind (fun decoded =>
        (source[encodedMsbIdx]?).bind (fun msb =>
          (fetch decoded (outputStartIndex + j)).bind (fun low =>
            store decoded (outputStartIndex + j) (low ||| 0x80 &&& msb <<< (1 + j)))))))
    count decoded

def sysexDecode (source : List Byte) (decoded : Vector Byte size) :
    Option (Nat × Vector Byte size) :=
  if source.length < 2 then some (0, decoded)
  else
    (loop (fun i => decodeSection source (i * 8) (i * 7) 7) (source.length / 8) decoded).bind
      (fun decoded =>
        if source.length % 8 ≠ 0 then
          (decodeSection source (source.length / 8 * 8) (source.length / 8 * 7)
            (source.length % 8 - 1) decoded).map
              (fun decoded => (source.length / 8 * 7 + source.length % 8 - 1, decoded))
        else some (source.length / 8 * 7, decoded))

end

/-! ### Bytes -/

inductive MidiPacketLength
  | undefined
  | one
  | two
  | three
  deriving DecidableEq

def sysexBegin : Byte := 0xF0
def sysexEnd : Byte := 0xF7

def midiIsStatusbyte (byte : Byte) : Bool := byte &&& 0x80 != 0

def midiIsRealtime (byte : Byte) : Bool := decide (0xF8 ≤ byte)

def midiPacketLength (status : Byte) : MidiPacketLength :=
  let kind := status &&& 0xF0
  if kind = 0xB0 ∨ kind = 0x90 ∨ kind = 0x80 ∨ kind = 0xA0 ∨ kind = 0xE0 then .three
  else if kind = 0xC0 ∨ kind = 0xD0 ∨ kind = 0xF3 then .two
  else if kind = 0xF0 then
    if status = 0xF8 ∨ status = 0xF9 ∨ status = 0xFA ∨ status = 0xFB ∨ status = 0xFC ∨
        status = 0xFE ∨ status = 0xFF ∨ status = 0xF6 then .one
    else if status = 0xF2 then .three
    else if status = 0xF1 ∨ status = 0xF3 then .two
    else .undefined
  else .undefined

/-! ### The queue -/

/-- `byteQueue_t`, with its data. -/
structure ByteQueue (n : Nat) where
  data : Fin n → Byte
  start : Fin n
  stop : Fin n

namespace ByteQueue

variable {n : Nat} [NeZero n]

def init (data : Fin n → Byte) : ByteQueue n :=
  { data, start := Fin.ofNat n 0, stop := Fin.ofNat n 0 }

def enqueue (item : Byte) (q : ByteQueue n) : Bool × ByteQueue n :=
  if q.stop + 1 = q.start then (false, q)
  else (true, { q with data := Function.update q.data q.stop item, stop := q.stop + 1 })

def length (q : ByteQueue n) : Nat :=
  if q.start.val ≤ q.stop.val then q.stop.val - q.start.val else n - q.start.val + q.stop.val

def get (index : Nat) (q : ByteQueue n) : Byte := q.data (q.start + Fin.ofNat n index)

def remove (numToRemove : Nat) (q : ByteQueue n) : ByteQueue n :=
  { q with start := q.start + Fin.ofNat n numToRemove }

def contents (q : ByteQueue n) : List Byte :=
  Ring.contents (fun p => some (q.data p)) q.start q.stop

end ByteQueue

/-! ### Functions that are registered -/

inductive MidiFunc
  | cc
  | noteon
  | noteoff
  | aftertouch
  | pitchbend
  | songposition
  | progchange
  | chanpressure
  | songselect
  | tcQuarterframe
  | realtime
  | tunerequest
  deriving DecidableEq

structure MidiCallbacks where
  input : MidiFunc → Bool
  sysex : Bool
  fallthrough : Bool
  catchall : Bool

/-- Those of `setup_midi`. -/
def MidiCallbacks.setup : MidiCallbacks :=
  { input := fun func => decide (func = .cc), sysex := false, fallthrough := true,
    catchall := false }

inductive MidiCall
  | input (func : MidiFunc) (args : List Byte)
  | sysex (start : Nat) (data : List Byte)
  | fallthrough (cnt : BitVec 16) (byte0 byte1 byte2 : Byte)
  | catchall (cnt : BitVec 16) (byte0 byte1 byte2 : Byte)
  deriving DecidableEq

def threeByteFunc (byte0 : Byte) : Option MidiFunc :=
  if byte0 &&& 0xF0 = 0xB0 then some .cc
  else if byte0 &&& 0xF0 = 0x90 then some .noteon
  else if byte0 &&& 0xF0 = 0x80 then some .noteoff
  else if byte0 &&& 0xF0 = 0xA0 then some .aftertouch
  else if byte0 &&& 0xF0 = 0xE0 then some .pitchbend
  else if byte0 = 0xF2 then some .songposition
  else none

def twoByteFunc (byte0 : Byte) : Option MidiFunc :=
  if byte0 &&& 0xF0 = 0xC0 then some .progchange
  else if byte0 &&& 0xF0 = 0xD0 then some .chanpressure
  else if byte0 = 0xF3 then some .songselect
  else if byte0 = 0xF1 then some .tcQuarterframe
  else none

def oneByteFunc (byte0 : Byte) : Option MidiFunc :=
  if midiIsRealtime byte0 then some .realtime
  else if byte0 = 0xF6 then some .tunerequest
  else none

def inputFunc (cnt : BitVec 16) (byte0 byte1 byte2 : Byte) : Option (MidiFunc × List Byte) :=
  if cnt = 3 then
    (threeByteFunc byte0).map (fun func =>
      (func, [if byte0 = 0xF2 then byte0 else byte0 &&& 0x0F, byte1, byte2]))
  else if cnt = 2 then
    (twoByteFunc byte0).map (fun func =>
      (func, [if byte0 = 0xF3 ∨ byte0 = 0xF1 then byte0 else byte0 &&& 0x0F, byte1]))
  else if cnt = 1 then (oneByteFunc byte0).map (fun func => (func, [byte0]))
  else none

/-! ### The parser -/

/-- `input_state_t` -/
inductive MidiInputState
  | idle
  | oneByteMessage
  | twoByteMessage
  | threeByteMessage
  | sysexMessage
  deriving DecidableEq

/-- What `MidiDevice` has of a message that comes in. -/
structure MidiDevice where
  inputState : MidiInputState
  /-- `input_buffer` -/
  byte0 : Byte
  byte1 : Byte
  byte2 : Byte
  inputCount : BitVec 16

/-- Where the part of a SysEx message begins that comes to so many bytes. -/
def sysexStart (cnt : BitVec 16) : Nat := (cnt.toNat - 1) / 3 * 3

def MidiCallbacks.registered (callbacks : MidiCallbacks) (func : Option (MidiFunc × List Byte)) :
    List MidiCall :=
  (func.toList.filter (fun f => callbacks.input f.1)).map (fun f => .input f.1 f.2)

/-- The end of `midi_input_callbacks`: the functions for any message. -/
def MidiCallbacks.report (callbacks : MidiCallbacks) (called : List MidiCall) (cnt : BitVec 16)
    (byte0 byte1 byte2 : Byte) : List MidiCall :=
  called ++
    (if called.isEmpty && callbacks.fallthrough then [.fallthrough cnt byte0 byte1 byte2]
      else []) ++
    if callbacks.catchall then [.catchall cnt byte0 byte1 byte2] else []

def midiInputCallbacks (callbacks : MidiCallbacks) (state : MidiInputState) (cnt : BitVec 16)
    (byte0 byte1 byte2 : Byte) : List MidiCall :=
  if state = .sysexMessage then
    callbacks.report
      (if callbacks.sysex then
        [.sysex (sysexStart cnt) ([byte0, byte1, byte2].take (cnt.toNat - sysexStart cnt))]
      else []) cnt byte0 byte1 byte2
  else
    callbacks.report (callbacks.registered (inputFunc cnt byte0 byte1 byte2))
      (if 3 < cnt.toNat then 0 else cnt) byte0 byte1 byte2

namespace MidiDevice

/-- `midi_device_init`, with what is in the buffer. -/
def init (byte0 byte1 byte2 : Byte) : MidiDevice :=
  { inputState := .idle, byte0, byte1, byte2, inputCount := 0 }

/-- `input_buffer[input_count % 3] = input`, and one is added to the number. -/
def put (input : Byte) (d : MidiDevice) : MidiDevice :=
  { d with
    byte0 := if d.inputCount.toNat % 3 = 0 then input else d.byte0
    byte1 := if d.inputCount.toNat % 3 = 1 then input else d.byte1
    byte2 := if d.inputCount.toNat % 3 = 2 then input else d.byte2
    inputCount := d.inputCount + 1 }

variable (callbacks : MidiCallbacks)

def calls (byte2 : Byte) (d : MidiDevice) : List MidiCall :=
  midiInputCallbacks callbacks d.inputState d.inputCount d.byte0 d.byte1 byte2

def storeStatus (input : Byte) (d : MidiDevice) : MidiDevice :=
  if d.inputState ≠ .sysexMessage then { d with byte0 := input, inputCount := 1 } else d

/-- `midi_process_byte` for a status byte. -/
def processStatus (input : Byte) (d : MidiDevice) : MidiDevice × List MidiCall :=
  match midiPacketLength input with
  | .one =>
    ({ d.storeStatus input with inputState := .idle },
      midiInputCallbacks callbacks .oneByteMessage 1 input 0 0)
  | .two => ({ d.storeStatus input with inputState := .twoByteMessage }, [])
  | .three => ({ d.storeStatus input with inputState := .threeByteMessage }, [])
  | .undefined =>
    if input = sysexBegin then
      ({ d.storeStatus input with
          inputState := .sysexMessage, byte0 := input, inputCount := 1 }, [])
    else if input = sysexEnd then
      let d := (d.storeStatus input).put input
      ({ d with inputState := .idle }, d.calls callbacks d.byte2)
    else ({ d.storeStatus input with inputState := .idle, inputCount := 0 }, [])

def keepStatus (d : MidiDevice) : MidiDevice :=
  if d.inputState ≠ .sysexMessage then { d with inputCount := 1 } else d

/-- `midi_process_byte` for a byte of data. -/
def processData (input : Byte) (d : MidiDevice) : MidiDevice × List MidiCall :=
  if d.inputState = .idle then (d, [])
  else if d.inputCount.toNat % 3 = 2 then
    ((d.put input).keepStatus, (d.put input).calls callbacks (d.put input).byte2)
  else if d.inputCount.toNat % 3 = 1 ∧ d.inputState = .twoByteMessage then
    ((d.put input).keepStatus, (d.put input).calls callbacks 0)
  else (d.put input, [])

/-- `midi_process_byte` -/
def processByte (d : MidiDevice) (input : Byte) : MidiDevice × List MidiCall :=
  if midiIsRealtime input then (d, midiInputCallbacks callbacks .oneByteMessage 1 input 0 0)
  else if midiIsStatusbyte input then d.processStatus callbacks input
  else d.processData callbacks input

end MidiDevice

/-! ### Packets -/

/-- `MIDI_EventPacket_t` -/
structure MidiPacket where
  event : Byte
  data1 : Byte
  data2 : Byte
  data3 : Byte

/-- The arguments of `send_func`. -/
structure MidiSend where
  cnt : BitVec 16
  byte0 : Byte
  byte1 : Byte
  byte2 : Byte

variable (event : Byte → Byte)

/-- The command of the event that `usb_send_func` sends. -/
def MidiSend.command (s : MidiSend) : Option Byte :=
  if midiPacketLength s.byte0 = .undefined then
    if s.cnt = 3 then some (if s.byte2 = sysexEnd then 0x70 else 0x40)
    else if s.cnt = 2 then some (if s.byte1 = sysexEnd then 0x60 else 0x40)
    else if s.cnt = 1 then some (if s.byte0 = sysexEnd then 0x50 else 0x40)
    else none
  else if s.byte0 &&& 0xF0 = 0xF2 then some 0x30
  else if s.byte0 &&& 0xF0 = 0xF3 ∨ s.byte0 &&& 0xF0 = 0xF1 then some 0x20
  else some s.byte0

def usbSendFunc (s : MidiSend) : Option MidiPacket :=
  s.command.map (fun command =>
    { event := event command, data1 := s.byte0, data2 := s.byte1, data3 := s.byte2 })

/-- What `usb_get_midi` makes of a packet. -/
def MidiPacket.input (p : MidiPacket) : List Byte :=
  match midiPacketLength p.data1 with
  | .one => [p.data1]
  | .two => [p.data1, p.data2]
  | .three => [p.data1, p.data2, p.data3]
  | .undefined =>
    if p.event = event 0x40 ∨ p.event = event 0x70 then [p.data1, p.data2, p.data3]
    else if p.event = event 0x60 then [p.data1, p.data2]
    else if p.event = event 0x50 then [p.data1]
    else []

structure MidiPort (n : Nat) where
  device : MidiDevice
  queue : ByteQueue n

namespace MidiPort

variable {n : Nat} [NeZero n] (callbacks : MidiCallbacks)

/-- `midi_device_input` -/
def input (bytes : List Byte) (p : MidiPort n) : MidiPort n :=
  { p with queue := bytes.foldl (fun q byte => (q.enqueue byte).2) p.queue }

/-- The loop of `midi_device_process`. -/
def takeOut : Nat → MidiPort n → MidiPort n × List MidiCall
  | 0, p => (p, [])
  | len + 1, p =>
    let done := p.device.processByte callbacks (p.queue.get 0)
    let rest := takeOut len { device := done.1, queue := p.queue.remove 1 }
    (rest.1, done.2 ++ rest.2)

/-- `midi_device_process`, with the packets that `usb_get_midi` finds. -/
def process (p : MidiPort n) (packets : List MidiPacket) : MidiPort n × List MidiCall :=
  let p := packets.foldl (fun p packet => p.input (packet.input event)) p
  p.takeOut callbacks p.queue.length

end MidiPort

/-! ### What is sent -/

inductive MidiOut
  | cc (chan num val : Byte)
  | noteon (chan num vel : Byte)
  | noteoff (chan num vel : Byte)
  | aftertouch (chan noteNum amt : Byte)
  | pitchbend (chan : Byte) (amt : BitVec 16)
  | programchange (chan num : Byte)
  | channelpressure (chan amt : Byte)
  | clock
  | tick
  | start
  /-- `midi_send_continue` -/
  | resume
  | stop
  | activesense
  | reset
  | tcquarterframe (time : Byte)
  | songposition (pos : BitVec 16)
  | songselect (song : Byte)
  | tunerequest
  | byte (b : Byte)
  | array (bytes : List Byte)

def bendAmount (amt : BitVec 16) : BitVec 16 :=
  if 0x1FFF < amt.toInt then 0x3FFF
  else if amt.toInt < -0x2000 then 0
  else amt + 0x2000

def midiSendArray : List Byte → List MidiSend
  | [] => []
  | [a] => [{ cnt := 1, byte0 := a, byte1 := 0, byte2 := 0 }]
  | [a, b] => [{ cnt := 2, byte0 := a, byte1 := b, byte2 := 0 }]
  | a :: b :: c :: bytes => { cnt := 3, byte0 := a, byte1 := b, byte2 := c } :: midiSendArray bytes

/-- `midi_send_cc` and its siblings. -/
def MidiOut.sends : MidiOut → List MidiSend
  | .cc chan num val => [⟨3, 0xB0 ||| chan &&& 0x0F, num &&& 0x7F, val &&& 0x7F⟩]
  | .noteon chan num vel => [⟨3, 0x90 ||| chan &&& 0x0F, num &&& 0x7F, vel &&& 0x7F⟩]
  | .noteoff chan num vel => [⟨3, 0x80 ||| chan &&& 0x0F, num &&& 0x7F, vel &&& 0x7F⟩]
  | .aftertouch chan noteNum amt => [⟨3, 0xA0 ||| chan &&& 0x0F, noteNum &&& 0x7F, amt &&& 0x7F⟩]
  | .pitchbend chan amt =>
    [⟨3, 0xE0 ||| chan &&& 0x0F, (bendAmount amt).setWidth 8 &&& 0x7F,
      (bendAmount amt >>> 7).setWidth 8 &&& 0x7F⟩]
  | .programchange chan num => [⟨2, 0xC0 ||| chan &&& 0x0F, num &&& 0x7F, 0⟩]
  | .channelpressure chan amt => [⟨2, 0xD0 ||| chan &&& 0x0F, amt &&& 0x7F, 0⟩]
  | .clock => [⟨1, 0xF8, 0, 0⟩]
  | .tick => [⟨1, 0xF9, 0, 0⟩]
  | .start => [⟨1, 0xFA, 0, 0⟩]
  | .resume => [⟨1, 0xFB, 0, 0⟩]
  | .stop => [⟨1, 0xFC, 0, 0⟩]
  | .activesense => [⟨1, 0xFE, 0, 0⟩]
  | .reset => [⟨1, 0xFF, 0, 0⟩]
  | .tcquarterframe time => [⟨2, 0xF1, time &&& 0x7F, 0⟩]
  | .songposition pos => [⟨3, 0xF2, pos.setWidth 8 &&& 0x7F, (pos >>> 7).setWidth 8 &&& 0x7F⟩]
  | .songselect song => [⟨2, 0xF3, song &&& 0x7F, 0⟩]
  | .tunerequest => [⟨1, 0xF6, 0, 0⟩]
  | .byte b => [⟨1, b, 0, 0⟩]
  | .array bytes => midiSendArray bytes

end K530
