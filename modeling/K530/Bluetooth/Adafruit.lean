import K530.Core.Keycode
import K530.Lib.Checked
import K530.Lib.Ring

/-!
# The Adafruit Module

`adafruit_ble.cpp`: reports for a Bluetooth module that takes AT commands in
packets of sixteen characters.

A report is put into a queue, and `adafruit_ble_task` takes one item at a time off
it. An item is one command or, for the mouse, two. It leaves the queue when the module
has taken all of its packets, and is sent again from the start when one has not. While
an answer is outstanding no item is sent. The task also sends commands of its own.

Whether a packet is taken and an answer comes is the world's, as are the clock and the
interrupt pin. A call that finds the queue full sends an item and tries again: what it
has still to put there is `waiting`, and a turn of that loop is a step. What has been
put into the queue and what the module has taken is kept; nothing reads it. The debug
print, the time an item was added, the connection state and the battery are left out.

`read_response` puts the answer to a command together in a buffer of the caller's, cuts
the end of the line off and looks how it went. An access outside the buffer or the
payload, and a pointer before the buffer, is `none`.

## Main definitions

* `RingBuffer`: `ringbuffer.hpp`.
-/

namespace K530

/-- `RingBuffer`: it is empty when head and tail are the same. -/
structure RingBuffer (α : Type) (size : Nat) where
  buf : Fin size → α
  head : Fin size
  tail : Fin size

namespace RingBuffer

variable {α : Type} {size : Nat} [NeZero size]

def isEmpty (r : RingBuffer α size) : Bool := decide (r.head = r.tail)

def enqueue (item : α) (r : RingBuffer α size) : Bool × RingBuffer α size :=
  if r.head + 1 = r.tail then (false, r)
  else (true, { r with buf := Function.update r.buf r.head item, head := r.head + 1 })

def peek (r : RingBuffer α size) : Option α :=
  if r.tail = r.head then none else some (r.buf r.tail)

/-- `get`, whatever it is that comes off. -/
def drop (r : RingBuffer α size) : RingBuffer α size :=
  if r.tail = r.head then r else { r with tail := r.tail + 1 }

def contents (r : RingBuffer α size) : List α :=
  Ring.contents (fun p => some (r.buf p)) r.tail r.head

end RingBuffer

/-- `struct sdep_msg`. Its `len` is that of the payload. -/
structure SdepMsg where
  type : Byte
  cmdLow : Byte
  cmdHigh : Byte
  more : Bool
  payload : List Char
  deriving DecidableEq

/-- `struct queue_item` -/
inductive QueueItem where
  | keyReport (modifier : Byte) (keys : Vector Byte 6)
  | consumer (usage : BitVec 16)
  | mouseMove (x y scroll pan buttons : Byte)
  deriving DecidableEq

/-- What the world makes of a command: the first of its packets that is not taken, if
    any, the clock when it has been sent, and whether the answer, if it is waited for,
    is OK. -/
structure AtWorld where
  fate : Option Nat
  now : BitVec 16
  response : Bool
  deriving DecidableEq

/-- One packet that `resp_buf_read_one` tries to receive: whether it comes and, if so,
    its `more` bit; and the pin afterwards. -/
structure RespPacket where
  more : Option Bool
  pin : Bool
  deriving DecidableEq

/-- What `resp_buf_read_one` sees: the pin, the packets, and the clock. -/
structure RespLook where
  pin : Bool
  packets : List RespPacket
  now : BitVec 16
  deriving DecidableEq

/-- What `send_buf_send_one` sees: the commands of an item, and the look for an answer
    when one of them fails. -/
structure SendWorld where
  commands : Nat → AtWorld
  look : RespLook

/-- What `adafruit_ble_task` sees: the commands that set the module up, the look for an
    answer, the item, whether the pin says that there is an event, whether the connection
    is to be looked at, and the commands for that. -/
structure TaskWorld where
  configure : Nat → AtWorld
  look : RespLook
  send : SendWorld
  pin : Bool
  eventStatus : AtWorld
  poll : Bool
  eventEnable : Nat → AtWorld
  getConn : AtWorld

instance neZeroSendBuf : NeZero 40 := ⟨by decide⟩

instance neZeroRespBuf : NeZero 2 := ⟨by decide⟩

structure AdafruitBle where
  configured : Bool
  /-- `event_flags`, which is a `bool` -/
  eventFlags : Bool
  /-- the items to be sent -/
  sendBuf : RingBuffer QueueItem 40
  /-- the answers that are outstanding, by the time of the command -/
  respBuf : RingBuffer (BitVec 16) 2
  /-- the items a call has still to put into the queue -/
  waiting : List QueueItem
  /-- the items that have been put there -/
  queued : List QueueItem
  /-- the packets the module has taken, and whether they are an item's -/
  received : List (Bool × SdepMsg)

namespace AdafruitBle

/-! ### Packets -/

def sdepMaxPayload : Nat := 16

def sdepCommand : Byte := 0x10

def bleAtWrapper : BitVec 16 := 0x0A00

def sdepBuildPkt (command : BitVec 16) (payload : List Char) (moredata : Bool) : SdepMsg :=
  { type := sdepCommand
    cmdLow := command.setWidth 8
    cmdHigh := (command >>> 8).setWidth 8
    more := moredata && decide (payload.length = sdepMaxPayload)
    payload := payload }

/-- The packets of a command, as the loop of `at_command` and what follows it build
    them. -/
def fragments : (fuel : Nat) → (cmd : List Char) → List SdepMsg
  | 0, cmd => [sdepBuildPkt bleAtWrapper cmd false]
  | fuel + 1, cmd =>
    if sdepMaxPayload < cmd.length then
      sdepBuildPkt bleAtWrapper (cmd.take sdepMaxPayload) true ::
        fragments fuel (cmd.drop sdepMaxPayload)
    else [sdepBuildPkt bleAtWrapper cmd false]

def atPackets (cmd : List Char) : List SdepMsg := fragments cmd.length cmd

/-- Packets sent one after the other with `sdep_send_pkt`, up to the first that is not
    taken: the ones that are, and whether these are all. -/
def sendPackets : (fate : Option Nat) → List SdepMsg → List SdepMsg × Bool
  | _, [] => ([], true)
  | some 0, _ :: _ => ([], false)
  | fate, msg :: msgs =>
    let sent := sendPackets (fate.map (· - 1)) msgs
    (msg :: sent.1, sent.2)

/-! ### Texts -/

def hexDigit (n : Nat) : Char := "0123456789abcdef".toList.getD n '0'

/-- `%02x` -/
def hex2 (b : Byte) : List Char := [hexDigit (b.toNat / 16), hexDigit (b.toNat % 16)]

/-- `%04x` -/
def hex4 (u : BitVec 16) : List Char := hex2 ((u >>> 8).setWidth 8) ++ hex2 (u.setWidth 8)

/-- `%d` of an `int8_t` -/
def decimal (b : Byte) : List Char :=
  if b.toInt < 0 then '-' :: Nat.toDigits 10 b.toInt.natAbs
  else Nat.toDigits 10 b.toInt.natAbs

def keyText (modifier : Byte) (keys : Vector Byte 6) : List Char :=
  "AT+BLEKEYBOARDCODE=".toList ++ hex2 modifier ++ "-00".toList ++
    keys.toList.flatMap (fun key => '-' :: hex2 key)

def consumerText (usage : BitVec 16) : List Char :=
  "AT+BLEHIDCONTROLKEY=0x".toList ++ hex4 usage

def moveText (x y scroll pan : Byte) : List Char :=
  "AT+BLEHIDMOUSEMOVE=".toList ++ decimal x ++ ',' :: decimal y ++ ',' :: decimal scroll ++
    ',' :: decimal pan

/-- The buttons, by `strcat`. -/
def buttonText (buttons : Byte) : List Char :=
  "AT+BLEHIDMOUSEBUTTON=".toList ++ (if buttons &&& 1 ≠ 0 then ['L'] else []) ++
    (if buttons &&& 2 ≠ 0 then ['R'] else []) ++ (if buttons &&& 4 ≠ 0 then ['M'] else []) ++
    (if buttons = 0 then ['0'] else [])

/-- `snprintf` into `cmdbuf`, which holds 47 characters and the end. -/
def snprintf (text : List Char) : List Char := text.take 47

/-! ### Answers -/

/-- The packets that `resp_buf_read_one` receives. -/
def receiveAnswer (greedy : Bool) :
    List RespPacket → RingBuffer (BitVec 16) 2 → RingBuffer (BitVec 16) 2
  | [], r => r
  | p :: ps, r =>
    match p.more with
    | none => r
    | some more =>
      let r := if more then r else r.drop
      if greedy && !r.isEmpty && p.pin then receiveAnswer greedy ps r else r

def sdepTimeout : BitVec 16 := 150

def respBufReadOne (greedy : Bool) (look : RespLook) (s : AdafruitBle) : AdafruitBle :=
  match s.respBuf.peek with
  | none => s
  | some lastSend =>
    if look.pin then { s with respBuf := receiveAnswer greedy look.packets s.respBuf }
    else if sdepTimeout * 2 < look.now - lastSend then { s with respBuf := s.respBuf.drop }
    else s

/-- `resp_buf_wait`, when it is over. -/
def respBufWait (s : AdafruitBle) : AdafruitBle :=
  { s with respBuf := { s.respBuf with tail := s.respBuf.head } }

/-- The loop that puts the time of a command into `resp_buf`, when it is over: if there
    was no room, an answer has been consumed. -/
def respBufEnqueue (now : BitVec 16) (s : AdafruitBle) : AdafruitBle :=
  { s with
    respBuf :=
      if (s.respBuf.enqueue now).1 then (s.respBuf.enqueue now).2
      else (s.respBuf.drop.enqueue now).2 }

/-! ### Commands and items -/

/-- `at_command`. The commands whose answers are not waited for are those of items. -/
def atCommand (resp : Bool) (w : AtWorld) (cmd : List Char) (s : AdafruitBle) :
    Bool × AdafruitBle :=
  let s := if resp then respBufWait s else s
  let sent := sendPackets w.fate (atPackets cmd)
  let s := { s with received := s.received ++ sent.1.map (fun msg => (!resp, msg)) }
  if sent.2 then
    if resp then (w.response, s) else (true, respBufEnqueue w.now s)
  else (false, s)

def processQueueItem (w : Nat → AtWorld) (item : QueueItem) (s : AdafruitBle) :
    Bool × AdafruitBle :=
  match item with
  | .keyReport modifier keys => atCommand false (w 0) (snprintf (keyText modifier keys)) s
  | .consumer usage => atCommand false (w 0) (snprintf (consumerText usage)) s
  | .mouseMove x y scroll pan buttons =>
    let moved := atCommand false (w 0) (snprintf (moveText x y scroll pan)) s
    if moved.1 then atCommand false (w 1) (buttonText buttons) moved.2 else moved

def sendBufSendOne (w : SendWorld) (s : AdafruitBle) : AdafruitBle :=
  if !s.respBuf.isEmpty then s
  else
    match s.sendBuf.peek with
    | none => s
    | some item =>
      let processed := processQueueItem w.commands item s
      if processed.1 then { processed.2 with sendBuf := processed.2.sendBuf.drop }
      else respBufReadOne true w.look processed.2

end AdafruitBle

/-! ### The calls -/

/-- The functions that queue something. The keys are what is in memory from `keys` on. -/
inductive BleCall where
  | sendKeys (modifier : Byte) (keys : Nat → Byte) (nkeys : Byte)
  | sendConsumerKey (usage : BitVec 16)
  | sendMouseMove (x y scroll pan buttons : Byte)

namespace BleCall

/-- The loop of `adafruit_ble_send_keys`: an item for every six keys. -/
def keyItems (modifier : Byte) : (fuel : Nat) → (keys : Nat → Byte) → (nkeys : Byte) →
    List QueueItem
  | 0, _, _ => []
  | fuel + 1, keys, nkeys =>
    .keyReport modifier
        #v[keys 0, if 1 ≤ nkeys then keys 1 else 0, if 2 ≤ nkeys then keys 2 else 0,
          if 3 ≤ nkeys then keys 3 else 0, if 4 ≤ nkeys then keys 4 else 0,
          if 5 ≤ nkeys then keys 5 else 0] ::
      if nkeys ≤ 6 then [] else keyItems modifier fuel (fun n => keys (n + 6)) (nkeys - 6)

/-- The items of a call. Forty-three turns are enough for any number of keys. -/
def items : BleCall → List QueueItem
  | sendKeys modifier keys nkeys => keyItems modifier 43 keys nkeys
  | sendConsumerKey usage => [.consumer usage]
  | sendMouseMove x y scroll pan buttons => [.mouseMove x y scroll pan buttons]

end BleCall

namespace AdafruitBle

/-- A call puts its items into the queue as far as there is room. -/
def enqueueItems : List QueueItem → AdafruitBle → AdafruitBle
  | [], s => { s with waiting := [] }
  | item :: items, s =>
    if (s.sendBuf.enqueue item).1 then
      enqueueItems items
        { s with sendBuf := (s.sendBuf.enqueue item).2, queued := s.queued ++ [item] }
    else { s with waiting := item :: items }

/-! ### The task -/

/-- The commands of `adafruit_ble_enable_keyboard`. -/
def configureCommands (product : List Char) : List (List Char) :=
  ["ATE=0".toList, "AT+GAPINTERVALS=10,30,,".toList, "AT+GAPDEVNAME=".toList ++ product,
    "AT+BLEHIDEN=1".toList, "AT+BLEPOWERLEVEL=-12".toList, "ATZ".toList]

def configureLoop : (w : Nat → AtWorld) → List (List Char) → AdafruitBle → Bool × AdafruitBle
  | _, [], s => (true, s)
  | w, cmd :: cmds, s =>
    let sent := atCommand true (w 0) cmd s
    if sent.1 then configureLoop (fun n => w (n + 1)) cmds sent.2 else (false, sent.2)

/-- `adafruit_ble_enable_keyboard`, with the initialization, which succeeds. -/
def enableKeyboard (product : List Char) (w : Nat → AtWorld) (s : AdafruitBle) :
    Bool × AdafruitBle :=
  let looped := configureLoop w (configureCommands product) { s with configured := false }
  (looped.1, { looped.2 with configured := looped.1 })

def probedEvents : Nat := 1

def usingEvents : Nat := 2

/-- A flag is set in `event_flags`, which as a `bool` is 0 or 1. -/
def hasFlag (flags : Bool) (flag : Nat) : Bool := decide (flags.toNat &&& flag ≠ 0)

/-- `event_flags |= flag` -/
def setFlag (flags : Bool) (flag : Nat) : Bool := decide (flags.toNat ||| flag ≠ 0)

/-- The event update of `adafruit_ble_task`. -/
def updateEvents (w : TaskWorld) (s : AdafruitBle) : AdafruitBle :=
  if s.respBuf.isEmpty && hasFlag s.eventFlags usingEvents && w.pin then
    (atCommand true w.eventStatus "AT+EVENTSTATUS".toList s).2
  else s

def probeEvents (w : Nat → AtWorld) (s : AdafruitBle) : AdafruitBle :=
  if hasFlag s.eventFlags probedEvents then s
  else
    let enabled := atCommand true (w 0) "AT+EVENTENABLE=0x1".toList s
    let s :=
      if enabled.1 then
        let s := (atCommand true (w 1) "AT+EVENTENABLE=0x2".toList enabled.2).2
        { s with eventFlags := setFlag s.eventFlags usingEvents }
      else enabled.2
    { s with eventFlags := setFlag s.eventFlags probedEvents }

/-- The connection update of `adafruit_ble_task`. -/
def updateConnection (w : TaskWorld) (s : AdafruitBle) : AdafruitBle :=
  if w.poll then
    (atCommand true w.getConn "AT+GAPGETCONN".toList (probeEvents w.eventEnable s)).2
  else s

def task (product : List Char) (w : TaskWorld) (s : AdafruitBle) : AdafruitBle :=
  let enabled := if s.configured then (true, s) else enableKeyboard product w.configure s
  if enabled.1 then
    updateConnection w
      (updateEvents w (sendBufSendOne w.send (respBufReadOne true w.look enabled.2)))
  else enabled.2

end AdafruitBle

/-- What can happen: a call, a turn of the loop of a call that finds the queue full,
    or the task. -/
inductive BleInput where
  | call (c : BleCall)
  | turn (w : SendWorld)
  | task (w : TaskWorld)

namespace AdafruitBle

/-- One after the other: while a call waits there is nothing else. -/
def step (product : List Char) (s : AdafruitBle) : BleInput → AdafruitBle
  | .call c => if s.waiting = [] then enqueueItems c.items s else s
  | .turn w =>
    if s.waiting = [] then s
    else enqueueItems s.waiting (sendBufSendOne w s)
  | .task w => if s.waiting = [] then task product w s else s

end AdafruitBle

/-! ### `read_response` -/

open Checked

def sdepMaxPayload : Nat := 16

/-- `struct sdep_msg`. Its length has seven bits. -/
structure SdepPacket where
  type : Byte
  cmdLow : Byte
  cmdHigh : Byte
  len : BitVec 7
  more : Bool
  payload : Vector Byte sdepMaxPayload

def sdepResponse : Byte := 0x20

namespace Response

variable {size : Nat}

/-- `min`, of two `uint8_t`. -/
def min (a b : Byte) : Byte := if a < b then a else b

/-- The length of what is copied of a packet, to a place of the buffer. -/
def partLen (size dest : Nat) (p : SdepPacket) : Nat :=
  (min (p.len.setWidth 8) (BitVec.ofNat 8 (size - dest))).toNat

/-- `memcpy` from the payload to a place of the buffer. -/
def copyPayload (p : SdepPacket) (len dest : Nat) (resp : Vector Byte size) :
    Option (Vector Byte size) :=
  if 0 < len then (readFirst p.payload len).bind (fun bytes => writeFrom bytes dest resp)
  else some resp

/-- The first loop of `read_response`: where the answer ends, if it is one, and the buffer. -/
def receive : List SdepPacket → Nat → Vector Byte size → Option (Option Nat × Vector Byte size)
  | [], _, resp => some (none, resp)
  | p :: packets, dest, resp =>
    if p.type ≠ sdepResponse then (store resp 0 0).map (fun resp => (none, resp))
    else
      (copyPayload p (partLen size dest p) dest resp).bind (fun resp =>
        if p.more then receive packets (dest + partLen size dest p) resp
        else some (some (dest + partLen size dest p), resp))

/-- `--dest` -/
def stepBack : Nat → Option Nat
  | 0 => none
  | dest + 1 => some dest

def isNewline (c : Byte) : Prop := c = 0x0A ∨ c = 0x0D

instance (c : Byte) : Decidable (isNewline c) := inferInstanceAs (Decidable (_ ∨ _))

/-- The second loop: the end of the line before a place is taken off. -/
def trim : Nat → Vector Byte size → Option (Vector Byte size)
  | 0, resp => some resp
  | dest + 1, resp =>
    (fetch resp (dest + 1)).bind (fun c =>
      if isNewline c then (store resp (dest + 1) 0).bind (trim dest) else some resp)

def text (resp : Vector Byte size) : Option (List Byte) :=
  if 0 ∈ resp.toList then some (resp.toList.takeWhile (fun c => c ≠ 0)) else none

/-- What is behind the last newline, as `strrchr` finds it. -/
def lastLine (s : List Byte) : List Byte :=
  (s.reverse.takeWhile (fun c => c ≠ 0x0A)).reverse

def kOK : List Byte := [0x4F, 0x4B]

def parse (dest : Nat) (resp : Vector Byte size) : Option (Bool × Vector Byte size) :=
  (store resp dest 0).bind (fun resp =>
    (stepBack dest).bind (fun dest =>
      (trim dest resp).bind (fun resp =>
        (text resp).map (fun s => (decide (lastLine s = kOK), resp)))))

/-- `read_response`: whether it was successful, and the buffer. -/
def readResponse (packets : List SdepPacket) (resp : Vector Byte size) :
    Option (Bool × Vector Byte size) :=
  (receive packets 0 resp).bind (fun out =>
    match out.1 with
    | none => some (false, out.2)
    | some dest => parse dest out.2)

end Response

end K530
