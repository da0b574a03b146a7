import K530.Lighting.OpenRgb

/-!
# The Lighting Plugin

`main.lua`, the host's side of the OpenRGB protocol.

Lua counts from one: byte `i` of an answer in the firmware is entry `i + 1`
here. A packet is a table of numbers, the command and its arguments with zeros
behind them. The plugin asks how many LEDs there are and which mode is the
direct one, then for the place of every LED, eight to a query, and switches the
keyboard to the direct mode. From then on each tick sends the colors, fifteen
to a packet, in packets that are not answered.

Writing to the keyboard and reading from it are the firmware's `rawHidReceive`,
called in between. Where it has no result the plugin has none.

## Main definitions

* `Plugin`: `state`, the plugin's own.
-/

namespace K530

/-- `state`. -/
structure Plugin where
  initialized : Bool
  ledCount : Nat
  matrixSize : Nat
  directModeId : Option Nat
  /-- `led_positions`, x and y -/
  ledPositions : Nat → Option (Nat × Nat)

namespace Plugin

variable {d : Device}

def init : Plugin :=
  { initialized := false, ledCount := 0, matrixSize := 0, directModeId := none,
    ledPositions := fun _ => none }

def maxLedsPerSetPacket : Nat := 15

def maxLedsPerGetInfo : Nat := 8

def buildPacket (cmd : Nat) (extraBytes : List Nat) : List Nat :=
  let buf := cmd :: extraBytes
  buf ++ List.replicate (64 - buf.length) 0

def payload (table : List Nat) : Packet :=
  Packet.ofList (table.map (BitVec.ofNat 8))

def entry (resp : Packet) (i : Nat) : Nat := (resp.at (i - 1)).toNat

/-- `send_command`: the keyboard after it, and the answer. -/
def sendCommand (cmd : Nat) (extraBytes : List Nat) (fw : Firmware d) :
    Option (Firmware d × Option Packet) :=
  Firmware.rawHidReceive (payload (buildPacket cmd extraBytes)) fw

/-- `send_command` where an answer is expected. -/
def query (cmd : Nat) (extraBytes : List Nat) (fw : Firmware d) : Option (Firmware d × Packet) := do
  let sent ← sendCommand cmd extraBytes fw
  let resp ← sent.2
  return (sent.1, resp)

/-! ### `on_init` -/

/-- The loop that looks for the direct mode, with `remaining` turns to go: the
    last entry before the first zero. -/
def lastModeByte (modesResp : Packet) : Nat → Nat → Option Nat → Option Nat
  | 0, _, last => last
  | remaining + 1, i, last =>
    if entry modesResp i ≠ 0 then lastModeByte modesResp remaining (i + 1) (entry modesResp i)
    else last

/-- The positions in an answer to `GET_LED_INFO`. -/
def takePositions (resp : Packet) (firstLed : Nat) (count : Nat)
    (positions : Nat → Option (Nat × Nat)) : Nat → Option (Nat × Nat) :=
  (List.range count).foldl (fun positions i =>
    Function.update positions (firstLed + i) (entry resp (i * 7 + 2), entry resp (i * 7 + 3)))
    positions

/-- The loop over the pages of `GET_LED_INFO`. -/
def queryPositions (firstLed : Nat) (p : Plugin) (fw : Firmware d) :
    Option (Plugin × Firmware d) :=
  if firstLed < p.ledCount then do
    let count := min maxLedsPerGetInfo (p.ledCount - firstLed)
    let answered ← query 5 [firstLed, count] fw
    queryPositions (firstLed + count)
      { p with ledPositions := takePositions answered.2 firstLed count p.ledPositions } answered.1
  else some (p, fw)
termination_by p.ledCount - firstLed
decreasing_by
  unfold maxLedsPerGetInfo
  omega

/-- `plugin.on_init`. Whether `device:add_output` succeeds is not the
    keyboard's business. -/
def onInit (addOutput : Bool) (p : Plugin) (fw : Firmware d) : Option (Plugin × Firmware d) := do
  let devInfo ← query 3 [] fw
  let p := { p with ledCount := entry devInfo.2 2, matrixSize := entry devInfo.2 3 }
  let modes ← query 6 [] devInfo.1
  let p := { p with directModeId := lastModeByte modes.2 62 2 none }
  match p.directModeId with
  | none => return (p, modes.1)
  | some directModeId =>
    let placed ← queryPositions 0 p modes.1
    if !addOutput then return placed
    let switched ← query 7 [0, 0, 255, directModeId, 0, 0] placed.2
    if entry switched.2 63 = OpenRgb.failure.toNat then return (placed.1, switched.1)
    return ({ placed.1 with initialized := true }, switched.1)

/-! ### `on_tick` -/

/-- `string.byte(bytes, i) or 0`. -/
def byteOrZero (bytes : List Byte) (i : Nat) : Nat := (bytes.getD (i - 1) 0).toNat

/-- The arguments of a packet of colors: the count, and four numbers a LED. -/
def setLedsArguments (bytes : List Byte) (i chunk : Nat) : List Nat :=
  chunk :: (List.range chunk).flatMap (fun j =>
    let ledIdx := i + j
    [ledIdx, byteOrZero bytes (ledIdx * 3 + 1), byteOrZero bytes (ledIdx * 3 + 2),
      byteOrZero bytes (ledIdx * 3 + 3)])

def sendColors (bytes : List Byte) (countAvailable i : Nat) (fw : Firmware d) :
    Option (Firmware d) :=
  if i < countAvailable then do
    let chunk := min maxLedsPerSetPacket (countAvailable - i)
    let sent ← sendCommand 9 (setLedsArguments bytes i chunk) fw
    sendColors bytes countAvailable (i + chunk) sent.1
  else some fw
termination_by countAvailable - i
decreasing_by
  unfold maxLedsPerSetPacket
  omega

/-- `plugin.on_tick`. The output reports `n` LEDs and gives their bytes. -/
def onTick (n : Option Int) (bytes : Option (List Byte)) (p : Plugin) (fw : Firmware d) :
    Option (Firmware d) :=
  if !p.initialized then some fw
  else
    match n, bytes with
    | some n, some bytes =>
      if n ≤ 0 then some fw else sendColors bytes (min n.toNat p.ledCount) 0 fw
    | _, _ => some fw

end Plugin

end K530
