import K530.Core.Keycode
import K530.Lib.CString

/-!
# The Terminal

`process_terminal.c`: a command line that is typed on the keyboard and answered by it. Keys add
characters to a line, enter splits it into words and runs a command, and the arrows bring back
earlier lines.

An access outside an array is `none`, and so is one by the functions of `string.h`. What is
typed in answer is left out, but the strings of which it is made are read. On ARM a `long` has
32 bits.

## Main definitions

* `TerminalBuild`: What it is compiled with.
-/

namespace K530

open Checked
open CString

structure TerminalBuild where
  /-- `CMD_BUFF_SIZE` -/
  cmdBuffSize : Nat
  cmdBuffSize_pos : 0 < cmdBuffSize
  /-- the layers there are in `keymaps` -/
  layers : Nat
  /-- `MATRIX_ROWS` -/
  rows : Nat
  /-- `MATRIX_COLS` -/
  cols : Nat
  rows_pos : 0 < rows
  cols_pos : 0 < cols
  keymaps : Fin layers → Fin rows → Fin cols → Keycode
  /-- `TERMINAL_HELP` -/
  help : Bool

/-- `keymaps[layer][row][col]` -/
def TerminalBuild.keymapAt (b : TerminalBuild) (layer row col : Nat) : Option Keycode :=
  if h : layer < b.layers ∧ row < b.rows ∧ col < b.cols then
    some (b.keymaps ⟨layer, h.1⟩ ⟨row, h.2.1⟩ ⟨col, h.2.2⟩)
  else none

def termOn : Keycode := 0x5D2C

def termOff : Keycode := 0x5D2D

def kcKpEnter : Keycode := 0x58

/-- `keycode_to_ascii_lut`. The last entry is not given. -/
def keycodeToAsciiLut : Vector Char 58 :=
  ⟨#[nul, nul, nul, nul, 'a', 'b', 'c', 'd', 'e', 'f', 'g', 'h', 'i', 'j', 'k', 'l', 'm', 'n',
    'o', 'p', 'q', 'r', 's', 't', 'u', 'v', 'w', 'x', 'y', 'z', '1', '2', '3', '4', '5', '6',
    '7', '8', '9', '0', nul, nul, nul, Char.ofNat 9, ' ', '-', '=', '[', ']', Char.ofNat 92, nul,
    ';', Char.ofNat 39, Char.ofNat 96, ',', '.', '/', nul], rfl⟩

def shiftedKeycodeToAsciiLut : Vector Char 58 :=
  ⟨#[nul, nul, nul, nul, 'A', 'B', 'C', 'D', 'E', 'F', 'G', 'H', 'I', 'J', 'K', 'L', 'M', 'N',
    'O', 'P', 'Q', 'R', 'S', 'T', 'U', 'V', 'W', 'X', 'Y', 'Z', '!', '@', '#', '$', '%', '^',
    '&', '*', '(', ')', nul, nul, nul, Char.ofNat 9, ' ', '_', '+', Char.ofNat 123, Char.ofNat 125,
    '|', nul, ':', Char.ofNat 39, '~', '<', '>', '?', nul], rfl⟩

/-! ### Numbers -/

def isSpace (c : Char) : Bool := c = ' ' || (9 ≤ c.toNat && c.toNat ≤ 13)

def leadingNumber (s : List Char) : Nat :=
  (s.takeWhile Char.isDigit).foldl (fun value c => value * 10 + (c.toNat - 48)) 0

/-- `strtol`, with base 10. -/
def strtol (s : List Char) : Int :=
  match s.dropWhile isSpace with
  | '-' :: digits => max (-2 ^ 31) (-(leadingNumber digits : Int))
  | '+' :: digits => min (2 ^ 31 - 1) (leadingNumber digits)
  | digits => min (2 ^ 31 - 1) (leadingNumber digits)

/-- What a `uint16_t` receives of it. -/
def number (s : List Char) : Nat := (strtol s % 2 ^ 16).toNat

/-! ### The variables -/

structure Terminal (b : TerminalBuild) where
  /-- `terminal_enabled` -/
  enabled : Bool
  buffer : Vector Char 80
  /-- `cmd_buffer`, the newest line first. It is always enabled. -/
  cmdBuffer : Vector (Vector Char 80) b.cmdBuffSize
  arguments : Vector (Vector Char 20) 6
  firstTime : Bool
  /-- `current_cmd_buffer_pos`, which has 16 bits. -/
  currentCmdBufferPos : Int

namespace Terminal

variable {b : TerminalBuild}

def init (b : TerminalBuild) : Terminal b :=
  { enabled := false, buffer := .replicate 80 nul,
    cmdBuffer := .replicate b.cmdBuffSize (.replicate 80 nul),
    arguments := .replicate 6 (.replicate 20 nul), firstTime := true, currentCmdBufferPos := 0 }

/-- `send_string`: the string is read. -/
def sendString {n : Nat} (v : Vector Char n) (t : Terminal b) : Option (Terminal b) :=
  (text v).map (fun _ => t)

/-- `for (int i = 0; i < 6; i++) strcpy(arguments[i], "")` -/
def clearArguments (arguments : Vector (Vector Char 20) 6) : Option (Vector (Vector Char 20) 6) :=
  loop (fun i arguments =>
    (fetch arguments i).bind (fun a => (strcpy a []).bind (store arguments i))) 6 arguments

def clearLine (t : Terminal b) : Option (Terminal b) :=
  (strcpy t.buffer []).bind (fun buffer =>
    (clearArguments t.arguments).map (fun arguments => { t with buffer, arguments }))

/-- `flush_cmd_buffer`, and the same in `enable_terminal`. -/
def flushCmdBuffer (t : Terminal b) : Terminal b :=
  { t with cmdBuffer := .replicate b.cmdBuffSize (.replicate 80 nul) }

def enableTerminal (t : Terminal b) : Option (Terminal b) :=
  clearLine { t.flushCmdBuffer with enabled := true }

def disableTerminal (t : Terminal b) : Terminal b := { t with enabled := false }

def moveLines (lines : Vector (Vector Char 80) b.cmdBuffSize) :
    Option (Vector (Vector Char 80) b.cmdBuffSize) :=
  loop (fun k lines =>
    let i := b.cmdBuffSize - 1 - k
    (fetch lines i).bind (fun line =>
      (fetch lines (i - 1)).bind (fun earlier =>
        (strncpy line earlier 80).bind (store lines i)))) (b.cmdBuffSize - 1) lines

def pushToCmdBuffer (t : Terminal b) : Option (Terminal b) :=
  (if t.firstTime then some t.cmdBuffer else moveLines t.cmdBuffer).bind (fun lines =>
    (text t.buffer).bind (fun s =>
      (fetch lines 0).bind (fun line =>
        ((strcpy line s).bind (store lines 0)).map (fun cmdBuffer =>
          { t with firstTime := false, cmdBuffer }))))

/-! ### The commands -/

/-- `arguments[i]` -/
def argument (i : Nat) (t : Terminal b) : Option (List Char) :=
  (fetch t.arguments i).bind text

/-- `terminal_about`. With `TERMINAL_HELP` it says what was entered. -/
def about (t : Terminal b) : Option (Terminal b) :=
  if b.help then (t.argument 1).map (fun _ => t) else some t

/-- `terminal_keycode`, with its two arrays of five characters. -/
def keycode (t : Terminal b) : Option (Terminal b) :=
  (t.argument 1).bind (fun layer => (t.argument 2).bind (fun row => (t.argument 3).bind (fun col =>
    if layer ≠ [] ∧ row ≠ [] ∧ col ≠ [] then
      (b.keymapAt (number layer) (number row) (number col)).bind (fun keycode =>
        (itoa keycode.toNat 10 (.replicate 5 nul : Vector Char 5)).bind (fun dec =>
          (itoa keycode.toNat 16 (.replicate 5 nul : Vector Char 5)).bind (fun hex =>
            (t.sendString hex).bind (sendString dec))))
    else some t)))

/-- The text that `sprintf` writes with `"0x%04x,"`. -/
def keycodeText (keycode : Keycode) : List Char :=
  ['0', 'x'] ++ List.leftpad 4 '0' (Nat.toDigits 16 keycode.toNat) ++ [',']

/-- `terminal_keymap`, with its array of eight characters. -/
def keymap (t : Terminal b) : Option (Terminal b) :=
  (t.argument 1).bind (fun layer =>
    if layer ≠ [] then
      loop (fun r => loop (fun c t =>
        (b.keymapAt (number layer) r c).bind (fun keycode =>
          (strcpy (.replicate 8 nul : Vector Char 8) (keycodeText keycode)).bind (fun s =>
            t.sendString s))) b.cols) b.rows t
    else some t)

/-- `print_cmd_buff`. The number is written to a variable of one character. -/
def printCmdBuff (t : Terminal b) : Option (Terminal b) :=
  loop (fun i t =>
    (itoa i 10 (.replicate 1 ' ' : Vector Char 1)).bind (fun tmpChar =>
      (t.sendString tmpChar).bind (fun t =>
        (fetch t.cmdBuffer i).bind (fun line => t.sendString line)))) b.cmdBuffSize t

end Terminal

/-- The functions in `terminal_cases`. -/
inductive TerminalCommand where
  | about
  | help
  | keycode
  | keymap
  | flushBuffer
  | printBuffer
  | exit
deriving DecidableEq

def terminalCases : List (List Char × TerminalCommand) :=
  [(['a', 'b', 'o', 'u', 't'], .about), (['h', 'e', 'l', 'p'], .help),
    (['k', 'e', 'y', 'c', 'o', 'd', 'e'], .keycode), (['k', 'e', 'y', 'm', 'a', 'p'], .keymap),
    (['f', 'l', 'u', 's', 'h', '-', 'b', 'u', 'f', 'f', 'e', 'r'], .flushBuffer),
    (['p', 'r', 'i', 'n', 't', '-', 'b', 'u', 'f', 'f', 'e', 'r'], .printBuffer),
    (['e', 'x', 'i', 't'], .exit)]

def findCommand (name : List Char) : Option TerminalCommand :=
  (terminalCases.find? (fun entry => entry.1 = name)).map Prod.snd

namespace Terminal

variable {b : TerminalBuild}

def runCommand (t : Terminal b) : TerminalCommand → Option (Terminal b)
  | .about => t.about
  | .help => some t
  | .keycode => t.keycode
  | .keymap => t.keymap
  | .flushBuffer => some t.flushCmdBuffer
  | .printBuffer => t.printCmdBuff
  | .exit => some t.disableTerminal

/-- `strcpy(arguments[i], pch)`, for the words from a place on. -/
def copyWords : List (List Char) → Nat → Vector (Vector Char 20) 6 →
    Option (Vector (Vector Char 20) 6)
  | [], _, arguments => some arguments
  | word :: rest, i, arguments =>
    ((fetch arguments i).bind (fun a => (strcpy a word).bind (store arguments i))).bind
      (copyWords rest (i + 1))

def dispatch (name : List Char) (t : Terminal b) : Option (Terminal b) :=
  match findCommand name with
  | some command => t.runCommand command
  | none => t.sendString t.buffer

def processTerminalCommand (t : Terminal b) : Option (Terminal b) :=
  (text t.buffer).bind (fun line =>
    (copyWords (words line) 0 t.arguments).bind (fun arguments =>
      (writeFrom (cut false line) 0 t.buffer).bind (fun buffer =>
        (text buffer).bind (fun name =>
          (dispatch name { t with arguments, buffer }).bind (fun t =>
            if t.enabled then t.clearLine else some t)))))

/-! ### The keys -/

def checkPos (size : Nat) (pos : Int) : Int :=
  if (size : Int) ≤ pos then size - 1 else if pos < 0 then 0 else pos

/-- An earlier line is brought back. So many characters are copied. -/
def recallLine (count : Nat) (t : Terminal b) : Option (Terminal b) :=
  let pos := checkPos b.cmdBuffSize t.currentCmdBufferPos
  if pos < 0 then none
  else
    (text t.buffer).bind (fun _ =>
      (fetch t.cmdBuffer pos.toNat).bind (fun line =>
        (strncpy t.buffer line count).bind (fun buffer =>
          sendString buffer { t with buffer, currentCmdBufferPos := pos })))

/-- `KC_UP` -/
def up (t : Terminal b) : Option (Terminal b) :=
  (t.recallLine 80).map (fun t =>
    { t with currentCmdBufferPos := (t.currentCmdBufferPos + 1).bmod (2 ^ 16) })

/-- `KC_DOWN` -/
def down (t : Terminal b) : Option (Terminal b) :=
  (t.recallLine 79).map (fun t =>
    { t with currentCmdBufferPos := (t.currentCmdBufferPos - 1).bmod (2 ^ 16) })

/-- `KC_BACKSPACE`: whether the key is sent too. -/
def backspace (t : Terminal b) : Option (Bool × Terminal b) :=
  (text t.buffer).bind (fun s =>
    let strLen := s.length % 256
    if 0 < strLen then
      (store t.buffer (strLen - 1) nul).map (fun buffer => (true, { t with buffer }))
    else some (false, t))

def shifted (mods : Byte) : Bool :=
  mods &&& (modBit 0xE1 ||| modBit 0xE5) != 0

def charToAdd (keycode : Keycode) (mods : Byte) : Option Char :=
  if shifted mods then fetch shiftedKeycodeToAsciiLut keycode.toNat
  else if mods = 0 then fetch keycodeToAsciiLut keycode.toNat
  else some nul

def addChar (keycode : Keycode) (mods : Byte) (t : Terminal b) : Option (Terminal b) :=
  if keycode ≤ 58 then
    (charToAdd keycode mods).bind (fun c =>
      if c ≠ nul then (strcat t.buffer c).map (fun buffer => { t with buffer }) else some t)
  else some t

/-- The keys of `process_terminal`, in the order of their cases. -/
def processKey (keycode : Keycode) (mods : Byte) (t : Terminal b) : Option (Bool × Terminal b) :=
  if keycode = kcEnter ∨ keycode = kcKpEnter then
    (t.pushToCmdBuffer.bind (fun t =>
      processTerminalCommand { t with currentCmdBufferPos := 0 })).map (fun t => (false, t))
  else if keycode = kcEscape then t.enableTerminal.map (fun t => (false, t))
  else if keycode = kcBackspace then t.backspace
  else if keycode = kcLeft ∨ keycode = kcRight then some (false, t)
  else if keycode = kcUp then t.up.map (fun t => (false, t))
  else if keycode = kcDown then t.down.map (fun t => (false, t))
  else (t.addChar keycode mods).map (fun t => (true, t))

def basicKeycode (keycode : Keycode) : Keycode :=
  if (0x6000 ≤ keycode ∧ keycode ≤ 0x7FFF) ∨ (0x4000 ≤ keycode ∧ keycode ≤ 0x4FFF) then
    keycode &&& 0xFF
  else keycode

end Terminal

/-- A key event, with `get_mods` as it comes. -/
structure TerminalKey where
  keycode : Keycode
  pressed : Bool
  mods : Byte
deriving DecidableEq

namespace Terminal

variable {b : TerminalBuild}

def processTerminal (t : Terminal b) (k : TerminalKey) : Option (Bool × Terminal b) :=
  if k.keycode = termOn ∧ k.pressed = true then t.enableTerminal.map (fun t => (false, t))
  else if t.enabled = true ∧ k.pressed = true then
    if k.keycode = termOff then some (false, t.disableTerminal)
    else if basicKeycode k.keycode < 256 then t.processKey (basicKeycode k.keycode) k.mods
    else some (true, t)
  else some (true, t)

def step (t : Terminal b) (k : TerminalKey) : Option (Terminal b) :=
  (t.processTerminal k).map Prod.snd

end Terminal

end K530
