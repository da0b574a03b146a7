import K530.Core.Keycode
import K530.Lib.Checked

/-!
# Unicode Input and Symbols by Name

`process_unicode_common.c`: a code point is typed as the hexadecimal number it is,
between a sequence of keys that tells the host one is coming and another that tells
it that was all. What those are depends on the host, and so does how a digit is
typed; macOS takes UTF-16.

The two sequences are weak functions, and here they are events. So is `send_char`,
which `send_nibble` calls with a digit.

The string is memory from some place on, and `char` is unsigned. How far it goes is
not known before it is read, so the places that are read are kept.

## Main definitions

* `UnicodeMode`: The hosts.
-/

namespace K530

/-- `unicode_input_modes`. What is no mode is like `bsd`. -/
inductive UnicodeMode
  | mac
  | lnx
  | win
  | bsd
  | winc
  deriving DecidableEq

inductive UnicodeCall
  /-- `unicode_input_start` -/
  | start
  /-- `unicode_input_finish` -/
  | finish
  /-- `tap_code` -/
  | tap (keycode : Byte)
  /-- `send_char` -/
  | char (asciiCode : Byte)
  deriving DecidableEq

def kcKp1 : Byte := 0x59

variable (mode : UnicodeMode)

/-- `send_nibble_wrapper`, and `send_nibble`. The digits of the number pad end with
    zero. -/
def sendNibbleWrapper (digit : Byte) : UnicodeCall :=
  if mode = .win then
    .tap (if digit.toNat < 10 then kcKp1 + BitVec.ofNat 8 ((10 + digit.toNat - 1) % 10)
      else lowByte kcA + (digit - 10))
  else
    .char (if (digit &&& 0xF).toNat < 10 then digit + 0x30 else digit - 10 + 0x61)

def hexDigit {w : Nat} (hex : BitVec w) (i : Nat) : Byte :=
  (hex >>> (i * 4)).setWidth 8 &&& 0xF

/-- The loop of `register_hex`, with so many turns to go. -/
def hexFrom (hex : BitVec 16) : Nat → List UnicodeCall
  | 0 => []
  | i + 1 => sendNibbleWrapper mode (hexDigit hex i) :: hexFrom hex i

def registerHex (hex : BitVec 16) : List UnicodeCall := hexFrom mode hex 4

/-- The loop of `register_hex32`. Zeros in front are left out, but for the last four
    digits. -/
def hex32From (hex : BitVec 32) : Nat → Bool → List UnicodeCall
  | 0, _ => []
  | i + 1, onzerostart =>
    let onzerostart := if i ≤ 3 then false else onzerostart
    let digit := hexDigit hex i
    if digit = 0 then
      (if !onzerostart then [sendNibbleWrapper mode digit] else []) ++ hex32From hex i onzerostart
    else sendNibbleWrapper mode digit :: hex32From hex i false

def registerHex32 (hex : BitVec 32) : List UnicodeCall := hex32From mode hex 8 true

def registerUnicode (codePoint : BitVec 32) : List UnicodeCall :=
  if 0x10FFFF < codePoint ∨ (0xFFFF < codePoint ∧ mode = .win) then []
  else
    .start ::
      (if 0xFFFF < codePoint ∧ mode = .mac then
        let codePoint := codePoint - 0x10000
        let lo := codePoint &&& 0x3FF
        let hi := (codePoint &&& 0xFFC00) >>> 10
        registerHex32 mode (hi + 0xD800) ++ registerHex32 mode (lo + 0xDC00)
      else registerHex32 mode codePoint) ++ [.finish]

structure Decoded where
  next : Nat
  /-- an `int32_t`, and -1 if it is none -/
  codePoint : Int
  reads : List Nat

def decodeUtf8 (str : Nat → Byte) (place : Nat) : Decoded :=
  let c := str place
  let bits (i : Nat) : Nat := (str (place + i) &&& 0x3F).toNat
  let decoded : Decoded :=
    if c < 0x80 then ⟨place + 1, c.toNat, [place]⟩
    else if c &&& 0xE0 = 0xC0 then
      ⟨place + 2, ((c &&& 0x1F).toNat <<< 6 ||| bits 1 : Nat), [place, place + 1]⟩
    else if c &&& 0xF0 = 0xE0 then
      ⟨place + 3, ((c &&& 0x0F).toNat <<< 12 ||| bits 1 <<< 6 ||| bits 2 : Nat),
        [place, place + 1, place + 2]⟩
    else if c &&& 0xF8 = 0xF0 ∧ c ≤ 0xF4 then
      ⟨place + 4, ((c &&& 0x07).toNat <<< 18 ||| bits 1 <<< 12 ||| bits 2 <<< 6 ||| bits 3 : Nat),
        [place, place + 1, place + 2, place + 3]⟩
    else ⟨place + 1, -1, [place]⟩
  -- part of a surrogate pair
  if 0xD800 ≤ decoded.codePoint ∧ decoded.codePoint ≤ 0xDFFF then { decoded with codePoint := -1 }
  else decoded

structure UnicodeSending where
  reads : List Nat
  calls : List UnicodeCall

def sendUnicodeString (str : Nat → Byte) : Nat → Nat → Option UnicodeSending
  | 0, _ => none
  | fuel + 1, place =>
    if str place = 0 then some ⟨[place], []⟩
    else
      let decoded := decodeUtf8 str place
      (sendUnicodeString str fuel decoded.next).map (fun rest =>
        ⟨place :: decoded.reads ++ rest.reads,
          (if 0 ≤ decoded.codePoint then
            registerUnicode mode (BitVec.ofInt 32 decoded.codePoint) else []) ++ rest.calls⟩)

end K530

/-!
### Symbols by Name

`process_ucis.c`: after `qk_ucis_start` the keys that are pressed are the name of a
symbol. They go to the host as well, behind a sign that a name is being typed. At the
end everything is erased on the host, and the code points of the symbol are entered,
or the name is typed again.

What is pressed is kept in an array, the keys that edit and end the name too, before
it is looked at what they are. A place outside the array has no result. The table of
symbols is gone through with a byte, and whether that comes to an end is a matter of
the table.

The hooks are the ones there are without others. A key is registered and unregistered
at once, which is a tap.
-/

namespace K530

open Checked

structure UcisConfig where
  /-- `UCIS_MAX_SYMBOL_LENGTH` -/
  maxSymbolLength : Nat
  /-- `UCIS_MAX_CODE_POINTS` -/
  maxCodePoints : Nat
  /-- The count is a byte. -/
  maxSymbolLength_le : maxSymbolLength ≤ 255

/-- `qk_ucis_symbol_t`. -/
structure UcisSymbol (c : UcisConfig) where
  symbol : List Byte
  codePoints : Vector (BitVec 32) c.maxCodePoints

/-- `qk_ucis_state_t`. -/
structure Ucis (c : UcisConfig) where
  count : Nat
  codes : Vector Keycode c.maxSymbolLength
  inProgress : Bool

inductive UcisCall
  /-- `register_code` and `unregister_code` -/
  | tap (keycode : Byte)
  /-- `register_unicode` -/
  | unicode (codePoint : BitVec 32)
  deriving DecidableEq

variable {c : UcisConfig}

/-- `qk_ucis_start`, and what the hook types: U+2328. -/
def qkUcisStart (mode : UnicodeMode) (s : Ucis c) : Ucis c × List UnicodeCall :=
  ({ s with count := 0, inProgress := true }, .start :: (registerHex mode 0x2328 ++ [.finish]))

/-- The keycode `is_uni_seq` takes a character for. -/
def seqKeycode (ch : Byte) : Keycode :=
  if 0x31 ≤ ch ∧ ch ≤ 0x30 then ch.setWidth 16 - 0x31 + kc1
  else ch.setWidth 16 - 0x61 + kcA

namespace Ucis

/-- The loop of `is_uni_seq` over what is left of a name. -/
def isUniSeqFrom (s : Ucis c) : List Byte → Nat → Option Bool
  | [], i => (fetch s.codes i).map (fun code => code == kcEnter || code == kcSpace)
  | ch :: seq, i =>
    if s.count < i then some false
    else
      (fetch s.codes i).bind (fun code =>
        if code ≠ seqKeycode ch then some false else isUniSeqFrom s seq (i + 1))

def isUniSeq (s : Ucis c) (seq : List Byte) : Option Bool := s.isUniSeqFrom seq 0

/-- The loop over `ucis_symbol_table`. Behind the symbols it has an entry without
    one. -/
def findSymbol (table : List (UcisSymbol c)) (s : Ucis c) : Nat → Byte → Option (Option Nat)
  | 0, _ => none
  | fuel + 1, i =>
    match table[i.toNat]? with
    | none => some none
    | some entry =>
      (s.isUniSeq entry.symbol).bind (fun same =>
        if same then some (some i.toNat) else findSymbol table s fuel (i + 1))

def registerUcis (entry : UcisSymbol c) : List UcisCall :=
  (entry.codePoints.toList.takeWhile (fun codePoint => codePoint ≠ 0)).map .unicode

/-- `qk_ucis_symbol_fallback`. -/
def symbolFallback (s : Ucis c) : List UcisCall :=
  (s.codes.toList.take (s.count - 1)).map (fun code => .tap (lowByte code))

/-- The end of a name: the host is told to erase it, and gets what it stands for. -/
def finish (table : List (UcisSymbol c)) (fuel : Nat) (keycode : Keycode) (s : Ucis c) :
    Option (List UcisCall × Ucis c) :=
  let erased := List.replicate s.count (UcisCall.tap (lowByte kcBackspace))
  if keycode = kcEscape then some (erased, { s with inProgress := false })
  else
    (s.findSymbol table fuel 0).map (fun found =>
      (erased ++
        (match found.bind (fun i => table[i]?) with
        | some entry => registerUcis entry
        | none => s.symbolFallback),
        { s with inProgress := false }))

/-- `process_ucis`: whether the key goes on, what is typed, and the state after it. -/
def processUcis (table : List (UcisSymbol c)) (fuel : Nat) (keycode : Keycode) (pressed : Bool)
    (s : Ucis c) : Option (Bool × List UcisCall × Ucis c) :=
  if !s.inProgress || !pressed then some (true, [], s)
  else
    let special := keycode = kcSpace ∨ keycode = kcEnter ∨ keycode = kcEscape ∨
      keycode = kcBackspace
    if c.maxSymbolLength ≤ s.count ∧ ¬ special then some (false, [], s)
    else
      -- every key is kept, also those that edit and end the name
      (store s.codes s.count keycode).bind (fun codes =>
        let s := { s with codes := codes, count := s.count + 1 }
        if keycode = kcBackspace then
          if 2 ≤ s.count then some (true, [], { s with count := s.count - 2 })
          else some (false, [], { s with count := s.count - 1 })
        else if keycode = kcSpace ∨ keycode = kcEnter ∨ keycode = kcEscape then
          (s.finish table fuel keycode).map (fun done => (false, done.1, done.2))
        else some (true, [], s))

end Ucis

end K530
