import Interchange.Json.Cursor

/-! Strings in JSON texts. A character beyond the sixteen-bit range is escaped as
two surrogates, which must come together. -/

namespace Interchange.Json

def hexValue? (byte : UInt8) : Option Nat :=
  let code := byte.toNat
  if 0x30 ≤ code ∧ code ≤ 0x39 then some (code - 0x30)
  else if 0x41 ≤ code ∧ code ≤ 0x46 then some (code - 0x41 + 10)
  else if 0x61 ≤ code ∧ code ≤ 0x66 then some (code - 0x61 + 10)
  else none

def isLeadingSurrogate (unit : Nat) : Bool :=
  0xD800 ≤ unit && unit ≤ 0xDBFF

def isTrailingSurrogate (unit : Nat) : Bool :=
  0xDC00 ≤ unit && unit ≤ 0xDFFF

def joinSurrogates (leading trailing : Nat) : Nat :=
  (leading - 0xD800) * 0x400 + (trailing - 0xDC00) + 0x10000

/-- The character that a letter after a backslash stands for. -/
def simpleEscape? : Char → Option Char
  | '"' => some '"'
  | '\\' => some '\\'
  | '/' => some '/'
  | 'b' => some '\x08'
  | 'f' => some '\x0c'
  | 'n' => some '\n'
  | 'r' => some '\r'
  | 't' => some '\t'
  | _ => none

def utf8 (char : Char) : List UInt8 :=
  char.toString.toUTF8.toList

namespace Reader

/-- Four hexadecimal digits. All four bytes are passed even if one of them is no digit. -/
def hexUnit : Reader Nat := do
  let cursor ← get
  match cursor.rest with
  | first :: second :: third :: fourth :: _ =>
    set cursor.advance.advance.advance.advance
    match hexValue? first, hexValue? second, hexValue? third, hexValue? fourth with
    | some a, some b, some c, some d => return ((a * 16 + b) * 16 + c) * 16 + d
    | _, _, _, _ => failHere .invalidEscape
  | _ =>
    modify fun cursor => cursor.skipWhile fun _ => true
    failHere .endOfString

/-- The next byte of a string. -/
def stringByte : Reader Char := do
  match ← next? with
  | none => failHere .endOfString
  | some char => return char

/-- A byte that a leading surrogate must be followed by. -/
def surrogateByte (wanted : Char) : Reader Unit := do
  if (← stringByte) == wanted then return ()
  else failHere .brokenSurrogate

/-- The character of an escape whose `u` has been read. -/
def unicodeEscape : Reader Char := do
  let unit ← hexUnit
  if isTrailingSurrogate unit then failHere .loneSurrogate
  else if isLeadingSurrogate unit then do
    surrogateByte '\\'
    surrogateByte 'u'
    let trailing ← hexUnit
    if isTrailingSurrogate trailing then return Char.ofNat (joinSurrogates unit trailing)
    else failHere .loneSurrogate
  else return Char.ofNat unit

/-- The character of an escape whose backslash has been read. -/
def escapedChar : Reader Char := do
  let char ← stringByte
  if char == 'u' then unicodeEscape
  else
    match simpleEscape? char with
    | some meant => return meant
    | none => failHere .invalidEscape

private def stringBytes : Nat → List UInt8 → Reader (List UInt8)
  | 0, _ => failHere .endOfString
  | fuel + 1, reversed => do
    let char ← stringByte
    if char == '"' then return reversed.reverse
    else if char == '\\' then do
      let meant ← escapedChar
      stringBytes fuel ((utf8 meant).reverse ++ reversed)
    else if char.toNat < 0x20 then failHere .controlCharacter
    else stringBytes fuel (char.toNat.toUInt8 :: reversed)

/-- A string whose opening quotation mark has been read. -/
def stringBody : Reader String := do
  let bytes ← stringBytes ((← get).left + 1) []
  return (String.fromUTF8? bytes.toByteArray).getD ""

/-- Whether the byte ahead is a control character, which no string may hold. -/
def controlAhead : Reader Bool := do
  return (← peek?).any fun char => char.toNat < 0x20

/-- Passes a string without asking what its surrogates stand for. It stops in front
of a control character, so the position of that failure is the byte before. -/
def skimString : Nat → Reader Unit
  | 0 => failHere .endOfString
  | fuel + 1 => do
    if ← controlAhead then failHere .controlCharacter
    let char ← stringByte
    if char == '"' then return ()
    else if char == '\\' then do
      let escaped ← stringByte
      if escaped == 'u' then do
        let _ ← hexUnit
        skimString fuel
      else if (simpleEscape? escaped).isSome then skimString fuel
      else failHere .invalidEscape
    else skimString fuel

end Reader
end Interchange.Json
