import Interchange.Json.Error

/-! A place in a JSON text, and the elementary moves of a reader. -/

namespace Interchange.Json

/-- The bytes ahead, how many they are, and the position of the last byte read. -/
structure Cursor where
  rest : List UInt8
  left : Nat
  position : Position
deriving DecidableEq, Repr

namespace Cursor

def ofString (text : String) : Cursor :=
  let bytes := text.toUTF8.toList
  ⟨bytes, bytes.length, .start⟩

/-- The byte ahead, as the character of that number. The grammar names only
ASCII characters, whose bytes stand for nothing else. -/
def peek? (cursor : Cursor) : Option Char :=
  cursor.rest.head?.map fun byte => Char.ofNat byte.toNat

def advance (cursor : Cursor) : Cursor :=
  match cursor.rest with
  | [] => cursor
  | byte :: rest => ⟨rest, cursor.left - 1, cursor.position.after byte⟩

/-- The position of the byte ahead; at the end of the text that of the last byte. -/
def ahead (cursor : Cursor) : Position :=
  cursor.advance.position

private def skipFrom (test : Char → Bool) (cursor : Cursor) : List UInt8 → Cursor
  | [] => cursor
  | byte :: rest => if test (Char.ofNat byte.toNat) then skipFrom test cursor.advance rest else cursor

def skipWhile (cursor : Cursor) (test : Char → Bool) : Cursor :=
  skipFrom test cursor cursor.rest

def takeWhile (cursor : Cursor) (test : Char → Bool) : List Char :=
  (cursor.rest.takeWhile fun byte => test (Char.ofNat byte.toNat)).map fun byte => Char.ofNat byte.toNat

/-- White space between the tokens of a text. -/
def isBlank (char : Char) : Bool :=
  char == ' ' || char == '\t' || char == '\n' || char == '\r'

end Cursor

abbrev Reader := StateT Cursor (Except Error)

namespace Reader

/-- Fails at the byte that was read last. -/
def failHere {α : Type} (cause : Cause) : Reader α := do
  throw ⟨cause, (← get).position⟩

/-- Fails at the byte ahead. -/
def failAhead {α : Type} (cause : Cause) : Reader α := do
  throw ⟨cause, (← get).ahead⟩

def peek? : Reader (Option Char) := do
  return (← get).peek?

def advance : Reader Unit :=
  modify Cursor.advance

/-- Reads the byte ahead, if there is one. -/
def next? : Reader (Option Char) := do
  let char ← peek?
  advance
  return char

def skipBlanks : Reader Unit :=
  modify fun cursor => cursor.skipWhile Cursor.isBlank

/-- The byte at which the next token starts. -/
def token? : Reader (Option Char) := do
  skipBlanks
  peek?

/-- The letters that complete `true`, `false` or `null`. -/
def letters : List Char → Reader Unit
  | [] => pure ()
  | letter :: rest => do
    match ← next? with
    | none => failHere .endOfValue
    | some char => if char == letter then letters rest else failHere .expectedIdent

/-- Runs over a whole text and insists that only white space is left. -/
def run {α : Type} (reader : Reader α) (text : String) : Except Error α := do
  let whole : Reader α := do
    let value ← reader
    match ← token? with
    | none => return value
    | some _ => failAhead .trailingCharacters
  whole.run' (Cursor.ofString text)

end Reader
end Interchange.Json
