import Interchange.Json.Printer
import Interchange.Text.Quoted

/-! Why a JSON text cannot be read, and where. -/

namespace Interchange.Json

/-- Lines count from one; columns count the bytes since the last line feed. -/
structure Position where
  line : Nat
  column : Nat
deriving DecidableEq, Repr

namespace Position

def start : Position :=
  ⟨1, 0⟩

def after (position : Position) (byte : UInt8) : Position :=
  if byte = 0x0A then ⟨position.line + 1, 0⟩ else ⟨position.line, position.column + 1⟩

end Position

/-- A value that stands where another type is wanted. -/
inductive Found where
  | null
  | bool (value : Bool)
  | number (value : Number)
  | string (value : String)
  | sequence
  | map

def Found.text : Found → String
  | null => "null"
  | bool value => "boolean `" ++ toString value ++ "`"
  | number (.integer value) => "integer `" ++ toString value ++ "`"
  | number (.double value) => "floating point `" ++ doubleText value ++ "`"
  | string value => "string " ++ Text.quoted value
  | sequence => "sequence"
  | map => "map"

inductive Cause where
  | endOfValue
  | endOfObject
  | endOfList
  | endOfString
  | expectedValue
  | expectedIdent
  | expectedColon
  | expectedListEnd
  | expectedObjectEnd
  | keyNotString
  | trailingComma
  | trailingCharacters
  | invalidNumber
  | numberOutOfRange
  | invalidEscape
  | loneSurrogate
  | brokenSurrogate
  | controlCharacter
  | nestedTooDeep
  | wrongType (found : Found) (expected : String)
  | duplicateField (name : String)
  | unknownVariant (found : String) (first second : String)

def Cause.text : Cause → String
  | endOfValue => "EOF while parsing a value"
  | endOfObject => "EOF while parsing an object"
  | endOfList => "EOF while parsing a list"
  | endOfString => "EOF while parsing a string"
  | expectedValue => "expected value"
  | expectedIdent => "expected ident"
  | expectedColon => "expected `:`"
  | expectedListEnd => "expected `,` or `]`"
  | expectedObjectEnd => "expected `,` or `\x7d`"
  | keyNotString => "key must be a string"
  | trailingComma => "trailing comma"
  | trailingCharacters => "trailing characters"
  | invalidNumber => "invalid number"
  | numberOutOfRange => "number out of range"
  | invalidEscape => "invalid escape"
  | loneSurrogate => "lone leading surrogate in hex escape"
  | brokenSurrogate => "unexpected end of hex escape"
  | controlCharacter => "control character (\\u0000-\\u001F) found while parsing a string"
  | nestedTooDeep => "recursion limit exceeded"
  | wrongType found expected => "invalid type: " ++ found.text ++ ", expected " ++ expected
  | duplicateField name => "duplicate field `" ++ name ++ "`"
  | unknownVariant found first second =>
    "unknown variant `" ++ found ++ "`, expected `" ++ first ++ "` or `" ++ second ++ "`"

structure Error where
  cause : Cause
  position : Position

def Error.message (error : Error) : String :=
  error.cause.text ++ s!" at line {error.position.line} column {error.position.column}"

end Interchange.Json
