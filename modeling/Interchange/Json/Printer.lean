import Interchange.Decimal.Shortest
import Interchange.Json.Value

/-! The compact text of JSON values. -/

namespace Interchange.Json

/-- Quotation marks, backslashes and control characters are escaped; all else stands as it is. -/
def escape (char : Char) : String :=
  match char with
  | '"' => "\\\""
  | '\\' => "\\\\"
  | '\x08' => "\\b"
  | '\t' => "\\t"
  | '\n' => "\\n"
  | '\x0c' => "\\f"
  | '\r' => "\\r"
  | _ =>
    if char.toNat < 0x20 then
      "\\u00" ++ String.ofList [Nat.digitChar (char.toNat / 16), Nat.digitChar (char.toNat % 16)]
    else char.toString

def quote (text : String) : String :=
  "\"" ++ String.join (text.toList.map escape) ++ "\""

/-- An exponent with its sign, whichever it is. -/
def exponentText (exponent : Int) : String :=
  if exponent < 0 then toString exponent else "+" ++ toString exponent

/-- Positional as long as the point stands close to the digits, scientific beyond. -/
def decimalText (decimal : Decimal) : String :=
  let digits := (toString decimal.digits).toList
  let point := (digits.length : Int) + decimal.exponent
  let zeros (count : Int) := List.replicate count.toNat '0'
  if 0 ≤ decimal.exponent ∧ point ≤ 16 then
    String.ofList (digits ++ zeros decimal.exponent ++ ['.', '0'])
  else if 0 < point ∧ point ≤ 16 then
    String.ofList (digits.take point.toNat ++ '.' :: digits.drop point.toNat)
  else if -5 < point ∧ point ≤ 0 then
    String.ofList ('0' :: '.' :: zeros (-point) ++ digits)
  else
    let fraction := if digits.length = 1 then [] else '.' :: digits.drop 1
    String.ofList (digits.take 1 ++ fraction) ++ "e" ++ exponentText (point - 1)

/-- The shortest decimal of a finite double, with at least one place. -/
def doubleText (value : Float) : String :=
  let bits := value.toBits.toNat
  let magnitude := bits % Nat.pow 2 63
  let sign := if bits = magnitude then "" else "-"
  if magnitude = 0 then sign ++ "0.0"
  else sign ++ decimalText (Binary.ofBits magnitude).shortest

def Number.text : Number → String
  | .integer value => toString value
  | .double value => doubleText value

namespace Value

mutual

def text : Value → String
  | .null => "null"
  | .bool true => "true"
  | .bool false => "false"
  | .number value => value.text
  | .string value => quote value
  | .array items => "[" ++ itemsText items ++ "]"
  | .object members => "\x7b" ++ membersText members ++ "\x7d"

def itemsText : List Value → String
  | [] => ""
  | [item] => item.text
  | item :: rest => item.text ++ "," ++ itemsText rest

def membersText : List (String × Value) → String
  | [] => ""
  | [(key, value)] => quote key ++ ":" ++ value.text
  | (key, value) :: rest => quote key ++ ":" ++ value.text ++ "," ++ membersText rest

end

end Value
end Interchange.Json
