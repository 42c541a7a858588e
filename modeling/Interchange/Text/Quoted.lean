import Interchange.Text.Printable

/-! Quoted texts for messages: what cannot be seen is written as an escape. -/

namespace Interchange.Text

/-- The code point in lower-case hexadecimal, between braces. -/
def codePointEscape (char : Char) : String :=
  "\\u\x7b" ++ String.ofList (Nat.toDigits 16 char.toNat) ++ "\x7d"

def visible (char : Char) : String :=
  match char with
  | '\x00' => "\\0"
  | '\t' => "\\t"
  | '\n' => "\\n"
  | '\r' => "\\r"
  | '"' => "\\\""
  | '\\' => "\\\\"
  | _ => if isPrintable char then char.toString else codePointEscape char

def quoted (text : String) : String :=
  "\"" ++ String.join (text.toList.map visible) ++ "\""

end Interchange.Text
