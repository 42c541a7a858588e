/-! White space as the Unicode property `White_Space` lists it, and texts that
hold nothing else. -/

namespace Interchange.Text

/-- The characters of the property, as closed ranges of code points. -/
def whiteSpaceRanges : List (Nat × Nat) :=
  [(0x0009, 0x000D), (0x0020, 0x0020), (0x0085, 0x0085), (0x00A0, 0x00A0), (0x1680, 0x1680),
   (0x2000, 0x200A), (0x2028, 0x2029), (0x202F, 0x202F), (0x205F, 0x205F), (0x3000, 0x3000)]

def isWhiteSpace (char : Char) : Bool :=
  whiteSpaceRanges.any fun (first, last) => first ≤ char.toNat && char.toNat ≤ last

/-- A name is blank when trimming it leaves nothing. -/
def isBlank (text : String) : Bool :=
  text.toList.all isWhiteSpace

end Interchange.Text
