/-! Interned strings. A string is stored once; its symbol is its position in the
order of first use. Symbols are numbers of 32 bits, so positions are exact up to 2^32
strings. -/

namespace Interchange

structure Symbol where
  index : Nat
deriving DecidableEq, Repr

structure Interner where
  strings : Array String
deriving DecidableEq, Repr

namespace Interner

def empty : Interner :=
  ⟨#[]⟩

def size (interner : Interner) : Nat :=
  interner.strings.size

/-- The symbol of a string that has been interned. -/
def find? (interner : Interner) (text : String) : Option Symbol :=
  (interner.strings.findIdx? (· == text)).map Symbol.mk

def get? (interner : Interner) (symbol : Symbol) : Option String :=
  interner.strings[symbol.index]?

/-- The symbol of a string, which is appended at its first use. -/
def intern (interner : Interner) (text : String) : Symbol × Interner :=
  match interner.find? text with
  | some symbol => (symbol, interner)
  | none => (⟨interner.size⟩, ⟨interner.strings.push text⟩)

/-- Interns several strings from left to right. -/
def internAll (interner : Interner) : List String → List Symbol × Interner
  | [] => ([], interner)
  | text :: rest =>
    let (symbol, interner) := interner.intern text
    let (symbols, interner) := interner.internAll rest
    (symbol :: symbols, interner)

/-- Interns the string if there is one. -/
def internOption (interner : Interner) : Option String → Option Symbol × Interner
  | none => (none, interner)
  | some text =>
    let (symbol, interner) := interner.intern text
    (some symbol, interner)

end Interner
end Interchange
