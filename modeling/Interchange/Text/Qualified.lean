/-! Qualified names. A name is divided at its last separator: what stands before
it is the scope, what follows is the simple name. -/

namespace Interchange

structure QualifiedName where
  scope : Option String
  simple : String
deriving DecidableEq, Repr

namespace QualifiedName

/-- Scopes are divided by a point, nested declarations by a plus sign. -/
def isSeparator (char : Char) : Bool :=
  char == '.' || char == '+'

/-- Divides at the last separator; a name without one has no scope. -/
def ofString (name : String) : QualifiedName :=
  let backwards := name.toList.reverse
  let simple := (backwards.takeWhile fun char => !isSeparator char).reverse
  match backwards.dropWhile fun char => !isSeparator char with
  | [] => ⟨none, name⟩
  | _ :: scope => ⟨some (String.ofList scope.reverse), String.ofList simple⟩

end QualifiedName
end Interchange
