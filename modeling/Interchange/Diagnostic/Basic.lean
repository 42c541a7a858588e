import Interchange.Diagnostic.Kind

/-! Diagnostics collected during registration. A problem does not end the pass,
so that one run reports as many of them as possible. -/

namespace Interchange

/-- A type, or one of its members. -/
structure Location where
  owner : String
  member : Option String
deriving DecidableEq, Repr

namespace Location

def ofType (owner : String) : Location :=
  ⟨owner, none⟩

def ofMember (owner member : String) : Location :=
  ⟨owner, some member⟩

def text (location : Location) : String :=
  match location.member with
  | some member => location.owner ++ "." ++ member
  | none => location.owner

end Location

structure Related where
  message : String
  location : Option Location
deriving DecidableEq, Repr

namespace Related

def text (related : Related) : String :=
  match related.location with
  | some location => related.message ++ " (" ++ location.text ++ ")"
  | none => related.message

end Related

structure Diagnostic where
  kind : DiagnosticKind
  location : Location
  message : String
  related : List Related
  hints : List String
deriving DecidableEq, Repr

namespace Diagnostic

/-- A report in the kind's own words, with the kind's own hint. -/
def ofKind (kind : DiagnosticKind) (location : Location) : Diagnostic :=
  ⟨kind, location, kind.summary, [], kind.hint?.toList⟩

def withDetail (diagnostic : Diagnostic) (detail : String) : Diagnostic :=
  { diagnostic with message := diagnostic.kind.message (some detail) }

def relatedTo (diagnostic : Diagnostic) (message : String) (location : Location) : Diagnostic :=
  { diagnostic with related := diagnostic.related ++ [⟨message, some location⟩] }

def withNote (diagnostic : Diagnostic) (message : String) : Diagnostic :=
  { diagnostic with related := diagnostic.related ++ [⟨message, none⟩] }

def withHint (diagnostic : Diagnostic) (hint : String) : Diagnostic :=
  { diagnostic with hints := diagnostic.hints ++ [hint] }

def severity (diagnostic : Diagnostic) : Severity :=
  diagnostic.kind.severity

def isError (diagnostic : Diagnostic) : Bool :=
  diagnostic.severity == .error

def isWarning (diagnostic : Diagnostic) : Bool :=
  diagnostic.severity == .warning

/-- The headline, the place, then a line for each note and each hint. -/
def text (diagnostic : Diagnostic) : String :=
  diagnostic.severity.name ++ ": " ++ diagnostic.message ++ "\n  --> " ++ diagnostic.location.text
    ++ String.join (diagnostic.related.map fun related => "\n  = note: " ++ related.text)
    ++ String.join (diagnostic.hints.map fun hint => "\n  = hint: " ++ hint)

end Diagnostic

/-- Diagnostics in the order in which they were reported. -/
structure Diagnostics where
  messages : Array Diagnostic
deriving DecidableEq, Repr

namespace Diagnostics

def empty : Diagnostics :=
  ⟨#[]⟩

def size (diagnostics : Diagnostics) : Nat :=
  diagnostics.messages.size

def toList (diagnostics : Diagnostics) : List Diagnostic :=
  diagnostics.messages.toList

def report (diagnostics : Diagnostics) (diagnostic : Diagnostic) : Diagnostics :=
  ⟨diagnostics.messages.push diagnostic⟩

def append (diagnostics later : Diagnostics) : Diagnostics :=
  ⟨diagnostics.messages ++ later.messages⟩

def errors (diagnostics : Diagnostics) : List Diagnostic :=
  diagnostics.toList.filter Diagnostic.isError

def warnings (diagnostics : Diagnostics) : List Diagnostic :=
  diagnostics.toList.filter Diagnostic.isWarning

def ofKind (diagnostics : Diagnostics) (kind : DiagnosticKind) : List Diagnostic :=
  diagnostics.toList.filter fun diagnostic => diagnostic.kind == kind

/-- By priority; within a kind the order of the reports is kept. -/
def byPriority (diagnostics : Diagnostics) : List Diagnostic :=
  DiagnosticKind.all.flatMap diagnostics.ofKind

end Diagnostics

/-- What to print of a list of diagnostics, and in which order. -/
structure DiagnosticsPrinter where
  sorted : Bool := false
  errorsOnly : Bool := false

def DiagnosticsPrinter.render (printer : DiagnosticsPrinter) (diagnostics : Diagnostics) : String :=
  let ordered := if printer.sorted then diagnostics.byPriority else diagnostics.toList
  let visible := if printer.errorsOnly then ordered.filter Diagnostic.isError else ordered
  "\n".intercalate (visible.map Diagnostic.text)

end Interchange
