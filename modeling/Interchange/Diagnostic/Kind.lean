/-! The kinds of problems that registration reports, in order of priority, and
the words they are reported in. -/

namespace Interchange

inductive Severity where
  | error
  | warning
deriving DecidableEq, Repr

def Severity.name : Severity → String
  | .error => "error"
  | .warning => "warning"

/-- Words around a detail. -/
structure Template where
  before : String
  after : String
deriving DecidableEq, Repr

namespace Template

def fill (template : Template) (detail : String) : String :=
  template.before ++ detail ++ template.after

/-- The template itself, with a pair of braces where the detail goes. -/
def text (template : Template) : String :=
  template.fill "\x7b\x7d"

end Template

/-- Broken input comes first: it makes the affected slot disappear, and what is
reported later about the same owner is often a consequence. -/
inductive DiagnosticKind where
  | invalidAttributes
  | nullabilityMismatch
  | duplicateTypeName
  | underlyingNotIntegral
  | kindMismatch
  | emptyUnion
  | unionOnNonObject
  | incompatibleShapes
  | tupleNamesIgnored
deriving DecidableEq, Repr

namespace DiagnosticKind

/-- The highest priority first. -/
def all : List DiagnosticKind :=
  [invalidAttributes, nullabilityMismatch, duplicateTypeName, underlyingNotIntegral, kindMismatch, emptyUnion,
   unionOnNonObject, incompatibleShapes, tupleNamesIgnored]

def name : DiagnosticKind → String
  | invalidAttributes => "InvalidAttributes"
  | nullabilityMismatch => "NullabilityMismatch"
  | duplicateTypeName => "DuplicateTypeName"
  | underlyingNotIntegral => "UnderlyingNotIntegral"
  | kindMismatch => "KindMismatch"
  | emptyUnion => "EmptyUnion"
  | unionOnNonObject => "UnionOnNonObject"
  | incompatibleShapes => "IncompatibleShapes"
  | tupleNamesIgnored => "TupleNamesIgnored"

def ofName? (name : String) : Option DiagnosticKind :=
  all.find? fun kind => kind.name == name

def severity : DiagnosticKind → Severity
  | tupleNamesIgnored => .warning
  | _ => .error

def hint? : DiagnosticKind → Option String
  | nullabilityMismatch => some "getter and setter must agree on nullability"
  | unionOnNonObject => some "union members must be declared on an `object` member"
  | underlyingNotIntegral => some "use an integral type such as `int` or `byte`"
  | kindMismatch => some "the name may already be registered with another kind"
  | _ => none

/-- The message of a report without a detail. -/
def summary : DiagnosticKind → String
  | invalidAttributes => "invalid attribute data"
  | nullabilityMismatch => "read and write nullability differ"
  | duplicateTypeName => "duplicate type name"
  | underlyingNotIntegral => "enumeration underlying type must be integral"
  | kindMismatch => "type has the wrong kind for this declaration"
  | emptyUnion => "union declares no member type"
  | unionOnNonObject => "union declared on a non-object member"
  | incompatibleShapes => "incompatible shapes"
  | tupleNamesIgnored => "tuple names on a non-tuple member"

def template : DiagnosticKind → Template
  | duplicateTypeName => ⟨"`", "` is already registered"⟩
  | incompatibleShapes => ⟨"incompatible shapes: ", ""⟩
  | kindMismatch => ⟨"wrong kind: ", ""⟩
  | underlyingNotIntegral => ⟨"enumeration underlying type must be integral, found `", "`"⟩
  | kind => ⟨kind.summary ++ ": ", ""⟩

def message (kind : DiagnosticKind) : Option String → String
  | none => kind.summary
  | some detail => kind.template.fill detail

end DiagnosticKind
end Interchange
