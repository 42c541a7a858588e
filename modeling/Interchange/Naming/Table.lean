import Interchange.ExchangeSet
import Interchange.Naming.Strategy
import Interchange.Text.Blank

/-! Names of types. The name of a type may contain the names of its parts, which are
found first; each name is found once and kept in a table. -/

namespace Interchange

structure NameEntry where
  name : String
  nullableName : String
  /-- The name contains that of a union, which depends on the members that are eligible. -/
  subsetDependent : Bool
deriving DecidableEq, Repr

/-- The name that goes with the nullability of a type. -/
def NameEntry.nameOf (entry : NameEntry) (ty : TypeId) : String :=
  if ty.nullable then entry.nullableName else entry.name

/-- A place for the names of each pair. -/
structure NameTable where
  entries : Array (Option NameEntry)
deriving DecidableEq, Repr

namespace NameTable

def empty (pairs : Nat) : NameTable :=
  ⟨Array.replicate pairs none⟩

def get? (table : NameTable) (ty : TypeId) : Option NameEntry :=
  table.entries[ty.pair]?.join

def insert (table : NameTable) (ty : TypeId) (entry : NameEntry) : NameTable :=
  ⟨table.entries.setIfInBounds ty.pair (some entry)⟩

/-- The names that stay right for every subset. -/
def reusable (table : NameTable) : NameTable :=
  ⟨table.entries.map fun entry => entry.filter fun found => !found.subsetDependent⟩

end NameTable

/-- Everything that the name of a type depends on. -/
structure Namer where
  system : System
  naming : Naming
  config : Config
  set : ExchangeSet

namespace Namer

/-- A rule must give a name, and one that is not blank. -/
def check (namer : Namer) (ty : TypeId) (shape : Shape) : Option String → Except Error String
  | none => .error (.unsupportedShape ((namer.system.display? ty).getD "") shape.kind)
  | some name =>
    if Text.isBlank name then .error (.invalidName ((namer.system.display? ty).getD "") name) else .ok name

/-- The parts whose names a rule needs, with their labels. Of a union only eligible members count. -/
def parts (namer : Namer) : Shape → List (TypeId × Option String)
  | .secondary _ primary => [(primary, none)]
  | .tuple elements =>
    elements.map fun element => (element.ty, element.label.bind namer.system.catalog.strings.get?)
  | .union members => (members.filter namer.set.isEligible).map fun member => (member, none)
  | shape => shape.parts.map fun part => (part, none)

abbrev Lookup := NameTable → TypeId → Except Error (NameEntry × NameTable)

/-- The names of parts, from left to right, and whether one of them depends on the subset. -/
def namedParts (lookup : Lookup) : NameTable → List (TypeId × Option String) → Except Error (List NamedPart × Bool × NameTable)
  | table, [] => .ok ([], false, table)
  | table, (ty, label) :: rest => do
    let (entry, table) ← lookup table ty
    let (parts, dependent, table) ← namedParts lookup table rest
    return (⟨ty, entry.nameOf ty, label⟩ :: parts, entry.subsetDependent || dependent, table)

/-- Applies the rules to a type whose parts have got their names. -/
def makeEntry (namer : Namer) (ty : TypeId) (shape : Shape) (parts : List NamedPart) (dependent : Bool) :
    Except Error NameEntry := do
  let context : NameContext := ⟨namer.system, namer.config, ty⟩
  let name ← namer.check ty shape (namer.naming.nameShape context shape parts)
  let nullableName ← namer.check ty.orNull shape (namer.naming.nullable context name)
  return ⟨name, nullableName, dependent || shape.kind == .union⟩

/-- Stands for what comes of a type that contains itself: its name would have no end. -/
def endless : Error :=
  .notInSubset ""

/-- The names of a pair that is not nested deeper than the given number of levels. -/
def entryWithin (namer : Namer) : Nat → Lookup
  | 0, _, _ => .error endless
  | depth + 1, table, ty =>
    match table.get? ty with
    | some entry => .ok (entry, table)
    | none =>
      match namer.system.shape? ty with
      | none => .error (.notInSubset ty.tag)
      | some shape => do
        let (parts, dependent, table) ← namedParts (namer.entryWithin depth) table (namer.parts shape)
        let entry ← namer.makeEntry ty.nonNull shape parts dependent
        return (entry, table.insert ty entry)

/-- The names of a pair. A type that is nested deeper than there are pairs contains itself. -/
def entry (namer : Namer) : Lookup :=
  namer.entryWithin (namer.system.size + 1)

/-- Names all eligible types in the order of registration. -/
def nameAll (namer : Namer) (table : NameTable) : Except Error NameTable :=
  namer.set.types.foldlM (fun table ty => return (← namer.entry table ty).2) table

end Namer
end Interchange
