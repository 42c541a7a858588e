import Interchange.Attributes
import Interchange.Catalog.Resolve
import Interchange.Diagnostic.Basic

/-! Registration of types. Problems are reported and do not stop it. An operation
that has to look at a type which is not registered has no result. -/

namespace Interchange

structure Builder where
  catalog : Catalog
  diagnostics : Diagnostics
deriving DecidableEq, Repr

namespace Builder

def new : Builder :=
  ⟨.standard, .empty⟩

def size (builder : Builder) : Nat :=
  builder.catalog.size

def report (builder : Builder) (diagnostic : Diagnostic) : Builder :=
  { builder with diagnostics := builder.diagnostics.report diagnostic }

/-- Enters a shape without a name. -/
def intern (builder : Builder) (shape : Shape) : TypeId × Builder :=
  let (ty, catalog) := builder.catalog.intern shape
  (ty, { builder with catalog })

/-- Enters a named type. The declared name is interned first, then the external
name, then the previous ones. A name that is taken is reported and keeps its type. -/
def declare (builder : Builder) (name : String) (attributes : Attributes) (shape : Symbol → Shape) : TypeId × Builder :=
  let (symbol, strings) := builder.catalog.strings.intern name
  let catalog := { builder.catalog with strings }
  match catalog.named? symbol with
  | some existing =>
    let duplicate := (Diagnostic.ofKind .duplicateTypeName (.ofType name)).withDetail name
    (existing, { builder with catalog }.report duplicate)
  | none =>
    let (externalName, strings) := strings.internOption attributes.externalName
    let (previousNames, strings) := strings.internAll attributes.previousNames
    let (ty, catalog) := { catalog with strings }.push { shape := shape symbol, externalName, previousNames }
    (ty, { builder with catalog })

/-- An underlying type that is not integral is reported, and the declaration stands. -/
def declareEnum (builder : Builder) (name : String) (underlying : BasicType) (attributes : Attributes) :
    TypeId × Builder :=
  let checked :=
    if underlying.isIntegral then builder
    else builder.report ((Diagnostic.ofKind .underlyingNotIntegral (.ofType name)).withDetail underlying.name)
  checked.declare name attributes fun symbol => .enumeration symbol underlying.id

def declareRecord (builder : Builder) (name : String) (isValue : Bool) (attributes : Attributes) : TypeId × Builder :=
  builder.declare name attributes fun symbol => .record symbol isValue []

def declarePrimary (builder : Builder) (name : String) (attributes : Attributes) : TypeId × Builder :=
  builder.declare name attributes fun symbol => .primary symbol [] [] []

/-- Another interface of the family of `primary`, which is told about it. -/
def declareSecondary (builder : Builder) (name : String) (primary : TypeId) (attributes : Attributes) :
    Option (TypeId × Builder) :=
  let (ty, builder) := builder.declare name attributes fun symbol => .secondary symbol primary.nonNull
  if builder.catalog.contains primary then
    some (ty, { builder with catalog := builder.catalog.modifyShape primary fun shape => shape.addSecondary ty })
  else none

def declareAbstraction (builder : Builder) (name : String) (generalizations : List TypeId) (attributes : Attributes) :
    TypeId × Builder :=
  builder.declare name attributes fun symbol => .abstraction symbol (generalizations.map TypeId.nonNull) []

/-- Reports that a type has another kind than a declaration needs. -/
def reportKind (builder : Builder) (ty : TypeId) (expected : String) : Option Builder := do
  let name ← builder.catalog.display? ty.nonNull
  let shape ← builder.catalog.shape? ty
  let detail := "`" ++ name ++ "` is " ++ shape.kind.name ++ ", expected " ++ expected
  return builder.report ((Diagnostic.ofKind .kindMismatch (.ofType name)).withDetail detail)

/-- The family of `primary` implements an abstraction. Nothing is recorded if either has another kind. -/
def implement (builder : Builder) (primary abstraction : TypeId) : Option Builder := do
  let above ← builder.catalog.shape? abstraction
  if above.kind = .abstraction then
    let family ← builder.catalog.shape? primary
    if family.kind = .primary then
      let catalog := builder.catalog.modifyShape primary fun shape => shape.addAbstraction abstraction.nonNull
      return { builder with catalog }
    else builder.reportKind primary "a primary interface"
  else builder.reportKind abstraction "an abstract interface"

def array (builder : Builder) (item : TypeId) : TypeId × Builder :=
  builder.intern (.array item)

def list (builder : Builder) (item : TypeId) (form : CollectionForm) : TypeId × Builder :=
  builder.intern (.list item form)

def set (builder : Builder) (item : TypeId) (form : CollectionForm) : TypeId × Builder :=
  builder.intern (.set item form)

def dictionary (builder : Builder) (key value : TypeId) (form : CollectionForm) : TypeId × Builder :=
  builder.intern (.dictionary key value form)

/-- A tuple of positional elements. -/
def tuple (builder : Builder) (items : List TypeId) : TypeId × Builder :=
  builder.intern (.tuple (items.map TupleElement.positional))

/-- A tuple whose elements may have labels. -/
def namedTuple (builder : Builder) (items : List (TypeId × Option String)) : TypeId × Builder :=
  let (elements, catalog) := builder.catalog.label items
  { builder with catalog }.intern (.tuple elements)

/-- Repeated members are dropped, the order of declaration is kept. -/
def union (builder : Builder) (members : List TypeId) : TypeId × Builder :=
  builder.intern (.unionOf members)

/-- Reconciles two types; a conflict changes nothing. -/
def resolvePair (builder : Builder) (left right : TypeId) : Except Conflict (TypeId × Builder) := do
  let (ty, catalog) ← builder.catalog.resolvePair left right
  return (ty, { builder with catalog })

def resolveSlot (builder : Builder) (types : List TypeId) : Except SlotConflict (Option TypeId) × Builder :=
  let (result, catalog) := builder.catalog.resolveSlot types
  (result, { builder with catalog })

end Builder
end Interchange
