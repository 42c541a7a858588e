import Interchange.Builder
import Interchange.Nullability

/-! Members of records and interface families. A slot collects all declarations of
one member name on one owner. Each declaration is checked by itself; then the
types of a slot are reconciled into one field. -/

namespace Interchange

structure Member where
  name : String
  /-- The accessors' nullability counts, not that of the declared type. -/
  ty : TypeId
  read : Nullability
  write : Nullability
  attributes : Attributes
  /-- The text of attributes; it takes precedence over `attributes`. -/
  blob : Option String
  /-- The members of a union, which may be declared on the universal type only. -/
  union : Option (List TypeId)

/-- A declaration that passed its checks. -/
structure Declared where
  ty : TypeId
  explicitDefault : Bool
  origin : Option TypeId
deriving DecidableEq, Repr

structure Slot where
  name : String
  declared : List Declared
deriving DecidableEq, Repr

/-- Slots stay in the order of their first declaration. -/
def Slot.insert (name : String) (declared : Declared) : List Slot → List Slot
  | [] => [⟨name, [declared]⟩]
  | slot :: rest =>
    if slot.name = name then ⟨name, slot.declared ++ [declared]⟩ :: rest
    else slot :: insert name declared rest

namespace Builder

/-- The attributes of a declaration, unless their text cannot be read. -/
def memberAttributes (builder : Builder) (member : Member) (location : Location) :
    Option Attributes × Builder :=
  match member.blob with
  | none => (some member.attributes, builder)
  | some text =>
    match Attributes.ofString text with
    | .ok attributes => (some attributes, builder)
    | .error error =>
      (none, builder.report ((Diagnostic.ofKind .invalidAttributes location).withDetail error.message))

/-- The declared type, or the union declared on it. -/
def memberShape (builder : Builder) (member : Member) (location : Location) :
    Option (Option TypeId × Builder) :=
  let ty := member.ty.nonNull
  match member.union with
  | none => some (some ty, builder)
  | some members =>
    if ty.isAny then
      if members.isEmpty then some (none, builder.report (Diagnostic.ofKind .emptyUnion location))
      else
        let (ty, builder) := builder.union members
        some (some ty, builder)
    else do
      let found ← builder.catalog.display? ty
      let detail := "declared on `" ++ found ++ "`"
      return (none, builder.report ((Diagnostic.ofKind .unionOnNonObject location).withDetail detail))

/-- Labels the elements of a tuple. On another type the labels have no effect. -/
def labelled (builder : Builder) (ty : TypeId) (names : List (Option String)) (location : Location) :
    Option (Option TypeId × Builder) :=
  if names.isEmpty then some (some ty, builder)
  else
    match builder.catalog.shape? ty with
    | none => none
    | some (.tuple elements) =>
      if elements.length = names.length then
        let (ty, builder) := builder.namedTuple ((elements.map TupleElement.ty).zip names)
        some (some ty, builder)
      else
        let detail := s!"expected {elements.length} tuple names, found {names.length}"
        some (none, builder.report ((Diagnostic.ofKind .invalidAttributes location).withDetail detail))
    | some _ => do
      let found ← builder.catalog.display? ty
      let detail := "`" ++ found ++ "` is not a tuple"
      return (some ty, builder.report ((Diagnostic.ofKind .tupleNamesIgnored location).withDetail detail))

/-- Checks one declaration. It is dropped if a check fails, and the first failure is reported. -/
def checkMember (builder : Builder) (member : Member) (origin : Option TypeId) (location : Location) :
    Option (Option Declared × Builder) :=
  match builder.memberAttributes member location with
  | (none, builder) => some (none, builder)
  | (some attributes, builder) =>
    if member.read = member.write then
      match builder.memberShape member location with
      | none => none
      | some (none, builder) => some (none, builder)
      | some (some ty, builder) =>
        match builder.labelled ty attributes.tupleNames location with
        | none => none
        | some (none, builder) => some (none, builder)
        | some (some ty, builder) =>
          some (some ⟨ty.withNullability member.read.isNullable, attributes.hasDefault, origin⟩, builder)
    else some (none, builder.report (Diagnostic.ofKind .nullabilityMismatch location))

/-- Sorts the declarations that pass their checks into slots. -/
def collectSlots (builder : Builder) (owner : String) (slots : List Slot) :
    List (Option TypeId × Member) → Option (List Slot × Builder)
  | [] => some (slots, builder)
  | (origin, member) :: rest =>
    match builder.checkMember member origin (.ofMember owner member.name) with
    | none => none
    | some (none, builder) => builder.collectSlots owner slots rest
    | some (some declared, builder) => builder.collectSlots owner (Slot.insert member.name declared slots) rest

/-- Reports the two types that clash in a slot; what clashes inside of them is a note. -/
def reportConflict (builder : Builder) (conflict : SlotConflict) (location : Location) : Option Builder := do
  let left ← builder.catalog.display? conflict.left
  let right ← builder.catalog.display? conflict.right
  let note ← builder.catalog.describe? conflict.cause
  let isOuter := conflict.cause.operands? = some (conflict.left.nonNull, conflict.right.nonNull)
  let headline := (Diagnostic.ofKind .incompatibleShapes location).withDetail ("`" ++ left ++ "` and `" ++ right ++ "`")
  return builder.report (if isOuter then headline else headline.withNote note)

/-- Makes a field of a slot, unless its declarations disagree. The first declaration gives the origin. -/
def settleSlot (builder : Builder) (owner : String) (slot : Slot) : Option (Option Field × Builder) :=
  match builder.resolveSlot (slot.declared.map Declared.ty) with
  | (.ok none, builder) => some (none, builder)
  | (.ok (some ty), builder) =>
    let (name, strings) := builder.catalog.strings.intern slot.name
    let field : Field :=
      { name, ty, policy := .allowed
        explicitDefault := slot.declared.any Declared.explicitDefault
        origin := slot.declared.head?.bind Declared.origin }
    some (some field, { builder with catalog := { builder.catalog with strings } })
  | (.error conflict, builder) =>
    (builder.reportConflict conflict (.ofMember owner slot.name)).map fun builder => (none, builder)

/-- The field of a slot stands before those that the run goes on to make. -/
def andThen (outcome : Option (Option Field × Builder)) (run : Builder → Option (List Field × Builder)) :
    Option (List Field × Builder) := do
  let (field, builder) ← outcome
  let (fields, builder) ← run builder
  return (field.toList ++ fields, builder)

def resolveSlots (builder : Builder) (owner : String) : List Slot → Option (List Field × Builder)
  | [] => some ([], builder)
  | slot :: rest => andThen (builder.settleSlot owner slot) fun builder => builder.resolveSlots owner rest

/-- Gives a record or a primary interface its fields, in place of those it had. -/
def defineMembers (builder : Builder) (owner : TypeId) (members : List (Option TypeId × Member)) : Option Builder := do
  let shape ← builder.catalog.shape? owner
  if shape.kind.isComposite then
    let name ← builder.catalog.display? owner.nonNull
    let (slots, builder) ← builder.collectSlots name [] members
    let (fields, builder) ← builder.resolveSlots name slots
    return { builder with catalog := builder.catalog.modifyShape owner fun shape => shape.withFields fields }
  else builder.reportKind owner "a record or primary interface"

def defineFields (builder : Builder) (owner : TypeId) (members : List Member) : Option Builder :=
  builder.defineMembers owner (members.map fun member => (none, member))

/-- The members of a whole family, each with the interface that declares it. -/
def defineFamily (builder : Builder) (primary : TypeId) (members : List (TypeId × Member)) : Option Builder :=
  builder.defineMembers primary (members.map fun (interface, member) => (some interface.nonNull, member))

end Builder
end Interchange
