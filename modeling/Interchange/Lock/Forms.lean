import Interchange.Catalog

/-! Normal forms. The oblivious form of a type stands for its identity at run time:
labels are gone, and so is the nullability of everything that is not a value. The
regular form has concrete collections in place of interfaces; read-only
collections have none. Forms may be types that nobody registered, so the table grows
while they are computed. -/

namespace Interchange

namespace Shape

/-- The shape without labels, each part replaced. -/
def erase (part : TypeId → TypeId) : Shape → Shape
  | tuple elements => .tuple (elements.map fun element => .positional (part element.ty))
  | array item => .array (part item)
  | list item form => .list (part item) form
  | set item form => .set (part item) form
  | dictionary key value form => .dictionary (part key) (part value) form
  | union members => .unionOf (members.map part)
  | shape => shape

/-- Shapes that are built from other types. -/
def isBuilt : Shape → Bool
  | tuple _ | array _ | list .. | set .. | dictionary .. | union _ => true
  | _ => false

/-- A read-only view of a collection cannot be built. -/
def isReadOnly : Shape → Bool
  | list _ form | set _ form | dictionary _ _ form => form == .readOnly
  | _ => false

/-- The shape with a concrete collection class, each part replaced. -/
def regularize (part : TypeId → TypeId) : Shape → Shape
  | tuple elements => .tuple (elements.map fun element => ⟨part element.ty, element.label⟩)
  | array item => .array (part item)
  | list item _ => .list (part item) .concrete
  | set item _ => .set (part item) .concrete
  | dictionary key value _ => .dictionary (part key) (part value) .concrete
  | union members => .unionOf (members.map part)
  | shape => shape

end Shape

namespace Catalog

def obliviousPair? (catalog : Catalog) (ty : TypeId) : Option TypeId :=
  (catalog.entry? ty).bind fun entry => entry.forms.oblivious

def regularPair? (catalog : Catalog) (ty : TypeId) : Option (Option TypeId) :=
  (catalog.entry? ty).bind fun entry => entry.forms.regular

def isValue (catalog : Catalog) (ty : TypeId) : Bool :=
  (catalog.shape? ty).any Shape.isValue

/-- The oblivious form of a type: values keep their nullability, all else is nullable. -/
def oblivious (catalog : Catalog) (ty : TypeId) : TypeId :=
  let pair := (catalog.obliviousPair? ty).getD ty.nonNull
  if catalog.isValue pair then pair.withNullability ty.nullable else pair.orNull

/-- The regular form of a type, with the type's nullability. -/
def regular? (catalog : Catalog) (ty : TypeId) : Option TypeId :=
  (catalog.regularPair? ty).join.map fun pair => pair.withNullability ty.nullable

/-- Records the oblivious form of a pair. The form is its own oblivious form. -/
def setOblivious (catalog : Catalog) (ty form : TypeId) : Catalog :=
  (catalog.modifyEntry ty fun entry => { entry with forms := { entry.forms with oblivious := some form } }).modifyEntry
    form fun entry =>
      { entry with forms := { entry.forms with oblivious := some (entry.forms.oblivious.getD form) } }

def setRegular (catalog : Catalog) (ty : TypeId) (form : Option TypeId) : Catalog :=
  catalog.modifyEntry ty fun entry => { entry with forms := { entry.forms with regular := some form } }

/-- The id of the shape that a type's parts remake it into. What is not built from parts stays the type it is. -/
def remake (catalog : Catalog) (ty : TypeId) (shape : Shape) : TypeId × Catalog :=
  if shape.isBuilt then catalog.intern shape else (ty.nonNull, catalog)

/-- Computes the oblivious form of a pair, after those of its parts. -/
def settleOblivious : Nat → Catalog → TypeId → Option Catalog
  | 0, _, _ => none
  | depth + 1, catalog, ty => do
    let entry ← catalog.entry? ty
    if entry.forms.oblivious.isSome then return catalog
    else
      let catalog ← entry.shape.parts.foldlM (settleOblivious depth) catalog
      let (form, catalog) := catalog.remake ty (entry.shape.erase catalog.oblivious)
      return catalog.setOblivious ty form

/-- Computes the regular form of a pair, after those of its parts. A part without one stays as it is. -/
def settleRegular : Nat → Catalog → TypeId → Option Catalog
  | 0, _, _ => none
  | depth + 1, catalog, ty => do
    let entry ← catalog.entry? ty
    if entry.forms.regular.isSome then return catalog
    else if entry.shape.isReadOnly then return catalog.setRegular ty none
    else
      let catalog ← entry.shape.parts.foldlM (settleRegular depth) catalog
      let part (ty : TypeId) := (catalog.regular? ty).getD ty
      let (form, catalog) := catalog.remake ty (entry.shape.regularize part)
      return catalog.setRegular ty (some form)

/-- Computes the forms of the pairs from an index on, those entered on the way included. -/
def settleFrom : Nat → Nat → Catalog → Option Catalog
  | 0, _, _ => none
  | fuel + 1, pair, catalog =>
    if pair < catalog.size then do
      let catalog ← settleOblivious (catalog.size + 1) catalog (.ofPair pair)
      let catalog ← settleRegular (catalog.size + 1) catalog (.ofPair pair)
      settleFrom fuel (pair + 1) catalog
    else some catalog

/-- Computes the forms of all pairs. The two forms are stable and commute, so a
pair brings at most three others into the table. -/
def withForms? (catalog : Catalog) : Option Catalog :=
  settleFrom (8 * catalog.size) 0 catalog

end Catalog
end Interchange
