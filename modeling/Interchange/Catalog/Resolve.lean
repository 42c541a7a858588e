import Interchange.Catalog.Derivation

/-! Reconciling shapes. When a member is declared several times, the declared
types are folded into the most specific type that is compatible with all of
them. The result is nullable only if all of them are; the universal type yields to
any other; value types and basic types must be the same; collections of one family
agree item by item; of two interface families the more derived one wins. -/

namespace Interchange

inductive Clash where
  /-- Different kinds, or value types that are not the same. -/
  | incompatible
  /-- Collections of different families, such as a list and a set. -/
  | familyMismatch
  | keyMismatch
  | itemMismatch
deriving DecidableEq, Repr

/-- Why two types cannot be reconciled. -/
inductive Conflict where
  /-- The innermost pair that clashes. -/
  | clash (reason : Clash) (left right : TypeId)
  /-- There is no answer: a type that is not registered was looked up, or the search
  does not end, as above an interface that is above itself. -/
  | unregistered
deriving DecidableEq, Repr

/-- The innermost pair that clashes. -/
def Conflict.operands? : Conflict → Option (TypeId × TypeId)
  | .clash _ left right => some (left, right)
  | .unregistered => none

/-- The type folded so far, and the declaration that cannot be merged into it. -/
structure SlotConflict where
  left : TypeId
  right : TypeId
  cause : Conflict
deriving DecidableEq, Repr

def Clash.describe (reason : Clash) (left right : String) : String :=
  match reason with
  | .incompatible => "`" ++ left ++ "` is not compatible with `" ++ right ++ "`"
  | .familyMismatch => "`" ++ left ++ "` and `" ++ right ++ "` are different collection families"
  | .keyMismatch => "dictionary keys `" ++ left ++ "` and `" ++ right ++ "` must be identical"
  | .itemMismatch => "array items `" ++ left ++ "` and `" ++ right ++ "` must be identical"

namespace Shape

/-- Value types and basic types cannot be widened. -/
def isExact (shape : Shape) : Bool :=
  shape.isValue || shape.kind == .basic

/-- A secondary interface stands for its primary. -/
def family (shape : Shape) (ty : TypeId) : TypeId :=
  match shape with
  | .secondary _ head => head
  | _ => ty

end Shape

/-- Both sides must agree to keep an interface; otherwise the collection is concrete. -/
def CollectionForm.common (left right : CollectionForm) : CollectionForm :=
  if left = right then left else .concrete

namespace Catalog

abbrev Resolution := Except Conflict (TypeId × Catalog)

/-- One of the operands if it is the wanted shape already, else that shape. -/
def chooseOrIntern (catalog : Catalog) (left right : TypeId) (isLeft isRight : Bool) (shape : Shape) : TypeId × Catalog :=
  if isLeft then (left, catalog)
  else if isRight then (right, catalog)
  else catalog.intern shape

/-- Of two families the one that derives from the other. -/
def resolveFamilies (catalog : Catalog) (left right : TypeId) (clash : Conflict) : Resolution :=
  if left = right then .ok (left, catalog)
  else
    match catalog.derivesFrom? left right with
    | none => .error .unregistered
    | some true => .ok (left, catalog)
    | some false =>
      match catalog.derivesFrom? right left with
      | none => .error .unregistered
      | some true => .ok (right, catalog)
      | some false => .error clash

/-- Reconciles two non-nullable types; `inner` reconciles what they are made of. -/
def resolveShapes (catalog : Catalog) (inner : TypeId → TypeId → Resolution) (left right : TypeId) : Resolution :=
  if left = right then .ok (left, catalog)
  else if left.isAny then .ok (right, catalog)
  else if right.isAny then .ok (left, catalog)
  else
    match catalog.shape? left, catalog.shape? right with
    | some leftShape, some rightShape =>
      if leftShape.isExact || rightShape.isExact then .error (.clash .incompatible left right)
      else
        match leftShape, rightShape with
        | .array leftItem, .array rightItem => .error (.clash .itemMismatch leftItem rightItem)
        | .array leftItem, .list rightItem .readOnly =>
          if leftItem = rightItem then .ok (left, catalog) else .error (.clash .familyMismatch left right)
        | .list leftItem .readOnly, .array rightItem =>
          if leftItem = rightItem then .ok (right, catalog) else .error (.clash .familyMismatch left right)
        | .list leftItem leftForm, .list rightItem rightForm => do
          let (item, catalog) ← inner leftItem rightItem
          let form := leftForm.common rightForm
          return catalog.chooseOrIntern left right (item = leftItem ∧ form = leftForm)
            (item = rightItem ∧ form = rightForm) (.list item form)
        | .set leftItem leftForm, .set rightItem rightForm => do
          let (item, catalog) ← inner leftItem rightItem
          let form := leftForm.common rightForm
          return catalog.chooseOrIntern left right (item = leftItem ∧ form = leftForm)
            (item = rightItem ∧ form = rightForm) (.set item form)
        | .dictionary leftKey leftValue leftForm, .dictionary rightKey rightValue rightForm =>
          if leftKey = rightKey then do
            let (value, catalog) ← inner leftValue rightValue
            let form := leftForm.common rightForm
            return catalog.chooseOrIntern left right (value = leftValue ∧ form = leftForm)
              (value = rightValue ∧ form = rightForm) (.dictionary leftKey value form)
          else .error (.clash .keyMismatch leftKey rightKey)
        | _, _ =>
          if leftShape.kind.isCollection && rightShape.kind.isCollection then
            .error (.clash .familyMismatch left right)
          else
            catalog.resolveFamilies (leftShape.family left) (rightShape.family right)
              (.clash .incompatible left right)
    | _, _ => .error .unregistered

/-- Reconciles two types that are not nested deeper than the given number of levels. -/
def resolveWithin (catalog : Catalog) : Nat → TypeId → TypeId → Resolution
  | 0, _, _ => .error .unregistered
  | depth + 1, left, right => do
    let (ty, catalog) ← catalog.resolveShapes (catalog.resolveWithin depth) left.nonNull right.nonNull
    return (ty.withNullability (left.nullable && right.nullable), catalog)

/-- The most specific type that is compatible with both, entered if it is new. -/
def resolvePair (catalog : Catalog) (left right : TypeId) : Resolution :=
  catalog.resolveWithin (catalog.size + 1) left right

/-- Folds further declarations into a type. What was entered on the way stays, also after a conflict. -/
def foldSlot (catalog : Catalog) (left : TypeId) : List TypeId → Except SlotConflict TypeId × Catalog
  | [] => (.ok left, catalog)
  | right :: rest =>
    match catalog.resolvePair left right with
    | .ok (ty, catalog) => catalog.foldSlot ty rest
    | .error cause => (.error ⟨left, right, cause⟩, catalog)

/-- Folds all declarations of a slot; an empty slot has no type. -/
def resolveSlot (catalog : Catalog) : List TypeId → Except SlotConflict (Option TypeId) × Catalog
  | [] => (.ok none, catalog)
  | first :: rest =>
    let (result, catalog) := catalog.foldSlot first rest
    (result.map some, catalog)

/-- What a message says about a conflict; nothing if a type is not registered. -/
def describe? (catalog : Catalog) : Conflict → Option String
  | .clash reason left right => do
    let left ← catalog.display? left
    let right ← catalog.display? right
    return reason.describe left right
  | .unregistered => none

end Catalog
end Interchange
