import Interchange.Interner
import Interchange.Kind

/-! One level of a type: its kind and the ids of the types it is made of. Shapes
without a name are told apart by their content, named ones by their name. -/

namespace Interchange

structure Field where
  name : Symbol
  ty : TypeId
  /-- Known once the types are locked. -/
  policy : DefaultPolicy
  /-- A declaration gave a default value. -/
  explicitDefault : Bool
  /-- The interface that declared the field first. -/
  origin : Option TypeId
deriving DecidableEq, Repr

structure TupleElement where
  ty : TypeId
  label : Option Symbol
deriving DecidableEq, Repr

namespace TupleElement

def positional (ty : TypeId) : TupleElement :=
  ⟨ty, none⟩

end TupleElement

inductive Shape where
  | any
  | basic (basic : BasicType)
  | enumeration (name : Symbol) (underlying : TypeId)
  | record (name : Symbol) (isValue : Bool) (fields : List Field)
  | tuple (elements : List TupleElement)
  /-- The data shape of an interface family. -/
  | primary (name : Symbol) (fields : List Field) (secondaries abstractions : List TypeId)
  /-- Another name for the family of a primary interface. -/
  | secondary (name : Symbol) (primary : TypeId)
  /-- The primary interfaces that implement an abstraction are known once the types are locked. -/
  | abstraction (name : Symbol) (generalizations allowed : List TypeId)
  | array (item : TypeId)
  | list (item : TypeId) (form : CollectionForm)
  | set (item : TypeId) (form : CollectionForm)
  | dictionary (key value : TypeId) (form : CollectionForm)
  | union (members : List TypeId)
deriving DecidableEq, Repr

namespace Shape

/-- A union lists each member once, in the order of declaration. -/
def unionOf (members : List TypeId) : Shape :=
  .union members.eraseDups

def kind : Shape → Kind
  | any => .any
  | basic _ => .basic
  | enumeration .. => .enumeration
  | record .. => .record
  | tuple _ => .tuple
  | primary .. => .primary
  | secondary .. => .secondary
  | abstraction .. => .abstraction
  | array _ => .array
  | list .. => .list
  | set .. => .set
  | dictionary .. => .dictionary
  | union _ => .union

def name? : Shape → Option Symbol
  | enumeration name _ | record name _ _ | primary name _ _ _ | secondary name _ | abstraction name _ _ => some name
  | _ => none

/-- What tells a shape from all others: its name, or else its content. -/
def identity (shape : Shape) : Symbol ⊕ Shape :=
  match shape.name? with
  | some name => .inl name
  | none => .inr shape

/-- A shape without a name. -/
def content? (shape : Shape) : Option Shape :=
  match shape.name? with
  | some _ => none
  | none => some shape

/-- Values of these kinds are told apart from their nullable counterparts at run time. -/
def isValue : Shape → Bool
  | basic type => type.isValue
  | enumeration .. | tuple _ => true
  | record _ value _ => value
  | _ => false

def fields : Shape → List Field
  | record _ _ fields | primary _ fields _ _ => fields
  | _ => []

/-- An array is a collection class of its own. -/
def form? : Shape → Option CollectionForm
  | array _ => some .concrete
  | list _ form | set _ form | dictionary _ _ form => some form
  | _ => none

/-- The types that an anonymous shape is built from. -/
def parts : Shape → List TypeId
  | tuple elements => elements.map TupleElement.ty
  | array item | list item _ | set item _ => [item]
  | dictionary key value _ => [key, value]
  | union members => members
  | _ => []

/-- The types that a shape mentions, in the order of its slots. -/
def components : Shape → List TypeId
  | enumeration _ underlying => [underlying]
  | record _ _ fields | primary _ fields _ _ => fields.map Field.ty
  | secondary _ family => [family]
  | abstraction _ _ allowed => allowed
  | shape => shape.parts

/-- The more general types that a family or an abstraction names directly. -/
def parents : Shape → List TypeId
  | primary _ _ _ abstractions => abstractions
  | abstraction _ generalizations _ => generalizations
  | _ => []

def withFields (shape : Shape) (fields : List Field) : Shape :=
  match shape with
  | record name value _ => .record name value fields
  | primary name _ secondaries abstractions => .primary name fields secondaries abstractions
  | other => other

/-- Appends an id that is not in the list yet. -/
def adjoin (ids : List TypeId) (ty : TypeId) : List TypeId :=
  if ids.contains ty then ids else ids ++ [ty]

def addSecondary (shape : Shape) (ty : TypeId) : Shape :=
  match shape with
  | primary name fields secondaries abstractions => .primary name fields (adjoin secondaries ty) abstractions
  | other => other

def addAbstraction (shape : Shape) (ty : TypeId) : Shape :=
  match shape with
  | primary name fields secondaries abstractions => .primary name fields secondaries (adjoin abstractions ty)
  | other => other

def addAllowed (shape : Shape) (ty : TypeId) : Shape :=
  match shape with
  | abstraction name generalizations allowed => .abstraction name generalizations (adjoin allowed ty)
  | other => other

@[simp] theorem withFields_identity (fields : List Field) (shape : Shape) :
    (shape.withFields fields).identity = shape.identity := by
  cases shape <;> rfl

@[simp] theorem addSecondary_identity (ty : TypeId) (shape : Shape) : (shape.addSecondary ty).identity = shape.identity := by
  cases shape <;> rfl

@[simp] theorem addAbstraction_identity (ty : TypeId) (shape : Shape) :
    (shape.addAbstraction ty).identity = shape.identity := by
  cases shape <;> rfl

@[simp] theorem addAllowed_identity (ty : TypeId) (shape : Shape) : (shape.addAllowed ty).identity = shape.identity := by
  cases shape <;> rfl

theorem name?_of_identity {before after : Shape} (same : after.identity = before.identity) : after.name? = before.name? := by
  unfold identity at same
  cases left : after.name? <;> cases right : before.name? <;> simp_all

theorem content?_of_identity {before after : Shape} (same : after.identity = before.identity) :
    after.content? = before.content? := by
  unfold identity at same
  unfold content?
  cases left : after.name? <;> cases right : before.name? <;> simp_all

end Shape
end Interchange
