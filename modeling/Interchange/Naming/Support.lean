import Interchange.ExchangeSet

/-! Support shapes: collections of polymorphic items need generated adapters. -/

namespace Interchange

structure SupportShape where
  kind : Kind
  /-- The first eligible collection that needs the adapter. -/
  collection : TypeId
  key : Option TypeId
  item : TypeId
  name : String
deriving DecidableEq, Repr

namespace SupportShape

/-- Abstractions and unions need an adapter; the universal type does not. -/
def isAdapted (system : System) (item : TypeId) : Bool :=
  (system.shape? item).any fun shape => shape.kind == .abstraction || shape.kind == .union

/-- The adapter that a collection would need, named for its kind and its arguments. -/
def ofCollection? (collection : TypeId) : Shape → Option SupportShape
  | .array item => some ⟨.array, collection, none, item, s!"Array_{item.raw}_Generated"⟩
  | .list item _ => some ⟨.list, collection, none, item, s!"List_{item.raw}_Generated"⟩
  | .set item _ => some ⟨.set, collection, none, item, s!"Set_{item.raw}_Generated"⟩
  | .dictionary key item _ =>
    some ⟨.dictionary, collection, some key, item, s!"Dictionary_{key.raw}_{item.raw}_Generated"⟩
  | _ => none

/-- Adapters that the eligible collections need, in the order of registration. -/
def needed (system : System) (set : ExchangeSet) : List SupportShape :=
  set.types.filterMap fun ty =>
    ((system.shape? ty).bind (ofCollection? ty)).filter fun shape => isAdapted system shape.item

/-- Takes an adapter into the list, unless its name is taken. -/
def adopt (shapes : List SupportShape) (shape : SupportShape) : List SupportShape :=
  if shapes.any fun earlier => earlier.name == shape.name then shapes else shapes ++ [shape]

/-- Collections that need an adapter of the same name share the first one. -/
def collect (system : System) (set : ExchangeSet) : List SupportShape :=
  (needed system set).foldl adopt []

end SupportShape
end Interchange
