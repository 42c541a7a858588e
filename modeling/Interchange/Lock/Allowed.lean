import Interchange.Catalog.Derivation

/-! The primary interfaces that each abstraction admits. -/

namespace Interchange.Catalog

/-- Enters a family with each of the abstractions it implements. -/
def allow (catalog : Catalog) (family : TypeId) (abstractions : List Nat) : Catalog :=
  abstractions.foldl
    (fun catalog pair => catalog.modifyShape (.ofPair pair) fun shape => shape.addAllowed family) catalog

/-- Fills the abstractions' lists, family by family in the order of registration;
nothing if a family implements an abstraction that is not registered. -/
def withAllowed? (catalog : Catalog) : Option Catalog :=
  catalog.types.foldlM (fun filled family =>
    match catalog.shape? family with
    | some (.primary _ _ _ abstractions) => (catalog.abstractionsOf? abstractions).map (filled.allow family)
    | _ => some filled) catalog

end Interchange.Catalog
