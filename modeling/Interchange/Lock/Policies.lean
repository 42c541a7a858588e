import Interchange.Catalog

/-! What may stand in for a missing value of each type. A nullable type is replaced
by nothing at all. A record can be built without its members if all of them can. -/

namespace Interchange.Catalog

abbrev PolicyOf := Catalog → TypeId → Option (DefaultPolicy × Catalog)

/-- The policies of fields. A field with a default of its own needs no other. -/
def fieldPolicies (policyOf : PolicyOf) : Catalog → List Field → Option (List DefaultPolicy × Catalog)
  | catalog, [] => some ([], catalog)
  | catalog, field :: rest => do
    let (policy, catalog) ← if field.explicitDefault then some (.allowed, catalog) else policyOf catalog field.ty
    let (policies, catalog) ← fieldPolicies policyOf catalog rest
    return (policy :: policies, catalog)

/-- Whether all types allow a default; the first that does not ends the search. -/
def allAllowed (policyOf : PolicyOf) : Catalog → List TypeId → Option (Bool × Catalog)
  | catalog, [] => some (true, catalog)
  | catalog, ty :: rest => do
    let (policy, catalog) ← policyOf catalog ty
    if policy = .allowed then allAllowed policyOf catalog rest else return (false, catalog)

def setFieldPolicies (catalog : Catalog) (ty : TypeId) (policies : List DefaultPolicy) : Catalog :=
  catalog.modifyShape ty fun shape =>
    shape.withFields (shape.fields.zipWith (fun field policy => { field with policy }) policies)

/-- Records the policy of a pair's non-nullable type. -/
def settlePolicy (catalog : Catalog) (ty : TypeId) (policy : DefaultPolicy) : DefaultPolicy × Catalog :=
  (policy, catalog.modifyEntry ty (fun entry => { entry with policy := some policy }) fun _ => rfl)

/-- The policy of a type, through at most the given number of types. A type that
is reached again while its own members are visited has to be initialised. -/
def policyWithin : Nat → List Nat → PolicyOf
  | 0, _, _, _ => none
  | depth + 1, visiting, catalog, ty =>
    if ty.nullable then some (.allowed, catalog)
    else do
      let entry ← catalog.entry? ty
      match entry.policy with
      | some known => return (known, catalog)
      | none =>
        match entry.shape with
        | .any | .abstraction .. | .union _ => return catalog.settlePolicy ty .disallowed
        | .record _ _ fields =>
          if visiting.contains ty.pair then return (.requiresInit, catalog)
          else
            let (policies, catalog) ← fieldPolicies (policyWithin depth (ty.pair :: visiting)) catalog fields
            let free := policies.all (· == .allowed)
            return (catalog.setFieldPolicies ty policies).settlePolicy ty (if free then .allowed else .requiresInit)
        | .primary _ fields _ _ =>
          if visiting.contains ty.pair then return (.requiresInit, catalog)
          else
            let (policies, catalog) ← fieldPolicies (policyWithin depth (ty.pair :: visiting)) catalog fields
            return (catalog.setFieldPolicies ty policies).settlePolicy ty .allowed
        | .tuple elements =>
          if visiting.contains ty.pair then return (.requiresInit, catalog)
          else
            let types := elements.map TupleElement.ty
            let (free, catalog) ← allAllowed (policyWithin depth (ty.pair :: visiting)) catalog types
            return catalog.settlePolicy ty (if free then .allowed else .requiresInit)
        | _ => return catalog.settlePolicy ty .allowed

/-- Computes the policies of all pairs and fields, pair by pair. -/
def withPolicies? (catalog : Catalog) : Option Catalog :=
  catalog.types.foldlM (fun catalog ty => (policyWithin (catalog.size + 1) [] catalog ty).map Prod.snd) catalog

end Interchange.Catalog
