import Interchange.Catalog

/-! Derivation among interface families: a family derives from the abstractions it
implements, and an abstraction from its generalizations. -/

namespace Interchange.Catalog

/-- Follows parents through at most the given number of types. Nothing is known if
the search does not end there, or once it meets a type that is not registered. -/
def derivesWithin (catalog : Catalog) : Nat → TypeId → TypeId → Option Bool
  | 0, _, _ => none
  | depth + 1, derived, base =>
    if derived = base then some true
    else do
      let shape ← catalog.shape? derived
      shape.parents.anyM fun parent => catalog.derivesWithin depth parent base

def derivesFrom? (catalog : Catalog) (derived base : TypeId) : Option Bool :=
  catalog.derivesWithin (catalog.size + 1) derived base

private theorem length_erase_lt {items : List Nat} {item : Nat} (member : item ∈ items) :
    (items.erase item).length < items.length := by
  have nonempty := List.length_pos_of_mem member
  rw [List.length_erase_of_mem member]
  omega

/-- The pairs above the given ones, each once. The pairs in `unseen` have not been met. -/
def climb (catalog : Catalog) (unseen : List Nat) : List TypeId → Option (List Nat)
  | [] => some []
  | ty :: stack =>
    if _unmet : ty.pair ∈ unseen then
      match catalog.shape? ty with
      | some (.abstraction _ generalizations _) =>
        (catalog.climb (unseen.erase ty.pair) (generalizations.reverse ++ stack)).map (ty.pair :: ·)
      | some _ => catalog.climb (unseen.erase ty.pair) stack
      | none => none
    else if catalog.contains ty then catalog.climb unseen stack
    else none
termination_by stack => (unseen.length, stack.length)
decreasing_by
  · exact Prod.Lex.left _ _ (length_erase_lt ‹_›)
  · exact Prod.Lex.left _ _ (length_erase_lt ‹_›)
  · exact Prod.Lex.right _ (by simp)

/-- The abstractions that a family implements, directly or through generalizations;
nothing if one of them is not registered. -/
def abstractionsOf? (catalog : Catalog) (abstractions : List TypeId) : Option (List Nat) :=
  catalog.climb (List.range catalog.size) abstractions.reverse

end Interchange.Catalog
