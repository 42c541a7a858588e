import Interchange.BackReferences
import Interchange.Builder
import Interchange.Error
import Interchange.Lock.Allowed
import Interchange.Lock.Forms
import Interchange.Lock.Policies

/-! Locked types. No type can be added any more; everything that follows from the
declarations has been computed. -/

namespace Interchange

structure System where
  catalog : Catalog
  references : BackReferences
deriving DecidableEq, Repr

/-- The edges from a type to its components. -/
def BackReferences.addComponents (references : BackReferences) (owner : TypeId) (components : List TypeId) :
    BackReferences :=
  components.zipIdx.foldl (fun references (target, slot) => references.add owner target slot) references

/-- All edges of a table, owner by owner. -/
def BackReferences.ofCatalog (catalog : Catalog) : BackReferences :=
  catalog.entries.toList.zipIdx.foldl
    (fun references (entry, pair) => references.addComponents (.ofPair pair) entry.shape.components)
    (.empty catalog.size)

namespace Builder

/-- Computes what follows from the declarations. There is nothing if a type that is not registered is looked up, or if a
search does not end because a type was built from itself before it was registered. -/
def lock (builder : Builder) : Option (System × Diagnostics) := do
  let catalog ← builder.catalog.withAllowed?
  let catalog ← catalog.withForms?
  let catalog ← catalog.withPolicies?
  return (⟨catalog, .ofCatalog catalog⟩, builder.diagnostics)

/-- Locks only what was registered without errors. -/
def lockStrict (builder : Builder) : Option (Except Error System) := do
  let (system, diagnostics) ← builder.lock
  return if diagnostics.errors.isEmpty then .ok system else .error (.registrationFailed diagnostics)

end Builder

namespace System

def size (system : System) : Nat :=
  system.catalog.size

def contains (system : System) (ty : TypeId) : Bool :=
  system.catalog.contains ty

def types (system : System) : List TypeId :=
  system.catalog.types

def shape? (system : System) (ty : TypeId) : Option Shape :=
  system.catalog.shape? ty

def display? (system : System) (ty : TypeId) : Option String :=
  system.catalog.display? ty

def find? (system : System) (name : String) : Option TypeId :=
  system.catalog.find? name

/-- The declared name of a named type. -/
def qualifiedName? (system : System) (ty : TypeId) : Option String := do
  let shape ← system.shape? ty
  system.catalog.strings.get? (← shape.name?)

def externalName? (system : System) (ty : TypeId) : Option String := do
  let entry ← system.catalog.entry? ty
  system.catalog.strings.get? (← entry.externalName)

def previousNames (system : System) (ty : TypeId) : List String :=
  match system.catalog.entry? ty with
  | some entry => entry.previousNames.filterMap system.catalog.strings.get?
  | none => []

def oblivious (system : System) (ty : TypeId) : TypeId :=
  system.catalog.oblivious ty

def isOblivious (system : System) (ty : TypeId) : Bool :=
  system.oblivious ty == ty

def regular? (system : System) (ty : TypeId) : Option TypeId :=
  system.catalog.regular? ty

/-- The type that instances have. Polymorphic types have no instances of their
own, and a secondary interface has those of its primary. -/
def finalForm? (system : System) (ty : TypeId) : Option TypeId :=
  match system.shape? ty with
  | none | some .any | some (.abstraction ..) | some (.union _) => none
  | some (.secondary _ primary) => some primary.orNull
  | some _ => (system.regular? ty).map fun form => form.withNullability (!system.catalog.isValue form)

def isFinal (system : System) (ty : TypeId) : Bool :=
  system.finalForm? ty == some ty

def defaultPolicy (system : System) (ty : TypeId) : DefaultPolicy :=
  if ty.nullable then .allowed
  else ((system.catalog.entry? ty).bind Entry.policy).getD .allowed

/-- Whether a type can have instances at all. -/
def isImplementable (system : System) (ty : TypeId) : Bool :=
  match system.shape? ty with
  | some (.abstraction _ _ allowed) => !allowed.isEmpty
  | some (.union members) => !members.isEmpty
  | _ => true

/-- The edges to either id of a pair, the latest first. -/
def backReferences (system : System) (ty : TypeId) : List Edge :=
  system.references.into ty

end System
end Interchange
