import Interchange.Naming.Support
import Interchange.Naming.Table

/-! The names of all types of an exchangeable set. To ask about a type outside the
set is an error. -/

namespace Interchange

structure NameMap where
  namer : Namer
  table : NameTable
  /-- A place for the position of each pair among the eligible ones. -/
  positions : Array (Option Nat)
  support : List SupportShape

namespace NameMap

def place (positions : Array (Option Nat)) (numbered : TypeId × Nat) : Array (Option Nat) :=
  positions.setIfInBounds numbered.1.pair (some numbered.2)

/-- Numbers types in their order, each in the place of its pair. -/
def number (pairs : Nat) (types : List TypeId) : Array (Option Nat) :=
  types.zipIdx.foldl place (Array.replicate pairs none)

def ofTable (namer : Namer) (table : NameTable) : Except Error NameMap := do
  if namer.set.capacity = namer.system.size then
    let table ← namer.nameAll table
    return ⟨namer, table, number namer.system.size namer.set.types, SupportShape.collect namer.system namer.set⟩
  else throw .foreignSubset

/-- Names every type of the set; the first failure ends the naming. -/
def build (system : System) (naming : Naming) (config : Config) (set : ExchangeSet) : Except Error NameMap :=
  ofTable ⟨system, naming, config, set⟩ (.empty system.size)

/-- Names the types of another set of the same system. Names that do not depend on the set are kept. -/
def withSubset (map : NameMap) (set : ExchangeSet) : Except Error NameMap :=
  ofTable { map.namer with set } map.table.reusable

def system (map : NameMap) : System :=
  map.namer.system

def set (map : NameMap) : ExchangeSet :=
  map.namer.set

def size (map : NameMap) : Nat :=
  map.set.count

def isEligible (map : NameMap) (ty : TypeId) : Bool :=
  map.system.contains ty && map.set.isEligible ty

/-- The error for a type outside the set. -/
def outside (map : NameMap) (ty : TypeId) : Error :=
  .notInSubset ((map.system.display? ty).getD ty.tag)

def require (map : NameMap) {α : Type} (ty : TypeId) (found : Option α) : Except Error α :=
  if map.isEligible ty then
    match found with
    | some value => .ok value
    | none => .error (map.outside ty)
  else .error (map.outside ty)

def entry (map : NameMap) (ty : TypeId) : Except Error NameEntry :=
  map.require ty (map.table.get? ty)

/-- The name of a type with its own nullability. -/
def name (map : NameMap) (ty : TypeId) : Except Error String :=
  (map.entry ty).map fun entry => entry.nameOf ty

/-- The position of a type among the eligible ones, in the order of registration. -/
def index (map : NameMap) (ty : TypeId) : Except Error Nat :=
  map.require ty map.positions[ty.pair]?.join

/-- Names under which a type was exchanged before. -/
def previousNames (map : NameMap) (ty : TypeId) : Except Error (List String) :=
  map.require ty (some (map.system.previousNames ty))

/-- Eligible types with their names, in the order of registration. -/
def entries (map : NameMap) : List (TypeId × NameEntry) :=
  map.set.types.filterMap fun ty => (map.table.get? ty).map fun entry => (ty, entry)

end NameMap
end Interchange
