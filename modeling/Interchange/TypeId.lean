/-! Type ids. Registered types come in pairs: the non-nullable type and its
nullable dual share one pair index. On the wire an id is a single number whose
lowest bit tells the two apart. That number has 32 bits, which is enough for 2^31
pairs: up to that size of a table ids are exact here, and beyond it they would wrap
on the wire. -/

namespace Interchange

structure TypeId where
  pair : Nat
  nullable : Bool
deriving DecidableEq, Repr

namespace TypeId

/-- The non-nullable id of a pair. -/
def ofPair (pair : Nat) : TypeId :=
  ⟨pair, false⟩

def ofRaw (raw : Nat) : TypeId :=
  ⟨raw / 2, raw % 2 == 1⟩

def raw (ty : TypeId) : Nat :=
  2 * ty.pair + ty.nullable.toNat

def withNullability (ty : TypeId) (nullable : Bool) : TypeId :=
  ⟨ty.pair, nullable⟩

def orNull (ty : TypeId) : TypeId :=
  ty.withNullability true

def nonNull (ty : TypeId) : TypeId :=
  ty.withNullability false

def dual (ty : TypeId) : TypeId :=
  ty.withNullability (!ty.nullable)

/-- The universal type holds the first pair of every table. -/
def any : TypeId :=
  ofPair 0

def isAny (ty : TypeId) : Bool :=
  ty.nonNull == any

/-- Stands in for a type that no table can show. -/
def tag (ty : TypeId) : String :=
  let mark := if ty.nullable then "?" else ""
  s!"TypeId({ty.pair}{mark})"

end TypeId
end Interchange
