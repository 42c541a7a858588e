import Interchange.TypeId

/-! Back references. An edge records that its owner mentions a target at one of
the owner's slots. Edges are kept in the order of their arrival. Each one is linked
to the edge to the same pair that came before it, so the edges to a pair form a
chain that starts at the latest of them. -/

namespace Interchange

structure Edge where
  owner : TypeId
  target : TypeId
  slot : Nat
deriving DecidableEq, Repr

/-- An edge and the position of the one before it in the chain. -/
structure Link where
  edge : Edge
  earlier : Option Nat
deriving DecidableEq, Repr

structure BackReferences where
  links : Array Link
  /-- Where the chain of each pair starts. -/
  latest : Array (Option Nat)
  /-- Chains lead to lower positions, so they end. -/
  descending : ∀ (position : Nat) (link : Link), links[position]? = some link →
    ∀ earlier ∈ link.earlier, earlier < position
  /-- Chains start at edges that have arrived. -/
  arrived : ∀ start ∈ latest, ∀ position ∈ start, position < links.size
deriving DecidableEq, Repr

namespace BackReferences

/-- No edges yet, and an empty chain for each of the given number of pairs. -/
def empty (pairs : Nat) : BackReferences where
  links := #[]
  latest := Array.replicate pairs none
  descending := by simp
  arrived := by simp

def size (references : BackReferences) : Nat :=
  references.links.size

/-- The id that the next edge gets. Ids are positions in 32 bits. -/
def nextId (references : BackReferences) : UInt32 :=
  references.size.toUInt32

def get? (references : BackReferences) (position : Nat) : Option Edge :=
  references.links[position]?.map Link.edge

/-- The start of the chain of the target's pair. -/
def latest? (references : BackReferences) (target : TypeId) : Option Nat :=
  references.latest[target.pair]?.join

theorem latest?_arrived (references : BackReferences) (target : TypeId) :
    ∀ position ∈ references.latest? target, position < references.size := by
  intro position started
  have listed := Option.join_eq_some_iff.mp started
  exact references.arrived _ (Array.mem_of_getElem? listed) position rfl

/-- The starts of all chains, with room for those up to the given pair. -/
def reserve (references : BackReferences) (pair : Nat) : Array (Option Nat) :=
  references.latest ++ Array.replicate (pair + 1 - references.latest.size) none

/-- The owner is recorded without its nullability, the target with it. -/
def add (references : BackReferences) (owner target : TypeId) (slot : Nat) : BackReferences where
  links := references.links.push ⟨⟨owner.nonNull, target, slot⟩, references.latest? target⟩
  latest := (references.reserve target.pair).setIfInBounds target.pair (some references.size)
  descending := by
    intro position link found earlier before
    rw [Array.getElem?_push] at found
    by_cases last : position = references.links.size
    · rw [if_pos last] at found
      cases found
      rw [last]
      exact references.latest?_arrived target earlier before
    · rw [if_neg last] at found
      exact references.descending position link found earlier before
  arrived := by
    intro start listed position same
    rw [Array.size_push]
    rcases Array.mem_or_eq_of_mem_setIfInBounds listed with old | new
    · rcases Array.mem_append.mp old with old | absent
      · exact Nat.lt_succ_of_lt (references.arrived start old position same)
      · rw [(Array.mem_replicate.mp absent).2] at same
        cases same
    · rw [new] at same
      cases same
      exact Nat.lt_succ_self _

/-- The edges of a chain from a position on. -/
def chain (references : BackReferences) : Option Nat → List Edge
  | none => []
  | some position =>
    if inside : position < references.links.size then
      references.links[position].edge :: references.chain references.links[position].earlier
    else []
termination_by start => start.elim 0 (· + 1)
decreasing_by
  cases before : references.links[position].earlier with
  | none => exact Nat.succ_pos position
  | some earlier =>
    exact Nat.succ_lt_succ (references.descending position _ (Array.getElem?_eq_getElem inside) earlier before)

/-- The edges to either id of the target's pair, the latest first. -/
def into (references : BackReferences) (target : TypeId) : List Edge :=
  references.chain (references.latest? target)

end BackReferences
end Interchange
