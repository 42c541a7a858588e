import Interchange.Config
import Interchange.System

/-! The exchangeable set: which types may appear in an interchange. A type only ever
leaves the set. When it does, its owners are looked at again, and the exclusion
spreads until nothing changes. -/

namespace Interchange

/-- Eligibility for each pair of one system, and the number of eligible pairs. -/
structure ExchangeSet where
  eligible : Array Bool
  count : Nat
  enumFollowsUnderlying : Bool
deriving DecidableEq, Repr

namespace ExchangeSet

/-- All pairs of a system. -/
def full (system : System) (config : Config) : ExchangeSet :=
  ⟨Array.replicate system.size true, system.size, config.enumFollowsUnderlying⟩

/-- The number of pairs the set was made for. -/
def capacity (set : ExchangeSet) : Nat :=
  set.eligible.size

/-- A type beyond the capacity is not eligible. -/
def isEligible (set : ExchangeSet) (ty : TypeId) : Bool :=
  set.eligible[ty.pair]?.getD false

/-- Eligible non-nullable ids in the order of registration. -/
def types (set : ExchangeSet) : List TypeId :=
  ((List.range set.capacity).map TypeId.ofPair).filter set.isEligible

def remaining (set : ExchangeSet) : Nat :=
  set.eligible.count true

def mark (set : ExchangeSet) (ty : TypeId) : ExchangeSet :=
  { set with eligible := set.eligible.setIfInBounds ty.pair false, count := set.count - 1 }

theorem remaining_mark {set : ExchangeSet} {ty : TypeId} (eligible : set.isEligible ty = true) :
    (set.mark ty).remaining + 1 = set.remaining := by
  have inside : ty.pair < set.eligible.size := by
    apply Classical.byContradiction
    intro outside
    simp [isEligible, Array.getElem?_eq_none (Nat.le_of_not_lt outside)] at eligible
  have held : set.eligible[ty.pair] = true := by
    simpa [isEligible, Array.getElem?_eq_getElem inside] using eligible
  have positive : 0 < set.eligible.count true :=
    Array.count_pos_iff.mpr (held ▸ Array.getElem_mem inside)
  simp only [remaining, mark, Array.setIfInBounds, inside, ↓reduceDIte]
  rw [Array.count_set inside]
  simp only [held, beq_self_eq_true, ↓reduceIte]
  simp
  omega

/-- Whether an owner has to follow its components out of the set. A polymorphic type
stays while an alternative does, and a composite while a field does; everything
else needs all of its components. -/
def mustLeave (set : ExchangeSet) : Shape → Bool
  | .any | .basic _ => false
  | .enumeration _ underlying => set.enumFollowsUnderlying && !set.isEligible underlying
  | .union members => !members.any set.isEligible
  | .abstraction _ _ allowed => !allowed.any set.isEligible
  | .record _ _ fields | .primary _ fields _ _ => !fields.isEmpty && !fields.any fun field => set.isEligible field.ty
  | shape => shape.components.any fun component => !set.isEligible component

def leaves (set : ExchangeSet) (system : System) (ty : TypeId) : Bool :=
  (system.shape? ty).any set.mustLeave

/-- Excludes those owners of the edges that have to follow, in order, and lists them. -/
def sweep (set : ExchangeSet) (system : System) : List Edge → ExchangeSet × List TypeId
  | [] => (set, [])
  | edge :: rest =>
    if set.isEligible edge.owner && set.leaves system edge.owner then
      let (set, owners) := (set.mark edge.owner).sweep system rest
      (set, edge.owner :: owners)
    else set.sweep system rest

theorem remaining_sweep (set : ExchangeSet) (system : System) (edges : List Edge) :
    (set.sweep system edges).1.remaining + (set.sweep system edges).2.length = set.remaining := by
  induction edges generalizing set with
  | nil => simp [sweep]
  | cons edge rest ih =>
    simp only [sweep]
    split
    next follows =>
      have marked := remaining_mark (Bool.and_eq_true_iff.mp follows).1
      have swept := ih (set.mark edge.owner)
      simp only [List.length_cons]
      omega
    next => exact ih set

/-- Follows the edges back from excluded types, the latest first. The number counts the types excluded on the way. -/
def cascade (set : ExchangeSet) (system : System) : List TypeId → ExchangeSet × Nat
  | [] => (set, 0)
  | target :: work =>
    let swept := set.sweep system (system.backReferences target)
    let (final, excluded) := swept.1.cascade system (swept.2.reverse ++ work)
    (final, swept.2.length + excluded)
termination_by work => 2 * set.remaining + work.length
decreasing_by
  have swept := remaining_sweep set system (system.backReferences target)
  simp only [List.length_append, List.length_reverse, List.length_cons]
  omega

theorem remaining_cascade (set : ExchangeSet) (system : System) (work : List TypeId) :
    (set.cascade system work).1.remaining + (set.cascade system work).2 = set.remaining := by
  fun_induction cascade set system work with
  | case1 => rfl
  | case2 set target work swept final excluded result ih =>
    have balance := remaining_sweep set system (system.backReferences target)
    simp only [result] at ih
    simp only [swept] at ih ⊢
    omega

/-- Excludes a type and what has to follow, and counts them. The universal type cannot be excluded. -/
def exclude (set : ExchangeSet) (system : System) (ty : TypeId) : ExchangeSet × Nat :=
  if !ty.isAny && set.isEligible ty then
    let (final, excluded) := (set.mark ty).cascade system [ty.nonNull]
    (final, excluded + 1)
  else (set, 0)

theorem remaining_exclude (set : ExchangeSet) (system : System) (ty : TypeId) :
    (set.exclude system ty).1.remaining + (set.exclude system ty).2 = set.remaining := by
  simp only [exclude]
  split
  next allowed =>
    have marked := remaining_mark (Bool.and_eq_true_iff.mp allowed).2
    have settled := remaining_cascade (set.mark ty) system [ty.nonNull]
    simp only
    omega
  next => rfl

def excludeAll (set : ExchangeSet) (system : System) : List TypeId → ExchangeSet × Nat
  | [] => (set, 0)
  | ty :: rest =>
    let (set, first) := set.exclude system ty
    let (set, others) := set.excludeAll system rest
    (set, first + others)

theorem remaining_excludeAll (set : ExchangeSet) (system : System) (types : List TypeId) :
    (set.excludeAll system types).1.remaining + (set.excludeAll system types).2 = set.remaining := by
  induction types generalizing set with
  | nil => rfl
  | cons ty rest ih =>
    have first := remaining_exclude set system ty
    have others := ih (set.exclude system ty).1
    simp only [excludeAll]
    omega

/-- Looks at all eligible types until none has to leave. -/
def settle (set : ExchangeSet) (system : System) : ExchangeSet × Nat :=
  let pending := set.types.filter (set.leaves system)
  let round := set.excludeAll system pending
  if _progress : round.2 = 0 then round
  else
    let (final, excluded) := round.1.settle system
    (final, round.2 + excluded)
termination_by set.remaining
decreasing_by
  have balance : round.1.remaining + round.2 = set.remaining := remaining_excludeAll set system pending
  change round.1.remaining < set.remaining
  omega

/-- Looks at all eligible types until none has to leave; nothing if one of them is not in the system. -/
def propagate? (set : ExchangeSet) (system : System) : Option (ExchangeSet × Nat) :=
  if set.types.all system.contains then some (set.settle system) else none

/-- The set without the types that `keep` refuses, and without what has to follow them. -/
def subset (set : ExchangeSet) (system : System) (keep : TypeId → Bool) : ExchangeSet :=
  (set.excludeAll system (set.types.filter fun ty => !keep ty)).1

/-- A type that no instance can have, or a composite without fields where such are not wanted. -/
def unfit (system : System) (config : Config) (ty : TypeId) : Bool :=
  !system.isImplementable ty ||
    (!config.allowEmptyComposites &&
      (system.shape? ty).any fun shape => shape.kind.isComposite && shape.fields.isEmpty)

/-- The types that a filter is asked about: never the universal type, nor one that is left out anyway. -/
def consulted (system : System) (config : Config) : List TypeId :=
  system.types.filter fun ty => !ty.isAny && !unfit system config ty

/-- All types but those that are unfit or rejected, and what has to follow them. -/
def withFilter (system : System) (config : Config) (reject : TypeId → Bool) : ExchangeSet :=
  let seeds := system.types.filter fun ty => !ty.isAny && (unfit system config ty || reject ty)
  ((full system config).excludeAll system seeds).1

def new (system : System) (config : Config) : ExchangeSet :=
  withFilter system config fun _ => false

end ExchangeSet
end Interchange
