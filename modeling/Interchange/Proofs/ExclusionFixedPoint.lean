import Interchange.ExchangeSet
import Interchange.Proofs.BackReferenceIndex
import Interchange.Proofs.LockEdits

/-! Exclusion reaches the greatest set that can be kept. A type is dropped only if it
is a seed or has to follow its components, so nothing leaves too early. Whoever has to
follow is found through the edges to what was dropped, so nobody is missed. -/

namespace Interchange.ExchangeSet

variable {set small large other : ExchangeSet} {system : System} {ty owner : TypeId} {seeds : Nat → Prop}

theorem isEligible_of_pair {first second : TypeId} (same : first.pair = second.pair) :
    set.isEligible first = set.isEligible second := by
  simp only [isEligible, same]

theorem leaves_of_pair {first second : TypeId} (same : first.pair = second.pair) :
    set.leaves system first = set.leaves system second := by
  simp only [leaves, System.shape?, Catalog.shape?_of_pair same]

theorem inside_of_eligible (eligible : set.isEligible ty = true) : ty.pair < set.capacity := by
  apply Classical.byContradiction
  intro outside
  simp [isEligible, Array.getElem?_eq_none (Nat.le_of_not_lt outside)] at eligible

theorem mem_types : ty ∈ set.types ↔ ty.nullable = false ∧ set.isEligible ty = true := by
  simp only [types, List.mem_filter, List.mem_map, List.mem_range]
  constructor
  · rintro ⟨⟨pair, -, rfl⟩, eligible⟩
    exact ⟨rfl, eligible⟩
  · rintro ⟨plain, eligible⟩
    exact ⟨⟨ty.pair, inside_of_eligible eligible, TypeId.nonNull_of_plain plain⟩, eligible⟩

/-- The types of a set stand in the order of registration. -/
theorem types_ordered (set : ExchangeSet) : set.types.Pairwise fun first second => first.pair < second.pair := by
  apply List.Pairwise.filter
  rw [List.pairwise_map]
  exact List.pairwise_lt_range

@[simp] theorem mark_capacity : (set.mark ty).capacity = set.capacity := by
  simp [mark, capacity]

theorem mark_isEligible : (set.mark ty).isEligible owner = (set.isEligible owner && ty.pair != owner.pair) := by
  simp only [mark, isEligible, Array.getElem?_setIfInBounds]
  split
  next same =>
    split <;> simp [same]
  next different => simp [different]

theorem mark_isEligible_self (same : ty.pair = owner.pair) : (set.mark ty).isEligible owner = false := by
  simp [mark_isEligible, same]

theorem eligible_of_mark (eligible : (set.mark ty).isEligible owner = true) :
    set.isEligible owner = true ∧ ty.pair ≠ owner.pair := by
  simpa [mark_isEligible] using eligible

theorem eligible_mark (eligible : set.isEligible owner = true) (different : ty.pair ≠ owner.pair) :
    (set.mark ty).isEligible owner = true := by
  simp [mark_isEligible, eligible, different]

def Within (small large : ExchangeSet) : Prop :=
  ∀ ty, small.isEligible ty = true → large.isEligible ty = true

/-- The fewer components are left, the more owners have to leave. -/
theorem mustLeave_mono (rule : small.enumFollowsUnderlying = large.enumFollowsUnderlying) {shape : Shape}
    (kept : ∀ component ∈ shape.components, small.isEligible component = true → large.isEligible component = true)
    (leaving : large.mustLeave shape = true) : small.mustLeave shape = true := by
  have lost : ∀ component ∈ shape.components, large.isEligible component = false → small.isEligible component = false := by
    intro component member gone
    cases eligible : small.isEligible component with
    | false => rfl
    | true => rw [kept component member eligible] at gone; exact gone
  cases shape with
  | any | basic => cases leaving
  | enumeration name underlying =>
    simp only [mustLeave, Bool.and_eq_true, Bool.not_eq_true'] at leaving ⊢
    exact ⟨rule.trans leaving.1, lost underlying (by simp [Shape.components]) leaving.2⟩
  | union members =>
    simp only [mustLeave, Bool.not_eq_true', List.any_eq_false, Bool.not_eq_true] at leaving ⊢
    exact fun member present => lost member present (leaving member present)
  | abstraction name generalizations allowed =>
    simp only [mustLeave, Bool.not_eq_true', List.any_eq_false, Bool.not_eq_true] at leaving ⊢
    exact fun family present => lost family present (leaving family present)
  | record name isValue fields | primary name fields secondaries abstractions =>
    simp only [mustLeave, Bool.and_eq_true, Bool.not_eq_true', List.any_eq_false, Bool.not_eq_true] at leaving ⊢
    exact ⟨leaving.1, fun field present => lost field.ty (List.mem_map_of_mem present) (leaving.2 field present)⟩
  | tuple | secondary | array | list | set | dictionary =>
    simp only [mustLeave, List.any_eq_true, Bool.not_eq_true'] at leaving ⊢
    obtain ⟨component, member, gone⟩ := leaving
    exact ⟨component, member, lost component member gone⟩

theorem leaves_iff : set.leaves system ty = true ↔ ∃ shape, system.shape? ty = some shape ∧ set.mustLeave shape = true := by
  cases found : system.shape? ty <;> simp [leaves, found]

theorem leaves_mono (rule : small.enumFollowsUnderlying = large.enumFollowsUnderlying) (within : small.Within large)
    (leaving : large.leaves system ty = true) : small.leaves system ty = true := by
  obtain ⟨shape, found, leaving⟩ := leaves_iff.mp leaving
  exact leaves_iff.mpr ⟨shape, found, mustLeave_mono rule (fun component _ eligible => within component eligible) leaving⟩

/-- No member has to follow its components out of the set. -/
def Stable (set : ExchangeSet) (system : System) : Prop :=
  ∀ ty, set.isEligible ty = true → set.leaves system ty = false

inductive Drop (system : System) (seeds : Nat → Prop) : ExchangeSet → ExchangeSet → Prop where
  | mark {set : ExchangeSet} {ty : TypeId} (eligible : set.isEligible ty = true) (proper : ty.isAny = false)
      (reason : seeds ty.pair ∨ set.leaves system ty = true) : Drop system seeds set (set.mark ty)

abbrev Drops (system : System) (seeds : Nat → Prop) : ExchangeSet → ExchangeSet → Prop :=
  Relation.ReflTransGen (Drop system seeds)

namespace Drops

variable {before after : ExchangeSet}

theorem capacity (drops : Drops system seeds before after) : after.capacity = before.capacity := by
  induction drops with
  | refl => rfl
  | tail _ drop ih =>
    cases drop
    rw [mark_capacity, ih]

theorem rule (drops : Drops system seeds before after) : after.enumFollowsUnderlying = before.enumFollowsUnderlying := by
  induction drops with
  | refl => rfl
  | tail _ drop ih =>
    cases drop
    exact ih

theorem within (drops : Drops system seeds before after) : after.Within before := by
  induction drops with
  | refl => exact fun _ eligible => eligible
  | tail _ drop ih =>
    cases drop
    exact fun ty eligible => ih ty (eligible_of_mark eligible).1

/-- The number kept beside the pairs stays the number of eligible ones. -/
theorem counted (drops : Drops system seeds before after) (counted : before.count = before.remaining) :
    after.count = after.remaining := by
  induction drops with
  | refl => exact counted
  | @tail middle after _ drop ih =>
    cases drop with
    | mark eligible =>
      have balance := remaining_mark eligible
      have marked : (middle.mark ‹_›).count = middle.count - 1 := rfl
      omega

/-- Nothing leaves too early: a stable set without seeds is kept whole. -/
theorem keeps (drops : Drops system seeds before after) (rule : other.enumFollowsUnderlying = before.enumFollowsUnderlying)
    (stable : other.Stable system) (avoids : ∀ pair, seeds pair → other.isEligible (.ofPair pair) = false)
    (inside : other.Within before) : other.Within after := by
  induction drops with
  | refl => exact inside
  | @tail middle after earlier drop ih =>
    cases drop with
    | @mark ty eligible proper reason =>
      intro kept member
      refine eligible_mark (ih kept member) ?_
      intro same
      have stays : other.isEligible ty = true := (isEligible_of_pair same).trans member
      rcases reason with seed | leaving
      · have gone : other.isEligible ty = false := avoids ty.pair seed
        rw [gone] at stays
        cases stays
      · have follows := leaves_mono (rule.trans (Drops.rule earlier).symm) ih leaving
        rw [stable ty stays] at follows
        cases follows

end Drops

section Universal

variable (universal : system.shape? .any = some .any)

include universal

theorem proper_of_leaves (leaving : set.leaves system ty = true) : ty.isAny = false := by
  cases universalType : ty.isAny with
  | false => rfl
  | true =>
    have same : ty.pair = TypeId.any.pair := TypeId.isAny_iff.mp universalType
    rw [leaves_of_pair same] at leaving
    simp [leaves, universal, mustLeave] at leaving

theorem sweep_drops (edges : List Edge) : Drops system seeds set (set.sweep system edges).1 := by
  induction edges generalizing set with
  | nil => exact .refl
  | cons edge rest ih =>
    simp only [sweep]
    split
    next follows =>
      obtain ⟨eligible, leaving⟩ := Bool.and_eq_true_iff.mp follows
      exact .head (.mark eligible (proper_of_leaves universal leaving) (.inr leaving)) ih
    next => exact ih

theorem cascade_drops (work : List TypeId) : Drops system seeds set (set.cascade system work).1 := by
  fun_induction cascade set system work with
  | case1 => exact .refl
  | case2 set target work swept final excluded result ih =>
    rw [result] at ih
    have first : Drops system seeds set swept.1 := sweep_drops universal _
    exact first.trans ih

theorem exclude_drops (seed : ty.isAny = false → seeds ty.pair) : Drops system seeds set (set.exclude system ty).1 := by
  simp only [exclude]
  split
  next allowed =>
    obtain ⟨proper, eligible⟩ := Bool.and_eq_true_iff.mp allowed
    rw [Bool.not_eq_true'] at proper
    exact .head (.mark eligible proper (.inl (seed proper))) (cascade_drops universal _)
  next => exact .refl

theorem excludeAll_drops {types : List TypeId} (seed : ∀ ty ∈ types, ty.isAny = false → seeds ty.pair) :
    Drops system seeds set (set.excludeAll system types).1 := by
  induction types generalizing set with
  | nil => exact .refl
  | cons ty rest ih =>
    have first : Drops system seeds set (set.exclude system ty).1 := exclude_drops universal (seed ty (by simp))
    exact first.trans (ih fun other member => seed other (by simp [member]))

theorem exclude_gone (proper : ty.isAny = false) : (set.exclude system ty).1.isEligible ty = false := by
  simp only [exclude, proper, Bool.not_false, Bool.true_and]
  split
  next eligible =>
    have drops : Drops system (fun _ => True) (set.mark ty) ((set.mark ty).cascade system [ty.nonNull]).1 :=
      cascade_drops universal _
    cases kept : ((set.mark ty).cascade system [ty.nonNull]).1.isEligible ty with
    | false => rfl
    | true =>
      have marked := drops.within ty kept
      rw [mark_isEligible_self rfl] at marked
      cases marked
  next ineligible => simpa using ineligible

theorem excludeAll_gone {types : List TypeId} (member : ty ∈ types) (proper : ty.isAny = false) :
    (set.excludeAll system types).1.isEligible ty = false := by
  induction types generalizing set with
  | nil => cases member
  | cons first rest ih =>
    rcases List.mem_cons.mp member with rfl | member
    · have drops : Drops system (fun _ => True) (set.exclude system ty).1 ((set.exclude system ty).1.excludeAll system rest).1 :=
        excludeAll_drops universal fun _ _ _ => trivial
      cases kept : (set.excludeAll system (ty :: rest)).1.isEligible ty with
      | false => rfl
      | true =>
        have earlier := drops.within ty kept
        rw [exclude_gone universal proper] at earlier
        cases earlier
    · exact ih member

end Universal

section Indexed

variable (indexed : system.references = .ofCatalog system.catalog)

def Owns (system : System) (targets : List TypeId) (ty : TypeId) : Prop :=
  ∃ target ∈ targets, ∃ edge ∈ system.backReferences target, edge.owner.pair = ty.pair

/-- Whoever has to leave is exempt or has an edge to one of the targets. -/
def Covered (set : ExchangeSet) (system : System) (exempt : TypeId → Prop) (targets : List TypeId) : Prop :=
  ∀ ty, set.isEligible ty = true → set.leaves system ty = true → exempt ty ∨ Owns system targets ty

variable {exempt : TypeId → Prop} {targets : List TypeId}

include indexed

/-- Who has to leave only since a type was dropped has an edge to that type. -/
theorem owns_of_mark (leaving : (set.mark ty).leaves system owner = true) (stayed : set.leaves system owner = false) :
    Owns system [ty] owner := by
  obtain ⟨shape, found, leaving⟩ := leaves_iff.mp leaving
  apply Classical.byContradiction
  intro apart
  have kept : ∀ component ∈ shape.components, set.isEligible component = true → (set.mark ty).isEligible component = true := by
    intro component member eligible
    refine eligible_mark eligible ?_
    intro same
    obtain ⟨edge, present, owned⟩ := BackReferences.owner_of_component found member
    refine apart ⟨ty, by simp, edge, ?_, owned⟩
    rw [System.backReferences, indexed, BackReferences.into_of_pair same]
    exact present
  have rule : set.enumFollowsUnderlying = (set.mark ty).enumFollowsUnderlying := rfl
  have before := leaves_iff.mpr ⟨shape, found, mustLeave_mono rule kept leaving⟩
  rw [stayed] at before
  cases before

theorem mark_covered (ty : TypeId) (covered : Covered set system exempt targets) :
    Covered (set.mark ty) system exempt (ty :: targets) := by
  intro owner eligible leaving
  cases before : set.leaves system owner with
  | false =>
    obtain ⟨target, member, edge⟩ := owns_of_mark indexed leaving before
    cases List.mem_singleton.mp member
    exact .inr ⟨_, by simp, edge⟩
  | true =>
    rcases covered owner (eligible_of_mark eligible).1 before with skipped | ⟨target, member, edge⟩
    · exact .inl skipped
    · exact .inr ⟨target, by simp [member], edge⟩

/-- Nobody is missed while the edges to a target are looked at. -/
theorem sweep_covered {edges : List Edge}
    (covered : Covered set system (fun ty => exempt ty ∨ ∃ edge ∈ edges, edge.owner.pair = ty.pair) targets) :
    Covered (set.sweep system edges).1 system exempt ((set.sweep system edges).2.reverse ++ targets) := by
  induction edges generalizing set targets with
  | nil => simpa [sweep] using covered
  | cons edge rest ih =>
    have later {current : ExchangeSet} {targets : List TypeId}
        (looked : ∀ ty, edge.owner.pair = ty.pair → current.isEligible ty = true → current.leaves system ty = true → False)
        (covered : Covered current system (fun ty => exempt ty ∨ ∃ edge' ∈ edge :: rest, edge'.owner.pair = ty.pair) targets) :
        Covered current system (fun ty => exempt ty ∨ ∃ edge ∈ rest, edge.owner.pair = ty.pair) targets := by
      intro ty eligible leaving
      rcases covered ty eligible leaving with (skipped | ⟨other, member, same⟩) | owned
      · exact .inl (.inl skipped)
      · rcases List.mem_cons.mp member with rfl | member
        · exact (looked ty same eligible leaving).elim
        · exact .inl (.inr ⟨other, member, same⟩)
      · exact .inr owned
    simp only [sweep]
    split
    next follows =>
      have marked := later
        (by
          intro ty same eligible _
          rw [mark_isEligible_self same] at eligible
          cases eligible)
        (mark_covered indexed edge.owner covered)
      simpa using ih marked
    next stays =>
      refine ih (later ?_ covered)
      intro ty same eligible leaving
      rw [← isEligible_of_pair same] at eligible
      rw [← leaves_of_pair same] at leaving
      exact stays (Bool.and_eq_true_iff.mpr ⟨eligible, leaving⟩)

theorem cascade_covered {work : List TypeId} (covered : Covered set system exempt work) :
    Covered (set.cascade system work).1 system exempt [] := by
  fun_induction cascade set system work with
  | case1 => exact covered
  | case2 set target work swept final excluded result ih =>
    rw [result] at ih
    refine ih (sweep_covered indexed ?_)
    intro ty eligible leaving
    rcases covered ty eligible leaving with skipped | ⟨other, member, edge, present, owned⟩
    · exact .inl (.inl skipped)
    · rcases List.mem_cons.mp member with rfl | member
      · exact .inl (.inr ⟨edge, present, owned⟩)
      · exact .inr ⟨other, member, edge, present, owned⟩

theorem exclude_covered (covered : Covered set system exempt []) : Covered (set.exclude system ty).1 system exempt [] := by
  simp only [exclude]
  split
  · exact cascade_covered indexed (mark_covered indexed ty.nonNull covered)
  · exact covered

/-- If all that have to leave are about to be excluded, nobody has to leave afterwards. -/
theorem excludeAll_stable (universal : system.shape? .any = some .any) {types : List TypeId}
    (pending : Covered set system (fun ty => ∃ seed ∈ types, seed.isAny = false ∧ seed.pair = ty.pair) []) :
    (set.excludeAll system types).1.Stable system := by
  induction types generalizing set with
  | nil =>
    intro ty eligible
    cases leaving : set.leaves system ty with
    | false => exact leaving
    | true => simpa [Owns] using pending ty eligible leaving
  | cons first rest ih =>
    refine ih ?_
    intro ty eligible leaving
    rcases exclude_covered indexed pending ty eligible leaving with ⟨seed, member, proper, same⟩ | ⟨_, none, _⟩
    · rcases List.mem_cons.mp member with rfl | member
      · have kept : (set.exclude system seed).1.isEligible seed = true := (isEligible_of_pair same).trans eligible
        rw [exclude_gone universal proper] at kept
        cases kept
      · exact .inl ⟨seed, member, proper, same⟩
    · cases none

end Indexed

theorem Stable.covered (stable : set.Stable system) {exempt : TypeId → Prop} : Covered set system exempt [] := by
  intro ty eligible leaving
  rw [stable ty eligible] at leaving
  cases leaving

theorem Stable.settle (stable : set.Stable system) : set.settle system = (set, 0) := by
  have settled : set.types.filter (set.leaves system) = [] := by
    rw [List.filter_eq_nil_iff]
    intro ty member
    rw [stable ty (List.mem_filter.mp member).2]
    exact Bool.false_ne_true
  rw [ExchangeSet.settle]
  simp only [settled, excludeAll, ↓reduceDIte]

end Interchange.ExchangeSet
