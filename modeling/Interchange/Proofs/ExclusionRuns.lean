import Interchange.Proofs.ExclusionFixedPoint

/-! Runs of exclusions on one system. Whatever the order of the calls, the pairs that
stay are the greatest set without seeds in which no member has to leave. -/

namespace Interchange

inductive SetCall where
  | exclude (ty : TypeId)
  | subset (keep : TypeId → Bool)
  | propagate

namespace SetCall

open ExchangeSet

def run (system : System) (set : ExchangeSet) : SetCall → Option ExchangeSet
  | exclude ty => some (set.exclude system ty).1
  | subset keep => some (set.subset system keep)
  | propagate => (set.propagate? system).map Prod.fst

def runAll (system : System) (set : ExchangeSet) (calls : List SetCall) : Option ExchangeSet :=
  calls.foldlM (run system) set

/-- The pairs that the call names itself. -/
def Names (pair : Nat) : SetCall → Prop
  | exclude ty => ty.pair = pair
  | subset keep => keep (.ofPair pair) = false
  | propagate => False

variable {system : System} {set : ExchangeSet} {seeds : Nat → Prop}

theorem run_stable (universal : system.shape? .any = some .any) (indexed : system.references = .ofCatalog system.catalog)
    (capacity : set.capacity = system.size) (stable : set.Stable system) (call : SetCall)
    (seed : ∀ pair, pair ≠ 0 → call.Names pair → seeds pair) :
    ∃ next, call.run system set = some next ∧ Drops system seeds set next ∧ next.Stable system ∧
      ∀ pair, pair ≠ 0 → call.Names pair → next.isEligible (.ofPair pair) = false := by
  cases call with
  | exclude ty =>
    refine ⟨_, rfl, exclude_drops universal fun proper => seed ty.pair (TypeId.isAny_eq_false_iff.mp proper) rfl, ?_, ?_⟩
    · intro other eligible
      cases leaving : (set.exclude system ty).1.leaves system other with
      | false => rfl
      | true =>
        have covered : Covered set system (fun _ => False) [] := stable.covered
        simpa [Owns] using exclude_covered indexed covered other eligible leaving
    · rintro pair proper rfl
      exact exclude_gone universal (TypeId.isAny_eq_false_iff.mpr proper)
  | subset keep =>
    have drops : Drops system seeds set (set.subset system keep) := by
      refine excludeAll_drops universal fun ty member proper => ?_
      obtain ⟨listed, refused⟩ := List.mem_filter.mp member
      obtain ⟨pair, -, rfl⟩ := List.mem_map.mp (List.mem_filter.mp listed).1
      exact seed pair (TypeId.isAny_eq_false_iff.mp proper) (by simpa [Names] using refused)
    refine ⟨_, rfl, drops, excludeAll_stable indexed universal stable.covered, ?_⟩
    intro pair proper refused
    cases kept : (set.subset system keep).isEligible (.ofPair pair) with
    | false => rfl
    | true =>
      have eligible := drops.within _ kept
      have listed : TypeId.ofPair pair ∈ set.types := mem_types.mpr ⟨rfl, eligible⟩
      have dropped : TypeId.ofPair pair ∈ set.types.filter fun ty => !keep ty :=
        List.mem_filter.mpr ⟨listed, by simpa [Names] using refused⟩
      rw [ExchangeSet.subset, excludeAll_gone universal dropped (TypeId.isAny_eq_false_iff.mpr proper)] at kept
      cases kept
  | propagate =>
    refine ⟨set, ?_, .refl, stable, fun _ _ named => named.elim⟩
    have known : set.types.all system.contains = true := by
      rw [List.all_eq_true]
      intro ty member
      have inside := inside_of_eligible (mem_types.mp member).2
      exact Catalog.contains_iff.mpr (Nat.lt_of_lt_of_eq inside capacity)
    simp [run, propagate?, known, stable.settle]

theorem runAll_stable (universal : system.shape? .any = some .any) (indexed : system.references = .ofCatalog system.catalog)
    {calls : List SetCall} (capacity : set.capacity = system.size) (stable : set.Stable system)
    (seed : ∀ pair, pair ≠ 0 → (∃ call ∈ calls, call.Names pair) → seeds pair) :
    ∃ final, runAll system set calls = some final ∧ Drops system seeds set final ∧ final.Stable system ∧
      ∀ pair, pair ≠ 0 → (∃ call ∈ calls, call.Names pair) → final.isEligible (.ofPair pair) = false := by
  induction calls generalizing set with
  | nil => exact ⟨set, rfl, .refl, stable, by simp⟩
  | cons call rest ih =>
    obtain ⟨next, ran, first, settled, gone⟩ := @run_stable _ _ seeds universal indexed capacity stable call
      fun pair proper named => seed pair proper ⟨call, by simp, named⟩
    obtain ⟨final, finished, later, stays, absent⟩ := ih (first.capacity.trans capacity) settled
      fun pair proper ⟨other, member, named⟩ => seed pair proper ⟨other, by simp [member], named⟩
    refine ⟨final, ?_, first.trans later, stays, ?_⟩
    · rw [runAll, List.foldlM_cons, ran]
      exact finished
    · rintro pair proper ⟨other, member, named⟩
      rcases List.mem_cons.mp member with rfl | member
      · cases kept : final.isEligible (.ofPair pair) with
        | false => rfl
        | true =>
          have earlier := later.within _ kept
          rw [gone pair proper named] at earlier
          cases earlier
      · exact absent pair proper ⟨other, member, named⟩

end SetCall

/-- The components of a system's types are types of the system. -/
def System.Closed (system : System) : Prop :=
  ∀ ty shape, system.shape? ty = some shape → ∀ component ∈ shape.components, system.contains component = true

theorem System.Closed.of_sound {system : System} (sound : system.catalog.Sound) : system.Closed :=
  fun _ _ found _ member => sound.mentioned found (Shape.components_mentioned member)

namespace ExchangeSet

variable {system : System} {config : Config} {set other : ExchangeSet} {seeds : Nat → Prop} {ty : TypeId}

theorem full_isEligible : (full system config).isEligible ty = decide (ty.pair < system.size) := by
  simp only [full, isEligible, Array.getElem?_replicate]
  split <;> simp_all

/-- In the full set only types that are unfit anyway have to leave. -/
theorem unfit_of_full_leaves (closed : system.Closed) (leaving : (full system config).leaves system ty = true) :
    unfit system config ty = true := by
  obtain ⟨shape, found, leaving⟩ := leaves_iff.mp leaving
  have known : ∀ component ∈ shape.components, (full system config).isEligible component = true := by
    intro component member
    rw [full_isEligible, decide_eq_true_eq]
    exact Catalog.contains_iff.mp (closed ty shape found component member)
  cases shape with
  | any | basic => cases leaving
  | enumeration name underlying =>
    simp [mustLeave, known underlying (by simp [Shape.components])] at leaving
  | union members =>
    cases members with
    | nil => simp [unfit, System.isImplementable, found]
    | cons first rest => simp [mustLeave, known first (by simp [Shape.components, Shape.parts])] at leaving
  | abstraction name generalizations allowed =>
    cases allowed with
    | nil => simp [unfit, System.isImplementable, found]
    | cons first rest => simp [mustLeave, known first (by simp [Shape.components])] at leaving
  | record name isValue fields | primary name fields secondaries abstractions =>
    cases fields with
    | nil => simp [mustLeave] at leaving
    | cons first rest => simp [mustLeave, known first.ty (by simp [Shape.components])] at leaving
  | tuple | secondary | array | list | set | dictionary =>
    simp only [mustLeave, List.any_eq_true] at leaving
    obtain ⟨component, member, gone⟩ := leaving
    simp [known component member] at gone

theorem unfit_of_pair {first second : TypeId} (same : first.pair = second.pair) :
    unfit system config first = unfit system config second := by
  simp only [unfit, System.isImplementable, System.shape?, Catalog.shape?_of_pair same]

theorem withFilter_stable (universal : system.shape? .any = some .any) (closed : system.Closed)
    (indexed : system.references = .ofCatalog system.catalog) {reject : TypeId → Bool}
    (seed : ∀ pair, pair ≠ 0 → unfit system config (.ofPair pair) = true ∨ reject (.ofPair pair) = true → seeds pair) :
    Drops system seeds (full system config) (withFilter system config reject) ∧
      (withFilter system config reject).Stable system ∧
      ∀ pair, pair ≠ 0 → unfit system config (.ofPair pair) = true ∨ reject (.ofPair pair) = true →
        (withFilter system config reject).isEligible (.ofPair pair) = false := by
  have drops : Drops system seeds (full system config) (withFilter system config reject) := by
    refine excludeAll_drops universal fun ty member proper => ?_
    obtain ⟨listed, reason⟩ := List.mem_filter.mp member
    obtain ⟨pair, -, rfl⟩ := List.mem_map.mp listed
    exact seed pair (TypeId.isAny_eq_false_iff.mp proper) (by simpa using (Bool.and_eq_true_iff.mp reason).2)
  have listed {pair : Nat} (eligible : (full system config).isEligible (.ofPair pair) = true) (proper : pair ≠ 0)
      (reason : unfit system config (.ofPair pair) = true ∨ reject (.ofPair pair) = true) :
      TypeId.ofPair pair ∈ system.types.filter fun ty => !ty.isAny && (unfit system config ty || reject ty) := by
    rw [full_isEligible, decide_eq_true_eq] at eligible
    refine List.mem_filter.mpr ⟨List.mem_map_of_mem (List.mem_range.mpr eligible), ?_⟩
    have proper : (TypeId.ofPair pair).isAny = false := TypeId.isAny_eq_false_iff.mpr proper
    simpa [proper] using reason
  refine ⟨drops, excludeAll_stable indexed universal ?_, ?_⟩
  · intro ty eligible leaving
    have proper := proper_of_leaves universal leaving
    have useless := unfit_of_full_leaves closed leaving
    have same : (TypeId.ofPair ty.pair).pair = ty.pair := rfl
    rw [← unfit_of_pair same] at useless
    rw [← isEligible_of_pair same] at eligible
    exact .inl ⟨.ofPair ty.pair, listed eligible (TypeId.isAny_eq_false_iff.mp proper) (.inl useless), proper, same⟩
  · intro pair proper reason
    cases kept : (withFilter system config reject).isEligible (.ofPair pair) with
    | false => rfl
    | true =>
      have member := listed (drops.within _ kept) proper reason
      rw [withFilter, excludeAll_gone universal member (TypeId.isAny_eq_false_iff.mpr proper)] at kept
      cases kept

/-- The pairs that may not stay: unfit, rejected or named by a call. The universal type is never one of them. -/
def Seed (system : System) (config : Config) (reject : TypeId → Bool) (calls : List SetCall) (pair : Nat) : Prop :=
  pair ≠ 0 ∧ (unfit system config (.ofPair pair) = true ∨ reject (.ofPair pair) = true ∨ ∃ call ∈ calls, call.Names pair)

/-- A set of a system's pairs without seeds, in which no member has to leave. -/
structure Admissible (system : System) (config : Config) (seeds : Nat → Prop) (set : ExchangeSet) : Prop where
  capacity : set.capacity = system.size
  rule : set.enumFollowsUnderlying = config.enumFollowsUnderlying
  avoids : ∀ pair, seeds pair → set.isEligible (.ofPair pair) = false
  stable : set.Stable system

/-- Sets that hold the same pairs, and know how many, are the same. -/
theorem eq_of_within (capacity : set.capacity = other.capacity) (rule : set.enumFollowsUnderlying = other.enumFollowsUnderlying)
    (counted : set.count = set.remaining) (otherCounted : other.count = other.remaining)
    (forward : set.Within other) (backward : other.Within set) : set = other := by
  have same : set.eligible = other.eligible := by
    apply Array.ext capacity
    intro pair inside outside
    have atSet : set.isEligible (.ofPair pair) = set.eligible[pair] := by
      simp [isEligible, Array.getElem?_eq_getElem inside]
    have atOther : other.isEligible (.ofPair pair) = other.eligible[pair] := by
      simp [isEligible, Array.getElem?_eq_getElem outside]
    rw [← atSet, ← atOther]
    exact Bool.eq_iff_iff.mpr ⟨forward _, backward _⟩
  have counts : set.count = other.count := by rw [counted, otherCounted, remaining, remaining, same]
  cases set
  cases other
  cases same
  cases counts
  cases rule
  rfl

theorem run_greatest (sound : system.catalog.Sound) (indexed : system.references = .ofCatalog system.catalog)
    (config : Config) (reject : TypeId → Bool) (calls : List SetCall) :
    ∃ set, SetCall.runAll system (withFilter system config reject) calls = some set ∧ set.count = set.remaining ∧
      Admissible system config (Seed system config reject calls) set ∧
      ∀ other, Admissible system config (Seed system config reject calls) other → other.Within set := by
  obtain ⟨first, stable, filtered⟩ := @withFilter_stable _ config (Seed system config reject calls) sound.any
    (.of_sound sound) indexed reject
    fun pair proper reason => ⟨proper, reason.elim .inl fun rejected => .inr (.inl rejected)⟩
  have capacity : (withFilter system config reject).capacity = system.size := by
    rw [first.capacity]
    simp [full, ExchangeSet.capacity]
  obtain ⟨final, ran, later, settled, named⟩ := @SetCall.runAll_stable _ _ (Seed system config reject calls)
    sound.any indexed calls capacity stable fun pair proper named => ⟨proper, .inr (.inr named)⟩
  have drops : Drops system (Seed system config reject calls) (full system config) final := first.trans later
  refine ⟨final, ran, drops.counted (by simp [full, remaining]), ⟨later.capacity.trans capacity, drops.rule, ?_, settled⟩, ?_⟩
  · rintro pair ⟨proper, reason⟩
    have absent (start : (withFilter system config reject).isEligible (.ofPair pair) = false) :
        final.isEligible (.ofPair pair) = false := by
      cases kept : final.isEligible (.ofPair pair) with
      | false => rfl
      | true =>
        rw [later.within _ kept] at start
        cases start
    rcases reason with useless | rejected | reason
    · exact absent (filtered pair proper (.inl useless))
    · exact absent (filtered pair proper (.inr rejected))
    · exact named pair proper reason
  · intro other admissible
    refine drops.keeps admissible.rule admissible.stable admissible.avoids ?_
    intro ty eligible
    rw [full_isEligible, decide_eq_true_eq, ← admissible.capacity]
    exact inside_of_eligible eligible

/-- Only seeds among the system's own pairs matter. -/
theorem Admissible.of_seeds {fewer : Nat → Prop} (admissible : Admissible system config seeds set)
    (covers : ∀ pair, pair < system.size → fewer pair → seeds pair) : Admissible system config fewer set := by
  refine ⟨admissible.capacity, admissible.rule, ?_, admissible.stable⟩
  intro pair seed
  cases kept : set.isEligible (.ofPair pair) with
  | false => rfl
  | true =>
    have inside : pair < system.size := Nat.lt_of_lt_of_eq (inside_of_eligible kept) admissible.capacity
    rw [← kept]
    exact admissible.avoids pair (covers pair inside seed)

/-- Whatever is excluded from a system's types, the greatest admissible set is left. It depends on the seeds
alone, not on the order or the grouping of the calls. -/
theorem exclusion_leaves_greatest {builder : Builder} {diagnostics : Diagnostics} (reached : builder.Reached)
    (locked : builder.lock = some (system, diagnostics)) (config : Config) (reject : TypeId → Bool) (calls : List SetCall) :
    ∃ set, SetCall.runAll system (withFilter system config reject) calls = some set ∧
      Admissible system config (Seed system config reject calls) set ∧
      (∀ other, Admissible system config (Seed system config reject calls) other → other.Within set) ∧
      ∀ reject' calls',
        (∀ pair, pair < system.size → (Seed system config reject' calls' pair ↔ Seed system config reject calls pair)) →
          SetCall.runAll system (withFilter system config reject') calls' = some set := by
  have sound := Builder.Reached.locked_sound reached locked
  have edits : Catalog.Edits (fun _ _ => True) builder.catalog system.catalog ∧ _ :=
    Builder.lock_edits (Builder.Reached.sound reached) locked
  obtain ⟨set, ran, counted, admissible, greatest⟩ := run_greatest sound edits.2 config reject calls
  refine ⟨set, ran, admissible, greatest, ?_⟩
  intro reject' calls' same
  obtain ⟨again, rerun, recounted, alike, greater⟩ := run_greatest sound edits.2 config reject' calls'
  have forward := greatest again (alike.of_seeds fun pair inside seed => (same pair inside).mpr seed)
  have backward := greater set (admissible.of_seeds fun pair inside seed => (same pair inside).mp seed)
  rw [rerun, eq_of_within (alike.capacity.trans admissible.capacity.symm) (alike.rule.trans admissible.rule.symm)
    recounted counted forward backward]

/-- The union of the gallery has lost its array already, so it leaves with its other member. -/
theorem exclusion_leaves_greatest_gallery : ∃ system diagnostics, Builder.gallery.lock = some (system, diagnostics) ∧
    (withFilter system {} fun _ => false).isEligible (.ofPair 21) = true ∧
    ∃ set, SetCall.runAll system (withFilter system {} fun _ => false) [.exclude (.ofPair 3), .propagate] = some set ∧
      set.isEligible (.ofPair 3) = false ∧ set.isEligible (.ofPair 21) = false ∧
      Admissible system {} (Seed system {} (fun _ => false) [.exclude (.ofPair 3), .propagate]) set ∧
      ∀ other, Admissible system {} (Seed system {} (fun _ => false) [.exclude (.ofPair 3), .propagate]) other →
        other.Within set := by
  have shown : Builder.gallery.lock.any (fun locked =>
      (withFilter locked.1 {} fun _ => false).isEligible (.ofPair 21) &&
      (SetCall.runAll locked.1 (withFilter locked.1 {} fun _ => false) [.exclude (.ofPair 3), .propagate]).any fun set =>
        !set.isEligible (.ofPair 3) && !set.isEligible (.ofPair 21)) = true := by decide +kernel
  obtain ⟨⟨system, diagnostics⟩, locked, shown⟩ := (Option.any_eq_true ..).mp shown
  obtain ⟨set, ran, admissible, greatest, -⟩ :=
    exclusion_leaves_greatest Builder.gallery_reached locked {} (fun _ => false) [.exclude (.ofPair 3), .propagate]
  simp only [ran, Option.any_some, Bool.and_eq_true, Bool.not_eq_true'] at shown
  obtain ⟨before, gone, followed⟩ := shown
  exact ⟨system, diagnostics, locked, before, set, ran, gone, followed, admissible, greatest⟩

end ExchangeSet
end Interchange
