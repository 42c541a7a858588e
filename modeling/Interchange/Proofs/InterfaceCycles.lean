import Interchange.Proofs.BuilderHistory
import Interchange.Proofs.InterfaceDerivation

/-! When reconciliation comes to its end. It fails to only where an interface is above itself, and
this takes an abstraction that was declared with a primary interface above it. -/

namespace Interchange

namespace Catalog

variable {catalog : Catalog} {ty left right : TypeId} {leftShape rightShape : Shape}

def Acyclic (catalog : Catalog) : Prop :=
  ∀ ty, ¬ Relation.TransGen catalog.Parent ty ty

theorem Acyclic.not_loops (acyclic : catalog.Acyclic) : ¬ catalog.Loops ty := by
  rintro ⟨above, -, cycle⟩
  exact acyclic above cycle

theorem Parent.kind {above : TypeId} (parent : catalog.Parent ty above) :
    catalog.kind? ty = some .primary ∨ catalog.kind? ty = some .abstraction := by
  obtain ⟨shape, found, member⟩ := parent
  have kind := kind?_of_shape found
  cases shape with
  | primary => exact .inl kind
  | abstraction => exact .inr kind
  | _ => cases member

/-- A cycle passes from an abstraction up to a primary interface: from abstraction to abstraction it could only
lead to older ones. -/
theorem cycle_through_family (sound : catalog.Sound) (implementing : catalog.Implementing)
    (cycle : Relation.TransGen catalog.Parent ty ty) :
    ∃ above family, Derives catalog ty above ∧ catalog.Parent above family ∧ Derives catalog family ty ∧
      catalog.kind? above = some .abstraction ∧ catalog.kind? family = some .primary := by
  by_contra none
  have raised : ∀ upper, Relation.TransGen catalog.Parent ty upper → Derives catalog upper ty →
      catalog.kind? upper = some .abstraction := by
    intro upper climbs returns
    obtain ⟨lower, derives, parent⟩ := Relation.TransGen.tail'_iff.mp climbs
    obtain ⟨next, further, -⟩ := Relation.TransGen.head'_iff.mp (cycle.trans_right returns)
    rcases further.kind with primary | abstraction
    · rcases parent.kind with lowerPrimary | lowerAbstraction
      · obtain ⟨shape, found, member⟩ := parent
        obtain ⟨same, present, kind⟩ := shape_of_kind lowerPrimary
        cases found.symm.trans present
        have fits := implementing lower shape found kind
        cases shape <;> cases kind
        exact fits upper member
      · exact absurd ⟨lower, upper, derives, parent, returns, lowerAbstraction, primary⟩ none
    · exact abstraction
  have older : ∀ upper, Relation.TransGen catalog.Parent ty upper → Derives catalog upper ty → upper.pair < ty.pair := by
    have down {lower upper : TypeId} (parent : catalog.Parent lower upper) (kind : catalog.kind? lower = some .abstraction) :
        upper.pair < lower.pair := by
      obtain ⟨shape, found, member⟩ := parent
      rw [kind?_of_shape found] at kind
      cases shape <;> cases kind
      exact sound.ordered lower _ found upper member
    intro upper climbs
    induction climbs with
    | single parent => exact fun _ => down parent (raised ty cycle .refl)
    | @tail middle upper before parent ih =>
      intro returns
      have back : Derives catalog middle ty := .head parent returns
      have first := down parent (raised middle before back)
      have second := ih back
      omega
  exact Nat.lt_irrefl _ (older ty cycle .refl)

theorem resolveFamilies_ends (sound : catalog.Sound) (acyclic : catalog.Acyclic) (leftKnown : catalog.contains left = true)
    (rightKnown : catalog.contains right = true) {clash : Conflict} (proper : clash ≠ .unregistered) :
    catalog.resolveFamilies left right clash ≠ .error .unregistered := by
  unfold resolveFamilies
  split
  · simp
  · rcases @derivesFrom?_of_loopless catalog left right sound leftKnown acyclic.not_loops with ⟨found, -⟩ | ⟨found, -⟩
    · simp [found]
    · rcases @derivesFrom?_of_loopless catalog right left sound rightKnown acyclic.not_loops with ⟨again, -⟩ | ⟨again, -⟩
      · simp [found, again]
      · simpa [found, again] using proper

/-- Two types are reconciled with one outcome by all of the given ways to reconcile their items, if the items are. -/
theorem resolveShapes_ends {ways : (TypeId → TypeId → Resolution) → Prop} (sound : catalog.Sound) (acyclic : catalog.Acyclic)
    (leftFound : catalog.shape? left = some leftShape) (rightFound : catalog.shape? right = some rightShape)
    (items : ∀ (family : Family) leftItem leftForm rightItem rightForm, leftShape = family.shape leftItem leftForm →
      rightShape = family.shape rightItem rightForm →
      ∃ outcome, outcome ≠ .error .unregistered ∧ ∀ inner, ways inner → inner leftItem rightItem = outcome) :
    ∃ outcome, outcome ≠ .error .unregistered ∧ ∀ inner, ways inner → catalog.resolveShapes inner left right = outcome := by
  by_cases equal : left = right
  · exact ⟨.ok (left, catalog), by simp, fun inner _ => by simp [resolveShapes, equal]⟩
  by_cases leftAny : left.isAny = true
  · exact ⟨.ok (right, catalog), by simp, fun inner _ => by simp [resolveShapes, equal, leftAny]⟩
  by_cases rightAny : right.isAny = true
  · exact ⟨.ok (left, catalog), by simp, fun inner _ => by simp [resolveShapes, equal, leftAny, rightAny]⟩
  have follows (inner : TypeId → TypeId → Resolution) := @resolveShapes_eq_follow catalog inner left right leftShape rightShape
    equal (by simpa using leftAny) (by simpa using rightAny) leftFound rightFound
  cases judged : verdict leftShape rightShape with
  | narrow family leftItem leftForm rightItem rightForm =>
    obtain ⟨rfl, rfl⟩ := verdict_narrow.mp judged
    obtain ⟨outcome, answered, agreed⟩ := items family leftItem leftForm rightItem rightForm rfl rfl
    cases outcome with
    | error conflict =>
      refine ⟨.error conflict, by simpa using answered, ?_⟩
      intro inner way
      rw [follows, judged, follow, agreed inner way]
      rfl
    | ok result =>
      refine ⟨.ok (result.2.narrowed left right family leftItem leftForm rightItem rightForm result.1), by simp, ?_⟩
      intro inner way
      rw [follows, judged, follow, agreed inner way]
      rfl
  | interfaces =>
    refine ⟨_, ?_, fun inner _ => (follows inner).trans (by rw [judged, follow])⟩
    exact resolveFamilies_ends sound acyclic (family_known sound leftFound) (family_known sound rightFound) (by simp)
  | _ =>
    refine ⟨_, ?_, fun inner _ => (follows inner).trans (by rw [judged, follow])⟩
    simp

/-- The outcome for two types is there at a depth beyond the first one's pair, and no further depth changes it. -/
theorem resolveWithin_ends (sound : catalog.Sound) (acyclic : catalog.Acyclic) (leftKnown : catalog.contains left = true)
    (rightKnown : catalog.contains right = true) : ∃ outcome, outcome ≠ .error .unregistered ∧
      ∀ depth, left.pair < depth → catalog.resolveWithin depth left right = outcome := by
  generalize bound : left.pair = pair
  induction pair using Nat.strongRecOn generalizing left right with
  | ind pair ih =>
    subst bound
    obtain ⟨leftShape, leftFound⟩ := shape_of_contains leftKnown
    obtain ⟨rightShape, rightFound⟩ := shape_of_contains rightKnown
    have bareLeft : catalog.shape? left.nonNull = some leftShape := leftFound
    have bareRight : catalog.shape? right.nonNull = some rightShape := rightFound
    obtain ⟨outcome, answered, agreed⟩ := @resolveShapes_ends catalog left.nonNull right.nonNull leftShape rightShape
        (fun inner => ∃ depth, left.pair ≤ depth ∧ inner = catalog.resolveWithin depth) sound acyclic bareLeft bareRight (by
      rintro family leftItem leftForm rightItem rightForm rfl rfl
      have older := sound.ordered left _ leftFound leftItem Family.item_mem_foundation
      have leftInside := sound.mentioned leftFound (family.shape_mentions .. ▸ Family.item_mem_parts)
      have rightInside := sound.mentioned rightFound (family.shape_mentions .. ▸ Family.item_mem_parts)
      obtain ⟨outcome, answered, agreed⟩ := ih leftItem.pair older leftInside rightInside rfl
      refine ⟨outcome, answered, ?_⟩
      rintro inner ⟨depth, deep, rfl⟩
      exact agreed depth (by omega))
    refine ⟨outcome.map fun result => (result.1.withNullability (left.nullable && right.nullable), result.2), ?_, ?_⟩
    · cases outcome with
      | error conflict => simpa [Except.map] using answered
      | ok result => simp [Except.map]
    · intro depth deep
      cases depth with
      | zero => omega
      | succ depth =>
        rw [resolveWithin, agreed _ ⟨depth, by omega, rfl⟩]
        cases outcome <;> rfl

end Catalog

namespace Builder

open Catalog

variable {builder : Builder}

/-- Reconciliation ends for all registered types unless an interface is above itself, which takes an abstraction with a
primary interface above it. The search for what is not above a type ends only if no interface there is above itself. -/
theorem resolution_ends_unless_cyclic (reached : builder.Reached) :
    (builder.catalog.Acyclic → ∀ left right, builder.catalog.contains left = true → builder.catalog.contains right = true →
      builder.resolvePair left right ≠ .error .unregistered ∧ ∀ depth, builder.size < depth →
        builder.catalog.resolveWithin depth left right = builder.catalog.resolvePair left right) ∧
    (∀ ty, Relation.TransGen builder.catalog.Parent ty ty →
      ∃ above family, Derives builder.catalog ty above ∧ builder.catalog.Parent above family ∧
        Derives builder.catalog family ty ∧ builder.catalog.kind? above = some .abstraction ∧
        builder.catalog.kind? family = some .primary) ∧
    ∀ derived base, builder.catalog.contains derived = true → ¬ Derives builder.catalog derived base →
      ((∀ depth, builder.catalog.derivesWithin depth derived base = none) ↔ builder.catalog.Loops derived) := by
  have sound := Reached.sound reached
  refine ⟨?_, fun ty cycle => cycle_through_family sound (Reached.implementing reached) cycle, ?_⟩
  · intro acyclic left right leftKnown rightKnown
    obtain ⟨outcome, answered, agreed⟩ := resolveWithin_ends sound acyclic leftKnown rightKnown
    have inside : left.pair < builder.size := contains_iff.mp leftKnown
    have own : builder.catalog.resolvePair left right = outcome := agreed _ (Nat.lt_succ_of_lt inside)
    refine ⟨?_, fun depth deep => (agreed depth (Nat.lt_trans inside deep)).trans own.symm⟩
    rw [resolvePair, own]
    cases outcome with
    | error conflict => simpa [bind, Except.bind] using answered
    | ok result => simp [bind, Except.bind, pure, Except.pure]
  · intro derived base inside separate
    refine ⟨?_, fun loops => derivesWithin_of_loops loops separate⟩
    intro unanswered
    by_contra loopless
    rcases @derivesFrom?_of_loopless builder.catalog derived base sound inside loopless with ⟨found, -⟩ | ⟨found, -⟩
    all_goals
      rw [derivesFrom?, unanswered] at found
      cases found

/-- A family that implements an abstraction which was declared with that family above it, and another family. -/
def market : Builder :=
  Builder.new.replay [.primary "Stall" {}, .abstraction "Vendor" [.ofPair 19] {}, .implement (.ofPair 19) (.ofPair 20),
    .primary "Garden" {}]

theorem market_reached : market.Reached :=
  ReachedBy.new.replay (by decide +kernel)

theorem resolution_ends_unless_cyclic_market :
    market.Reached ∧ Relation.TransGen market.catalog.Parent (.ofPair 19) (.ofPair 19) ∧
      (∃ above family, Derives market.catalog (.ofPair 19) above ∧ market.catalog.Parent above family ∧
        market.catalog.kind? above = some .abstraction ∧ market.catalog.kind? family = some .primary) ∧
      (∀ depth, market.catalog.derivesWithin depth (.ofPair 19) (.ofPair 21) = none) ∧
      market.resolvePair (.ofPair 19) (.ofPair 21) = .error .unregistered ∧
      gallery.Reached ∧ gallery.resolvePair (.ofPair 20) (.ofPair 21) ≠ .error .unregistered := by
  obtain ⟨-, cycles, endless⟩ := resolution_ends_unless_cyclic market_reached
  obtain ⟨ends, galleryCycles, -⟩ := resolution_ends_unless_cyclic gallery_reached
  have stall : market.catalog.shape? (.ofPair 19) = some (.primary ⟨0⟩ [] [] [.ofPair 20]) := by decide +kernel
  have vendor : market.catalog.shape? (.ofPair 20) = some (.abstraction ⟨1⟩ [.ofPair 19] []) := by decide +kernel
  have cycle : Relation.TransGen market.catalog.Parent (.ofPair 19) (.ofPair 19) :=
    .tail (.single ⟨_, stall, by simp [Shape.parents]⟩) ⟨_, vendor, by simp [Shape.parents]⟩
  have within : ∀ upper, Derives market.catalog (.ofPair 19) upper → upper = .ofPair 19 ∨ upper = .ofPair 20 := by
    intro upper derives
    induction derives with
    | refl => exact .inl rfl
    | tail _ parent ih =>
      obtain ⟨shape, found, member⟩ := parent
      rcases ih with rfl | rfl
      · cases stall.symm.trans found
        exact .inr (List.mem_singleton.mp member)
      · cases vendor.symm.trans found
        exact .inl (List.mem_singleton.mp member)
  have separate : ¬ Derives market.catalog (.ofPair 19) (.ofPair 21) := fun derives =>
    absurd (within _ derives) (by decide)
  obtain ⟨above, family, derives, parent, -, aboveKind, familyKind⟩ := cycles _ cycle
  refine ⟨market_reached, cycle, ⟨above, family, derives, parent, aboveKind, familyKind⟩, ?_, by decide +kernel,
    gallery_reached, ?_⟩
  · exact (endless _ _ (by decide +kernel) separate).mpr ⟨_, .refl, cycle⟩
  · refine (ends ?_ _ _ (by decide +kernel) (by decide +kernel)).1
    intro ty cycle
    -- The gallery has no primary interface.
    obtain ⟨-, family, -, -, -, -, familyKind⟩ := galleryCycles ty cycle
    have inside := contains_iff.mp (contains_of_shape (shape_of_kind familyKind).choose_spec.1)
    have absent : ∀ pair < 22, gallery.catalog.kind? (.ofPair pair) ≠ some .primary := by decide +kernel
    have size : gallery.catalog.size = 22 := by decide +kernel
    exact absent family.pair (size ▸ inside) familyKind

end Builder
end Interchange
