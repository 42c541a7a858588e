import Interchange.Proofs.BuilderHistory
import Interchange.Proofs.TypeOrder

/-! What the resolver answers is the greatest type below both operands. This holds of the
table it leaves, and of every later one that shows the types unchanged. -/

namespace Interchange

namespace Catalog

variable {catalog : Catalog} {left right ty : TypeId} {shape : Shape}

theorem Below.of_derives (sound : catalog.Sound) {derived base : TypeId} (derives : Derives catalog derived base)
    (plain : derived.nullable = false) : Below catalog derived base ∧ base.nullable = false := by
  induction derives with
  | refl => exact ⟨.refl _, plain⟩
  | @tail middle above _ parent ih =>
    obtain ⟨shape, found, member⟩ := parent
    have higher := parent_plain sound found member
    have step := Below.derived found member
    rw [TypeId.nonNull_of_plain ih.2, TypeId.nonNull_of_plain higher] at step
    exact ⟨.trans ih.1 step, higher⟩

/-- A type and the head of its family are below each other. -/
theorem family_below (sound : catalog.Sound) (found : catalog.shape? ty = some shape) (plain : ty.nullable = false) :
    Below catalog (shape.family ty) ty ∧ Below catalog ty (shape.family ty) := by
  cases shape with
  | secondary name head =>
    have headPlain := sound.plain ty _ found head (by simp [Shape.lineage])
    have down := Below.primary found
    have up := Below.secondary found
    rw [TypeId.nonNull_of_plain headPlain, TypeId.nonNull_of_plain plain] at down up
    exact ⟨down, up⟩
  | _ => exact ⟨.refl _, .refl _⟩

structure IsMeet (catalog : Catalog) (left right ty : TypeId) : Prop where
  belowLeft : Below catalog ty left
  belowRight : Below catalog ty right
  greatest : ∀ lower, catalog.contains lower = true → Below catalog lower left → Below catalog lower right →
    Below catalog lower ty

theorem IsMeet.of_bare {bare : TypeId} (plain : bare.nullable = false) (meet : IsMeet catalog left.nonNull right.nonNull bare) :
    IsMeet catalog left right (bare.withNullability (left.nullable && right.nullable)) := by
  have same : (bare.withNullability (left.nullable && right.nullable)).nonNull = bare := TypeId.nonNull_of_plain plain
  constructor
  · refine .of_nonNull (same ▸ meet.belowLeft) ?_
    intro both
    exact (Bool.and_eq_true_iff.mp both).1
  · refine .of_nonNull (same ▸ meet.belowRight) ?_
    intro both
    exact (Bool.and_eq_true_iff.mp both).2
  · intro lower inside belowLeft belowRight
    refine .of_nonNull ?_ ?_
    · rw [same]
      exact meet.greatest lower.nonNull inside belowLeft.nonNull belowRight.nonNull
    · intro absent
      exact Bool.and_eq_true_iff.mpr ⟨belowLeft.nullable absent, belowRight.nullable absent⟩

/-- What is below a collection: one of its family, or an array below a read-only list. -/
theorem Below.collection_cases (sound : catalog.Sound) (hierarchical : catalog.Hierarchical) {lower upper bound : TypeId}
    {family : Family} {wider : CollectionForm} (below : Below catalog lower upper)
    (upperFound : catalog.shape? upper = some (family.shape bound wider)) :
    (∃ item form, catalog.shape? lower = some (family.shape item form) ∧ Below catalog item bound ∧
      (form = wider ∨ form = .concrete)) ∨
    ∃ item list, family = .list ∧ wider = .readOnly ∧ catalog.shape? lower = some (.array item) ∧
      catalog.shape? list = some (.list item .readOnly) ∧ Below catalog item bound := by
  cases below.ordered sound hierarchical with
  | same same => exact .inl ⟨bound, wider, (shape?_of_pair same).trans upperFound, .refl _, .inl rfl⟩
  | any universal =>
    have found := sound.universal universal
    grind
  | @array item bound' list lowerFound listFound found items =>
    rw [found] at upperFound
    cases family <;> cases upperFound
    exact .inr ⟨item, list, rfl, rfl, lowerFound, listFound, items⟩
  | collection lowerFound found items forms =>
    rw [found] at upperFound
    obtain ⟨rfl, rfl, rfl⟩ := Family.shape_inj (Option.some.inj upperFound)
    exact .inl ⟨_, _, lowerFound, items, forms⟩
  | interfaces => grind

end Catalog

namespace CollectionForm

variable {form left right : CollectionForm}

theorem common_left : left.common right = left ∨ left.common right = .concrete := by
  unfold common
  split
  · exact .inl rfl
  · exact .inr rfl

theorem common_right : left.common right = right ∨ left.common right = .concrete := by
  unfold common
  split
  next same => exact .inl same
  next => exact .inr rfl

theorem common_greatest (belowLeft : form = left ∨ form = .concrete) (belowRight : form = right ∨ form = .concrete) :
    form = left.common right ∨ form = .concrete := by
  rcases belowLeft with rfl | concrete
  · rcases belowRight with rfl | concrete
    · simp [common]
    · exact .inr concrete
  · exact .inr concrete

end CollectionForm

namespace Catalog

variable {catalog later : Catalog} {left right ty : TypeId}

/-- Collections of one family meet where their items meet. -/
theorem IsMeet.narrow (sound : catalog.Sound) (hierarchical : catalog.Hierarchical) {family : Family}
    {leftItem rightItem item : TypeId} {leftForm rightForm : CollectionForm} (leftPlain : left.nullable = false)
    (rightPlain : right.nullable = false) (plain : ty.nullable = false)
    (leftFound : catalog.shape? left = some (family.shape leftItem leftForm))
    (rightFound : catalog.shape? right = some (family.shape rightItem rightForm))
    (found : catalog.shape? ty = some (family.shape item (leftForm.common rightForm)))
    (items : IsMeet catalog leftItem rightItem item) : IsMeet catalog left right ty := by
  constructor
  · have below := Below.covariant found leftFound items.belowLeft CollectionForm.common_left
    rwa [TypeId.nonNull_of_plain plain, TypeId.nonNull_of_plain leftPlain] at below
  · have below := Below.covariant found rightFound items.belowRight CollectionForm.common_right
    rwa [TypeId.nonNull_of_plain plain, TypeId.nonNull_of_plain rightPlain] at below
  · intro lower inside belowLeft belowRight
    rw [← TypeId.nonNull_of_plain (belowLeft.plain leftPlain), ← TypeId.nonNull_of_plain plain]
    rcases belowLeft.collection_cases sound hierarchical leftFound with
      ⟨own, form, lowerFound, leftItems, leftForms⟩ | ⟨own, list, rfl, rfl, lowerFound, listFound, leftItems⟩
    · rcases belowRight.collection_cases sound hierarchical rightFound with
        ⟨own', form', again, rightItems, rightForms⟩ | ⟨own', _, rfl, rfl, again, -, rightItems⟩
      · rw [lowerFound] at again
        obtain ⟨-, rfl, rfl⟩ := Family.shape_inj (Option.some.inj again)
        have known := sound.mentioned lowerFound (family.shape_mentions .. ▸ Family.item_mem_parts)
        exact .covariant lowerFound found (items.greatest own known leftItems rightItems)
          (CollectionForm.common_greatest leftForms rightForms)
      · rw [lowerFound] at again
        cases again
    · rcases belowRight.collection_cases sound hierarchical rightFound with
        ⟨own', form', again, rightItems, rightForms⟩ | ⟨own', _, -, rfl, again, -, rightItems⟩
      · rw [lowerFound] at again
        cases again
      · rw [lowerFound] at again
        cases again
        have known : catalog.contains own = true :=
          sound.mentioned lowerFound (by simp [Shape.mentions, Shape.components, Shape.parts])
        have above : Below catalog own item := items.greatest own known leftItems rightItems
        have listShape : catalog.shape? list = some (Family.list.shape own .readOnly) := listFound
        exact .trans (.array lowerFound listFound) (.covariant listShape found above (.inl rfl))

/-- Of two families the one that derives from the other is their meet. -/
theorem IsMeet.derived (sound : catalog.Sound) {leftShape rightShape : Shape} (leftPlain : left.nullable = false)
    (rightPlain : right.nullable = false) (leftFound : catalog.shape? left = some leftShape)
    (rightFound : catalog.shape? right = some rightShape)
    (derives : Derives catalog (leftShape.family left) (rightShape.family right)) :
    IsMeet catalog left right (leftShape.family left) := by
  obtain ⟨downLeft, upLeft⟩ := family_below sound leftFound leftPlain
  obtain ⟨downRight, -⟩ := family_below sound rightFound rightPlain
  obtain ⟨below, -⟩ := Below.of_derives sound derives (family_plain sound leftFound leftPlain)
  exact ⟨downLeft, .trans below downRight, fun lower _ belowLeft _ => .trans belowLeft upLeft⟩

theorem IsMeet.symm (meet : IsMeet catalog left right ty) : IsMeet catalog right left ty :=
  ⟨meet.belowRight, meet.belowLeft, fun lower inside belowRight belowLeft => meet.greatest lower inside belowLeft belowRight⟩

theorem isMeet_any (universal : left.isAny = true) (leftPlain : left.nullable = false) (rightPlain : right.nullable = false) :
    IsMeet catalog left right right := by
  have same : left = .any := TypeId.ext_iff_pair.mpr ⟨TypeId.isAny_iff.mp universal, leftPlain⟩
  rw [same]
  exact ⟨.any rightPlain, .refl _, fun _ _ _ below => below⟩

theorem isMeet_array {item : TypeId} (leftPlain : left.nullable = false) (rightPlain : right.nullable = false)
    (leftFound : catalog.shape? left = some (.array item)) (rightFound : catalog.shape? right = some (.list item .readOnly)) :
    IsMeet catalog left right left := by
  have below := Below.array leftFound rightFound
  rw [TypeId.nonNull_of_plain leftPlain, TypeId.nonNull_of_plain rightPlain] at below
  exact ⟨.refl _, below, fun _ _ belowLeft _ => belowLeft⟩

/-- A level of resolution finds meets if the levels below do. -/
theorem Resolved.isMeet {inner : TypeId → TypeId → Resolution} {final : Catalog}
    (resolved : Resolved catalog inner left right ty final) (sound : catalog.Sound) (leftPlain : left.nullable = false)
    (rightPlain : right.nullable = false)
    (below : ∀ leftItem rightItem item grown, catalog.contains leftItem = true → catalog.contains rightItem = true →
      inner leftItem rightItem = .ok (item, grown) → Growth catalog grown ∧ grown.contains item = true ∧
        ∀ later, grown.Extends later → later.Sound → later.Hierarchical → IsMeet later leftItem rightItem item)
    (extension : final.Extends later) (laterSound : later.Sound) (hierarchical : later.Hierarchical) :
    IsMeet later left right ty ∧ ty.nullable = false := by
  cases resolved with
  | same equal =>
    subst equal
    exact ⟨⟨.refl _, .refl _, fun _ _ below _ => below⟩, leftPlain⟩
  | anyLeft universal => exact ⟨isMeet_any universal leftPlain rightPlain, rightPlain⟩
  | anyRight universal => exact ⟨(isMeet_any universal rightPlain leftPlain).symm, leftPlain⟩
  | arrayLeft leftFound rightFound =>
    exact ⟨isMeet_array leftPlain rightPlain (extension.shape leftFound) (extension.shape rightFound), leftPlain⟩
  | arrayRight leftFound rightFound =>
    exact ⟨(isMeet_array rightPlain leftPlain (extension.shape rightFound) (extension.shape leftFound)).symm, rightPlain⟩
  | @derivedLeft leftShape rightShape leftFound rightFound derived =>
    have derives : Derives catalog (leftShape.family left) (rightShape.family right) := by
      rcases derived with same | found
      · rw [same]
      · exact derives_of_within found
    exact ⟨.derived laterSound leftPlain rightPlain (extension.shape leftFound) (extension.shape rightFound)
      (derives.extend extension), family_plain sound leftFound leftPlain⟩
  | derivedRight leftFound rightFound derived =>
    have derives := derives_of_within derived
    exact ⟨(IsMeet.derived laterSound rightPlain leftPlain (extension.shape rightFound) (extension.shape leftFound)
      (derives.extend extension)).symm, family_plain sound rightFound rightPlain⟩
  | @narrow family leftItem rightItem item leftForm rightForm grown leftFound rightFound recursive =>
    have leftInside := sound.mentioned leftFound (family.shape_mentions .. ▸ Family.item_mem_parts)
    have rightInside := sound.mentioned rightFound (family.shape_mentions .. ▸ Family.item_mem_parts)
    obtain ⟨growth, inside, meets⟩ := below leftItem rightItem item grown leftInside rightInside recursive
    obtain ⟨last, found⟩ := narrowed_spec sound leftFound rightFound growth inside
    have plain := @narrowed_plain grown family left right leftItem rightItem item leftForm rightForm leftPlain rightPlain
    have grownLater : grown.Extends later := (Growth.extension last).trans extension
    have base : catalog.Extends later := growth.extension.trans grownLater
    exact ⟨.narrow laterSound hierarchical leftPlain rightPlain plain (base.shape leftFound) (base.shape rightFound)
      (extension.shape found) (meets later grownLater laterSound hierarchical), plain⟩

theorem resolveWithin_isMeet {depth : Nat} {final : Catalog} (sound : catalog.Sound)
    (leftKnown : catalog.contains left = true) (rightKnown : catalog.contains right = true)
    (resolved : catalog.resolveWithin depth left right = .ok (ty, final)) (extension : final.Extends later)
    (laterSound : later.Sound) (hierarchical : later.Hierarchical) : IsMeet later left right ty := by
  induction depth generalizing left right ty final later with
  | zero => cases resolved
  | succ depth ih =>
    obtain ⟨bare, outcome, rfl⟩ := resolveWithin_ok resolved
    obtain ⟨meet, plain⟩ := outcome.isMeet sound rfl rfl
      (fun leftItem rightItem item grown leftInside rightInside recursive =>
        have ⟨growth, inside⟩ := resolveWithin_growth sound leftInside rightInside recursive
        ⟨growth, inside, fun later => ih leftInside rightInside recursive⟩)
      extension laterSound hierarchical
    exact .of_bare plain meet

end Catalog

namespace Builder

variable {builder later : Builder} {left right ty : TypeId}

theorem resolvePair_ok (resolved : builder.resolvePair left right = .ok (ty, later)) :
    builder.catalog.resolvePair left right = .ok (ty, later.catalog) := by
  cases outcome : builder.catalog.resolvePair left right with
  | error conflict => simp [resolvePair, outcome, bind, Except.bind] at resolved
  | ok result =>
    simp only [resolvePair, outcome, bind, Except.bind, pure, Except.pure, Except.ok.injEq, Prod.mk.injEq] at resolved
    obtain ⟨rfl, rfl⟩ := resolved
    rfl

/-- Whatever two registered types are reconciled to is their greatest lower bound. -/
theorem resolvePair_isMeet (reached : builder.OrderlyReached) (leftKnown : builder.catalog.contains left = true)
    (rightKnown : builder.catalog.contains right = true) (resolved : builder.resolvePair left right = .ok (ty, later)) :
    later.catalog.IsMeet left right ty := by
  have sound := OrderlyReached.sound reached
  have outcome := resolvePair_ok resolved
  obtain ⟨growth, -⟩ := Catalog.resolvePair_growth sound leftKnown rightKnown outcome
  exact Catalog.resolveWithin_isMeet sound leftKnown rightKnown outcome (.refl _) (growth.sound sound)
    (growth.hierarchical (OrderlyReached.hierarchical reached))

/-- An interface list of anything that may be absent, and a read-only list of strings. -/
def shelves : Builder :=
  Builder.new.replay [.list TypeId.any.orNull .abstract, .list BasicType.string.id .readOnly]

theorem shelves_reached : shelves.OrderlyReached :=
  ReachedBy.new.replay (by decide +kernel)

theorem resolvePair_isMeet_shelves : ∃ ty later, shelves.resolvePair (.ofPair 19) (.ofPair 20) = .ok (ty, later) ∧
    later.catalog.IsMeet (.ofPair 19) (.ofPair 20) ty := by
  have answered : (shelves.resolvePair (.ofPair 19) (.ofPair 20)).toOption.isSome = true := by decide +kernel
  cases resolved : shelves.resolvePair (.ofPair 19) (.ofPair 20) with
  | error conflict => simp [resolved, Except.toOption] at answered
  | ok result =>
    exact ⟨result.1, result.2, rfl, resolvePair_isMeet shelves_reached (by decide +kernel) (by decide +kernel) resolved⟩

end Builder
end Interchange
