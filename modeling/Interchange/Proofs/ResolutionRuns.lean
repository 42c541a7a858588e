import Interchange.Proofs.ResolutionTwins

/-! Step by step, twins are resolved to twins. Neither the types entered before nor the
levels of nesting allowed make a difference to how two operands are reconciled. -/

namespace Interchange.Catalog

variable {base one two : Catalog} {left left' right right' : TypeId}

/-- Both runs succeed with twins, or both fail for one reason at twins. -/
inductive Parallel (base one two : Catalog) : Resolution → Resolution → Prop where
  | ok {ty other : TypeId} {later further : Catalog} (first : Growth one later) (second : Growth two further)
      (twin : Twin base later further ty other) : Parallel base one two (.ok (ty, later)) (.ok (other, further))
  | error {reason : Clash} {left left' right right' : TypeId} (first : Twin base one two left left')
      (second : Twin base one two right right') :
      Parallel base one two (.error (.clash reason left right)) (.error (.clash reason left' right'))

theorem TwinShapes.family {shape shape' : Shape} (shapes : TwinShapes base one two shape shape')
    (twin : Twin base one two left left') : Twin base one two (shape.family left) (shape'.family left') := by
  cases shapes with
  | collection => simpa using twin
  | same known =>
    cases shape with
    | secondary name head => exact .old (known head (by simp [Shape.mentions, Shape.components]))
    | _ => exact twin

theorem resolveFamilies_parallel {reason : Clash} {clashLeft clashLeft' clashRight clashRight' : TypeId}
    (fork : Fork base one two) (first : Twin base one two left left') (second : Twin base one two right right')
    (clashFirst : Twin base one two clashLeft clashLeft') (clashSecond : Twin base one two clashRight clashRight') :
    Parallel base one two (one.resolveFamilies left right (.clash reason clashLeft clashRight))
      (two.resolveFamilies left' right' (.clash reason clashLeft' clashRight')) := by
  have equal := Twin.eq_iff fork first second
  unfold resolveFamilies
  rw [← Twin.derivesFrom? fork first second, ← Twin.derivesFrom? fork second first]
  by_cases same : left = right
  · rw [if_pos same, if_pos (equal.mp same)]
    exact .ok .refl .refl first
  · rw [if_neg same, if_neg (mt equal.mpr same)]
    rcases @derivesFrom?_cases one left right fork.oneSound fork.oneHierarchical (first.known fork) with
      ⟨found, -⟩ | ⟨found, -⟩
    · rw [found]
      exact .ok .refl .refl first
    · rcases @derivesFrom?_cases one right left fork.oneSound fork.oneHierarchical (second.known fork) with
        ⟨again, -⟩ | ⟨again, -⟩
      · rw [found, again]
        exact .ok .refl .refl second
      · rw [found, again]
        exact .error clashFirst clashSecond

variable {inner inner' : TypeId → TypeId → Resolution} {leftShape leftShape' rightShape rightShape' : Shape}

/-- Twins are narrowed to twins. -/
theorem narrow_parallel {family : Family} {leftItem leftItem' rightItem rightItem' : TypeId} {leftForm rightForm : CollectionForm}
    (fork : Fork base one two) (leftPlain : left.nullable = false) (leftPlain' : left'.nullable = false)
    (rightPlain : right.nullable = false) (rightPlain' : right'.nullable = false)
    (keys : ∀ key ∈ family.keys, base.contains key = true)
    (leftFound : one.shape? left = some (family.shape leftItem leftForm))
    (rightFound : one.shape? right = some (family.shape rightItem rightForm))
    (leftFound' : two.shape? left' = some (family.shape leftItem' leftForm))
    (rightFound' : two.shape? right' = some (family.shape rightItem' rightForm))
    (items : Parallel base one two (inner leftItem rightItem) (inner' leftItem' rightItem')) :
    Parallel base one two
      (one.follow inner left right leftShape rightShape (.narrow family leftItem leftForm rightItem rightForm))
      (two.follow inner' left' right' leftShape' rightShape' (.narrow family leftItem' leftForm rightItem' rightForm)) := by
  simp only [follow]
  generalize inner leftItem rightItem = outcome at items ⊢
  generalize inner' leftItem' rightItem' = outcome' at items ⊢
  cases items with
  | error first second => exact .error first second
  | @ok item item' grown grown' firstGrowth secondGrowth twin =>
    have forked := fork.grow firstGrowth secondGrowth
    obtain ⟨firstLast, found⟩ := narrowed_spec fork.oneSound leftFound rightFound firstGrowth (twin.known forked)
    obtain ⟨secondLast, found'⟩ :=
      narrowed_spec fork.twoSound leftFound' rightFound' secondGrowth (twin.symm.known forked.symm)
    have plain := @narrowed_plain grown family left right leftItem rightItem item leftForm rightForm leftPlain rightPlain
    have plain' := @narrowed_plain grown' family left' right' leftItem' rightItem' item' leftForm rightForm leftPlain' rightPlain'
    have items := twin.extend (Growth.extension firstLast) (Growth.extension secondLast)
    exact .ok (firstGrowth.trans firstLast) (secondGrowth.trans secondLast)
      (.collection keys (plain.trans plain'.symm) found found' items)

/-- One level resolves twins in parallel if the levels below do. -/
theorem resolveShapes_parallel (fork : Fork base one two) (leftPlain : left.nullable = false) (rightPlain : right.nullable = false)
    (first : Twin base one two left left') (second : Twin base one two right right')
    (below : ∀ (family : Family) leftItem leftItem' rightItem rightItem' form,
      one.shape? left = some (family.shape leftItem form) → two.shape? left' = some (family.shape leftItem' form) →
      Twin base one two leftItem leftItem' → Twin base one two rightItem rightItem' →
      Parallel base one two (inner leftItem rightItem) (inner' leftItem' rightItem')) :
    Parallel base one two (one.resolveShapes inner left right) (two.resolveShapes inner' left' right') := by
  have equal := Twin.eq_iff fork first second
  by_cases same : left = right
  · rw [resolveShapes, if_pos same, resolveShapes, if_pos (equal.mp same)]
    exact .ok .refl .refl first
  cases leftAny : left.isAny with
  | true =>
    have leftAny' := (first.isAny fork).symm.trans leftAny
    simp only [resolveShapes, if_neg same, if_neg (mt equal.mpr same), leftAny, leftAny', ↓reduceIte]
    exact .ok .refl .refl second
  | false =>
  have leftAny' := (first.isAny fork).symm.trans leftAny
  cases rightAny : right.isAny with
  | true =>
    have rightAny' := (second.isAny fork).symm.trans rightAny
    simp only [resolveShapes, if_neg same, if_neg (mt equal.mpr same), leftAny, leftAny', rightAny, rightAny', ↓reduceIte,
      Bool.false_eq_true]
    exact .ok .refl .refl first
  | false =>
  have rightAny' := (second.isAny fork).symm.trans rightAny
  obtain ⟨leftShape, leftShape', leftFound, leftFound', leftShapes⟩ := first.shapes fork
  obtain ⟨rightShape, rightShape', rightFound, rightFound', rightShapes⟩ := second.shapes fork
  rw [resolveShapes_eq_follow same leftAny rightAny leftFound rightFound,
    resolveShapes_eq_follow (mt equal.mpr same) leftAny' rightAny' leftFound' rightFound']
  have verdicts := leftShapes.verdicts fork rightShapes
  generalize judged : verdict leftShape rightShape = outcome at verdicts ⊢
  generalize judged' : verdict leftShape' rightShape' = outcome' at verdicts ⊢
  cases verdicts with
  | exact => exact .error first second
  | left => exact .ok .refl .refl first
  | right => exact .ok .refl .refl second
  | families => exact .error first second
  | items leftKnown rightKnown => exact .error (.old leftKnown) (.old rightKnown)
  | keys leftKnown rightKnown => exact .error (.old leftKnown) (.old rightKnown)
  | interfaces => exact resolveFamilies_parallel fork (leftShapes.family first) (rightShapes.family second) first second
  | narrow keys leftItems rightItems =>
    obtain ⟨rfl, rfl⟩ := verdict_narrow.mp judged
    obtain ⟨rfl, rfl⟩ := verdict_narrow.mp judged'
    exact narrow_parallel fork leftPlain (first.nullable.symm.trans leftPlain) rightPlain
      (second.nullable.symm.trans rightPlain) keys leftFound rightFound leftFound' rightFound'
      (below _ _ _ _ _ _ leftFound leftFound' leftItems rightItems)

theorem resolveWithin_parallel {depth further : Nat} (fork : Fork base one two) (first : Twin base one two left left')
    (second : Twin base one two right right') (deep : left.pair < depth) (deeper : left'.pair < further) :
    Parallel base one two (one.resolveWithin depth left right) (two.resolveWithin further left' right') := by
  induction depth generalizing further left left' right right' with
  | zero => omega
  | succ depth ih =>
    cases further with
    | zero => omega
    | succ further =>
      have bare : Parallel base one two (one.resolveShapes (one.resolveWithin depth) left.nonNull right.nonNull)
          (two.resolveShapes (two.resolveWithin further) left'.nonNull right'.nonNull) := by
        apply resolveShapes_parallel fork rfl rfl (first.withNullability false) (second.withNullability false)
        intro family leftItem leftItem' rightItem rightItem' form found found' leftItems rightItems
        have smaller : leftItem.pair < left.pair := fork.oneSound.ordered _ _ found leftItem Family.item_mem_foundation
        have smaller' : leftItem'.pair < left'.pair := fork.twoSound.ordered _ _ found' leftItem' Family.item_mem_foundation
        exact ih leftItems rightItems (by omega) (by omega)
      simp only [resolveWithin]
      rw [first.nullable, second.nullable]
      generalize one.resolveShapes (one.resolveWithin depth) left.nonNull right.nonNull = outcome at bare ⊢
      generalize two.resolveShapes (two.resolveWithin further) left'.nonNull right'.nonNull = outcome' at bare ⊢
      cases bare with
      | error leftTwin rightTwin => exact .error leftTwin rightTwin
      | ok firstGrowth secondGrowth twin => exact .ok firstGrowth secondGrowth (twin.withNullability _)

inductive SlotParallel (base : Catalog) : Except SlotConflict TypeId × Catalog → Except SlotConflict TypeId × Catalog → Prop where
  | ok {ty other : TypeId} {later further : Catalog} (twin : Twin base later further ty other) :
      SlotParallel base (.ok ty, later) (.ok other, further)
  | error {conflict conflict' : SlotConflict} {reason : Clash} {left left' right right' : TypeId} {later further : Catalog}
      (cause : conflict.cause = .clash reason left right) (cause' : conflict'.cause = .clash reason left' right')
      (first : Twin base later further left left') (second : Twin base later further right right') :
      SlotParallel base (.error conflict, later) (.error conflict', further)

theorem foldSlot_parallel {types : List TypeId} (fork : Fork base one two) (twin : Twin base one two left left')
    (known : ∀ ty ∈ types, base.contains ty = true) :
    SlotParallel base (one.foldSlot left types) (two.foldSlot left' types) := by
  induction types generalizing one two left left' with
  | nil => exact .ok twin
  | cons right rest ih =>
    have inside := contains_iff.mp (twin.known fork)
    have inside' := contains_iff.mp (twin.symm.known fork.symm)
    have pair : Parallel base one two (one.resolvePair left right) (two.resolvePair left' right) :=
      resolveWithin_parallel fork twin (.old (known right (by simp))) (by omega) (by omega)
    simp only [foldSlot]
    generalize one.resolvePair left right = outcome at pair ⊢
    generalize two.resolvePair left' right = outcome' at pair ⊢
    cases pair with
    | error first second => exact .error rfl rfl first second
    | ok firstGrowth secondGrowth merged =>
      exact ih (fork.grow firstGrowth secondGrowth) merged fun ty member => known ty (by simp [member])

/-- A conflict that one run could have avoided, the other could have avoided too. -/
theorem Avoidable.of_twins {reason : Clash} (fork : Fork base one two) (first : Twin base one two left left')
    (second : Twin base one two right right') (avoidable : Avoidable two (.clash reason left' right')) :
    Avoidable one (.clash reason left right) := by
  obtain ⟨leftShape, leftShape', leftFound, leftFound', leftShapes⟩ := first.shapes fork
  obtain ⟨rightShape, rightShape', rightFound, rightFound', rightShapes⟩ := second.shapes fork
  cases reason with
  | incompatible =>
    obtain ⟨leftKind, rightKind⟩ := avoidable
    rw [kind?_of_shape leftFound', ← leftShapes.kind] at leftKind
    rw [kind?_of_shape rightFound', ← rightShapes.kind] at rightKind
    exact ⟨(kind?_of_shape leftFound).trans leftKind, (kind?_of_shape rightFound).trans rightKind⟩
  | familyMismatch =>
    obtain ⟨item, other, ⟨arrayFound, listFound⟩ | ⟨listFound, arrayFound⟩⟩ := avoidable
    · rw [leftFound'] at arrayFound
      rw [rightFound'] at listFound
      obtain ⟨other, list⟩ := rightShapes.readOnly (Option.some.inj listFound)
      rw [leftShapes.array (Option.some.inj arrayFound)] at leftFound
      rw [list] at rightFound
      exact ⟨item, other, .inl ⟨leftFound, rightFound⟩⟩
    · rw [leftFound'] at listFound
      rw [rightFound'] at arrayFound
      obtain ⟨item, list⟩ := leftShapes.readOnly (Option.some.inj listFound)
      rw [list] at leftFound
      rw [rightShapes.array (Option.some.inj arrayFound)] at rightFound
      exact ⟨item, other, .inr ⟨leftFound, rightFound⟩⟩
  | keyMismatch | itemMismatch => exact avoidable

end Interchange.Catalog
