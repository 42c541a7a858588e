import Interchange.Proofs.TypeOrder

/-! When the resolver gives up although there is a type below both operands. This happens
in two ways only: for two abstractions, and for an array and a read-only list. -/

namespace Interchange

namespace Catalog

variable {catalog : Catalog} {left right lower : TypeId} {leftShape rightShape : Shape}

inductive Overlap (catalog : Catalog) (left right : TypeId) : Shape → Shape → Prop where
  | arrayLeft (item other : TypeId) : Overlap catalog left right (.array item) (.list other .readOnly)
  | arrayRight (item other : TypeId) : Overlap catalog left right (.list item .readOnly) (.array other)
  | items {family : Family} {leftItem rightItem own : TypeId} {leftForm rightForm : CollectionForm}
      (belowLeft : Below catalog own leftItem) (belowRight : Below catalog own rightItem) :
      Overlap catalog left right (family.shape leftItem leftForm) (family.shape rightItem rightForm)
  | interfaces {leftShape rightShape : Shape} {derived : TypeId} (leftKind : leftShape.isInterface = true)
      (rightKind : rightShape.isInterface = true) (derivesLeft : Derives catalog derived (leftShape.family left.nonNull))
      (derivesRight : Derives catalog derived (rightShape.family right.nonNull)) :
      Overlap catalog left right leftShape rightShape

theorem Ordered.overlap_self (ordered : Ordered catalog left right) (apart : left.pair ≠ right.pair)
    (proper : right.pair ≠ 0) (leftFound : catalog.shape? left = some leftShape)
    (rightFound : catalog.shape? right = some rightShape) : Overlap catalog left right leftShape rightShape := by
  cases ordered with
  | same same => exact absurd same apart
  | any universal => exact absurd universal proper
  | array lowerFound list upperFound items =>
    rw [lowerFound] at leftFound
    rw [upperFound] at rightFound
    cases leftFound
    cases rightFound
    exact .arrayLeft _ _
  | @collection item bound family form wider lowerFound upperFound items forms =>
    rw [lowerFound] at leftFound
    rw [upperFound] at rightFound
    cases leftFound
    cases rightFound
    exact .items (.refl _) items
  | interfaces lowerFound upperFound lowerKind upperKind derives =>
    rw [lowerFound] at leftFound
    rw [upperFound] at rightFound
    cases leftFound
    cases rightFound
    exact .interfaces lowerKind upperKind .refl derives

theorem Ordered.overlap (belowLeft : Ordered catalog lower left) (belowRight : Ordered catalog lower right)
    (sound : catalog.Sound) (apart : left.pair ≠ right.pair) (leftProper : left.pair ≠ 0) (rightProper : right.pair ≠ 0)
    (leftFound : catalog.shape? left = some leftShape) (rightFound : catalog.shape? right = some rightShape) :
    Overlap catalog left right leftShape rightShape := by
  cases belowLeft with
  | same same =>
    have between : Ordered catalog left right := (Ordered.same same.symm).trans sound belowRight
    exact between.overlap_self apart rightProper leftFound rightFound
  | any universal => exact absurd universal leftProper
  | @array item bound _ lowerFound _ upperFound items =>
    rw [upperFound] at leftFound
    cases leftFound
    cases belowRight with
    | same same =>
      rw [← shape?_of_pair same, lowerFound] at rightFound
      cases rightFound
      exact .arrayRight _ _
    | any universal => exact absurd universal rightProper
    | @array _ other _ again _ found others =>
      rw [lowerFound] at again
      rw [found] at rightFound
      cases again
      cases rightFound
      have lists : Overlap catalog left right (Family.list.shape bound .readOnly) (Family.list.shape other .readOnly) :=
        .items items others
      exact lists
    | collection | interfaces => grind
  | @collection item bound family form wider lowerFound upperFound items forms =>
    rw [upperFound] at leftFound
    cases leftFound
    cases belowRight with
    | same same =>
      rw [← shape?_of_pair same, lowerFound] at rightFound
      cases rightFound
      exact .items items (.refl _)
    | any universal => exact absurd universal rightProper
    | array | interfaces => grind
    | collection again found others =>
      rw [lowerFound] at again
      rw [found] at rightFound
      obtain ⟨rfl, rfl, rfl⟩ := Family.shape_inj (Option.some.inj again)
      cases rightFound
      exact .items items others
  | interfaces lowerFound upperFound lowerKind upperKind derives =>
    rw [upperFound] at leftFound
    cases leftFound
    cases belowRight with
    | same same =>
      have bare : lower.nonNull = right.nonNull := TypeId.ext_iff_pair.mpr ⟨same, rfl⟩
      rw [← shape?_of_pair same, lowerFound] at rightFound
      cases rightFound
      exact .interfaces upperKind lowerKind derives (bare ▸ .refl)
    | any universal => exact absurd universal rightProper
    | array | collection => grind
    | interfaces again found _ kind others =>
      rw [lowerFound] at again
      rw [found] at rightFound
      cases again
      cases rightFound
      exact .interfaces upperKind kind derives others

/-- Conflicts that do not exclude a type below both operands: between two abstractions, and between an array
and a read-only list. -/
def Avoidable (catalog : Catalog) : Conflict → Prop
  | .clash .incompatible left right =>
    catalog.kind? left = some .abstraction ∧ catalog.kind? right = some .abstraction
  | .clash .familyMismatch left right => ∃ item other,
    catalog.shape? left = some (.array item) ∧ catalog.shape? right = some (.list other .readOnly) ∨
      catalog.shape? left = some (.list item .readOnly) ∧ catalog.shape? right = some (.array other)
  | _ => False

variable {conflict : Conflict} {inner : TypeId → TypeId → Resolution}

theorem resolveFamilies_error (sound : catalog.Sound) (hierarchical : catalog.Hierarchical)
    (leftKnown : catalog.contains left = true) (rightKnown : catalog.contains right = true) {clash : Conflict}
    (failed : catalog.resolveFamilies left right clash = .error conflict) :
    conflict = clash ∧ ¬ Derives catalog left right ∧ ¬ Derives catalog right left := by
  unfold resolveFamilies at failed
  split at failed
  · cases failed
  · rcases @derivesFrom?_cases catalog left right sound hierarchical leftKnown with ⟨found, -⟩ | ⟨found, notLeft⟩
    · simp [found] at failed
    · rcases @derivesFrom?_cases catalog right left sound hierarchical rightKnown with ⟨again, -⟩ | ⟨again, notRight⟩
      · simp [found, again] at failed
      · simp only [found, again, Except.error.injEq] at failed
        exact ⟨failed.symm, notLeft, notRight⟩

/-- What derives from a family of a primary is that family. -/
theorem derives_family (sound : catalog.Sound) (hierarchical : catalog.Hierarchical)
    (found : catalog.shape? left = some leftShape) {derived : TypeId} (derives : Derives catalog derived (leftShape.family left)) :
    derived = leftShape.family left ∨ catalog.kind? left = some .abstraction := by
  rcases derives.cases_older sound hierarchical with same | ⟨above, -⟩
  · exact .inl same
  · refine .inr ?_
    cases leftShape with
    | secondary name head =>
      have primary := hierarchical left _ found
      rw [Shape.Fits] at primary
      rw [Shape.family, primary] at above
      cases above
    | _ => exact above

theorem verdict_of_interfaces (leftKind : leftShape.isInterface = true) (rightKind : rightShape.isInterface = true) :
    verdict leftShape rightShape = .interfaces := by
  cases leftShape with
  | primary | secondary | abstraction =>
    cases rightShape with
    | primary | secondary | abstraction => rfl
    | _ => cases rightKind
  | _ => cases leftKind

/-- A level of resolution fails avoidably if the levels below do. -/
theorem resolveShapes_error (sound : catalog.Sound) (hierarchical : catalog.Hierarchical) (leftPlain : left.nullable = false)
    (rightPlain : right.nullable = false) (leftFound : catalog.shape? left = some leftShape)
    (rightFound : catalog.shape? right = some rightShape) (belowLeft : Below catalog lower left)
    (belowRight : Below catalog lower right)
    (below : ∀ (family : Family) leftItem rightItem leftForm rightForm own conflict,
      leftShape = family.shape leftItem leftForm → rightShape = family.shape rightItem rightForm →
      Below catalog own leftItem → Below catalog own rightItem → inner leftItem rightItem = .error conflict →
      Avoidable catalog conflict)
    (failed : catalog.resolveShapes inner left right = .error conflict) : Avoidable catalog conflict := by
  by_cases equal : left = right
  · simp [resolveShapes, equal] at failed
  cases leftAny : left.isAny with
  | true => simp [resolveShapes, equal, leftAny] at failed
  | false =>
  cases rightAny : right.isAny with
  | true => simp [resolveShapes, equal, leftAny, rightAny] at failed
  | false =>
  have apart : left.pair ≠ right.pair := fun same =>
    equal (TypeId.ext_iff_pair.mpr ⟨same, leftPlain.trans rightPlain.symm⟩)
  have overlap := (belowLeft.ordered sound hierarchical).overlap (belowRight.ordered sound hierarchical) sound apart
    (TypeId.isAny_eq_false_iff.mp leftAny) (TypeId.isAny_eq_false_iff.mp rightAny) leftFound rightFound
  rw [resolveShapes_eq_follow equal leftAny rightAny leftFound rightFound] at failed
  cases overlap with
  | arrayLeft item other =>
    by_cases same : item = other
    · simp [verdict, Shape.isExact, Shape.isValue, Shape.kind, same, follow] at failed
    · simp only [verdict, Shape.isExact, Shape.isValue, Shape.kind, same, follow] at failed
      cases failed
      exact ⟨item, other, .inl ⟨leftFound, rightFound⟩⟩
  | arrayRight item other =>
    by_cases same : item = other
    · simp [verdict, Shape.isExact, Shape.isValue, Shape.kind, same, follow] at failed
    · simp only [verdict, Shape.isExact, Shape.isValue, Shape.kind, same, follow] at failed
      cases failed
      exact ⟨item, other, .inr ⟨leftFound, rightFound⟩⟩
  | @items family leftItem rightItem own leftForm rightForm belowLeftItem belowRightItem =>
    rw [verdict_narrow.mpr ⟨rfl, rfl⟩, follow] at failed
    cases recursive : inner leftItem rightItem with
    | ok result => simp [recursive, bind, Except.bind, pure, Except.pure] at failed
    | error cause =>
      simp only [recursive, bind, Except.bind, Except.error.injEq] at failed
      subst failed
      exact below family leftItem rightItem leftForm rightForm own cause rfl rfl belowLeftItem belowRightItem recursive
  | @interfaces _ _ derived leftKind rightKind derivesLeft derivesRight =>
    rw [TypeId.nonNull_of_plain leftPlain] at derivesLeft
    rw [TypeId.nonNull_of_plain rightPlain] at derivesRight
    rw [verdict_of_interfaces leftKind rightKind, follow] at failed
    obtain ⟨rfl, notLeft, notRight⟩ := resolveFamilies_error sound hierarchical (family_known sound leftFound)
      (family_known sound rightFound) failed
    refine ⟨?_, ?_⟩
    · rcases derives_family sound hierarchical leftFound derivesLeft with rfl | kind
      · exact absurd derivesRight notLeft
      · exact kind
    · rcases derives_family sound hierarchical rightFound derivesRight with rfl | kind
      · exact absurd derivesLeft notRight
      · exact kind

theorem resolveWithin_error {depth : Nat} (sound : catalog.Sound) (hierarchical : catalog.Hierarchical)
    (leftKnown : catalog.contains left = true) (rightKnown : catalog.contains right = true) (deep : left.pair < depth)
    (belowLeft : Below catalog lower left) (belowRight : Below catalog lower right)
    (failed : catalog.resolveWithin depth left right = .error conflict) : Avoidable catalog conflict := by
  induction depth generalizing left right lower conflict with
  | zero => omega
  | succ depth ih =>
    obtain ⟨leftShape, leftFound⟩ := shape_of_contains leftKnown
    obtain ⟨rightShape, rightFound⟩ := shape_of_contains rightKnown
    have outcome : catalog.resolveShapes (catalog.resolveWithin depth) left.nonNull right.nonNull = .error conflict := by
      cases outcome : catalog.resolveShapes (catalog.resolveWithin depth) left.nonNull right.nonNull with
      | error cause => simpa [resolveWithin, outcome, bind, Except.bind] using failed
      | ok result => simp [resolveWithin, outcome, bind, Except.bind, pure, Except.pure] at failed
    have bareLeft : catalog.shape? left.nonNull = some leftShape := leftFound
    have bareRight : catalog.shape? right.nonNull = some rightShape := rightFound
    refine resolveShapes_error sound hierarchical rfl rfl bareLeft bareRight belowLeft.nonNull belowRight.nonNull ?_ outcome
    rintro family leftItem rightItem leftForm rightForm own cause rfl rfl belowLeftItem belowRightItem recursive
    have leftInside := sound.mentioned leftFound (family.shape_mentions .. ▸ Family.item_mem_parts)
    have rightInside := sound.mentioned rightFound (family.shape_mentions .. ▸ Family.item_mem_parts)
    have smaller := sound.ordered left _ leftFound leftItem Family.item_mem_foundation
    exact ih leftInside rightInside (by omega) belowLeftItem belowRightItem recursive

end Catalog
end Interchange
