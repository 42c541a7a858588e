import Interchange.Proofs.AllowedFamilies

/-! Reconciliation does not care about the order of its operands. The rules look at the left one first, but never have a
choice between two types: in either order one type comes out and one table is left, or one clash with its operands in turn. -/

namespace Interchange

theorem CollectionForm.common_comm (left right : CollectionForm) : left.common right = right.common left := by
  by_cases same : left = right
  · rw [same]
  · simp only [common, if_neg same, if_neg (Ne.symm same)]

namespace Catalog

variable {catalog : Catalog} {left right : TypeId} {leftShape rightShape : Shape}

theorem Sound.item_known (sound : catalog.Sound) {ty item : TypeId} {family : Family} {form : CollectionForm}
    (found : catalog.shape? ty = some (family.shape item form)) : catalog.contains item = true := by
  apply sound.mentioned found
  rw [family.shape_mentions]
  exact Family.item_mem_parts

def Verdict.swap : Verdict → Verdict
  | .exact => .exact
  | .items left right => .items right left
  | .left => .right
  | .right => .left
  | .narrow family leftItem leftForm rightItem rightForm => .narrow family rightItem rightForm leftItem leftForm
  | .keys left right => .keys right left
  | .families => .families
  | .interfaces => .interfaces

theorem verdict_swap (left right : Shape) : verdict right left = (verdict left right).swap := by
  unfold verdict
  rw [Bool.or_comm right.isExact]
  split
  · rfl
  · cases left with
    | array item =>
      cases right with
      | list other form =>
        cases form with
        | readOnly =>
          by_cases same : item = other
          · simp [same, Verdict.swap]
          · simp [same, Ne.symm same, Verdict.swap]
        | concrete | abstract => rfl
      | _ => rfl
    | list item form =>
      cases right with
      | array other =>
        cases form with
        | readOnly =>
          by_cases same : item = other
          · simp [same, Verdict.swap]
          · simp [same, Ne.symm same, Verdict.swap]
        | concrete | abstract => rfl
      | list other wider => cases form <;> cases wider <;> rfl
      | _ => cases form <;> rfl
    | dictionary key value form =>
      cases right with
      | dictionary other =>
        by_cases same : key = other
        · simp [same, Verdict.swap]
        · simp [same, Ne.symm same, Verdict.swap]
      | list other wider => cases wider <;> rfl
      | _ => rfl
    | _ =>
      cases right with
      | list other wider => cases wider <;> rfl
      | _ => rfl

/-- Both runs come to one type and leave one table, or they end in one clash with its operands in turn. -/
inductive Mirrored : Resolution → Resolution → Prop where
  | ok (ty : TypeId) (later : Catalog) : Mirrored (.ok (ty, later)) (.ok (ty, later))
  | error (reason : Clash) (left right : TypeId) :
      Mirrored (.error (.clash reason left right)) (.error (.clash reason right left))

theorem Mirrored.bind {first second : Resolution} {next other : TypeId × Catalog → Resolution} (mirrored : Mirrored first second)
    (each : ∀ ty later, Mirrored (next (ty, later)) (other (ty, later))) : Mirrored (first >>= next) (second >>= other) := by
  cases mirrored with
  | ok ty later => exact each ty later
  | error reason left right => exact .error reason left right

/-- Different collections of a family are never both the narrowed one. -/
theorem narrowed_swap {family : Family} {leftItem rightItem : TypeId} {leftForm rightForm : CollectionForm}
    (apart : family.shape leftItem leftForm ≠ family.shape rightItem rightForm) (item : TypeId) :
    catalog.narrowed right left family rightItem rightForm leftItem leftForm item =
      catalog.narrowed left right family leftItem leftForm rightItem rightForm item := by
  unfold narrowed
  rw [CollectionForm.common_comm rightForm leftForm]
  generalize leftForm.common rightForm = form
  by_cases isLeft : item = leftItem ∧ form = leftForm
  · by_cases isRight : item = rightItem ∧ form = rightForm
    · obtain ⟨rfl, rfl⟩ := isLeft
      obtain ⟨rfl, rfl⟩ := isRight
      exact absurd rfl apart
    · simp only [chooseOrIntern, decide_eq_true isLeft, decide_eq_false isRight, Bool.false_eq_true, ↓reduceIte]
  · simp only [chooseOrIntern, decide_eq_false isLeft, Bool.false_eq_true, ↓reduceIte]

/-- Of two families at most one derives from the other. -/
theorem resolveFamilies_mirrored (sound : catalog.Sound) (acyclic : catalog.Acyclic) (leftKnown : catalog.contains left = true)
    (rightKnown : catalog.contains right = true) (reason : Clash) (first second : TypeId) :
    Mirrored (catalog.resolveFamilies left right (.clash reason first second))
      (catalog.resolveFamilies right left (.clash reason second first)) := by
  by_cases same : left = right
  · simp only [resolveFamilies, same, ↓reduceIte]
    exact .ok right catalog
  · simp only [resolveFamilies, same, Ne.symm same, ↓reduceIte]
    rcases @derivesFrom?_of_loopless catalog left right sound leftKnown acyclic.not_loops with ⟨up, derives⟩ | ⟨up, -⟩
    · rcases @derivesFrom?_of_loopless catalog right left sound rightKnown acyclic.not_loops with ⟨down, back⟩ | ⟨down, -⟩
      · rcases Relation.reflTransGen_iff_eq_or_transGen.mp derives with equal | climbs
        · exact absurd equal.symm same
        · exact absurd (climbs.trans_left back) (acyclic left)
      · simp only [up, down]
        exact .ok left catalog
    · rcases @derivesFrom?_of_loopless catalog right left sound rightKnown acyclic.not_loops with ⟨down, -⟩ | ⟨down, -⟩
      · simp only [up, down]
        exact .ok right catalog
      · simp only [up, down]
        exact .error reason first second

/-- Carrying the verdict out for the operands in turn. -/
theorem follow_mirrored {inner : TypeId → TypeId → Resolution} (sound : catalog.Sound) (acyclic : catalog.Acyclic)
    (apart : left.pair ≠ right.pair) (leftFound : catalog.shape? left = some leftShape)
    (rightFound : catalog.shape? right = some rightShape)
    (items : ∀ (family : Family) leftItem leftForm rightItem rightForm, leftShape = family.shape leftItem leftForm →
      rightShape = family.shape rightItem rightForm → Mirrored (inner leftItem rightItem) (inner rightItem leftItem)) :
    Mirrored (catalog.follow inner left right leftShape rightShape (verdict leftShape rightShape))
      (catalog.follow inner right left rightShape leftShape (verdict rightShape leftShape)) := by
  rw [verdict_swap leftShape rightShape]
  cases judged : verdict leftShape rightShape with
  | exact => exact .error .incompatible left right
  | items leftItem rightItem => exact .error .itemMismatch leftItem rightItem
  | left => exact .ok left catalog
  | right => exact .ok right catalog
  | keys leftKey rightKey => exact .error .keyMismatch leftKey rightKey
  | families => exact .error .familyMismatch left right
  | interfaces =>
    exact resolveFamilies_mirrored sound acyclic (family_known sound leftFound) (family_known sound rightFound) _ _ _
  | narrow family leftItem leftForm rightItem rightForm =>
    obtain ⟨rfl, rfl⟩ := verdict_narrow.mp judged
    have different : family.shape leftItem leftForm ≠ family.shape rightItem rightForm := by
      intro same
      exact apart (sound.same_shape leftFound (same ▸ rightFound))
    simp only [Verdict.swap, follow]
    refine (items family leftItem leftForm rightItem rightForm rfl rfl).bind ?_
    intro item grown
    rw [narrowed_swap different item]
    exact .ok _ _

theorem resolveShapes_mirrored {inner : TypeId → TypeId → Resolution} (sound : catalog.Sound) (acyclic : catalog.Acyclic)
    (leftPlain : left.nullable = false) (rightPlain : right.nullable = false)
    (leftFound : catalog.shape? left = some leftShape) (rightFound : catalog.shape? right = some rightShape)
    (items : ∀ (family : Family) leftItem leftForm rightItem rightForm, leftShape = family.shape leftItem leftForm →
      rightShape = family.shape rightItem rightForm → Mirrored (inner leftItem rightItem) (inner rightItem leftItem)) :
    Mirrored (catalog.resolveShapes inner left right) (catalog.resolveShapes inner right left) := by
  by_cases equal : left = right
  · simp only [resolveShapes, equal, ↓reduceIte]
    exact .ok right catalog
  have apart : left.pair ≠ right.pair := fun same =>
    equal (TypeId.ext_iff_pair.mpr ⟨same, leftPlain.trans rightPlain.symm⟩)
  cases leftAny : left.isAny with
  | true =>
    have rightAny : right.isAny = false :=
      TypeId.isAny_eq_false_iff.mpr fun first => apart ((TypeId.isAny_iff.mp leftAny).trans first.symm)
    simp only [resolveShapes, equal, Ne.symm equal, leftAny, rightAny, Bool.false_eq_true, ↓reduceIte]
    exact .ok right catalog
  | false =>
  cases rightAny : right.isAny with
  | true =>
    simp only [resolveShapes, equal, Ne.symm equal, leftAny, rightAny, Bool.false_eq_true, ↓reduceIte]
    exact .ok left catalog
  | false =>
    rw [resolveShapes_eq_follow equal leftAny rightAny leftFound rightFound,
      resolveShapes_eq_follow (Ne.symm equal) rightAny leftAny rightFound leftFound]
    exact follow_mirrored sound acyclic apart leftFound rightFound items

/-- Two types are reconciled alike in either order, at every depth that both are nested within. -/
theorem resolveWithin_mirrored {depth : Nat} (sound : catalog.Sound) (acyclic : catalog.Acyclic)
    (leftKnown : catalog.contains left = true) (rightKnown : catalog.contains right = true) (leftDeep : left.pair < depth)
    (rightDeep : right.pair < depth) :
    Mirrored (catalog.resolveWithin depth left right) (catalog.resolveWithin depth right left) := by
  induction depth generalizing left right with
  | zero => omega
  | succ depth ih =>
    obtain ⟨leftShape, leftFound⟩ := shape_of_contains leftKnown
    obtain ⟨rightShape, rightFound⟩ := shape_of_contains rightKnown
    have bareLeft : catalog.shape? left.nonNull = some leftShape := leftFound
    have bareRight : catalog.shape? right.nonNull = some rightShape := rightFound
    simp only [resolveWithin, Bool.and_comm right.nullable]
    refine (resolveShapes_mirrored sound acyclic rfl rfl bareLeft bareRight ?_).bind fun ty later => .ok _ later
    rintro family leftItem leftForm rightItem rightForm rfl rfl
    have leftOlder := sound.ordered left _ leftFound leftItem Family.item_mem_foundation
    have rightOlder := sound.ordered right _ rightFound rightItem Family.item_mem_foundation
    exact ih (sound.item_known leftFound) (sound.item_known rightFound) (by omega) (by omega)

end Catalog

namespace Builder

variable {builder : Builder} {left right : TypeId}

theorem resolvePair_eq (builder : Builder) (left right : TypeId) : builder.resolvePair left right =
    (builder.catalog.resolvePair left right).map fun result => (result.1, { builder with catalog := result.2 }) := by
  rw [resolvePair]
  cases builder.catalog.resolvePair left right <;> rfl

theorem resolvePair_mirrored (reached : builder.Reached) (upward : builder.catalog.AbstractAbove)
    (leftKnown : builder.catalog.contains left = true) (rightKnown : builder.catalog.contains right = true) :
    Catalog.Mirrored (builder.catalog.resolvePair left right) (builder.catalog.resolvePair right left) := by
  have sound := Reached.sound reached
  have leftInside := Catalog.contains_iff.mp leftKnown
  have rightInside := Catalog.contains_iff.mp rightKnown
  exact Catalog.resolveWithin_mirrored sound (upward.acyclic sound (Reached.implementing reached)) leftKnown rightKnown
    (Nat.lt_succ_of_lt leftInside) (Nat.lt_succ_of_lt rightInside)

/-- Two registered types are reconciled to one type in either order, leaving the builder in one state, or they clash in
either order, for one reason and with the operands in turn. -/
theorem resolvePair_symmetric (reached : builder.Reached) (upward : builder.catalog.AbstractAbove)
    (leftKnown : builder.catalog.contains left = true) (rightKnown : builder.catalog.contains right = true) :
    (∃ ty later, builder.resolvePair left right = .ok (ty, later) ∧ builder.resolvePair right left = .ok (ty, later) ∧
      (ty.nullable = true ↔ left.nullable = true ∧ right.nullable = true)) ∨
    ∃ reason first second, builder.resolvePair left right = .error (.clash reason first second) ∧
      builder.resolvePair right left = .error (.clash reason second first) := by
  have mirrored := resolvePair_mirrored reached upward leftKnown rightKnown
  rw [resolvePair_eq, resolvePair_eq]
  generalize forward : builder.catalog.resolvePair left right = first at mirrored ⊢
  generalize builder.catalog.resolvePair right left = second at mirrored ⊢
  cases mirrored with
  | ok ty later =>
    obtain ⟨bare, -, rfl⟩ := Catalog.resolveWithin_ok forward
    exact .inl ⟨_, _, rfl, rfl, by simp⟩
  | error reason first second => exact .inr ⟨reason, first, second, rfl, rfl⟩

/-- An abstraction, a family that implements it, another interface of that family, and lists of the first, of the last
and of numbers. -/
def harbour : Builder :=
  Builder.new.replay [.abstraction "Vessel" [] {}, .primary "Ferry" {}, .implement (.ofPair 20) (.ofPair 19),
    .secondary "FerryRoute" (.ofPair 20) {}, .list (TypeId.ofPair 19).orNull .abstract, .list (.ofPair 21) .readOnly,
    .list BasicType.int.id .readOnly]

theorem harbour_reached : harbour.OrderlyReached :=
  ReachedBy.new.replay (by decide +kernel)

theorem resolvePair_symmetric_harbour : harbour.Reached ∧ harbour.catalog.AbstractAbove ∧
    (∃ later, harbour.resolvePair (.ofPair 22) (.ofPair 23) = .ok (.ofPair 25, later) ∧
      harbour.resolvePair (.ofPair 23) (.ofPair 22) = .ok (.ofPair 25, later)) ∧
    harbour.resolvePair (.ofPair 22) (.ofPair 24) = .error (.clash .incompatible (.ofPair 19) BasicType.int.id) ∧
      harbour.resolvePair (.ofPair 24) (.ofPair 22) = .error (.clash .incompatible BasicType.int.id (.ofPair 19)) := by
  have reached := OrderlyReached.reached harbour_reached
  have upward := (OrderlyReached.hierarchical harbour_reached).upward
  have known : ∀ pair < 25, harbour.catalog.contains (.ofPair pair) = true := by decide +kernel
  have alike (left right : Nat) (leftInside : left < 25) (rightInside : right < 25) :=
    resolvePair_symmetric reached upward (known left leftInside) (known right rightInside)
  refine ⟨reached, upward, ?_, ?_⟩
  · have answered : (harbour.resolvePair (.ofPair 22) (.ofPair 23)).map Prod.fst = .ok (.ofPair 25) := by decide +kernel
    rcases alike 22 23 (by decide) (by decide) with ⟨ty, later, forward, backward, -⟩ | ⟨reason, first, second, failed, -⟩
    · rw [forward] at answered
      cases answered
      exact ⟨later, forward, backward⟩
    · rw [failed] at answered
      cases answered
  · have clashed : (harbour.resolvePair (.ofPair 22) (.ofPair 24)).map Prod.fst =
        .error (.clash .incompatible (.ofPair 19) BasicType.int.id) := by decide +kernel
    rcases alike 22 24 (by decide) (by decide) with ⟨ty, later, forward, -⟩ | ⟨reason, first, second, failed, mirrored⟩
    · rw [forward] at clashed
      cases clashed
    · rw [failed] at clashed
      cases clashed
      exact ⟨failed, mirrored⟩

end Builder
end Interchange
