import Interchange.Proofs.Counterparts
import Interchange.Proofs.InterfaceCycles

/-! Step by step, types that are written out alike are reconciled alike. It does not matter what else the two tables
hold, nor which ids they have given out. -/

namespace Interchange.Catalog

variable {base one two catalog later further : Catalog} {left left' right right' : TypeId}
  {inner inner' : TypeId → TypeId → Resolution}

/-- Both runs succeed with types that are written out alike, or clash for one reason at such types, or do not end. -/
inductive Agreement (one two : Catalog) : Resolution → Resolution → Prop where
  | ok {ty other : TypeId} {later further : Catalog} (first : Growth one later) (second : Growth two further)
      (alike : Alike later further ty other) : Agreement one two (.ok (ty, later)) (.ok (other, further))
  | clash {reason : Clash} {left left' right right' : TypeId} (first : Alike one two left left')
      (second : Alike one two right right') :
      Agreement one two (.error (.clash reason left right)) (.error (.clash reason left' right'))
  | endless : Agreement one two (.error .unregistered) (.error .unregistered)

theorem resolveFamilies_agree {reason : Clash} {clashLeft clashLeft' clashRight clashRight' : TypeId}
    (branches : Branches base one two) (leftPlain : left.nullable = false) (rightPlain : right.nullable = false)
    (first : Alike one two left left') (second : Alike one two right right')
    (clashFirst : Alike one two clashLeft clashLeft') (clashSecond : Alike one two clashRight clashRight') :
    Agreement one two (one.resolveFamilies left right (.clash reason clashLeft clashRight))
      (two.resolveFamilies left' right' (.clash reason clashLeft' clashRight')) := by
  have equal := Alike.eq_iff branches first second
  unfold resolveFamilies
  rw [← Alike.derivesFrom? branches first second leftPlain, ← Alike.derivesFrom? branches second first rightPlain]
  by_cases same : left = right
  · rw [if_pos same, if_pos (equal.mp same)]
    exact .ok .refl .refl first
  rw [if_neg same, if_neg (mt equal.mpr same)]
  cases one.derivesFrom? left right with
  | none => exact .endless
  | some derived =>
    cases derived with
    | true => exact .ok .refl .refl first
    | false =>
      cases one.derivesFrom? right left with
      | none => exact .endless
      | some derived =>
        cases derived with
        | true => exact .ok .refl .refl second
        | false => exact .clash clashFirst clashSecond

theorem narrow_agree {family family' : Family} {leftItem leftItem' rightItem rightItem' : TypeId}
    {leftForm rightForm : CollectionForm} {leftShape leftShape' rightShape rightShape' : Shape} (branches : Branches base one two)
    (leftPlain : left.nullable = false) (leftPlain' : left'.nullable = false) (rightPlain : right.nullable = false)
    (rightPlain' : right'.nullable = false) (families : AlikeFamilies one two family family')
    (leftFound : one.shape? left = some (family.shape leftItem leftForm))
    (rightFound : one.shape? right = some (family.shape rightItem rightForm))
    (leftFound' : two.shape? left' = some (family'.shape leftItem' leftForm))
    (rightFound' : two.shape? right' = some (family'.shape rightItem' rightForm))
    (items : Agreement one two (inner leftItem rightItem) (inner' leftItem' rightItem')) :
    Agreement one two
      (one.follow inner left right leftShape rightShape (.narrow family leftItem leftForm rightItem rightForm))
      (two.follow inner' left' right' leftShape' rightShape' (.narrow family' leftItem' leftForm rightItem' rightForm)) := by
  simp only [follow]
  generalize inner leftItem rightItem = outcome at items ⊢
  generalize inner' leftItem' rightItem' = outcome' at items ⊢
  cases items with
  | clash first second => exact .clash first second
  | endless => exact .endless
  | @ok item item' grown grown' firstGrowth secondGrowth alike =>
    have grew := branches.grow firstGrowth.develops secondGrowth.develops
    obtain ⟨firstLast, found⟩ := narrowed_spec branches.oneSound leftFound rightFound firstGrowth (alike.known grew)
    obtain ⟨secondLast, found'⟩ :=
      narrowed_spec branches.twoSound leftFound' rightFound' secondGrowth (alike.symm.known grew.symm)
    have plain := @narrowed_plain grown family left right leftItem rightItem item leftForm rightForm leftPlain rightPlain
    have plain' := @narrowed_plain grown' family' left' right' leftItem' rightItem' item' leftForm rightForm leftPlain' rightPlain'
    have firstStep := Growth.develops firstLast
    have secondStep := Growth.develops secondLast
    have items := alike.extend grew firstStep secondStep
    have kept := families.extend branches (firstGrowth.develops.trans firstStep) (secondGrowth.develops.trans secondStep)
    exact .ok (firstGrowth.trans firstLast) (secondGrowth.trans secondLast)
      (kept.collection (grew.grow firstStep secondStep) found found' items (plain.trans plain'.symm))

/-- One level agrees if the levels below do. -/
theorem resolveShapes_agree (branches : Branches base one two) (leftPlain : left.nullable = false)
    (rightPlain : right.nullable = false) (first : Alike one two left left') (second : Alike one two right right')
    (below : ∀ (family family' : Family) leftItem leftItem' rightItem rightItem' form,
      one.shape? left = some (family.shape leftItem form) → two.shape? left' = some (family'.shape leftItem' form) →
      Alike one two leftItem leftItem' → Alike one two rightItem rightItem' →
      Agreement one two (inner leftItem rightItem) (inner' leftItem' rightItem')) :
    Agreement one two (one.resolveShapes inner left right) (two.resolveShapes inner' left' right') := by
  have equal := Alike.eq_iff branches first second
  by_cases same : left = right
  · rw [resolveShapes, if_pos same, resolveShapes, if_pos (equal.mp same)]
    exact .ok .refl .refl first
  cases leftAny : left.isAny with
  | true =>
    have leftAny' := (first.isAny branches).symm.trans leftAny
    simp only [resolveShapes, if_neg same, if_neg (mt equal.mpr same), leftAny, leftAny', ↓reduceIte]
    exact .ok .refl .refl second
  | false =>
  have leftAny' := (first.isAny branches).symm.trans leftAny
  cases rightAny : right.isAny with
  | true =>
    have rightAny' := (second.isAny branches).symm.trans rightAny
    simp only [resolveShapes, if_neg same, if_neg (mt equal.mpr same), leftAny, leftAny', rightAny, rightAny', ↓reduceIte,
      Bool.false_eq_true]
    exact .ok .refl .refl first
  | false =>
  have rightAny' := (second.isAny branches).symm.trans rightAny
  obtain ⟨leftShape, leftShape', leftFound, leftFound', leftShapes⟩ := first.shapes branches
  obtain ⟨rightShape, rightShape', rightFound, rightFound', rightShapes⟩ := second.shapes branches
  rw [resolveShapes_eq_follow same leftAny rightAny leftFound rightFound,
    resolveShapes_eq_follow (mt equal.mpr same) leftAny' rightAny' leftFound' rightFound']
  have verdicts := leftShapes.verdicts branches rightShapes
  generalize judged : verdict leftShape rightShape = outcome at verdicts ⊢
  generalize judged' : verdict leftShape' rightShape' = outcome' at verdicts ⊢
  cases verdicts with
  | exact | families => exact .clash first second
  | left => exact .ok .refl .refl first
  | right => exact .ok .refl .refl second
  | items leftItems rightItems => exact .clash leftItems rightItems
  | keys leftKeys rightKeys => exact .clash leftKeys rightKeys
  | interfaces =>
    exact resolveFamilies_agree branches (family_plain branches.oneSound leftFound leftPlain)
      (family_plain branches.oneSound rightFound rightPlain) (leftShapes.family branches first)
      (rightShapes.family branches second) first second
  | narrow families leftItems rightItems =>
    obtain ⟨rfl, rfl⟩ := verdict_narrow.mp judged
    obtain ⟨rfl, rfl⟩ := verdict_narrow.mp judged'
    exact narrow_agree branches leftPlain ((first.nullable branches).symm.trans leftPlain) rightPlain
      ((second.nullable branches).symm.trans rightPlain) families leftFound rightFound leftFound' rightFound'
      (below _ _ _ _ _ _ _ leftFound leftFound' leftItems rightItems)

theorem resolveWithin_agree {depth further : Nat} (branches : Branches base one two) (first : Alike one two left left')
    (second : Alike one two right right') (deep : left.pair < depth) (deeper : left'.pair < further) :
    Agreement one two (one.resolveWithin depth left right) (two.resolveWithin further left' right') := by
  induction depth generalizing further left left' right right' with
  | zero => omega
  | succ depth ih =>
    cases further with
    | zero => omega
    | succ further =>
      have bare : Agreement one two (one.resolveShapes (one.resolveWithin depth) left.nonNull right.nonNull)
          (two.resolveShapes (two.resolveWithin further) left'.nonNull right'.nonNull) := by
        apply resolveShapes_agree branches rfl rfl (first.withNullability branches false) (second.withNullability branches false)
        intro family family' leftItem leftItem' rightItem rightItem' form found found' leftItems rightItems
        have smaller : leftItem.pair < left.pair := branches.oneSound.ordered _ _ found leftItem Family.item_mem_foundation
        have smaller' : leftItem'.pair < left'.pair := branches.twoSound.ordered _ _ found' leftItem' Family.item_mem_foundation
        exact ih leftItems rightItems (by omega) (by omega)
      simp only [resolveWithin]
      rw [first.nullable branches, second.nullable branches]
      generalize one.resolveShapes (one.resolveWithin depth) left.nonNull right.nonNull = outcome at bare ⊢
      generalize two.resolveShapes (two.resolveWithin further) left'.nonNull right'.nonNull = outcome' at bare ⊢
      cases bare with
      | clash leftAlike rightAlike => exact .clash leftAlike rightAlike
      | endless => exact .endless
      | ok firstGrowth secondGrowth alike =>
        have grew := branches.grow firstGrowth.develops secondGrowth.develops
        exact .ok firstGrowth secondGrowth (alike.withNullability grew _)

theorem resolvePair_agree (branches : Branches base one two) (first : Alike one two left left')
    (second : Alike one two right right') : Agreement one two (one.resolvePair left right) (two.resolvePair left' right') := by
  have inside := contains_iff.mp (first.known branches)
  have inside' := contains_iff.mp (first.symm.known branches.symm)
  exact resolveWithin_agree branches first second (by omega) (by omega)

/-- A conflict between registered types, which can be shown. -/
structure Tells (catalog : Catalog) (conflict : SlotConflict) : Prop where
  left : catalog.contains conflict.left = true
  right : catalog.contains conflict.right = true
  cause : ∃ reason left right, conflict.cause = .clash reason left right ∧ catalog.contains left = true ∧
    catalog.contains right = true

inductive SlotCounterparts (one two : Catalog) :
    Except SlotConflict (Option TypeId) × Catalog → Except SlotConflict (Option TypeId) × Catalog → Prop where
  | empty {later further : Catalog} (first : one.Develops later) (second : two.Develops further) :
      SlotCounterparts one two (.ok none, later) (.ok none, further)
  | ok {ty other : TypeId} {later further : Catalog} (first : one.Develops later) (second : two.Develops further)
      (alike : Alike later further ty other) : SlotCounterparts one two (.ok (some ty), later) (.ok (some other), further)
  | clash {conflict conflict' : SlotConflict} {later further : Catalog} (first : one.Develops later)
      (second : two.Develops further) (told : later.Tells conflict) (told' : further.Tells conflict') :
      SlotCounterparts one two (.error conflict, later) (.error conflict', further)
  | endless {conflict conflict' : SlotConflict} {later further : Catalog} (cause : conflict.cause = .unregistered)
      (cause' : conflict'.cause = .unregistered) : SlotCounterparts one two (.error conflict, later) (.error conflict', further)

theorem SlotCounterparts.before {outcome outcome' : Except SlotConflict (Option TypeId) × Catalog} (first : one.Develops later)
    (second : two.Develops further) (agreement : SlotCounterparts later further outcome outcome') :
    SlotCounterparts one two outcome outcome' := by
  cases agreement with
  | empty last last' => exact .empty (first.trans last) (second.trans last')
  | ok last last' alike => exact .ok (first.trans last) (second.trans last') alike
  | clash last last' told told' => exact .clash (first.trans last) (second.trans last') told told'
  | endless cause cause' => exact .endless cause cause'

theorem resolveSlot_fold (catalog : Catalog) (left right : TypeId) (rest : List TypeId) :
    catalog.resolveSlot (left :: right :: rest) =
      match catalog.resolvePair left right with
      | .ok (ty, later) => later.resolveSlot (ty :: rest)
      | .error cause => (.error ⟨left, right, cause⟩, catalog) := by
  simp only [resolveSlot, foldSlot]
  cases catalog.resolvePair left right <;> rfl

theorem Alike.extendAll {types types' : List TypeId} (branches : Branches base one two) (first : one.Develops later)
    (second : two.Develops further) (alike : List.Forall₂ (Alike one two) types types') :
    List.Forall₂ (Alike later further) types types' :=
  alike.imp fun _ _ alike => alike.extend branches first second

theorem resolveSlot_agree {types types' : List TypeId} (branches : Branches base one two)
    (alike : List.Forall₂ (Alike one two) types types') :
    SlotCounterparts one two (one.resolveSlot types) (two.resolveSlot types') := by
  cases alike with
  | nil => exact .empty (.refl one) (.refl two)
  | @cons left left' types types' alike others =>
    induction types generalizing one two left left' types' with
    | nil =>
      cases others
      exact .ok (.refl one) (.refl two) alike
    | cons right rest ih =>
      obtain ⟨right', rest', second, tail, rfl⟩ := List.forall₂_cons_left_iff.mp others
      have pair := resolvePair_agree branches alike second
      rw [resolveSlot_fold, resolveSlot_fold]
      generalize one.resolvePair left right = outcome at pair ⊢
      generalize two.resolvePair left' right' = outcome' at pair ⊢
      cases pair with
      | endless => exact .endless rfl rfl
      | clash inner inner' =>
        exact .clash (.refl one) (.refl two)
          ⟨alike.known branches, second.known branches, _, _, _, rfl, inner.known branches, inner'.known branches⟩
          ⟨alike.symm.known branches.symm, second.symm.known branches.symm, _, _, _, rfl, inner.symm.known branches.symm,
            inner'.symm.known branches.symm⟩
      | ok firstGrowth secondGrowth merged =>
        have first := firstGrowth.develops
        have second := secondGrowth.develops
        exact (ih (branches.grow first second) merged (Alike.extendAll branches first second tail)).before first second

/-- What is entered without a name is above nothing, so no cycle comes of it. -/
theorem Acyclic.extend (acyclic : base.Acyclic) (extension : base.Extends catalog) : catalog.Acyclic := by
  intro ty cycle
  refine acyclic ty (Relation.TransGen.mono ?_ _ _ cycle)
  intro lower upper parent
  obtain ⟨shape, found, member⟩ := parent
  obtain ⟨name, named⟩ := parent_named member
  exact ⟨shape, extension.named found named, member⟩

theorem resolveSlot_ends {types : List TypeId} {conflict : SlotConflict} (sound : catalog.Sound) (acyclic : catalog.Acyclic)
    (known : ∀ ty ∈ types, catalog.contains ty = true) (failed : (catalog.resolveSlot types).1 = .error conflict) :
    conflict.cause ≠ .unregistered := by
  cases types with
  | nil => cases failed
  | cons left types =>
    induction types generalizing catalog left with
    | nil => cases failed
    | cons right rest ih =>
      have leftKnown := known left (by simp)
      have rightKnown := known right (by simp)
      obtain ⟨outcome, answered, agreed⟩ := resolveWithin_ends sound acyclic leftKnown rightKnown
      have own : catalog.resolvePair left right = outcome := agreed _ (Nat.lt_succ_of_lt (contains_iff.mp leftKnown))
      rw [resolveSlot_fold, own] at failed
      cases outcome with
      | error cause =>
        cases failed
        exact fun endless => answered (congrArg _ endless)
      | ok result =>
        obtain ⟨growth, inside⟩ := resolvePair_growth sound leftKnown rightKnown own
        refine ih (growth.sound sound) (acyclic.extend growth.extension) result.1 ?_ failed
        intro ty member
        rcases List.mem_cons.mp member with rfl | member
        · exact inside
        · exact growth.extension.contains (known ty (by simp [member]))

end Interchange.Catalog
