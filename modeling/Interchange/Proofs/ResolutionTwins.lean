import Interchange.Proofs.CatalogStructure
import Interchange.Proofs.ResolutionFailure

/-! Two runs of the resolver from tables that extend a common one. The ids they enter may
differ, but both succeed with types of the same structure or fail for the same reason. -/

namespace Interchange

def Family.keys : Family → List TypeId
  | dictionary key => [key]
  | _ => []

theorem Family.keys_mem_parts {family : Family} {item key : TypeId} {form : CollectionForm} (member : key ∈ family.keys) :
    key ∈ (family.shape item form).parts := by
  cases family <;> simp_all [Family.keys, Family.shape, Shape.parts]

@[simp] theorem Family.shape_family {family : Family} {item ty : TypeId} {form : CollectionForm} :
    (family.shape item form).family ty = ty := by
  cases family <;> rfl

namespace Catalog

structure Fork (base one two : Catalog) : Prop where
  oneExtends : base.Extends one
  twoExtends : base.Extends two
  sound : base.Sound
  oneSound : one.Sound
  twoSound : two.Sound
  hierarchical : base.Hierarchical
  oneHierarchical : one.Hierarchical
  twoHierarchical : two.Hierarchical

/-- Types of the common table, and collections built alike from twins. -/
inductive Twin (base one two : Catalog) : TypeId → TypeId → Prop where
  | old {ty : TypeId} (inside : base.contains ty = true) : Twin base one two ty ty
  | collection {left right item other : TypeId} {family : Family} {form : CollectionForm}
      (keys : ∀ key ∈ family.keys, base.contains key = true) (nullable : left.nullable = right.nullable)
      (leftFound : one.shape? left = some (family.shape item form))
      (rightFound : two.shape? right = some (family.shape other form)) (items : Twin base one two item other) :
      Twin base one two left right

variable {base one two later further : Catalog} {left right other : TypeId}

theorem Fork.symm (fork : Fork base one two) : Fork base two one :=
  ⟨fork.twoExtends, fork.oneExtends, fork.sound, fork.twoSound, fork.oneSound, fork.hierarchical, fork.twoHierarchical,
    fork.oneHierarchical⟩

theorem Fork.grow (fork : Fork base one two) (first : Growth one later) (second : Growth two further) :
    Fork base later further :=
  ⟨fork.oneExtends.trans first.extension, fork.twoExtends.trans second.extension, fork.sound, first.sound fork.oneSound,
    second.sound fork.twoSound, fork.hierarchical, first.hierarchical fork.oneHierarchical,
    second.hierarchical fork.twoHierarchical⟩

theorem parent_named {shape : Shape} {above : TypeId} (member : above ∈ shape.parents) : ∃ name, shape.name? = some name := by
  cases shape <;> first | exact ⟨_, rfl⟩ | cases member

/-- What derives from a type of the earlier table does so there. -/
theorem Derives.restrict (extension : base.Extends one) (sound : base.Sound) (derives : Derives one left right)
    (inside : base.contains left = true) : Derives base left right ∧ base.contains right = true := by
  induction derives with
  | refl => exact ⟨.refl, inside⟩
  | tail _ parent ih =>
    obtain ⟨early, known⟩ := ih
    obtain ⟨shape, found, member⟩ := parent
    rw [extension.known known] at found
    exact ⟨early.tail ⟨shape, found, member⟩, parent_known sound found member⟩

namespace Twin

theorem symm (twin : Twin base one two left right) : Twin base two one right left := by
  induction twin with
  | old inside => exact .old inside
  | collection keys nullable leftFound rightFound _ ih => exact .collection keys nullable.symm rightFound leftFound ih

theorem extend (twin : Twin base one two left right) (first : one.Extends later) (second : two.Extends further) :
    Twin base later further left right := by
  induction twin with
  | old inside => exact .old inside
  | collection keys nullable leftFound rightFound _ ih =>
    exact .collection keys nullable (first.shape leftFound) (second.shape rightFound) ih

theorem nullable (twin : Twin base one two left right) : left.nullable = right.nullable := by
  cases twin with
  | old => rfl
  | collection _ nullable => exact nullable

theorem withNullability (twin : Twin base one two left right) (nullable : Bool) :
    Twin base one two (left.withNullability nullable) (right.withNullability nullable) := by
  cases twin with
  | old inside => exact .old inside
  | collection keys _ leftFound rightFound items => exact .collection keys rfl leftFound rightFound items

theorem known (twin : Twin base one two left right) (fork : Fork base one two) : one.contains left = true := by
  cases twin with
  | old inside => exact fork.oneExtends.contains inside
  | collection _ _ leftFound => exact contains_of_shape leftFound

/-- A type of the common table is its own twin only. -/
theorem eq_of_old (twin : Twin base one two left right) (fork : Fork base one two) (inside : base.contains left = true) :
    left = right := by
  induction twin with
  | old => rfl
  | @collection left right item other family form keys nullable leftFound rightFound _ ih =>
    rw [fork.oneExtends.known inside] at leftFound
    have same := ih (fork.sound.mentioned leftFound (family.shape_mentions .. ▸ Family.item_mem_parts))
    subst same
    exact TypeId.ext_iff_pair.mpr ⟨fork.twoSound.same_shape (fork.twoExtends.shape leftFound) rightFound, nullable⟩

/-- Every type has one twin at most. -/
theorem functional (twin : Twin base one two left right) (fork : Fork base one two) (again : Twin base one two left other) :
    right = other := by
  induction twin generalizing other with
  | old inside => exact again.eq_of_old fork inside
  | collection keys nullable leftFound rightFound items ih =>
    have twin : Twin base one two _ _ := .collection keys nullable leftFound rightFound items
    cases again with
    | old inside => exact (twin.eq_of_old fork inside).symm
    | collection _ nullable' leftAgain rightAgain others =>
      rw [leftFound] at leftAgain
      obtain ⟨rfl, rfl, rfl⟩ := Family.shape_inj (Option.some.inj leftAgain)
      rw [← ih others] at rightAgain
      exact TypeId.ext_iff_pair.mpr ⟨fork.twoSound.same_shape rightFound rightAgain, nullable.symm.trans nullable'⟩

variable {left' right' : TypeId}

theorem eq_iff (fork : Fork base one two) (first : Twin base one two left left') (second : Twin base one two right right') :
    left = right ↔ left' = right' := by
  constructor
  · rintro rfl
    exact first.functional fork second
  · rintro rfl
    exact first.symm.functional fork.symm second.symm

theorem isAny (twin : Twin base one two left right) (fork : Fork base one two) : left.isAny = right.isAny := by
  have universal : Twin base one two .any .any := .old (contains_of_shape fork.sound.any)
  have bare : Twin base one two left.nonNull right.nonNull := twin.withNullability false
  have same := eq_iff fork bare universal
  rw [Bool.eq_iff_iff, TypeId.isAny, TypeId.isAny, beq_iff_eq, beq_iff_eq]
  exact same

theorem derives (fork : Fork base one two) (first : Twin base one two left left') (second : Twin base one two right right')
    (derives : Derives one left right) : Derives two left' right' := by
  rcases Relation.ReflTransGen.cases_head derives with same | ⟨above, ⟨shape, found, member⟩, -⟩
  · rw [(eq_iff fork first second).mp same]
  · obtain ⟨name, named⟩ := parent_named member
    have inside := contains_of_shape (fork.oneExtends.named found named)
    obtain ⟨early, known⟩ := Derives.restrict fork.oneExtends fork.sound derives inside
    rw [← first.eq_of_old fork inside, ← second.eq_of_old fork known]
    exact early.extend fork.twoExtends

theorem derivesFrom? (fork : Fork base one two) (first : Twin base one two left left') (second : Twin base one two right right') :
    one.derivesFrom? left right = two.derivesFrom? left' right' := by
  rcases @derivesFrom?_cases one left right fork.oneSound fork.oneHierarchical (first.known fork) with
    ⟨found, derives⟩ | ⟨found, apart⟩
  · rw [found, derivesFrom?_of_derives fork.twoSound fork.twoHierarchical (Twin.derives fork first second derives)]
  · rcases @derivesFrom?_cases two left' right' fork.twoSound fork.twoHierarchical (first.symm.known fork.symm) with
      ⟨_, derives⟩ | ⟨other, _⟩
    · exact absurd (Twin.derives fork.symm first.symm second.symm derives) apart
    · rw [found, other]

end Twin

inductive TwinShapes (base one two : Catalog) : Shape → Shape → Prop where
  | same {shape : Shape} (known : ∀ part ∈ shape.mentions, base.contains part = true)
      (fixed : ∀ (family : Family) item form, shape ≠ family.shape item form) : TwinShapes base one two shape shape
  | collection {family : Family} {item other : TypeId} {form : CollectionForm}
      (keys : ∀ key ∈ family.keys, base.contains key = true) (items : Twin base one two item other) :
      TwinShapes base one two (family.shape item form) (family.shape other form)

theorem Twin.shapes (twin : Twin base one two left right) (fork : Fork base one two) : ∃ leftShape rightShape,
    one.shape? left = some leftShape ∧ two.shape? right = some rightShape ∧ TwinShapes base one two leftShape rightShape := by
  cases twin with
  | collection keys _ leftFound rightFound items => exact ⟨_, _, leftFound, rightFound, .collection keys items⟩
  | old inside =>
    obtain ⟨shape, found⟩ := shape_of_contains inside
    refine ⟨shape, shape, fork.oneExtends.shape found, fork.twoExtends.shape found, ?_⟩
    have known : ∀ part ∈ shape.mentions, base.contains part = true := fun part => fork.sound.mentioned found
    have collection (family : Family) {item : TypeId} {form : CollectionForm} (same : shape = family.shape item form) :
        TwinShapes base one two (family.shape item form) (family.shape item form) := by
      subst same
      rw [family.shape_mentions] at known
      exact .collection (fun key member => known key (Family.keys_mem_parts member)) (.old (known item Family.item_mem_parts))
    cases shape with
    | list => exact collection .list rfl
    | set => exact collection .set rfl
    | dictionary key => exact collection (.dictionary key) rfl
    | _ => exact .same known fun family _ _ => by cases family <;> nofun

/-- Twins are written out alike. -/
theorem Twin.familyStructure? (twin : Twin base one two left right) (fork : Fork base one two) :
    one.familyStructure? left = two.familyStructure? right := by
  have old {ty : TypeId} (inside : base.contains ty = true) : one.familyStructure? ty = two.familyStructure? ty := by
    rw [familyStructure?_extend fork.oneExtends fork.sound fork.hierarchical inside,
      familyStructure?_extend fork.twoExtends fork.sound fork.hierarchical inside]
  induction twin with
  | old inside => exact old inside
  | @collection left right item other family form keys nullable leftFound rightFound _ ih =>
    rw [familyStructure?_eq fork.oneSound fork.oneHierarchical leftFound,
      familyStructure?_eq fork.twoSound fork.twoHierarchical rightFound, headShape_family, headShape_family, nullable]
    congr 1
    cases family with
    | list | set => simp only [Family.shape, unfoldShape, ih]
    | dictionary key => simp only [Family.shape, unfoldShape, ih, old (keys key (by simp [Family.keys]))]

namespace TwinShapes

variable {shape shape' : Shape} {item : TypeId}

theorem kind (shapes : TwinShapes base one two shape shape') : shape.kind = shape'.kind := by
  cases shapes with
  | same => rfl
  | @collection family => cases family <;> rfl

theorem array (shapes : TwinShapes base one two shape shape') (same : shape' = .array item) : shape = .array item := by
  cases shapes with
  | same => exact same
  | collection => exact absurd same Family.shape_ne_array

theorem readOnly (shapes : TwinShapes base one two shape shape') (same : shape' = .list item .readOnly) :
    ∃ other, shape = .list other .readOnly := by
  cases shapes with
  | same => exact ⟨item, same⟩
  | @collection family =>
    cases family <;> cases same
    exact ⟨_, rfl⟩

end TwinShapes

section Verdicts

variable {family rival : Family} {item bound : TypeId} {form wider : CollectionForm} {shape : Shape}

/-- How a collection fares against a shape of another sort. -/
theorem verdict_family_left (fixed : ∀ (family : Family) item form, shape ≠ family.shape item form) :
    verdict (family.shape item form) shape =
      if shape.isExact then .exact
      else if shape.kind.isCollection then
        if family = .list ∧ form = .readOnly ∧ shape = .array item then .right else .families
      else .interfaces := by
  cases shape with
  | list item form => exact absurd rfl (fixed .list item form)
  | set item form => exact absurd rfl (fixed .set item form)
  | dictionary key item form => exact absurd rfl (fixed (.dictionary key) item form)
  | array bound =>
    cases family with
    | list =>
      cases form <;> simp [verdict, Family.shape, Shape.isExact, Shape.isValue, Shape.kind, Kind.isCollection, @eq_comm _ bound]
    | _ => rfl
  | _ => cases family <;> simp [verdict, Family.shape, Shape.isExact, Shape.isValue, Shape.kind, Kind.isCollection]

theorem verdict_family_right (fixed : ∀ (family : Family) item form, shape ≠ family.shape item form) :
    verdict shape (family.shape item form) =
      if shape.isExact then .exact
      else if shape.kind.isCollection then
        if family = .list ∧ form = .readOnly ∧ shape = .array item then .left else .families
      else .interfaces := by
  cases shape with
  | list item form => exact absurd rfl (fixed .list item form)
  | set item form => exact absurd rfl (fixed .set item form)
  | dictionary key item form => exact absurd rfl (fixed (.dictionary key) item form)
  | array bound =>
    cases family with
    | list => cases form <;> simp [verdict, Family.shape, Shape.isExact, Shape.isValue, Shape.kind, Kind.isCollection]
    | _ => rfl
  | _ => cases family <;> simp [verdict, Family.shape, Shape.isExact, Shape.isValue, Shape.kind, Kind.isCollection]

/-- What two collections of different families call for. -/
def rivalry : Family → Family → Verdict
  | .dictionary key, .dictionary other => .keys key other
  | _, _ => .families

theorem verdict_rivals (apart : family ≠ rival) :
    verdict (family.shape item form) (rival.shape bound wider) = rivalry family rival := by
  cases family with
  | list =>
    cases rival with
    | list => exact absurd rfl apart
    | _ => cases form <;> rfl
  | set =>
    cases rival with
    | set => exact absurd rfl apart
    | _ => rfl
  | dictionary key =>
    cases rival with
    | dictionary other =>
      have different : key ≠ other := fun same => apart (congrArg _ same)
      simp [verdict, rivalry, Family.shape, Shape.isExact, Shape.isValue, Shape.kind, different]
    | _ => rfl

end Verdicts

inductive TwinVerdicts (base one two : Catalog) : Verdict → Verdict → Prop where
  | exact : TwinVerdicts base one two .exact .exact
  | left : TwinVerdicts base one two .left .left
  | right : TwinVerdicts base one two .right .right
  | families : TwinVerdicts base one two .families .families
  | interfaces : TwinVerdicts base one two .interfaces .interfaces
  | items {left right : TypeId} (leftKnown : base.contains left = true) (rightKnown : base.contains right = true) :
      TwinVerdicts base one two (.items left right) (.items left right)
  | keys {left right : TypeId} (leftKnown : base.contains left = true) (rightKnown : base.contains right = true) :
      TwinVerdicts base one two (.keys left right) (.keys left right)
  | narrow {family : Family} {leftItem leftOther rightItem rightOther : TypeId} {leftForm rightForm : CollectionForm}
      (keys : ∀ key ∈ family.keys, base.contains key = true) (leftItems : Twin base one two leftItem leftOther)
      (rightItems : Twin base one two rightItem rightOther) :
      TwinVerdicts base one two (.narrow family leftItem leftForm rightItem rightForm)
        (.narrow family leftOther leftForm rightOther rightForm)

theorem Twin.array_iff {shape : Shape} {item other : TypeId} (fork : Fork base one two)
    (known : ∀ part ∈ shape.mentions, base.contains part = true) (items : Twin base one two item other) :
    shape = .array item ↔ shape = .array other := by
  cases shape with
  | array bound =>
    have inside : base.contains bound = true := known bound (by simp [Shape.mentions, Shape.components, Shape.parts])
    simpa using Twin.eq_iff fork (.old inside) items
  | _ => simp

theorem TwinShapes.verdicts {leftShape leftOther rightShape rightOther : Shape} (fork : Fork base one two)
    (first : TwinShapes base one two leftShape leftOther) (second : TwinShapes base one two rightShape rightOther) :
    TwinVerdicts base one two (verdict leftShape rightShape) (verdict leftOther rightOther) := by
  cases first with
  | same known fixed =>
    cases second with
    | same others unlike =>
      cases judged : verdict leftShape rightShape with
      | exact => exact .exact
      | left => exact .left
      | right => exact .right
      | families => exact .families
      | interfaces => exact .interfaces
      | narrow family => exact absurd (verdict_narrow.mp judged).1 (fixed family _ _)
      | keys key =>
        obtain ⟨-, value, form, -, -, same, -⟩ := verdict_keys judged
        exact absurd same (fixed (.dictionary key) value form)
      | items leftItem rightItem =>
        obtain ⟨rfl, rfl⟩ := verdict_items judged
        exact .items (known leftItem (by simp [Shape.mentions, Shape.components, Shape.parts]))
          (others rightItem (by simp [Shape.mentions, Shape.components, Shape.parts]))
    | collection keys items =>
      simp only [verdict_family_right fixed, Twin.array_iff fork known items]
      split
      · exact .exact
      · split
        · split
          · exact .left
          · exact .families
        · exact .interfaces
  | @collection family _ _ _ keys items =>
    cases second with
    | same known fixed =>
      simp only [verdict_family_left fixed, Twin.array_iff fork known items]
      split
      · exact .exact
      · split
        · split
          · exact .right
          · exact .families
        · exact .interfaces
    | @collection rival _ _ _ others bounds =>
      by_cases same : family = rival
      · subst same
        rw [verdict_narrow.mpr ⟨rfl, rfl⟩, verdict_narrow.mpr ⟨rfl, rfl⟩]
        exact .narrow keys items bounds
      · rw [verdict_rivals same, verdict_rivals same]
        unfold rivalry
        split
        · exact .keys (keys _ (by simp [Family.keys])) (others _ (by simp [Family.keys]))
        · exact .families

end Catalog
end Interchange
