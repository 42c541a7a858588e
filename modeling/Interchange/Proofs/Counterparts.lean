import Interchange.Proofs.CatalogIdentity
import Interchange.Proofs.DerivationDepth
import Interchange.Proofs.ResolutionTwins

/-! Tables that have grown out of a common one, with their types matched by what they are written out to. Types that are
written out alike are built alike, derive alike and call for the same when they are reconciled. -/

namespace Interchange.Catalog

variable {base one two before middle after later further : Catalog} {left left' right right' ty : TypeId}

/-- The later table shows the types of the earlier one unchanged, and it is as sound. -/
structure Develops (before after : Catalog) : Prop where
  extension : before.Extends after
  sound : before.Sound → after.Sound

namespace Develops

theorem refl (catalog : Catalog) : catalog.Develops catalog :=
  ⟨.refl catalog, id⟩

theorem trans (first : before.Develops middle) (second : middle.Develops after) : before.Develops after :=
  ⟨first.extension.trans second.extension, fun sound => second.sound (first.sound sound)⟩

end Develops

theorem Growth.develops (growth : Growth before after) : before.Develops after :=
  ⟨growth.extension, growth.sound⟩

structure Branches (base one two : Catalog) : Prop where
  sound : base.Sound
  oneExtends : base.Extends one
  twoExtends : base.Extends two
  oneSound : one.Sound
  twoSound : two.Sound

/-- Types of two tables that are written out alike. -/
def Alike (one two : Catalog) (left right : TypeId) : Prop :=
  ∃ unfolded, one.unfolded? left = some unfolded ∧ two.unfolded? right = some unfolded

theorem Extends.unfolded? (extension : before.Extends after) (sound : before.Sound) (inside : before.contains ty = true) :
    after.unfolded? ty = before.unfolded? ty := by
  have bound := contains_iff.mp inside
  have grown := contains_iff.mp (extension.contains inside)
  refine unfoldWithin_congr (fun _ _ => extension.shape) ?_ (fun _ _ found => parts_older sound found) inside (by omega) (by omega)
  intro ty shape found symbol member
  obtain ⟨entry, present, rfl⟩ := shape?_eq_some_iff.mp found
  obtain ⟨text, spelled⟩ := Interner.get?_of_index_lt (sound.spelled ty entry present symbol (by simp [Entry.symbols, member]))
  rw [extension.get? spelled, spelled]

namespace Branches

theorem symm (branches : Branches base one two) : Branches base two one :=
  ⟨branches.sound, branches.twoExtends, branches.oneExtends, branches.twoSound, branches.oneSound⟩

theorem grow (branches : Branches base one two) (first : one.Develops later) (second : two.Develops further) :
    Branches base later further :=
  ⟨branches.sound, branches.oneExtends.trans first.extension, branches.twoExtends.trans second.extension,
    first.sound branches.oneSound, second.sound branches.twoSound⟩

theorem self (sound : base.Sound) : Branches base base base :=
  ⟨sound, .refl base, .refl base, sound, sound⟩

/-- Types of the common table are their own counterparts. -/
theorem old (branches : Branches base one two) (inside : base.contains ty = true) : Alike one two ty ty := by
  obtain ⟨unfolded, found⟩ := Option.isSome_iff_exists.mp (branches.sound.canonical.unfolds ty inside)
  exact ⟨unfolded, (branches.oneExtends.unfolded? branches.sound inside).trans found,
    (branches.twoExtends.unfolded? branches.sound inside).trans found⟩

end Branches

namespace Alike

theorem symm (alike : Alike one two left right) : Alike two one right left := by
  obtain ⟨unfolded, first, second⟩ := alike
  exact ⟨unfolded, second, first⟩

/-- One level of two types that are written out alike. -/
theorem level (alike : Alike one two left right) (branches : Branches base one two) : ∃ shape shape' bare,
    one.shape? left = some shape ∧ two.shape? right = some shape' ∧ one.unfoldShape one.unfolded? shape = some bare ∧
      two.unfoldShape two.unfolded? shape' = some bare ∧ left.nullable = right.nullable := by
  obtain ⟨unfolded, first, second⟩ := alike
  obtain ⟨shape, -, found, -⟩ := unfolded?_cases branches.oneSound first
  obtain ⟨shape', -, found', -⟩ := unfolded?_cases branches.twoSound second
  rw [unfolded?_eq branches.oneSound found] at first
  rw [unfolded?_eq branches.twoSound found'] at second
  obtain ⟨bare, answer, rfl⟩ := Option.map_eq_some_iff.mp first
  obtain ⟨bare', answer', same⟩ := Option.map_eq_some_iff.mp second
  refine ⟨shape, shape', bare, found, found', answer, ?_⟩
  -- What is written out for a shape is never nullable, so nullability is the same on both sides.
  cases leftNull : left.nullable <;> cases rightNull : right.nullable <;>
    simp only [leftNull, rightNull, if_true, Bool.false_eq_true, if_false] at same
  · exact ⟨same ▸ answer', rfl⟩
  · exact absurd same.symm (unfoldShape_some answer).plain
  · exact absurd same (unfoldShape_some answer').plain
  · exact ⟨Structure.nullable.inj same ▸ answer', rfl⟩

theorem of_level {shape shape' : Shape} {bare : Structure} (branches : Branches base one two)
    (found : one.shape? left = some shape) (found' : two.shape? right = some shape')
    (answer : one.unfoldShape one.unfolded? shape = some bare) (answer' : two.unfoldShape two.unfolded? shape' = some bare)
    (nullable : left.nullable = right.nullable) : Alike one two left right := by
  refine ⟨if right.nullable then .nullable bare else bare, ?_, ?_⟩
  · rw [unfolded?_eq branches.oneSound found, answer, nullable]
    rfl
  · rw [unfolded?_eq branches.twoSound found', answer']
    rfl

theorem known (alike : Alike one two left right) (branches : Branches base one two) : one.contains left = true := by
  obtain ⟨shape, -, -, found, -⟩ := alike.level branches
  exact contains_of_shape found

theorem nullable (alike : Alike one two left right) (branches : Branches base one two) : left.nullable = right.nullable := by
  obtain ⟨-, -, -, -, -, -, -, same⟩ := alike.level branches
  exact same

theorem withNullability (alike : Alike one two left right) (branches : Branches base one two) (nullable : Bool) :
    Alike one two (left.withNullability nullable) (right.withNullability nullable) := by
  obtain ⟨shape, shape', bare, found, found', answer, answer', -⟩ := alike.level branches
  exact of_level branches (show one.shape? (left.withNullability nullable) = some shape from found)
    (show two.shape? (right.withNullability nullable) = some shape' from found') answer answer' rfl

theorem extend (alike : Alike one two left right) (branches : Branches base one two) (first : one.Develops later)
    (second : two.Develops further) : Alike later further left right := by
  have inside := alike.known branches
  have inside' := alike.symm.known branches.symm
  obtain ⟨unfolded, found, found'⟩ := alike
  exact ⟨unfolded, (first.extension.unfolded? branches.oneSound inside).trans found,
    (second.extension.unfolded? branches.twoSound inside').trans found'⟩

/-- Ids stand for types in both tables, so counterparts are told apart or not alike. -/
theorem eq_iff (branches : Branches base one two) (first : Alike one two left left') (second : Alike one two right right') :
    left = right ↔ left' = right' := by
  obtain ⟨unfolded, found, found'⟩ := first
  obtain ⟨other, written, written'⟩ := second
  constructor
  · rintro rfl
    rw [found] at written
    cases written
    exact unfoldWithin_injective branches.twoSound found' written'
  · rintro rfl
    rw [found'] at written'
    cases written'
    exact unfoldWithin_injective branches.oneSound found written

theorem eq_of_old (alike : Alike one two left right) (branches : Branches base one two) (inside : base.contains left = true) :
    left = right :=
  (eq_iff branches (branches.old inside) alike).mp rfl

theorem isAny (alike : Alike one two left right) (branches : Branches base one two) : left.isAny = right.isAny := by
  have universal : Alike one two .any .any := branches.old (contains_of_shape branches.sound.any)
  have bare : Alike one two left.nonNull right.nonNull := alike.withNullability branches false
  have same := eq_iff branches bare universal
  rw [Bool.eq_iff_iff, TypeId.isAny, TypeId.isAny, beq_iff_eq, beq_iff_eq]
  exact same

/-- The search for a derivation has the same outcome in both tables, also if it does not end. -/
theorem derivesFrom? (branches : Branches base one two) (first : Alike one two left left')
    (second : Alike one two right right') (plain : left.nullable = false) :
    one.derivesFrom? left right = two.derivesFrom? left' right' := by
  by_cases inside : base.contains left = true
  · cases first.eq_of_old branches inside
    have targets : ∀ ty, base.contains ty = true → (ty = right' ↔ ty = right) :=
      fun ty known => (eq_iff branches (branches.old known) second).symm
    rw [branches.oneExtends.derivesFrom? branches.sound (fun _ _ => Iff.rfl) inside plain,
      branches.twoExtends.derivesFrom? branches.sound targets inside plain]
  · -- A type that was entered on the way has no name and nothing above it.
    have outside : base.contains left' ≠ true := fun inside' =>
      inside (first.symm.eq_of_old branches.symm inside' ▸ inside')
    have alone {catalog : Catalog} {derived target : TypeId} (extension : base.Extends catalog)
        (known : catalog.contains derived = true) (outside : base.contains derived ≠ true) :
        catalog.derivesFrom? derived target = some (decide (derived = target)) := by
      obtain ⟨shape, found⟩ := shape_of_contains known
      have absent : base.shape? derived = none := by
        by_contra present
        obtain ⟨shape, present⟩ := Option.ne_none_iff_exists'.mp present
        exact outside (contains_of_shape present)
      have parents : shape.parents = [] := by
        apply List.eq_nil_iff_forall_not_mem.mpr
        intro above member
        obtain ⟨name, named⟩ := parent_named member
        rw [extension.anonymous found absent] at named
        cases named
      by_cases same : derived = target
      · simp [Catalog.derivesFrom?, derivesWithin, same]
      · simp [Catalog.derivesFrom?, derivesWithin, same, found, parents]
    rw [alone branches.oneExtends (first.known branches) inside, alone branches.twoExtends (first.symm.known branches.symm) outside,
      decide_eq_decide.mpr (eq_iff branches first second)]

end Alike

inductive AlikeFamilies (one two : Catalog) : Family → Family → Prop where
  | list : AlikeFamilies one two .list .list
  | set : AlikeFamilies one two .set .set
  | dictionary {key other : TypeId} (keys : Alike one two key other) :
      AlikeFamilies one two (.dictionary key) (.dictionary other)

inductive AlikeShapes (base one two : Catalog) : Shape → Shape → Prop where
  | fixed {shape : Shape} (known : ∀ part ∈ shape.mentions, base.contains part = true)
      (simple : shape.kind.isCollection = false) : AlikeShapes base one two shape shape
  | tuple {elements others : List TupleElement}
      (items : List.Forall₂ (fun element other => Alike one two element.ty other.ty) elements others) :
      AlikeShapes base one two (.tuple elements) (.tuple others)
  | union {members others : List TypeId} : AlikeShapes base one two (.union members) (.union others)
  | array {item other : TypeId} (items : Alike one two item other) : AlikeShapes base one two (.array item) (.array other)
  | collection {family rival : Family} {item other : TypeId} {form : CollectionForm} (families : AlikeFamilies one two family rival)
      (items : Alike one two item other) : AlikeShapes base one two (family.shape item form) (rival.shape other form)

theorem mapM_paired {α β γ : Type} {read : α → Option γ} {see : β → Option γ} {items : List α} {others : List β}
    {values : List γ} (first : items.mapM read = some values) (second : others.mapM see = some values) :
    List.Forall₂ (fun item other => ∃ value, read item = some value ∧ see other = some value) items others := by
  induction items generalizing others values with
  | nil =>
    cases first
    cases others with
    | nil => exact .nil
    | cons other rest => simp [List.mapM_cons, Option.bind_eq_some_iff] at second
  | cons item rest ih =>
    simp only [List.mapM_cons, Option.bind_eq_bind, Option.bind_eq_some_iff] at first
    obtain ⟨value, found, later, rests, made⟩ := first
    cases made
    cases others with
    | nil => cases second
    | cons other more =>
      simp only [List.mapM_cons, Option.bind_eq_bind, Option.bind_eq_some_iff] at second
      obtain ⟨value', found', later', rests', made'⟩ := second
      cases made'
      exact .cons ⟨value, found, found'⟩ (ih rests rests')

theorem mapM_of_paired {α β γ : Type} {read : α → Option γ} {see : β → Option γ} {items : List α} {others : List β}
    (paired : List.Forall₂ (fun item other => ∃ value, read item = some value ∧ see other = some value) items others) :
    ∃ values, items.mapM read = some values ∧ others.mapM see = some values := by
  induction paired with
  | nil => exact ⟨[], rfl, rfl⟩
  | cons own _ ih =>
    obtain ⟨value, found, found'⟩ := own
    obtain ⟨values, rest, rest'⟩ := ih
    exact ⟨value :: values, by simp [List.mapM_cons, found, rest], by simp [List.mapM_cons, found', rest']⟩

theorem Alike.shapes (alike : Alike one two left right) (branches : Branches base one two) : ∃ shape shape',
    one.shape? left = some shape ∧ two.shape? right = some shape' ∧ AlikeShapes base one two shape shape' := by
  obtain ⟨shape, shape', bare, found, found', answer, answer', -⟩ := alike.level branches
  refine ⟨shape, shape', found, found', ?_⟩
  have first := unfoldShape_some answer
  have second := unfoldShape_some answer'
  cases first with
  | any =>
    cases second
    exact .fixed (by simp [Shape.mentions, Shape.components, Shape.parts]) rfl
  | basic =>
    cases second
    exact .fixed (by simp [Shape.mentions, Shape.components, Shape.parts]) rfl
  | named name spelled =>
    -- Named types are those of the common table.
    have early := branches.oneExtends.named found name
    cases alike.eq_of_old branches (contains_of_shape early)
    cases found'.symm.trans (branches.twoExtends.shape early)
    refine .fixed (fun part => branches.sound.mentioned early) ?_
    cases shape <;> first | rfl | cases name
  | array item =>
    cases second with
    | array other => exact .array ⟨_, item, other⟩
  | list item =>
    cases second with
    | list other => exact .collection AlikeFamilies.list ⟨_, item, other⟩
  | set item =>
    cases second with
    | set other => exact .collection AlikeFamilies.set ⟨_, item, other⟩
  | dictionary key item =>
    cases second with
    | dictionary rival other => exact .collection (.dictionary ⟨_, key, rival⟩) ⟨_, item, other⟩
  | union =>
    cases second
    exact .union
  | tuple items =>
    cases second with
    | tuple others =>
      refine .tuple ((mapM_paired items others).imp ?_)
      intro element other paired
      obtain ⟨value, read, read'⟩ := paired
      obtain ⟨item, itemFound, labelled⟩ := Option.bind_eq_some_iff.mp read
      obtain ⟨item', itemFound', labelled'⟩ := Option.bind_eq_some_iff.mp read'
      obtain ⟨label, -, rfl⟩ := Option.map_eq_some_iff.mp labelled
      obtain ⟨label', -, same⟩ := Option.map_eq_some_iff.mp labelled'
      cases same
      exact ⟨item, itemFound, itemFound'⟩

namespace AlikeFamilies

variable {family family' rival rival' : Family}

theorem eq_iff (branches : Branches base one two) (first : AlikeFamilies one two family family')
    (second : AlikeFamilies one two rival rival') : family = rival ↔ family' = rival' := by
  cases first with
  | list => cases second <;> simp
  | set => cases second <;> simp
  | dictionary keys =>
    cases second with
    | dictionary others => simpa using Alike.eq_iff branches keys others
    | _ => simp

theorem isList (families : AlikeFamilies one two family family') : family = .list ↔ family' = .list := by
  cases families <;> simp

theorem extend (families : AlikeFamilies one two family family') (branches : Branches base one two) (first : one.Develops later)
    (second : two.Develops further) : AlikeFamilies later further family family' := by
  cases families with
  | list => exact .list
  | set => exact .set
  | dictionary keys => exact .dictionary (keys.extend branches first second)

/-- Collections that are built alike are written out alike. -/
theorem collection {item item' : TypeId} {form : CollectionForm} (families : AlikeFamilies one two family family')
    (branches : Branches base one two) (found : one.shape? left = some (family.shape item form))
    (found' : two.shape? right = some (family'.shape item' form)) (items : Alike one two item item')
    (nullable : left.nullable = right.nullable) : Alike one two left right := by
  obtain ⟨unfolded, first, second⟩ := items
  cases families with
  | list | set =>
    exact Alike.of_level branches found found' (Option.map_eq_some_iff.mpr ⟨unfolded, first, rfl⟩)
      (Option.map_eq_some_iff.mpr ⟨unfolded, second, rfl⟩) nullable
  | dictionary keys =>
    obtain ⟨key, keyFound, keyFound'⟩ := keys
    exact Alike.of_level branches found found'
      (Option.bind_eq_some_iff.mpr ⟨key, keyFound, Option.bind_eq_some_iff.mpr ⟨unfolded, first, rfl⟩⟩)
      (Option.bind_eq_some_iff.mpr ⟨key, keyFound', Option.bind_eq_some_iff.mpr ⟨unfolded, second, rfl⟩⟩) nullable

end AlikeFamilies

namespace AlikeShapes

variable {shape shape' : Shape}

theorem kind (shapes : AlikeShapes base one two shape shape') : shape.kind = shape'.kind := by
  cases shapes with
  | @collection family rival item other form families => cases families <;> rfl
  | _ => rfl

theorem isExact (shapes : AlikeShapes base one two shape shape') : shape.isExact = shape'.isExact := by
  cases shapes with
  | @collection family rival item other form families => cases families <;> rfl
  | _ => rfl

/-- The heads of the families that two types belong to. -/
theorem family (shapes : AlikeShapes base one two shape shape') (branches : Branches base one two)
    (alike : Alike one two left left') : Alike one two (shape.family left) (shape'.family left') := by
  cases shapes with
  | @fixed shape known simple =>
    cases shape with
    | secondary name head => exact branches.old (known head (by simp [Shape.mentions, Shape.components]))
    | _ => exact alike
  | collection => simpa using alike
  | tuple | union | array => exact alike

end AlikeShapes

section Verdicts

variable {leftShape leftShape' rightShape rightShape' : Shape}

theorem verdict_simple_left (simple : leftShape.kind.isCollection = false) :
    verdict leftShape rightShape = if leftShape.isExact || rightShape.isExact then .exact else .interfaces := by
  cases leftShape <;> first | rfl | cases simple

theorem verdict_simple_right (simple : rightShape.kind.isCollection = false) :
    verdict leftShape rightShape = if leftShape.isExact || rightShape.isExact then .exact else .interfaces := by
  unfold verdict
  split
  · rfl
  · split
    all_goals first | cases simple | simp [simple]

theorem verdict_array_family {item other : TypeId} {family : Family} {form : CollectionForm} :
    verdict (.array item) (family.shape other form) =
      if family = .list ∧ form = .readOnly ∧ item = other then .left else .families := by
  rw [verdict_family_right fun family _ _ => by cases family <;> nofun]
  simp [Shape.isExact, Shape.isValue, Shape.kind, Kind.isCollection]

theorem verdict_family_array {item other : TypeId} {family : Family} {form : CollectionForm} :
    verdict (family.shape other form) (.array item) =
      if family = .list ∧ form = .readOnly ∧ item = other then .right else .families := by
  rw [verdict_family_left fun family _ _ => by cases family <;> nofun]
  simp [Shape.isExact, Shape.isValue, Shape.kind, Kind.isCollection]

inductive AlikeVerdicts (one two : Catalog) : Verdict → Verdict → Prop where
  | exact : AlikeVerdicts one two .exact .exact
  | left : AlikeVerdicts one two .left .left
  | right : AlikeVerdicts one two .right .right
  | families : AlikeVerdicts one two .families .families
  | interfaces : AlikeVerdicts one two .interfaces .interfaces
  | items {left left' right right' : TypeId} (first : Alike one two left left') (second : Alike one two right right') :
      AlikeVerdicts one two (.items left right) (.items left' right')
  | keys {left left' right right' : TypeId} (first : Alike one two left left') (second : Alike one two right right') :
      AlikeVerdicts one two (.keys left right) (.keys left' right')
  | narrow {family family' : Family} {leftItem leftItem' rightItem rightItem' : TypeId} {leftForm rightForm : CollectionForm}
      (families : AlikeFamilies one two family family') (first : Alike one two leftItem leftItem')
      (second : Alike one two rightItem rightItem') :
      AlikeVerdicts one two (.narrow family leftItem leftForm rightItem rightForm)
        (.narrow family' leftItem' leftForm rightItem' rightForm)

theorem AlikeFamilies.rivalry {family family' rival rival' : Family} (first : AlikeFamilies one two family family')
    (second : AlikeFamilies one two rival rival') :
    AlikeVerdicts one two (Catalog.rivalry family rival) (Catalog.rivalry family' rival') := by
  cases first with
  | list | set => cases second <;> exact .families
  | dictionary keys =>
    cases second with
    | list | set => exact .families
    | dictionary others => exact .keys keys others

theorem AlikeShapes.verdicts (branches : Branches base one two) (first : AlikeShapes base one two leftShape leftShape')
    (second : AlikeShapes base one two rightShape rightShape') :
    AlikeVerdicts one two (verdict leftShape rightShape) (verdict leftShape' rightShape') := by
  have simple (judged : verdict leftShape rightShape = if leftShape.isExact || rightShape.isExact then .exact else .interfaces)
      (judged' : verdict leftShape' rightShape' = if leftShape'.isExact || rightShape'.isExact then .exact else .interfaces) :
      AlikeVerdicts one two (verdict leftShape rightShape) (verdict leftShape' rightShape') := by
    rw [judged, judged', ← first.isExact, ← second.isExact]
    split
    · exact .exact
    · exact .interfaces
  cases leftSimple : leftShape.kind.isCollection with
  | false => exact simple (verdict_simple_left leftSimple) (verdict_simple_left (first.kind ▸ leftSimple))
  | true =>
  cases rightSimple : rightShape.kind.isCollection with
  | false => exact simple (verdict_simple_right rightSimple) (verdict_simple_right (second.kind ▸ rightSimple))
  | true =>
  cases first with
  | fixed _ plain =>
    rw [plain] at leftSimple
    cases leftSimple
  | tuple | union => cases leftSimple
  | array items =>
    cases second with
    | fixed _ plain =>
      rw [plain] at rightSimple
      cases rightSimple
    | tuple | union => cases rightSimple
    | array others => exact .items items others
    | collection families others =>
      simp only [verdict_array_family, families.isList, Alike.eq_iff branches items others]
      split
      · exact .left
      · exact .families
  | @collection family family' item item' form families items =>
    cases second with
    | fixed _ plain =>
      rw [plain] at rightSimple
      cases rightSimple
    | tuple | union => cases rightSimple
    | array others =>
      simp only [verdict_family_array, families.isList, Alike.eq_iff branches others items]
      split
      · exact .right
      · exact .families
    | @collection rival rival' other other' wider rivals others =>
      by_cases same : family = rival
      · subst same
        cases (AlikeFamilies.eq_iff branches families rivals).mp rfl
        rw [verdict_narrow.mpr ⟨rfl, rfl⟩, verdict_narrow.mpr ⟨rfl, rfl⟩]
        exact .narrow families items others
      · rw [verdict_rivals same, verdict_rivals (mt (AlikeFamilies.eq_iff branches families rivals).mpr same)]
        exact families.rivalry rivals

end Verdicts

end Interchange.Catalog
