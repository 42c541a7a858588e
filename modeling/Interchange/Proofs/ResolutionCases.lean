import Interchange.Catalog.Resolve
import Interchange.Proofs.CatalogSoundness

/-! The cases of the resolver. What happens to two different types depends on their
shapes alone; lists, sets and dictionaries with the same keys are treated alike. -/

namespace Interchange

/-- Collections that are reconciled item by item. -/
inductive Family where
  | list
  | set
  | dictionary (key : TypeId)
deriving DecidableEq

namespace Family

def shape : Family → TypeId → CollectionForm → Shape
  | list, item, form => .list item form
  | set, item, form => .set item form
  | dictionary key, value, form => .dictionary key value form

variable {family other : Family} {item bound : TypeId} {form wider : CollectionForm}

theorem shape_inj (same : family.shape item form = other.shape bound wider) :
    family = other ∧ item = bound ∧ form = wider := by
  cases family <;> cases other <;> cases same <;> exact ⟨rfl, rfl, rfl⟩

@[simp] theorem shape_name? : (family.shape item form).name? = none := by
  cases family <;> rfl

@[simp] theorem shape_symbols : (family.shape item form).symbols = [] := by
  cases family <;> rfl

theorem item_mem_parts : item ∈ (family.shape item form).parts := by
  cases family <;> simp [shape, Shape.parts]

theorem item_mem_foundation : item ∈ (family.shape item form).foundation := by
  cases family <;> simp [shape, Shape.foundation, Shape.parts]

theorem parts_shape {part : TypeId} (item : TypeId) (form : CollectionForm) (member : part ∈ (family.shape bound wider).parts) :
    part = bound ∨ part ∈ (family.shape item form).parts := by
  cases family <;> grind [shape, Shape.parts]

end Family

namespace Catalog

/-- What the shapes of two different types, neither of them universal, call for. -/
inductive Verdict where
  | exact
  | items (left right : TypeId)
  | left
  | right
  | narrow (family : Family) (leftItem : TypeId) (leftForm : CollectionForm) (rightItem : TypeId) (rightForm : CollectionForm)
  | keys (left right : TypeId)
  | families
  | interfaces

def verdict (left right : Shape) : Verdict :=
  if left.isExact || right.isExact then .exact
  else
    match left, right with
    | .array leftItem, .array rightItem => .items leftItem rightItem
    | .array leftItem, .list rightItem .readOnly => if leftItem = rightItem then .left else .families
    | .list leftItem .readOnly, .array rightItem => if leftItem = rightItem then .right else .families
    | .list leftItem leftForm, .list rightItem rightForm => .narrow .list leftItem leftForm rightItem rightForm
    | .set leftItem leftForm, .set rightItem rightForm => .narrow .set leftItem leftForm rightItem rightForm
    | .dictionary leftKey leftValue leftForm, .dictionary rightKey rightValue rightForm =>
      if leftKey = rightKey then .narrow (.dictionary leftKey) leftValue leftForm rightValue rightForm
      else .keys leftKey rightKey
    | left, right => if left.kind.isCollection && right.kind.isCollection then .families else .interfaces

def narrowed (catalog : Catalog) (left right : TypeId) (family : Family) (leftItem : TypeId) (leftForm : CollectionForm)
    (rightItem : TypeId) (rightForm : CollectionForm) (item : TypeId) : TypeId × Catalog :=
  catalog.chooseOrIntern left right (item = leftItem ∧ leftForm.common rightForm = leftForm)
    (item = rightItem ∧ leftForm.common rightForm = rightForm) (family.shape item (leftForm.common rightForm))

def follow (catalog : Catalog) (inner : TypeId → TypeId → Resolution) (left right : TypeId) (leftShape rightShape : Shape) :
    Verdict → Resolution
  | .exact => .error (.clash .incompatible left right)
  | .items leftItem rightItem => .error (.clash .itemMismatch leftItem rightItem)
  | .left => .ok (left, catalog)
  | .right => .ok (right, catalog)
  | .narrow family leftItem leftForm rightItem rightForm => do
    let (item, catalog) ← inner leftItem rightItem
    return catalog.narrowed left right family leftItem leftForm rightItem rightForm item
  | .keys leftKey rightKey => .error (.clash .keyMismatch leftKey rightKey)
  | .families => .error (.clash .familyMismatch left right)
  | .interfaces => catalog.resolveFamilies (leftShape.family left) (rightShape.family right) (.clash .incompatible left right)

variable {catalog : Catalog} {inner : TypeId → TypeId → Resolution} {left right : TypeId} {leftShape rightShape : Shape}

theorem resolveShapes_eq_follow (different : left ≠ right) (leftKnown : left.isAny = false) (rightKnown : right.isAny = false)
    (leftFound : catalog.shape? left = some leftShape) (rightFound : catalog.shape? right = some rightShape) :
    catalog.resolveShapes inner left right =
      catalog.follow inner left right leftShape rightShape (verdict leftShape rightShape) := by
  simp only [resolveShapes, different, leftKnown, rightKnown, leftFound, rightFound, verdict, ↓reduceIte, Bool.false_eq_true]
  split
  · rfl
  · split
    next => rfl
    next leftItem rightItem _ =>
      by_cases same : leftItem = rightItem
      · simp only [if_pos same, follow]
      · simp only [if_neg same, follow]
    next leftItem rightItem _ =>
      by_cases same : leftItem = rightItem
      · simp only [if_pos same, follow]
      · simp only [if_neg same, follow]
    next leftItem leftForm rightItem rightForm _ => cases leftForm <;> rfl
    next => rfl
    next leftKey leftValue leftForm rightKey rightValue rightForm _ =>
      by_cases same : leftKey = rightKey
      · simp only [if_pos same, follow]
        rfl
      · simp only [if_neg same, follow]
    next =>
      by_cases both : (leftShape.kind.isCollection && rightShape.kind.isCollection) = true
      · simp only [if_pos both, follow]
      · simp only [if_neg both, follow]

theorem verdict_narrow {family : Family} {leftItem rightItem : TypeId} {leftForm rightForm : CollectionForm} :
    verdict leftShape rightShape = .narrow family leftItem leftForm rightItem rightForm ↔
      leftShape = family.shape leftItem leftForm ∧ rightShape = family.shape rightItem rightForm := by
  constructor
  · intro judged
    unfold verdict at judged
    repeat' split at judged
    all_goals cases judged
    all_goals
      subst_vars
      exact ⟨rfl, rfl⟩
  · rintro ⟨rfl, rfl⟩
    cases family <;> cases leftForm <;> simp [verdict, Family.shape, Shape.isExact, Shape.isValue, Shape.kind]

theorem verdict_left (judged : verdict leftShape rightShape = .left) :
    ∃ item, leftShape = .array item ∧ rightShape = .list item .readOnly := by
  unfold verdict at judged
  repeat' split at judged
  all_goals cases judged
  subst_vars
  exact ⟨_, rfl, rfl⟩

theorem verdict_right (judged : verdict leftShape rightShape = .right) :
    ∃ item, leftShape = .list item .readOnly ∧ rightShape = .array item := by
  unfold verdict at judged
  repeat' split at judged
  all_goals cases judged
  subst_vars
  exact ⟨_, rfl, rfl⟩

theorem verdict_items {leftItem rightItem : TypeId} (judged : verdict leftShape rightShape = .items leftItem rightItem) :
    leftShape = .array leftItem ∧ rightShape = .array rightItem := by
  unfold verdict at judged
  repeat' split at judged
  all_goals cases judged
  exact ⟨rfl, rfl⟩

theorem verdict_keys {leftKey rightKey : TypeId} (judged : verdict leftShape rightShape = .keys leftKey rightKey) :
    leftKey ≠ rightKey ∧ ∃ leftValue leftForm rightValue rightForm,
      leftShape = .dictionary leftKey leftValue leftForm ∧ rightShape = .dictionary rightKey rightValue rightForm := by
  unfold verdict at judged
  repeat' split at judged
  all_goals cases judged
  exact ⟨‹_›, _, _, _, _, rfl, rfl⟩

/-- How two non-nullable types are reconciled, and what comes of it. -/
inductive Resolved (catalog : Catalog) (inner : TypeId → TypeId → Resolution) (left right : TypeId) :
    TypeId → Catalog → Prop where
  | same (equal : left = right) : Resolved catalog inner left right left catalog
  | anyLeft (universal : left.isAny = true) : Resolved catalog inner left right right catalog
  | anyRight (universal : right.isAny = true) : Resolved catalog inner left right left catalog
  | arrayLeft {item : TypeId} (leftFound : catalog.shape? left = some (.array item))
      (rightFound : catalog.shape? right = some (.list item .readOnly)) : Resolved catalog inner left right left catalog
  | arrayRight {item : TypeId} (leftFound : catalog.shape? left = some (.list item .readOnly))
      (rightFound : catalog.shape? right = some (.array item)) : Resolved catalog inner left right right catalog
  | narrow {family : Family} {leftItem rightItem item : TypeId} {leftForm rightForm : CollectionForm} {grown : Catalog}
      (leftFound : catalog.shape? left = some (family.shape leftItem leftForm))
      (rightFound : catalog.shape? right = some (family.shape rightItem rightForm))
      (resolved : inner leftItem rightItem = .ok (item, grown)) :
      Resolved catalog inner left right (grown.narrowed left right family leftItem leftForm rightItem rightForm item).1
        (grown.narrowed left right family leftItem leftForm rightItem rightForm item).2
  | derivedLeft {leftShape rightShape : Shape} (leftFound : catalog.shape? left = some leftShape)
      (rightFound : catalog.shape? right = some rightShape)
      (derived : leftShape.family left = rightShape.family right ∨
        catalog.derivesFrom? (leftShape.family left) (rightShape.family right) = some true) :
      Resolved catalog inner left right (leftShape.family left) catalog
  | derivedRight {leftShape rightShape : Shape} (leftFound : catalog.shape? left = some leftShape)
      (rightFound : catalog.shape? right = some rightShape)
      (derived : catalog.derivesFrom? (rightShape.family right) (leftShape.family left) = some true) :
      Resolved catalog inner left right (rightShape.family right) catalog

private theorem resolveFamilies_ok {clash : Conflict} {ty : TypeId} {final : Catalog}
    (resolved : catalog.resolveFamilies left right clash = .ok (ty, final)) :
    final = catalog ∧ (ty = left ∧ (left = right ∨ catalog.derivesFrom? left right = some true) ∨
      ty = right ∧ catalog.derivesFrom? right left = some true) := by
  unfold resolveFamilies at resolved
  repeat' split at resolved
  all_goals cases resolved
  · exact ⟨rfl, .inl ⟨rfl, .inl ‹_›⟩⟩
  · exact ⟨rfl, .inl ⟨rfl, .inr ‹_›⟩⟩
  · exact ⟨rfl, .inr ⟨rfl, ‹_›⟩⟩

theorem resolveShapes_ok {ty : TypeId} {final : Catalog} (resolved : catalog.resolveShapes inner left right = .ok (ty, final)) :
    Resolved catalog inner left right ty final := by
  by_cases equal : left = right
  · simp only [resolveShapes, equal, ↓reduceIte] at resolved
    cases resolved
    exact equal ▸ .same rfl
  cases leftAny : left.isAny with
  | true =>
    simp only [resolveShapes, equal, leftAny, ↓reduceIte] at resolved
    cases resolved
    exact .anyLeft leftAny
  | false =>
  cases rightAny : right.isAny with
  | true =>
    simp only [resolveShapes, equal, leftAny, rightAny, ↓reduceIte, Bool.false_eq_true] at resolved
    cases resolved
    exact .anyRight rightAny
  | false =>
  cases leftFound : catalog.shape? left with
  | none => simp [resolveShapes, equal, leftAny, rightAny, leftFound] at resolved
  | some leftShape =>
  cases rightFound : catalog.shape? right with
  | none => simp [resolveShapes, equal, leftAny, rightAny, leftFound, rightFound] at resolved
  | some rightShape =>
  rw [resolveShapes_eq_follow equal leftAny rightAny leftFound rightFound] at resolved
  cases judged : verdict leftShape rightShape with
  | exact => simp [judged, follow] at resolved
  | items => simp [judged, follow] at resolved
  | keys => simp [judged, follow] at resolved
  | families => simp [judged, follow] at resolved
  | left =>
    obtain ⟨item, rfl, rfl⟩ := verdict_left judged
    simp only [judged, follow] at resolved
    cases resolved
    exact .arrayLeft leftFound rightFound
  | right =>
    obtain ⟨item, rfl, rfl⟩ := verdict_right judged
    simp only [judged, follow] at resolved
    cases resolved
    exact .arrayRight leftFound rightFound
  | narrow family leftItem leftForm rightItem rightForm =>
    obtain ⟨rfl, rfl⟩ := verdict_narrow.mp judged
    simp only [judged, follow] at resolved
    cases recursive : inner leftItem rightItem with
    | error conflict => simp [recursive, bind, Except.bind] at resolved
    | ok result =>
      simp only [recursive, bind, Except.bind, pure, Except.pure, Except.ok.injEq] at resolved
      obtain ⟨rfl, rfl⟩ := Prod.ext_iff.mp resolved
      exact .narrow leftFound rightFound recursive
  | interfaces =>
    simp only [judged, follow] at resolved
    obtain ⟨rfl, ⟨rfl, derived⟩ | ⟨rfl, derived⟩⟩ := resolveFamilies_ok resolved
    · exact .derivedLeft leftFound rightFound derived
    · exact .derivedRight leftFound rightFound derived

end Catalog
end Interchange
