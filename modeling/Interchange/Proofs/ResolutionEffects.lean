import Interchange.Proofs.CatalogIdentity
import Interchange.Proofs.ResolutionSymmetry

/-! What reconciliation leaves behind. It is read here as work on one table, where whatever has been entered stays there even
if a later step fails. Such work fails before it has entered anything. When it succeeds, it has entered at most one collection
for each level of nesting, behind all that was there. -/

namespace Interchange

/-- How many collections that are reconciled item by item stand inside each other. -/
def Structure.levels : Structure → Nat
  | .list item _ | .set item _ | .dictionary _ item _ => item.levels + 1
  | .nullable inner => inner.levels
  | _ => 0

namespace Catalog

/-- Work on one table, which is left as it stands at the moment of a failure. -/
abbrev Work := ExceptT Conflict (StateM Catalog)

def Work.on {α : Type} (work : Work α) (catalog : Catalog) : Except Conflict α × Catalog :=
  StateT.run (ExceptT.run work) catalog

namespace Work

variable {α β : Type} {work : Work α} {next : α → Work β} {catalog later : Catalog}

theorem bind_ok {value : α} (done : work.on catalog = (.ok value, later)) : (work >>= next).on catalog = (next value).on later := by
  have opened : (work >>= next).on catalog =
      (ExceptT.bindCont next (work.on catalog).1).run (work.on catalog).2 := rfl
  rw [opened, done]
  rfl

theorem bind_error {conflict : Conflict} (failed : work.on catalog = (.error conflict, later)) :
    (work >>= next).on catalog = (.error conflict, later) := by
  have opened : (work >>= next).on catalog =
      (ExceptT.bindCont next (work.on catalog).1).run (work.on catalog).2 := rfl
  rw [opened, failed]
  rfl

end Work

def followInPlace (inner : TypeId → TypeId → Work TypeId) (left right : TypeId) (leftShape rightShape : Shape) :
    Verdict → Work TypeId
  | .exact => throw (.clash .incompatible left right)
  | .items leftItem rightItem => throw (.clash .itemMismatch leftItem rightItem)
  | .left => pure left
  | .right => pure right
  | .narrow family leftItem leftForm rightItem rightForm => do
    let item ← inner leftItem rightItem
    modifyGet fun catalog => catalog.narrowed left right family leftItem leftForm rightItem rightForm item
  | .keys leftKey rightKey => throw (.clash .keyMismatch leftKey rightKey)
  | .families => throw (.clash .familyMismatch left right)
  | .interfaces => do
    let catalog ← get
    let result ← MonadExcept.ofExcept
      (catalog.resolveFamilies (leftShape.family left) (rightShape.family right) (.clash .incompatible left right))
    set result.2
    return result.1

def resolveShapesInPlace (inner : TypeId → TypeId → Work TypeId) (left right : TypeId) : Work TypeId :=
  if left = right then pure left
  else if left.isAny then pure right
  else if right.isAny then pure left
  else do
    let catalog ← get
    match catalog.shape? left, catalog.shape? right with
    | some leftShape, some rightShape =>
      followInPlace inner left right leftShape rightShape (verdict leftShape rightShape)
    | _, _ => throw .unregistered

def resolveInPlace : Nat → TypeId → TypeId → Work TypeId
  | 0, _, _ => throw .unregistered
  | depth + 1, left, right => do
    let ty ← resolveShapesInPlace (resolveInPlace depth) left.nonNull right.nonNull
    return ty.withNullability (left.nullable && right.nullable)

/-- The outcome of a reconciliation with the table that is then in force: after a conflict, the one from before. -/
def settled (catalog : Catalog) : Resolution → Except Conflict TypeId × Catalog
  | .ok (ty, later) => (.ok ty, later)
  | .error conflict => (.error conflict, catalog)

section InPlace

variable {catalog : Catalog} {left right : TypeId} {inner : TypeId → TypeId → Work TypeId} {plain : TypeId → TypeId → Resolution}

/-- Nothing is entered before the items are reconciled, and nothing can fail afterwards. -/
theorem followInPlace_on (items : ∀ left right, (inner left right).on catalog = catalog.settled (plain left right))
    (leftShape rightShape : Shape) (judged : Verdict) :
    (followInPlace inner left right leftShape rightShape judged).on catalog =
      catalog.settled (catalog.follow plain left right leftShape rightShape judged) := by
  cases judged with
  | exact | items | left | right | keys | families => rfl
  | narrow family leftItem leftForm rightItem rightForm =>
    have recursive := items leftItem rightItem
    simp only [followInPlace, follow]
    cases outcome : plain leftItem rightItem with
    | error conflict =>
      rw [outcome] at recursive
      exact Work.bind_error recursive
    | ok result =>
      rw [outcome] at recursive
      exact Work.bind_ok recursive
  | interfaces =>
    have read : (get : Work Catalog).on catalog = (.ok catalog, catalog) := rfl
    simp only [followInPlace, follow]
    rw [Work.bind_ok read]
    cases catalog.resolveFamilies (leftShape.family left) (rightShape.family right) (.clash .incompatible left right) <;> rfl

theorem resolveShapesInPlace_on (items : ∀ left right, (inner left right).on catalog = catalog.settled (plain left right)) :
    (resolveShapesInPlace inner left right).on catalog = catalog.settled (catalog.resolveShapes plain left right) := by
  by_cases equal : left = right
  · simp only [resolveShapesInPlace, resolveShapes, equal, ↓reduceIte]
    rfl
  cases leftAny : left.isAny with
  | true =>
    simp only [resolveShapesInPlace, resolveShapes, equal, leftAny, ↓reduceIte]
    rfl
  | false =>
  cases rightAny : right.isAny with
  | true =>
    simp only [resolveShapesInPlace, resolveShapes, equal, leftAny, rightAny, ↓reduceIte, Bool.false_eq_true]
    rfl
  | false =>
    have read : (get : Work Catalog).on catalog = (.ok catalog, catalog) := rfl
    cases leftFound : catalog.shape? left with
    | none =>
      simp only [resolveShapesInPlace, resolveShapes, equal, leftAny, rightAny, leftFound, ↓reduceIte, Bool.false_eq_true]
      rw [Work.bind_ok read, leftFound]
      rfl
    | some leftShape =>
    cases rightFound : catalog.shape? right with
    | none =>
      simp only [resolveShapesInPlace, resolveShapes, equal, leftAny, rightAny, leftFound, rightFound, ↓reduceIte,
        Bool.false_eq_true]
      rw [Work.bind_ok read, leftFound, rightFound]
      rfl
    | some rightShape =>
      rw [resolveShapes_eq_follow equal leftAny rightAny leftFound rightFound]
      simp only [resolveShapesInPlace, equal, leftAny, rightAny, ↓reduceIte, Bool.false_eq_true]
      rw [Work.bind_ok read, leftFound, rightFound]
      exact followInPlace_on items leftShape rightShape _

/-- Whether the table is changed in place or handed on, one type comes out and one table is left. -/
theorem resolveInPlace_on (depth : Nat) (left right : TypeId) :
    (resolveInPlace depth left right).on catalog = catalog.settled (catalog.resolveWithin depth left right) := by
  induction depth generalizing left right with
  | zero => rfl
  | succ depth ih =>
    have bare : (resolveShapesInPlace (resolveInPlace depth) left.nonNull right.nonNull).on catalog = _ :=
      resolveShapesInPlace_on ih
    simp only [resolveInPlace, resolveWithin]
    cases outcome : catalog.resolveShapes (catalog.resolveWithin depth) left.nonNull right.nonNull with
    | error conflict =>
      rw [outcome] at bare
      exact Work.bind_error bare
    | ok result =>
      rw [outcome] at bare
      exact Work.bind_ok bare

end InPlace

def append (catalog : Catalog) (shapes : List Shape) : Catalog :=
  .ofEntries catalog.strings (catalog.entries ++ (shapes.map fun shape => { shape : Entry }).toArray)

/-- What is added to a table when two of its types are reconciled: nothing if the type that comes out was there before, and
else one collection for each of the outer levels, the innermost one first. -/
inductive Adds (catalog : Catalog) : TypeId → TypeId → TypeId → List Shape → Prop where
  | nothing {left right ty : TypeId} (known : catalog.contains ty = true) : Adds catalog left right ty []
  | level {left right ty leftItem rightItem item : TypeId} {family : Family} {leftForm rightForm : CollectionForm}
      {added : List Shape} (leftFound : catalog.shape? left = some (family.shape leftItem leftForm))
      (rightFound : catalog.shape? right = some (family.shape rightItem rightForm))
      (items : Adds catalog leftItem rightItem item added)
      (fresh : ∀ ty, (catalog.append added).shape? ty ≠ some (family.shape item (leftForm.common rightForm)))
      (last : ty.pair = catalog.size + added.length) :
      Adds catalog left right ty (added ++ [family.shape item (leftForm.common rightForm)])

section Append

variable {catalog : Catalog} {ty : TypeId} {shapes : List Shape}

@[simp] theorem append_nil : catalog.append [] = catalog :=
  ext_entries rfl (by simp [append, ofEntries])

@[simp] theorem append_size : (catalog.append shapes).size = catalog.size + shapes.length := by
  simp [append, ofEntries, size]

/-- Another shape is entered behind those that were added. -/
theorem append_push (shape : Shape) : ((catalog.append shapes).push { shape }).2 = catalog.append (shapes ++ [shape]) :=
  ext_entries rfl (by simp [append, ofEntries, push])

theorem append_lookup (inside : catalog.contains ty = true) : entry? (catalog.append shapes) ty = catalog.entry? ty := by
  have bound := contains_iff.mp inside
  simp only [append, ofEntries, entry?]
  exact Array.getElem?_append_left bound

end Append

namespace Adds

variable {catalog : Catalog} {left right ty : TypeId} {added : List Shape}

/-- If anything was added, the type that comes out is the last of it. -/
theorem last_pair (adds : catalog.Adds left right ty added) (nonempty : added ≠ []) :
    ty.pair + 1 = (catalog.append added).size := by
  cases adds with
  | nothing => exact absurd rfl nonempty
  | level leftFound rightFound items fresh last =>
    simp only [append_size, List.length_append, List.length_singleton, last]
    omega

theorem eq_nil (adds : catalog.Adds left right ty added) (known : catalog.contains ty = true) : added = [] := by
  by_contra nonempty
  have last := adds.last_pair nonempty
  have inside := contains_iff.mp known
  have longer := List.length_pos_iff.mpr nonempty
  rw [append_size] at last
  omega

theorem kinds (adds : catalog.Adds left right ty added) :
    ∀ shape ∈ added, shape.kind = .list ∨ shape.kind = .set ∨ shape.kind = .dictionary := by
  induction adds with
  | nothing => simp
  | @level _ _ _ _ _ _ family _ _ _ leftFound rightFound items fresh last ih =>
    intro shape member
    rcases List.mem_append.mp member with earlier | here
    · exact ih shape earlier
    · rw [List.mem_singleton.mp here]
      cases family <;> simp [Family.shape, Shape.kind]

end Adds

section Levels

variable {catalog : Catalog} {left right ty item : TypeId} {family : Family} {form : CollectionForm} {added : List Shape}

def levels (catalog : Catalog) (ty : TypeId) : Nat :=
  ((catalog.unfolded? ty).map Structure.levels).getD 0

theorem levels_collection (sound : catalog.Sound) (found : catalog.shape? ty = some (family.shape item form)) :
    catalog.levels ty = catalog.levels item + 1 := by
  have part (known : TypeId) (member : known ∈ (family.shape item form).parts) : ∃ written, catalog.unfolded? known = some written :=
    Option.isSome_iff_exists.mp (sound.canonical.unfolds known (sound.mentioned found (family.shape_mentions .. ▸ member)))
  obtain ⟨inside, written⟩ := part item Family.item_mem_parts
  have whole := unfolded?_eq sound found
  cases family with
  | list | set =>
    simp only [Family.shape, unfoldShape, written, Option.map_some] at whole
    cases nullable : ty.nullable <;> simp [levels, whole, written, nullable, Structure.levels]
  | dictionary key =>
    obtain ⟨name, spelled⟩ := part key (by simp [Family.shape, Shape.parts])
    simp only [Family.shape, unfoldShape, spelled, written, Option.bind_eq_bind, Option.bind_some] at whole
    cases nullable : ty.nullable <;> simp [levels, whole, written, nullable, Structure.levels]

/-- No more is added than either operand has levels. -/
theorem Adds.length_le (adds : catalog.Adds left right ty added) (sound : catalog.Sound) :
    added.length ≤ catalog.levels left ∧ added.length ≤ catalog.levels right := by
  induction adds with
  | nothing => exact ⟨Nat.zero_le _, Nat.zero_le _⟩
  | level leftFound rightFound items fresh last ih =>
    rw [levels_collection sound leftFound, levels_collection sound rightFound, List.length_append, List.length_singleton]
    omega

end Levels

section Resolution

variable {catalog final : Catalog} {left right leftItem rightItem item ty : TypeId} {family : Family}
  {leftForm rightForm : CollectionForm} {added : List Shape}

/-- A collection over a type that was just entered is not in the table. -/
theorem Adds.eq_nil_of_shape (adds : catalog.Adds leftItem rightItem item added) (sound : (catalog.append added).Sound)
    (found : (catalog.append added).shape? ty = some (family.shape item leftForm)) : added = [] := by
  by_contra nonempty
  -- Parts are older than what is made of them, but nothing is younger than this item.
  have last := adds.last_pair nonempty
  have older := parts_older sound found item Family.item_mem_parts
  have inside := contains_iff.mp (contains_of_shape found)
  omega

/-- On the way back from the items, the collection over them is added unless it is there already. -/
theorem narrowed_adds (sound : catalog.Sound) (leftFound : catalog.shape? left = some (family.shape leftItem leftForm))
    (rightFound : catalog.shape? right = some (family.shape rightItem rightForm)) (later : (catalog.append added).Sound)
    (adds : catalog.Adds leftItem rightItem item added) :
    ∃ further, ((catalog.append added).narrowed left right family leftItem leftForm rightItem rightForm item).2 =
        catalog.append further ∧
      catalog.Adds left right
        ((catalog.append added).narrowed left right family leftItem leftForm rightItem rightForm item).1 further := by
  unfold narrowed chooseOrIntern
  split
  next isLeft =>
    obtain ⟨rfl, -⟩ := of_decide_eq_true isLeft
    cases adds.eq_nil (sound.item_known leftFound)
    exact ⟨[], rfl, .nothing (contains_of_shape leftFound)⟩
  next =>
    split
    next isRight =>
      obtain ⟨rfl, -⟩ := of_decide_eq_true isRight
      cases adds.eq_nil (sound.item_known rightFound)
      exact ⟨[], rfl, .nothing (contains_of_shape rightFound)⟩
    next =>
      obtain ⟨pair, same, found⟩ | ⟨fresh, same⟩ :=
        (catalog.append added).intern_cases (family.shape item (leftForm.common rightForm))
      · -- The shape can only be there already if the items added nothing.
        cases adds.eq_nil_of_shape later found
        rw [append_nil] at found
        rw [same]
        exact ⟨[], rfl, .nothing (contains_of_shape found)⟩
      · rw [same]
        exact ⟨_, append_push _, .level leftFound rightFound adds (fresh Family.shape_name?) append_size⟩

theorem Adds.withNullability (adds : catalog.Adds left.nonNull right.nonNull ty added) (nullable : Bool) :
    catalog.Adds left right (ty.withNullability nullable) added := by
  cases adds with
  | nothing known => exact .nothing known
  | level leftFound rightFound items fresh last => exact .level leftFound rightFound items fresh last

/-- However deep the operands are nested, what a reconciliation adds stands in order behind the table it began with. -/
theorem resolveWithin_adds {depth : Nat} (sound : catalog.Sound) (leftKnown : catalog.contains left = true)
    (rightKnown : catalog.contains right = true) (resolved : catalog.resolveWithin depth left right = .ok (ty, final)) :
    ∃ added, final = catalog.append added ∧ catalog.Adds left right ty added := by
  induction depth generalizing left right ty final with
  | zero => cases resolved
  | succ depth ih =>
    obtain ⟨-, known⟩ := resolveWithin_growth sound leftKnown rightKnown resolved
    obtain ⟨bare, outcome, rfl⟩ := resolveWithin_ok resolved
    cases outcome with
    | @narrow family leftItem rightItem item leftForm rightForm grown leftFound rightFound recursive =>
      have leftInside := sound.item_known leftFound
      have rightInside := sound.item_known rightFound
      obtain ⟨growth, -⟩ := resolveWithin_growth sound leftInside rightInside recursive
      obtain ⟨added, rfl, adds⟩ := ih leftInside rightInside recursive
      obtain ⟨further, same, whole⟩ := narrowed_adds sound leftFound rightFound (growth.sound sound) adds
      exact ⟨further, same, whole.withNullability _⟩
    | same | anyLeft | anyRight | arrayLeft | arrayRight | derivedLeft | derivedRight =>
      exact ⟨[], append_nil.symm, .nothing known⟩

end Resolution

end Catalog

namespace Builder

variable {builder : Builder} {left right : TypeId}

/-- Reconciles two types in place; what is left of the builder is shown after a conflict, too. -/
def resolveInPlace (builder : Builder) (left right : TypeId) : Except Conflict TypeId × Builder :=
  let result := (Catalog.resolveInPlace (builder.catalog.size + 1) left right).on builder.catalog
  (result.1, { builder with catalog := result.2 })

theorem resolveInPlace_eq (builder : Builder) (left right : TypeId) : builder.resolveInPlace left right =
    ((builder.catalog.settled (builder.catalog.resolvePair left right)).1,
      { builder with catalog := (builder.catalog.settled (builder.catalog.resolvePair left right)).2 }) := by
  rw [resolveInPlace, Catalog.resolveInPlace_on, Catalog.resolvePair]

/-- Two registered types clash, and the builder is left as it was; or they are reconciled, and collections are added behind
the types of the builder, at most one for each level on which both operands are nested. -/
theorem resolvePair_adds (reached : builder.Reached) (upward : builder.catalog.AbstractAbove)
    (leftKnown : builder.catalog.contains left = true) (rightKnown : builder.catalog.contains right = true) :
    (∃ reason first second, builder.resolvePair left right = .error (.clash reason first second) ∧
      builder.resolveInPlace left right = (.error (.clash reason first second), builder)) ∨
    ∃ ty added later, builder.resolvePair left right = .ok (ty, later) ∧ builder.resolveInPlace left right = (.ok ty, later) ∧
      later = { builder with catalog := builder.catalog.append added } ∧ builder.catalog.Adds left right ty added ∧
      (∀ shape ∈ added, shape.kind = .list ∨ shape.kind = .set ∨ shape.kind = .dictionary) ∧
      added.length ≤ builder.catalog.levels left ∧ added.length ≤ builder.catalog.levels right ∧
      ∀ ty, builder.catalog.contains ty = true → later.catalog.entry? ty = builder.catalog.entry? ty := by
  have sound := Reached.sound reached
  have mirrored := resolvePair_mirrored reached upward leftKnown rightKnown
  rw [resolvePair_eq, resolveInPlace_eq]
  generalize forward : builder.catalog.resolvePair left right = outcome at mirrored ⊢
  generalize builder.catalog.resolvePair right left = other at mirrored
  cases mirrored with
  | ok ty later =>
    obtain ⟨added, rfl, adds⟩ := Catalog.resolveWithin_adds sound leftKnown rightKnown forward
    obtain ⟨leftBound, rightBound⟩ := adds.length_le sound
    exact .inr ⟨ty, added, _, rfl, rfl, rfl, adds, adds.kinds, leftBound, rightBound, fun _ => Catalog.append_lookup⟩
  | error reason first second => exact .inl ⟨reason, first, second, rfl, rfl⟩

/-- The lists of the harbour, kept by name. -/
def moorings : Builder :=
  harbour.replay [.dictionary BasicType.string.id (.ofPair 22) .abstract, .dictionary BasicType.string.id (.ofPair 23) .readOnly,
    .dictionary BasicType.string.id (.ofPair 24) .abstract]

theorem moorings_reached : moorings.OrderlyReached :=
  harbour_reached.replay (by decide +kernel)

/-- One collection is added on each of two levels; a clash below them leaves the builder as it was. -/
theorem resolvePair_adds_moorings : moorings.Reached ∧ moorings.catalog.AbstractAbove ∧
    (∃ later added, moorings.resolvePair (.ofPair 25) (.ofPair 26) = .ok (.ofPair 29, later) ∧
      later.catalog = moorings.catalog.append added ∧ added.length = 2 ∧ moorings.catalog.levels (.ofPair 25) = 2) ∧
    moorings.resolveInPlace (.ofPair 25) (.ofPair 27) =
      (.error (.clash .incompatible (.ofPair 19) BasicType.int.id), moorings) := by
  have reached := OrderlyReached.reached moorings_reached
  have upward := (OrderlyReached.hierarchical moorings_reached).upward
  have known : ∀ pair < 28, moorings.catalog.contains (.ofPair pair) = true := by decide +kernel
  have effects (left right : Nat) (leftInside : left < 28) (rightInside : right < 28) :=
    resolvePair_adds reached upward (known left leftInside) (known right rightInside)
  refine ⟨reached, upward, ?_, ?_⟩
  · have answered : (moorings.resolvePair (.ofPair 25) (.ofPair 26)).map (fun result => (result.1, result.2.catalog.size)) =
        .ok (.ofPair 29, moorings.catalog.size + 2) := by decide +kernel
    rcases effects 25 26 (by decide) (by decide) with ⟨reason, first, second, failed, -⟩ | ⟨ty, added, later, ok, -, rfl, -⟩
    · rw [failed] at answered
      cases answered
    · rw [ok] at answered
      simp only [Except.map, Except.ok.injEq, Prod.mk.injEq, Catalog.append_size, Nat.add_left_cancel_iff] at answered
      obtain ⟨rfl, two⟩ := answered
      exact ⟨_, added, ok, rfl, two, by decide +kernel⟩
  · have clashed : (moorings.resolvePair (.ofPair 25) (.ofPair 27)).map Prod.fst =
        .error (.clash .incompatible (.ofPair 19) BasicType.int.id) := by decide +kernel
    rcases effects 25 27 (by decide) (by decide) with ⟨reason, first, second, failed, left⟩ | ⟨ty, added, later, ok, -⟩
    · rw [failed] at clashed
      cases clashed
      exact left
    · rw [ok] at clashed
      cases clashed

end Builder
end Interchange
