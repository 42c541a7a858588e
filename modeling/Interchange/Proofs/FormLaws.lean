import Interchange.Proofs.TablePersistence

/-! The laws of normal forms. Being a form of a type is a relation between the types of a
table, whatever has been computed so far. Both forms are unique and stable, and they commute. -/

namespace Interchange

section Dedup

variable {α β : Type} [BEq α] [LawfulBEq α] [BEq β] [LawfulBEq β]

private theorem filter_eraseDups (keep : α → Bool) (items : List α) :
    items.eraseDups.filter keep = (items.filter keep).eraseDups := by
  cases items with
  | nil => rfl
  | cons item rest =>
    have inner := filter_eraseDups keep (rest.filter fun other => !other == item)
    rw [List.eraseDups_cons, List.filter_cons, List.filter_cons, inner]
    split
    next kept =>
      rw [List.eraseDups_cons, List.filter_filter, List.filter_filter]
      simp only [Bool.and_comm]
    next dropped =>
      -- An item that is dropped takes its copies with it.
      congr 1
      rw [List.filter_filter]
      apply List.filter_congr
      intro other member
      by_cases same : other = item
      · simp [same, dropped]
      · simp [same]
termination_by items.length
decreasing_by exact Nat.lt_succ_of_le (List.length_filter_le _ _)

/-- Copies that go before a map would also go after it. -/
theorem map_eraseDups (image : α → β) (items : List α) :
    (items.eraseDups.map image).eraseDups = (items.map image).eraseDups := by
  cases items with
  | nil => rfl
  | cons item rest =>
    have inner := map_eraseDups image (rest.filter fun other => !image other == image item)
    have absorbed : (rest.filter fun other => !other == item).filter (fun other => !image other == image item) =
        rest.filter fun other => !image other == image item := by
      rw [List.filter_filter]
      apply List.filter_congr
      intro other member
      by_cases same : other = item
      · simp [same]
      · simp [same]
    rw [List.eraseDups_cons, List.map_cons, List.map_cons, List.eraseDups_cons, List.eraseDups_cons, List.filter_map,
      List.filter_map, filter_eraseDups]
    congr 1
    exact (congrArg (fun kept => (kept.eraseDups.map image).eraseDups) absorbed).trans inner
termination_by items.length
decreasing_by exact Nat.lt_succ_of_le (List.length_filter_le _ _)

end Dedup

namespace Shape

variable {shape : Shape} {part other : TypeId → TypeId} {ty : TypeId}

theorem unionOf_eraseDups (members : List TypeId) (image : TypeId → TypeId) :
    unionOf (members.eraseDups.map image) = unionOf (members.map image) :=
  congrArg Shape.union (map_eraseDups image members)

@[simp] theorem erase_name? (shape : Shape) (part : TypeId → TypeId) : (shape.erase part).name? = shape.name? := by
  cases shape <;> rfl

@[simp] theorem erase_isValue (shape : Shape) (part : TypeId → TypeId) : (shape.erase part).isValue = shape.isValue := by
  cases shape <;> rfl

@[simp] theorem erase_isReadOnly (shape : Shape) (part : TypeId → TypeId) :
    (shape.erase part).isReadOnly = shape.isReadOnly := by
  cases shape <;> rfl

@[simp] theorem regularize_name? (shape : Shape) (part : TypeId → TypeId) : (shape.regularize part).name? = shape.name? := by
  cases shape <;> rfl

@[simp] theorem regularize_isValue (shape : Shape) (part : TypeId → TypeId) :
    (shape.regularize part).isValue = shape.isValue := by
  cases shape <;> rfl

theorem regularize_kind (shape : Shape) (part : TypeId → TypeId) : (shape.regularize part).kind = shape.kind := by
  cases shape <;> rfl

/-- Nothing read-only is left on top. -/
@[simp] theorem regularize_isReadOnly (shape : Shape) (part : TypeId → TypeId) :
    (shape.regularize part).isReadOnly = false := by
  cases shape <;> rfl

theorem erase_named {name : Symbol} (named : shape.name? = some name) : shape.erase part = shape := by
  cases shape <;> first | rfl | cases named

theorem regularize_named {name : Symbol} (named : shape.name? = some name) : shape.regularize part = shape := by
  cases shape <;> first | rfl | cases named

theorem regularize_eq_basic {type : BasicType} : shape.regularize part = .basic type ↔ shape = .basic type := by
  cases shape <;> simp [regularize, unionOf]

theorem mem_parts_erase : ty ∈ (shape.erase part).parts ↔ ∃ old ∈ shape.parts, part old = ty := by
  cases shape with
  | tuple elements =>
    have images : (erase part (tuple elements)).parts = (tuple elements).parts.map part := by
      simp [erase, parts, TupleElement.positional]
    rw [images, List.mem_map]
  | _ => simp [erase, parts, unionOf, eq_comm (a := ty)]

theorem mem_parts_regularize : ty ∈ (shape.regularize part).parts ↔ ∃ old ∈ shape.parts, part old = ty := by
  cases shape with
  | tuple elements =>
    have images : (regularize part (tuple elements)).parts = (tuple elements).parts.map part := by
      simp [regularize, parts]
    rw [images, List.mem_map]
  | _ => simp [regularize, parts, unionOf, eq_comm (a := ty)]

theorem erase_congr (agree : ∀ old ∈ shape.parts, part old = other old) : shape.erase part = shape.erase other := by
  cases shape with
  | tuple elements =>
    simp only [erase, tuple.injEq, List.map_inj_left]
    intro element member
    rw [agree element.ty (List.mem_map_of_mem member)]
  | union members => exact congrArg unionOf (List.map_inj_left.mpr agree)
  | array | list | set | dictionary => simp_all [erase, parts]
  | _ => rfl

theorem regularize_congr (agree : ∀ old ∈ shape.parts, part old = other old) :
    shape.regularize part = shape.regularize other := by
  cases shape with
  | tuple elements =>
    simp only [regularize, tuple.injEq, List.map_inj_left]
    intro element member
    rw [agree element.ty (List.mem_map_of_mem member)]
  | union members => exact congrArg unionOf (List.map_inj_left.mpr agree)
  | array | list | set | dictionary => simp_all [regularize, parts]
  | _ => rfl

theorem erase_erase (shape : Shape) : (shape.erase part).erase other = shape.erase fun ty => other (part ty) := by
  cases shape with
  | tuple elements => simp [erase, TupleElement.positional]
  | union members =>
    rw [erase, unionOf, erase, erase, unionOf_eraseDups, List.map_map]
    rfl
  | _ => rfl

theorem regularize_regularize (shape : Shape) :
    (shape.regularize part).regularize other = shape.regularize fun ty => other (part ty) := by
  cases shape with
  | tuple elements => simp [regularize]
  | union members =>
    rw [regularize, unionOf, regularize, regularize, unionOf_eraseDups, List.map_map]
    rfl
  | _ => rfl

/-- What erases after regularizing, regularizes after erasing: if it does so for the parts, it does for the whole. -/
theorem regularize_erase {part' other' : TypeId → TypeId} (square : ∀ old ∈ shape.parts, other (part old) = part' (other' old)) :
    (shape.erase part).regularize other = (shape.regularize other').erase part' := by
  cases shape with
  | tuple elements =>
    simp only [erase, regularize, TupleElement.positional, List.map_map, tuple.injEq, List.map_inj_left, Function.comp_apply]
    intro element member
    rw [square element.ty (List.mem_map_of_mem member)]
  | union members =>
    have images : (members.map part).map other = (members.map other').map part' := by
      rw [List.map_map, List.map_map]
      exact List.map_inj_left.mpr square
    have left := unionOf_eraseDups (members.map part) other
    have right := unionOf_eraseDups (members.map other') part'
    exact left.trans ((congrArg unionOf images).trans right.symm)
  | array | list | set | dictionary => simp_all [erase, regularize, parts]
  | _ => rfl

theorem isValue_of_outline {before after : Shape} (same : after.outline = before.outline) : after.isValue = before.isValue := by
  have outlined (shape : Shape) : shape.outline.isValue = shape.isValue := by cases shape <;> rfl
  rw [← outlined, same, outlined]

theorem anonymous_of_readOnly (readOnly : shape.isReadOnly = true) : shape.name? = none := by
  cases shape <;> first | rfl | cases readOnly

end Shape

namespace Catalog

inductive Erased (catalog : Catalog) : TypeId → TypeId → Prop where
  | intro {ty form : TypeId} {shape : Shape} {part : TypeId → TypeId} (found : catalog.shape? ty = some shape)
      (made : catalog.shape? form = some (shape.erase part)) (parts : ∀ old ∈ shape.parts, Erased catalog old (part old))
      (nullable : form.nullable = (!shape.isValue || ty.nullable)) : Erased catalog ty form

/-- The second type is the regular form of the first, or the first is read-only and stays as it is. -/
inductive Regularized (catalog : Catalog) : TypeId → TypeId → Prop where
  | keep {ty : TypeId} {shape : Shape} (found : catalog.shape? ty = some shape) (readOnly : shape.isReadOnly = true) :
      Regularized catalog ty ty
  | intro {ty form : TypeId} {shape : Shape} {part : TypeId → TypeId} (found : catalog.shape? ty = some shape)
      (writable : shape.isReadOnly = false) (made : catalog.shape? form = some (shape.regularize part))
      (parts : ∀ old ∈ shape.parts, Regularized catalog old (part old)) (nullable : form.nullable = ty.nullable) :
      Regularized catalog ty form

variable {catalog before after : Catalog} {fits : Catalog → Shape → Prop} {ty form left right : TypeId}

/-- A shape of one table is the shape of one pair. -/
theorem Sound.eq_of_shape (sound : catalog.Sound) {shape : Shape} (first : catalog.shape? left = some shape)
    (second : catalog.shape? right = some shape) (nullable : left.nullable = right.nullable) : left = right :=
  TypeId.ext_iff_pair.mpr ⟨sound.same_shape first second, nullable⟩

namespace Erased

/-- A type has one oblivious form at most. -/
theorem functional (sound : catalog.Sound) (first : Erased catalog ty left) (second : Erased catalog ty right) :
    left = right := by
  induction first generalizing right with
  | @intro ty left shape part found made parts nullable ih =>
    cases second with
    | @intro _ _ _ part' found' made' parts' nullable' =>
      rw [found] at found'
      cases found'
      have agree : shape.erase part = shape.erase part' :=
        Shape.erase_congr fun old member => ih old member (parts' old member)
      exact sound.eq_of_shape made (agree ▸ made') (nullable.trans nullable'.symm)

/-- An oblivious form is its own oblivious form. -/
theorem stable (erased : Erased catalog ty form) : Erased catalog form form := by
  induction erased with
  | @intro ty form shape part found made parts nullable ih =>
    have again : (shape.erase part).erase id = shape.erase part := shape.erase_erase
    refine .intro made (again.symm ▸ made) ?_ ?_
    · intro new member
      obtain ⟨old, present, rfl⟩ := Shape.mem_parts_erase.mp member
      exact ih old present
    · rw [nullable, Shape.erase_isValue]
      cases shape.isValue <;> rfl

/-- Both types of a pair have their forms in one pair. -/
theorem of_pair (erased : Erased catalog ty form) {other : TypeId} (same : other.pair = ty.pair) :
    ∃ later, later.pair = form.pair ∧ Erased catalog other later := by
  cases erased with
  | @intro _ _ shape part found made parts nullable =>
    refine ⟨⟨form.pair, !shape.isValue || other.nullable⟩, rfl, ?_⟩
    exact .intro ((shape?_of_pair same).trans found) made parts rfl

/-- What is a form stays one, whatever is entered or filled in later. -/
theorem later (edits : Edits fits before after) (sound : before.Sound) (erased : Erased before ty form) :
    Erased after ty form := by
  induction erased with
  | @intro ty form shape part found made parts nullable ih =>
    obtain ⟨later, kept, same⟩ := edits.outline found
    obtain ⟨laterForm, madeKept, madeSame⟩ := edits.outline made
    cases named : shape.name? with
    | none =>
      have remade : laterForm = shape.erase part :=
        Shape.eq_of_outline_anonymous madeSame ((shape.erase_name? part).trans named)
      cases Shape.eq_of_outline_anonymous same named
      exact .intro kept (remade ▸ madeKept) ih nullable
    | some name =>
      have laterNamed : later.name? = some name := by rw [← Shape.outline_name?, same, Shape.outline_name?, named]
      -- A named type is its own form, so both lookups are one.
      rw [Shape.erase_named named] at made
      have paired : form.pair = ty.pair := sound.same_shape made found
      refine @Erased.intro after ty form later part kept ?_ ?_ ?_
      · rw [Shape.erase_named laterNamed, shape?_of_pair paired, kept]
      · simp [Shape.parts_named laterNamed]
      · rw [Shape.isValue_of_outline same, nullable]

end Erased

namespace Regularized

/-- A type has one regular form at most. -/
theorem functional (sound : catalog.Sound) (first : Regularized catalog ty left) (second : Regularized catalog ty right) :
    left = right := by
  induction first generalizing right with
  | keep found readOnly =>
    cases second with
    | keep => rfl
    | intro found' writable =>
      rw [found] at found'
      cases found'
      rw [readOnly] at writable
      cases writable
  | @intro ty left shape part found writable made parts nullable ih =>
    cases second with
    | keep found' readOnly =>
      rw [found] at found'
      cases found'
      rw [readOnly] at writable
      cases writable
    | @intro _ _ _ part' found' _ made' parts' nullable' =>
      rw [found] at found'
      cases found'
      have agree : shape.regularize part = shape.regularize part' :=
        Shape.regularize_congr fun old member => ih old member (parts' old member)
      exact sound.eq_of_shape made (agree ▸ made') (nullable.trans nullable'.symm)

/-- A regular form is its own regular form. -/
theorem stable (regular : Regularized catalog ty form) : Regularized catalog form form := by
  induction regular with
  | keep found readOnly => exact .keep found readOnly
  | @intro ty form shape part found writable made parts nullable ih =>
    have again : (shape.regularize part).regularize id = shape.regularize part := shape.regularize_regularize
    refine .intro made (shape.regularize_isReadOnly part) (again.symm ▸ made) ?_ rfl
    intro new member
    obtain ⟨old, present, rfl⟩ := Shape.mem_parts_regularize.mp member
    exact ih old present

theorem of_pair (regular : Regularized catalog ty form) {other : TypeId} (same : other.pair = ty.pair) :
    ∃ later, later.pair = form.pair ∧ Regularized catalog other later := by
  cases regular with
  | keep found readOnly => exact ⟨other, same, .keep ((shape?_of_pair same).trans found) readOnly⟩
  | intro found writable made parts nullable =>
    refine ⟨⟨form.pair, other.nullable⟩, rfl, ?_⟩
    exact .intro ((shape?_of_pair same).trans found) writable made parts rfl

theorem persists (persists : before.PersistsIn after) (unique : before.Unique) (regular : Regularized before ty form) :
    Regularized after ty form := by
  induction regular with
  | @keep ty shape found readOnly => exact .keep (persists.anonymous found (Shape.anonymous_of_readOnly readOnly)) readOnly
  | @intro ty form shape part found writable made parts nullable ih =>
    cases named : shape.name? with
    | none =>
      have remade := persists.anonymous made ((shape.regularize_name? part).trans named)
      exact .intro (persists.anonymous found named) writable remade ih nullable
    | some name =>
      obtain ⟨later, kept, same⟩ := persists.outline found
      have laterNamed : later.name? = some name := by rw [← Shape.outline_name?, same, Shape.outline_name?, named]
      -- A named type is its own form, so both lookups are one.
      rw [Shape.regularize_named named] at made
      have paired : form.pair = ty.pair := unique _ _ _ _ made found rfl
      refine @Regularized.intro after ty form later part kept ?_ ?_ ?_ nullable
      · cases later <;> first | rfl | cases laterNamed
      · rw [Shape.regularize_named laterNamed, shape?_of_pair paired, kept]
      · simp [Shape.parts_named laterNamed]

theorem later (edits : Edits fits before after) (sound : before.Sound) (regular : Regularized before ty form) :
    Regularized after ty form :=
  regular.persists (.of_edits edits) sound.unique

/-- All regular forms of a table, as a function. -/
theorem exists_choice (sound : catalog.Sound) :
    ∃ pick : TypeId → TypeId, ∀ ty form, Regularized catalog ty form → pick ty = form := by
  classical
  refine ⟨fun ty => if present : ∃ form, Regularized catalog ty form then present.choose else ty, ?_⟩
  intro ty form regular
  have present : ∃ form, Regularized catalog ty form := ⟨form, regular⟩
  simp only [dif_pos present]
  exact functional sound present.choose_spec regular

/-- The forms commute: erasing a regular form gives the regular form of what is erased. -/
theorem erased (sound : catalog.Sound) {bare both : TypeId} (regular : Regularized catalog ty form)
    (first : Erased catalog ty bare) (second : Erased catalog form both) : Regularized catalog bare both := by
  obtain ⟨pick, picked⟩ := exists_choice sound
  induction regular generalizing bare both with
  | keep found readOnly =>
    cases Erased.functional sound first second
    cases first with
    | intro found' made parts nullable =>
      rw [found] at found'
      cases found'
      exact .keep made ((Shape.erase_isReadOnly _ _).trans readOnly)
  | @intro ty form shape part found writable made parts nullable ih =>
    cases first with
    | @intro _ _ _ bareOf found' bareMade bareParts bareNullable =>
      rw [found] at found'
      cases found'
      cases second with
      | @intro _ _ _ bothOf formFound bothMade bothParts bothNullable =>
        rw [made] at formFound
        cases formFound
        have inner (old : TypeId) (member : old ∈ shape.parts) : Regularized catalog (bareOf old) (bothOf (part old)) :=
          ih old member (bareParts old member) (bothParts _ (Shape.mem_parts_regularize.mpr ⟨old, member, rfl⟩))
        have square : (shape.erase bareOf).regularize pick = (shape.regularize part).erase bothOf :=
          Shape.regularize_erase fun old member => picked _ _ (inner old member)
        refine .intro bareMade ((shape.erase_isReadOnly bareOf).trans writable) (square.symm ▸ bothMade) ?_ ?_
        · intro new member
          obtain ⟨old, present, rfl⟩ := Shape.mem_parts_erase.mp member
          rw [picked _ _ (inner old present)]
          exact inner old present
        · rw [bothNullable, bareNullable, Shape.regularize_isValue, nullable]

end Regularized

end Catalog
end Interchange
