import Interchange.Proofs.ResolutionCases

/-! What the resolver leaves behind. It enters collections over registered items and
changes nothing else, so whatever held of the types before still holds of them. -/

namespace Interchange

namespace Family

theorem shape_mentions (family : Family) (item : TypeId) (form : CollectionForm) :
    (family.shape item form).mentions = (family.shape item form).parts :=
  Shape.mentions_anonymous shape_name?

end Family

namespace Catalog

/-- The later table shows every type of the earlier one unchanged; what was added has no name. -/
structure Extends (before after : Catalog) : Prop where
  shape : ∀ {ty shape}, before.shape? ty = some shape → after.shape? ty = some shape
  anonymous : ∀ {ty shape}, after.shape? ty = some shape → before.shape? ty = none → shape.name? = none
  get? : ∀ {symbol text}, before.strings.get? symbol = some text → after.strings.get? symbol = some text

def Entered (before after : Catalog) : Prop :=
  ∃ (family : Family) (item : TypeId) (form : CollectionForm),
    (∀ ty, before.shape? ty ≠ some (family.shape item form)) ∧
    (∀ part ∈ (family.shape item form).parts, before.contains part = true) ∧
    after = (before.push { shape := family.shape item form }).2

abbrev Growth : Catalog → Catalog → Prop :=
  Relation.ReflTransGen Entered

variable {before middle after catalog : Catalog} {fits : Catalog → Shape → Prop}

namespace Extends

theorem refl (catalog : Catalog) : catalog.Extends catalog := by
  refine ⟨id, ?_, id⟩
  intro ty shape found missing
  rw [found] at missing
  cases missing

theorem trans (first : before.Extends middle) (second : middle.Extends after) : before.Extends after := by
  refine ⟨fun found => second.shape (first.shape found), ?_, fun found => second.get? (first.get? found)⟩
  intro ty shape found missing
  cases present : middle.shape? ty with
  | none => exact second.anonymous found present
  | some other =>
    have kept := second.shape present
    rw [found] at kept
    cases kept
    exact first.anonymous present missing

theorem contains (extension : before.Extends after) {ty : TypeId} (inside : before.contains ty = true) :
    after.contains ty = true := by
  obtain ⟨shape, found⟩ := shape_of_contains inside
  exact contains_of_shape (extension.shape found)

theorem known (extension : before.Extends after) {ty : TypeId} (inside : before.contains ty = true) :
    after.shape? ty = before.shape? ty := by
  obtain ⟨shape, found⟩ := shape_of_contains inside
  rw [extension.shape found, found]

/-- Named types are those of the earlier table. -/
theorem named (extension : before.Extends after) {ty : TypeId} {shape : Shape} {name : Symbol}
    (found : after.shape? ty = some shape) (named : shape.name? = some name) : before.shape? ty = some shape := by
  cases present : before.shape? ty with
  | none =>
    rw [extension.anonymous found present] at named
    cases named
  | some other =>
    have kept := extension.shape present
    rw [found] at kept
    rw [kept]

/-- A shape without a name is entered. -/
theorem push {shape : Shape} (anonymous : shape.name? = none) : catalog.Extends (catalog.push { shape }).2 := by
  refine ⟨?_, ?_, id⟩
  · intro ty other found
    have inside := contains_iff.mp (contains_of_shape found)
    rw [push_shape?, if_neg (by omega), found]
  · intro ty other found missing
    rw [push_shape?] at found
    split at found
    · cases found
      exact anonymous
    · rw [found] at missing
      cases missing

end Extends

namespace Entered

theorem edit (entered : Entered before after) : Edit fits before after := by
  obtain ⟨family, item, form, fresh, known, rfl⟩ := entered
  exact .enter Family.shape_name? fresh (by rwa [Family.shape_mentions]) (by simp)

theorem extension (entered : Entered before after) : before.Extends after := by
  obtain ⟨family, item, form, fresh, known, rfl⟩ := entered
  exact .push Family.shape_name?

end Entered

namespace Growth

theorem edits (growth : Growth before after) : Edits fits before after :=
  Relation.ReflTransGen.mono (fun _ _ entered => Entered.edit entered) _ _ growth

theorem extension (growth : Growth before after) : before.Extends after := by
  induction growth with
  | refl => exact .refl _
  | tail _ entered ih => exact ih.trans entered.extension

theorem sound (growth : Growth before after) (sound : before.Sound) : after.Sound := by
  have edits : Edits (fun _ _ => True) before after := growth.edits
  exact edits.sound sound

theorem hierarchical (growth : Growth before after) (hierarchical : before.Hierarchical) : after.Hierarchical :=
  Edits.hierarchical growth.edits hierarchical

end Growth

theorem intern_growth {family : Family} {item : TypeId} {form : CollectionForm}
    (known : ∀ part ∈ (family.shape item form).parts, catalog.contains part = true) :
    Growth catalog (catalog.intern (family.shape item form)).2 := by
  obtain ⟨pair, same, -⟩ | ⟨fresh, same⟩ := catalog.intern_cases (family.shape item form)
  · rw [same]
  · rw [same]
    exact .single ⟨family, item, form, fresh Family.shape_name?, known, rfl⟩

theorem intern_plain (catalog : Catalog) (shape : Shape) : (catalog.intern shape).1.nullable = false := by
  obtain ⟨pair, same, -⟩ | ⟨-, same⟩ := catalog.intern_cases shape <;> rw [same] <;> rfl

section Narrowed

variable {family : Family} {left right leftItem rightItem item : TypeId} {leftForm rightForm : CollectionForm}

/-- The narrowed collection has the item and the common form, whether it is new or one of the operands. -/
theorem narrowed_spec {grown : Catalog} (sound : catalog.Sound)
    (leftFound : catalog.shape? left = some (family.shape leftItem leftForm))
    (rightFound : catalog.shape? right = some (family.shape rightItem rightForm)) (growth : Growth catalog grown)
    (inside : grown.contains item = true) :
    Growth grown (grown.narrowed left right family leftItem leftForm rightItem rightForm item).2 ∧
      (grown.narrowed left right family leftItem leftForm rightItem rightForm item).2.shape?
        (grown.narrowed left right family leftItem leftForm rightItem rightForm item).1 =
          some (family.shape item (leftForm.common rightForm)) := by
  have known : ∀ part ∈ (family.shape item (leftForm.common rightForm)).parts, grown.contains part = true := by
    intro part member
    rcases Family.parts_shape leftItem leftForm member with rfl | member
    · exact inside
    · exact growth.extension.contains (sound.mentioned leftFound (family.shape_mentions .. ▸ member))
  unfold narrowed chooseOrIntern
  split
  next isLeft =>
    obtain ⟨rfl, form⟩ := of_decide_eq_true isLeft
    rw [form]
    exact ⟨.refl, growth.extension.shape leftFound⟩
  next =>
    split
    next isRight =>
      obtain ⟨rfl, form⟩ := of_decide_eq_true isRight
      rw [form]
      exact ⟨.refl, growth.extension.shape rightFound⟩
    next => exact ⟨intern_growth known, intern_shape _ _⟩

theorem narrowed_plain (leftPlain : left.nullable = false) (rightPlain : right.nullable = false) :
    (catalog.narrowed left right family leftItem leftForm rightItem rightForm item).1.nullable = false := by
  unfold narrowed chooseOrIntern
  split
  · exact leftPlain
  · split
    · exact rightPlain
    · exact catalog.intern_plain _

end Narrowed

theorem family_known (sound : catalog.Sound) {ty : TypeId} {shape : Shape} (found : catalog.shape? ty = some shape) :
    catalog.contains (shape.family ty) = true := by
  cases shape with
  | secondary name head => exact sound.mentioned found (by simp [Shape.mentions, Shape.components, Shape.family])
  | _ => exact contains_of_shape found

theorem family_plain (sound : catalog.Sound) {ty : TypeId} {shape : Shape} (found : catalog.shape? ty = some shape)
    (plain : ty.nullable = false) : (shape.family ty).nullable = false := by
  cases shape with
  | secondary name head => exact sound.plain ty _ found head (by simp [Shape.lineage])
  | _ => exact plain

/-- One level of resolution, given what the levels below do. -/
theorem Resolved.growth {inner : TypeId → TypeId → Resolution} {left right ty : TypeId} {final : Catalog}
    (resolved : Resolved catalog inner left right ty final) (sound : catalog.Sound)
    (leftKnown : catalog.contains left = true) (rightKnown : catalog.contains right = true)
    (below : ∀ leftItem rightItem item grown, catalog.contains leftItem = true → catalog.contains rightItem = true →
      inner leftItem rightItem = .ok (item, grown) → Growth catalog grown ∧ grown.contains item = true) :
    Growth catalog final ∧ final.contains ty = true := by
  cases resolved with
  | same | anyRight | arrayLeft => exact ⟨.refl, leftKnown⟩
  | anyLeft | arrayRight => exact ⟨.refl, rightKnown⟩
  | derivedLeft leftFound => exact ⟨.refl, family_known sound leftFound⟩
  | derivedRight _ rightFound => exact ⟨.refl, family_known sound rightFound⟩
  | @narrow family leftItem rightItem item leftForm rightForm grown leftFound rightFound recursive =>
    have leftInside := sound.mentioned leftFound (family.shape_mentions .. ▸ Family.item_mem_parts)
    have rightInside := sound.mentioned rightFound (family.shape_mentions .. ▸ Family.item_mem_parts)
    obtain ⟨growth, inside⟩ := below leftItem rightItem item grown leftInside rightInside recursive
    obtain ⟨last, found⟩ := narrowed_spec sound leftFound rightFound growth inside
    exact ⟨growth.trans last, contains_of_shape found⟩

theorem resolveWithin_ok {depth : Nat} {left right ty : TypeId} {final : Catalog}
    (resolved : catalog.resolveWithin (depth + 1) left right = .ok (ty, final)) :
    ∃ bare, Resolved catalog (catalog.resolveWithin depth) left.nonNull right.nonNull bare final ∧
      ty = bare.withNullability (left.nullable && right.nullable) := by
  simp only [resolveWithin] at resolved
  cases outcome : catalog.resolveShapes (catalog.resolveWithin depth) left.nonNull right.nonNull with
  | error conflict => simp [outcome, bind, Except.bind] at resolved
  | ok result =>
    simp only [outcome, bind, Except.bind, pure, Except.pure, Except.ok.injEq] at resolved
    cases resolved
    exact ⟨result.1, resolveShapes_ok outcome, rfl⟩

theorem resolveWithin_growth {depth : Nat} {left right ty : TypeId} {final : Catalog} (sound : catalog.Sound)
    (leftKnown : catalog.contains left = true) (rightKnown : catalog.contains right = true)
    (resolved : catalog.resolveWithin depth left right = .ok (ty, final)) :
    Growth catalog final ∧ final.contains ty = true := by
  induction depth generalizing left right ty final with
  | zero => cases resolved
  | succ depth ih =>
    obtain ⟨bare, outcome, rfl⟩ := resolveWithin_ok resolved
    exact outcome.growth sound leftKnown rightKnown fun _ _ _ _ leftInside rightInside recursive =>
      ih leftInside rightInside recursive

theorem resolvePair_growth {left right ty : TypeId} {final : Catalog} (sound : catalog.Sound)
    (leftKnown : catalog.contains left = true) (rightKnown : catalog.contains right = true)
    (resolved : catalog.resolvePair left right = .ok (ty, final)) : Growth catalog final ∧ final.contains ty = true :=
  resolveWithin_growth sound leftKnown rightKnown resolved

theorem foldSlot_growth {types : List TypeId} {left : TypeId} (sound : catalog.Sound) (leftKnown : catalog.contains left = true)
    (known : ∀ ty ∈ types, catalog.contains ty = true) :
    Growth catalog (catalog.foldSlot left types).2 ∧
      ∀ ty, (catalog.foldSlot left types).1 = .ok ty → (catalog.foldSlot left types).2.contains ty = true := by
  induction types generalizing catalog left with
  | nil =>
    refine ⟨.refl, ?_⟩
    intro ty found
    cases found
    exact leftKnown
  | cons right rest ih =>
    simp only [foldSlot]
    cases outcome : catalog.resolvePair left right with
    | error conflict => exact ⟨.refl, by simp⟩
    | ok result =>
      obtain ⟨growth, inside⟩ := resolvePair_growth sound leftKnown (known right (by simp)) outcome
      have later := ih (growth.sound sound) inside fun ty member =>
        growth.extension.contains (known ty (by simp [member]))
      exact ⟨growth.trans later.1, later.2⟩

theorem resolveSlot_growth {types : List TypeId} (sound : catalog.Sound) (known : ∀ ty ∈ types, catalog.contains ty = true) :
    Growth catalog (catalog.resolveSlot types).2 ∧
      ∀ ty, (catalog.resolveSlot types).1 = .ok (some ty) → (catalog.resolveSlot types).2.contains ty = true := by
  cases types with
  | nil => exact ⟨.refl, by simp [resolveSlot]⟩
  | cons first rest =>
    have later : ∀ ty ∈ rest, catalog.contains ty = true := fun ty member => known ty (by simp [member])
    obtain ⟨growth, inside⟩ := foldSlot_growth sound (known first (by simp)) later
    refine ⟨growth, ?_⟩
    intro ty found
    apply inside
    simp only [resolveSlot] at found
    cases outcome : (catalog.foldSlot first rest).1 with
    | error conflict => simp [outcome, Except.map] at found
    | ok result =>
      simp only [outcome, Except.map, Except.ok.injEq, Option.some.injEq] at found
      rw [found]

end Catalog
end Interchange
