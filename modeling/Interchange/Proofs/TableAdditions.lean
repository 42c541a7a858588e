import Interchange.Proofs.MemberEdits

/-! Checking declarations and reconciling types only add to a table: strings, and shapes that have no name. This is so
whatever ids are handed over. -/

namespace Interchange

namespace Catalog

/-- One string is added, or one shape that has no name and is not there yet. -/
inductive Addition : Catalog → Catalog → Prop where
  | text (catalog : Catalog) (text : String) : Addition catalog { catalog with strings := (catalog.strings.intern text).2 }
  | shape (catalog : Catalog) {shape : Shape} (anonymous : shape.name? = none) (fresh : ∀ ty, catalog.shape? ty ≠ some shape) :
      Addition catalog (catalog.push { shape }).2

abbrev Additions : Catalog → Catalog → Prop :=
  Relation.ReflTransGen Addition

variable {catalog before after final : Catalog} {left right ty : TypeId}

theorem Additions.extension (additions : Additions before after) : before.Extends after := by
  induction additions with
  | refl => exact .refl _
  | tail _ addition ih =>
    cases addition with
    | text text =>
      refine ih.trans ⟨id, ?_, Interner.intern_keeps text⟩
      intro ty shape found missing
      cases missing.symm.trans found
    | shape anonymous => exact ih.trans (.push anonymous)

theorem intern_additions {shape : Shape} (anonymous : shape.name? = none) : Additions catalog (catalog.intern shape).2 := by
  obtain ⟨pair, same, -⟩ | ⟨fresh, same⟩ := catalog.intern_cases shape
  · rw [same]
  · rw [same]
    exact .single (.shape catalog anonymous (fresh anonymous))

theorem label_additions (catalog : Catalog) (items : List (TypeId × Option String)) :
    Additions catalog (catalog.label items).2 := by
  induction items generalizing catalog with
  | nil => exact .refl
  | cons item rest ih =>
    obtain ⟨ty, text⟩ := item
    have first : Additions catalog { catalog with strings := (catalog.strings.internOption text).2 } := by
      cases text with
      | none => exact .refl
      | some text => exact .single (.text catalog text)
    exact first.trans (ih _)

theorem narrowed_additions {family : Family} {leftItem rightItem item : TypeId} {leftForm rightForm : CollectionForm} :
    Additions catalog (catalog.narrowed left right family leftItem leftForm rightItem rightForm item).2 := by
  unfold Catalog.narrowed chooseOrIntern
  split
  · exact .refl
  · split
    · exact .refl
    · exact intern_additions Family.shape_name?

theorem resolveWithin_additions {depth : Nat} (resolved : catalog.resolveWithin depth left right = .ok (ty, final)) :
    Additions catalog final := by
  induction depth generalizing left right ty final with
  | zero => cases resolved
  | succ depth ih =>
    obtain ⟨bare, outcome, -⟩ := resolveWithin_ok resolved
    -- Nothing but a narrowed collection can be new.
    cases outcome with
    | narrow _ _ recursive => exact (ih recursive).trans narrowed_additions
    | _ => exact .refl

theorem foldSlot_additions (catalog : Catalog) (left : TypeId) (types : List TypeId) :
    Additions catalog (catalog.foldSlot left types).2 := by
  induction types generalizing catalog left with
  | nil => exact .refl
  | cons right rest ih =>
    simp only [Catalog.foldSlot]
    split
    next ty grown resolved => exact (resolveWithin_additions resolved).trans (ih grown ty)
    next => exact .refl

theorem resolveSlot_additions (catalog : Catalog) (types : List TypeId) : Additions catalog (catalog.resolveSlot types).2 := by
  cases types with
  | nil => exact .refl
  | cons first rest => exact foldSlot_additions catalog first rest

end Catalog

namespace Builder

open Catalog

variable {builder final : Builder} {member : Member} {location : Location}

theorem namedTuple_additions (builder : Builder) (items : List (TypeId × Option String)) :
    Additions builder.catalog (builder.namedTuple items).2.catalog :=
  (label_additions builder.catalog items).trans (intern_additions rfl)

theorem memberShape_additions {result : Option TypeId}
    (shaped : builder.memberShape member location = some (result, final)) : Additions builder.catalog final.catalog := by
  simp only [memberShape] at shaped
  split at shaped
  · cases shaped
    exact .refl
  · split at shaped
    · split at shaped
      · cases shaped
        exact .refl
      · cases shaped
        exact intern_additions rfl
    · obtain ⟨found, -, shaped⟩ := Option.bind_eq_some_iff.mp shaped
      cases shaped
      exact .refl

theorem labelled_additions {ty : TypeId} {names : List (Option String)} {result : Option TypeId}
    (labelled : builder.labelled ty names location = some (result, final)) : Additions builder.catalog final.catalog := by
  simp only [Builder.labelled] at labelled
  split at labelled
  · cases labelled
    exact .refl
  · split at labelled
    · cases labelled
    · split at labelled
      · cases labelled
        exact namedTuple_additions builder _
      · cases labelled
        exact .refl
    · obtain ⟨found, -, labelled⟩ := Option.bind_eq_some_iff.mp labelled
      cases labelled
      exact .refl

theorem checkMember_additions {origin : Option TypeId} {result : Option Declared}
    (checked : builder.checkMember member origin location = some (result, final)) :
    Additions builder.catalog final.catalog := by
  have attributed := @memberAttributes_catalog builder member location
  simp only [checkMember] at checked
  split at checked
  next first read =>
    cases checked
    rw [read] at attributed
    rw [attributed]
  next attributes first read =>
    rw [read] at attributed
    rw [← attributed]
    split at checked
    · split at checked
      · cases checked
      next second shaped =>
        cases checked
        exact memberShape_additions shaped
      next ty second shaped =>
        have middle := memberShape_additions shaped
        split at checked
        · cases checked
        next third labelled =>
          cases checked
          exact middle.trans (labelled_additions labelled)
        next named third labelled =>
          cases checked
          exact middle.trans (labelled_additions labelled)
    · cases checked
      exact .refl

theorem collectSlots_additions {owner : String} {members : List (Option TypeId × Member)} {slots result : List Slot}
    (collected : builder.collectSlots owner slots members = some (result, final)) :
    Additions builder.catalog final.catalog := by
  induction members generalizing builder slots with
  | nil =>
    cases collected
    exact .refl
  | cons first rest ih =>
    simp only [collectSlots] at collected
    split at collected
    · cases collected
    next checked outcome => exact (checkMember_additions outcome).trans (ih collected)
    next declared checked outcome => exact (checkMember_additions outcome).trans (ih collected)

theorem settleSlot_additions {owner : String} {slot : Slot} {made : Option Field}
    (settled : builder.settleSlot owner slot = some (made, final)) : Additions builder.catalog final.catalog := by
  have slotted : Additions builder.catalog (builder.resolveSlot (slot.declared.map Declared.ty)).2.catalog :=
    resolveSlot_additions _ _
  simp only [settleSlot] at settled
  split at settled
  next after outcome =>
    rw [outcome] at slotted
    cases settled
    exact slotted
  next ty after outcome =>
    rw [outcome] at slotted
    cases settled
    exact slotted.tail (.text after.catalog slot.name)
  next conflict after outcome =>
    rw [outcome] at slotted
    obtain ⟨reported, report, same⟩ := Option.map_eq_some_iff.mp settled
    cases same
    rwa [← reportConflict_catalog report] at slotted

theorem resolveSlots_additions {owner : String} {slots : List Slot} {fields : List Field}
    (resolved : builder.resolveSlots owner slots = some (fields, final)) : Additions builder.catalog final.catalog := by
  induction slots generalizing builder fields with
  | nil =>
    cases resolved
    exact .refl
  | cons slot rest ih =>
    obtain ⟨field, middle, remaining, settled, recursive, -⟩ := resolveSlots_step resolved
    exact (settleSlot_additions settled).trans (ih recursive)

end Builder
end Interchange
