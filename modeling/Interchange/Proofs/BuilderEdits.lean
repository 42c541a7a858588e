import Interchange.Builder.Member
import Interchange.Proofs.ResolutionGrowth

/-! Every registration call changes the table by small edits only, as long as the ids
it is given are registered. -/

namespace Interchange

namespace Catalog

variable {catalog : Catalog} {fits : Catalog → Shape → Prop}

theorem internOption_edits (catalog : Catalog) (text : Option String) :
    Edits fits catalog { catalog with strings := (catalog.strings.internOption text).2 } ∧
      ∀ symbol ∈ (catalog.strings.internOption text).1,
        symbol.index < (catalog.strings.internOption text).2.size := by
  cases text with
  | none => exact ⟨.refl, by simp [Interner.internOption]⟩
  | some text =>
    refine ⟨.single (.note catalog text), ?_⟩
    intro symbol member
    cases member
    exact Interner.index_lt_of_get? (Interner.intern_get? _ text)

theorem internAll_edits (catalog : Catalog) (texts : List String) :
    Edits fits catalog { catalog with strings := (catalog.strings.internAll texts).2 } ∧
      ∀ symbol ∈ (catalog.strings.internAll texts).1, symbol.index < (catalog.strings.internAll texts).2.size := by
  induction texts generalizing catalog with
  | nil => exact ⟨.refl, by simp [Interner.internAll]⟩
  | cons text rest ih =>
    obtain ⟨edits, spelled⟩ := ih { catalog with strings := (catalog.strings.intern text).2 }
    refine ⟨.head (.note catalog text) edits, ?_⟩
    intro symbol member
    rcases List.mem_cons.mp member with rfl | member
    · exact edits.spelled (Interner.index_lt_of_get? (Interner.intern_get? _ text))
    · exact spelled symbol member

theorem label_edits (catalog : Catalog) (items : List (TypeId × Option String)) :
    Edits fits catalog (catalog.label items).2 ∧ (catalog.label items).1.map TupleElement.ty = items.map Prod.fst ∧
      ∀ element ∈ (catalog.label items).1, ∀ symbol ∈ element.label, symbol.index < (catalog.label items).2.strings.size := by
  induction items generalizing catalog with
  | nil => exact ⟨.refl, rfl, by simp [label]⟩
  | cons item rest ih =>
    obtain ⟨ty, text⟩ := item
    have first : Edits fits catalog { catalog with strings := (catalog.strings.internOption text).2 } :=
      (catalog.internOption_edits text).1
    have labelled := (@internOption_edits fits catalog text).2
    obtain ⟨edits, types, spelled⟩ := ih { catalog with strings := (catalog.strings.internOption text).2 }
    refine ⟨first.trans edits, ?_, ?_⟩
    · simpa [label] using types
    · intro element member symbol present
      rcases List.mem_cons.mp member with rfl | member
      · exact edits.spelled (labelled symbol present)
      · exact spelled element member symbol present

theorem intern_edits {shape : Shape} (anonymous : shape.name? = none)
    (known : ∀ part ∈ shape.parts, catalog.contains part = true)
    (spelled : ∀ symbol ∈ shape.symbols, symbol.index < catalog.strings.size) :
    Edits fits catalog (catalog.intern shape).2 := by
  obtain ⟨pair, same, -⟩ | ⟨fresh, same⟩ := catalog.intern_cases shape
  · rw [same]
  · rw [same]
    exact .single (.enter anonymous (fresh anonymous) (by rwa [Shape.mentions_anonymous anonymous]) spelled)

theorem modifyShape_edits (catalog : Catalog) (ty : TypeId) (change : Shape → Shape)
    (outline : ∀ shape, (change shape).outline = shape.outline)
    (lineage : ∀ shape, catalog.shape? ty = some shape → ∀ above ∈ (change shape).lineage, above ∈ shape.lineage ∨
      above.nullable = false ∧ catalog.kind? above = some .abstraction)
    (mentions : ∀ shape, catalog.shape? ty = some shape → ∀ part ∈ (change shape).mentions, part ∈ shape.mentions ∨
      catalog.contains part = true)
    (symbols : ∀ shape, catalog.shape? ty = some shape → ∀ symbol ∈ (change shape).symbols, symbol ∈ shape.symbols ∨
      symbol.index < catalog.strings.size) :
    Edits fits catalog (catalog.modifyShape ty change fun shape => Shape.identity_of_outline (outline shape)) := by
  refine .single (.revise catalog ty _ ?_)
  intro entry present
  have found : catalog.shape? ty = some entry.shape := shape?_eq_some_iff.mpr ⟨entry, present, rfl⟩
  refine ⟨outline entry.shape, lineage entry.shape found, ?_, ?_⟩
  · intro part member
    simp only [Entry.mentions, List.mem_append] at member ⊢
    rcases member with (member | member) | member
    · rcases mentions entry.shape found part member with kept | known
      · exact .inl (.inl (.inl kept))
      · exact .inr known
    · exact .inl (.inl (.inr member))
    · exact .inl (.inr member)
  · intro symbol member
    simp only [Entry.symbols, List.mem_append] at member ⊢
    rcases member with (member | member) | member
    · rcases symbols entry.shape found symbol member with kept | known
      · exact .inl (.inl (.inl kept))
      · exact .inr known
    · exact .inl (.inl (.inr member))
    · exact .inl (.inr member)

end Catalog

namespace Builder

open Catalog

variable {builder final : Builder} {fits : Catalog → Shape → Prop}

theorem declare_edits (builder : Builder) (name : String) (attributes : Attributes) (shape : Symbol → Shape)
    (named : ∀ symbol, (shape symbol).name? = some symbol) (symbols : ∀ symbol, (shape symbol).symbols = [symbol])
    (known : ∀ symbol, ∀ part ∈ (shape symbol).mentions, builder.catalog.contains part = true)
    (plain : ∀ symbol, ∀ above ∈ (shape symbol).lineage, above.nullable = false)
    (suits : ∀ strings symbol, fits { builder.catalog with strings } (shape symbol)) :
    Edits fits builder.catalog (builder.declare name attributes shape).2.catalog ∧
      (builder.declare name attributes shape).2.catalog.contains (builder.declare name attributes shape).1 = true := by
  have noted : Edits fits builder.catalog { builder.catalog with strings := (builder.catalog.strings.intern name).2 } :=
    .single (.note _ name)
  simp only [declare]
  split
  next existing found =>
    refine ⟨noted, ?_⟩
    obtain ⟨-, shape, present, -⟩ := shape_of_named found
    exact contains_of_shape present
  next fresh =>
    let strings := (builder.catalog.strings.intern name).2
    have external : Edits fits { builder.catalog with strings }
        { builder.catalog with strings := (strings.internOption attributes.externalName).2 } :=
      (internOption_edits _ _).1
    have externalSpelled := (@internOption_edits fits { builder.catalog with strings } attributes.externalName).2
    let strings' := (strings.internOption attributes.externalName).2
    have previous : Edits fits { builder.catalog with strings := strings' }
        { builder.catalog with strings := (strings'.internAll attributes.previousNames).2 } :=
      (internAll_edits _ _).1
    have previousSpelled := (@internAll_edits fits { builder.catalog with strings := strings' } attributes.previousNames).2
    refine ⟨noted.trans (external.trans (previous.tail ?_)), ?_⟩
    · refine .declare (named _) fresh (suits _ _) (plain _) ?_ ?_
      · intro part member
        simp only [Entry.mentions, Option.toList_none, Option.join_none, List.append_nil] at member
        exact known _ part member
      · intro symbol member
        simp only [Entry.symbols, symbols, List.mem_append, List.mem_singleton, Option.mem_toList] at member
        rcases member with (rfl | member) | member
        · exact Edits.spelled (external.trans previous) (Interner.index_lt_of_get? (Interner.intern_get? _ name))
        · exact previous.spelled (externalSpelled symbol member)
        · exact previousSpelled symbol member
    · rw [contains_iff, push_size]
      exact Nat.lt_succ_self _

theorem declareSecondary_edits {name : String} {primary ty : TypeId} {attributes : Attributes}
    (inside : builder.catalog.contains primary = true)
    (suits : ∀ strings symbol, fits { builder.catalog with strings } (.secondary symbol primary.nonNull))
    (declared : builder.declareSecondary name primary attributes = some (ty, final)) :
    Edits fits builder.catalog final.catalog := by
  obtain ⟨edits, known⟩ := builder.declare_edits name attributes (fun symbol => .secondary symbol primary.nonNull)
    (fun _ => rfl) (fun _ => rfl) (by simpa [Shape.mentions, Shape.components] using fun _ => inside) (by simp [Shape.lineage]) suits
  simp only [declareSecondary] at declared
  split at declared
  · cases declared
    refine edits.trans (modifyShape_edits _ _ _ (fun shape => shape.addSecondary_outline _) ?_ ?_ ?_)
    · intro shape found above member
      cases shape <;> exact .inl member
    · intro shape found part member
      cases shape with
      | primary name fields secondaries abstractions =>
        simp only [Shape.addSecondary, Shape.mentions, List.mem_append] at member ⊢
        rcases member with (member | member) | member
        · exact .inl (.inl (.inl member))
        · rcases Shape.mem_adjoin member with member | rfl
          · exact .inl (.inl (.inr member))
          · exact .inr known
        · exact .inl (.inr member)
      | _ => exact .inl member
    · intro shape found symbol member
      cases shape <;> exact .inl member
  · cases declared

theorem reportKind_catalog {ty : TypeId} {expected : String} (reported : builder.reportKind ty expected = some final) :
    final.catalog = builder.catalog := by
  simp only [reportKind, Option.bind_eq_bind, Option.bind_eq_some_iff] at reported
  obtain ⟨name, -, shape, -, reported⟩ := reported
  cases reported
  rfl

theorem implement_edits {primary abstraction : TypeId} (implemented : builder.implement primary abstraction = some final) :
    Edits fits builder.catalog final.catalog := by
  simp only [implement, Option.bind_eq_bind, Option.bind_eq_some_iff] at implemented
  obtain ⟨above, aboveFound, implemented⟩ := implemented
  split at implemented
  next abstract =>
    obtain ⟨family, -, implemented⟩ := Option.bind_eq_some_iff.mp implemented
    split at implemented
    · cases implemented
      have kind : builder.catalog.kind? abstraction = some .abstraction := abstract ▸ kind?_of_shape aboveFound
      refine modifyShape_edits _ _ _ (fun shape => shape.addAbstraction_outline _) ?_ ?_ ?_
      · intro shape found higher member
        cases shape with
        | primary name fields secondaries abstractions =>
          rcases Shape.mem_adjoin member with member | rfl
          · exact .inl member
          · exact .inr ⟨rfl, kind⟩
        | _ => exact .inl member
      · intro shape found part member
        cases shape with
        | primary name fields secondaries abstractions =>
          simp only [Shape.addAbstraction, Shape.mentions, List.mem_append] at member ⊢
          rcases member with (member | member) | member
          · exact .inl (.inl (.inl member))
          · exact .inl (.inl (.inr member))
          · rcases Shape.mem_adjoin member with member | rfl
            · exact .inl (.inr member)
            · exact .inr (contains_of_shape aboveFound)
        | _ => exact .inl member
      · intro shape found symbol member
        cases shape <;> exact .inl member
    · rw [reportKind_catalog implemented]
  next => rw [reportKind_catalog implemented]

/-- Shapes without a name and without labels. -/
theorem intern_edits (builder : Builder) {shape : Shape} (anonymous : shape.name? = none)
    (known : ∀ part ∈ shape.parts, builder.catalog.contains part = true)
    (spelled : ∀ symbol ∈ shape.symbols, symbol.index < builder.catalog.strings.size) :
    Edits fits builder.catalog (builder.intern shape).2.catalog ∧
      (builder.intern shape).2.catalog.contains (builder.intern shape).1 = true :=
  ⟨Catalog.intern_edits anonymous known spelled, contains_of_shape (intern_shape _ _)⟩

theorem union_edits (builder : Builder) {members : List TypeId} (known : ∀ ty ∈ members, builder.catalog.contains ty = true) :
    Edits fits builder.catalog (builder.union members).2.catalog ∧
      (builder.union members).2.catalog.contains (builder.union members).1 = true := by
  refine builder.intern_edits rfl ?_ (by simp [Shape.unionOf, Shape.symbols, Shape.name?, Shape.fields])
  intro part member
  exact known part (List.mem_eraseDups.mp member)

theorem namedTuple_edits (builder : Builder) {items : List (TypeId × Option String)}
    (known : ∀ item ∈ items, builder.catalog.contains item.1 = true) :
    Edits fits builder.catalog (builder.namedTuple items).2.catalog ∧
      (builder.namedTuple items).2.catalog.contains (builder.namedTuple items).1 = true := by
  obtain ⟨edits, types, spelled⟩ := @label_edits fits builder.catalog items
  let labelled : Builder := { builder with catalog := (builder.catalog.label items).2 }
  obtain ⟨last, inside⟩ := @intern_edits fits labelled (.tuple (builder.catalog.label items).1) rfl
    (by
      intro part member
      simp only [Shape.parts, types, List.mem_map] at member
      obtain ⟨item, member, rfl⟩ := member
      exact edits.contains (known item member))
    (by
      intro symbol member
      obtain ⟨element, member, present⟩ := List.mem_filterMap.mp member
      exact spelled element member symbol present)
  exact ⟨edits.trans last, inside⟩

end Builder
end Interchange
