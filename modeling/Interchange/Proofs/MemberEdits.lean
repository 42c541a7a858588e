import Interchange.Proofs.BuilderEdits

/-! The definition of members changes the table by small edits only. The fields that
come of it have registered types, whatever was dropped or reported on the way. -/

namespace Interchange

theorem Slot.declared_of_insert {name : String} {declared other : Declared} {slots : List Slot} {slot : Slot}
    (member : slot ∈ Slot.insert name declared slots) (present : other ∈ slot.declared) :
    other = declared ∨ ∃ old ∈ slots, other ∈ old.declared := by
  induction slots with
  | nil =>
    cases List.mem_singleton.mp member
    exact .inl (List.mem_singleton.mp present)
  | cons first rest ih =>
    simp only [Slot.insert] at member
    split at member
    · rcases List.mem_cons.mp member with rfl | member
      · rcases List.mem_append.mp present with present | present
        · exact .inr ⟨first, by simp, present⟩
        · exact .inl (List.mem_singleton.mp present)
      · exact .inr ⟨slot, by simp [member], present⟩
    · rcases List.mem_cons.mp member with rfl | member
      · exact .inr ⟨slot, by simp, present⟩
      · rcases ih member with same | ⟨old, known, present⟩
        · exact .inl same
        · exact .inr ⟨old, by simp [known], present⟩

def Member.mentions (member : Member) : List TypeId :=
  member.ty :: member.union.getD []

namespace Builder

open Catalog

variable {builder final : Builder} {fits : Catalog → Shape → Prop} {member : Member} {location : Location}

theorem memberAttributes_catalog : (builder.memberAttributes member location).2.catalog = builder.catalog := by
  unfold memberAttributes
  repeat' split
  all_goals rfl

theorem memberShape_edits {result : Option TypeId} (known : ∀ ty ∈ member.mentions, builder.catalog.contains ty = true)
    (shaped : builder.memberShape member location = some (result, final)) :
    Edits fits builder.catalog final.catalog ∧ ∀ ty ∈ result, final.catalog.contains ty = true := by
  simp only [memberShape] at shaped
  split at shaped
  · cases shaped
    refine ⟨.refl, ?_⟩
    rintro ty ⟨⟩
    exact known member.ty (by simp [Member.mentions])
  next members listed =>
    split at shaped
    · split at shaped
      · cases shaped
        exact ⟨.refl, by simp⟩
      · cases shaped
        obtain ⟨edits, inside⟩ := @union_edits fits builder members fun ty present =>
          known ty (by simp [Member.mentions, listed, present])
        refine ⟨edits, ?_⟩
        rintro ty ⟨⟩
        exact inside
    · obtain ⟨found, -, shaped⟩ := Option.bind_eq_some_iff.mp shaped
      cases shaped
      exact ⟨.refl, by simp⟩

theorem labelled_edits {ty : TypeId} {names : List (Option String)} {result : Option TypeId} (sound : builder.catalog.Sound)
    (inside : builder.catalog.contains ty = true) (labelled : builder.labelled ty names location = some (result, final)) :
    Edits fits builder.catalog final.catalog ∧ ∀ ty ∈ result, final.catalog.contains ty = true := by
  simp only [Builder.labelled] at labelled
  split at labelled
  · cases labelled
    refine ⟨.refl, ?_⟩
    rintro ty ⟨⟩
    exact inside
  · split at labelled
    · cases labelled
    next elements found =>
      split at labelled
      · cases labelled
        have known : ∀ item ∈ (elements.map TupleElement.ty).zip names, builder.catalog.contains item.1 = true := by
          intro item member
          exact sound.mentioned found (List.of_mem_zip member).1
        obtain ⟨edits, registered⟩ := @namedTuple_edits fits builder _ known
        refine ⟨edits, ?_⟩
        rintro ty ⟨⟩
        exact registered
      · cases labelled
        exact ⟨.refl, by simp⟩
    · obtain ⟨found, -, labelled⟩ := Option.bind_eq_some_iff.mp labelled
      cases labelled
      refine ⟨.refl, ?_⟩
      rintro ty ⟨⟩
      exact inside

theorem checkMember_edits {origin : Option TypeId} {result : Option Declared} (sound : builder.catalog.Sound)
    (known : ∀ ty ∈ member.mentions, builder.catalog.contains ty = true)
    (checked : builder.checkMember member origin location = some (result, final)) :
    Edits fits builder.catalog final.catalog ∧ ∀ declared ∈ result, final.catalog.contains declared.ty = true := by
  have attributed := @memberAttributes_catalog builder member location
  simp only [checkMember] at checked
  split at checked
  next first read =>
    rw [read] at attributed
    cases checked
    exact ⟨attributed ▸ .refl, by simp⟩
  next attributes first read =>
    rw [read] at attributed
    split at checked
    · split at checked
      · cases checked
      next second shaped =>
        cases checked
        obtain ⟨edits, -⟩ := memberShape_edits (attributed ▸ known) shaped
        exact ⟨attributed ▸ edits, by simp⟩
      next ty second shaped =>
        obtain ⟨edits, inside⟩ := @memberShape_edits first second fits member location _ (attributed ▸ known) shaped
        have settled := edits.sound (attributed ▸ sound)
        split at checked
        · cases checked
        next third labelled =>
          cases checked
          obtain ⟨last, -⟩ := labelled_edits settled (inside ty rfl) labelled
          exact ⟨attributed ▸ edits.trans last, by simp⟩
        next named third labelled =>
          cases checked
          obtain ⟨last, registered⟩ := labelled_edits settled (inside ty rfl) labelled
          refine ⟨attributed ▸ edits.trans last, ?_⟩
          rintro declared ⟨⟩
          exact registered named rfl
    · cases checked
      exact ⟨attributed ▸ .refl, by simp⟩

theorem collectSlots_edits {owner : String} {members : List (Option TypeId × Member)} {slots result : List Slot}
    (sound : builder.catalog.Sound)
    (known : ∀ member ∈ members, ∀ ty ∈ member.2.mentions, builder.catalog.contains ty = true)
    (earlier : ∀ slot ∈ slots, ∀ declared ∈ slot.declared, builder.catalog.contains declared.ty = true)
    (collected : builder.collectSlots owner slots members = some (result, final)) :
    Edits fits builder.catalog final.catalog ∧
      ∀ slot ∈ result, ∀ declared ∈ slot.declared, final.catalog.contains declared.ty = true := by
  induction members generalizing builder slots with
  | nil =>
    cases collected
    exact ⟨.refl, earlier⟩
  | cons first rest ih =>
    obtain ⟨origin, member⟩ := first
    have own : ∀ ty ∈ member.mentions, builder.catalog.contains ty = true := known (origin, member) (by simp)
    simp only [collectSlots] at collected
    split at collected
    · cases collected
    next checked outcome =>
      obtain ⟨edits, -⟩ := @checkMember_edits builder checked fits member _ _ _ sound own outcome
      obtain ⟨last, inside⟩ := ih (edits.sound sound)
        (fun member present ty mentioned => edits.contains (known member (by simp [present]) ty mentioned))
        (fun slot present declared old => edits.contains (earlier slot present declared old)) collected
      exact ⟨edits.trans last, inside⟩
    next declared checked outcome =>
      obtain ⟨edits, registered⟩ := @checkMember_edits builder checked fits member _ _ _ sound own outcome
      have sorted : ∀ slot ∈ Slot.insert member.name declared slots, ∀ other ∈ slot.declared,
          checked.catalog.contains other.ty = true := by
        intro slot present other old
        rcases Slot.declared_of_insert present old with rfl | ⟨before, present, old⟩
        · exact registered other rfl
        · exact edits.contains (earlier before present other old)
      obtain ⟨last, inside⟩ := ih (edits.sound sound)
        (fun member present ty mentioned => edits.contains (known member (by simp [present]) ty mentioned)) sorted collected
      exact ⟨edits.trans last, inside⟩

theorem resolveSlot_edits {types : List TypeId} (sound : builder.catalog.Sound)
    (known : ∀ ty ∈ types, builder.catalog.contains ty = true) :
    Edits fits builder.catalog (builder.resolveSlot types).2.catalog ∧
      ∀ ty, (builder.resolveSlot types).1 = .ok (some ty) → (builder.resolveSlot types).2.catalog.contains ty = true := by
  obtain ⟨growth, inside⟩ := resolveSlot_growth sound known
  exact ⟨growth.edits, inside⟩

theorem reportConflict_catalog {conflict : SlotConflict} (reported : builder.reportConflict conflict location = some final) :
    final.catalog = builder.catalog := by
  simp only [reportConflict, Option.bind_eq_bind, Option.bind_eq_some_iff] at reported
  obtain ⟨left, -, right, -, note, -, reported⟩ := reported
  cases reported
  rfl

/-- A field that is made has a registered type and the name of its slot. -/
theorem settleSlot_edits {owner : String} {slot : Slot} {made : Option Field} (sound : builder.catalog.Sound)
    (known : ∀ declared ∈ slot.declared, builder.catalog.contains declared.ty = true)
    (settled : builder.settleSlot owner slot = some (made, final)) :
    Edits fits builder.catalog final.catalog ∧ ∀ field ∈ made, final.catalog.contains field.ty = true ∧
      final.catalog.strings.get? field.name = some slot.name ∧
      field.explicitDefault = slot.declared.any Declared.explicitDefault := by
  have own : ∀ ty ∈ slot.declared.map Declared.ty, builder.catalog.contains ty = true := by
    intro ty member
    obtain ⟨declared, present, rfl⟩ := List.mem_map.mp member
    exact known declared present
  obtain ⟨edits, inside⟩ := @resolveSlot_edits builder fits _ sound own
  simp only [settleSlot] at settled
  split at settled
  next after outcome =>
    rw [outcome] at edits
    cases settled
    exact ⟨edits, by simp⟩
  next ty after outcome =>
    rw [outcome] at edits inside
    cases settled
    refine ⟨edits.tail (.note after.catalog slot.name), ?_⟩
    rintro field ⟨⟩
    exact ⟨inside ty rfl, Interner.intern_get? after.catalog.strings slot.name, rfl⟩
  next conflict after outcome =>
    rw [outcome] at edits
    obtain ⟨reported, report, same⟩ := Option.map_eq_some_iff.mp settled
    cases same
    rw [← reportConflict_catalog report] at edits
    exact ⟨edits, by simp⟩

theorem resolveSlots_step {owner : String} {slot : Slot} {others : List Slot} {fields : List Field}
    (resolved : builder.resolveSlots owner (slot :: others) = some (fields, final)) :
    ∃ field middle remaining, builder.settleSlot owner slot = some (field, middle) ∧
      middle.resolveSlots owner others = some (remaining, final) ∧ fields = field.toList ++ remaining := by
  obtain ⟨⟨field, middle⟩, settled, resolved⟩ := Option.bind_eq_some_iff.mp resolved
  obtain ⟨⟨remaining, last⟩, recursive, same⟩ := Option.bind_eq_some_iff.mp resolved
  cases same
  exact ⟨field, middle, remaining, settled, recursive, rfl⟩

theorem resolveSlots_edits {owner : String} {slots : List Slot} {fields : List Field} (sound : builder.catalog.Sound)
    (known : ∀ slot ∈ slots, ∀ declared ∈ slot.declared, builder.catalog.contains declared.ty = true)
    (resolved : builder.resolveSlots owner slots = some (fields, final)) :
    Edits fits builder.catalog final.catalog ∧ ∀ field ∈ fields, final.catalog.contains field.ty = true ∧
      ∃ slot ∈ slots, final.catalog.strings.get? field.name = some slot.name ∧
        field.explicitDefault = slot.declared.any Declared.explicitDefault := by
  induction slots generalizing builder fields with
  | nil =>
    cases resolved
    exact ⟨.refl, by simp⟩
  | cons slot rest ih =>
    obtain ⟨first, middle, remaining, settled, recursive, rfl⟩ := resolveSlots_step resolved
    obtain ⟨edits, own⟩ := @settleSlot_edits _ middle fits _ _ _ sound (known slot (by simp)) settled
    obtain ⟨last, made⟩ := ih (edits.sound sound)
      (fun slot member declared present => edits.contains (known slot (by simp [member]) declared present)) recursive
    refine ⟨edits.trans last, ?_⟩
    intro field member
    rcases List.mem_append.mp member with member | member
    · obtain ⟨registered, spelled, explicit⟩ := own field (Option.mem_toList.mp member)
      exact ⟨last.contains registered, slot, by simp, last.get? spelled, explicit⟩
    · obtain ⟨registered, origin, listed, facts⟩ := made field member
      exact ⟨registered, origin, by simp [listed], facts⟩

/-- New fields in place of the old ones. -/
theorem withFields_edits {catalog : Catalog} {owner : TypeId} {fields : List Field}
    (known : ∀ field ∈ fields, catalog.contains field.ty = true ∧ field.name.index < catalog.strings.size) :
    Edits fits catalog (catalog.modifyShape owner fun shape => shape.withFields fields) := by
  refine modifyShape_edits _ _ _ (fun shape => shape.withFields_outline fields) ?_ ?_ ?_
  · intro shape found above member
    cases shape <;> exact .inl member
  · intro shape found part member
    cases shape with
    | record name isValue old =>
      obtain ⟨field, present, rfl⟩ := List.mem_map.mp member
      exact .inr (known field present).1
    | primary name old secondaries abstractions =>
      simp only [Shape.withFields, Shape.mentions, List.mem_append, List.mem_map] at member ⊢
      rcases member with (⟨field, member, rfl⟩ | member) | member
      · exact .inr (known field member).1
      · exact .inl (.inl (.inr member))
      · exact .inl (.inr member)
    | _ => exact .inl member
  · intro shape found symbol member
    cases shape with
    | record name isValue old | primary name old secondaries abstractions =>
      simp only [Shape.withFields, Shape.symbols, List.mem_append, List.mem_map] at member ⊢
      rcases member with member | ⟨field, member, rfl⟩
      · exact .inl (.inl member)
      · exact .inr (known field member).2
    | _ => exact .inl member

theorem defineMembers_edits {owner : TypeId} {members : List (Option TypeId × Member)} (sound : builder.catalog.Sound)
    (known : ∀ member ∈ members, ∀ ty ∈ member.2.mentions, builder.catalog.contains ty = true)
    (defined : builder.defineMembers owner members = some final) : Edits fits builder.catalog final.catalog := by
  simp only [defineMembers, Option.bind_eq_bind, Option.bind_eq_some_iff] at defined
  obtain ⟨shape, -, defined⟩ := defined
  split at defined
  · obtain ⟨name, -, defined⟩ := Option.bind_eq_some_iff.mp defined
    obtain ⟨⟨slots, collected⟩, collecting, defined⟩ := Option.bind_eq_some_iff.mp defined
    obtain ⟨⟨fields, resolved⟩, resolving, defined⟩ := Option.bind_eq_some_iff.mp defined
    cases defined
    obtain ⟨first, registered⟩ := @collectSlots_edits builder collected fits _ _ _ _ sound known (by simp) collecting
    obtain ⟨second, made⟩ := @resolveSlots_edits collected resolved fits _ _ _ (first.sound sound) registered resolving
    refine first.trans (second.trans (withFields_edits ?_))
    intro field member
    obtain ⟨registered, slot, -, spelled, -⟩ := made field member
    exact ⟨registered, Interner.index_lt_of_get? spelled⟩
  · rw [reportKind_catalog defined]

end Builder
end Interchange
