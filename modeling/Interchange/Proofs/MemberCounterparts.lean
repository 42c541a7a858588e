import Interchange.Proofs.CounterpartRuns
import Interchange.Proofs.FieldDeclarations

/-! Declarations of members in two tables that have grown out of a common one. A declaration passes its checks in both
or in neither, with types that are written out alike; what was declared besides it makes no difference. -/

namespace Interchange

namespace Catalog

variable {base one two before after catalog : Catalog} {shape : Shape}

theorem intern_develops (anonymous : shape.name? = none) (known : ∀ part ∈ shape.parts, catalog.contains part = true)
    (spelled : ∀ symbol ∈ shape.symbols, symbol.index < catalog.strings.size) :
    catalog.Develops (catalog.intern shape).2 := by
  have edits : Edits (fun _ _ => True) catalog (catalog.intern shape).2 := intern_edits anonymous known spelled
  refine ⟨?_, edits.sound⟩
  obtain ⟨pair, same, -⟩ | ⟨-, same⟩ := catalog.intern_cases shape
  · rw [same]
    exact .refl catalog
  · rw [same]
    exact .push anonymous

theorem note_develops (catalog : Catalog) (text : String) :
    catalog.Develops { catalog with strings := (catalog.strings.intern text).2 } := by
  have edits : Edits (fun _ _ => True) catalog { catalog with strings := (catalog.strings.intern text).2 } :=
    .single (.note catalog text)
  refine ⟨⟨id, ?_, fun found => Interner.intern_keeps text found⟩, edits.sound⟩
  intro ty shape found missing
  cases (show catalog.shape? ty = some shape from found).symm.trans missing

theorem Extends.label (extension : before.Extends after) {label : Option Symbol} {text : Option String}
    (spelled : label.mapM before.strings.get? = some text) : label.mapM after.strings.get? = some text := by
  cases label with
  | none => exact spelled
  | some symbol =>
    simp only [Option.mapM_some, Option.map_eq_map, Option.map_eq_some_iff] at spelled ⊢
    obtain ⟨text, spelled, same⟩ := spelled
    exact ⟨text, extension.get? spelled, same⟩

/-- The elements have the given types, and labels that are spelled as given. -/
theorem label_spelled (catalog : Catalog) (items : List (TypeId × Option String)) :
    catalog.Develops (catalog.label items).2 ∧ List.Forall₂ (fun item element => element.ty = item.1 ∧
      element.label.mapM (catalog.label items).2.strings.get? = some item.2) items (catalog.label items).1 := by
  induction items generalizing catalog with
  | nil => exact ⟨.refl catalog, .nil⟩
  | cons item rest ih =>
    obtain ⟨ty, text⟩ := item
    obtain ⟨develops, labelled⟩ := ih { catalog with strings := (catalog.strings.internOption text).2 }
    have own : catalog.Develops { catalog with strings := (catalog.strings.internOption text).2 } ∧
        (catalog.strings.internOption text).1.mapM (catalog.strings.internOption text).2.get? = some text := by
      cases text with
      | none => exact ⟨.refl catalog, rfl⟩
      | some text => exact ⟨catalog.note_develops text, by simp [Interner.internOption, Interner.intern_get?]⟩
    exact ⟨own.1.trans develops, .cons ⟨rfl, develops.extension.label own.2⟩ labelled⟩

theorem mapM_of_forall₂ {α β γ : Type} {read : α → Option γ} {see : β → Option γ} {items : List α} {others : List β}
    (agree : List.Forall₂ (fun item other => see other = read item) items others) : others.mapM see = items.mapM read := by
  induction agree with
  | nil => rfl
  | cons own _ ih => rw [List.mapM_cons, List.mapM_cons, own, ih]

theorem display?_known (sound : catalog.Sound) {ty : TypeId} (inside : catalog.contains ty = true) :
    ∃ text, catalog.display? ty = some text := by
  obtain ⟨unfolded, found⟩ := Option.isSome_iff_exists.mp (sound.canonical.unfolds ty inside)
  exact ⟨unfolded.text, by rw [display?, found, Option.map_some]⟩

/-- The elements of tuples are built alike, and no other type is a tuple. -/
theorem AlikeShapes.tuples {shape shape' : Shape} (shapes : AlikeShapes base one two shape shape')
    (branches : Branches base one two) :
    (∃ elements others, shape = .tuple elements ∧ shape' = .tuple others ∧
      List.Forall₂ (fun element other => Alike one two element.ty other.ty) elements others) ∨
    (∀ elements, shape ≠ .tuple elements) ∧ ∀ elements, shape' ≠ .tuple elements := by
  cases shapes with
  | tuple items => exact .inl ⟨_, _, rfl, rfl, items⟩
  | union | array => exact .inr ⟨nofun, nofun⟩
  | collection families => cases families <;> exact .inr ⟨nofun, nofun⟩
  | fixed known =>
    cases shape with
    | tuple elements =>
      refine .inl ⟨elements, elements, rfl, rfl, List.forall₂_same.mpr ?_⟩
      intro element member
      exact branches.old (known element.ty (List.mem_map_of_mem member))
    | _ => exact .inr ⟨nofun, nofun⟩

end Catalog

namespace Builder

open Catalog

variable {base : Catalog} {one two : Builder} {member : Member} {location : Location}

/-- Both checks drop what they check, or keep related results. -/
inductive Checked {α : Type} (related : Catalog → Catalog → α → α → Prop) (one two : Builder) :
    Option (Option α × Builder) → Option (Option α × Builder) → Prop where
  | dropped {later further : Builder} (first : one.catalog.Develops later.catalog)
      (second : two.catalog.Develops further.catalog) : Checked related one two (some (none, later)) (some (none, further))
  | kept {value other : α} {later further : Builder} (first : one.catalog.Develops later.catalog)
      (second : two.catalog.Develops further.catalog) (alike : related later.catalog further.catalog value other) :
      Checked related one two (some (some value, later)) (some (some other, further))

theorem union_alike {members : List TypeId} (branches : Branches base one.catalog two.catalog)
    (known : ∀ ty ∈ members, base.contains ty = true) :
    one.catalog.Develops (one.union members).2.catalog ∧ two.catalog.Develops (two.union members).2.catalog ∧
      Alike (one.union members).2.catalog (two.union members).2.catalog (one.union members).1 (two.union members).1 := by
  have listed : ∀ part ∈ (Shape.unionOf members).parts, base.contains part = true :=
    fun part member => known part (List.mem_eraseDups.mp member)
  have develops {catalog : Catalog} (extension : base.Extends catalog) :
      catalog.Develops (catalog.intern (.unionOf members)).2 :=
    intern_develops rfl (fun part member => extension.contains (listed part member))
      (by simp [Shape.unionOf, Shape.symbols, Shape.name?, Shape.fields])
  have first := develops branches.oneExtends
  have second := develops branches.twoExtends
  have grew := branches.grow first second
  refine ⟨first, second, ?_⟩
  have parts : List.Forall₂ (Alike (one.catalog.intern (.unionOf members)).2 (two.catalog.intern (.unionOf members)).2)
      members.eraseDups members.eraseDups :=
    List.forall₂_same.mpr fun part member => grew.old (listed part member)
  obtain ⟨unfolded, written, written'⟩ := mapM_of_paired parts
  exact Alike.of_level grew (one.catalog.intern_shape _) (two.catalog.intern_shape _)
    (Option.map_eq_some_iff.mpr ⟨unfolded, written, rfl⟩) (Option.map_eq_some_iff.mpr ⟨unfolded, written', rfl⟩)
    ((one.catalog.intern_plain _).trans (two.catalog.intern_plain _).symm)

theorem memberShape_agree (branches : Branches base one.catalog two.catalog)
    (known : ∀ ty ∈ member.mentions, base.contains ty = true) :
    Checked Alike one two (one.memberShape member location) (two.memberShape member location) := by
  have inside : base.contains member.ty.nonNull = true := known member.ty (by simp [Member.mentions])
  cases listed : member.union with
  | none =>
    simp only [memberShape, listed]
    exact .kept (.refl _) (.refl _) (branches.old inside)
  | some members =>
    have parts : ∀ ty ∈ members, base.contains ty = true := fun ty present => known ty (by simp [Member.mentions, listed, present])
    cases universal : member.ty.nonNull.isAny with
    | true =>
      cases empty : members.isEmpty with
      | true =>
        simp only [memberShape, listed, universal, empty, ↓reduceIte]
        exact .dropped (.refl _) (.refl _)
      | false =>
        simp only [memberShape, listed, universal, empty, ↓reduceIte, Bool.false_eq_true]
        obtain ⟨first, second, alike⟩ := union_alike branches parts
        exact .kept first second alike
    | false =>
      obtain ⟨text, shown⟩ := display?_known branches.oneSound (branches.oneExtends.contains inside)
      obtain ⟨text', shown'⟩ := display?_known branches.twoSound (branches.twoExtends.contains inside)
      simp only [memberShape, listed, universal, ↓reduceIte, Bool.false_eq_true, shown, shown', Option.bind_eq_bind,
        Option.bind_some]
      exact .dropped (.refl _) (.refl _)

/-- A tuple with labels is entered, and it is written out as it was given. -/
theorem namedTuple_written (builder : Builder) {items : List (TypeId × Option String)}
    (known : ∀ item ∈ items, builder.catalog.contains item.1 = true) :
    builder.catalog.Develops (builder.namedTuple items).2.catalog ∧ (builder.namedTuple items).1.nullable = false ∧
      ∃ elements, (builder.namedTuple items).2.catalog.shape? (builder.namedTuple items).1 = some (.tuple elements) ∧
        ∀ inner, (builder.namedTuple items).2.catalog.unfoldShape inner (.tuple elements) =
          (items.mapM fun item => (inner item.1).map fun unfolded => (unfolded, item.2)).map Structure.tuple := by
  obtain ⟨develops, labelled⟩ := builder.catalog.label_spelled items
  have entered : (builder.catalog.label items).2.Develops (builder.namedTuple items).2.catalog := by
    obtain ⟨-, types, spelled⟩ := @label_edits (fun _ _ => True) builder.catalog items
    apply intern_develops rfl
    · intro part member
      simp only [Shape.parts, types, List.mem_map] at member
      obtain ⟨item, member, rfl⟩ := member
      exact develops.extension.contains (known item member)
    · intro symbol member
      obtain ⟨element, member, present⟩ := List.mem_filterMap.mp member
      exact spelled element member symbol present
  refine ⟨develops.trans entered, intern_plain _ _, (builder.catalog.label items).1, intern_shape _ _, ?_⟩
  intro inner
  simp only [unfoldShape]
  rw [mapM_of_forall₂ (labelled.imp fun item element own => ?_)]
  · cases items.mapM fun item => (inner item.1).map fun unfolded => (unfolded, item.2) <;> rfl
  · rw [own.1, entered.extension.label own.2]
    cases inner item.1 <;> rfl

/-- Labels make tuples that are written out alike, of tuples that are. -/
theorem namedTuple_alike {elements others : List TupleElement} (names : List (Option String))
    (branches : Branches base one.catalog two.catalog)
    (alike : List.Forall₂ (fun element other => Alike one.catalog two.catalog element.ty other.ty) elements others) :
    one.catalog.Develops (one.namedTuple ((elements.map TupleElement.ty).zip names)).2.catalog ∧
      two.catalog.Develops (two.namedTuple ((others.map TupleElement.ty).zip names)).2.catalog ∧
      Alike (one.namedTuple ((elements.map TupleElement.ty).zip names)).2.catalog
        (two.namedTuple ((others.map TupleElement.ty).zip names)).2.catalog
        (one.namedTuple ((elements.map TupleElement.ty).zip names)).1
        (two.namedTuple ((others.map TupleElement.ty).zip names)).1 := by
  have paired : List.Forall₂ (fun item other => Alike one.catalog two.catalog item.1 other.1 ∧ item.2 = other.2)
      ((elements.map TupleElement.ty).zip names) ((others.map TupleElement.ty).zip names) := by
    induction alike generalizing names with
    | nil => exact .nil
    | cons own _ ih =>
      cases names with
      | nil => exact .nil
      | cons name names => exact .cons ⟨own, rfl⟩ (ih names)
  generalize (elements.map TupleElement.ty).zip names = items at paired ⊢
  generalize (others.map TupleElement.ty).zip names = items' at paired ⊢
  have known := ((List.forall₂_and_left _ _).mp (paired.imp fun item other both => ⟨both.1.known branches, both⟩)).1
  have known' := ((List.forall₂_and_left _ _).mp
    (paired.flip.imp fun other item both => ⟨Alike.known both.1.symm branches.symm, both⟩)).1
  obtain ⟨first, plain, made, found, written⟩ := one.namedTuple_written known
  obtain ⟨second, plain', made', found', written'⟩ := two.namedTuple_written known'
  have grew := branches.grow first second
  refine ⟨first, second, ?_⟩
  have each : List.Forall₂ (fun item other => ∃ value,
      ((one.namedTuple items).2.catalog.unfolded? item.1).map (fun unfolded => (unfolded, item.2)) = some value ∧
      ((two.namedTuple items').2.catalog.unfolded? other.1).map (fun unfolded => (unfolded, other.2)) = some value)
      items items' := by
    refine paired.imp ?_
    intro item other both
    obtain ⟨unfolded, found, found'⟩ := both.1.extend branches first second
    exact ⟨(unfolded, item.2), by rw [found, Option.map_some], by rw [found', Option.map_some, both.2]⟩
  obtain ⟨values, read, read'⟩ := mapM_of_paired each
  exact Alike.of_level grew found found' (by rw [written, read, Option.map_some]) (by rw [written', read', Option.map_some])
    (plain.trans plain'.symm)

theorem labelled_agree {ty ty' : TypeId} {names : List (Option String)} (branches : Branches base one.catalog two.catalog)
    (alike : Alike one.catalog two.catalog ty ty') :
    Checked Alike one two (one.labelled ty names location) (two.labelled ty' names location) := by
  cases given : names.isEmpty with
  | true =>
    simp only [labelled, given, ↓reduceIte]
    exact .kept (.refl _) (.refl _) alike
  | false =>
    obtain ⟨shape, shape', found, found', shapes⟩ := alike.shapes branches
    obtain ⟨elements, others, rfl, rfl, items⟩ | ⟨other, other'⟩ := shapes.tuples branches
    · have lengths : elements.length = others.length := items.length_eq
      by_cases complete : elements.length = names.length
      · simp only [labelled, given, found, found', ← lengths, complete, Bool.false_eq_true, ↓reduceIte]
        obtain ⟨first, second, made⟩ := namedTuple_alike names branches items
        exact .kept first second made
      · simp only [labelled, given, found, found', ← lengths, complete, Bool.false_eq_true, ↓reduceIte]
        exact .dropped (.refl _) (.refl _)
    · obtain ⟨text, shown⟩ := display?_known branches.oneSound (alike.known branches)
      obtain ⟨text', shown'⟩ := display?_known branches.twoSound (alike.symm.known branches.symm)
      simp only [labelled, given, found, found', shown, shown', Bool.false_eq_true, ↓reduceIte, Option.bind_eq_bind,
        Option.bind_some]
      exact .kept (.refl _) (.refl _) alike

theorem memberAttributes_same : (one.memberAttributes member location).1 = (two.memberAttributes member location).1 := by
  unfold memberAttributes
  cases member.blob with
  | none => rfl
  | some text =>
    dsimp only
    cases Attributes.ofString text <;> rfl

end Builder

namespace Catalog

structure AlikeDeclared (one two : Catalog) (declared other : Declared) : Prop where
  ty : Alike one two declared.ty other.ty
  explicitDefault : declared.explicitDefault = other.explicitDefault
  origin : declared.origin = other.origin

structure AlikeSlots (one two : Catalog) (slot other : Slot) : Prop where
  name : slot.name = other.name
  declared : List.Forall₂ (AlikeDeclared one two) slot.declared other.declared

variable {base one two later further : Catalog}

theorem AlikeDeclared.any {slot slot' : List Declared} (alike : List.Forall₂ (AlikeDeclared one two) slot slot') :
    slot.any Declared.explicitDefault = slot'.any Declared.explicitDefault := by
  induction alike with
  | nil => rfl
  | cons own _ ih => rw [List.any_cons, List.any_cons, own.explicitDefault, ih]

theorem AlikeDeclared.first {slot slot' : List Declared} (alike : List.Forall₂ (AlikeDeclared one two) slot slot') :
    slot.head?.bind Declared.origin = slot'.head?.bind Declared.origin := by
  cases alike with
  | nil => rfl
  | cons own => exact own.origin

theorem AlikeSlots.self {slot : Slot} (sound : one.Sound) (known : ∀ declared ∈ slot.declared, one.contains declared.ty = true) :
    AlikeSlots one one slot slot :=
  ⟨rfl, List.forall₂_same.mpr fun declared member => ⟨(Branches.self sound).old (known declared member), rfl, rfl⟩⟩

theorem AlikeSlots.extend {slot other : Slot} (alike : AlikeSlots one two slot other) (branches : Branches base one two)
    (first : one.Develops later) (second : two.Develops further) : AlikeSlots later further slot other :=
  ⟨alike.name, alike.declared.imp fun _ _ own => ⟨own.ty.extend branches first second, own.explicitDefault, own.origin⟩⟩

theorem AlikeSlots.insert {name : String} {declared other : Declared} {slots slots' : List Slot}
    (alike : List.Forall₂ (AlikeSlots one two) slots slots') (own : AlikeDeclared one two declared other) :
    List.Forall₂ (AlikeSlots one two) (Slot.insert name declared slots) (Slot.insert name other slots') := by
  induction alike with
  | nil => exact .cons ⟨rfl, .cons own .nil⟩ .nil
  | @cons slot slot' rest rest' first others ih =>
    simp only [Slot.insert, ← first.name]
    split
    · exact .cons ⟨rfl, List.rel_append first.declared (.cons own .nil)⟩ others
    · exact .cons first ih

end Catalog

/-- A declaration of a name that is kept is kept, whatever is left out besides. -/
theorem Slot.filter_insert {keep : String → Bool} {name : String} {declared : Declared} {slots : List Slot} :
    (Slot.insert name declared slots).filter (fun slot => keep slot.name) =
      if keep name then Slot.insert name declared (slots.filter fun slot => keep slot.name)
      else slots.filter fun slot => keep slot.name := by
  induction slots with
  | nil => cases kept : keep name <;> simp [Slot.insert, kept]
  | cons slot rest ih =>
    by_cases same : slot.name = name
    · cases kept : keep name <;> simp [Slot.insert, same, kept]
    · cases kept : keep name <;> cases other : keep slot.name <;> simp [Slot.insert, same, kept, other, ih]

namespace Builder

open Catalog

variable {base : Catalog} {one two : Builder} {member : Member} {location : Location}

theorem checkMember_agree {origin : Option TypeId} (branches : Branches base one.catalog two.catalog)
    (known : ∀ ty ∈ member.mentions, base.contains ty = true) :
    Checked AlikeDeclared one two (one.checkMember member origin location) (two.checkMember member origin location) := by
  have same := @memberAttributes_same one two member location
  have kept := @memberAttributes_catalog one member location
  have kept' := @memberAttributes_catalog two member location
  simp only [checkMember]
  generalize one.memberAttributes member location = outcome at same kept ⊢
  generalize two.memberAttributes member location = outcome' at same kept' ⊢
  obtain ⟨attributes, one'⟩ := outcome
  obtain ⟨attributes', two'⟩ := outcome'
  cases same
  have first : one.catalog.Develops one'.catalog := by
    rw [show one'.catalog = one.catalog from kept]
    exact .refl _
  have second : two.catalog.Develops two'.catalog := by
    rw [show two'.catalog = two.catalog from kept']
    exact .refl _
  cases attributes with
  | none => exact .dropped first second
  | some attributes =>
    by_cases accessors : member.read = member.write
    · simp only [accessors, ↓reduceIte]
      have grew := branches.grow first second
      have shaped := @memberShape_agree base one' two' member location grew known
      generalize one'.memberShape member location = outcome at shaped ⊢
      generalize two'.memberShape member location = outcome' at shaped ⊢
      cases shaped with
      | dropped third fourth => exact .dropped (first.trans third) (second.trans fourth)
      | @kept ty ty' one' two' third fourth alike =>
        have further := grew.grow third fourth
        have labels := @labelled_agree base one' two' location ty ty' attributes.tupleNames further alike
        dsimp only
        generalize one'.labelled ty attributes.tupleNames location = outcome at labels ⊢
        generalize two'.labelled ty' attributes.tupleNames location = outcome' at labels ⊢
        cases labels with
        | dropped fifth sixth => exact .dropped ((first.trans third).trans fifth) ((second.trans fourth).trans sixth)
        | kept fifth sixth alike =>
          exact .kept ((first.trans third).trans fifth) ((second.trans fourth).trans sixth)
            ⟨alike.withNullability (further.grow fifth sixth) _, rfl, rfl⟩
    · simp only [accessors, ↓reduceIte]
      exact .dropped first second

/-- Declarations that are left out take nothing away from the others. -/
theorem collectSlots_agree {keep : String → Bool} {owner : String} {members : List (Option TypeId × Member)}
    {slots slots' : List Slot} (branches : Branches base one.catalog two.catalog)
    (known : ∀ member ∈ members, ∀ ty ∈ member.2.mentions, base.contains ty = true)
    (alike : List.Forall₂ (AlikeSlots one.catalog two.catalog) (slots.filter fun slot => keep slot.name) slots') :
    ∃ result later result' further, one.collectSlots owner slots members = some (result, later) ∧
      two.collectSlots owner slots' (members.filter fun member => keep member.2.name) = some (result', further) ∧
      one.catalog.Develops later.catalog ∧ two.catalog.Develops further.catalog ∧
      List.Forall₂ (AlikeSlots later.catalog further.catalog) (result.filter fun slot => keep slot.name) result' := by
  induction members generalizing one two slots slots' with
  | nil => exact ⟨slots, one, slots', two, rfl, rfl, .refl _, .refl _, alike⟩
  | cons first rest ih =>
    obtain ⟨origin, member⟩ := first
    have own := known (origin, member) (by simp)
    have others : ∀ member ∈ rest, ∀ ty ∈ member.2.mentions, base.contains ty = true :=
      fun member present => known member (by simp [present])
    have advance {later further : Builder} {slots slots' : List Slot} (first : one.catalog.Develops later.catalog)
        (second : two.catalog.Develops further.catalog)
        (alike : List.Forall₂ (AlikeSlots later.catalog further.catalog) (slots.filter fun slot => keep slot.name) slots') :
        ∃ result one' result' two', later.collectSlots owner slots rest = some (result, one') ∧
          further.collectSlots owner slots' (rest.filter fun member => keep member.2.name) = some (result', two') ∧
          one.catalog.Develops one'.catalog ∧ two.catalog.Develops two'.catalog ∧
          List.Forall₂ (AlikeSlots one'.catalog two'.catalog) (result.filter fun slot => keep slot.name) result' := by
      obtain ⟨result, one', result', two', collected, collected', third, fourth, settled⟩ :=
        ih (branches.grow first second) others alike
      exact ⟨result, one', result', two', collected, collected', first.trans third, second.trans fourth, settled⟩
    cases kept : keep member.name with
    | true =>
      have checked := @checkMember_agree base one two member (.ofMember owner member.name) origin branches own
      rw [List.filter_cons_of_pos (by exact kept)]
      simp only [collectSlots]
      generalize one.checkMember member origin (.ofMember owner member.name) = outcome at checked ⊢
      generalize two.checkMember member origin (.ofMember owner member.name) = outcome' at checked ⊢
      cases checked with
      | dropped first second => exact advance first second (alike.imp fun _ _ slot => slot.extend branches first second)
      | kept first second pair =>
        apply advance first second
        rw [Slot.filter_insert, if_pos kept]
        exact AlikeSlots.insert (alike.imp fun _ _ slot => slot.extend branches first second) pair
    | false =>
      have inside : ∀ ty ∈ member.mentions, one.catalog.contains ty = true :=
        fun ty mentioned => branches.oneExtends.contains (own ty mentioned)
      have checked := @checkMember_agree one.catalog one one member (.ofMember owner member.name) origin
        (.self branches.oneSound) inside
      rw [List.filter_cons_of_neg (by simp [kept])]
      simp only [collectSlots]
      generalize one.checkMember member origin (.ofMember owner member.name) = outcome at checked ⊢
      cases checked with
      | dropped first => exact advance first (.refl _) (alike.imp fun _ _ slot => slot.extend branches first (.refl _))
      | kept first =>
        apply advance first (.refl _)
        rw [Slot.filter_insert, if_neg (by simp [kept])]
        exact alike.imp fun _ _ slot => slot.extend branches first (.refl _)

end Builder
end Interchange
