import Interchange.Proofs.TypeOrder

/-! Types written out in full, every secondary as its primary. What a type unfolds to is
settled by its shape and its parts, and types below each other unfold to the same. -/

namespace Interchange

theorem Shape.name_spelled {shape : Shape} {name : Symbol} (named : shape.name? = some name) : name ∈ shape.symbols := by
  cases shape <;> simp_all [Shape.symbols, Shape.name?]

namespace Catalog

variable {catalog first second : Catalog} {ty : TypeId} {shape : Shape} {inner other : TypeId → Option Structure}

theorem mapM_congr {α β : Type} {items : List α} {left right : α → Option β}
    (agree : ∀ item ∈ items, left item = right item) : items.mapM left = items.mapM right := by
  induction items with
  | nil => rfl
  | cons item rest ih =>
    rw [List.mapM_cons, List.mapM_cons, agree item (by simp), ih fun item member => agree item (by simp [member])]

theorem mapM_isSome {α β : Type} {items : List α} {read : α → Option β}
    (answered : ∀ item ∈ items, (read item).isSome = true) : (items.mapM read).isSome = true := by
  induction items with
  | nil => rfl
  | cons item rest ih =>
    obtain ⟨value, found⟩ := Option.isSome_iff_exists.mp (answered item (by simp))
    obtain ⟨values, others⟩ := Option.isSome_iff_exists.mp (ih fun item member => answered item (by simp [member]))
    simp [List.mapM_cons, found, others]

theorem unfoldShape_congr (texts : ∀ symbol ∈ shape.symbols, second.strings.get? symbol = first.strings.get? symbol)
    (parts : ∀ part ∈ shape.parts, other part = inner part) :
    second.unfoldShape other shape = first.unfoldShape inner shape := by
  cases shape with
  | any | basic => rfl
  | enumeration name | record name | primary name | secondary name | abstraction name =>
    simp only [unfoldShape, texts name (Shape.name_spelled rfl)]
  | array | list | set | dictionary => simp_all [unfoldShape, Shape.parts]
  | union members =>
    have agree : members.mapM other = members.mapM inner := mapM_congr parts
    simp only [unfoldShape, agree]
  | tuple elements =>
    simp only [unfoldShape]
    congr 1
    apply mapM_congr
    intro element member
    have label : element.label.mapM second.strings.get? = element.label.mapM first.strings.get? := by
      cases labelled : element.label with
      | none => rfl
      | some symbol =>
        have listed : symbol ∈ (Shape.tuple elements).symbols := List.mem_filterMap.mpr ⟨element, member, labelled⟩
        simp [texts symbol listed]
    rw [label, parts element.ty (List.mem_map_of_mem member)]

theorem unfoldShape_isSome (texts : ∀ symbol ∈ shape.symbols, (catalog.strings.get? symbol).isSome = true)
    (parts : ∀ part ∈ shape.parts, (inner part).isSome = true) : (catalog.unfoldShape inner shape).isSome = true := by
  cases shape with
  | any | basic => rfl
  | enumeration name | record name | primary name | secondary name | abstraction name =>
    simpa [unfoldShape] using texts name (Shape.name_spelled rfl)
  | array | list | set => simp_all [unfoldShape, Shape.parts]
  | dictionary key value form =>
    obtain ⟨first, keyFound⟩ := Option.isSome_iff_exists.mp (parts key (by simp [Shape.parts]))
    obtain ⟨second, valueFound⟩ := Option.isSome_iff_exists.mp (parts value (by simp [Shape.parts]))
    simp [unfoldShape, keyFound, valueFound]
  | union members =>
    have answered : (members.mapM inner).isSome = true := mapM_isSome parts
    simpa [unfoldShape] using answered
  | tuple elements =>
    have answered : (elements.mapM fun element => (inner element.ty).bind fun item =>
        (element.label.mapM catalog.strings.get?).bind fun label => some (item, label)).isSome = true := by
      apply mapM_isSome
      intro element member
      obtain ⟨item, found⟩ := Option.isSome_iff_exists.mp (parts element.ty (List.mem_map_of_mem member))
      cases labelled : element.label with
      | none => simp [found]
      | some symbol =>
        have listed : symbol ∈ (Shape.tuple elements).symbols := List.mem_filterMap.mpr ⟨element, member, labelled⟩
        obtain ⟨text, spelled⟩ := Option.isSome_iff_exists.mp (texts symbol listed)
        simp [found, spelled]
    obtain ⟨unfolded, found⟩ := Option.isSome_iff_exists.mp answered
    simp [unfoldShape, found]

/-- A table and a later one write a type out alike, however many levels they allow beyond its own. -/
theorem unfoldWithin_congr {depth further : Nat}
    (shapes : ∀ ty shape, first.shape? ty = some shape → second.shape? ty = some shape)
    (texts : ∀ ty shape, first.shape? ty = some shape → ∀ symbol ∈ shape.symbols,
      second.strings.get? symbol = first.strings.get? symbol)
    (older : ∀ ty shape, first.shape? ty = some shape → ∀ part ∈ shape.parts, part.pair < ty.pair)
    (inside : first.contains ty = true) (deep : ty.pair < depth) (deeper : ty.pair < further) :
    second.unfoldWithin further ty = first.unfoldWithin depth ty := by
  induction depth generalizing further ty with
  | zero => omega
  | succ depth ih =>
    obtain ⟨shape, found⟩ := shape_of_contains inside
    cases further with
    | zero => omega
    | succ further =>
      have parts : ∀ part ∈ shape.parts, second.unfoldWithin further part = first.unfoldWithin depth part := by
        intro part member
        have smaller := older ty shape found part member
        have bound := contains_iff.mp inside
        exact ih (contains_iff.mpr (by omega)) (by omega) (by omega)
      simp only [unfoldWithin, found, shapes ty shape found, Option.bind_eq_bind, Option.bind_some,
        unfoldShape_congr (texts ty shape found) parts]

/-- A secondary gives way to its primary. -/
def headShape (catalog : Catalog) : Shape → Shape
  | .secondary name head => (catalog.shape? head).getD (.secondary name head)
  | shape => shape

def merged (catalog : Catalog) : Catalog :=
  .ofEntries catalog.strings (catalog.entries.map fun entry => { entry with shape := catalog.headShape entry.shape })

/-- A type written out in full, every secondary as its primary. -/
def familyStructure? (catalog : Catalog) (ty : TypeId) : Option Structure :=
  catalog.merged.unfolded? ty

theorem merged_shape? (catalog : Catalog) (ty : TypeId) : catalog.merged.shape? ty = (catalog.shape? ty).map catalog.headShape := by
  simp only [merged, ofEntries, shape?, Catalog.entry?, Array.getElem?_map, Option.map_map]
  rfl

@[simp] theorem merged_size (catalog : Catalog) : catalog.merged.size = catalog.size := by
  simp [merged, ofEntries, size]

theorem merged_contains (catalog : Catalog) (ty : TypeId) : catalog.merged.contains ty = catalog.contains ty := by
  simp [contains]

/-- The shape that stands for a type is found at the head of its family. -/
theorem family_shape (sound : catalog.Sound) (found : catalog.shape? ty = some shape) :
    catalog.shape? (shape.family ty) = some (catalog.headShape shape) := by
  cases shape with
  | secondary name head =>
    obtain ⟨headShape, headFound⟩ := shape_of_contains (family_known sound found)
    have present : catalog.shape? head = some headShape := headFound
    simp [Catalog.headShape, Shape.family, present]
  | _ => exact found

theorem headShape_parts (hierarchical : catalog.Hierarchical) (found : catalog.shape? ty = some shape) :
    (catalog.headShape shape).parts = shape.parts := by
  cases shape with
  | secondary name head =>
    obtain ⟨headShape, headFound, kind⟩ := shape_of_kind (hierarchical ty _ found)
    cases headShape <;> cases kind
    simp [Catalog.headShape, headFound, Shape.parts]
  | _ => rfl

theorem headShape_spelled (sound : catalog.Sound) (found : catalog.shape? ty = some shape) :
    ∀ symbol ∈ (catalog.headShape shape).symbols, ∃ text, catalog.strings.get? symbol = some text := by
  intro symbol member
  obtain ⟨entry, present, same⟩ := shape?_eq_some_iff.mp (family_shape sound found)
  apply Interner.get?_of_index_lt
  exact sound.spelled _ entry present symbol (by simp [Entry.symbols, same, member])

theorem parts_older (sound : catalog.Sound) (found : catalog.shape? ty = some shape) :
    ∀ part ∈ shape.parts, part.pair < ty.pair := by
  intro part member
  apply sound.ordered ty shape found part
  cases shape <;> first | exact member | cases member

theorem merged_parts_older (sound : catalog.Sound) (hierarchical : catalog.Hierarchical) (ty : TypeId) (shape : Shape)
    (found : catalog.merged.shape? ty = some shape) : ∀ part ∈ shape.parts, part.pair < ty.pair := by
  rw [merged_shape?] at found
  obtain ⟨own, present, rfl⟩ := Option.map_eq_some_iff.mp found
  rw [headShape_parts hierarchical present]
  exact parts_older sound present

/-- What is written out of a registered type stays as it is when the table grows. -/
theorem familyStructure?_extend {before after : Catalog} (extension : before.Extends after) (sound : before.Sound)
    (hierarchical : before.Hierarchical) (inside : before.contains ty = true) :
    after.familyStructure? ty = before.familyStructure? ty := by
  have shapes (ty : TypeId) (shape : Shape) (found : before.merged.shape? ty = some shape) :
      after.merged.shape? ty = some shape := by
    rw [merged_shape?] at found ⊢
    obtain ⟨own, present, rfl⟩ := Option.map_eq_some_iff.mp found
    rw [extension.shape present, Option.map_some]
    congr 1
    cases own with
    | secondary name head =>
      have kept := extension.known (family_known sound present)
      simp only [Shape.family] at kept
      simp only [headShape, kept]
    | _ => rfl
  apply unfoldWithin_congr shapes ?_ (merged_parts_older sound hierarchical)
  · rw [merged_contains]
    exact inside
  · rw [merged_size]
    exact Nat.lt_succ_of_lt (contains_iff.mp inside)
  · rw [merged_size]
    exact Nat.lt_succ_of_lt (contains_iff.mp (extension.contains inside))
  · intro ty shape found symbol member
    rw [merged_shape?] at found
    obtain ⟨own, present, rfl⟩ := Option.map_eq_some_iff.mp found
    obtain ⟨text, spelled⟩ := headShape_spelled sound present symbol member
    exact (extension.get? spelled).trans spelled.symm

/-- One level written out. -/
theorem familyStructure?_eq (sound : catalog.Sound) (hierarchical : catalog.Hierarchical)
    (found : catalog.shape? ty = some shape) :
    catalog.familyStructure? ty = (catalog.unfoldShape catalog.familyStructure? (catalog.headShape shape)).map fun bare =>
      if ty.nullable then .nullable bare else bare := by
  have inside := contains_iff.mp (contains_of_shape found)
  have parts : ∀ part ∈ (catalog.headShape shape).parts,
      catalog.merged.unfoldWithin catalog.size part = catalog.familyStructure? part := by
    intro part member
    rw [headShape_parts hierarchical found] at member
    have smaller := parts_older sound found part member
    apply unfoldWithin_congr (fun _ _ found => found) (fun _ _ _ _ _ => rfl) (merged_parts_older sound hierarchical)
    · rw [merged_contains]
      exact contains_iff.mpr (by omega)
    · rw [merged_size]
      omega
    · omega
  have level : catalog.merged.unfoldShape (catalog.merged.unfoldWithin catalog.size) (catalog.headShape shape) =
      catalog.unfoldShape catalog.familyStructure? (catalog.headShape shape) :=
    unfoldShape_congr (fun _ _ => rfl) parts
  rw [familyStructure?, unfolded?, merged_size, unfoldWithin, merged_shape?, found]
  simp only [Option.map_some, Option.bind_eq_bind, Option.bind_some, level, Option.pure_def]
  cases catalog.unfoldShape catalog.familyStructure? (catalog.headShape shape) <;> rfl

theorem familyStructure?_isSome (sound : catalog.Sound) (hierarchical : catalog.Hierarchical)
    (inside : catalog.contains ty = true) : (catalog.familyStructure? ty).isSome = true := by
  induction size : ty.pair using Nat.strongRecOn generalizing ty with
  | ind pair ih =>
    obtain ⟨shape, found⟩ := shape_of_contains inside
    rw [familyStructure?_eq sound hierarchical found, Option.isSome_map]
    apply unfoldShape_isSome
    · intro symbol member
      exact Option.isSome_iff_exists.mpr (headShape_spelled sound found symbol member)
    · intro part member
      rw [headShape_parts hierarchical found] at member
      have smaller := parts_older sound found part member
      have bound := contains_iff.mp inside
      exact ih part.pair (by omega) (contains_iff.mpr (by omega)) rfl

/-- Collections are written out alike if their items are. -/
theorem family_unfoldShape {family : Family} {item bound : TypeId} {form : CollectionForm} (items : inner item = inner bound) :
    catalog.unfoldShape inner (family.shape item form) = catalog.unfoldShape inner (family.shape bound form) := by
  cases family <;> simp only [Family.shape, unfoldShape, items]

theorem headShape_family {family : Family} {item : TypeId} {form : CollectionForm} :
    catalog.headShape (family.shape item form) = family.shape item form := by
  cases family <;> rfl

variable {lower upper : TypeId}

inductive Ordered.Mutual (catalog : Catalog) (lower upper : TypeId) : Prop where
  | same (same : lower.pair = upper.pair)
  | collection {item bound : TypeId} {family : Family} {form : CollectionForm}
      (lowerFound : catalog.shape? lower = some (family.shape item form))
      (upperFound : catalog.shape? upper = some (family.shape bound form))
      (forward : Below catalog item bound) (backward : Below catalog bound item)
  | interfaces {lowerShape upperShape : Shape} (lowerFound : catalog.shape? lower = some lowerShape)
      (upperFound : catalog.shape? upper = some upperShape)
      (heads : lowerShape.family lower.nonNull = upperShape.family upper.nonNull)

theorem Ordered.mutual (sound : catalog.Sound) (hierarchical : catalog.Hierarchical)
    (forward : Ordered catalog lower upper) (backward : Ordered catalog upper lower) : Mutual catalog lower upper := by
  cases forward with
  | same same => exact .same same
  | any first =>
    have found := sound.universal first
    cases backward with
    | same same => exact .same same.symm
    | any again => exact .same (again.trans first.symm)
    | array | collection | interfaces => grind
  | array lowerFound list upperFound items =>
    cases backward with
    | same same => exact .same same.symm
    | any first =>
      have found := sound.universal first
      grind
    | array | collection | interfaces => grind
  | @collection item bound family form wider lowerFound upperFound items forms =>
    cases backward with
    | same same => exact .same same.symm
    | any first =>
      have found := sound.universal first
      grind
    | array | interfaces => grind
    | collection upperAgain lowerAgain back wide =>
      rw [lowerFound] at lowerAgain
      rw [upperFound] at upperAgain
      obtain ⟨rfl, rfl, rfl⟩ := Family.shape_inj (Option.some.inj lowerAgain)
      obtain ⟨-, rfl, rfl⟩ := Family.shape_inj (Option.some.inj upperAgain)
      have equal : form = wider := by
        rcases forms with same | concrete
        · exact same
        · rcases wide with same | concrete'
          · exact same.symm
          · exact concrete.trans concrete'.symm
      subst equal
      exact .collection lowerFound upperFound items back
  | interfaces lowerFound upperFound lowerKind upperKind derives =>
    cases backward with
    | same same => exact .same same.symm
    | any first =>
      have found := sound.universal first
      grind
    | array | collection => grind
    | interfaces upperAgain lowerAgain _ _ back =>
      rw [lowerFound] at lowerAgain
      rw [upperFound] at upperAgain
      cases lowerAgain
      cases upperAgain
      exact .interfaces lowerFound upperFound (derives.antisymm sound hierarchical back)

/-- Types below each other are written out alike. -/
theorem Below.familyStructure?_eq (sound : catalog.Sound) (hierarchical : catalog.Hierarchical)
    (inside : catalog.contains lower = true) (forward : Below catalog lower upper) (backward : Below catalog upper lower) :
    catalog.familyStructure? lower = catalog.familyStructure? upper := by
  induction size : lower.pair using Nat.strongRecOn generalizing lower upper with
  | ind pair ih =>
    have nullable : lower.nullable = upper.nullable := by
      cases absent : upper.nullable with
      | true => exact backward.nullable absent
      | false => exact forward.plain absent
    cases (forward.ordered sound hierarchical).mutual sound hierarchical (backward.ordered sound hierarchical) with
    | same same => rw [TypeId.ext_iff_pair.mpr ⟨same, nullable⟩]
    | collection lowerFound upperFound items back =>
      have smaller := parts_older sound lowerFound _ Family.item_mem_parts
      have bound := contains_iff.mp inside
      have same := ih _ (by omega) (contains_iff.mpr (by omega)) items back rfl
      rw [Catalog.familyStructure?_eq sound hierarchical lowerFound,
        Catalog.familyStructure?_eq sound hierarchical upperFound, headShape_family, headShape_family, family_unfoldShape same,
        nullable]
    | @interfaces lowerShape upperShape lowerFound upperFound heads =>
      have lowerHead : catalog.shape? (lowerShape.family lower.nonNull) = _ := family_shape sound lowerFound
      have upperHead : catalog.shape? (upperShape.family upper.nonNull) = _ := family_shape sound upperFound
      rw [heads, upperHead] at lowerHead
      rw [Catalog.familyStructure?_eq sound hierarchical lowerFound,
        Catalog.familyStructure?_eq sound hierarchical upperFound, Option.some.inj lowerHead, nullable]

end Catalog
end Interchange
