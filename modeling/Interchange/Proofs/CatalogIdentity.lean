import Interchange.Proofs.LockedForms

/-! Ids stand for types. Content without a name is entered once, a declared name belongs to one type, the indexes by
content and by name list what the table holds, and two ids are the same exactly if the types written out in full are. -/

namespace Interchange

namespace Interner

variable {interner : Interner} {symbol : Symbol} {text : String}

theorem Distinct.find?_eq_some_iff (distinct : interner.Distinct) :
    interner.find? text = some symbol ↔ interner.get? symbol = some text := by
  constructor
  · exact get?_of_find?
  · intro spelled
    cases found : interner.find? text with
    | none => exact absurd spelled (find?_eq_none_iff.mp found symbol)
    | some other => rw [distinct other symbol text (get?_of_find? found) spelled]

theorem Distinct.intern_eq (distinct : interner.Distinct) (spelled : interner.get? symbol = some text) :
    interner.intern text = (symbol, interner) := by
  simp [intern, distinct.find?_eq_some_iff.mpr spelled]

end Interner

namespace Catalog

variable {catalog : Catalog} {first second ty : TypeId} {shape left right : Shape} {inner : TypeId → Option Structure}
  {unfolded : Structure} {text : String}

def declaredName? (catalog : Catalog) (ty : TypeId) : Option String :=
  (catalog.shape? ty).bind fun shape => shape.name?.bind catalog.strings.get?

inductive Unfolding (catalog : Catalog) (inner : TypeId → Option Structure) : Shape → Structure → Prop where
  | any : Unfolding catalog inner .any .any
  | basic (basic : BasicType) : Unfolding catalog inner (.basic basic) (.basic basic)
  | named {shape : Shape} {name : Symbol} {text : String} (named : shape.name? = some name)
      (spelled : catalog.strings.get? name = some text) : Unfolding catalog inner shape (.named text)
  | tuple {elements : List TupleElement} {items : List (Structure × Option String)}
      (unfolded : elements.mapM (fun element => (inner element.ty).bind fun item =>
        (element.label.mapM catalog.strings.get?).map fun label => (item, label)) = some items) :
      Unfolding catalog inner (.tuple elements) (.tuple items)
  | array {item : TypeId} {unfolded : Structure} (found : inner item = some unfolded) :
      Unfolding catalog inner (.array item) (.array unfolded)
  | list {item : TypeId} {form : CollectionForm} {unfolded : Structure} (found : inner item = some unfolded) :
      Unfolding catalog inner (.list item form) (.list unfolded form)
  | set {item : TypeId} {form : CollectionForm} {unfolded : Structure} (found : inner item = some unfolded) :
      Unfolding catalog inner (.set item form) (.set unfolded form)
  | dictionary {key value : TypeId} {form : CollectionForm} {unfoldedKey unfoldedValue : Structure}
      (keyFound : inner key = some unfoldedKey) (valueFound : inner value = some unfoldedValue) :
      Unfolding catalog inner (.dictionary key value form) (.dictionary unfoldedKey unfoldedValue form)
  | union {members : List TypeId} {unfolded : List Structure} (found : members.mapM inner = some unfolded) :
      Unfolding catalog inner (.union members) (.union unfolded)

theorem unfoldShape_some (answer : catalog.unfoldShape inner shape = some unfolded) :
    Unfolding catalog inner shape unfolded := by
  cases shape with
  | any =>
    cases answer
    exact .any
  | basic basic =>
    cases answer
    exact .basic basic
  | enumeration | record | primary | secondary | abstraction =>
    obtain ⟨text, spelled, rfl⟩ := Option.map_eq_some_iff.mp answer
    exact .named rfl spelled
  | array item =>
    obtain ⟨unfolded, found, rfl⟩ := Option.map_eq_some_iff.mp answer
    exact .array found
  | list item form =>
    obtain ⟨unfolded, found, rfl⟩ := Option.map_eq_some_iff.mp answer
    exact .list found
  | set item form =>
    obtain ⟨unfolded, found, rfl⟩ := Option.map_eq_some_iff.mp answer
    exact .set found
  | dictionary key value form =>
    obtain ⟨unfoldedKey, keyFound, answer⟩ := Option.bind_eq_some_iff.mp answer
    obtain ⟨unfoldedValue, valueFound, answer⟩ := Option.bind_eq_some_iff.mp answer
    cases answer
    exact .dictionary keyFound valueFound
  | tuple elements =>
    obtain ⟨items, found, answer⟩ := Option.bind_eq_some_iff.mp answer
    cases answer
    refine .tuple (Eq.trans (mapM_congr ?_) found)
    intro element member
    cases inner element.ty <;> cases element.label.mapM catalog.strings.get? <;> rfl
  | union members =>
    obtain ⟨unfolded, found, rfl⟩ := Option.map_eq_some_iff.mp answer
    exact .union found

theorem mapM_injective {α β : Type} {read : α → Option β} {items others : List α} {values : List β}
    (first : items.mapM read = some values) (second : others.mapM read = some values)
    (separate : ∀ item other value, read item = some value → read other = some value → item = other) : items = others := by
  induction items generalizing others values with
  | nil =>
    cases first
    cases others with
    | nil => rfl
    | cons other rest => simp [List.mapM_cons, Option.bind_eq_some_iff] at second
  | cons item rest ih =>
    simp only [List.mapM_cons, Option.bind_eq_bind, Option.bind_eq_some_iff] at first
    obtain ⟨value, found, later, rests, made⟩ := first
    cases made
    cases others with
    | nil => cases second
    | cons other more =>
      simp only [List.mapM_cons, Option.bind_eq_bind, Option.bind_eq_some_iff] at second
      obtain ⟨value', found', later', rests', made'⟩ := second
      cases made'
      rw [separate item other value found found', ih rests rests']

theorem label_injective (distinct : catalog.strings.Distinct) {symbol other : Option Symbol} {label : Option String}
    (first : symbol.mapM catalog.strings.get? = some label) (second : other.mapM catalog.strings.get? = some label) :
    symbol = other := by
  cases symbol with
  | none =>
    cases first
    cases other with
    | none => rfl
    | some other => simp at second
  | some symbol =>
    simp only [Option.mapM_some, Option.map_eq_map, Option.map_eq_some_iff] at first
    obtain ⟨text, spelled, rfl⟩ := first
    cases other with
    | none => cases second
    | some other =>
      simp only [Option.mapM_some, Option.map_eq_map, Option.map_eq_some_iff, Option.some.injEq] at second
      obtain ⟨text', spelled', rfl⟩ := second
      rw [distinct symbol other text' spelled spelled']

/-- Shapes that are written out alike have the same name or the same content, if parts that are written out alike are the same. -/
theorem Unfolding.identity (distinct : catalog.strings.Distinct)
    (separate : ∀ first second unfolded, inner first = some unfolded → inner second = some unfolded → first = second)
    (one : Unfolding catalog inner left unfolded) (two : Unfolding catalog inner right unfolded) :
    left.identity = right.identity := by
  cases one with
  | named name spelled =>
    cases two with
    | named name' spelled' =>
      rw [Shape.identity_named name, Shape.identity_named name', distinct _ _ _ spelled spelled']
  | any | basic =>
    cases two
    rfl
  | array found =>
    cases two with
    | array found' => rw [separate _ _ _ found found']
  | list found =>
    cases two with
    | list found' => rw [separate _ _ _ found found']
  | set found =>
    cases two with
    | set found' => rw [separate _ _ _ found found']
  | dictionary key value =>
    cases two with
    | dictionary key' value' => rw [separate _ _ _ key key', separate _ _ _ value value']
  | union found =>
    cases two with
    | union found' => rw [mapM_injective found found' separate]
  | tuple found =>
    cases two with
    | tuple found' =>
      rw [mapM_injective found found']
      intro element other value read read'
      obtain ⟨item, itemFound, labelled⟩ := Option.bind_eq_some_iff.mp read
      obtain ⟨item', itemFound', labelled'⟩ := Option.bind_eq_some_iff.mp read'
      obtain ⟨label, labelFound, rfl⟩ := Option.map_eq_some_iff.mp labelled
      obtain ⟨label', labelFound', same⟩ := Option.map_eq_some_iff.mp labelled'
      cases same
      obtain ⟨ty, symbol⟩ := element
      obtain ⟨ty', symbol'⟩ := other
      cases separate ty ty' item itemFound itemFound'
      have same : symbol = symbol' := label_injective distinct labelFound labelFound'
      rw [same]

/-- Nullability is told from outside: no shape is written out to a nullable type. -/
theorem Unfolding.plain {inside : Structure} (unfolding : Unfolding catalog inner shape unfolded) : unfolded ≠ .nullable inside := by
  rintro rfl
  cases unfolding

theorem unfoldWithin_succ {depth : Nat} (written : catalog.unfoldWithin (depth + 1) ty = some unfolded) :
    ∃ shape bare, catalog.shape? ty = some shape ∧ Unfolding catalog (catalog.unfoldWithin depth) shape bare ∧
      unfolded = if ty.nullable then .nullable bare else bare := by
  simp only [unfoldWithin, Option.bind_eq_bind, Option.bind_eq_some_iff, Option.pure_def, Option.some.injEq] at written
  obtain ⟨shape, found, bare, answer, rfl⟩ := written
  exact ⟨shape, bare, found, unfoldShape_some answer, rfl⟩

/-- Types that are written out alike are the same. -/
theorem unfoldWithin_injective (sound : catalog.Sound) {depth : Nat} (one : catalog.unfoldWithin depth first = some unfolded)
    (two : catalog.unfoldWithin depth second = some unfolded) : first = second := by
  induction depth generalizing first second unfolded with
  | zero => cases one
  | succ depth ih =>
    obtain ⟨left, leftBare, leftFound, leftUnfolding, leftMade⟩ := unfoldWithin_succ one
    obtain ⟨right, rightBare, rightFound, rightUnfolding, rightMade⟩ := unfoldWithin_succ two
    -- Both or neither are nullable, since what is inside never is.
    have same : first.nullable = second.nullable ∧ leftBare = rightBare := by
      rw [rightMade] at leftMade
      cases firstNull : first.nullable <;> cases secondNull : second.nullable <;>
        simp only [firstNull, secondNull, if_true, Bool.false_eq_true, if_false] at leftMade
      · exact ⟨rfl, leftMade.symm⟩
      · exact absurd leftMade.symm leftUnfolding.plain
      · exact absurd leftMade rightUnfolding.plain
      · exact ⟨rfl, (Structure.nullable.inj leftMade).symm⟩
    obtain ⟨nullable, rfl⟩ := same
    have identity := leftUnfolding.identity sound.distinct (fun _ _ _ one two => ih one two) rightUnfolding
    exact TypeId.ext_iff_pair.mpr ⟨sound.unique first second left right leftFound rightFound identity, nullable⟩

theorem unfoldWithin_isSome (sound : catalog.Sound) {depth : Nat} (inside : catalog.contains ty = true) (deep : ty.pair < depth) :
    (catalog.unfoldWithin depth ty).isSome = true := by
  induction depth generalizing ty with
  | zero => omega
  | succ depth ih =>
    obtain ⟨entry, present⟩ := entry_of_contains inside
    have found : catalog.shape? ty = some entry.shape := shape?_eq_some_iff.mpr ⟨entry, present, rfl⟩
    have level : (catalog.unfoldShape (catalog.unfoldWithin depth) entry.shape).isSome = true := by
      apply unfoldShape_isSome
      · intro symbol member
        apply Option.isSome_iff_exists.mpr
        exact Interner.get?_of_index_lt (sound.spelled ty entry present symbol (by simp [Entry.symbols, member]))
      · intro part member
        have smaller := parts_older sound found part member
        have bound := contains_iff.mp inside
        exact ih (contains_iff.mpr (by omega)) (by omega)
    obtain ⟨bare, answer⟩ := Option.isSome_iff_exists.mp level
    simp [unfoldWithin, found, answer]

/-- A type is written out from its parts, each written out in full. -/
theorem unfolded?_eq (sound : catalog.Sound) (found : catalog.shape? ty = some shape) :
    catalog.unfolded? ty = (catalog.unfoldShape catalog.unfolded? shape).map fun bare =>
      if ty.nullable then .nullable bare else bare := by
  have level : catalog.unfoldShape (catalog.unfoldWithin catalog.size) shape = catalog.unfoldShape catalog.unfolded? shape := by
    apply unfoldShape_congr fun _ _ => rfl
    intro part member
    have older := parts_older sound found part member
    have inside := contains_iff.mp (contains_of_shape found)
    exact unfoldWithin_congr (fun _ _ found => found) (fun _ _ _ _ _ => rfl) (fun _ _ found => parts_older sound found)
      (contains_iff.mpr (by omega)) (by omega) (by omega)
  rw [← level]
  simp only [unfolded?, unfoldWithin, found, Option.bind_eq_bind, Option.bind_some]
  cases catalog.unfoldShape (catalog.unfoldWithin catalog.size) shape <;> rfl

theorem unfolded?_cases (sound : catalog.Sound) (written : catalog.unfolded? ty = some unfolded) :
    ∃ shape bare, catalog.shape? ty = some shape ∧ Unfolding catalog catalog.unfolded? shape bare ∧
      unfolded = if ty.nullable then .nullable bare else bare := by
  cases found : catalog.shape? ty with
  | none => simp [unfolded?, unfoldWithin, found] at written
  | some shape =>
    rw [unfolded?_eq sound found] at written
    obtain ⟨bare, answer, rfl⟩ := Option.map_eq_some_iff.mp written
    exact ⟨shape, bare, rfl, unfoldShape_some answer, rfl⟩

theorem declaredName?_eq_some_iff : catalog.declaredName? ty = some text ↔
    ∃ shape name, catalog.shape? ty = some shape ∧ shape.name? = some name ∧ catalog.strings.get? name = some text := by
  simp [declaredName?, Option.bind_eq_some_iff]

/-- An index lists each key once, with the plain id of the pair that has it. -/
structure Indexed {α : Type} [DecidableEq α] (index : List (α × TypeId)) (key : TypeId → Option α) : Prop where
  distinct : (index.map Prod.fst).Nodup
  lookup : ∀ wanted ty, index.lookup wanted = some ty ↔ ty.nullable = false ∧ key ty = some wanted

/-- Keys that tell the pairs of a table apart index it. -/
theorem indexed_of_separate {α : Type} [DecidableEq α] {key : Shape → Option α}
    (separate : ∀ first second left right wanted, catalog.shape? first = some left → catalog.shape? second = some right →
      key left = some wanted → key right = some wanted → first.pair = second.pair) :
    Indexed (Entry.index key catalog.entries.toList) fun ty => (catalog.shape? ty).bind key := by
  have shaped {pair : Nat} (inside : pair < catalog.entries.size) :
      catalog.shape? (.ofPair pair) = some catalog.entries[pair].shape :=
    shape?_eq_some_iff.mpr ⟨catalog.entries[pair], Array.getElem?_eq_getElem inside, rfl⟩
  refine ⟨?_, ?_⟩
  · rw [Entry.index_keys, List.Nodup, List.pairwise_filterMap, List.pairwise_iff_getElem]
    rintro first second inside inside' earlier wanted one other two rfl
    have same := separate (.ofPair first) (.ofPair second) _ _ wanted (shaped inside) (shaped inside') one two
    exact absurd same (Nat.ne_of_lt earlier)
  · intro wanted ty
    have listed {ty : TypeId} (found : (Entry.index key catalog.entries.toList).lookup wanted = some ty) :
        ty.nullable = false ∧ ∃ shape, catalog.shape? ty = some shape ∧ key shape = some wanted := by
      rw [Entry.lookup_index] at found
      obtain ⟨pair, first, rfl⟩ := Option.map_eq_some_iff.mp found
      obtain ⟨inside, keyed, -⟩ := List.findIdx?_eq_some_iff_getElem.mp first
      exact ⟨rfl, _, shaped inside, of_decide_eq_true keyed⟩
    rw [Option.bind_eq_some_iff]
    constructor
    · exact listed
    · rintro ⟨plain, shape, present, keyed⟩
      cases found : (Entry.index key catalog.entries.toList).lookup wanted with
      | none =>
        obtain ⟨entry, stored, rfl⟩ := shape?_eq_some_iff.mp present
        simp only [Entry.lookup_index, Option.map_eq_none_iff, List.findIdx?_eq_none_iff] at found
        exact absurd keyed (of_decide_eq_false (found entry (Array.mem_toList_iff.mpr (Array.mem_of_getElem? stored))))
      | some other =>
        obtain ⟨otherPlain, otherShape, otherPresent, otherKeyed⟩ := listed found
        have paired := separate other ty otherShape shape wanted otherPresent present otherKeyed keyed
        rw [TypeId.ext_iff_pair.mpr ⟨paired, otherPlain.trans plain.symm⟩]

theorem Sound.shapes_indexed (sound : catalog.Sound) :
    Indexed catalog.shapes fun ty => (catalog.shape? ty).bind Shape.content? := by
  rw [catalog.shapes_eq]
  apply indexed_of_separate
  intro first second left right wanted leftFound rightFound leftKeyed rightKeyed
  obtain ⟨rfl, -⟩ := Shape.content?_eq_some_iff.mp leftKeyed
  obtain ⟨rfl, -⟩ := Shape.content?_eq_some_iff.mp rightKeyed
  exact sound.same_shape leftFound rightFound

theorem Sound.names_indexed (sound : catalog.Sound) :
    Indexed catalog.names fun ty => (catalog.shape? ty).bind Shape.name? := by
  rw [catalog.names_eq]
  apply indexed_of_separate
  intro first second left right wanted leftFound rightFound leftKeyed rightKeyed
  apply sound.unique first second left right leftFound rightFound
  rw [Shape.identity_named leftKeyed, Shape.identity_named rightKeyed]

theorem Sound.named?_eq_some_iff (sound : catalog.Sound) {name : Symbol} : catalog.named? name = some ty ↔
    ty.nullable = false ∧ ∃ shape, catalog.shape? ty = some shape ∧ shape.name? = some name := by
  rw [named?, sound.names_indexed.lookup, Option.bind_eq_some_iff]

theorem find?_eq_some_iff (sound : catalog.Sound) :
    catalog.find? text = some ty ↔ ty.nullable = false ∧ catalog.declaredName? ty = some text := by
  rw [declaredName?_eq_some_iff, find?, Option.bind_eq_some_iff]
  constructor
  · rintro ⟨name, spelled, found⟩
    obtain ⟨plain, shape, present, named⟩ := sound.named?_eq_some_iff.mp found
    exact ⟨plain, shape, name, present, named, Interner.get?_of_find? spelled⟩
  · rintro ⟨plain, shape, name, present, named, spelled⟩
    exact ⟨name, sound.distinct.find?_eq_some_iff.mpr spelled, sound.named?_eq_some_iff.mpr ⟨plain, shape, present, named⟩⟩

/-- Ids stand for types: content and names are not entered twice, and ids are told apart by what they unfold to. -/
structure Canonical (catalog : Catalog) : Prop where
  shapes : Indexed catalog.shapes fun ty => (catalog.shape? ty).bind Shape.content?
  names : Indexed catalog.names fun ty => (catalog.shape? ty).bind Shape.name?
  anonymous : ∀ first second shape, catalog.shape? first = some shape → catalog.shape? second = some shape →
    shape.name? = none → first.pair = second.pair
  named : ∀ first second name, catalog.declaredName? first = some name → catalog.declaredName? second = some name →
    first.pair = second.pair
  found : ∀ name ty, catalog.find? name = some ty ↔ ty.nullable = false ∧ catalog.declaredName? ty = some name
  unfolds : ∀ ty, catalog.contains ty = true → (catalog.unfolded? ty).isSome = true
  identified : ∀ first second, catalog.contains first = true → catalog.contains second = true →
    (first = second ↔ first.nullable = second.nullable ∧ catalog.unfolded? first.nonNull = catalog.unfolded? second.nonNull)

theorem Sound.canonical (sound : catalog.Sound) : catalog.Canonical := by
  have unfolds (ty : TypeId) (inside : catalog.contains ty = true) : (catalog.unfolded? ty).isSome = true :=
    unfoldWithin_isSome sound inside (Nat.lt_succ_of_lt (contains_iff.mp inside))
  refine ⟨sound.shapes_indexed, sound.names_indexed, ?_, ?_, fun name ty => find?_eq_some_iff sound, unfolds, ?_⟩
  · intro first second shape one two anonymous
    exact sound.same_shape one two
  · intro first second name one two
    obtain ⟨left, symbol, leftFound, leftNamed, spelled⟩ := declaredName?_eq_some_iff.mp one
    obtain ⟨right, other, rightFound, rightNamed, spelled'⟩ := declaredName?_eq_some_iff.mp two
    cases sound.distinct symbol other name spelled spelled'
    apply sound.unique first second left right leftFound rightFound
    rw [Shape.identity_named leftNamed, Shape.identity_named rightNamed]
  · intro first second inside inside'
    constructor
    · rintro rfl
      exact ⟨rfl, rfl⟩
    · rintro ⟨nullable, same⟩
      obtain ⟨unfolded, one⟩ := Option.isSome_iff_exists.mp (unfolds first.nonNull inside)
      have equal : first.nonNull = second.nonNull := unfoldWithin_injective sound one (same.symm.trans one)
      have paired : first.nonNull.pair = second.nonNull.pair := congrArg TypeId.pair equal
      exact TypeId.ext_iff_pair.mpr ⟨paired, nullable⟩

theorem Sound.intern_present (sound : catalog.Sound) (found : catalog.shape? ty = some shape) (anonymous : shape.name? = none) :
    catalog.intern shape = (ty.nonNull, catalog) := by
  obtain ⟨pair, same, present⟩ | ⟨fresh, -⟩ := catalog.intern_cases shape
  · rw [same, sound.eq_of_shape present (show catalog.shape? ty.nonNull = some shape from found) rfl]
  · exact absurd found (fresh anonymous ty)

def labels (catalog : Catalog) (elements : List TupleElement) : List (TypeId × Option String) :=
  elements.map fun element => (element.ty, element.label.bind catalog.strings.get?)

theorem label_labels (distinct : catalog.strings.Distinct) {elements : List TupleElement}
    (spelled : ∀ element ∈ elements, ∀ symbol ∈ element.label, symbol.index < catalog.strings.size) :
    catalog.label (catalog.labels elements) = (elements, catalog) := by
  induction elements with
  | nil => rfl
  | cons element rest ih =>
    have own : catalog.strings.internOption (element.label.bind catalog.strings.get?) = (element.label, catalog.strings) := by
      cases labelled : element.label with
      | none => rfl
      | some symbol =>
        obtain ⟨text, found⟩ := Interner.get?_of_index_lt (spelled element (by simp) symbol labelled)
        simp [Interner.internOption, found, distinct.intern_eq found]
    have others := ih fun other member => spelled other (by simp [member])
    simp only [labels] at others
    simp only [labels, List.map_cons, label, own, others]

end Catalog

namespace Builder

open Catalog

variable {builder : Builder}

/-- Content that is there already is found again, and nothing changes. -/
structure Reuses (builder : Builder) : Prop where
  array : ∀ ty item, builder.catalog.shape? ty = some (.array item) → builder.array item = (ty.nonNull, builder)
  list : ∀ ty item form, builder.catalog.shape? ty = some (.list item form) → builder.list item form = (ty.nonNull, builder)
  set : ∀ ty item form, builder.catalog.shape? ty = some (.set item form) → builder.set item form = (ty.nonNull, builder)
  dictionary : ∀ ty key value form, builder.catalog.shape? ty = some (.dictionary key value form) →
    builder.dictionary key value form = (ty.nonNull, builder)
  tuple : ∀ ty items, builder.catalog.shape? ty = some (.tuple (items.map TupleElement.positional)) →
    builder.tuple items = (ty.nonNull, builder)
  namedTuple : ∀ ty elements, builder.catalog.shape? ty = some (.tuple elements) →
    builder.namedTuple (builder.catalog.labels elements) = (ty.nonNull, builder)
  union : ∀ ty members, builder.catalog.shape? ty = some (.unionOf members) → builder.union members = (ty.nonNull, builder)

theorem reuses_of_sound (sound : builder.catalog.Sound) : builder.Reuses := by
  have reuse {ty : TypeId} {shape : Shape} (anonymous : shape.name? = none) (found : builder.catalog.shape? ty = some shape) :
      builder.intern shape = (ty.nonNull, builder) := by
    rw [Builder.intern, sound.intern_present found anonymous]
  refine ⟨fun _ _ => reuse rfl, fun _ _ _ => reuse rfl, fun _ _ _ => reuse rfl, fun _ _ _ _ => reuse rfl, fun _ _ => reuse rfl, ?_,
    fun _ _ => reuse rfl⟩
  intro ty elements found
  obtain ⟨entry, present, same⟩ := shape?_eq_some_iff.mp found
  have labelled : builder.catalog.label (builder.catalog.labels elements) = (elements, builder.catalog) := by
    apply label_labels sound.distinct
    intro element member symbol label
    apply sound.spelled ty entry present symbol
    have listed : symbol ∈ (Shape.tuple elements).symbols := List.mem_filterMap.mpr ⟨element, member, label⟩
    simp [Entry.symbols, same, listed]
  rw [namedTuple, labelled]
  exact reuse rfl found

/-- After every registration, and in the system that comes of it, an id is a type. -/
theorem ids_identify_types (reached : builder.Reached) :
    builder.catalog.Canonical ∧ builder.Reuses ∧
      ∃ system, builder.lock = some (system, builder.diagnostics) ∧ system.catalog.Canonical := by
  have sound := Reached.sound reached
  obtain ⟨system, locked, completes⟩ := Reached.locked reached
  exact ⟨sound.canonical, reuses_of_sound sound, system, locked, completes.forming.sound.canonical⟩

theorem ids_identify_types_forest : forest.Reached ∧
    forest.namedTuple [(.ofPair 20, some "Trees"), (.ofPair 20, none)] = (.ofPair 21, forest) ∧
    forest.catalog.find? "Node" = some (.ofPair 19) ∧
    ∃ system, forest.lock = some (system, forest.diagnostics) ∧ system.catalog.Canonical := by
  obtain ⟨canonical, reuses, system, locked, lockedCanonical⟩ := ids_identify_types forest_reached
  refine ⟨forest_reached, ?_, ?_, system, locked, lockedCanonical⟩
  · have texts : forest.catalog.labels [⟨.ofPair 20, some ⟨2⟩⟩, ⟨.ofPair 20, none⟩] =
        [(.ofPair 20, some "Trees"), (.ofPair 20, none)] := by decide +kernel
    rw [← texts]
    exact reuses.namedTuple (.ofPair 21) [⟨.ofPair 20, some ⟨2⟩⟩, ⟨.ofPair 20, none⟩] (by decide +kernel)
  · exact (canonical.found "Node" (.ofPair 19)).mpr (by decide +kernel)

end Builder
end Interchange
