import Interchange.Catalog
import Mathlib.Logic.Relation

/-! How a table of types can change. Registration and locking make four kinds of small
changes only. What a table promises is kept by each of them, and so by every history. -/

namespace Interchange

namespace TypeId

@[simp] theorem ofPair_pair (pair : Nat) : (ofPair pair).pair = pair := rfl

@[simp] theorem ofPair_nullable (pair : Nat) : (ofPair pair).nullable = false := rfl

@[simp] theorem withNullability_pair (ty : TypeId) (nullable : Bool) : (ty.withNullability nullable).pair = ty.pair := rfl

@[simp] theorem withNullability_nullable (ty : TypeId) (nullable : Bool) :
    (ty.withNullability nullable).nullable = nullable := rfl

@[simp] theorem nonNull_pair (ty : TypeId) : ty.nonNull.pair = ty.pair := rfl

@[simp] theorem nonNull_nullable (ty : TypeId) : ty.nonNull.nullable = false := rfl

@[simp] theorem orNull_pair (ty : TypeId) : ty.orNull.pair = ty.pair := rfl

@[simp] theorem orNull_nullable (ty : TypeId) : ty.orNull.nullable = true := rfl

theorem nonNull_of_plain {ty : TypeId} (plain : ty.nullable = false) : ty.nonNull = ty := by
  cases ty
  cases plain
  rfl

theorem ext_iff_pair {first second : TypeId} :
    first = second ↔ first.pair = second.pair ∧ first.nullable = second.nullable := by
  cases first
  cases second
  simp

theorem isAny_iff {ty : TypeId} : ty.isAny = true ↔ ty.pair = 0 := by
  rw [isAny, beq_iff_eq, ext_iff_pair]
  exact ⟨And.left, fun same => ⟨same, rfl⟩⟩

theorem isAny_eq_false_iff {ty : TypeId} : ty.isAny = false ↔ ty.pair ≠ 0 := by
  rw [← Bool.not_eq_true, isAny_iff]

end TypeId

namespace Shape

def mentions : Shape → List TypeId
  | primary _ fields secondaries abstractions => fields.map Field.ty ++ secondaries ++ abstractions
  | abstraction _ generalizations allowed => generalizations ++ allowed
  | shape => shape.components

def symbols : Shape → List Symbol
  | tuple elements => elements.filterMap TupleElement.label
  | shape => shape.name?.toList ++ shape.fields.map Field.name

/-- The types that a shape stands on when it is entered. They stay what they are. -/
def foundation : Shape → List TypeId
  | secondary _ head => [head]
  | abstraction _ generalizations _ => generalizations
  | shape => shape.parts

/-- The interfaces directly above an interface; for a secondary, its primary. -/
def lineage : Shape → List TypeId
  | secondary _ head => [head]
  | shape => shape.parents

/-- A shape without what may be added to it later. -/
def outline : Shape → Shape
  | record name value _ => .record name value []
  | primary name _ _ _ => .primary name [] [] []
  | abstraction name generalizations _ => .abstraction name generalizations []
  | shape => shape

@[simp] theorem outline_kind (shape : Shape) : shape.outline.kind = shape.kind := by
  cases shape <;> rfl

@[simp] theorem outline_name? (shape : Shape) : shape.outline.name? = shape.name? := by
  cases shape <;> rfl

@[simp] theorem outline_foundation (shape : Shape) : shape.outline.foundation = shape.foundation := by
  cases shape <;> rfl

theorem outline_anonymous {shape : Shape} (anonymous : shape.name? = none) : shape.outline = shape := by
  cases shape <;> first | rfl | cases anonymous

theorem eq_of_outline_anonymous {before after : Shape} (same : after.outline = before.outline)
    (anonymous : before.name? = none) : after = before := by
  have unnamed : after.name? = none := by
    rw [← outline_name?, same, outline_name?, anonymous]
  rwa [outline_anonymous unnamed, outline_anonymous anonymous] at same

@[simp] theorem withFields_outline (shape : Shape) (fields : List Field) :
    (shape.withFields fields).outline = shape.outline := by
  cases shape <;> rfl

@[simp] theorem addSecondary_outline (shape : Shape) (ty : TypeId) : (shape.addSecondary ty).outline = shape.outline := by
  cases shape <;> rfl

@[simp] theorem addAbstraction_outline (shape : Shape) (ty : TypeId) :
    (shape.addAbstraction ty).outline = shape.outline := by
  cases shape <;> rfl

@[simp] theorem addAllowed_outline (shape : Shape) (ty : TypeId) : (shape.addAllowed ty).outline = shape.outline := by
  cases shape <;> rfl

theorem content?_eq_some_iff {shape content : Shape} : shape.content? = some content ↔ shape = content ∧ content.name? = none := by
  cases named : shape.name? <;> simp only [content?, named] <;> grind

theorem mem_adjoin {ids : List TypeId} {ty other : TypeId} (member : other ∈ adjoin ids ty) : other ∈ ids ∨ other = ty := by
  unfold adjoin at member
  split at member
  · exact .inl member
  · simpa using member

/-- The mentions of an anonymous shape are its parts. -/
theorem mentions_anonymous {shape : Shape} (anonymous : shape.name? = none) : shape.mentions = shape.parts := by
  cases shape <;> first | rfl | cases anonymous

theorem components_mentioned {shape : Shape} {ty : TypeId} (member : ty ∈ shape.components) : ty ∈ shape.mentions := by
  cases shape <;> simp_all [mentions, components]

theorem foundation_mentioned {shape : Shape} {ty : TypeId} (member : ty ∈ shape.foundation) : ty ∈ shape.mentions := by
  cases shape <;> simp_all [mentions, components, foundation, parts]

end Shape

namespace Entry

def mentions (entry : Entry) : List TypeId :=
  entry.shape.mentions ++ entry.forms.oblivious.toList ++ entry.forms.regular.join.toList

def symbols (entry : Entry) : List Symbol :=
  entry.shape.symbols ++ entry.externalName.toList ++ entry.previousNames

theorem mentions_shape {entry : Entry} {ty : TypeId} (member : ty ∈ entry.shape.mentions) : ty ∈ entry.mentions := by
  simp [mentions, member]

theorem index_keys {α : Type} (key : Shape → Option α) (entries : List Entry) :
    (index key entries).map Prod.fst = entries.filterMap fun entry => key entry.shape := by
  have from_pair (first : Nat) :
      (((entries.map fun entry => key entry.shape).zipIdx first).filterMap
        fun keyed => keyed.1.map (·, TypeId.ofPair keyed.2)).map Prod.fst = entries.filterMap fun entry => key entry.shape := by
    induction entries generalizing first with
    | nil => rfl
    | cons entry rest ih => cases given : key entry.shape <;> simp [given, ih]
  exact from_pair 0

/-- A search by key finds the first entry that has it. -/
theorem lookup_index {α : Type} [DecidableEq α] (key : Shape → Option α) (wanted : α)
    (entries : List Entry) :
    (index key entries).lookup wanted =
      (entries.findIdx? fun entry => key entry.shape = some wanted).map TypeId.ofPair := by
  -- The first pair has to be any number for the induction to go through.
  have from_pair (first : Nat) :
      (((entries.map fun entry => key entry.shape).zipIdx first).filterMap
        fun keyed => keyed.1.map (·, TypeId.ofPair keyed.2)).lookup wanted =
      (entries.findIdx? fun entry => key entry.shape = some wanted).map fun pair => TypeId.ofPair (pair + first) := by
    induction entries generalizing first with
    | nil => rfl
    | cons entry rest ih =>
      have later := ih (first + 1)
      cases given : key entry.shape with
      | none => simp [List.findIdx?_cons, given, later, Function.comp_def, Nat.add_comm, Nat.add_left_comm]
      | some found =>
        by_cases same : found = wanted
        · simp [List.findIdx?_cons, given, same]
        · have other : (wanted == found) = false := by simpa using Ne.symm same
          simp [List.findIdx?_cons, List.lookup_cons, given, same, other, later, Function.comp_def, Nat.add_comm, Nat.add_left_comm]
  exact from_pair 0

end Entry

namespace Catalog

def kind? (catalog : Catalog) (ty : TypeId) : Option Kind :=
  (catalog.shape? ty).map Shape.kind

variable {catalog : Catalog} {ty : TypeId}

theorem lookup_of_pair {first second : TypeId} (same : first.pair = second.pair) :
    catalog.entry? first = catalog.entry? second := by
  simp only [Catalog.entry?, same]

theorem shape?_of_pair {first second : TypeId} (same : first.pair = second.pair) :
    catalog.shape? first = catalog.shape? second := by
  simp only [shape?, lookup_of_pair same]

@[simp] theorem shape?_nonNull : catalog.shape? ty.nonNull = catalog.shape? ty := rfl

@[simp] theorem shape?_withNullability {nullable : Bool} :
    catalog.shape? (ty.withNullability nullable) = catalog.shape? ty := rfl

@[simp] theorem contains_nonNull : catalog.contains ty.nonNull = catalog.contains ty := rfl

theorem contains_iff : catalog.contains ty = true ↔ ty.pair < catalog.size := by
  simp [contains]

theorem entry_of_contains (inside : catalog.contains ty = true) : ∃ entry, catalog.entry? ty = some entry := by
  have bound := contains_iff.mp inside
  exact ⟨_, Array.getElem?_eq_getElem bound⟩

theorem contains_of_entry {entry : Entry} (found : catalog.entry? ty = some entry) : catalog.contains ty = true := by
  obtain ⟨inside, -⟩ := Array.getElem?_eq_some_iff.mp found
  exact contains_iff.mpr inside

theorem shape?_eq_some_iff {shape : Shape} :
    catalog.shape? ty = some shape ↔ ∃ entry, catalog.entry? ty = some entry ∧ entry.shape = shape := by
  simp [shape?]

theorem shape_of_contains (inside : catalog.contains ty = true) : ∃ shape, catalog.shape? ty = some shape := by
  obtain ⟨entry, found⟩ := entry_of_contains inside
  exact ⟨entry.shape, shape?_eq_some_iff.mpr ⟨entry, found, rfl⟩⟩

theorem contains_of_shape {shape : Shape} (found : catalog.shape? ty = some shape) : catalog.contains ty = true := by
  obtain ⟨entry, present, -⟩ := shape?_eq_some_iff.mp found
  exact contains_of_entry present

theorem kind?_of_shape {shape : Shape} (found : catalog.shape? ty = some shape) : catalog.kind? ty = some shape.kind := by
  simp [kind?, found]

theorem shape_of_kind {kind : Kind} (found : catalog.kind? ty = some kind) :
    ∃ shape, catalog.shape? ty = some shape ∧ shape.kind = kind := by
  simpa [kind?] using found

@[simp] theorem push_size (entry : Entry) : (catalog.push entry).2.size = catalog.size + 1 := by
  simp [push, size]

theorem push_lookup (entry : Entry) (ty : TypeId) :
    Catalog.entry? (catalog.push entry).2 ty = if ty.pair = catalog.size then some entry else catalog.entry? ty := by
  simp only [push, Catalog.entry?, Array.getElem?_push, size]
  rfl

theorem push_shape? (entry : Entry) (ty : TypeId) :
    (catalog.push entry).2.shape? ty = if ty.pair = catalog.size then some entry.shape else catalog.shape? ty := by
  simp only [shape?, push_lookup]
  split <;> rfl

theorem push_contains (entry : Entry) (inside : catalog.contains ty = true) :
    (catalog.push entry).2.contains ty = true := by
  rw [contains_iff, push_size]
  exact Nat.lt_succ_of_lt (contains_iff.mp inside)

variable {change : Entry → Entry} {keeps : ∀ entry, (change entry).shape.identity = entry.shape.identity}

@[simp] theorem modifyEntry_size (target : TypeId) : (catalog.modifyEntry target change keeps).size = catalog.size := by
  simp [modifyEntry, size]

@[simp] theorem modifyEntry_contains (target : TypeId) :
    (catalog.modifyEntry target change keeps).contains ty = catalog.contains ty := by
  simp [contains]

theorem modifyEntry_lookup (target ty : TypeId) :
    Catalog.entry? (catalog.modifyEntry target change keeps) ty =
      if target.pair = ty.pair then (catalog.entry? ty).map change else catalog.entry? ty := by
  simp only [modifyEntry, Catalog.entry?, Array.getElem?_modify]

/-- A change that leaves the shape alone leaves all shapes alone. -/
theorem modifyEntry_shape? {target : TypeId} (same : ∀ entry, (change entry).shape = entry.shape) (ty : TypeId) :
    (catalog.modifyEntry target change keeps).shape? ty = catalog.shape? ty := by
  rw [shape?, modifyEntry_lookup]
  split
  · rw [Option.map_map, shape?]
    exact congrArg (fun read => Option.map read _) (funext same)
  · rfl

theorem modifyShape_shape? (target : TypeId) (change : Shape → Shape)
    {keeps : ∀ shape, (change shape).identity = shape.identity} (ty : TypeId) :
    (catalog.modifyShape target change keeps).shape? ty =
      if target.pair = ty.pair then (catalog.shape? ty).map change else catalog.shape? ty := by
  rw [shape?, modifyShape, modifyEntry_lookup]
  split
  · rw [shape?, Option.map_map, Option.map_map]
    rfl
  · rfl

/-- What cannot be read off the changed part of an entry is the same for all entries. -/
theorem modifyEntry_bind {α : Type} {read : Entry → Option α} {target : TypeId}
    (same : ∀ entry, read (change entry) = read entry) (ty : TypeId) :
    (Catalog.entry? (catalog.modifyEntry target change keeps) ty).bind read = (catalog.entry? ty).bind read := by
  rw [modifyEntry_lookup]
  split
  · cases catalog.entry? ty <;> simp [same]
  · rfl

/-- What a new entry does not have is the same for all entries. -/
theorem push_bind {α : Type} {read : Entry → Option α} {entry : Entry} (bare : read entry = none) (ty : TypeId) :
    (Catalog.entry? (catalog.push entry).2 ty).bind read = (catalog.entry? ty).bind read := by
  rw [push_lookup]
  split
  next last =>
    have absent : catalog.entry? ty = none := Array.getElem?_eq_none (Nat.le_of_eq last.symm)
    rw [absent, Option.bind_some, bare, Option.bind_none]
  next => rfl

/-- Tables with the same entries have the same indexes. -/
theorem ext_entries {first second : Catalog} (strings : first.strings = second.strings)
    (entries : first.entries = second.entries) : first = second := by
  obtain ⟨strings₁, entries₁, _, _, rfl, rfl⟩ := first
  obtain ⟨strings₂, entries₂, _, _, rfl, rfl⟩ := second
  cases strings
  cases entries
  rfl

theorem named?_eq (catalog : Catalog) (name : Symbol) :
    catalog.named? name = (catalog.entries.findIdx? fun entry => entry.shape.name? = some name).map TypeId.ofPair := by
  rw [named?, catalog.names_eq, Entry.lookup_index, ← List.findIdx?_toArray]

theorem shapes_lookup (catalog : Catalog) (shape : Shape) :
    catalog.shapes.lookup shape =
      (catalog.entries.findIdx? fun entry => entry.shape.content? = some shape).map TypeId.ofPair := by
  rw [catalog.shapes_eq, Entry.lookup_index, ← List.findIdx?_toArray]

theorem named?_eq_none_iff {name : Symbol} :
    catalog.named? name = none ↔ ∀ ty shape, catalog.shape? ty = some shape → shape.name? ≠ some name := by
  simp only [named?_eq, Option.map_eq_none_iff, Array.findIdx?_eq_none_iff, decide_eq_false_iff_not]
  constructor
  · intro absent ty shape found same
    obtain ⟨entry, present, rfl⟩ := shape?_eq_some_iff.mp found
    exact absent entry (Array.mem_of_getElem? present) same
  · intro absent entry member same
    obtain ⟨pair, inside, rfl⟩ := Array.mem_iff_getElem.mp member
    refine absent (.ofPair pair) _ (shape?_eq_some_iff.mpr ⟨_, ?_, rfl⟩) same
    exact Array.getElem?_eq_getElem inside

theorem shape_of_named {name : Symbol} (found : catalog.named? name = some ty) :
    ty.nullable = false ∧ ∃ shape, catalog.shape? ty = some shape ∧ shape.name? = some name := by
  rw [named?_eq] at found
  obtain ⟨pair, present, rfl⟩ := Option.map_eq_some_iff.mp found
  obtain ⟨inside, same, -⟩ := Array.findIdx?_eq_some_iff_getElem.mp present
  refine ⟨rfl, catalog.entries[pair].shape, shape?_eq_some_iff.mpr ⟨catalog.entries[pair], ?_, rfl⟩, by simpa using same⟩
  exact Array.getElem?_eq_getElem inside

/-- A shape is found at the pair it was entered at, or else it is entered now. -/
theorem intern_cases (catalog : Catalog) (shape : Shape) :
    (∃ pair, catalog.intern shape = (.ofPair pair, catalog) ∧ catalog.shape? (.ofPair pair) = some shape) ∨
    (shape.name? = none → ∀ ty, catalog.shape? ty ≠ some shape) ∧ catalog.intern shape = catalog.push { shape } := by
  unfold intern
  rw [catalog.shapes_lookup]
  cases searched : catalog.entries.findIdx? fun entry => entry.shape.content? = some shape with
  | some pair =>
    obtain ⟨inside, same, -⟩ := Array.findIdx?_eq_some_iff_getElem.mp searched
    obtain ⟨same, -⟩ := Shape.content?_eq_some_iff.mp (of_decide_eq_true same)
    refine .inl ⟨pair, rfl, shape?_eq_some_iff.mpr ⟨catalog.entries[pair], ?_, same⟩⟩
    exact Array.getElem?_eq_getElem inside
  | none =>
    refine .inr ⟨?_, rfl⟩
    intro anonymous ty found
    obtain ⟨entry, present, rfl⟩ := shape?_eq_some_iff.mp found
    have different := Array.findIdx?_eq_none_iff.mp searched entry (Array.mem_of_getElem? present)
    exact of_decide_eq_false different (Shape.content?_eq_some_iff.mpr ⟨rfl, anonymous⟩)

theorem intern_shape (catalog : Catalog) (shape : Shape) :
    (catalog.intern shape).2.shape? (catalog.intern shape).1 = some shape := by
  obtain ⟨pair, same, found⟩ | ⟨-, same⟩ := catalog.intern_cases shape
  · rw [same]
    exact found
  · rw [same, push_shape?]
    exact if_pos rfl

/-- What may happen to an entry after it has been made. -/
structure Revision (catalog : Catalog) (before after : Entry) : Prop where
  outline : after.shape.outline = before.shape.outline
  lineage : ∀ above ∈ after.shape.lineage, above ∈ before.shape.lineage ∨
    above.nullable = false ∧ catalog.kind? above = some .abstraction
  mentions : ∀ part ∈ after.mentions, part ∈ before.mentions ∨ catalog.contains part = true
  symbols : ∀ symbol ∈ after.symbols, symbol ∈ before.symbols ∨ symbol.index < catalog.strings.size

/-- One small change. What a declared shape has to satisfy besides is left to `fits`. -/
inductive Edit (fits : Catalog → Shape → Prop) : Catalog → Catalog → Prop where
  | note (catalog : Catalog) (text : String) :
      Edit fits catalog { catalog with strings := (catalog.strings.intern text).2 }
  | enter {catalog : Catalog} {shape : Shape} (anonymous : shape.name? = none)
      (fresh : ∀ ty, catalog.shape? ty ≠ some shape)
      (known : ∀ part ∈ shape.mentions, catalog.contains part = true)
      (spelled : ∀ symbol ∈ shape.symbols, symbol.index < catalog.strings.size) :
      Edit fits catalog (catalog.push { shape }).2
  | declare {catalog : Catalog} {entry : Entry} {name : Symbol} (named : entry.shape.name? = some name)
      (fresh : catalog.named? name = none) (suits : fits catalog entry.shape)
      (plain : ∀ above ∈ entry.shape.lineage, above.nullable = false)
      (known : ∀ part ∈ entry.mentions, catalog.contains part = true)
      (spelled : ∀ symbol ∈ entry.symbols, symbol.index < catalog.strings.size) :
      Edit fits catalog (catalog.push entry).2
  | revise (catalog : Catalog) (ty : TypeId) (change : Entry → Entry)
      {keeps : ∀ entry, (change entry).shape.identity = entry.shape.identity}
      (revised : ∀ entry, catalog.entry? ty = some entry → Revision catalog entry (change entry)) :
      Edit fits catalog (catalog.modifyEntry ty change keeps)

abbrev Edits (fits : Catalog → Shape → Prop) : Catalog → Catalog → Prop :=
  Relation.ReflTransGen (Edit fits)

end Catalog
end Interchange
