import Interchange.Proofs.CatalogEdits

/-! What every table of types promises: ids that occur in it are registered, types are
entered after those they stand on, and no name or nameless content is entered twice. -/

namespace Interchange

namespace Interner

variable {interner : Interner} {symbol : Symbol} {text : String}

theorem find?_eq_none_iff : interner.find? text = none ↔ ∀ symbol, interner.get? symbol ≠ some text := by
  simp only [find?, get?, Option.map_eq_none_iff, Array.findIdx?_eq_none_iff, beq_eq_false_iff_ne]
  constructor
  · intro absent symbol found
    exact absent _ (Array.mem_of_getElem? found) rfl
  · intro absent other member same
    obtain ⟨index, inside, rfl⟩ := Array.mem_iff_getElem.mp member
    exact absent ⟨index⟩ (by rw [Array.getElem?_eq_getElem inside, same])

theorem get?_of_find? (found : interner.find? text = some symbol) : interner.get? symbol = some text := by
  simp only [find?, Option.map_eq_some_iff] at found
  obtain ⟨index, found, rfl⟩ := found
  obtain ⟨inside, same, -⟩ := Array.findIdx?_eq_some_iff_getElem.mp found
  simpa [get?, Array.getElem?_eq_getElem inside] using same

theorem index_lt_of_get? (found : interner.get? symbol = some text) : symbol.index < interner.size :=
  (Array.getElem?_eq_some_iff.mp found).1

theorem get?_of_index_lt (inside : symbol.index < interner.size) : ∃ text, interner.get? symbol = some text :=
  ⟨_, Array.getElem?_eq_getElem inside⟩

/-- A string is found, or it is appended. -/
theorem intern_cases (interner : Interner) (text : String) :
    (∃ symbol, interner.intern text = (symbol, interner) ∧ interner.get? symbol = some text) ∨
    (∀ symbol, interner.get? symbol ≠ some text) ∧
      interner.intern text = (⟨interner.size⟩, ⟨interner.strings.push text⟩) := by
  unfold intern
  split
  next symbol found => exact .inl ⟨symbol, rfl, get?_of_find? found⟩
  next absent => exact .inr ⟨find?_eq_none_iff.mp absent, rfl⟩

theorem push_get? (symbol : Symbol) :
    Interner.get? ⟨interner.strings.push text⟩ symbol = if symbol.index = interner.size then some text else interner.get? symbol := by
  simp only [get?, Array.getElem?_push, size]
  rfl

theorem intern_keeps (text : String) {other : String} (found : interner.get? symbol = some other) :
    (interner.intern text).2.get? symbol = some other := by
  obtain ⟨_, same, -⟩ | ⟨-, same⟩ := intern_cases interner text
  · rw [same]
    exact found
  · have inside := index_lt_of_get? found
    rw [same, push_get?, if_neg (by omega), found]

theorem intern_get? (interner : Interner) (text : String) :
    (interner.intern text).2.get? (interner.intern text).1 = some text := by
  obtain ⟨symbol, same, found⟩ | ⟨-, same⟩ := intern_cases interner text
  · rw [same]
    exact found
  · rw [same, push_get?, if_pos rfl]

theorem intern_size_le (interner : Interner) (text : String) : interner.size ≤ (interner.intern text).2.size := by
  obtain ⟨_, same, -⟩ | ⟨-, same⟩ := intern_cases interner text <;> simp [same, size]

def Distinct (interner : Interner) : Prop :=
  ∀ first second text, interner.get? first = some text → interner.get? second = some text → first = second

theorem intern_distinct (distinct : interner.Distinct) (text : String) : (interner.intern text).2.Distinct := by
  obtain ⟨_, same, -⟩ | ⟨absent, same⟩ := intern_cases interner text
  · rw [same]
    exact distinct
  · intro first second other left right
    rw [same, push_get?] at left right
    split at left <;> split at right
    next firstLast secondLast => exact congrArg Symbol.mk (firstLast.trans secondLast.symm)
    next =>
      cases left
      exact absurd right (absent second)
    next =>
      cases right
      exact absurd left (absent first)
    next => exact distinct first second other left right

end Interner

namespace Shape

theorem identity_named {shape : Shape} {name : Symbol} (named : shape.name? = some name) : shape.identity = .inl name := by
  simp [identity, named]

theorem identity_anonymous {shape : Shape} (anonymous : shape.name? = none) : shape.identity = .inr shape := by
  simp [identity, anonymous]

theorem identity_of_outline {before after : Shape} (same : after.outline = before.outline) :
    after.identity = before.identity := by
  have names : after.name? = before.name? := by rw [← outline_name?, same, outline_name?]
  cases named : before.name? with
  | some name => rw [identity_named named, identity_named (names.trans named)]
  | none => rw [eq_of_outline_anonymous same named]

/-- Secondaries belong to primaries, and what is above an interface is an abstraction. -/
def Fits (catalog : Catalog) : Shape → Prop
  | .secondary _ head => catalog.kind? head = some .primary
  | shape => ∀ above ∈ shape.parents, catalog.kind? above = some .abstraction

theorem fits_anonymous {catalog : Catalog} {shape : Shape} (anonymous : shape.name? = none) : shape.Fits catalog := by
  cases shape <;> first | exact fun _ member => (List.not_mem_nil member).elim | cases anonymous

end Shape

namespace Catalog

/-- No name and no nameless content is entered twice. -/
def Unique (catalog : Catalog) : Prop :=
  ∀ first second left right, catalog.shape? first = some left → catalog.shape? second = some right →
    left.identity = right.identity → first.pair = second.pair

structure Sound (catalog : Catalog) : Prop where
  any : catalog.shape? .any = some .any
  basics : ∀ basic : BasicType, catalog.shape? basic.id = some (.basic basic)
  closed : ∀ ty entry, catalog.entry? ty = some entry → ∀ part ∈ entry.mentions, catalog.contains part = true
  ordered : ∀ ty shape, catalog.shape? ty = some shape → ∀ part ∈ shape.foundation, part.pair < ty.pair
  plain : ∀ ty shape, catalog.shape? ty = some shape → ∀ above ∈ shape.lineage, above.nullable = false
  unique : catalog.Unique
  spelled : ∀ ty entry, catalog.entry? ty = some entry → ∀ symbol ∈ entry.symbols, symbol.index < catalog.strings.size
  distinct : catalog.strings.Distinct

def Fresh (catalog : Catalog) (shape : Shape) : Prop :=
  ∀ ty other, catalog.shape? ty = some other → other.identity ≠ shape.identity

/-- Interface hierarchies are built from the right kinds. -/
def Hierarchical (catalog : Catalog) : Prop :=
  ∀ ty shape, catalog.shape? ty = some shape → shape.Fits catalog

def Implementing (catalog : Catalog) : Prop :=
  ∀ ty shape, catalog.shape? ty = some shape → shape.kind = .primary → shape.Fits catalog

variable {catalog before after : Catalog} {fits : Catalog → Shape → Prop}

theorem Fresh.of_anonymous {shape : Shape} (anonymous : shape.name? = none) (absent : ∀ ty, catalog.shape? ty ≠ some shape) :
    catalog.Fresh shape := by
  intro ty other found same
  rw [Shape.identity_anonymous anonymous] at same
  cases named : other.name? with
  | some name =>
    rw [Shape.identity_named named] at same
    cases same
  | none =>
    rw [Shape.identity_anonymous named] at same
    cases same
    exact absent ty found

theorem Fresh.of_named {shape : Shape} {name : Symbol} (named : shape.name? = some name) (absent : catalog.named? name = none) :
    catalog.Fresh shape := by
  intro ty other found same
  rw [Shape.identity_named named] at same
  cases spelled : other.name? with
  | some text =>
    rw [Shape.identity_named spelled] at same
    cases same
    exact named?_eq_none_iff.mp absent ty other found spelled
  | none =>
    rw [Shape.identity_anonymous spelled] at same
    cases same

theorem Unique.push {entry : Entry} (unique : catalog.Unique) (fresh : catalog.Fresh entry.shape) :
    (catalog.push entry).2.Unique := by
  intro first second left right leftFound rightFound same
  rw [push_shape?] at leftFound rightFound
  split at leftFound <;> split at rightFound
  next firstLast secondLast => exact firstLast.trans secondLast.symm
  next =>
    cases leftFound
    exact absurd same.symm (fresh second right rightFound)
  next =>
    cases rightFound
    exact absurd same (fresh first left leftFound)
  next => exact unique first second left right leftFound rightFound same

/-- Entries that come from others with the same outlines are told apart like those. -/
theorem Unique.of_outlines (unique : before.Unique)
    (origins : ∀ ty shape, after.shape? ty = some shape → ∃ old, before.shape? ty = some old ∧ shape.outline = old.outline) :
    after.Unique := by
  intro first second left right leftFound rightFound same
  obtain ⟨oldLeft, leftOrigin, leftSame⟩ := origins first left leftFound
  obtain ⟨oldRight, rightOrigin, rightSame⟩ := origins second right rightFound
  rw [Shape.identity_of_outline leftSame, Shape.identity_of_outline rightSame] at same
  exact unique first second oldLeft oldRight leftOrigin rightOrigin same

namespace Sound

theorem mentioned (sound : catalog.Sound) {ty part : TypeId} {shape : Shape} (found : catalog.shape? ty = some shape)
    (member : part ∈ shape.mentions) : catalog.contains part = true := by
  obtain ⟨entry, present, rfl⟩ := shape?_eq_some_iff.mp found
  exact sound.closed ty entry present part (Entry.mentions_shape member)

theorem universal (sound : catalog.Sound) {ty : TypeId} (first : ty.pair = 0) : catalog.shape? ty = some .any := by
  have same : catalog.shape? ty = catalog.shape? .any := shape?_of_pair first
  exact same.trans sound.any

theorem same_shape (sound : catalog.Sound) {first second : TypeId} {shape : Shape}
    (left : catalog.shape? first = some shape) (right : catalog.shape? second = some shape) : first.pair = second.pair :=
  sound.unique first second shape shape left right rfl

private theorem push (sound : catalog.Sound) (entry : Entry) (fresh : catalog.Fresh entry.shape)
    (plain : ∀ above ∈ entry.shape.lineage, above.nullable = false)
    (known : ∀ part ∈ entry.mentions, catalog.contains part = true)
    (spelled : ∀ symbol ∈ entry.symbols, symbol.index < catalog.strings.size) : (catalog.push entry).2.Sound := by
  have keeps {ty : TypeId} {shape : Shape} (found : catalog.shape? ty = some shape) :
      (catalog.push entry).2.shape? ty = some shape := by
    have inside := contains_iff.mp (contains_of_shape found)
    rw [push_shape?, if_neg (by omega), found]
  constructor
  · exact keeps sound.any
  · exact fun basic => keeps (sound.basics basic)
  · intro ty found present part member
    rw [push_lookup] at present
    split at present
    · cases present
      exact push_contains _ (known part member)
    · exact push_contains _ (sound.closed ty found present part member)
  · intro ty shape found part member
    rw [push_shape?] at found
    split at found
    next last =>
      cases found
      have inside := known part (Entry.mentions_shape (Shape.foundation_mentioned member))
      rw [last]
      exact contains_iff.mp inside
    next => exact sound.ordered ty shape found part member
  · intro ty shape found above member
    rw [push_shape?] at found
    split at found
    · cases found
      exact plain above member
    · exact sound.plain ty shape found above member
  · exact Unique.push sound.unique fresh
  · intro ty found present symbol member
    rw [push_lookup] at present
    split at present
    · cases present
      exact spelled symbol member
    · exact sound.spelled ty found present symbol member
  · exact sound.distinct

private theorem note (sound : catalog.Sound) (text : String) :
    Sound { catalog with strings := (catalog.strings.intern text).2 } := by
  refine ⟨sound.any, sound.basics, sound.closed, sound.ordered, sound.plain, sound.unique, ?_, ?_⟩
  · intro ty entry present symbol member
    exact Nat.lt_of_lt_of_le (sound.spelled ty entry present symbol member) (Interner.intern_size_le _ text)
  · exact Interner.intern_distinct sound.distinct text

end Sound

/-- A revised entry comes from one with the same outline. -/
theorem revised_entry (ty : TypeId) (change : Entry → Entry)
    {keeps : ∀ entry, (change entry).shape.identity = entry.shape.identity}
    (revised : ∀ entry, catalog.entry? ty = some entry → Revision catalog entry (change entry))
    {other : TypeId} {entry : Entry} (present : Catalog.entry? (catalog.modifyEntry ty change keeps) other = some entry) :
    ∃ old, catalog.entry? other = some old ∧ (entry = old ∨ Revision catalog old entry) := by
  rw [modifyEntry_lookup] at present
  split at present
  next same =>
    obtain ⟨old, found, rfl⟩ := Option.map_eq_some_iff.mp present
    exact ⟨old, found, .inr (revised old (lookup_of_pair same ▸ found))⟩
  next => exact ⟨entry, present, .inl rfl⟩

theorem revised_shape (ty : TypeId) (change : Entry → Entry)
    {keeps : ∀ entry, (change entry).shape.identity = entry.shape.identity}
    (revised : ∀ entry, catalog.entry? ty = some entry → Revision catalog entry (change entry))
    {other : TypeId} {shape : Shape} (found : (catalog.modifyEntry ty change keeps).shape? other = some shape) :
    ∃ old, catalog.shape? other = some old ∧ shape.outline = old.outline ∧
      ∀ above ∈ shape.lineage, above ∈ old.lineage ∨ above.nullable = false ∧ catalog.kind? above = some .abstraction := by
  obtain ⟨entry, present, rfl⟩ := shape?_eq_some_iff.mp found
  obtain ⟨old, origin, rfl | revision⟩ := revised_entry ty change revised present
  · exact ⟨entry.shape, shape?_eq_some_iff.mpr ⟨entry, origin, rfl⟩, rfl, fun _ member => .inl member⟩
  · exact ⟨old.shape, shape?_eq_some_iff.mpr ⟨old, origin, rfl⟩, revision.outline, revision.lineage⟩

namespace Edit

/-- Nothing registered goes away, and its outline stays. -/
theorem outline (edit : Edit fits before after) {ty : TypeId} {shape : Shape} (found : before.shape? ty = some shape) :
    ∃ later, after.shape? ty = some later ∧ later.outline = shape.outline := by
  cases edit with
  | note text => exact ⟨shape, found, rfl⟩
  | enter anonymous fresh known spelled =>
    have inside := contains_iff.mp (contains_of_shape found)
    exact ⟨shape, by rw [push_shape?, if_neg (by omega), found], rfl⟩
  | declare named fresh suits plain known spelled =>
    have inside := contains_iff.mp (contains_of_shape found)
    exact ⟨shape, by rw [push_shape?, if_neg (by omega), found], rfl⟩
  | revise target change revised =>
    obtain ⟨entry, present, rfl⟩ := shape?_eq_some_iff.mp found
    by_cases same : target.pair = ty.pair
    · refine ⟨(change entry).shape, shape?_eq_some_iff.mpr ⟨change entry, ?_, rfl⟩, ?_⟩
      · rw [modifyEntry_lookup, if_pos same, present]
        rfl
      · exact (revised entry (lookup_of_pair same ▸ present)).outline
    · refine ⟨entry.shape, shape?_eq_some_iff.mpr ⟨entry, ?_, rfl⟩, rfl⟩
      rw [modifyEntry_lookup, if_neg same, present]

theorem kind (edit : Edit fits before after) {ty : TypeId} {kind : Kind} (found : before.kind? ty = some kind) :
    after.kind? ty = some kind := by
  obtain ⟨shape, present, rfl⟩ := shape_of_kind found
  obtain ⟨later, kept, same⟩ := edit.outline present
  rw [kind?_of_shape kept, ← Shape.outline_kind, same, Shape.outline_kind]

theorem get? (edit : Edit fits before after) {symbol : Symbol} {text : String}
    (found : before.strings.get? symbol = some text) : after.strings.get? symbol = some text := by
  cases edit with
  | note other => exact Interner.intern_keeps other found
  | enter | declare | revise => exact found

private theorem revise_unique (unique : catalog.Unique) (ty : TypeId) (change : Entry → Entry)
    {keeps : ∀ entry, (change entry).shape.identity = entry.shape.identity}
    (revised : ∀ entry, catalog.entry? ty = some entry → Revision catalog entry (change entry)) :
    (catalog.modifyEntry ty change keeps).Unique := by
  refine unique.of_outlines ?_
  intro other shape found
  obtain ⟨old, origin, same, -⟩ := revised_shape ty change revised found
  exact ⟨old, origin, same⟩

private theorem revise_sound (sound : catalog.Sound) (ty : TypeId) (change : Entry → Entry)
    {keeps : ∀ entry, (change entry).shape.identity = entry.shape.identity}
    (revised : ∀ entry, catalog.entry? ty = some entry → Revision catalog entry (change entry)) :
    (catalog.modifyEntry ty change keeps).Sound := by
  have keeps {other : TypeId} {shape : Shape} (found : catalog.shape? other = some shape) (anonymous : shape.name? = none) :
      (catalog.modifyEntry ty change keeps).shape? other = some shape := by
    have edit : Edit (fun _ _ => True) catalog (catalog.modifyEntry ty change keeps) := .revise catalog ty change revised
    obtain ⟨later, kept, same⟩ := edit.outline found
    rw [kept, Shape.eq_of_outline_anonymous same anonymous]
  constructor
  · exact keeps sound.any rfl
  · exact fun basic => keeps (sound.basics basic) rfl
  · intro other entry present part member
    obtain ⟨old, found, same | revision⟩ := revised_entry ty change revised present
    · rw [modifyEntry_contains]
      exact sound.closed other old found part (same ▸ member)
    · rw [modifyEntry_contains]
      rcases revision.mentions part member with kept | known
      · exact sound.closed other old found part kept
      · exact known
  · intro other shape found part member
    obtain ⟨old, origin, same, -⟩ := revised_shape ty change revised found
    rw [← Shape.outline_foundation, same, Shape.outline_foundation] at member
    exact sound.ordered other old origin part member
  · intro other shape found above member
    obtain ⟨old, origin, -, higher⟩ := revised_shape ty change revised found
    rcases higher above member with kept | ⟨plain, -⟩
    · exact sound.plain other old origin above kept
    · exact plain
  · exact revise_unique sound.unique ty change revised
  · intro other entry present symbol member
    obtain ⟨old, found, same | revision⟩ := revised_entry ty change revised present
    · exact sound.spelled other old found symbol (same ▸ member)
    · rcases revision.symbols symbol member with kept | known
      · exact sound.spelled other old found symbol kept
      · exact known
  · exact sound.distinct

theorem sound (edit : Edit fits before after) (sound : before.Sound) : after.Sound := by
  cases edit with
  | note text => exact sound.note text
  | @enter shape anonymous fresh known spelled =>
    have lineage : shape.lineage = [] := by
      cases shape <;> first | rfl | cases anonymous
    apply sound.push
    · exact .of_anonymous anonymous fresh
    · simp [lineage]
    · simpa [Entry.mentions] using known
    · simpa [Entry.symbols] using spelled
  | declare named fresh suits plain known spelled => exact sound.push _ (.of_named named fresh) plain known spelled
  | revise ty change revised => exact revise_sound sound ty change revised

theorem unique (edit : Edit fits before after) (unique : before.Unique) : after.Unique := by
  cases edit with
  | note text => exact unique
  | enter anonymous fresh known spelled => exact unique.push (.of_anonymous anonymous fresh)
  | declare named fresh suits plain known spelled => exact unique.push (.of_named named fresh)
  | revise ty change revised => exact revise_unique unique ty change revised

/-- Kinds of interfaces stay in their places if every declaration respects them. -/
theorem fitting (kinds : Kind → Prop) (edit : Edit fits before after)
    (suits : ∀ catalog shape, fits catalog shape → kinds shape.kind → shape.Fits catalog)
    (fitting : ∀ ty shape, before.shape? ty = some shape → kinds shape.kind → shape.Fits before) :
    ∀ ty shape, after.shape? ty = some shape → kinds shape.kind → shape.Fits after := by
  have keeps {shape : Shape} (own : shape.Fits before) : shape.Fits after := by
    cases shape <;> first | exact edit.kind own | exact fun above member => edit.kind (own above member)
  intro ty shape found kind
  cases edit with
  | note text => exact fitting ty shape found kind
  | enter anonymous fresh known spelled =>
    rw [push_shape?] at found
    split at found
    · cases found
      exact Shape.fits_anonymous anonymous
    · exact keeps (fitting ty shape found kind)
  | declare named fresh suited plain known spelled =>
    rw [push_shape?] at found
    split at found
    · cases found
      exact keeps (suits _ _ suited kind)
    · exact keeps (fitting ty shape found kind)
  | revise target change revised =>
    obtain ⟨old, origin, same, higher⟩ := revised_shape target change revised found
    apply keeps
    have kept : old.kind = shape.kind := by rw [← Shape.outline_kind, ← same, Shape.outline_kind]
    have own := fitting ty old origin (kept ▸ kind)
    cases shape with
    | secondary name head =>
      cases old <;> cases same
      exact own
    | primary name fields secondaries abstractions =>
      cases old <;> cases same
      intro above member
      rcases higher above member with kept | ⟨-, known⟩
      · exact own above kept
      · exact known
    | abstraction name generalizations allowed =>
      cases old <;> cases same
      exact own
    | _ => simp [Shape.Fits, Shape.parents]

end Edit

namespace Edits

theorem outline (edits : Edits fits before after) {ty : TypeId} {shape : Shape} (found : before.shape? ty = some shape) :
    ∃ later, after.shape? ty = some later ∧ later.outline = shape.outline := by
  induction edits with
  | refl => exact ⟨shape, found, rfl⟩
  | tail _ edit ih =>
    obtain ⟨middle, present, same⟩ := ih
    obtain ⟨later, kept, final⟩ := edit.outline present
    exact ⟨later, kept, final.trans same⟩

theorem contains (edits : Edits fits before after) {ty : TypeId} (inside : before.contains ty = true) :
    after.contains ty = true := by
  obtain ⟨shape, found⟩ := shape_of_contains inside
  obtain ⟨later, kept, -⟩ := edits.outline found
  exact contains_of_shape kept

theorem kind (edits : Edits fits before after) {ty : TypeId} {kind : Kind} (found : before.kind? ty = some kind) :
    after.kind? ty = some kind := by
  induction edits with
  | refl => exact found
  | tail _ edit ih => exact edit.kind ih

theorem get? (edits : Edits fits before after) {symbol : Symbol} {text : String}
    (found : before.strings.get? symbol = some text) : after.strings.get? symbol = some text := by
  induction edits with
  | refl => exact found
  | tail _ edit ih => exact edit.get? ih

theorem spelled (edits : Edits fits before after) {symbol : Symbol} (inside : symbol.index < before.strings.size) :
    symbol.index < after.strings.size := by
  obtain ⟨text, found⟩ := Interner.get?_of_index_lt inside
  exact Interner.index_lt_of_get? (edits.get? found)

theorem sound (edits : Edits fits before after) (sound : before.Sound) : after.Sound := by
  induction edits with
  | refl => exact sound
  | tail _ edit ih => exact edit.sound ih

/-- Nothing but a declaration brings a name into a table. -/
theorem named_known (edits : Edits (fun _ _ => False) before after) {ty : TypeId} {shape : Shape} {name : Symbol}
    (found : after.shape? ty = some shape) (named : shape.name? = some name) : before.contains ty = true := by
  induction edits generalizing shape with
  | refl => exact contains_of_shape found
  | tail _ edit ih =>
    cases edit with
    | note text => exact ih found named
    | enter anonymous =>
      rw [push_shape?] at found
      split at found
      · cases found
        rw [anonymous] at named
        cases named
      · exact ih found named
    | declare _ _ suits => exact suits.elim
    | revise target change revised =>
      obtain ⟨old, origin, same, -⟩ := revised_shape target change revised found
      exact ih origin (by rw [← Shape.outline_name?, ← same, Shape.outline_name?, named])

theorem fitting (kinds : Kind → Prop) (edits : Edits fits before after)
    (suits : ∀ catalog shape, fits catalog shape → kinds shape.kind → shape.Fits catalog)
    (initial : ∀ ty shape, before.shape? ty = some shape → kinds shape.kind → shape.Fits before) :
    ∀ ty shape, after.shape? ty = some shape → kinds shape.kind → shape.Fits after := by
  induction edits with
  | refl => exact initial
  | tail _ edit ih => exact edit.fitting kinds suits ih

theorem hierarchical (edits : Edits (fun catalog shape => shape.Fits catalog) before after)
    (hierarchical : before.Hierarchical) : after.Hierarchical := by
  intro ty shape found
  exact edits.fitting (fun _ => True) (fun _ _ own _ => own) (fun ty shape found _ => hierarchical ty shape found)
    ty shape found trivial

/-- What a primary interface implements is an abstraction, if no primary is declared with anything else. -/
theorem implementing (edits : Edits (fun catalog shape => shape.kind = .primary → shape.Fits catalog) before after)
    (implementing : before.Implementing) : after.Implementing :=
  edits.fitting (· = .primary) (fun _ _ own => own) implementing

end Edits

private theorem standard_lookup (ty : TypeId) :
    standard.entry? ty = ((Shape.any :: BasicType.all.map Shape.basic)[ty.pair]?).map fun shape => { shape } := by
  simp only [Catalog.entry?, standard, ofEntries, List.getElem?_toArray, List.getElem?_map]

private theorem standard_shape? (ty : TypeId) :
    standard.shape? ty = (Shape.any :: BasicType.all.map Shape.basic)[ty.pair]? := by
  simp [shape?, standard_lookup, Function.comp_def]

/-- The standard types are made of nothing. -/
private theorem standard_plain {ty : TypeId} {shape : Shape} (found : standard.shape? ty = some shape) :
    shape = .any ∨ ∃ basic, shape = .basic basic := by
  rw [standard_shape?] at found
  rcases List.mem_cons.mp (List.mem_of_getElem? found) with rfl | member
  · exact .inl rfl
  · obtain ⟨basic, -, rfl⟩ := List.mem_map.mp member
    exact .inr ⟨basic, rfl⟩

theorem standard_sound : standard.Sound := by
  have bare {ty : TypeId} {entry : Entry} (present : standard.entry? ty = some entry) :
      entry.mentions = [] ∧ entry.symbols = [] := by
    have found : standard.shape? ty = some entry.shape := shape?_eq_some_iff.mpr ⟨entry, present, rfl⟩
    rw [standard_lookup] at present
    obtain ⟨shape, -, rfl⟩ := Option.map_eq_some_iff.mp present
    rcases standard_plain found with rfl | ⟨basic, rfl⟩ <;> exact ⟨rfl, rfl⟩
  constructor
  · rfl
  · intro basic
    cases basic <;> rfl
  · intro ty entry present part member
    simp [(bare present).1] at member
  · intro ty shape found part member
    rcases standard_plain found with rfl | ⟨basic, rfl⟩ <;> cases member
  · intro ty shape found above member
    rcases standard_plain found with rfl | ⟨basic, rfl⟩ <;> cases member
  · intro first second left right leftFound rightFound same
    have equal : left = right := by
      rcases standard_plain leftFound with rfl | ⟨basic, rfl⟩ <;>
        rcases standard_plain rightFound with rfl | ⟨other, rfl⟩ <;> exact Sum.inr.inj same
    rw [standard_shape?] at leftFound rightFound
    obtain ⟨inside, -⟩ := List.getElem?_eq_some_iff.mp leftFound
    have separate : (Shape.any :: BasicType.all.map Shape.basic).Nodup := by decide
    exact (List.getElem?_inj inside separate).mp (leftFound.trans (equal ▸ rightFound.symm))
  · intro ty entry present symbol member
    simp [(bare present).2] at member
  · intro first second text found
    simp [standard, ofEntries, Interner.empty, Interner.get?] at found

theorem standard_hierarchical : standard.Hierarchical := by
  intro ty shape found
  rcases standard_plain found with rfl | ⟨basic, rfl⟩ <;> exact Shape.fits_anonymous rfl

end Catalog
end Interchange
