import Interchange.Proofs.DeclarationChecks
import Interchange.Proofs.SlotIsolation

/-! What a definition of members comes to. Each name with valid declarations becomes one field or one error, each
declaration that is not valid one error, and nothing else is reported; so what is not reported is not lost. -/

namespace Interchange

theorem Slot.group_filled {declarations : List (String × Declared)} {slot : Slot} (member : slot ∈ Slot.group declarations) :
    slot.declared ≠ [] := by
  obtain ⟨name, listed, rfl⟩ := List.mem_map.mp member
  obtain ⟨declaration, present, same⟩ := List.mem_map.mp (List.mem_eraseDups.mp listed)
  exact List.ne_nil_of_mem (List.mem_map.mpr ⟨declaration, List.mem_filter.mpr ⟨present, by simp [same]⟩, rfl⟩)

/-- Each name that is declared has a slot. -/
theorem Slot.group_of_name {declarations : List (String × Declared)} {name : String}
    (present : name ∈ declarations.map Prod.fst) :
    ∃ slot ∈ Slot.group declarations, slot.name = name ∧ slot.declared ≠ [] := by
  obtain ⟨slot, listed, named⟩ : ∃ slot ∈ Slot.group declarations, slot.name = name :=
    ⟨_, List.mem_map.mpr ⟨name, List.mem_eraseDups.mpr present, rfl⟩, rfl⟩
  exact ⟨slot, listed, named, Slot.group_filled listed⟩

structure Fold where
  slot : Slot
  table : Catalog

namespace Fold

variable {fold : Fold}

def types (fold : Fold) : List TypeId :=
  fold.slot.declared.map Declared.ty

def outcome (fold : Fold) : Except SlotConflict (Option TypeId) :=
  (fold.table.resolveSlot fold.types).1

def type? (fold : Fold) : Option TypeId :=
  fold.outcome.toOption.join

/-- The field that the name gets; its symbol is the one that the table has for the name. -/
def field? (table : Catalog) (fold : Fold) : Option Field := do
  let ty ← fold.type?
  let name ← table.strings.find? fold.slot.name
  return { name, ty, policy := .allowed
           explicitDefault := fold.slot.declared.any Declared.explicitDefault
           origin := fold.slot.declared.head?.bind Declared.origin }

theorem get?_of_field? {table : Catalog} {field : Field} (made : fold.field? table = some field) :
    table.strings.get? field.name = some fold.slot.name := by
  simp only [field?, Option.bind_eq_bind, Option.bind_eq_some_iff] at made
  obtain ⟨ty, -, symbol, spelled, same⟩ := made
  cases same
  exact Interner.get?_of_find? spelled

def error? (owner : String) (fold : Fold) : Option (DiagnosticKind × Location) :=
  match fold.outcome with
  | .ok _ => none
  | .error _ => some (.incompatibleShapes, .ofMember owner fold.slot.name)

/-- The table that is left to the names after it. -/
def rest (fold : Fold) : Catalog :=
  let left := (fold.table.resolveSlot fold.types).2
  if fold.type?.isSome then { left with strings := (left.strings.intern fold.slot.name).2 } else left

/-- Declarations are reconciled to a type unless that is an error. -/
theorem type?_of_error? {owner : String} (filled : fold.slot.declared ≠ []) (fine : fold.error? owner = none) :
    fold.type?.isSome = true := by
  have filled : fold.types ≠ [] := by simpa [types] using filled
  unfold error? at fine
  unfold type?
  unfold outcome at fine ⊢
  cases given : fold.types with
  | nil => exact absurd given filled
  | cons first others =>
    simp only [given, Catalog.resolveSlot] at fine ⊢
    cases folded : (fold.table.foldSlot first others).1 with
    | error conflict => simp [folded, Except.map] at fine
    | ok ty => rfl

theorem rest_develops (fold : Fold) : (fold.table.resolveSlot fold.types).2.Develops fold.rest := by
  unfold rest
  split
  · exact Catalog.note_develops _ fold.slot.name
  · exact .refl _

end Fold

namespace Catalog

def folds (catalog : Catalog) : List Slot → List Fold
  | [] => []
  | slot :: others => ⟨slot, catalog⟩ :: folds (Fold.rest ⟨slot, catalog⟩) others

variable {catalog table : Catalog}

/-- What was reconciled once is reconciled to the same again. -/
theorem resolveSlot_stable {types : List TypeId} (sound : catalog.Sound) (known : ∀ ty ∈ types, catalog.contains ty = true)
    (develops : (catalog.resolveSlot types).2.Develops table) :
    (table.resolveSlot types).1.toOption = (catalog.resolveSlot types).1.toOption := by
  have own := (resolveSlot_growth sound known).1.develops
  have grown := own.trans develops
  have branches : Branches catalog catalog table := (Branches.self sound).grow (.refl catalog) grown
  have agreement := resolveSlot_agree branches (List.forall₂_same.mpr fun ty member => branches.old (known ty member))
  generalize catalog.resolveSlot types = outcome at agreement own develops ⊢
  generalize table.resolveSlot types = outcome' at agreement ⊢
  cases agreement with
  | empty | clash | endless => rfl
  | @ok ty other later further first second alike =>
    obtain ⟨unfolded, written, written'⟩ := alike
    obtain ⟨shape, -, found, -⟩ := unfolded?_cases (own.sound sound) written
    -- The later table writes the first answer out as it writes out the second, so they are the same.
    have kept := (develops.trans second).extension.unfolded? (own.sound sound) (contains_of_shape found)
    have same : ty = other := unfoldWithin_injective ((grown.trans second).sound sound) (kept.trans written) written'
    rw [same]

theorem declaration?_names {members : List (Option TypeId × Member)} {declarations : List (String × Declared)}
    (read : members.mapM catalog.declaration? = some declarations) :
    declarations.map Prod.fst = members.map fun member => member.2.name := by
  induction members generalizing declarations with
  | nil =>
    cases read
    rfl
  | cons member others ih =>
    simp only [List.mapM_cons, Option.bind_eq_bind, Option.bind_eq_some_iff] at read
    obtain ⟨declaration, own, rest, reads, same⟩ := read
    cases same
    obtain ⟨declared, -, rfl⟩ := Option.map_eq_some_iff.mp own
    rw [List.map_cons, List.map_cons, ih reads]

theorem folds_slots (slots : List Slot) : (catalog.folds slots).map Fold.slot = slots := by
  induction slots generalizing catalog with
  | nil => rfl
  | cons slot others ih => rw [folds, List.map_cons, ih]

end Catalog

namespace Builder

open Catalog

variable {builder later : Builder} {owner : String} {slot : Slot} {table : Catalog}

theorem Reports.unique {after : Builder} {errors others : List (DiagnosticKind × Location)} (one : builder.Reports after errors)
    (two : builder.Reports after others) : errors = others := by
  obtain ⟨appended, listed, rfl⟩ := one
  obtain ⟨again, listed', rfl⟩ := two
  rw [List.append_cancel_left (listed.symm.trans listed')]

theorem reportConflict_reports {conflict : SlotConflict} {location : Location}
    (reported : builder.reportConflict conflict location = some later) :
    builder.Reports later [(.incompatibleShapes, location)] := by
  simp only [reportConflict, Option.bind_eq_bind, Option.bind_eq_some_iff] at reported
  obtain ⟨left, -, right, -, note, -, reported⟩ := reported
  cases reported
  apply Reports.of_fault rfl
  · split <;> rfl
  · split <;> rfl

/-- One name. -/
theorem settleSlot_fold {field : Option Field} (settled : builder.settleSlot owner slot = some (field, later))
    (persists : later.catalog.PersistsIn table) :
    later.catalog = Fold.rest ⟨slot, builder.catalog⟩ ∧ field = Fold.field? table ⟨slot, builder.catalog⟩ ∧
      field.isSome = (Fold.type? ⟨slot, builder.catalog⟩).isSome ∧
      builder.Reports later (Fold.error? owner ⟨slot, builder.catalog⟩).toList := by
  simp only [settleSlot, resolveSlot] at settled
  unfold Fold.rest Fold.field? Fold.error? Fold.type? Fold.outcome Fold.types
  dsimp only
  generalize builder.catalog.resolveSlot (slot.declared.map Declared.ty) = outcome at settled ⊢
  obtain ⟨result, grown⟩ := outcome
  cases result with
  | error conflict =>
    obtain ⟨reported, report, same⟩ := Option.map_eq_some_iff.mp settled
    cases same
    have reports := reportConflict_reports report
    exact ⟨reportConflict_catalog report, rfl, rfl, reports⟩
  | ok answer =>
    cases answer with
    | none =>
      cases settled
      exact ⟨rfl, rfl, rfl, .of_diagnostics rfl⟩
    | some ty =>
      cases settled
      have named := persists.text (Interner.intern_find? grown.strings slot.name)
      exact ⟨rfl, by simp [named, Except.toOption], rfl, .of_diagnostics rfl⟩

/-- All names, one after the other. -/
theorem resolveSlots_folds {slots : List Slot} {fields : List Field}
    (resolved : builder.resolveSlots owner slots = some (fields, later)) (persists : later.catalog.PersistsIn table) :
    fields = (builder.catalog.folds slots).filterMap (Fold.field? table) ∧
      builder.Reports later ((builder.catalog.folds slots).filterMap (Fold.error? owner)) ∧
      ∀ fold ∈ builder.catalog.folds slots, (fold.field? table).isSome = fold.type?.isSome := by
  induction slots generalizing builder fields with
  | nil =>
    cases resolved
    exact ⟨rfl, .of_diagnostics rfl, fun _ member => nomatch member⟩
  | cons slot others ih =>
    obtain ⟨field, middle, remaining, settled, recursive, rfl⟩ := resolveSlots_step resolved
    have between := (PersistsIn.of_additions (resolveSlots_additions recursive)).trans persists
    obtain ⟨left, made, filled, reports⟩ := settleSlot_fold settled between
    obtain ⟨rfl, further, each⟩ := ih recursive
    rw [left] at further each ⊢
    refine ⟨?_, ?_, ?_⟩
    · cases field <;> simp [folds, ← made]
    · have listed : (builder.catalog.folds (slot :: others)).filterMap (Fold.error? owner) =
          (Fold.error? owner ⟨slot, builder.catalog⟩).toList ++
            (Catalog.folds (Fold.rest ⟨slot, builder.catalog⟩) others).filterMap (Fold.error? owner) := by
        rw [folds, List.filterMap_cons]
        cases Fold.error? owner ⟨slot, builder.catalog⟩ <;> rfl
      exact listed ▸ reports.trans further
    · intro fold member
      rcases List.mem_cons.mp member with rfl | member
      · rw [← made, filled]
      · exact each fold member

theorem resolveSlots_develops {slots : List Slot} {fields : List Field}
    (known : ∀ slot ∈ slots, ∀ declared ∈ slot.declared, builder.catalog.contains declared.ty = true)
    (resolved : builder.resolveSlots owner slots = some (fields, later)) : builder.catalog.Develops later.catalog :=
  ⟨(resolveSlots_additions resolved).extension,
    fun sound => (@resolveSlots_edits _ _ (fun _ _ => True) _ _ _ sound known resolved).1.sound sound⟩

/-- Later names do not change what earlier ones have come to. -/
theorem resolveSlots_stable {slots : List Slot} {fields : List Field} (sound : builder.catalog.Sound)
    (known : ∀ slot ∈ slots, ∀ declared ∈ slot.declared, builder.catalog.contains declared.ty = true)
    (resolved : builder.resolveSlots owner slots = some (fields, later)) (develops : later.catalog.Develops table) :
    ∀ fold ∈ builder.catalog.folds slots, (table.resolveSlot fold.types).1.toOption = fold.outcome.toOption := by
  induction slots generalizing builder fields with
  | nil => exact fun _ member => nomatch member
  | cons slot others ih =>
    obtain ⟨field, middle, remaining, settled, recursive, rfl⟩ := resolveSlots_step resolved
    let fold : Fold := ⟨slot, builder.catalog⟩
    have own : ∀ ty ∈ fold.types, builder.catalog.contains ty = true :=
      List.forall_mem_map.mpr (known slot (by simp))
    have left := (settleSlot_fold settled (.refl _)).1
    have first : builder.catalog.Develops (builder.catalog.resolveSlot fold.types).2 :=
      (resolveSlot_growth sound own).1.develops
    have second : (builder.catalog.resolveSlot fold.types).2.Develops middle.catalog := left ▸ fold.rest_develops
    have inside : ∀ slot ∈ others, ∀ declared ∈ slot.declared, middle.catalog.contains declared.ty = true :=
      fun slot member declared present =>
        (first.trans second).extension.contains (known slot (by simp [member]) declared present)
    have third := resolveSlots_develops inside recursive
    intro chosen member
    rcases List.mem_cons.mp member with rfl | member
    · exact resolveSlot_stable sound own (second.trans (third.trans develops))
    · exact ih ((first.trans second).sound sound) inside recursive chosen (left ▸ member)

end Builder

/-- A definition of members taken apart: the title of the owner, the valid declarations, the state after the checks and
the table in which everything is reconciled. -/
structure Definition where
  title : String
  declarations : List (String × Declared)
  checked : Builder
  table : Catalog

namespace Definition

def folds (definition : Definition) : List Fold :=
  definition.checked.catalog.folds (Slot.group definition.declarations)

def fields (definition : Definition) : List Field :=
  definition.folds.filterMap (Fold.field? definition.table)

def errors (definition : Definition) (members : List (Option TypeId × Member)) : List (DiagnosticKind × Location) :=
  definition.table.faults definition.title members ++ definition.folds.filterMap (Fold.error? definition.title)

/-- The definition of these members has led from one state to the other. -/
structure Explains (definition : Definition) (builder after : Builder) (owner : TypeId)
    (members : List (Option TypeId × Member)) : Prop where
  titled : builder.catalog.display? owner.nonNull = some definition.title
  valid : (definition.table.valid members).mapM definition.table.declaration? = some definition.declarations
  collected : builder.collectSlots definition.title [] members = some (Slot.group definition.declarations, definition.checked)
  catalog : after.catalog = definition.table.modifyShape owner fun shape => shape.withFields definition.fields
  fields : (after.catalog.shape? owner).map Shape.fields = some definition.fields
  reports : builder.Reports after (definition.errors members)
  /-- Whatever could be reconciled has become a field. -/
  filled : ∀ fold ∈ definition.folds, (fold.field? definition.table).isSome = fold.type?.isSome

variable {definition : Definition} {builder after : Builder} {owner : TypeId} {members : List (Option TypeId × Member)}

/-- Without an error every member is there. -/
theorem Explains.complete (explains : definition.Explains builder after owner members) (quiet : builder.Reports after [])
    {member : Option TypeId × Member} (declared : member ∈ members) :
    ∃ field ∈ definition.fields, after.catalog.strings.get? field.name = some member.2.name := by
  obtain ⟨faultless, fine⟩ := List.append_eq_nil_iff.mp (explains.reports.unique quiet)
  have sound : definition.table.fault? member.2 = none := by
    simpa using List.filterMap_eq_nil_iff.mp faultless member declared
  have present : member.2.name ∈ definition.declarations.map Prod.fst := by
    rw [Catalog.declaration?_names explains.valid]
    exact List.mem_map.mpr ⟨member, List.mem_filter.mpr ⟨declared, by simp [sound]⟩, rfl⟩
  obtain ⟨slot, listed, named, nonempty⟩ := Slot.group_of_name present
  rw [← Catalog.folds_slots (Slot.group definition.declarations)] at listed
  obtain ⟨fold, inside, rfl⟩ := List.mem_map.mp listed
  have typed := fold.type?_of_error? nonempty (List.filterMap_eq_nil_iff.mp fine fold inside)
  rw [← explains.filled fold inside] at typed
  obtain ⟨field, made⟩ := Option.isSome_iff_exists.mp typed
  refine ⟨field, List.mem_filterMap.mpr ⟨fold, inside, made⟩, ?_⟩
  rw [explains.catalog, ← named]
  exact Fold.get?_of_field? made

end Definition

namespace Builder

open Catalog

variable {builder after : Builder} {owner : TypeId} {members : List (Option TypeId × Member)}

theorem defineMembers_explained {shape : Shape} (found : builder.catalog.shape? owner = some shape)
    (composite : shape.kind.isComposite = true) (defined : builder.defineMembers owner members = some after) :
    ∃ definition : Definition, definition.Explains builder after owner members ∧
      (builder.catalog.Sound → (∀ member ∈ members, ∀ ty ∈ member.2.mentions, builder.catalog.contains ty = true) →
        ∀ fold ∈ definition.folds, (definition.table.resolveSlot fold.types).1.toOption = fold.outcome.toOption) := by
  simp only [defineMembers, found, composite, if_true, Option.bind_eq_bind, Option.bind_some] at defined
  obtain ⟨title, titled, defined⟩ := Option.bind_eq_some_iff.mp defined
  obtain ⟨⟨slots, checked⟩, collecting, defined⟩ := Option.bind_eq_some_iff.mp defined
  obtain ⟨⟨fields, resolved⟩, resolving, defined⟩ := Option.bind_eq_some_iff.mp defined
  cases defined
  have added := resolveSlots_additions resolving
  obtain ⟨declarations, read, rfl, reports⟩ :=
    @collectSlots_judged _ _ _ _ _ [] _ collecting (PersistsIn.of_additions added)
  obtain ⟨rfl, further, filled⟩ := resolveSlots_folds resolving (.refl _)
  refine ⟨⟨title, declarations, checked, resolved.catalog⟩, ⟨titled, read, collecting, rfl, ?_, reports.trans further, filled⟩, ?_⟩
  · have present := added.extension.shape ((collectSlots_additions collecting).extension.shape found)
    rw [modifyShape_shape?, if_pos rfl, present]
    cases shape <;> first | rfl | cases composite
  · intro sound known
    obtain ⟨edits, inside⟩ := @collectSlots_edits builder checked (fun _ _ => True) _ _ _ _ sound known (by simp) collecting
    exact resolveSlots_stable (edits.sound sound) inside resolving (.refl _)

end Builder

theorem Call.run_of_defines? {builder : Builder} {call : Call} {owner : TypeId} {members : List (Option TypeId × Member)}
    (defines : call.defines? = some (owner, members)) : call.run builder = builder.defineMembers owner members := by
  cases call with
  | defineFields | defineFamily =>
    cases defines
    rfl
  | _ => cases defines

namespace Builder

open Catalog

/-- Nothing that is declared gets lost: each name with valid declarations becomes one field, as its declarations are
reconciled, or one error; each declaration that is not valid becomes one error; and there are no others. -/
theorem definition_accounts_for_members {builder : Builder} {call : Call} {owner : TypeId}
    {members : List (Option TypeId × Member)} (defines : call.defines? = some (owner, members))
    (composite : builder.catalog.kind? owner = some .record ∨ builder.catalog.kind? owner = some .primary) :
    (builder.Reached → call.Registered builder → builder.catalog.Acyclic → ∃ after, call.run builder = some after) ∧
    ∀ after, call.run builder = some after → ∃ definition : Definition,
      definition.Explains builder after owner members ∧
      (builder.Reports after [] → ∀ member ∈ members, ∃ field ∈ definition.fields,
        after.catalog.strings.get? field.name = some member.2.name) ∧
      (builder.Reached → call.Registered builder → ∀ fold ∈ definition.folds,
        (definition.table.resolveSlot fold.types).1.toOption = fold.outcome.toOption) := by
  have owned : ∃ shape, builder.catalog.shape? owner = some shape ∧ shape.kind.isComposite = true := by
    rcases composite with kind | kind <;> obtain ⟨shape, found, kind⟩ := shape_of_kind kind <;>
      exact ⟨shape, found, by rw [kind]; rfl⟩
  obtain ⟨shape, found, composite⟩ := owned
  rw [Call.run_of_defines? defines]
  constructor
  · intro reached known acyclic
    exact Option.isSome_iff_exists.mp
      ((defineMembers_isolated "" (Reached.sound reached) found composite (known.members defines)).ends acyclic)
  · intro after defined
    obtain ⟨definition, explains, stable⟩ := defineMembers_explained found composite defined
    exact ⟨definition, explains, fun quiet _ => explains.complete quiet,
      fun reached known => stable (Reached.sound reached) (known.members defines)⟩

/-- The first note cannot be written as it is read, so the second one gives the field. -/
def notedMembers : List (TypeId × Member) :=
  stockMembers ++ [(.ofPair 19, ⟨"Note", BasicType.string.id, .notNull, .nullable, {}, none, none⟩),
    (.ofPair 20, ⟨"Note", BasicType.string.id, .nullable, .nullable, { defaultValue := some .null }, none, none⟩)]

theorem definition_accounts_for_members_warehouse : ∃ after, ∃ definition : Definition,
    warehouse.defineFamily (.ofPair 19) notedMembers = some after ∧
    definition.Explains warehouse after (.ofPair 19) (notedMembers.map fun member => (some member.1.nonNull, member.2)) ∧
    warehouse.Reports after [(.nullabilityMismatch, .ofMember "Stock" "Note"), (.incompatibleShapes, .ofMember "Stock" "Key")] ∧
    (definition.fields.map fun field => (after.catalog.strings.get? field.name, field.explicitDefault, field.origin)) =
      [(some "Counts", false, some (.ofPair 19)), (some "Note", true, some (.ofPair 20))] ∧
    ∀ fold ∈ definition.folds, (definition.table.resolveSlot fold.types).1.toOption = fold.outcome.toOption := by
  let call : Call := .defineFamily (.ofPair 19) notedMembers
  have known : call.Registered warehouse := by decide +kernel
  obtain ⟨-, accounts⟩ := @definition_accounts_for_members warehouse call _ _ rfl (.inr (by decide +kernel))
  have errors : (call.run warehouse).map (fun after =>
      after.diagnostics.errors.map fun diagnostic => (diagnostic.kind, diagnostic.location)) =
      some [(.nullabilityMismatch, .ofMember "Stock" "Note"), (.incompatibleShapes, .ofMember "Stock" "Key")] := by
    decide +kernel
  have fields : (call.run warehouse).map (fun after =>
      ((after.catalog.shape? (.ofPair 19)).map Shape.fields).map (List.map fun field =>
        (after.catalog.strings.get? field.name, field.explicitDefault, field.origin))) =
      some (some [(some "Counts", false, some (.ofPair 19)), (some "Note", true, some (.ofPair 20))]) := by
    decide +kernel
  have quiet : warehouse.diagnostics.toList = [] := by decide +kernel
  obtain ⟨after, ran, listed⟩ := Option.map_eq_some_iff.mp errors
  obtain ⟨definition, explains, -, stable⟩ := accounts after ran
  rw [ran, Option.map_some, explains.fields, Option.map_some, Option.some.injEq, Option.some.injEq] at fields
  exact ⟨after, definition, ran, explains, ⟨after.diagnostics.toList, by rw [quiet, List.nil_append], listed⟩, fields,
    stable warehouse_reached known⟩

end Builder
end Interchange
