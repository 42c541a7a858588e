import Interchange.Proofs.MemberOutcomes

/-! Fields that are defined again. A definition of members does not add to the fields of its owner but takes their place,
and it reports nothing about those that it leaves out. So the last definition counts, not the first, also if it comes with
a second declaration of the owner's name. -/

namespace Interchange

theorem Shape.fields_plain {shape : Shape} (plain : shape.kind.isComposite = false) : shape.fields = [] := by
  cases shape <;> first | rfl | cases plain

def Call.redefines (call : Call) (owner : TypeId) : Bool :=
  call.defines?.any fun definition => definition.1.pair == owner.pair

namespace Builder

def fieldNames (builder : Builder) (owner : TypeId) : List String :=
  ((builder.catalog.shape? owner).elim [] Shape.fields).filterMap fun field => builder.catalog.strings.get? field.name

def Spells (builder : Builder) (owner : TypeId) : Prop :=
  ∃ shape, builder.catalog.shape? owner = some shape ∧
    ∀ field ∈ shape.fields, ∃ name, builder.catalog.strings.get? field.name = some name

end Builder

theorem Fold.error?_eq_some {fold : Fold} {owner : String} {error : DiagnosticKind × Location}
    (failed : fold.error? owner = some error) : error = (.incompatibleShapes, .ofMember owner fold.slot.name) := by
  cases outcome : fold.outcome with
  | ok _ => simp only [Fold.error?, outcome, reduceCtorEq] at failed
  | error _ =>
    simp only [Fold.error?, outcome, Option.some.injEq] at failed
    exact failed.symm

namespace Definition

open Catalog

variable {definition : Definition} {builder after : Builder} {owner : TypeId} {members : List (Option TypeId × Member)}

theorem typed_of_fold {fold : Fold} {title : String} (inside : fold ∈ definition.folds) (fine : fold.error? title = none) :
    fold.type?.isSome = true := by
  have listed : fold.slot ∈ definition.folds.map Fold.slot := List.mem_map_of_mem inside
  rw [folds, folds_slots] at listed
  exact fold.type?_of_error? (Slot.group_filled listed) fine

/-- The names stay in the order of their first declaration. -/
theorem fold_names (definition : Definition) :
    definition.folds.map (fun fold => fold.slot.name) = (definition.declarations.map Prod.fst).eraseDups := by
  have slots : definition.folds.map Fold.slot = Slot.group definition.declarations := folds_slots _
  calc definition.folds.map (fun fold => fold.slot.name)
      = (definition.folds.map Fold.slot).map Slot.name := List.map_map.symm
    _ = (definition.declarations.map Prod.fst).eraseDups := by
        rw [slots, Slot.group, List.map_map]
        exact List.map_id _

namespace Explains

theorem fieldNames_eq (explains : definition.Explains builder after owner members) :
    after.fieldNames owner = definition.folds.filterMap fun fold => fold.type?.map fun _ => fold.slot.name := by
  obtain ⟨shape, found, own⟩ := Option.map_eq_some_iff.mp explains.fields
  rw [Builder.fieldNames, found, Option.elim_some, own, Definition.fields, List.filterMap_filterMap]
  apply List.filterMap_congr
  intro fold member
  have filled := explains.filled fold member
  cases made : fold.field? definition.table with
  | none =>
    rw [made, Option.isSome_none, eq_comm, Option.isSome_eq_false_iff, Option.isNone_iff_eq_none] at filled
    rw [filled]
    rfl
  | some field =>
    rw [made, Option.isSome_some, eq_comm, Option.isSome_iff_exists] at filled
    obtain ⟨ty, typed⟩ := filled
    rw [typed, explains.catalog]
    exact Fold.get?_of_field? made

theorem spells (explains : definition.Explains builder after owner members) : after.Spells owner := by
  obtain ⟨shape, found, own⟩ := Option.map_eq_some_iff.mp explains.fields
  refine ⟨shape, found, ?_⟩
  intro field member
  rw [own] at member
  obtain ⟨fold, -, made⟩ := List.mem_filterMap.mp member
  rw [explains.catalog]
  exact ⟨_, Fold.get?_of_field? made⟩

/-- Only names that are listed are looked at. -/
theorem listed_of_fold (explains : definition.Explains builder after owner members) {fold : Fold}
    (inside : fold ∈ definition.folds) : ∃ member ∈ members, member.2.name = fold.slot.name := by
  have named : fold.slot.name ∈ (definition.declarations.map Prod.fst).eraseDups := by
    rw [← fold_names]
    exact List.mem_map_of_mem inside
  rw [List.mem_eraseDups, declaration?_names explains.valid] at named
  obtain ⟨member, valid, same⟩ := List.mem_map.mp named
  exact ⟨member, (List.mem_filter.mp valid).1, same⟩

theorem listed_of_field (explains : definition.Explains builder after owner members) {name : String}
    (present : name ∈ after.fieldNames owner) : ∃ member ∈ members, member.2.name = name := by
  rw [explains.fieldNames_eq] at present
  obtain ⟨fold, inside, made⟩ := List.mem_filterMap.mp present
  obtain ⟨ty, -, rfl⟩ := Option.map_eq_some_iff.mp made
  exact explains.listed_of_fold inside

theorem listed_of_error (explains : definition.Explains builder after owner members) {name : String} {kind : DiagnosticKind}
    (reported : (kind, .ofMember definition.title name) ∈ definition.errors members) :
    ∃ member ∈ members, member.2.name = name := by
  rcases List.mem_append.mp reported with fault | conflict
  · obtain ⟨member, listed, told⟩ := List.mem_filterMap.mp fault
    obtain ⟨_, -, same⟩ := Option.map_eq_some_iff.mp told
    cases same
    exact ⟨member, listed, rfl⟩
  · obtain ⟨fold, inside, told⟩ := List.mem_filterMap.mp conflict
    cases Fold.error?_eq_some told
    exact explains.listed_of_fold inside

/-- Each name that is listed becomes a field or is reported. -/
theorem field_or_error (explains : definition.Explains builder after owner members) {member : Option TypeId × Member}
    (listed : member ∈ members) : member.2.name ∈ after.fieldNames owner ∨
      ∃ kind, (kind, .ofMember definition.title member.2.name) ∈ definition.errors members := by
  cases fault : definition.table.fault? member.2 with
  | some kind =>
    refine .inr ⟨kind, List.mem_append_left _ (List.mem_filterMap.mpr ⟨member, listed, ?_⟩)⟩
    rw [fault]
    rfl
  | none =>
    have named : member.2.name ∈ definition.folds.map fun fold => fold.slot.name := by
      rw [fold_names, List.mem_eraseDups, declaration?_names explains.valid]
      exact List.mem_map.mpr ⟨member, List.mem_filter.mpr ⟨listed, by rw [fault]; rfl⟩, rfl⟩
    obtain ⟨fold, inside, same⟩ := List.mem_map.mp named
    rw [← same]
    cases failed : fold.error? definition.title with
    | some error =>
      rw [Fold.error?_eq_some failed] at failed
      exact .inr ⟨_, List.mem_append_right _ (List.mem_filterMap.mpr ⟨fold, inside, failed⟩)⟩
    | none =>
      obtain ⟨ty, typed⟩ := Option.isSome_iff_exists.mp (typed_of_fold inside failed)
      rw [explains.fieldNames_eq]
      exact .inl (List.mem_filterMap.mpr ⟨fold, inside, by rw [typed]; rfl⟩)

/-- Without an error there is one field for each name that is listed, and no other. -/
theorem fieldNames_quiet (explains : definition.Explains builder after owner members)
    (quiet : definition.errors members = []) :
    after.fieldNames owner = (members.map fun member => member.2.name).eraseDups := by
  obtain ⟨faultless, fine⟩ := List.append_eq_nil_iff.mp quiet
  have valid : definition.table.valid members = members := by
    refine List.filter_eq_self.mpr ?_
    intro member listed
    simpa using List.filterMap_eq_nil_iff.mp faultless member listed
  have typed : ∀ fold ∈ definition.folds, (fold.type?.map fun _ => fold.slot.name) = some fold.slot.name := by
    intro fold inside
    obtain ⟨ty, found⟩ := Option.isSome_iff_exists.mp (typed_of_fold inside (List.filterMap_eq_nil_iff.mp fine fold inside))
    rw [found]
    rfl
  rw [explains.fieldNames_eq, List.filterMap_congr typed, ← valid, ← declaration?_names explains.valid, ← fold_names,
    ← List.filterMap_eq_map]
  rfl

end Explains
end Definition

namespace Builder

open Catalog

variable {builder final : Builder} {owner : TypeId} {members : List (Option TypeId × Member)} {calls : List Call}

theorem reportKind_reports {expected : String} (reported : builder.reportKind owner expected = some final) :
    ∃ title, builder.catalog.display? owner.nonNull = some title ∧
      builder.Reports final [(.kindMismatch, .ofType title)] := by
  simp only [reportKind, Option.bind_eq_bind, Option.bind_eq_some_iff] at reported
  obtain ⟨title, titled, shape, -, same⟩ := reported
  cases same
  exact ⟨title, titled, .of_fault rfl rfl rfl⟩

/-- What a definition of members leaves its owner with. A name that is listed becomes a field or is reported. A name that is
not listed is neither. -/
theorem defineMembers_fieldNames (defined : builder.defineMembers owner members = some final) :
    final.Spells owner ∧ ∃ title errors, builder.catalog.display? owner.nonNull = some title ∧ builder.Reports final errors ∧
      (errors = [] → final.fieldNames owner = (members.map fun member => member.2.name).eraseDups) ∧
      ∀ name ∈ builder.fieldNames owner,
        ((∃ member ∈ members, member.2.name = name) →
          name ∈ final.fieldNames owner ∨ ∃ kind, (kind, .ofMember title name) ∈ errors) ∧
        ((∀ member ∈ members, member.2.name ≠ name) →
          name ∉ final.fieldNames owner ∧ ∀ kind, (kind, .ofMember title name) ∉ errors) := by
  obtain ⟨shape, found, -⟩ := Option.bind_eq_some_iff.mp defined
  cases composite : shape.kind.isComposite with
  | true =>
    obtain ⟨definition, explains, -⟩ := defineMembers_explained found composite defined
    refine ⟨explains.spells, definition.title, _, explains.titled, explains.reports, explains.fieldNames_quiet, ?_⟩
    intro name _
    constructor
    · rintro ⟨member, listed, rfl⟩
      exact explains.field_or_error listed
    · intro absent
      have unlisted : ¬∃ member ∈ members, member.2.name = name := by
        rintro ⟨member, listed, same⟩
        exact absent member listed same
      exact ⟨fun present => unlisted (explains.listed_of_field present),
        fun kind reported => unlisted (explains.listed_of_error reported)⟩
  | false =>
    have bare : builder.fieldNames owner = [] := by
      rw [fieldNames, found, Option.elim_some, Shape.fields_plain composite, List.filterMap_nil]
    simp only [defineMembers, found, composite, Bool.false_eq_true, ↓reduceIte, Option.bind_eq_bind, Option.bind_some] at defined
    obtain ⟨title, titled, reports⟩ := reportKind_reports defined
    refine ⟨⟨shape, ?_, ?_⟩, title, _, titled, reports, fun none => absurd none (List.cons_ne_nil _ _), ?_⟩
    · rw [reportKind_catalog defined, found]
    · simp [Shape.fields_plain composite]
    · simp [bare]

/-- A call that defines no members of the type leaves its fields as they are. -/
theorem fields_kept {call : Call} {shape : Shape} (ran : call.run builder = some final) (apart : call.redefines owner = false)
    (found : builder.catalog.shape? owner = some shape) :
    ∃ later, final.catalog.shape? owner = some later ∧ later.fields = shape.fields := by
  have drafted {middle : Catalog} (drafts : Drafts builder.catalog middle) :
      ∃ later, middle.shape? owner = some later ∧ later.fields = shape.fields := by
    obtain ⟨entry, present, rfl⟩ := shape?_eq_some_iff.mp found
    obtain ⟨later, kept, follows⟩ := drafts.old present
    exact ⟨later.shape, shape?_eq_some_iff.mpr ⟨later, kept, rfl⟩, follows.fields⟩
  rcases call.cases_of_run ran with ⟨-, drafts⟩ | ⟨target, members, defines, defined⟩
  · exact drafted drafts
  · have different : target.pair ≠ owner.pair := by simpa [Call.redefines, defines] using apart
    rcases defineMembers_cases defined with ⟨-, same⟩ | ⟨_, _, _, fields, resolved, -, -, collecting, resolving, same⟩
    · exact ⟨shape, by rw [same, found], rfl⟩
    · rw [same, modifyShape_shape?, if_neg different]
      exact drafted ((collectSlots_drafts collecting).trans (resolveSlots_drafts resolving))

theorem fieldNames_kept {call : Call} (ran : call.run builder = some final) (apart : call.redefines owner = false)
    (spells : builder.Spells owner) : final.Spells owner ∧ final.fieldNames owner = builder.fieldNames owner := by
  obtain ⟨shape, found, spelled⟩ := spells
  obtain ⟨later, kept, same⟩ := fields_kept ran apart found
  have text {field : Field} (member : field ∈ shape.fields) :
      final.catalog.strings.get? field.name = builder.catalog.strings.get? field.name := by
    obtain ⟨name, known⟩ := spelled field member
    rw [known, (call.persists ran).get? known]
  refine ⟨⟨later, kept, ?_⟩, ?_⟩
  · rw [same]
    intro field member
    rw [text member]
    exact spelled field member
  · rw [fieldNames, fieldNames, kept, found, Option.elim_some, Option.elim_some, same]
    exact List.filterMap_congr fun field member => text member

/-- Nor do many such calls change them. -/
theorem replay_fieldNames (spells : builder.Spells owner) (apart : ∀ call ∈ calls, call.redefines owner = false) :
    (builder.replay calls).fieldNames owner = builder.fieldNames owner := by
  induction calls generalizing builder with
  | nil => rfl
  | cons call rest ih =>
    have others : ∀ call ∈ rest, call.redefines owner = false := fun other member => apart other (List.mem_cons_of_mem _ member)
    cases ran : call.run builder with
    | none =>
      rw [replay, ran, Option.getD_none]
      exact ih spells others
    | some next =>
      obtain ⟨kept, same⟩ := fieldNames_kept ran (apart call List.mem_cons_self) spells
      rw [replay, ran, Option.getD_some, ih kept others, same]

/-- The last definition of the members of a type wins. If it reports no error, the fields are those that it lists, whatever
the type had before. A field that the type had stays or is reported if its name is listed again; otherwise it is lost, and
nothing is said about it. -/
theorem last_definition_wins {before next : Builder} {call : Call} (defines : call.defines? = some (owner, members))
    (ran : call.run before = some next) {later : List Call} (others : ∀ other ∈ later, other.redefines owner = false) :
    ∃ title errors, before.catalog.display? owner.nonNull = some title ∧ before.Reports next errors ∧
      (errors = [] → (next.replay later).fieldNames owner = (members.map fun member => member.2.name).eraseDups) ∧
      ∀ name ∈ before.fieldNames owner,
        ((∃ member ∈ members, member.2.name = name) →
          name ∈ (next.replay later).fieldNames owner ∨ ∃ kind, (kind, .ofMember title name) ∈ errors) ∧
        ((∀ member ∈ members, member.2.name ≠ name) →
          name ∉ (next.replay later).fieldNames owner ∧ ∀ kind, (kind, .ofMember title name) ∉ errors) := by
  rw [Call.run_of_defines? defines] at ran
  obtain ⟨spells, outcome⟩ := defineMembers_fieldNames ran
  rwa [replay_fieldNames spells others]

/-- A record with its field, declared a second time. -/
def orderFeeds : Builder :=
  Builder.new.replay [.record "Acme.Order" false {},
    .defineFields (.ofPair 19) [⟨"Id", BasicType.int.id, .notNull, .notNull, {}, none, none⟩], .record "Acme.Order" false {}]

/-- The second declaration comes with a field of its own, and the first field is gone without a word. -/
theorem last_definition_wins_orderFeeds : ∃ next,
    orderFeeds.defineFields (.ofPair 19) [⟨"Total", BasicType.decimal.id, .notNull, .notNull, {}, none, none⟩] = some next ∧
    "Id" ∈ orderFeeds.fieldNames (.ofPair 19) ∧ orderFeeds.Reports next [] ∧
    (next.replay [.array (.ofPair 19)]).fieldNames (.ofPair 19) = ["Total"] := by
  let call : Call := .defineFields (.ofPair 19) [⟨"Total", BasicType.decimal.id, .notNull, .notNull, {}, none, none⟩]
  have outcome : (call.run orderFeeds).map Builder.diagnostics = some orderFeeds.diagnostics := by decide +kernel
  obtain ⟨next, ran, same⟩ := Option.map_eq_some_iff.mp outcome
  have quiet : orderFeeds.Reports next [] := .of_diagnostics same
  obtain ⟨title, errors, -, reports, listed, -⟩ := last_definition_wins (show call.defines? = some (_, _) from rfl) ran
    (show ∀ other ∈ [Call.array (.ofPair 19)], other.redefines (.ofPair 19) = false by decide)
  exact ⟨next, ran, by decide +kernel, quiet, listed (reports.unique quiet)⟩

end Builder
end Interchange
