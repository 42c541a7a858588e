import Interchange.Proofs.FieldDeclarations
import Interchange.Proofs.TablePersistence

/-! What declarations of members say. A table that has all their types tells which of them are valid and what those
declare. The checks agree with it: each declaration that is not valid is reported once, the others are sorted by name. -/

namespace Interchange

namespace Member

def reading? (member : Member) : Option Attributes :=
  match member.blob with
  | none => some member.attributes
  | some text => (Attributes.ofString text).toOption

def unionFault? (member : Member) : Option DiagnosticKind :=
  match member.union with
  | none => none
  | some members =>
    if !member.ty.isAny then some .unionOnNonObject else if members.isEmpty then some .emptyUnion else none

end Member

namespace Catalog

variable {catalog before after table : Catalog} {shape : Shape} {ty : TypeId} {member : Member}

def idOf? (catalog : Catalog) (shape : Shape) : Option TypeId :=
  (catalog.entries.findIdx? fun entry => entry.shape = shape).map TypeId.ofPair

def tuple? (catalog : Catalog) (ty : TypeId) : Option (List TupleElement) :=
  match catalog.shape? ty with
  | some (.tuple elements) => some elements
  | _ => none

def relabel (catalog : Catalog) (elements : List TupleElement) (names : List (Option String)) : List TupleElement :=
  elements.zipWith (fun element name => ⟨element.ty, name.bind catalog.strings.find?⟩) names

/-- The labels are too many or too few for the tuple that they are given to. -/
def labelFault? (catalog : Catalog) (ty : TypeId) (names : List (Option String)) : Option DiagnosticKind :=
  if !names.isEmpty && (catalog.tuple? ty).any fun elements => elements.length ≠ names.length then some .invalidAttributes
  else none

def relabelled? (catalog : Catalog) (ty : TypeId) (names : List (Option String)) : Option TypeId :=
  match catalog.tuple? ty with
  | some elements => if names.isEmpty then some ty else catalog.idOf? (.tuple (catalog.relabel elements names))
  | none => some ty

/-- The declared type or the union that takes its place. -/
def basis? (catalog : Catalog) (member : Member) : Option TypeId :=
  match member.union with
  | none => some member.ty.nonNull
  | some members => catalog.idOf? (.unionOf members)

def fault? (catalog : Catalog) (member : Member) : Option DiagnosticKind :=
  match member.reading? with
  | none => some .invalidAttributes
  | some attributes =>
    if member.read ≠ member.write then some .nullabilityMismatch
    else member.unionFault?.or ((catalog.basis? member).bind fun basis => catalog.labelFault? basis attributes.tupleNames)

def declared? (catalog : Catalog) (origin : Option TypeId) (member : Member) : Option Declared := do
  let attributes ← member.reading?
  let basis ← catalog.basis? member
  let ty ← catalog.relabelled? basis attributes.tupleNames
  return ⟨ty.withNullability member.read.isNullable, attributes.hasDefault, origin⟩

def declaration? (catalog : Catalog) (member : Option TypeId × Member) : Option (String × Declared) :=
  (catalog.declared? member.1 member.2).map fun declared => (member.2.name, declared)

def valid (catalog : Catalog) (members : List (Option TypeId × Member)) : List (Option TypeId × Member) :=
  members.filter fun member => (catalog.fault? member.2).isNone

def faults (catalog : Catalog) (owner : String) (members : List (Option TypeId × Member)) : List (DiagnosticKind × Location) :=
  members.filterMap fun member => (catalog.fault? member.2).map fun kind => (kind, .ofMember owner member.2.name)

theorem idOf?_eq_some_iff : catalog.idOf? shape = some ty ↔ ty.nullable = false ∧ catalog.shape? ty = some shape ∧
    ∀ pair < ty.pair, catalog.shape? (.ofPair pair) ≠ some shape := by
  constructor
  · intro known
    obtain ⟨pair, found, rfl⟩ := Option.map_eq_some_iff.mp known
    obtain ⟨inside, same, first⟩ := Array.findIdx?_eq_some_iff_getElem.mp found
    refine ⟨rfl, shape?_eq_some_iff.mpr ⟨catalog.entries[pair], Array.getElem?_eq_getElem inside, by simpa using same⟩, ?_⟩
    intro other earlier again
    obtain ⟨entry, present, equal⟩ := shape?_eq_some_iff.mp again
    obtain ⟨bound, rfl⟩ := Array.getElem?_eq_some_iff.mp present
    exact first other earlier (by simpa using equal)
  · rintro ⟨plain, found, first⟩
    obtain ⟨entry, present, equal⟩ := shape?_eq_some_iff.mp found
    obtain ⟨inside, rfl⟩ := Array.getElem?_eq_some_iff.mp present
    have start : catalog.entries.findIdx? (fun entry => entry.shape = shape) = some ty.pair := by
      refine Array.findIdx?_eq_some_iff_getElem.mpr ⟨inside, by simpa using equal, ?_⟩
      intro other earlier same
      have bound : other < catalog.entries.size := Nat.lt_trans earlier inside
      refine first other earlier (shape?_eq_some_iff.mpr ⟨catalog.entries[other], Array.getElem?_eq_getElem bound, ?_⟩)
      simpa using same
    rw [idOf?, start, Option.map_some, TypeId.ofPair, ← plain]

theorem intern_idOf? (catalog : Catalog) (anonymous : shape.name? = none) :
    (catalog.intern shape).2.idOf? shape = some (catalog.intern shape).1 := by
  have indexed : catalog.shapes.lookup shape = catalog.idOf? shape := by
    simp only [shapes_lookup, idOf?, Shape.content?_eq_some_iff, anonymous, and_true]
  unfold intern
  split
  next ty found => exact indexed.symm.trans found
  next fresh =>
    have absent : catalog.entries.findIdx? (fun entry => entry.shape = shape) = none := by
      simpa [idOf?] using indexed.symm.trans fresh
    simp [idOf?, push, Array.findIdx?_push, absent, size]

/-- A shape without a name keeps its id: no entry before it can come to be the same. -/
theorem PersistsIn.idOf? (persists : before.PersistsIn after) (anonymous : shape.name? = none)
    (known : before.idOf? shape = some ty) : after.idOf? shape = some ty := by
  obtain ⟨plain, found, first⟩ := idOf?_eq_some_iff.mp known
  refine idOf?_eq_some_iff.mpr ⟨plain, persists.anonymous found anonymous, ?_⟩
  intro pair earlier again
  have inside := contains_iff.mp (contains_of_shape found)
  obtain ⟨entry, present⟩ :=
    @entry_of_contains before (.ofPair pair) (contains_iff.mpr (Nat.lt_trans earlier inside))
  have old := shape?_eq_some_iff.mpr ⟨entry, present, rfl⟩
  obtain ⟨later, kept, outline⟩ := persists.outline old
  cases kept.symm.trans again
  exact first pair earlier (old.trans (congrArg some (Shape.eq_of_outline_anonymous outline.symm anonymous)))

theorem PersistsIn.tuple?_none (persists : before.PersistsIn after) (found : before.shape? ty = some shape)
    (other : ∀ elements, shape = .tuple elements → False) : after.tuple? ty = none := by
  obtain ⟨later, kept, outline⟩ := persists.outline found
  simp only [tuple?, kept]
  split
  next elements same =>
    cases same
    exact (other elements (Shape.eq_of_outline_anonymous outline.symm rfl)).elim
  next => rfl

/-- The labels that a table gives to elements are those that it and all later ones know. -/
theorem label_relabel {elements : List TupleElement} {names : List (Option String)}
    (persists : (catalog.label ((elements.map TupleElement.ty).zip names)).2.PersistsIn table) :
    (catalog.label ((elements.map TupleElement.ty).zip names)).1 = table.relabel elements names := by
  induction elements generalizing catalog names with
  | nil => rfl
  | cons element rest ih =>
    cases names with
    | nil => rfl
    | cons name names =>
      have later : ({ catalog with strings := (catalog.strings.internOption name).2 } : Catalog).PersistsIn table :=
        (PersistsIn.of_additions (label_additions _ _)).trans persists
      have known : (catalog.strings.internOption name).1 = name.bind table.strings.find? := by
        cases name with
        | none => rfl
        | some text => exact (later.text (Interner.intern_find? catalog.strings text)).symm
      have others := ih persists
      simp only [List.map_cons, List.zip_cons_cons, label, relabel, List.zipWith_cons_cons, List.cons.injEq] at others ⊢
      exact ⟨congrArg _ known, others⟩

end Catalog

namespace Slot

variable {name : String} {declared : Declared} {names : List String} {content : String → List Declared}

/-- The declarations sorted by name. The names stay in the order of their first declaration. -/
def group (declarations : List (String × Declared)) : List Slot :=
  (declarations.map Prod.fst).eraseDups.map fun name =>
    ⟨name, (declarations.filter fun declaration => declaration.1 = name).map Prod.snd⟩

private theorem names_nodup (names : List String) : names.eraseDups.Nodup := by
  cases names with
  | nil => simp
  | cons name rest =>
    rw [List.eraseDups_cons, List.nodup_cons]
    exact ⟨by simp, names_nodup _⟩
termination_by names.length
decreasing_by exact Nat.lt_succ_of_le (List.length_filter_le _ _)

theorem insert_present (distinct : names.Nodup) (present : name ∈ names) :
    Slot.insert name declared (names.map fun name => ⟨name, content name⟩) =
      names.map fun other => ⟨other, if other = name then content other ++ [declared] else content other⟩ := by
  induction names with
  | nil => cases present
  | cons first rest ih =>
    obtain ⟨absent, distinct⟩ := List.nodup_cons.mp distinct
    by_cases same : first = name
    · subst same
      have others : ∀ other ∈ rest, other ≠ first := fun other member equal => absent (equal ▸ member)
      simp +contextual [Slot.insert, others]
    · have inside : name ∈ rest := (List.mem_cons.mp present).resolve_left fun equal => same equal.symm
      simp [Slot.insert, same, ih distinct inside]

theorem insert_absent (absent : name ∉ names) : Slot.insert name declared (names.map fun name => ⟨name, content name⟩) =
    names.map (fun name => ⟨name, content name⟩) ++ [⟨name, [declared]⟩] := by
  induction names with
  | nil => rfl
  | cons first rest ih =>
    obtain ⟨different, absent⟩ := List.ne_and_not_mem_of_not_mem_cons absent
    simp [Slot.insert, Ne.symm different, ih absent]

theorem insert_group (declarations : List (String × Declared)) :
    Slot.insert name declared (group declarations) = group (declarations ++ [(name, declared)]) := by
  simp only [group, List.map_append, List.map_cons, List.map_nil, List.eraseDups_append, List.removeAll, List.filter_append]
  by_cases present : name ∈ declarations.map Prod.fst
  · rw [insert_present (names_nodup _) (List.mem_eraseDups.mpr present)]
    have known : [name].filter (fun other => !(declarations.map Prod.fst).elem other) = [] := by simpa using present
    rw [known, List.eraseDups_nil, List.map_nil, List.append_nil]
    apply List.map_congr_left
    intro other _
    by_cases same : other = name
    · simp [same]
    · simp [same, Ne.symm same]
  · rw [insert_absent (by simpa using present)]
    have fresh : [name].filter (fun other => !(declarations.map Prod.fst).elem other) = [name] := by simpa using present
    have empty : declarations.filter (fun declaration => declaration.1 = name) = [] := by
      rw [List.filter_eq_nil_iff]
      intro declaration member same
      exact present (List.mem_map.mpr ⟨declaration, member, by simpa using same⟩)
    rw [fresh]
    congr 1
    · apply List.map_congr_left
      intro other member
      have different : name ≠ other := fun same => present (same ▸ List.mem_eraseDups.mp member)
      simp [different]
    · simp [List.eraseDups_cons, empty]

end Slot

namespace Builder

open Catalog

variable {builder before middle after later : Builder} {table : Catalog} {member : Member} {location : Location}
  {first second : List (DiagnosticKind × Location)}

def Reports (before after : Builder) (errors : List (DiagnosticKind × Location)) : Prop :=
  ∃ appended, after.diagnostics.toList = before.diagnostics.toList ++ appended ∧
    (appended.filter Diagnostic.isError).map (fun diagnostic => (diagnostic.kind, diagnostic.location)) = errors

namespace Reports

theorem of_diagnostics (same : after.diagnostics = before.diagnostics) : before.Reports after [] :=
  ⟨[], by simp [same], rfl⟩

theorem trans (one : before.Reports middle first) (two : middle.Reports after second) : before.Reports after (first ++ second) := by
  obtain ⟨appended, listed, rfl⟩ := one
  obtain ⟨others, listed', rfl⟩ := two
  exact ⟨appended ++ others, by rw [listed', listed, List.append_assoc], by simp⟩

theorem of_report (builder : Builder) (diagnostic : Diagnostic) : builder.Reports (builder.report diagnostic)
    (if diagnostic.isError then [(diagnostic.kind, diagnostic.location)] else []) := by
  refine ⟨[diagnostic], by simp [report, Diagnostics.report, Diagnostics.toList], ?_⟩
  cases error : diagnostic.isError <;> simp [error]

end Reports

/-- The first check to fail is reported. -/
theorem Reports.of_fault {kind : DiagnosticKind} {diagnostic : Diagnostic} (error : kind.severity = .error)
    (same : diagnostic.kind = kind) (located : diagnostic.location = location) :
    builder.Reports (builder.report diagnostic) [(kind, location)] := by
  have reports := of_report builder diagnostic
  have isError : diagnostic.isError = true := by simp [Diagnostic.isError, Diagnostic.severity, same, error]
  rwa [if_pos isError, same, located] at reports

/-- A check has failed and was reported once, or it has come to a value without an error. -/
inductive Judged {α : Type} (fault? : Option DiagnosticKind) (value? : Option α) (location : Location) (builder later : Builder) :
    Option α → Prop where
  | invalid (kind : DiagnosticKind) (wrong : fault? = some kind) (reports : builder.Reports later [(kind, location)]) :
      Judged fault? value? location builder later none
  | valid {value : α} (right : fault? = none) (gives : value? = some value) (quiet : builder.Reports later []) :
      Judged fault? value? location builder later (some value)

theorem memberAttributes_judged {result : Option Attributes} (read : builder.memberAttributes member location = (result, later)) :
    Judged (if member.reading?.isNone then some .invalidAttributes else none) member.reading? location builder later result := by
  simp only [memberAttributes] at read
  unfold Member.reading?
  cases given : member.blob with
  | none =>
    simp only [given] at read
    cases read
    exact .valid rfl rfl (.of_diagnostics rfl)
  | some text =>
    simp only [given] at read
    cases parsed : Attributes.ofString text with
    | ok attributes =>
      simp only [parsed] at read
      cases read
      exact .valid (by simp [parsed, Except.toOption]) (by simp [parsed, Except.toOption]) (.of_diagnostics rfl)
    | error error =>
      simp only [parsed] at read
      cases read
      exact .invalid .invalidAttributes (by simp [parsed, Except.toOption]) (.of_fault rfl rfl rfl)

theorem memberShape_judged {result : Option TypeId} (shaped : builder.memberShape member location = some (result, later))
    (persists : later.catalog.PersistsIn table) :
    Judged member.unionFault? (table.basis? member) location builder later result := by
  simp only [memberShape] at shaped
  unfold Member.unionFault? basis?
  cases given : member.union with
  | none =>
    simp only [given] at shaped
    cases shaped
    exact .valid rfl rfl (.of_diagnostics rfl)
  | some members =>
    simp only [given] at shaped
    by_cases universal : member.ty.isAny = true
    · rw [if_pos (by exact universal)] at shaped
      by_cases empty : members.isEmpty = true
      · rw [if_pos empty] at shaped
        cases shaped
        exact .invalid .emptyUnion (by simp [universal, empty]) (.of_fault rfl rfl rfl)
      · rw [if_neg empty] at shaped
        cases shaped
        exact .valid (by simp [universal, empty]) (persists.idOf? rfl (intern_idOf? _ rfl)) (.of_diagnostics rfl)
    · rw [if_neg (by exact universal)] at shaped
      obtain ⟨found, -, shaped⟩ := Option.bind_eq_some_iff.mp shaped
      cases shaped
      exact .invalid .unionOnNonObject (by simp [universal]) (.of_fault rfl rfl rfl)

theorem labelled_judged {ty : TypeId} {names : List (Option String)} {result : Option TypeId}
    (labelled : builder.labelled ty names location = some (result, later)) (persists : later.catalog.PersistsIn table) :
    Judged (table.labelFault? ty names) (table.relabelled? ty names) location builder later result := by
  have grown := (PersistsIn.of_additions (labelled_additions labelled)).trans persists
  simp only [Builder.labelled] at labelled
  unfold labelFault? relabelled?
  split at labelled
  next empty =>
    cases labelled
    refine .valid (by simp [empty]) ?_ (.of_diagnostics rfl)
    cases table.tuple? ty <;> simp [empty]
  next filled =>
    split at labelled
    · cases labelled
    next elements found =>
      have kept : table.tuple? ty = some elements := by rw [tuple?, grown.anonymous found rfl]
      split at labelled
      next equal =>
        cases labelled
        have relabelled := label_relabel ((PersistsIn.of_intern _ rfl).trans persists)
        refine .valid (by simp [kept, equal]) ?_ (.of_diagnostics rfl)
        simp only [kept, filled, Bool.false_eq_true, if_false, ← relabelled]
        exact persists.idOf? rfl (intern_idOf? _ rfl)
      next different =>
        cases labelled
        exact .invalid .invalidAttributes (by simp [kept, filled, different]) (.of_fault rfl rfl rfl)
    next shape other found =>
      obtain ⟨shown, -, labelled⟩ := Option.bind_eq_some_iff.mp labelled
      cases labelled
      have kept := grown.tuple?_none found other
      exact .valid (by simp [kept]) (by simp [kept]) (.of_report builder _)

theorem checkMember_judged {origin : Option TypeId} {result : Option Declared}
    (checked : builder.checkMember member origin location = some (result, later)) (persists : later.catalog.PersistsIn table) :
    Judged (table.fault? member) (table.declared? origin member) location builder later result := by
  unfold fault? declared?
  simp only [checkMember] at checked
  split at checked
  next reading =>
    cases checked
    cases memberAttributes_judged reading with
    | invalid kind wrong reports =>
      obtain ⟨unread, rfl⟩ : member.reading? = none ∧ kind = .invalidAttributes := by simpa using wrong.symm
      exact .invalid _ (by simp [unread]) reports
  next attributes read reading =>
    cases memberAttributes_judged reading with
    | valid _ given start =>
      simp only [given, Option.bind_eq_bind, Option.bind_some]
      split at checked
      next same =>
        simp only [same, ne_eq, not_true, if_false]
        split at checked
        · cases checked
        next shaped shaping =>
          cases checked
          cases memberShape_judged shaping persists with
          | invalid kind wrong reports => exact .invalid kind (by simp [wrong]) (start.trans reports)
        next basis shaped shaping =>
          split at checked
          · cases checked
          next named naming =>
            cases checked
            have grown := (PersistsIn.of_additions (labelled_additions naming)).trans persists
            cases memberShape_judged shaping grown with
            | valid right based quiet =>
              cases labelled_judged naming persists with
              | invalid kind wrong reports =>
                exact .invalid kind (by simp [right, based, wrong]) (start.trans (quiet.trans reports))
          next ty named naming =>
            cases checked
            have grown := (PersistsIn.of_additions (labelled_additions naming)).trans persists
            cases memberShape_judged shaping grown with
            | valid right based quiet =>
              cases labelled_judged naming persists with
              | valid right' gives quiet' =>
                exact .valid (by simp [right, based, right']) (by simp [based, gives, same]) (start.trans (quiet.trans quiet'))
      next different =>
        cases checked
        exact .invalid .nullabilityMismatch (by simp [different]) (start.trans (.of_fault rfl rfl rfl))

/-- The slots hold the valid declarations, and each of the others is reported once. -/
theorem collectSlots_judged {owner : String} {members : List (Option TypeId × Member)} {earlier : List (String × Declared)}
    {slots : List Slot} (collected : builder.collectSlots owner (Slot.group earlier) members = some (slots, later))
    (persists : later.catalog.PersistsIn table) :
    ∃ declarations, (table.valid members).mapM table.declaration? = some declarations ∧
      slots = Slot.group (earlier ++ declarations) ∧ builder.Reports later (table.faults owner members) := by
  induction members generalizing builder earlier with
  | nil =>
    cases collected
    exact ⟨[], rfl, by rw [List.append_nil], .of_diagnostics rfl⟩
  | cons first rest ih =>
    obtain ⟨origin, member⟩ := first
    simp only [collectSlots] at collected
    split at collected
    · cases collected
    next checked outcome =>
      have grown := (PersistsIn.of_additions (collectSlots_additions collected)).trans persists
      obtain ⟨declarations, read, same, others⟩ := ih collected
      cases checkMember_judged outcome grown with
      | invalid kind wrong reports =>
        have dropped : table.valid ((origin, member) :: rest) = table.valid rest := by simp [valid, wrong]
        have listed : table.faults owner ((origin, member) :: rest) =
            [(kind, .ofMember owner member.name)] ++ table.faults owner rest := by simp [faults, wrong]
        exact ⟨declarations, dropped ▸ read, same, listed ▸ reports.trans others⟩
    next declared checked outcome =>
      have grown := (PersistsIn.of_additions (collectSlots_additions collected)).trans persists
      rw [Slot.insert_group] at collected
      obtain ⟨declarations, read, same, others⟩ := ih collected
      cases checkMember_judged outcome grown with
      | valid right gives quiet =>
        have kept : table.valid ((origin, member) :: rest) = (origin, member) :: table.valid rest := by simp [valid, right]
        have listed : table.faults owner ((origin, member) :: rest) = table.faults owner rest := by simp [faults, right]
        refine ⟨(member.name, declared) :: declarations, ?_, by simpa using same, listed ▸ quiet.trans others⟩
        simp [kept, declaration?, gives, read]

end Builder
end Interchange
