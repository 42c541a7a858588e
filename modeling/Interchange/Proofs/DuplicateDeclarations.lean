import Interchange.Proofs.BuilderHistory

/-! Declarations under a name that is taken. The first type keeps the name: its id is returned, the duplicate is
reported, and the table stays as it was. Only a secondary interface is still entered with the family it names. -/

namespace Interchange

theorem Interner.intern_of_find? {interner : Interner} {text : String} {symbol : Symbol}
    (found : interner.find? text = some symbol) : interner.intern text = (symbol, interner) := by
  rw [intern, found]

namespace Catalog

variable {catalog : Catalog} {head ty : TypeId} {change : Shape → Shape}

/-- A family that does not list the id among its secondaries. -/
def Lacks (catalog : Catalog) (head ty : TypeId) : Prop :=
  ∃ name fields secondaries abstractions,
    catalog.shape? head = some (.primary name fields secondaries abstractions) ∧ ty ∉ secondaries

/-- A change that leaves the shape of its target alone changes nothing. -/
theorem modifyShape_eq_self {keeps : ∀ shape, (change shape).identity = shape.identity}
    (same : ∀ shape, catalog.shape? head = some shape → change shape = shape) :
    catalog.modifyShape head change keeps = catalog := by
  refine ext_entries (show _ = catalog.strings from rfl) ?_
  apply Array.ext (modifyEntry_size head)
  intro pair inside present
  simp only [modifyEntry, Array.getElem_modify]
  split
  next paired =>
    have found : catalog.shape? head = some catalog.entries[pair].shape := by
      rw [shape?, Catalog.entry?, paired, Array.getElem?_eq_getElem present, Option.map_some]
    rw [same _ found]
  next => rfl

theorem addSecondary_eq_self_iff :
    catalog.modifyShape head (fun shape => shape.addSecondary ty) = catalog ↔ ¬ catalog.Lacks head ty := by
  constructor
  · rintro same ⟨name, fields, secondaries, abstractions, found, absent⟩
    have after := @modifyShape_shape? catalog head (fun shape => shape.addSecondary ty) (by simp) head
    rw [same, if_pos rfl, found] at after
    have longer := congrArg List.length (Shape.primary.inj (Option.some.inj after)).2.2.1
    simp [Shape.adjoin, absent] at longer
  · intro listed
    apply modifyShape_eq_self
    intro shape found
    cases shape with
    | primary name fields secondaries abstractions =>
      have present : ty ∈ secondaries := by
        apply Classical.byContradiction
        intro absent
        exact listed ⟨name, fields, secondaries, abstractions, found, absent⟩
      simp [Shape.addSecondary, Shape.adjoin, present]
    | _ => rfl

/-- No name changes hands when a family is told about a secondary. -/
theorem addSecondary_find? (text : String) :
    (catalog.modifyShape head fun shape => shape.addSecondary ty).find? text = catalog.find? text :=
  rfl

end Catalog

namespace Builder

variable {builder : Builder} {name : String} {existing : TypeId}

def duplicate (name : String) : Diagnostic :=
  (Diagnostic.ofKind .duplicateTypeName (.ofType name)).withDetail name

def reportAll (builder : Builder) (reports : List Diagnostic) : Builder :=
  reports.foldl report builder

theorem reportAll_diagnostics (builder : Builder) (reports : List Diagnostic) :
    (builder.reportAll reports).diagnostics.toList = builder.diagnostics.toList ++ reports := by
  induction reports generalizing builder with
  | nil => simp [reportAll]
  | cons first rest ih =>
    have step : (builder.report first).diagnostics.toList = builder.diagnostics.toList ++ [first] := by
      simp [report, Diagnostics.report, Diagnostics.toList]
    have later := ih (builder.report first)
    rw [step, List.append_assoc] at later
    exact later

theorem declare_taken (taken : builder.catalog.find? name = some existing) (attributes : Attributes)
    (shape : Symbol → Shape) : builder.declare name attributes shape = (existing, builder.report (duplicate name)) := by
  obtain ⟨symbol, spelled, owned⟩ := Option.bind_eq_some_iff.mp taken
  simp only [declare, Interner.intern_of_find? spelled, owned, duplicate]

end Builder

namespace Call

open Builder

variable {builder : Builder} {call : Call} {name : String} {existing : TypeId}

def registers? : Call → Option String
  | enumeration name _ _ | record name _ _ | primary name _ | secondary name _ _ | abstraction name _ _ => some name
  | _ => none

def declare? (builder : Builder) : Call → Option (TypeId × Builder)
  | enumeration name underlying attributes => some (builder.declareEnum name underlying attributes)
  | record name isValue attributes => some (builder.declareRecord name isValue attributes)
  | primary name attributes => some (builder.declarePrimary name attributes)
  | secondary name head attributes => builder.declareSecondary name head attributes
  | abstraction name generalizations attributes => some (builder.declareAbstraction name generalizations attributes)
  | _ => none

theorem run_of_declare? (declares : call.registers? = some name) :
    call.run builder = (call.declare? builder).map Prod.snd := by
  cases call with
  | enumeration | record | primary | secondary | abstraction => rfl
  | _ => cases declares

/-- A secondary interface is declared, and the family it is declared on does not list the id that comes back. -/
def Attaches (builder : Builder) (existing : TypeId) : Call → Prop
  | secondary _ head _ => builder.catalog.Lacks head existing
  | _ => False

/-- What a declaration reports before it looks its name up. -/
def misgivings : Call → List Diagnostic
  | enumeration name underlying _ =>
    if underlying.isIntegral then []
    else [(Diagnostic.ofKind .underlyingNotIntegral (.ofType name)).withDetail underlying.name]
  | _ => []

/-- What a declaration under a name that is taken does to the table. -/
def adopt (existing : TypeId) (catalog : Catalog) : Call → Catalog
  | secondary _ head _ => catalog.modifyShape head (·.addSecondary existing) (Shape.addSecondary_identity existing)
  | _ => catalog

theorem declare?_taken (declares : call.registers? = some name) (known : call.Registered builder)
    (taken : builder.catalog.find? name = some existing) :
    call.declare? builder = some (existing,
      { builder.reportAll (call.misgivings ++ [duplicate name]) with catalog := call.adopt existing builder.catalog }) := by
  cases call with
  | enumeration text underlying attributes =>
    cases declares
    simp only [declare?, declareEnum, misgivings]
    split
    · rw [declare_taken taken]
      rfl
    · rw [declare_taken (by exact taken)]
      rfl
  | record | primary | abstraction =>
    cases declares
    simp only [declare?, declareRecord, declarePrimary, declareAbstraction, declare_taken taken]
    rfl
  | secondary text head attributes =>
    cases declares
    have inside : (builder.report (duplicate name)).catalog.contains head = true := known head (by simp [mentions])
    simp only [declare?, declareSecondary, declare_taken taken, inside, if_true]
    rfl
  | _ => cases declares

theorem adopt_eq_self_iff (declares : call.registers? = some name) :
    call.adopt existing builder.catalog = builder.catalog ↔ ¬ call.Attaches builder existing := by
  cases call with
  | secondary => exact Catalog.addSecondary_eq_self_iff
  | enumeration | record | primary | abstraction => simp [adopt, Attaches]
  | _ => cases declares

theorem adopt_find? (text : String) : (call.adopt existing builder.catalog).find? text = builder.catalog.find? text := by
  cases call with
  | secondary => exact Catalog.addSecondary_find? text
  | _ => rfl

end Call

namespace Builder

/-- A name belongs to the type that was declared first. A later declaration returns that type's id, reports the
duplicate and changes nothing else, with one exception: a secondary interface is declared on a family that does not list
the id, and the family takes the type for one of its secondaries, whatever it is. -/
theorem duplicate_keeps_catalog_iff {builder : Builder} {call : Call} {name : String} {existing : TypeId}
    (declares : call.registers? = some name) (known : call.Registered builder)
    (taken : builder.catalog.find? name = some existing) :
    ∃ after, call.declare? builder = some (existing, after) ∧ call.run builder = some after ∧
      after.diagnostics.toList = builder.diagnostics.toList ++ call.misgivings ++ [duplicate name] ∧
      (after.catalog = builder.catalog ↔ ¬ call.Attaches builder existing) ∧
      (∀ text, after.catalog.find? text = builder.catalog.find? text) ∧
      ∀ head attributes, call = .secondary name head attributes →
        after.catalog = builder.catalog.modifyShape head fun shape => shape.addSecondary existing := by
  have declared := Call.declare?_taken declares known taken
  refine ⟨_, declared, ?_, ?_, Call.adopt_eq_self_iff declares, Call.adopt_find?, ?_⟩
  · rw [Call.run_of_declare? declares, declared]
    rfl
  · rw [List.append_assoc]
    exact builder.reportAll_diagnostics _
  · rintro head attributes rfl
    rfl

/-- A family, an enumeration and the family's secondary interface. -/
def orders : Builder :=
  Builder.new.replay [.primary "Order" {}, .enumeration "State" .int {}, .secondary "OrderInfo" (.ofPair 19) {}]

theorem orders_reached : orders.Reached :=
  ReachedBy.new.replay (by decide +kernel)

/-- The secondary interface is declared again without effect; the enumeration becomes a secondary of the family. -/
theorem duplicate_keeps_catalog_iff_orders : orders.Reached ∧
    (∃ after, Call.declare? orders (.secondary "OrderInfo" (.ofPair 19) {}) = some (.ofPair 21, after) ∧
      after.catalog = orders.catalog) ∧
    ∃ after, Call.declare? orders (.secondary "State" (.ofPair 19) {}) = some (.ofPair 20, after) ∧
      after.catalog.shape? (.ofPair 19) = some (.primary ⟨0⟩ [] [.ofPair 21, .ofPair 20] []) ∧
      after.catalog.kind? (.ofPair 20) = some .enumeration := by
  have family : orders.catalog.shape? (.ofPair 19) = some (.primary ⟨0⟩ [] [.ofPair 21] []) := by decide +kernel
  obtain ⟨again, returned, -, -, same, -⟩ := @duplicate_keeps_catalog_iff orders (.secondary "OrderInfo" (.ofPair 19) {})
    "OrderInfo" (.ofPair 21) rfl (by decide +kernel) (by decide +kernel)
  obtain ⟨after, strayed, -, -, -, -, attached⟩ := @duplicate_keeps_catalog_iff orders (.secondary "State" (.ofPair 19) {})
    "State" (.ofPair 20) rfl (by decide +kernel) (by decide +kernel)
  refine ⟨orders_reached, ⟨again, returned, same.mpr ?_⟩, after, strayed, ?_, ?_⟩
  · rintro ⟨_, _, _, _, found, absent⟩
    cases family.symm.trans found
    simp at absent
  · rw [attached _ _ rfl]
    decide +kernel
  · rw [attached _ _ rfl]
    decide +kernel

end Builder
end Interchange
