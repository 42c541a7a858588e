import Interchange.Proofs.DraftEntries
import Interchange.Proofs.FormSettling

/-! Locked systems. Locking succeeds after every registration: all forms are there, each new type is a
form of a registered one, and what was declared is kept. The forms are stable and commute. -/

namespace Interchange

namespace Catalog

variable {catalog before after : Catalog} {fits : Catalog → Shape → Prop} {ty form : TypeId} {count : Nat}

theorem Draft.recorded (draft : catalog.Draft) : catalog.Recorded := by
  constructor
  · intro ty form found
    obtain ⟨entry, present, known⟩ := Option.bind_eq_some_iff.mp found
    rw [(draft entry (Array.mem_of_getElem? present)).forms] at known
    cases known
  · intro ty form found
    obtain ⟨entry, present, known⟩ := Option.bind_eq_some_iff.mp found
    rw [(draft entry (Array.mem_of_getElem? present)).forms] at known
    cases known

theorem Recorded.amended (recorded : before.Recorded) (sound : before.Sound) (edits : Edits fits before after)
    (amends : before.Amends after) : after.Recorded :=
  recorded.later edits sound (fun ty _ found => .inl (amends.oblivious ty ▸ found))
    fun ty _ found => .inl (amends.regular ty ▸ found)

theorem Forming.amended (forming : Forming count before) (edits : Edits fits before after) (amends : before.Amends after) :
    Forming count after := by
  refine ⟨edits.sound forming.sound, forming.recorded.amended forming.sound edits amends, ?_⟩
  apply forming.derived.later edits forming.sound
  intro pair beyond inside
  rw [amends.size] at inside
  omega

theorem Settled.amended (settled : before.Settled ty) (amends : before.Amends after) : after.Settled ty :=
  ⟨amends.oblivious ty ▸ settled.oblivious, amends.regular ty ▸ settled.regular⟩

theorem Erased.inside (erased : Erased catalog ty form) : catalog.contains form = true := by
  cases erased with
  | intro _ made => exact contains_of_shape made

theorem Regularized.inside (regular : Regularized catalog ty form) : catalog.contains form = true := by
  cases regular with
  | keep found => exact contains_of_shape found
  | intro _ _ made => exact contains_of_shape made

theorem Erased.isReadOnly (erased : Erased catalog ty form) : catalog.isReadOnly form = catalog.isReadOnly ty := by
  cases erased with
  | intro found made => rw [isReadOnly_of_shape made, isReadOnly_of_shape found, Shape.erase_isReadOnly]

theorem Regularized.writable (regular : Regularized catalog ty form) (writable : catalog.isReadOnly ty = false) :
    catalog.isReadOnly form = false := by
  cases regular with
  | keep => exact writable
  | intro found _ made => rw [isReadOnly_of_shape made, Shape.regularize_isReadOnly]

theorem isReadOnly_iff : catalog.isReadOnly ty = true ↔
    ∃ (family : Family) (item : TypeId), catalog.shape? ty = some (family.shape item .readOnly) := by
  constructor
  · intro readOnly
    obtain ⟨shape, found⟩ : ∃ shape, catalog.shape? ty = some shape := by
      cases found : catalog.shape? ty with
      | none => simp [isReadOnly, found] at readOnly
      | some shape => exact ⟨shape, rfl⟩
    rw [isReadOnly_of_shape found] at readOnly
    cases shape with
    | list item form =>
      cases beq_iff_eq.mp readOnly
      exact ⟨.list, item, found⟩
    | set item form =>
      cases beq_iff_eq.mp readOnly
      exact ⟨.set, item, found⟩
    | dictionary key value form =>
      cases beq_iff_eq.mp readOnly
      exact ⟨.dictionary key, value, found⟩
    | _ => cases readOnly
  · rintro ⟨family, item, found⟩
    rw [isReadOnly_of_shape found]
    cases family <;> rfl

end Catalog

namespace System

open Catalog

/-- A system that keeps the declarations of a table, and has the forms of all its types. -/
structure Completes (system : System) (declared : Catalog) : Prop where
  forming : Forming declared.size system.catalog
  settled : ∀ ty, system.contains ty = true → system.catalog.Settled ty
  retains : declared.Retains system.catalog

variable {system : System} {declared : Catalog} {ty form : TypeId}

theorem contains_of_regular? (regular : system.regular? ty = some form) : system.contains ty = true := by
  obtain ⟨pair, found, -⟩ := Option.map_eq_some_iff.mp regular
  obtain ⟨entry, present, -⟩ := Option.bind_eq_some_iff.mp (Option.join_eq_some_iff.mp found)
  exact contains_of_entry present

namespace Completes

variable (completes : system.Completes declared)

include completes

theorem erased (inside : system.contains ty = true) : Erased system.catalog ty (system.oblivious ty) :=
  completes.forming.recorded.erased (completes.settled ty inside).oblivious

theorem regularized (inside : system.contains ty = true) :
    Regularized system.catalog ty ((system.regular? ty).getD ty) :=
  completes.forming.recorded.regularized (completes.settled ty inside).regular

theorem regular?_eq_none_iff (inside : system.contains ty = true) :
    system.regular? ty = none ↔ system.catalog.isReadOnly ty = true := by
  obtain ⟨record, found⟩ := Option.isSome_iff_exists.mp (completes.settled ty inside).regular
  have right := completes.forming.recorded.regular ty record found
  cases record with
  | none =>
    have readOnly : system.catalog.isReadOnly ty = true := right
    simp [System.regular?, Catalog.regular?, found, readOnly]
  | some form => simp [System.regular?, Catalog.regular?, found, right.1]

/-- The regular form of a type is the one type that its definition admits. -/
theorem regular?_eq_some_iff : system.regular? ty = some form ↔
    system.catalog.isReadOnly ty = false ∧ Regularized system.catalog ty form := by
  constructor
  · intro regular
    have inside := contains_of_regular? regular
    have made := completes.regularized inside
    have none := completes.regular?_eq_none_iff inside
    rw [regular] at made none
    exact ⟨by simpa using none, made⟩
  · rintro ⟨writable, made⟩
    have inside : system.contains ty = true := made.known
    cases regular : system.regular? ty with
    | none =>
      rw [(completes.regular?_eq_none_iff inside).mp regular] at writable
      cases writable
    | some other =>
      have same := completes.regularized inside
      rw [regular] at same
      rw [Option.some.injEq]
      exact same.functional completes.forming.sound made

theorem regularized_cases (made : Regularized system.catalog ty form) : form = ty ∨ system.regular? ty = some form := by
  cases readOnly : system.catalog.isReadOnly ty with
  | true =>
    obtain ⟨shape, found⟩ := shape_of_contains made.known
    rw [isReadOnly_of_shape found] at readOnly
    exact .inl (made.functional completes.forming.sound (.keep found readOnly))
  | false => exact .inr (completes.regular?_eq_some_iff.mpr ⟨readOnly, made⟩)

theorem regular?_stable (regular : system.regular? ty = some form) : system.regular? form = some form := by
  obtain ⟨writable, made⟩ := completes.regular?_eq_some_iff.mp regular
  exact completes.regular?_eq_some_iff.mpr ⟨made.writable writable, made.stable⟩

theorem regular?_oblivious (inside : system.contains ty = true) :
    system.regular? (system.oblivious ty) = (system.regular? ty).map system.oblivious := by
  have bare := completes.erased inside
  cases regular : system.regular? ty with
  | none =>
    have readOnly := (completes.regular?_eq_none_iff inside).mp regular
    exact (completes.regular?_eq_none_iff bare.inside).mpr (bare.isReadOnly.trans readOnly)
  | some form =>
    obtain ⟨writable, made⟩ := completes.regular?_eq_some_iff.mp regular
    apply completes.regular?_eq_some_iff.mpr
    exact ⟨bare.isReadOnly.trans writable, made.erased completes.forming.sound bare (completes.erased made.inside)⟩

end Completes

/-- The pair holds one of the forms of the type: the oblivious one, the regular one, or both in turn. -/
def IsFormOf (system : System) (pair : Nat) (origin : TypeId) : Prop :=
  (system.oblivious origin).pair = pair ∨
    ∃ form, (system.regular? origin = some form ∨ system.regular? (system.oblivious origin) = some form) ∧ form.pair = pair

/-- The forms of a type have been computed: they are types of the system, and they are what forms should be. -/
structure HasForms (system : System) (ty : TypeId) : Prop where
  oblivious : ∃ form, system.catalog.obliviousPair? ty = some form ∧ system.contains form = true
  regular : ∃ form, system.catalog.regularPair? ty = some form ∧ ∀ other ∈ form, system.contains other = true
  erased : Erased system.catalog ty (system.oblivious ty)
  regularized : ∀ form, system.regular? ty = some form → Regularized system.catalog ty form

theorem Completes.isFormOf (completes : system.Completes declared) {pair : Nat} (beyond : declared.size ≤ pair)
    (inside : pair < system.size) : ∃ origin, origin < declared.size ∧ system.IsFormOf pair (.ofPair origin) := by
  obtain ⟨origin, kind, ty, bound, rfl, made⟩ := completes.forming.derived.exists_origin completes.forming.sound inside
  refine ⟨origin, bound, ?_⟩
  cases kind with
  | itself =>
    cases made
    exact absurd bound (Nat.not_lt.mpr beyond)
  | oblivious =>
    have made : Erased system.catalog (.ofPair origin) ty := made
    exact .inl (congrArg TypeId.pair ((completes.erased made.known).functional completes.forming.sound made))
  | regular =>
    rcases completes.regularized_cases made with rfl | regular
    · exact absurd bound (Nat.not_lt.mpr beyond)
    · exact .inr ⟨ty, .inl regular, rfl⟩
  | both =>
    -- The forms commute, so the oblivious one can be taken first.
    have square : Regularized system.catalog (system.oblivious (.ofPair origin)) ty := by
      obtain ⟨middle, ⟨erased, regular⟩ | ⟨regular, erased⟩⟩ := made
      · cases (completes.erased erased.known).functional completes.forming.sound erased
        exact regular
      · exact regular.erased completes.forming.sound (completes.erased regular.known) erased
    rcases completes.regularized_cases square with same | regular
    · exact .inl (congrArg TypeId.pair same.symm)
    · exact .inr ⟨ty, .inr regular, rfl⟩

theorem Completes.hasForms (completes : system.Completes declared) (inside : system.contains ty = true) : system.HasForms ty := by
  obtain ⟨oblivious, regular⟩ := completes.settled ty inside
  obtain ⟨bare, found⟩ := Option.isSome_iff_exists.mp oblivious
  obtain ⟨record, present⟩ := Option.isSome_iff_exists.mp regular
  refine ⟨?_, ?_, completes.erased inside, fun form made => (completes.regular?_eq_some_iff.mp made).2⟩
  · obtain ⟨other, same, erased⟩ := completes.forming.recorded.oblivious ty bare found
    refine ⟨bare, found, contains_iff.mpr ?_⟩
    rw [← same]
    exact contains_iff.mp erased.inside
  · refine ⟨record, present, ?_⟩
    rintro form ⟨⟩
    obtain ⟨-, other, same, made⟩ := completes.forming.recorded.regular ty (some form) present
    apply contains_iff.mpr
    rw [← same]
    exact contains_iff.mp made.inside

end System

namespace Builder

open Catalog

variable {builder : Builder} {filled formed final : Catalog}

structure Passes (declared filled formed final : Catalog) : Prop where
  allowed : declared.withAllowed? = some filled
  forms : filled.withForms? = some formed
  policies : formed.withPolicies? = some final
  fills : declared.Amends filled
  settles : filled.Settles formed
  forming : Forming declared.size formed
  complete : ∀ ty, formed.contains ty = true → formed.Settled ty
  amends : formed.Amends final

/-- Locking goes through its passes after every history of registration. -/
theorem Reached.passes (reached : builder.Reached) : ∃ filled formed final, Passes builder.catalog filled formed final := by
  have sound := Reached.sound reached
  obtain ⟨filled, allowed, fills⟩ := withAllowed_total sound
  have edits : Edits (fun _ _ => True) builder.catalog filled := withAllowed_edits allowed
  have recorded := (Reached.draft reached).recorded.amended sound edits fills
  obtain ⟨formed, forms, forming, settles, complete⟩ := withForms_total (edits.sound sound) recorded
  obtain ⟨final, policies, amends, -⟩ := withPolicies_total forming.sound
  exact ⟨filled, formed, final, allowed, forms, policies, fills, settles, fills.size ▸ forming, complete, amends⟩

theorem lock_of_passes (passes : Passes builder.catalog filled formed final) :
    builder.lock = some (⟨final, .ofCatalog final⟩, builder.diagnostics) := by
  simp [lock, passes.allowed, passes.forms, passes.policies]

/-- Locking succeeds after every history of registration. -/
theorem Reached.locked (reached : builder.Reached) :
    ∃ system, builder.lock = some (system, builder.diagnostics) ∧ system.Completes builder.catalog := by
  obtain ⟨filled, formed, final, passes⟩ := Reached.passes reached
  have last : Edits (fun _ _ => True) formed final := (withPolicies_steps passes.policies).edits
  refine ⟨⟨final, .ofCatalog final⟩, lock_of_passes passes, passes.forming.amended last passes.amends, ?_, ?_⟩
  · intro ty inside
    have known : formed.contains ty = true := contains_iff.mpr (passes.amends.size ▸ contains_iff.mp inside)
    exact (passes.complete ty known).amended passes.amends
  · exact passes.fills.toRetains.trans (passes.settles.toRetains.trans passes.amends.toRetains)

/-- A record that holds a list of records of its own kind, and a labelled tuple of such lists. -/
def forest : Builder :=
  Builder.new.replay [.record "Node" false {}, .list (.ofPair 19) .abstract,
    .defineFields (.ofPair 19) [⟨"Children", .ofPair 20, .notNull, .notNull, {}, none, none⟩],
    .namedTuple [(.ofPair 20, some "Trees"), (.ofPair 20, none)]]

theorem forest_reached : forest.Reached :=
  ReachedBy.new.replay (by decide +kernel)

theorem forest_forms {system : System} (locked : forest.lock = some (system, forest.diagnostics)) :
    system.size = 28 ∧ system.regular? (.ofPair 21) = some (.ofPair 25) := by
  have answered : (forest.lock.map fun result => (result.1.size, result.1.regular? (.ofPair 21))) =
      some (28, some (.ofPair 25)) := by decide +kernel
  simpa [locked] using answered

/-- Only read-only collections have no regular form. The regular form of a type is stable, and it makes no difference
which of the two forms is taken first. -/
theorem forms_stable_commute (reached : builder.Reached) :
    ∃ system, builder.lock = some (system, builder.diagnostics) ∧ ∀ ty, system.contains ty = true →
      (system.regular? ty = none ↔
        ∃ (family : Family) (item : TypeId), system.shape? ty = some (family.shape item .readOnly)) ∧
      (∀ form, system.regular? ty = some form → system.regular? form = some form) ∧
      system.regular? (system.oblivious ty) = (system.regular? ty).map system.oblivious := by
  obtain ⟨system, locked, completes⟩ := Reached.locked reached
  refine ⟨system, locked, ?_⟩
  intro ty inside
  refine ⟨(completes.regular?_eq_none_iff inside).trans isReadOnly_iff, ?_, completes.regular?_oblivious inside⟩
  intro form regular
  exact completes.regular?_stable regular

theorem forms_stable_commute_forest : forest.Reached ∧ ∃ system, forest.lock = some (system, forest.diagnostics) ∧
    ∃ form, system.regular? (.ofPair 21) = some form ∧ form ≠ .ofPair 21 ∧ system.regular? form = some form ∧
      system.regular? (system.oblivious (.ofPair 21)) = some (system.oblivious form) := by
  obtain ⟨system, locked, laws⟩ := forms_stable_commute forest_reached
  obtain ⟨-, regular⟩ := forest_forms locked
  obtain ⟨-, stable, commute⟩ := laws (.ofPair 21) (System.contains_of_regular? regular)
  rw [regular] at commute
  exact ⟨forest_reached, system, locked, .ofPair 25, regular, by decide, stable _ regular, commute⟩

end Builder
end Interchange
