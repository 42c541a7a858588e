import Interchange.Proofs.LockedForms

/-! Final forms. The final form of a type is final itself, and a plain value or a nullable reference, unless a
secondary interface was declared on something else than a reference type with instances of its own. -/

namespace Interchange

/-- Instances may have a type of this kind: it is neither polymorphic nor another name for a type. -/
def Kind.hasInstances : Kind → Bool
  | any | abstraction | union | secondary => false
  | _ => true

namespace System

open Catalog

/-- A reference type that instances can have as it stands. -/
structure Instantiable (system : System) (ty : TypeId) : Prop where
  kind : ∃ kind, system.catalog.kind? ty = some kind ∧ kind.hasInstances = true
  reference : system.catalog.isValue ty = false
  regular : system.regular? ty = some ty

variable {system : System} {declared : Catalog} {ty form head : TypeId} {shape : Shape} {name : Symbol}

theorem finalForm?_of_kind {kind : Kind} (found : system.catalog.kind? ty = some kind) (instances : kind.hasInstances = true) :
    system.finalForm? ty = (system.regular? ty).map fun form => form.withNullability (!system.catalog.isValue form) := by
  obtain ⟨shape, present, rfl⟩ := shape_of_kind found
  have present : system.shape? ty = some shape := present
  unfold finalForm?
  rw [present]
  cases shape <;> first | rfl | cases instances

theorem finalForm?_of_secondary (found : system.shape? ty = some (.secondary name head)) :
    system.finalForm? ty = some head.orNull := by
  simp [finalForm?, found]

/-- A type with a final form is a secondary interface, or it is of a kind that has instances. -/
theorem finalForm?_cases (final : system.finalForm? ty = some form) :
    (∃ name head, system.shape? ty = some (.secondary name head)) ∨
      ∃ kind, system.catalog.kind? ty = some kind ∧ kind.hasInstances = true := by
  cases found : system.shape? ty with
  | none => simp [finalForm?, found] at final
  | some shape =>
    have kind : system.catalog.kind? ty = some shape.kind := kind?_of_shape found
    cases shape with
    | any | abstraction | union => simp [finalForm?, found] at final
    | secondary name head => exact .inl ⟨name, head, rfl⟩
    | _ => exact .inr ⟨_, kind, rfl⟩

theorem regular?_withNullability (system : System) (ty : TypeId) (nullable : Bool) : system.regular? (ty.withNullability nullable) =
    (system.regular? ty).map fun form => form.withNullability nullable := by
  simp only [System.regular?, Catalog.regular?, Option.map_map]
  rfl

theorem regular?_nullable (regular : system.regular? ty = some form) : form.nullable = ty.nullable := by
  obtain ⟨pair, -, rfl⟩ := Option.map_eq_some_iff.mp regular
  rfl

/-- A regular form of a kind with instances is final at one of its two nullabilities. -/
theorem isFinal_of_regular {kind : Kind} (found : system.catalog.kind? form = some kind) (instances : kind.hasInstances = true)
    (regular : system.regular? form = some form) :
    system.isFinal (form.withNullability (!system.catalog.isValue form)) = true := by
  have kept : system.catalog.kind? (form.withNullability (!system.catalog.isValue form)) = some kind := found
  rw [isFinal, beq_iff_eq, finalForm?_of_kind kept instances, regular?_withNullability, regular]
  rfl

namespace Completes

variable (completes : system.Completes declared)

include completes

theorem regular?_kind (regular : system.regular? ty = some form) : system.catalog.kind? form = system.catalog.kind? ty := by
  obtain ⟨-, made⟩ := completes.regular?_eq_some_iff.mp regular
  cases made with
  | keep => rfl
  | intro found _ made => rw [kind?_of_shape made, kind?_of_shape found, Shape.regularize_kind]

/-- The final form of a secondary interface is final if instances can have the type that it was declared on. -/
theorem isFinal_head_iff (found : system.shape? ty = some (.secondary name head)) :
    system.isFinal head.orNull = true ↔ system.Instantiable head := by
  have plain : head.nullable = false := completes.forming.sound.plain ty _ found head (by simp [Shape.lineage])
  constructor
  · intro final
    rw [isFinal, beq_iff_eq] at final
    rcases finalForm?_cases final with ⟨name, other, present⟩ | ⟨kind, present, instances⟩
    · -- A secondary interface stands on an earlier type, never on itself.
      rw [finalForm?_of_secondary present] at final
      have same : other.orNull.pair = head.orNull.pair := congrArg TypeId.pair (Option.some.inj final)
      have older : other.pair < head.pair :=
        completes.forming.sound.ordered head.orNull _ present other (by simp [Shape.foundation])
      exact absurd same (Nat.ne_of_lt older)
    · rw [finalForm?_of_kind present instances] at final
      obtain ⟨form, regular, same⟩ := Option.map_eq_some_iff.mp final
      have reference : system.catalog.isValue form = false := by
        simpa using congrArg TypeId.nullable same
      have paired : (form.withNullability (!system.catalog.isValue form)).pair = head.orNull.pair := congrArg TypeId.pair same
      have fixed : form = head.orNull := TypeId.ext_iff_pair.mpr ⟨paired, regular?_nullable regular⟩
      cases fixed
      refine ⟨⟨kind, present, instances⟩, reference, ?_⟩
      have bare := regular?_withNullability system head.orNull false
      rw [regular] at bare
      have own : head.orNull.withNullability false = head := TypeId.nonNull_of_plain plain
      simpa [own] using bare
  · rintro ⟨⟨kind, present, instances⟩, reference, regular⟩
    have final := isFinal_of_regular present instances regular
    rwa [reference] at final

theorem instantiable_of_primary (found : system.catalog.kind? head = some .primary) : system.Instantiable head := by
  obtain ⟨shape, present, kind⟩ := shape_of_kind found
  cases shape with
  | primary name fields secondaries abstractions =>
    refine ⟨⟨.primary, found, rfl⟩, by simp [isValue, present, Shape.isValue], ?_⟩
    apply completes.regular?_eq_some_iff.mpr
    exact ⟨isReadOnly_of_shape present, @Regularized.intro _ _ _ _ id present rfl present (by simp [Shape.parts]) rfl⟩
  | _ => cases kind

theorem finalForm?_final_iff (final : system.finalForm? ty = some form) :
    (system.isFinal form = true ∧ form.nullable = !system.catalog.isValue form) ↔
      ∀ name head, system.shape? ty = some (.secondary name head) → system.Instantiable head := by
  rcases finalForm?_cases final with ⟨name, head, found⟩ | ⟨kind, found, instances⟩
  · cases (finalForm?_of_secondary found).symm.trans final
    constructor
    · rintro ⟨isFinal, -⟩ name' head' found'
      cases found.symm.trans found'
      exact (completes.isFinal_head_iff found).mp isFinal
    · intro instantiable
      have own := instantiable name head found
      have reference : system.catalog.isValue head.orNull = false := own.reference
      exact ⟨(completes.isFinal_head_iff found).mpr own, by rw [reference]; rfl⟩
  · rw [finalForm?_of_kind found instances] at final
    obtain ⟨regular, made, rfl⟩ := Option.map_eq_some_iff.mp final
    have kept : system.catalog.kind? regular = some kind := (completes.regular?_kind made).trans found
    constructor
    · rintro - name head secondary
      cases found.symm.trans (kind?_of_shape secondary)
      cases instances
    · intro _
      exact ⟨isFinal_of_regular kept instances (completes.regular?_stable made), rfl⟩

end Completes
end System

namespace Builder

variable {builder : Builder}

/-- An interface of an enumeration, whose name was taken before its family was declared, and one of a family. -/
def accounts : Builder :=
  Builder.new.replay [.enumeration "User" .int {}, .primary "User" {}, .secondary "UserExtra" (.ofPair 19) {},
    .primary "Account" {}, .secondary "AccountExtra" (.ofPair 21) {}]

theorem accounts_reached : accounts.Reached :=
  ReachedBy.new.replay (by decide +kernel)

/-- Final forms are final, and plain values or nullable references, with one exception: a secondary interface takes the
type that it was declared on, whatever it is. Primary interfaces are always fit for it. -/
theorem finalForm_isFinal_iff (reached : builder.Reached) :
    ∃ system, builder.lock = some (system, builder.diagnostics) ∧
      (∀ ty form, system.finalForm? ty = some form →
        ((system.isFinal form = true ∧ form.nullable = !system.catalog.isValue form) ↔
          ∀ name head, system.shape? ty = some (.secondary name head) → system.Instantiable head)) ∧
      ∀ head, system.catalog.kind? head = some .primary → system.Instantiable head := by
  obtain ⟨system, locked, completes⟩ := Reached.locked reached
  refine ⟨system, locked, ?_, ?_⟩
  · intro ty form final
    exact completes.finalForm?_final_iff final
  · intro head primary
    exact completes.instantiable_of_primary primary

theorem finalForm_isFinal_iff_accounts : accounts.Reached ∧ ∃ system, accounts.lock = some (system, accounts.diagnostics) ∧
    system.finalForm? (.ofPair 22) = some (TypeId.ofPair 21).orNull ∧ system.isFinal (TypeId.ofPair 21).orNull = true ∧
    system.finalForm? (.ofPair 20) = some (TypeId.ofPair 19).orNull ∧
    ¬ (system.isFinal (TypeId.ofPair 19).orNull = true ∧
      (TypeId.ofPair 19).orNull.nullable = !system.catalog.isValue (TypeId.ofPair 19).orNull) := by
  obtain ⟨system, locked, finals, primaries⟩ := finalForm_isFinal_iff accounts_reached
  have edits : Catalog.Edits (fun _ _ => True) accounts.catalog system.catalog :=
    (lock_edits (Reached.sound accounts_reached) locked).1
  have kept {ty head : TypeId} {name : Symbol} (found : accounts.catalog.shape? ty = some (.secondary name head)) :
      system.shape? ty = some (.secondary name head) := by
    obtain ⟨later, present, same⟩ := edits.outline found
    cases later <;> cases same
    exact present
  have secondary : system.shape? (.ofPair 22) = some (.secondary ⟨3⟩ (.ofPair 21)) := kept (by decide +kernel)
  have stray : system.shape? (.ofPair 20) = some (.secondary ⟨1⟩ (.ofPair 19)) := kept (by decide +kernel)
  have good := System.finalForm?_of_secondary secondary
  have bad := System.finalForm?_of_secondary stray
  refine ⟨accounts_reached, system, locked, good, ?_, bad, ?_⟩
  · apply ((finals _ _ good).mpr _).1
    intro name head found
    cases secondary.symm.trans found
    exact primaries _ (edits.kind (by decide +kernel))
  · intro final
    have instantiable := (finals _ _ bad).mp final ⟨1⟩ (.ofPair 19) stray
    have declared : accounts.catalog.shape? (.ofPair 19) = some (.enumeration ⟨0⟩ (.ofPair 6)) := by decide +kernel
    obtain ⟨later, present, same⟩ := edits.outline declared
    have value : later.isValue = true := Shape.isValue_of_outline same
    have reference := instantiable.reference
    rw [Catalog.isValue, present, Option.any_some, value] at reference
    cases reference

end Builder
end Interchange
