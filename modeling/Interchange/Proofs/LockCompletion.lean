import Interchange.Proofs.AllowedFamilies
import Interchange.Proofs.PolicyEquations

/-! The outcome of locking. It comes to its end although it enters types into the table that it walks through, since each of
them is a form of a declared one. Declarations are kept, but for what locking itself fills in: the families that abstractions
list, and the policies of fields. -/

namespace Interchange.Builder

open Catalog

variable {builder : Builder}

/-- Locking ends, with at most four times as many types. Abstractions list the families from which abstractions alone lead to
them, and the policies of types and fields solve their equations. -/
theorem lock_completes (reached : builder.Reached) :
    ∃ system, builder.lock = some (system, builder.diagnostics) ∧ system.size ≤ 4 * builder.size ∧
      (∀ pair, builder.size ≤ pair → pair < system.size →
        ∃ origin, origin < builder.size ∧ system.IsFormOf pair (.ofPair origin)) ∧
      (∀ ty, system.contains ty = true → system.HasForms ty) ∧ builder.catalog.Retains system.catalog ∧
      (∀ above name generalizations allowed, above.nullable = false →
        system.shape? above = some (.abstraction name generalizations allowed) →
        (∀ family, family ∈ allowed ↔ builder.catalog.Admits above family) ∧
          allowed.Pairwise fun first second => first.pair < second.pair) ∧
      ∀ ty shape, ty.nullable = false → system.shape? ty = some shape →
        Solved (system.MemberPolicy ty) shape (system.defaultPolicy ty) := by
  obtain ⟨system, locked, completes⟩ := Reached.locked reached
  refine ⟨system, locked, ?_, ?_, ?_, completes.retains, ?_, ?_⟩
  · exact completes.forming.derived.size_le completes.forming.sound
  · intro pair beyond inside
    exact completes.isFormOf beyond inside
  · intro ty inside
    exact completes.hasForms inside
  · intro above name generalizations allowed plain found
    have lists := lock_lists reached locked plain found
    exact ⟨fun family => lists.mem_iff, lists.ordered⟩
  · intro ty shape plain found
    exact Reached.solved reached locked plain found

/-- Ferries are below docking, and sailing has ferries above it instead of an abstraction. A berth holds anything. -/
def marina : Builder :=
  Builder.new.replay [.abstraction "Docking" [] {}, .primary "Ferry" {}, .implement (.ofPair 20) (.ofPair 19),
    .abstraction "Sailing" [.ofPair 20] {}, .primary "Yacht" {}, .implement (.ofPair 22) (.ofPair 21),
    .record "Berth" false {}, .defineFields (.ofPair 23) [⟨"Holds", .any, .notNull, .notNull, {}, none, none⟩]]

theorem marina_reached : marina.Reached :=
  ReachedBy.new.replay (by decide +kernel)

/-- Docking lists ferries, but not yachts, which are below it by way of a family only. -/
theorem marina_admits :
    marina.catalog.Admits (.ofPair 19) (.ofPair 20) ∧ ¬ marina.catalog.Admits (.ofPair 19) (.ofPair 22) := by
  have ferry : marina.catalog.shape? (.ofPair 20) = some (.primary ⟨1⟩ [] [] [.ofPair 19]) := by decide +kernel
  have sailing : marina.catalog.shape? (.ofPair 21) = some (.abstraction ⟨2⟩ [.ofPair 20] []) := by decide +kernel
  have yacht : marina.catalog.shape? (.ofPair 22) = some (.primary ⟨3⟩ [] [] [.ofPair 21]) := by decide +kernel
  refine ⟨⟨rfl, _, _, _, _, ferry, _, List.mem_singleton_self _, .refl⟩, ?_⟩
  rintro ⟨-, _, _, _, _, found, first, member, path⟩
  cases yacht.symm.trans found
  cases List.mem_singleton.mp member
  rcases path.cases_head with same | ⟨next, ⟨_, _, _, found, member⟩, path⟩
  · exact absurd same (by decide)
  · cases sailing.symm.trans found
    cases List.mem_singleton.mp member
    rcases path.cases_head with same | ⟨next, ⟨_, _, _, found, -⟩, -⟩
    · exact absurd same (by decide)
    · cases ferry.symm.trans found

/-- The lists of the forest are new types. In the marina an abstraction and a field are filled in. -/
theorem lock_completes_samples :
    (forest.Reached ∧ ∃ system, forest.lock = some (system, forest.diagnostics) ∧
      forest.size < system.size ∧ system.size ≤ 4 * forest.size ∧
      (∃ origin, origin < forest.size ∧ system.IsFormOf forest.size (.ofPair origin)) ∧
      system.HasForms (.ofPair 20) ∧ forest.catalog.Retains system.catalog) ∧
    marina.Reached ∧ ∃ system, marina.lock = some (system, marina.diagnostics) ∧ marina.catalog.Retains system.catalog ∧
      (∃ name generalizations allowed, system.shape? (.ofPair 19) = some (.abstraction name generalizations allowed) ∧
        .ofPair 20 ∈ allowed ∧ .ofPair 22 ∉ allowed) ∧
      ∃ shape field, system.shape? (.ofPair 23) = some shape ∧ field ∈ shape.fields ∧ field.policy = .disallowed := by
  constructor
  · obtain ⟨system, locked, bound, appended, formed, retains, -⟩ := lock_completes forest_reached
    have grown : forest.size < system.size := by
      rw [(forest_forms locked).1]
      decide +kernel
    have known : system.contains (.ofPair 20) = true := by
      apply contains_iff.mpr
      rw [show system.catalog.size = 28 from (forest_forms locked).1]
      decide
    exact ⟨forest_reached, system, locked, grown, bound, appended forest.size (Nat.le_refl _) grown, formed _ known, retains⟩
  · obtain ⟨system, locked, -, -, -, retains, lists, policies⟩ := lock_completes marina_reached
    have sound := Reached.locked_sound marina_reached locked
    have edits : Edits (fun _ _ => False) marina.catalog system.catalog := (lock_edits (Reached.sound marina_reached) locked).1
    refine ⟨marina_reached, system, locked, retains, ?_, ?_⟩
    · have kind : system.catalog.kind? (.ofPair 19) = some .abstraction := edits.kind (by decide +kernel)
      obtain ⟨shape, found, abstraction⟩ := shape_of_kind kind
      cases shape <;> cases abstraction
      next name generalizations allowed =>
        obtain ⟨members, -⟩ := lists _ _ _ _ rfl found
        exact ⟨name, generalizations, allowed, found, (members _).mpr marina_admits.1, mt (members _).mp marina_admits.2⟩
    · have declared : marina.catalog.shape? (.ofPair 23) = some (.record ⟨4⟩ false [⟨⟨5⟩, .any, .allowed, false, none⟩]) := by
        decide +kernel
      obtain ⟨shape, field, found, member, same⟩ := retains.field declared (List.mem_singleton_self _)
      have universal : system.defaultPolicy .any = .disallowed :=
        (policies .any .any rfl sound.any).memberless_policy rfl
      have ty : field.ty = .any := (congrArg Field.ty same :)
      have bare : field.explicitDefault = false := (congrArg Field.explicitDefault same :)
      have solved := (policies _ _ rfl found).fields field member
      rw [FieldSolved, if_neg (by simp [bare]), ty, System.MemberPolicy, universal] at solved
      rcases solved with disallowed | ⟨-, allowed, -⟩
      · exact ⟨shape, field, found, member, disallowed⟩
      · cases allowed

end Interchange.Builder
