import Interchange.Proofs.FieldDeclarations
import Interchange.Proofs.PolicySearch

/-! The policies of a locked table solve the equations that define them. Only a member that leads back to its owner by
way of a primary interface can be taken for less than it allows. -/

namespace Interchange

namespace Shape

/-- Types without a name have no fields. -/
theorem named_of_field {shape : Shape} {field : Field} (member : field ∈ shape.fields) : ∃ name, shape.name? = some name := by
  cases shape with
  | record name | primary name => exact ⟨name, rfl⟩
  | _ => cases member

end Shape

namespace Catalog

variable {base current final : Catalog} {ty : TypeId}

theorem Draft.policy? (draft : base.Draft) (ty : TypeId) : base.policy? ty = none := by
  rw [Catalog.policy?, Option.bind_eq_none_iff]
  intro entry present
  exact (draft entry (Array.mem_of_getElem? present)).policy

theorem modifyShape_policy? (target : TypeId) (change : Shape → Shape)
    {keeps : ∀ shape, (change shape).identity = shape.identity} (ty : TypeId) :
    (current.modifyShape target change keeps).policy? ty = current.policy? ty := by
  rw [policy?, modifyShape, modifyEntry_bind]
  · rfl
  · exact fun _ => rfl

theorem allow_policy? (family : TypeId) (abstractions : List Nat) (ty : TypeId) :
    (current.allow family abstractions).policy? ty = current.policy? ty := by
  unfold allow
  induction abstractions generalizing current with
  | nil => rfl
  | cons pair rest ih => rw [List.foldl_cons, ih, modifyShape_policy?]

theorem withAllowed_policy? (filled : base.withAllowed? = some final) (ty : TypeId) : final.policy? ty = base.policy? ty := by
  refine foldlM_holds (fun _ current => current.policy? ty = base.policy? ty) rfl ?_ filled
  intro done current family next member same stepped
  split at stepped
  · obtain ⟨pairs, -, rfl⟩ := Option.map_eq_some_iff.mp stepped
    exact (allow_policy? family pairs ty).trans same
  · cases stepped
    exact same

/-- Locking neither makes fields nor changes their declarations. -/
theorem Accounts.locked {declared : Nat → List Member} (accounts : base.Accounts declared)
    (edits : Edits (fun _ _ => False) base final) (retains : base.Retains final) : final.Accounts declared := by
  intro ty shape field found member
  obtain ⟨name, named⟩ := Shape.named_of_field member
  obtain ⟨old, present⟩ := entry_of_contains (edits.named_known found named)
  obtain ⟨later, kept, same⟩ := retains.entries ty old present
  obtain ⟨entry, again, rfl⟩ := shape?_eq_some_iff.mp found
  cases kept.symm.trans again
  obtain ⟨origin, known, equal⟩ := List.mem_map.mp (same.fields ▸ List.mem_map_of_mem member)
  obtain ⟨text, spelled, explicit⟩ := accounts ty old.shape origin (shape?_eq_some_iff.mpr ⟨old, present, rfl⟩) known
  have sameName : origin.name = field.name := (congrArg Field.name equal :)
  have sameDefault : origin.explicitDefault = field.explicitDefault := (congrArg Field.explicitDefault equal :)
  exact ⟨text, by rw [retains.strings, ← sameName, spelled], sameDefault ▸ explicit⟩

/-- Nothing is listed where no family implements anything. -/
theorem withAllowed?_of_parentless
    (parentless : ∀ ty ∈ base.types, ((base.shape? ty).all fun shape => shape.parents.isEmpty) = true) :
    base.withAllowed? = some base := by
  suffices kept : ∃ final, base.withAllowed? = some final ∧ final = base by
    obtain ⟨_, filled, rfl⟩ := kept
    exact filled
  refine foldlM_total (fun _ current => current = base) rfl ?_
  rintro _ _ family member rfl
  refine ⟨_, ?_, rfl⟩
  split
  next abstractions found =>
    have none : abstractions = [] := by simpa [found, Shape.parents] using parentless family member
    simp [none, abstractionsOf?, climb, allow]
  next => rfl

def ClosesCycle (catalog : Catalog) (owner part : TypeId) : Prop :=
  catalog.Requires owner part ∧ catalog.PassesFamily part owner

theorem ClosesCycle.hasMembers {owner part : TypeId} (closes : base.ClosesCycle owner part) :
    ∃ shape, base.shape? part = some shape ∧ shape.kind.hasMembers = true := by
  obtain ⟨requires, family, -, down, further⟩ := closes
  have around : Relation.TransGen base.Requires part part := .tail' (down.trans further) requires
  obtain ⟨next, ⟨-, shape, found, member⟩, -⟩ := Relation.TransGen.head'_iff.mp around
  refine ⟨shape, found, ?_⟩
  by_contra memberless
  rw [Shape.required_memberless (by simpa using memberless)] at member
  cases member

end Catalog

namespace System

open Catalog

variable {system : System} {base : Catalog} {ty part : TypeId} {shape : Shape} {value : DefaultPolicy}

/-- The policy of a member is that of its type, unless a cycle has been closed. -/
def MemberPolicy (system : System) (owner part : TypeId) (value : DefaultPolicy) : Prop :=
  value = system.defaultPolicy part ∨
    value = .requiresInit ∧ system.defaultPolicy part = .allowed ∧ system.catalog.ClosesCycle owner part

theorem defaultPolicy_of_policy? (plain : ty.nullable = false) (recorded : system.catalog.policy? ty = some value) :
    system.defaultPolicy ty = value := by
  rw [defaultPolicy, if_neg (by simp [plain])]
  exact congrArg (Option.getD · .allowed) recorded

section Solved

variable (pending : Pending base [] system.catalog)
  (complete : ∀ ty, system.contains ty = true → system.catalog.policy? ty ≠ none)

include pending complete

/-- Every registered type is settled, from the answers for its members. -/
theorem solved_of_pending (plain : ty.nullable = false) (found : system.shape? ty = some shape) :
    Solved (Answers base [] system.catalog ty) shape (system.defaultPolicy ty) := by
  obtain ⟨entry, present, rfl⟩ := shape?_eq_some_iff.mp found
  obtain ⟨value, recorded⟩ := Option.ne_none_iff_exists'.mp (complete ty (contains_of_entry present))
  rw [defaultPolicy_of_policy? plain recorded]
  exact pending.solved ty entry value plain present (by simpa [policy?, present] using recorded)

theorem memberPolicy_of_answers (found : system.shape? ty = some shape) (member : part ∈ shape.required)
    (answer : Answers base [] system.catalog ty part value) : system.MemberPolicy ty part value := by
  cases answer with
  | known known =>
    cases known with
    | absent nullable => exact .inl (if_pos nullable).symm
    | settled plain recorded => exact .inl (defaultPolicy_of_policy? plain recorded).symm
    | visited _ met => cases met
  | cyclic plain passes =>
    have closes : system.catalog.ClosesCycle ty part := ⟨⟨plain, shape, found, member⟩, pending.amends.passesFamily passes⟩
    obtain ⟨inner, present, members⟩ := closes.hasMembers
    rcases (solved_of_pending pending complete plain present).cases_of_members members with allowed | same
    · exact .inr ⟨rfl, allowed, closes⟩
    · exact .inl same.symm

/-- The equations hold of members as they are in the locked table. -/
theorem memberPolicies_of_pending (plain : ty.nullable = false) (found : system.shape? ty = some shape) :
    Solved (system.MemberPolicy ty) shape (system.defaultPolicy ty) :=
  (solved_of_pending pending complete plain found).imp fun _ member _ answer =>
    memberPolicy_of_answers pending complete found member answer

end Solved

end System

namespace Builder

open Catalog

variable {builder : Builder} {declared : Nat → List Member} {system : System} {diagnostics : Diagnostics} {ty : TypeId}
  {shape : Shape}

/-- Locking starts the search for policies with none, and ends it with all of them. -/
theorem Reached.pending (reached : builder.Reached) (locked : builder.lock = some (system, diagnostics)) :
    ∃ base, Pending base [] system.catalog ∧ ∀ ty, system.contains ty = true → system.catalog.policy? ty ≠ none := by
  obtain ⟨filled, formed, final, passes⟩ := Reached.passes reached
  cases (lock_of_passes passes).symm.trans locked
  have blank (ty : TypeId) : formed.policy? ty = none := by
    rw [passes.settles.policies, withAllowed_policy? passes.allowed]
    exact (Reached.draft reached).policy? ty
  obtain ⟨pending, complete⟩ := withPolicies_pending blank passes.policies
  refine ⟨formed, pending, ?_⟩
  intro other inside
  exact complete other (contains_iff.mpr (passes.amends.size ▸ contains_iff.mp inside))

theorem Reached.solved (reached : builder.Reached) (locked : builder.lock = some (system, diagnostics))
    (plain : ty.nullable = false) (found : system.shape? ty = some shape) :
    Solved (system.MemberPolicy ty) shape (system.defaultPolicy ty) := by
  obtain ⟨base, pending, complete⟩ := Reached.pending reached locked
  exact System.memberPolicies_of_pending pending complete plain found

/-- After locking, a field allows a default if one of its declarations carries one; otherwise its policy is that of its
type. A record or a tuple allows a default if all of its members do. A member that leads back to its owner by way of a
primary interface may count as one that has to be initialised, although its type allows a default. -/
theorem policies_solve_unless_cyclic (declares : builder.Declares declared) :
    ∃ system, builder.lock = some (system, builder.diagnostics) ∧
      ∀ ty shape, ty.nullable = false → system.shape? ty = some shape →
        (∀ field ∈ shape.fields, ∃ name, system.catalog.strings.get? field.name = some name ∧
          (Member.Defaults (declared ty.pair) name → field.policy = .allowed) ∧
          (¬ Member.Defaults (declared ty.pair) name → system.MemberPolicy ty field.ty field.policy)) ∧
        (shape.kind = .record → system.defaultPolicy ty =
          if ∀ field ∈ shape.fields, field.policy = .allowed then .allowed else .requiresInit) ∧
        (shape.kind = .primary → system.defaultPolicy ty = .allowed) ∧
        ∀ elements, shape = .tuple elements →
          (system.defaultPolicy ty = .allowed ∧ ∀ element ∈ elements, system.defaultPolicy element.ty = .allowed) ∨
          system.defaultPolicy ty = .requiresInit ∧ ∃ element ∈ elements,
            system.defaultPolicy element.ty ≠ .allowed ∨ system.catalog.ClosesCycle ty element.ty := by
  obtain ⟨system, locked, completes⟩ := Reached.locked declares.reached
  have accounts := declares.accounts.locked (lock_edits (Reached.sound declares.reached) locked).1 completes.retains
  refine ⟨system, locked, ?_⟩
  intro ty shape plain found
  have own := Reached.solved declares.reached locked plain found
  refine ⟨?_, own.record_policy, own.primary_policy, ?_⟩
  · intro field member
    obtain ⟨name, spelled, explicit⟩ := accounts ty shape field found member
    have answered := own.fields field member
    refine ⟨name, spelled, ?_, ?_⟩
    · intro carried
      rwa [FieldSolved, if_pos (explicit.mpr carried)] at answered
    · intro bare
      rwa [FieldSolved, if_neg (mt explicit.mp bare)] at answered
  · rintro elements rfl
    rcases own.tuple_cases with ⟨policy, all⟩ | ⟨policy, element, member, value, strict, answer⟩
    · refine .inl ⟨policy, ?_⟩
      intro element member
      rcases all element member with same | ⟨strict, -, -⟩
      · exact same.symm
      · cases strict
    · refine .inr ⟨policy, element, member, ?_⟩
      rcases answer with same | ⟨-, -, closes⟩
      · exact .inl (same ▸ strict)
      · exact .inr closes

/-- A record and a family that hold one of each other. -/
def ledger : Builder :=
  Builder.new.replay [.record "Entry" false {}, .primary "Ledger" {},
    .defineFields (.ofPair 19) [⟨"Owner", .ofPair 20, .notNull, .notNull, {}, none, none⟩],
    .defineFamily (.ofPair 20) [(.ofPair 20, ⟨"Latest", .ofPair 19, .notNull, .notNull, {}, none, none⟩)]]

theorem ledger_reached : ledger.Reached :=
  ReachedBy.new.replay (by decide +kernel)

theorem ledger_policies (locked : ledger.lock = some (system, ledger.diagnostics)) :
    system.defaultPolicy (.ofPair 19) = .allowed ∧ ∃ shape field, system.shape? (.ofPair 20) = some shape ∧
      field ∈ shape.fields ∧ field.ty = .ofPair 19 ∧ field.explicitDefault = false ∧ field.policy = .requiresInit := by
  have filled : ledger.catalog.withAllowed? = some ledger.catalog := withAllowed?_of_parentless (by decide +kernel)
  have answered : (ledger.catalog.withForms?.bind withPolicies?).map (fun catalog =>
      (catalog.policy? (.ofPair 19), (catalog.shape? (.ofPair 20)).map fun shape =>
        shape.fields.map fun field => (field.ty, field.explicitDefault, field.policy))) =
      some (some .allowed, some [(.ofPair 19, false, .requiresInit)]) := by decide +kernel
  simp only [lock, filled, Option.bind_eq_bind, Option.bind_some] at locked
  obtain ⟨formed, forms, locked⟩ := Option.bind_eq_some_iff.mp locked
  obtain ⟨final, policies, locked⟩ := Option.bind_eq_some_iff.mp locked
  cases locked
  rw [forms, Option.bind_some, policies, Option.map_some, Option.some.injEq, Prod.mk.injEq] at answered
  obtain ⟨shape, found, fields⟩ := Option.map_eq_some_iff.mp answered.2
  have listed : (TypeId.ofPair 19, false, DefaultPolicy.requiresInit) ∈
      shape.fields.map fun field => (field.ty, field.explicitDefault, field.policy) := by simp [fields]
  obtain ⟨field, member, same⟩ := List.mem_map.mp listed
  simp only [Prod.mk.injEq] at same
  exact ⟨System.defaultPolicy_of_policy? rfl answered.1, shape, field, found, member, same⟩

theorem policies_solve_unless_cyclic_ledger : ∃ declared, ledger.Declares declared ∧ ∃ system,
    ledger.lock = some (system, ledger.diagnostics) ∧ ∃ shape field, system.shape? (.ofPair 20) = some shape ∧
      field ∈ shape.fields ∧ field.policy = .requiresInit ∧ system.MemberPolicy (.ofPair 20) field.ty field.policy ∧
      system.catalog.ClosesCycle (.ofPair 20) field.ty := by
  obtain ⟨declared, declares⟩ := Reached.declares ledger_reached
  obtain ⟨system, locked, laws⟩ := policies_solve_unless_cyclic declares
  obtain ⟨allowed, shape, field, found, member, type, -, policy⟩ := ledger_policies locked
  obtain ⟨name, -, carried, bare⟩ := (laws (.ofPair 20) shape rfl found).1 field member
  have solved : system.MemberPolicy (.ofPair 20) field.ty field.policy := by
    apply bare
    intro defaults
    rw [carried defaults] at policy
    cases policy
  refine ⟨declared, declares, system, locked, shape, field, found, member, policy, solved, ?_⟩
  rcases solved with same | ⟨-, -, closes⟩
  · rw [policy, type, allowed] at same
    cases same
  · exact closes

/-- The family is settled while the record is still being visited, and takes it for one that has to be initialised.
In the end the record allows a default. -/
theorem policy_differs_on_cycle : ∃ declared, ledger.Declares declared ∧ ∃ system,
    ledger.lock = some (system, ledger.diagnostics) ∧ ∃ shape field name, system.shape? (.ofPair 20) = some shape ∧
      field ∈ shape.fields ∧ system.catalog.strings.get? field.name = some name ∧ ¬ Member.Defaults (declared 20) name ∧
      field.policy ≠ system.defaultPolicy field.ty := by
  obtain ⟨declared, declares⟩ := Reached.declares ledger_reached
  obtain ⟨system, locked, completes⟩ := Reached.locked ledger_reached
  obtain ⟨allowed, shape, field, found, member, type, implicit, policy⟩ := ledger_policies locked
  have accounts := declares.accounts.locked (lock_edits (Reached.sound ledger_reached) locked).1 completes.retains
  obtain ⟨name, spelled, explicit⟩ := accounts (.ofPair 20) shape field found member
  refine ⟨declared, declares, system, locked, shape, field, name, found, member, spelled, ?_, ?_⟩
  · rw [TypeId.ofPair_pair] at explicit
    exact fun defaults => Bool.noConfusion (implicit.symm.trans (explicit.mpr defaults))
  · rw [policy, type, allowed]
    decide

end Builder
end Interchange
