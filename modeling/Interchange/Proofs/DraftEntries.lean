import Interchange.Proofs.BuilderHistory
import Interchange.Proofs.TableAdditions

/-! Registration declares types and computes nothing about them: before a table is locked,
no entry has forms or a policy, and no abstraction lists families. Fields come of the definition of members only. -/

namespace Interchange

def Shape.allowed : Shape → List TypeId
  | abstraction _ _ allowed => allowed
  | _ => []

theorem Shape.allowed_anonymous {shape : Shape} (anonymous : shape.name? = none) : shape.allowed = [] := by
  cases shape <;> first | rfl | cases anonymous

theorem Shape.fields_anonymous {shape : Shape} (anonymous : shape.name? = none) : shape.fields = [] := by
  cases shape <;> first | rfl | cases anonymous

theorem Shape.withFields_allowed (shape : Shape) (fields : List Field) : (shape.withFields fields).allowed = shape.allowed := by
  cases shape <;> rfl

/-- Nothing has been computed for the entry. -/
structure Entry.Draft (entry : Entry) : Prop where
  forms : entry.forms = {}
  policy : entry.policy = none
  allowed : entry.shape.allowed = []

structure Entry.Follows (before after : Entry) : Prop where
  forms : after.forms = before.forms
  policy : after.policy = before.policy
  allowed : after.shape.allowed = before.shape.allowed
  fields : after.shape.fields = before.shape.fields

namespace Catalog

def Draft (catalog : Catalog) : Prop :=
  ∀ entry ∈ catalog.entries, entry.Draft

/-- Nothing is computed, and no fields are defined: neither for a new entry nor for an old one. -/
structure Drafts (before after : Catalog) : Prop where
  old : ∀ {ty entry}, before.entry? ty = some entry → ∃ later, after.entry? ty = some later ∧ entry.Follows later
  new : ∀ {ty entry}, before.entry? ty = none → after.entry? ty = some entry → entry.Draft ∧ entry.shape.fields = []

variable {catalog before middle after final : Catalog} {left right ty : TypeId}

namespace Drafts

theorem cases {entry : Entry} (drafts : Drafts before after) (present : after.entry? ty = some entry) :
    (entry.Draft ∧ entry.shape.fields = []) ∨ ∃ old, before.entry? ty = some old ∧ old.Follows entry := by
  cases earlier : before.entry? ty with
  | none => exact .inl (drafts.new earlier present)
  | some old =>
    obtain ⟨later, kept, follows⟩ := drafts.old earlier
    cases present.symm.trans kept
    exact .inr ⟨old, rfl, follows⟩

theorem of_entries (same : after.entries = before.entries) : Drafts before after := by
  have entries (ty : TypeId) : after.entry? ty = before.entry? ty := by rw [Catalog.entry?, same, Catalog.entry?]
  refine ⟨fun {ty entry} present => ⟨entry, (entries ty).trans present, rfl, rfl, rfl, rfl⟩, ?_⟩
  intro ty entry absent present
  cases absent.symm.trans ((entries ty).symm.trans present)

theorem trans (first : Drafts before middle) (second : Drafts middle after) : Drafts before after := by
  constructor
  · intro ty entry present
    obtain ⟨between, kept, earlier⟩ := first.old present
    obtain ⟨last, found, follows⟩ := second.old kept
    exact ⟨last, found, follows.forms.trans earlier.forms, follows.policy.trans earlier.policy,
      follows.allowed.trans earlier.allowed, follows.fields.trans earlier.fields⟩
  · intro ty entry absent present
    rcases second.cases present with blank | ⟨between, kept, follows⟩
    · exact blank
    · obtain ⟨draft, bare⟩ := first.new absent kept
      exact ⟨⟨follows.forms.trans draft.forms, follows.policy.trans draft.policy, follows.allowed.trans draft.allowed⟩,
        follows.fields.trans bare⟩

theorem push {entry : Entry} (draft : entry.Draft) (bare : entry.shape.fields = []) : Drafts catalog (catalog.push entry).2 := by
  constructor
  · intro ty other present
    have inside : ty.pair < catalog.size := (Array.getElem?_eq_some_iff.mp present).1
    refine ⟨other, ?_, rfl, rfl, rfl, rfl⟩
    rw [push_lookup, if_neg (Nat.ne_of_lt inside), present]
  · intro ty other absent present
    rw [push_lookup, absent] at present
    split at present
    · cases present
      exact ⟨draft, bare⟩
    · cases present

theorem modifyShape (target : TypeId) {change : Shape → Shape} {keeps : ∀ shape, (change shape).identity = shape.identity}
    (allowed : ∀ shape, (change shape).allowed = shape.allowed) (fields : ∀ shape, (change shape).fields = shape.fields) :
    Drafts catalog (catalog.modifyShape target change keeps) := by
  constructor
  · intro ty entry present
    rw [Catalog.modifyShape, modifyEntry_lookup, present]
    split
    · exact ⟨_, rfl, rfl, rfl, allowed entry.shape, fields entry.shape⟩
    · exact ⟨entry, rfl, rfl, rfl, rfl, rfl⟩
  · intro ty entry absent present
    rw [Catalog.modifyShape, modifyEntry_lookup, absent] at present
    split at present <;> cases present

theorem of_additions (additions : Additions before after) : Drafts before after := by
  induction additions with
  | refl => exact .of_entries rfl
  | tail _ addition ih =>
    cases addition with
    | text => exact ih.trans (.of_entries rfl)
    | shape anonymous => exact ih.trans (.push ⟨rfl, rfl, Shape.allowed_anonymous anonymous⟩ (Shape.fields_anonymous anonymous))

theorem intern {shape : Shape} (anonymous : shape.name? = none) : Drafts catalog (catalog.intern shape).2 :=
  .of_additions (intern_additions anonymous)

theorem draft (drafts : Drafts before after) (draft : before.Draft) : after.Draft := by
  intro entry member
  obtain ⟨pair, found⟩ := Array.mem_iff_getElem?.mp member
  rcases @cases _ _ (.ofPair pair) _ drafts found with ⟨blank, -⟩ | ⟨old, present, follows⟩
  · exact blank
  · have earlier := draft old (Array.mem_of_getElem? present)
    exact ⟨follows.forms.trans earlier.forms, follows.policy.trans earlier.policy, follows.allowed.trans earlier.allowed⟩

end Drafts

theorem standard_drafts : Drafts (.ofEntries .empty #[]) standard := by
  refine ⟨nofun, ?_⟩
  intro ty entry _ present
  obtain ⟨shape, listed, rfl⟩ := List.mem_map.mp (List.mem_toArray.mp (Array.mem_of_getElem? present))
  rcases List.mem_cons.mp listed with rfl | listed
  · exact ⟨⟨rfl, rfl, rfl⟩, rfl⟩
  · obtain ⟨basic, -, rfl⟩ := List.mem_map.mp listed
    exact ⟨⟨rfl, rfl, rfl⟩, rfl⟩

theorem Draft.modifyShape (draft : catalog.Draft) (target : TypeId) {change : Shape → Shape} {keeps : ∀ shape, (change shape).identity = shape.identity}
    (allowed : ∀ shape, (change shape).allowed = shape.allowed) : (catalog.modifyShape target change keeps).Draft := by
  intro entry member
  obtain ⟨pair, found⟩ := Array.mem_iff_getElem?.mp member
  change Catalog.entry? (catalog.modifyShape target change keeps) (.ofPair pair) = some entry at found
  rw [Catalog.modifyShape, modifyEntry_lookup] at found
  split at found
  · obtain ⟨old, present, rfl⟩ := Option.map_eq_some_iff.mp found
    have kept := draft old (Array.mem_of_getElem? present)
    exact ⟨kept.forms, kept.policy, (allowed old.shape).trans kept.allowed⟩
  · exact draft entry (Array.mem_of_getElem? found)

end Catalog

namespace Builder

open Catalog

variable {builder final : Builder}

theorem declare_drafts (builder : Builder) (name : String) (attributes : Attributes) {shape : Symbol → Shape}
    (allowed : ∀ symbol, (shape symbol).allowed = []) (bare : ∀ symbol, (shape symbol).fields = []) :
    Drafts builder.catalog (builder.declare name attributes shape).2.catalog := by
  simp only [declare]
  split
  · exact .of_entries rfl
  · refine (Drafts.of_entries ?_).trans (Drafts.push ?_ ?_)
    · rfl
    · exact ⟨rfl, rfl, allowed _⟩
    · exact bare _

theorem implement_drafts {family above : TypeId} (implemented : builder.implement family above = some final) :
    Drafts builder.catalog final.catalog := by
  simp only [implement, Option.bind_eq_bind, Option.bind_eq_some_iff] at implemented
  obtain ⟨higher, -, implemented⟩ := implemented
  split at implemented
  · obtain ⟨lower, -, implemented⟩ := Option.bind_eq_some_iff.mp implemented
    split at implemented
    · cases implemented
      refine @Drafts.modifyShape builder.catalog family (fun shape => shape.addAbstraction above.nonNull) (by simp) ?_ ?_
      · exact fun shape => by cases shape <;> rfl
      · exact fun shape => by cases shape <;> rfl
    · exact .of_entries (congrArg Catalog.entries (reportKind_catalog implemented))
  · exact .of_entries (congrArg Catalog.entries (reportKind_catalog implemented))

theorem collectSlots_drafts {owner : String} {members : List (Option TypeId × Member)} {slots result : List Slot}
    (collected : builder.collectSlots owner slots members = some (result, final)) : Drafts builder.catalog final.catalog :=
  .of_additions (collectSlots_additions collected)

theorem resolveSlots_drafts {owner : String} {slots : List Slot} {fields : List Field}
    (resolved : builder.resolveSlots owner slots = some (fields, final)) : Drafts builder.catalog final.catalog :=
  .of_additions (resolveSlots_additions resolved)

/-- How the definition of members ends: a report, or new fields for the owner. -/
theorem defineMembers_cases {owner : TypeId} {members : List (Option TypeId × Member)}
    (defined : builder.defineMembers owner members = some final) :
    ((builder.catalog.kind? owner).any Kind.isComposite = false ∧ final.catalog = builder.catalog) ∨
      ∃ name slots collected fields resolved, (builder.catalog.kind? owner).any Kind.isComposite = true ∧
      builder.catalog.display? owner.nonNull = some name ∧ builder.collectSlots name [] members = some (slots, collected) ∧
      collected.resolveSlots name slots = some (fields, resolved) ∧
      final.catalog = resolved.catalog.modifyShape owner fun shape => shape.withFields fields := by
  simp only [defineMembers, Option.bind_eq_bind, Option.bind_eq_some_iff] at defined
  obtain ⟨shape, found, defined⟩ := defined
  rw [kind?_of_shape found, Option.any_some]
  split at defined
  next composite =>
    obtain ⟨name, named, defined⟩ := Option.bind_eq_some_iff.mp defined
    obtain ⟨⟨slots, collected⟩, collecting, defined⟩ := Option.bind_eq_some_iff.mp defined
    obtain ⟨⟨fields, resolved⟩, resolving, defined⟩ := Option.bind_eq_some_iff.mp defined
    cases defined
    exact .inr ⟨name, slots, collected, fields, resolved, composite, named, collecting, resolving, rfl⟩
  next other => exact .inl ⟨by simpa using other, reportKind_catalog defined⟩

theorem defineMembers_draft {owner : TypeId} {members : List (Option TypeId × Member)} (draft : builder.catalog.Draft)
    (defined : builder.defineMembers owner members = some final) : final.catalog.Draft := by
  rcases defineMembers_cases defined with ⟨-, same⟩ | ⟨_, _, _, fields, _, -, -, collecting, resolving, same⟩
  · rwa [same]
  · have before := ((collectSlots_drafts collecting).trans (resolveSlots_drafts resolving)).draft draft
    rw [same]
    exact before.modifyShape owner fun shape => shape.withFields_allowed fields

end Builder

namespace Call

open Catalog

variable {builder final : Builder}

/-- A call defines members, or no fields at all. -/
theorem cases_of_run (call : Call) (ran : call.run builder = some final) :
    (call.defines? = none ∧ Drafts builder.catalog final.catalog) ∨
      ∃ owner members, call.defines? = some (owner, members) ∧ builder.defineMembers owner members = some final := by
  cases call with
  | enumeration name underlying attributes =>
    cases ran
    refine .inl ⟨rfl, ?_⟩
    unfold Builder.declareEnum
    split
    · exact Builder.declare_drafts builder _ _ (fun _ => rfl) fun _ => rfl
    · exact Builder.declare_drafts (builder.report _) _ _ (fun _ => rfl) fun _ => rfl
  | record | primary | abstraction =>
    cases ran
    exact .inl ⟨rfl, Builder.declare_drafts builder _ _ (fun _ => rfl) fun _ => rfl⟩
  | secondary name head attributes =>
    obtain ⟨result, declared, rfl⟩ := Option.map_eq_some_iff.mp ran
    simp only [Builder.declareSecondary] at declared
    split at declared
    · cases declared
      have entered := @Builder.declare_drafts builder name attributes (fun symbol => .secondary symbol head.nonNull)
        (fun _ => rfl) fun _ => rfl
      refine .inl ⟨rfl, entered.trans (@Drafts.modifyShape _ head (fun shape => shape.addSecondary _) (by simp) ?_ ?_)⟩
      · exact fun shape => by cases shape <;> rfl
      · exact fun shape => by cases shape <;> rfl
    · cases declared
  | implement family above => exact .inl ⟨rfl, Builder.implement_drafts ran⟩
  | array | list | set | dictionary | tuple | union =>
    cases ran
    exact .inl ⟨rfl, .intern rfl⟩
  | namedTuple items =>
    cases ran
    exact .inl ⟨rfl, .of_additions (Builder.namedTuple_additions builder items)⟩
  | resolvePair left right =>
    simp only [run, Builder.resolvePair] at ran
    cases outcome : builder.catalog.resolvePair left right with
    | error conflict =>
      simp only [outcome, bind, Except.bind] at ran
      cases ran
      exact .inl ⟨rfl, .of_entries rfl⟩
    | ok result =>
      simp only [outcome, bind, Except.bind, pure, Except.pure] at ran
      cases ran
      exact .inl ⟨rfl, .of_additions (resolveWithin_additions outcome)⟩
  | resolveSlot types =>
    cases ran
    exact .inl ⟨rfl, .of_additions (resolveSlot_additions _ types)⟩
  | defineFields | defineFamily => exact .inr ⟨_, _, rfl, ran⟩

end Call

theorem Builder.ReachedBy.draft {builder : Builder} {allowed : Builder → Call → Prop} (reached : ReachedBy allowed builder) :
    builder.catalog.Draft := by
  induction reached with
  | new => exact Catalog.standard_drafts.draft fun _ member => nomatch member
  | call _ call _ ran ih =>
    rcases call.cases_of_run ran with ⟨-, drafts⟩ | ⟨owner, members, -, defined⟩
    · exact drafts.draft ih
    · exact Builder.defineMembers_draft ih defined

theorem Builder.Reached.draft {builder : Builder} (reached : builder.Reached) : builder.catalog.Draft :=
  ReachedBy.draft reached

end Interchange
