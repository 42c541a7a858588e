import Interchange.Proofs.MemberEdits

/-! Histories of registration. A builder is reached from the empty one by calls that
hand over registered ids only; its table keeps what tables promise. -/

namespace Interchange

inductive Call where
  | enumeration (name : String) (underlying : BasicType) (attributes : Attributes)
  | record (name : String) (isValue : Bool) (attributes : Attributes)
  | primary (name : String) (attributes : Attributes)
  | secondary (name : String) (head : TypeId) (attributes : Attributes)
  | abstraction (name : String) (generalizations : List TypeId) (attributes : Attributes)
  | implement (family above : TypeId)
  | array (item : TypeId)
  | list (item : TypeId) (form : CollectionForm)
  | set (item : TypeId) (form : CollectionForm)
  | dictionary (key value : TypeId) (form : CollectionForm)
  | tuple (items : List TypeId)
  | namedTuple (items : List (TypeId × Option String))
  | union (members : List TypeId)
  | resolvePair (left right : TypeId)
  | resolveSlot (types : List TypeId)
  | defineFields (owner : TypeId) (members : List Member)
  | defineFamily (family : TypeId) (members : List (TypeId × Member))

namespace Call

def run (builder : Builder) : Call → Option Builder
  | enumeration name underlying attributes => some (builder.declareEnum name underlying attributes).2
  | record name isValue attributes => some (builder.declareRecord name isValue attributes).2
  | primary name attributes => some (builder.declarePrimary name attributes).2
  | secondary name head attributes => (builder.declareSecondary name head attributes).map Prod.snd
  | abstraction name generalizations attributes => some (builder.declareAbstraction name generalizations attributes).2
  | implement family above => builder.implement family above
  | array item => some (builder.array item).2
  | list item form => some (builder.list item form).2
  | set item form => some (builder.set item form).2
  | dictionary key value form => some (builder.dictionary key value form).2
  | tuple items => some (builder.tuple items).2
  | namedTuple items => some (builder.namedTuple items).2
  | union members => some (builder.union members).2
  | resolvePair left right =>
    match builder.resolvePair left right with
    | .ok (_, after) => some after
    | .error _ => some builder
  | resolveSlot types => some (builder.resolveSlot types).2
  | defineFields owner members => builder.defineFields owner members
  | defineFamily family members => builder.defineFamily family members

def mentions : Call → List TypeId
  | enumeration .. | record .. | primary .. => []
  | secondary _ head _ => [head]
  | abstraction _ generalizations _ => generalizations
  | implement family above => [family, above]
  | array item | list item _ | set item _ => [item]
  | dictionary key value _ => [key, value]
  | tuple items => items
  | namedTuple items => items.map Prod.fst
  | union members => members
  | resolvePair left right => [left, right]
  | resolveSlot types => types
  | defineFields owner members => owner :: members.flatMap Member.mentions
  | defineFamily family members => family :: members.flatMap fun (interface, member) => interface :: member.mentions

def Registered (builder : Builder) (call : Call) : Prop :=
  ∀ ty ∈ call.mentions, builder.catalog.contains ty = true

/-- Secondaries are declared on primary interfaces, and generalizations are abstractions. -/
def Orderly (builder : Builder) : Call → Prop
  | secondary _ head _ => builder.catalog.kind? head = some .primary
  | abstraction _ generalizations _ => ∀ above ∈ generalizations, builder.catalog.kind? above = some .abstraction
  | _ => True

def declared? (symbol : Symbol) : Call → Option Shape
  | enumeration _ underlying _ => some (.enumeration symbol underlying.id)
  | record _ isValue _ => some (.record symbol isValue [])
  | primary _ _ => some (.primary symbol [] [] [])
  | secondary _ head _ => some (.secondary symbol head.nonNull)
  | abstraction _ generalizations _ => some (.abstraction symbol (generalizations.map TypeId.nonNull) [])
  | _ => none

def defines? : Call → Option (TypeId × List (Option TypeId × Member))
  | defineFields owner members => some (owner, members.map fun member => (none, member))
  | defineFamily family members => some (family, members.map fun (interface, member) => (some interface.nonNull, member))
  | _ => none

instance (builder : Builder) (call : Call) : Decidable (call.Registered builder) :=
  inferInstanceAs (Decidable (∀ ty ∈ call.mentions, builder.catalog.contains ty = true))

instance (builder : Builder) : (call : Call) → Decidable (call.Orderly builder)
  | secondary _ head _ => inferInstanceAs (Decidable (builder.catalog.kind? head = some .primary))
  | abstraction _ generalizations _ =>
    inferInstanceAs (Decidable (∀ above ∈ generalizations, builder.catalog.kind? above = some .abstraction))
  | enumeration .. | record .. | primary .. | implement .. | array .. | list .. | set .. | dictionary .. | tuple ..
  | namedTuple .. | union .. | resolvePair .. | resolveSlot .. | defineFields .. | defineFamily .. => isTrue trivial

variable {builder final : Builder} {call : Call} {fits : Catalog → Shape → Prop}

open Catalog

theorem Registered.members {owner : TypeId} {members : List (Option TypeId × Member)} (known : call.Registered builder)
    (defines : call.defines? = some (owner, members)) :
    ∀ member ∈ members, ∀ ty ∈ member.2.mentions, builder.catalog.contains ty = true := by
  intro entry member ty mentioned
  cases call with
  | defineFields =>
    cases defines
    obtain ⟨field, present, rfl⟩ := List.mem_map.mp member
    exact known ty (List.mem_cons_of_mem _ (List.mem_flatMap.mpr ⟨field, present, mentioned⟩))
  | defineFamily =>
    cases defines
    obtain ⟨field, present, rfl⟩ := List.mem_map.mp member
    exact known ty (List.mem_cons_of_mem _ (List.mem_flatMap.mpr ⟨field, present, List.mem_cons_of_mem _ mentioned⟩))
  | _ => cases defines

theorem edits (sound : builder.catalog.Sound) (known : call.Registered builder)
    (suits : ∀ strings symbol shape, call.declared? symbol = some shape → fits { builder.catalog with strings } shape)
    (ran : call.run builder = some final) : Edits fits builder.catalog final.catalog := by
  have entered {shape : Shape} (anonymous : shape.name? = none) (spelled : shape.symbols = [])
      (inside : ∀ part ∈ shape.parts, builder.catalog.contains part = true) :
      Edits fits builder.catalog (builder.intern shape).2.catalog :=
    (builder.intern_edits anonymous inside (by simp [spelled])).1
  cases call with
  | enumeration name underlying attributes =>
    cases ran
    have declared (checked : Builder) (same : checked.catalog = builder.catalog) : Edits fits builder.catalog
        (checked.declare name attributes fun symbol => .enumeration symbol underlying.id).2.catalog := by
      rw [← same] at sound suits ⊢
      have basic := contains_of_shape (sound.basics underlying)
      exact (checked.declare_edits name attributes _ (fun _ => rfl) (fun _ => rfl)
        (by simpa [Shape.mentions, Shape.components] using fun _ => basic) (by simp [Shape.lineage, Shape.parents])
        fun strings symbol => suits strings symbol _ rfl).1
    unfold Builder.declareEnum
    split
    · exact declared builder rfl
    · exact declared (builder.report _) rfl
  | record name isValue attributes =>
    cases ran
    exact (builder.declare_edits name attributes _ (fun _ => rfl) (fun _ => rfl) (by simp [Shape.mentions, Shape.components])
      (by simp [Shape.lineage, Shape.parents]) fun strings symbol => suits strings symbol _ rfl).1
  | primary name attributes =>
    cases ran
    exact (builder.declare_edits name attributes _ (fun _ => rfl) (fun _ => rfl) (by simp [Shape.mentions])
      (by simp [Shape.lineage, Shape.parents]) fun strings symbol => suits strings symbol _ rfl).1
  | abstraction name generalizations attributes =>
    cases ran
    refine (builder.declare_edits name attributes _ (fun _ => rfl) (fun _ => rfl) ?_
      (by simp [Shape.lineage, Shape.parents]) fun strings symbol => suits strings symbol _ rfl).1
    intro symbol part member
    simp only [Shape.mentions, List.append_nil, List.mem_map] at member
    obtain ⟨above, member, rfl⟩ := member
    exact known above member
  | secondary name head attributes =>
    obtain ⟨result, declared, rfl⟩ := Option.map_eq_some_iff.mp ran
    exact Builder.declareSecondary_edits (known head (by simp [mentions]))
      (fun strings symbol => suits strings symbol _ rfl) declared
  | implement family above => exact Builder.implement_edits ran
  | array item | list item form | set item form | dictionary key value form =>
    cases ran
    exact entered rfl rfl known
  | tuple items =>
    cases ran
    have unlabelled : (items.map TupleElement.positional).filterMap TupleElement.label = [] := by
      simp [TupleElement.positional]
    refine entered rfl unlabelled ?_
    intro part member
    simp only [Shape.parts, List.map_map, List.mem_map, Function.comp_apply, TupleElement.positional] at member
    obtain ⟨item, present, rfl⟩ := member
    exact known item present
  | namedTuple items =>
    cases ran
    exact (builder.namedTuple_edits fun item member => known item.1 (List.mem_map_of_mem member)).1
  | union members =>
    cases ran
    exact (builder.union_edits known).1
  | resolvePair left right =>
    simp only [run, Builder.resolvePair] at ran
    cases outcome : builder.catalog.resolvePair left right with
    | error conflict =>
      simp only [outcome, bind, Except.bind] at ran
      cases ran
      exact .refl
    | ok result =>
      simp only [outcome, bind, Except.bind, pure, Except.pure] at ran
      cases ran
      exact (resolvePair_growth sound (known left (by simp [mentions])) (known right (by simp [mentions])) outcome).1.edits
  | resolveSlot types =>
    cases ran
    exact (Builder.resolveSlot_edits sound known).1
  | defineFields | defineFamily => exact Builder.defineMembers_edits sound (known.members rfl) ran

/-- An orderly call declares shapes that respect the kinds of interfaces. -/
theorem Orderly.suits (orderly : call.Orderly builder) (strings : Interner) (symbol : Symbol) {shape : Shape}
    (declared : call.declared? symbol = some shape) : shape.Fits { builder.catalog with strings } := by
  cases call with
  | secondary name head attributes =>
    cases declared
    exact orderly
  | abstraction name generalizations attributes =>
    cases declared
    intro above member
    obtain ⟨ty, present, rfl⟩ := List.mem_map.mp member
    exact orderly ty present
  | enumeration | record | primary =>
    cases declared
    exact fun above member => (List.not_mem_nil member).elim
  | _ => cases declared

end Call

namespace Builder

/-- Reached from the empty builder by calls that are allowed where they are made. -/
inductive ReachedBy (allowed : Builder → Call → Prop) : Builder → Prop where
  | new : ReachedBy allowed .new
  | call {before after : Builder} (reached : ReachedBy allowed before) (call : Call) (permitted : allowed before call)
      (ran : call.run before = some after) : ReachedBy allowed after

/-- Only registered ids have been handed over. -/
abbrev Reached : Builder → Prop :=
  ReachedBy fun builder call => call.Registered builder

/-- Only registered ids have been handed over, and interfaces have been declared on those of the right kinds. -/
abbrev OrderlyReached : Builder → Prop :=
  ReachedBy fun builder call => call.Registered builder ∧ call.Orderly builder

variable {builder : Builder}

theorem Reached.sound (reached : builder.Reached) : builder.catalog.Sound := by
  induction reached with
  | new => exact Catalog.standard_sound
  | call _ call known ran ih =>
    have edits := @Call.edits _ _ call (fun _ _ => True) ih known (fun _ _ _ _ => trivial) ran
    exact edits.sound ih

theorem Reached.implementing (reached : builder.Reached) : builder.catalog.Implementing := by
  induction reached with
  | new => exact fun ty shape found _ => Catalog.standard_hierarchical ty shape found
  | call earlier call known ran ih =>
    refine (call.edits (Reached.sound earlier) known ?_ ran).implementing ih
    intro strings symbol shape declared primary
    cases call with
    | primary =>
      cases declared
      exact fun above member => (List.not_mem_nil member).elim
    | enumeration | record | secondary | abstraction =>
      cases declared
      cases primary
    | _ => cases declared

theorem OrderlyReached.reached (reached : builder.OrderlyReached) : builder.Reached := by
  induction reached with
  | new => exact .new
  | call _ call permitted ran ih => exact .call ih call permitted.1 ran

theorem OrderlyReached.sound (reached : builder.OrderlyReached) : builder.catalog.Sound :=
  Reached.sound (OrderlyReached.reached reached)

theorem OrderlyReached.hierarchical (reached : builder.OrderlyReached) : builder.catalog.Hierarchical := by
  induction reached with
  | new => exact Catalog.standard_hierarchical
  | call earlier call permitted ran ih =>
    have edits := call.edits (OrderlyReached.sound earlier) permitted.1
      (fun strings symbol _ declared => permitted.2.suits strings symbol declared) ran
    exact edits.hierarchical ih

/-- The builder after a series of calls; one that cannot be carried out is passed over. -/
def replay (builder : Builder) : List Call → Builder
  | [] => builder
  | call :: rest => ((call.run builder).getD builder).replay rest

def Permitted (allowed : Builder → Call → Prop) (builder : Builder) : List Call → Prop
  | [] => True
  | call :: rest => allowed builder call ∧ Permitted allowed ((call.run builder).getD builder) rest

instance decidablePermitted {allowed : Builder → Call → Prop} [∀ builder call, Decidable (allowed builder call)] :
    (builder : Builder) → (calls : List Call) → Decidable (Permitted allowed builder calls)
  | _, [] => isTrue trivial
  | builder, call :: rest =>
    have _ : Decidable (Permitted allowed ((call.run builder).getD builder) rest) := decidablePermitted _ rest
    inferInstanceAs (Decidable (allowed builder call ∧ Permitted allowed ((call.run builder).getD builder) rest))

theorem ReachedBy.replay {allowed : Builder → Call → Prop} {calls : List Call} (reached : ReachedBy allowed builder)
    (permitted : Permitted allowed builder calls) : ReachedBy allowed (builder.replay calls) := by
  induction calls generalizing builder with
  | nil => exact reached
  | cons call rest ih =>
    refine ih ?_ permitted.2
    cases ran : call.run builder with
    | none => exact reached
    | some after => exact .call reached call permitted.1 ran

/-- An abstraction without implementations, an array of it, and a union with that array. -/
def gallery : Builder :=
  Builder.new.replay [.abstraction "Figure" [] {}, .array (.ofPair 19), .union [.ofPair 20, .ofPair 3]]

theorem gallery_reached : gallery.Reached :=
  ReachedBy.new.replay (by decide +kernel)

end Builder
end Interchange
