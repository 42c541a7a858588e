import Interchange.Proofs.PolicyEquations
import Mathlib.Data.List.Chain
import Mathlib.Order.WellFounded

/-! Chains of defaults. A default of a record or a tuple is made of defaults of its members, and theirs of defaults of
further members. Where the policy allows a default, this ends: no type is needed for itself, and each type on the way
allows a default too. -/

namespace Interchange

namespace Catalog

variable {catalog : Catalog} {ty part : TypeId}

/-- A type that is needed for its own default would be needed for ever. -/
theorem Grounded.loopless (grounded : catalog.Grounded ty) : ¬ Relation.TransGen catalog.Needs ty ty := by
  intro around
  apply (acc_iff_isEmpty_descending_chain.mp grounded.transGen).false
  exact ⟨fun _ => ty, rfl, fun _ => Relation.transGen_swap.mpr around⟩

theorem Grounded.endless (grounded : catalog.Grounded ty) :
    ¬ ∃ run : Nat → TypeId, run 0 = ty ∧ ∀ step, catalog.Needs (run step) (run (step + 1)) := by
  rintro ⟨run, start, needs⟩
  exact (acc_iff_isEmpty_descending_chain.mp grounded).false ⟨run, start, needs⟩

theorem nodup_of_grounded {chain : List TypeId} (linked : chain.IsChain catalog.Needs)
    (grounded : ∀ part ∈ chain, catalog.Grounded part) : chain.Nodup := by
  have below : chain.Pairwise (Relation.TransGen catalog.Needs) :=
    List.isChain_iff_pairwise.mp (linked.imp fun _ _ => .single)
  refine below.imp_of_mem ?_
  rintro upper lower member - needs rfl
  exact (grounded upper member).loopless needs

/-- Types without nulls that differ are different entries of the table. -/
theorem length_le_size {chain : List TypeId} (nodup : chain.Nodup)
    (inside : ∀ part ∈ chain, part.nullable = false ∧ catalog.contains part = true) : chain.length ≤ catalog.size := by
  have pairs : (chain.map TypeId.pair).Nodup := by
    refine nodup.map_on ?_
    intro one member two other same
    exact TypeId.ext_iff_pair.mpr ⟨same, (inside one member).1.trans (inside two other).1.symm⟩
  have within : chain.map TypeId.pair ⊆ List.range catalog.size := by
    intro pair member
    obtain ⟨part, listed, rfl⟩ := List.mem_map.mp member
    exact List.mem_range.mpr (contains_iff.mp (inside part listed).2)
  simpa using (pairs.subperm within).length_le

end Catalog

namespace System

open Catalog

/-- A type whose values need not be initialised, and none of whose values carries a type of its own. -/
structure Defaults (system : System) (ty : TypeId) : Prop where
  plain : ty.nullable = false
  allowed : system.defaultPolicy ty = .allowed
  kind : ∃ kind, system.catalog.kind? ty = some kind ∧ kind ≠ .any ∧ kind ≠ .abstraction ∧ kind ≠ .union

end System

namespace Builder

open Catalog

variable {builder : Builder} {system : System} {diagnostics : Diagnostics} {ty part : TypeId} {shape : Shape}

section Locked

variable (reached : builder.Reached) (locked : builder.lock = some (system, diagnostics))

include reached locked

theorem Reached.defaults (plain : ty.nullable = false) (found : system.shape? ty = some shape)
    (allowed : system.defaultPolicy ty = .allowed) : system.Defaults ty := by
  have own := (Reached.solved reached locked plain found).not_polymorphic allowed
  refine ⟨plain, allowed, shape.kind, kind?_of_shape found, ?_, ?_, ?_⟩ <;>
  · intro polymorphic
    rw [polymorphic] at own
    cases own

theorem Reached.grounded (defaults : system.Defaults ty) : system.catalog.Grounded ty := by
  obtain ⟨base, pending, complete⟩ := Reached.pending reached locked
  obtain ⟨kind, known, -⟩ := defaults.kind
  obtain ⟨shape, found, -⟩ := shape_of_kind known
  obtain ⟨policy, recorded⟩ := Option.ne_none_iff_exists'.mp (complete ty (contains_of_shape found))
  obtain rfl : policy = .allowed := (System.defaultPolicy_of_policy? defaults.plain recorded).symm.trans defaults.allowed
  exact pending.amends.grounded (pending.grounded ty defaults.plain recorded)

/-- What a default needs allows a default. -/
theorem Reached.defaults_of_needs (defaults : system.Defaults ty) (needs : system.catalog.Needs ty part) :
    system.Defaults part := by
  obtain ⟨⟨plain, shape, found, member⟩, kind⟩ := needs
  rw [kind?_of_shape found, Option.some.injEq, Option.some.injEq] at kind
  have sound := Reached.locked_sound reached locked
  obtain ⟨inner, present⟩ := shape_of_contains (sound.mentioned found (Shape.required_mentioned member))
  refine Reached.defaults reached locked plain present ?_
  rcases (Reached.solved reached locked defaults.plain found).member_allowed defaults.allowed kind member with same | ⟨strict, -⟩
  · exact same.symm
  · cases strict

theorem Reached.defaults_along {chain : List TypeId} (defaults : system.Defaults ty)
    (linked : (ty :: chain).IsChain system.catalog.Needs) : ∀ part ∈ ty :: chain, system.Defaults part := by
  induction chain generalizing ty with
  | nil => simpa using defaults
  | cons next rest ih =>
    obtain ⟨needs, linked⟩ := List.isChain_cons_cons.mp linked
    intro part member
    rcases List.mem_cons.mp member with rfl | member
    · exact defaults
    · exact ih (Reached.defaults_of_needs reached locked defaults needs) linked part member

end Locked

/-- If a record or a tuple of a locked table allows a default, then each chain of required members that starts there
ends, without meeting a type twice. Every type on the way allows a default, so none is `object`, an abstract interface or
a union. -/
theorem allowed_chains_end (reached : builder.Reached) :
    ∃ system, builder.lock = some (system, builder.diagnostics) ∧
      ∀ ty, ty.nullable = false → (system.catalog.kind? ty = some .record ∨ system.catalog.kind? ty = some .tuple) →
        system.defaultPolicy ty = .allowed →
        (¬ ∃ run : Nat → TypeId, run 0 = ty ∧ ∀ step, system.catalog.Needs (run step) (run (step + 1))) ∧
        ∀ chain, (ty :: chain).IsChain system.catalog.Needs →
          (ty :: chain).Nodup ∧ (ty :: chain).length ≤ system.size ∧ ∀ part ∈ chain, system.Defaults part := by
  obtain ⟨system, locked, -⟩ := Reached.locked reached
  refine ⟨system, locked, ?_⟩
  intro ty plain kind allowed
  obtain ⟨shape, found⟩ : ∃ shape, system.shape? ty = some shape := by
    rcases kind with kind | kind <;> exact (shape_of_kind kind).imp fun _ => And.left
  have defaults := Reached.defaults reached locked plain found allowed
  refine ⟨(Reached.grounded reached locked defaults).endless, ?_⟩
  intro chain linked
  have all := Reached.defaults_along reached locked defaults linked
  have nodup := nodup_of_grounded linked fun part member => Reached.grounded reached locked (all part member)
  refine ⟨nodup, length_le_size nodup ?_, fun part member => all part (List.mem_cons_of_mem _ member)⟩
  intro part member
  obtain ⟨known, present, -⟩ := (all part member).kind
  obtain ⟨inner, entered, -⟩ := shape_of_kind present
  exact ⟨(all part member).plain, contains_of_shape entered⟩

/-- An invoice has a total, which is an amount of money and a number of items, and may follow another invoice. -/
def invoices : Builder :=
  Builder.new.replay [.record "Money" true {},
    .defineFields (.ofPair 19) [⟨"Amount", BasicType.decimal.id, .notNull, .notNull, {}, none, none⟩],
    .tuple [.ofPair 19, BasicType.int.id], .record "Invoice" false {},
    .defineFields (.ofPair 21) [⟨"Total", .ofPair 20, .notNull, .notNull, {}, none, none⟩,
      ⟨"Previous", .ofPair 21, .nullable, .nullable, {}, none, none⟩]]

theorem invoices_reached : invoices.Reached :=
  ReachedBy.new.replay (by decide +kernel)

theorem allowed_chains_end_invoices : invoices.Reached ∧ ∃ system, invoices.lock = some (system, invoices.diagnostics) ∧
    system.defaultPolicy (.ofPair 21) = .allowed ∧
    [.ofPair 21, .ofPair 20, .ofPair 19, BasicType.decimal.id].IsChain system.catalog.Needs ∧
    system.Defaults (.ofPair 20) ∧ system.Defaults (.ofPair 19) ∧ system.Defaults BasicType.decimal.id := by
  obtain ⟨system, locked, laws⟩ := allowed_chains_end invoices_reached
  have answered : (invoices.lock.map fun result => (result.1.defaultPolicy (.ofPair 21),
      [21, 20, 19].map fun pair => (result.1.catalog.kind? (.ofPair pair),
        (result.1.catalog.shape? (.ofPair pair)).map Shape.required))) =
      some (.allowed, [(some .record, some [.ofPair 20, (TypeId.ofPair 21).orNull]),
        (some .tuple, some [.ofPair 19, BasicType.int.id]), (some .record, some [BasicType.decimal.id])]) := by decide +kernel
  simp only [locked, Option.map_some, List.map_cons, List.map_nil, Option.some.injEq, Prod.mk.injEq, List.cons.injEq,
    and_true] at answered
  obtain ⟨allowed, ⟨invoice, total⟩, ⟨pair, elements⟩, money, amount⟩ := answered
  have needs {owner part : TypeId} {parts : List TypeId}
      (kind : system.catalog.kind? owner = some .record ∨ system.catalog.kind? owner = some .tuple)
      (required : (system.catalog.shape? owner).map Shape.required = some parts) (member : part ∈ parts)
      (plain : part.nullable = false) : system.catalog.Needs owner part := by
    obtain ⟨shape, found, rfl⟩ := Option.map_eq_some_iff.mp required
    exact ⟨⟨plain, shape, found, member⟩, kind⟩
  have linked : [.ofPair 21, .ofPair 20, .ofPair 19, BasicType.decimal.id].IsChain system.catalog.Needs := by
    refine .cons_cons (needs (.inl invoice) total (by simp) rfl) ?_
    refine .cons_cons (needs (.inr pair) elements (by simp) rfl) ?_
    exact .cons_cons (needs (.inl money) amount (by simp) rfl) (.singleton _)
  obtain ⟨-, -, defaults⟩ := (laws (.ofPair 21) rfl (.inl invoice) allowed).2 _ linked
  exact ⟨invoices_reached, system, locked, allowed, linked, defaults _ (by simp), defaults _ (by simp), defaults _ (by simp)⟩

end Builder
end Interchange
