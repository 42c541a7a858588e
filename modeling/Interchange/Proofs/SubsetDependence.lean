import Interchange.Proofs.NameMapReuse

/-! Which names depend on the subset. A name is marked as dependent exactly if it is that of a union or contains one, so the
mark itself is the same for every subset, and so are the names that are not marked. Nothing is asked of the system here:
only that a name was found. -/

namespace Interchange

/-- The types whose names go into the name of a type for every subset alike. -/
def Shape.embedded : Shape → List TypeId
  | .secondary _ head => [head]
  | .tuple elements => elements.map TupleElement.ty
  | .array item | .list item _ | .set item _ => [item]
  | .dictionary key value _ => [key, value]
  | _ => []

/-- The type is a union, or a union is embedded in it at some depth. -/
inductive System.EmbedsUnion (system : System) : TypeId → Prop where
  | union {ty : TypeId} {members : List TypeId} (found : system.shape? ty = some (.union members)) : EmbedsUnion system ty
  | part {ty inner : TypeId} {shape : Shape} (found : system.shape? ty = some shape) (member : inner ∈ shape.embedded)
      (embeds : EmbedsUnion system inner) : EmbedsUnion system ty

namespace Namer

variable {namer : Namer} {ty : TypeId} {shape : Shape} {entry : NameEntry} {names : List NamedPart} {dependent : Bool}
  {parts : List (TypeId × Option String)} {first : TypeId → Except Error NameEntry} {depth : Nat}

/-- The parts of a name depend on the subset if one of them does. -/
theorem plainParts_dependent {marked : TypeId → Prop} (named : plainParts first parts = .ok (names, dependent))
    (each : ∀ part ∈ parts, ∀ entry, first part.1 = .ok entry → (entry.subsetDependent = true ↔ marked part.1)) :
    dependent = true ↔ ∃ part ∈ parts, marked part.1 := by
  induction parts generalizing names dependent with
  | nil =>
    cases named
    simp
  | cons part rest ih =>
    obtain ⟨entry, own, others, more, later, rfl, rfl⟩ := plainParts_cons.mp named
    rw [Bool.or_eq_true, each _ List.mem_cons_self entry own,
      ih later fun part member => each part (List.mem_cons_of_mem _ member), List.exists_mem_cons_iff]

theorem parts_embedded (single : shape.kind ≠ .union) : (namer.parts shape).map Prod.fst = shape.embedded := by
  cases shape with
  | union => exact absurd rfl single
  | _ => simp [Namer.parts, Shape.embedded, Shape.parts]

/-- The mark tells whether a union is embedded. -/
theorem plainWithin_dependent_iff (named : namer.plainWithin depth ty = .ok entry) :
    entry.subsetDependent = true ↔ namer.system.EmbedsUnion ty := by
  induction depth generalizing ty entry with
  | zero => cases named
  | succ depth ih =>
    obtain ⟨shape, found, names, dependent, listed, made⟩ := plainWithin_succ.mp named
    rw [makeEntry_dependent made]
    by_cases union : shape.kind = .union
    · cases shape with
      | union members => simpa [Shape.kind] using System.EmbedsUnion.union found
      | _ => cases union
    · -- The parts that are named are the embedded types, whatever the set is.
      have inner : dependent = true ↔ ∃ part ∈ namer.parts shape, namer.system.EmbedsUnion part.1 :=
        plainParts_dependent listed fun part member entry named => ih named
      rw [Bool.or_eq_true, inner, beq_iff_eq, or_iff_left union]
      constructor
      · rintro ⟨part, member, embeds⟩
        exact .part found (parts_embedded union ▸ List.mem_map_of_mem member) embeds
      · intro embeds
        cases embeds with
        | union found' =>
          rw [found] at found'
          cases found'
          exact absurd rfl union
        | part found' member embeds =>
          rw [found] at found'
          cases found'
          rw [← @parts_embedded namer shape union] at member
          obtain ⟨part, present, rfl⟩ := List.mem_map.mp member
          exact ⟨part, present, embeds⟩

end Namer

/-- The types of the gallery, and a list of its union. -/
def Builder.exhibition : Builder :=
  Builder.gallery.replay [.list (.ofPair 21) .abstract]

namespace NameMap

open Namer

variable {system : System} {naming : Naming} {config : Config} {map : NameMap} {ty : TypeId}

/-- In every map of a system the entry of an eligible type is marked exactly if a union is embedded in the type, and an entry
that is not marked is the same in all maps that have one. -/
theorem entry_marked_iff (chain : Chain system naming config map) (eligible : map.isEligible ty = true) :
    ∃ entry, map.entry ty = .ok entry ∧ (entry.subsetDependent = true ↔ system.EmbedsUnion ty) ∧
      (entry.subsetDependent = false → ∀ other, Chain system naming config other → other.isEligible ty = true →
        other.entry ty = .ok entry) := by
  obtain ⟨set, complete⟩ := chain.complete
  obtain ⟨entry, found, named⟩ := complete.entry_named eligible
  refine ⟨entry, found, plainWithin_dependent_iff named, ?_⟩
  intro unmarked other otherChain otherEligible
  obtain ⟨otherSet, otherComplete⟩ := otherChain.complete
  obtain ⟨again, otherFound, otherNamed⟩ := otherComplete.entry_named otherEligible
  rw [otherFound, ← otherNamed, plain_independent named unmarked otherSet]

/-- The list depends on the subset through the union in it; the array that the union is made of does not. -/
theorem entry_marked_iff_exhibition : ∃ system diagnostics whole part, Builder.exhibition.lock = some (system, diagnostics) ∧
    build system .standard {} (.full system {}) = .ok whole ∧
    whole.withSubset ((ExchangeSet.full system {}).mark (.ofPair 3)) = .ok part ∧
    system.EmbedsUnion (.ofPair 22) ∧ whole.entry (.ofPair 22) ≠ part.entry (.ofPair 22) ∧
    ¬system.EmbedsUnion (.ofPair 20) ∧ whole.entry (.ofPair 20) = part.entry (.ofPair 20) := by
  have named : Builder.exhibition.lock.any (fun locked =>
      (build locked.1 .standard {} (.full locked.1 {})).toOption.any fun whole =>
      (whole.withSubset ((ExchangeSet.full locked.1 {}).mark (.ofPair 3))).toOption.any fun part =>
        [20, 22].all (fun pair => whole.isEligible (.ofPair pair) && part.isEligible (.ofPair pair)) &&
        (whole.entry (.ofPair 22)).toOption.any NameEntry.subsetDependent &&
        (whole.entry (.ofPair 22)).toOption != (part.entry (.ofPair 22)).toOption &&
        (whole.entry (.ofPair 20)).toOption.any fun entry => !entry.subsetDependent) = true := by decide +kernel
  obtain ⟨⟨system, diagnostics⟩, locked, named⟩ := (Option.any_eq_true ..).mp named
  obtain ⟨whole, first, named⟩ := any_toOption_iff.mp named
  obtain ⟨part, second, named⟩ := any_toOption_iff.mp named
  have chain : Chain system .standard {} whole := .build first
  simp only [List.all_cons, List.all_nil, Bool.and_eq_true, Bool.and_true, bne_iff_ne, ne_eq] at named
  obtain ⟨⟨⟨⟨⟨arrayWhole, arrayPart⟩, listWhole, -⟩, marked⟩, apart⟩, unmarked⟩ := named
  obtain ⟨list, listFound, listEmbeds, -⟩ := entry_marked_iff chain listWhole
  obtain ⟨array, arrayFound, arrayEmbeds, shared⟩ := entry_marked_iff chain arrayWhole
  have independent : array.subsetDependent = false := by simpa [arrayFound, Except.toOption] using unmarked
  refine ⟨system, diagnostics, whole, part, locked, first, second, ?_, fun same => apart (by rw [same]), ?_, ?_⟩
  · exact listEmbeds.mp (by simpa [listFound, Except.toOption] using marked)
  · rw [← arrayEmbeds, independent]
    exact Bool.false_ne_true
  · rw [arrayFound, shared independent part (chain.subset second) arrayPart]

end NameMap
end Interchange
