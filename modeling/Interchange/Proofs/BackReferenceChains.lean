import Interchange.Proofs.BackReferenceIndex
import Interchange.Proofs.LockedForms

/-! The order of back references. A walk along a chain meets the edges to a pair from the latest to the first, each at its
own position. A table hands its edges over owner by owner and slot by slot, so a locked system lists the owners of a type
from the last to the first. -/

namespace Interchange

theorem TypeId.pair_eq_iff {ty other : TypeId} : ty.pair = other.pair ↔ ty = other ∨ ty = other.dual := by
  obtain ⟨pair, nullable⟩ := ty
  obtain ⟨otherPair, otherNullable⟩ := other
  simp only [dual, withNullability, mk.injEq, ← and_or_left]
  cases nullable <;> cases otherNullable <;> simp

def Edge.Before (edge later : Edge) : Prop :=
  edge.owner.pair < later.owner.pair ∨ edge.owner = later.owner ∧ edge.slot < later.slot

theorem zipIdx_ascending {α : Type} (items : List α) : items.zipIdx.Pairwise fun item later => item.2 < later.2 := by
  apply List.pairwise_map.mp
  rw [List.zipIdx_map_snd]
  exact List.pairwise_lt_range'

theorem Shape.edges_ordered (owner : TypeId) (shape : Shape) : (shape.edges owner).Pairwise Edge.Before := by
  apply List.pairwise_map.mpr
  exact (zipIdx_ascending shape.components).imp fun ascending => .inr ⟨rfl, ascending⟩

theorem Catalog.edges_ordered (catalog : Catalog) : catalog.edges.Pairwise Edge.Before := by
  apply List.pairwise_flatMap.mpr
  refine ⟨fun item _ => item.1.shape.edges_ordered (.ofPair item.2), ?_⟩
  refine (zipIdx_ascending catalog.entries.toList).imp ?_
  intro item next ascending edge member later member'
  obtain ⟨_, -, rfl⟩ := List.mem_map.mp member
  obtain ⟨_, -, rfl⟩ := List.mem_map.mp member'
  exact .inl ascending

namespace BackReferences

variable {references : BackReferences} {target : TypeId} {additions : List Edge}

theorem arrivals_descending (references : BackReferences) (target : TypeId) :
    (references.arrivals target).Pairwise fun later earlier => earlier.2 < later.2 := by
  apply List.pairwise_reverse.mpr
  exact (zipIdx_ascending references.edges).filter _

theorem mem_arrivals {edge : Edge} {position : Nat} : (edge, position) ∈ references.arrivals target ↔
    references.edges[position]? = some edge ∧ (edge.target = target ∨ edge.target = target.dual) := by
  rw [arrivals, List.mem_reverse, List.mem_filter, List.mem_zipIdx_iff_getElem?, decide_eq_true_eq, TypeId.pair_eq_iff]

/-- Whatever the target, the walk along its chain comes to an end. It meets those of the edges that lead to either id of the
target's pair, each one at its own position and therefore once, the latest first. -/
def Lists (references : BackReferences) (edges : List Edge) : Prop :=
  ∀ target, ∃ steps, references.Leads (references.latest? target) steps ∧ references.into target = steps.map Prod.fst ∧
    steps.Pairwise (fun later earlier => earlier.2 < later.2) ∧
    ∀ edge position, (edge, position) ∈ steps ↔
      edges[position]? = some edge ∧ (edge.target = target ∨ edge.target = target.dual)

theorem Threaded.lists (threaded : references.Threaded) : references.Lists references.edges := by
  intro target
  exact ⟨references.arrivals target, threaded target, (threaded target).chain_eq, references.arrivals_descending target,
    fun _ _ => mem_arrivals⟩

theorem empty_addAll_edges (pairs : Nat) (additions : List Edge) :
    ((empty pairs).addAll additions).edges = additions.map Edge.recorded := by
  rw [addAll_edges]
  rfl

/-- The id that an addition gives is the number of additions before it, as long as 32 bits hold that number. -/
theorem nextId_addAll (pairs : Nat) (few : additions.length < UInt32.size) :
    ((empty pairs).addAll additions).nextId.toNat = additions.length := by
  have count : ((empty pairs).addAll additions).size = additions.length := by
    rw [← length_edges, empty_addAll_edges, List.length_map]
  rw [nextId, count]
  exact UInt32.toNat_ofNat_of_lt few

/-- The edge keeps its id and its content through all later additions. -/
theorem get?_nextId (pairs : Nat) {before after : List Edge} {edge : Edge}
    (few : (before ++ edge :: after).length < UInt32.size) :
    ((empty pairs).addAll (before ++ edge :: after)).get? ((empty pairs).addAll before).nextId.toNat =
      some edge.recorded := by
  have fewer : before.length < UInt32.size := by
    rw [List.length_append] at few
    omega
  rw [nextId_addAll pairs fewer, get?_eq, empty_addAll_edges, List.getElem?_map,
    List.getElem?_append_right (Nat.le_refl _), Nat.sub_self, List.getElem?_cons_zero, Option.map_some]

end BackReferences

theorem System.Locked.backReferences_eq {system : System} (locked : system.Locked) (ty : TypeId) :
    system.backReferences ty = (system.catalog.edges.filter fun edge => edge.target.pair = ty.pair).reverse := by
  rw [System.backReferences, locked.indexed, BackReferences.ofCatalog_into]

namespace BackReferences

/-- Chains lose no edge, repeat none and never cross, whatever the targets of the additions and whether or not there was
room for their pairs, and an edge keeps its id. So a locked system lists for each type what mentions it: all owners with the
slots in which either id of the type stands, from the last owner to the first and from the last slot to the first. -/
theorem chains_list_edges :
    (∀ (pairs : Nat) (additions : List Edge), additions.length < UInt32.size →
      ((empty pairs).addAll additions).Lists (additions.map Edge.recorded) ∧
      ∀ before edge after, additions = before ++ edge :: after →
        ((empty pairs).addAll additions).get? ((empty pairs).addAll before).nextId.toNat = some edge.recorded) ∧
    ∀ builder : Builder, builder.Reached → ∃ system, builder.lock = some (system, builder.diagnostics) ∧ ∀ ty,
      (system.backReferences ty).Pairwise (fun later earlier => earlier.Before later) ∧
      ∀ edge, edge ∈ system.backReferences ty ↔
        (edge.target = ty ∨ edge.target = ty.dual) ∧ edge.owner.nullable = false ∧
        ∃ shape, system.shape? edge.owner = some shape ∧ shape.components[edge.slot]? = some edge.target := by
  refine ⟨?_, ?_⟩
  · intro pairs additions few
    refine ⟨?_, ?_⟩
    · rw [← empty_addAll_edges pairs]
      exact ((empty_threaded pairs).addAll additions).lists
    · rintro before edge after rfl
      exact get?_nextId pairs few
  · intro builder reached
    obtain ⟨system, locked, -⟩ := Builder.Reached.locked reached
    refine ⟨system, locked, ?_⟩
    intro ty
    rw [(System.Locked.of_reached reached locked).backReferences_eq ty]
    refine ⟨List.pairwise_reverse.mpr (system.catalog.edges_ordered.filter _), ?_⟩
    intro edge
    rw [List.mem_reverse, List.mem_filter, Catalog.mem_edges, decide_eq_true_eq, TypeId.pair_eq_iff, and_comm]
    rfl

/-- Edges to two pairs by turns, to one of them under both of its ids. -/
def turns : List Edge :=
  [⟨.ofPair 4, .ofPair 3, 0⟩, ⟨.ofPair 4, .ofPair 5, 1⟩, ⟨(TypeId.ofPair 4).orNull, (TypeId.ofPair 3).orNull, 2⟩]

/-- Two chains start where there was room for one of them, and the union of the gallery is found from its member. -/
theorem chains_list_edges_gallery : turns.length < UInt32.size ∧ Builder.gallery.Reached ∧
    (∃ steps, ((empty 4).addAll turns).Leads (some 2) steps ∧
      steps.Pairwise (fun later earlier => earlier.2 < later.2) ∧
      (⟨.ofPair 4, .ofPair 3, 0⟩, 0) ∈ steps ∧ (⟨.ofPair 4, (TypeId.ofPair 3).orNull, 2⟩, 2) ∈ steps ∧
      ∀ edge, (edge, 1) ∉ steps) ∧
    ((empty 4).addAll turns).get? ((empty 4).addAll (turns.take 1)).nextId.toNat = some ⟨.ofPair 4, .ofPair 5, 1⟩ ∧
    ∃ system, Builder.gallery.lock = some (system, Builder.gallery.diagnostics) ∧
      ⟨.ofPair 21, .ofPair 20, 0⟩ ∈ system.backReferences (TypeId.ofPair 20).orNull := by
  obtain ⟨chains, systems⟩ := chains_list_edges
  obtain ⟨lists, kept⟩ := chains 4 turns (by decide)
  obtain ⟨steps, leads, -, descending, met⟩ := lists (.ofPair 3)
  obtain ⟨system, locked, listed⟩ := systems Builder.gallery Builder.gallery_reached
  have shown : (Builder.gallery.lock.map fun result => result.1.shape? (.ofPair 21)) =
      some (some (.union [.ofPair 20, .ofPair 3])) := by decide +kernel
  rw [locked, Option.map_some, Option.some.injEq] at shown
  refine ⟨by decide, Builder.gallery_reached, ⟨steps, leads, descending, ?_, ?_, ?_⟩, ?_, system, locked, ?_⟩
  · exact (met _ 0).mpr ⟨rfl, .inl rfl⟩
  · exact (met _ 2).mpr ⟨rfl, .inr rfl⟩
  · intro edge member
    obtain ⟨found, aimed⟩ := (met edge 1).mp member
    cases found
    revert aimed
    decide
  · exact kept [⟨.ofPair 4, .ofPair 3, 0⟩] ⟨.ofPair 4, .ofPair 5, 1⟩ [_] rfl
  · exact (listed _).2 _ |>.mpr ⟨.inr rfl, rfl, _, shown, rfl⟩

end BackReferences
end Interchange
