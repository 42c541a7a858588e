import Interchange.System

/-! What the chains of back references hold. However the targets of additions alternate, the chain of a pair leads through
all edges to that pair, from the latest to the first, and through no others. The edges of a whole table are those from its
types to their components. -/

namespace Interchange

/-- What is kept of an edge that is added. -/
def Edge.recorded (edge : Edge) : Edge :=
  { edge with owner := edge.owner.nonNull }

def Shape.edges (owner : TypeId) (shape : Shape) : List Edge :=
  shape.components.zipIdx.map fun (target, slot) => ⟨owner, target, slot⟩

def Catalog.edges (catalog : Catalog) : List Edge :=
  catalog.entries.toList.zipIdx.flatMap fun (entry, pair) => entry.shape.edges (.ofPair pair)

/-- The edges come from the non-nullable ids of types to what stands in their slots. -/
theorem Catalog.mem_edges {catalog : Catalog} {edge : Edge} : edge ∈ catalog.edges ↔
    edge.owner.nullable = false ∧ ∃ shape, catalog.shape? edge.owner = some shape ∧
      shape.components[edge.slot]? = some edge.target := by
  constructor
  · intro member
    obtain ⟨⟨entry, pair⟩, listed, made⟩ := List.mem_flatMap.mp member
    obtain ⟨⟨component, slot⟩, placed, rfl⟩ := List.mem_map.mp made
    rw [List.mem_zipIdx_iff_getElem?] at listed placed
    rw [Array.getElem?_toList] at listed
    exact ⟨rfl, entry.shape, Option.map_eq_some_iff.mpr ⟨entry, listed, rfl⟩, placed⟩
  · rintro ⟨plain, shape, found, placed⟩
    obtain ⟨entry, present, rfl⟩ := Option.map_eq_some_iff.mp found
    have same : (⟨.ofPair edge.owner.pair, edge.target, edge.slot⟩ : Edge) = edge := by
      rw [TypeId.ofPair, ← plain]
    refine List.mem_flatMap.mpr ⟨(entry, edge.owner.pair), ?_, List.mem_map.mpr ⟨(edge.target, edge.slot), ?_, same⟩⟩
    · rw [List.mem_zipIdx_iff_getElem?, Array.getElem?_toList]
      exact present
    · rw [List.mem_zipIdx_iff_getElem?]
      exact placed

namespace BackReferences

variable {references : BackReferences} {owner target : TypeId} {slot : Nat}

def addAll (references : BackReferences) (additions : List Edge) : BackReferences :=
  additions.foldl (fun references edge => references.add edge.owner edge.target edge.slot) references

def edges (references : BackReferences) : List Edge :=
  references.links.toList.map Link.edge

/-- The edges to a pair with their positions, the latest first. -/
def arrivals (references : BackReferences) (target : TypeId) : List (Edge × Nat) :=
  (references.edges.zipIdx.filter fun arrival => arrival.1.target.pair = target.pair).reverse

/-- A walk along a chain up to its end. It meets the listed edges at the listed positions. -/
inductive Leads (references : BackReferences) : Option Nat → List (Edge × Nat) → Prop where
  | done : Leads references none []
  | step {position : Nat} {link : Link} {steps : List (Edge × Nat)} (found : references.links[position]? = some link)
      (rest : Leads references link.earlier steps) : Leads references (some position) ((link.edge, position) :: steps)

/-- The chain of each pair leads through all edges to the pair. -/
def Threaded (references : BackReferences) : Prop :=
  ∀ target, references.Leads (references.latest? target) (references.arrivals target)

theorem Leads.chain_eq {start : Option Nat} {steps : List (Edge × Nat)} (leads : references.Leads start steps) :
    references.chain start = steps.map Prod.fst := by
  induction leads with
  | done => rw [chain, List.map_nil]
  | step found rest ih =>
    obtain ⟨inside, rfl⟩ := Array.getElem?_eq_some_iff.mp found
    rw [chain, dif_pos inside, ih, List.map_cons]

theorem latest?_of_pair {other : TypeId} (same : target.pair = other.pair) :
    references.latest? target = references.latest? other := by
  rw [latest?, same, latest?]

/-- The two ids of a pair share their edges. -/
theorem into_of_pair {other : TypeId} (same : target.pair = other.pair) :
    references.into target = references.into other := by
  rw [into, latest?_of_pair same, into]

theorem get?_eq (references : BackReferences) (position : Nat) : references.get? position = references.edges[position]? := by
  rw [get?, edges, List.getElem?_map, Array.getElem?_toList]

theorem length_edges (references : BackReferences) : references.edges.length = references.size := by
  rw [edges, List.length_map, Array.length_toList, size]

theorem add_edges (references : BackReferences) (owner target : TypeId) (slot : Nat) :
    (references.add owner target slot).edges = references.edges ++ [⟨owner.nonNull, target, slot⟩] := by
  simp [edges, add]

theorem add_arrivals (references : BackReferences) (owner target : TypeId) (slot : Nat) (other : TypeId) :
    (references.add owner target slot).arrivals other =
      if target.pair = other.pair then (⟨owner.nonNull, target, slot⟩, references.size) :: references.arrivals other
      else references.arrivals other := by
  simp only [arrivals, add_edges, List.zipIdx_append, List.zipIdx_singleton, List.filter_append, List.reverse_append,
    length_edges, Nat.zero_add, List.filter_cons, List.filter_nil, decide_eq_true_eq]
  split <;> rfl

theorem reserve_inside (references : BackReferences) (pair : Nat) : pair < (references.reserve pair).size := by
  simp only [reserve, Array.size_append, Array.size_replicate]
  omega

theorem reserve_join (references : BackReferences) (pair other : Nat) :
    (references.reserve pair)[other]?.join = references.latest[other]?.join := by
  simp only [reserve, Array.getElem?_append, Array.getElem?_replicate]
  split
  · rfl
  next outside =>
    rw [Array.getElem?_eq_none (by omega)]
    split <;> rfl

theorem add_latest? (references : BackReferences) (owner target : TypeId) (slot : Nat) (other : TypeId) :
    (references.add owner target slot).latest? other =
      if target.pair = other.pair then some references.size else references.latest? other := by
  have inside := references.reserve_inside target.pair
  simp only [latest?, add, Array.getElem?_setIfInBounds, inside, ↓reduceIte]
  split
  · rfl
  · exact references.reserve_join target.pair other.pair

/-- An addition changes no link that is there, so walks are what they were. -/
theorem Leads.add {start : Option Nat} {steps : List (Edge × Nat)} (leads : references.Leads start steps) :
    (references.add owner target slot).Leads start steps := by
  induction leads with
  | done => exact .done
  | step found rest ih =>
    refine .step ?_ ih
    obtain ⟨inside, same⟩ := Array.getElem?_eq_some_iff.mp found
    simp only [BackReferences.add]
    rw [Array.getElem?_push_lt inside, same]

theorem empty_threaded (pairs : Nat) : (empty pairs).Threaded := by
  intro target
  have unstarted : (empty pairs).latest? target = none := by
    simp only [latest?, empty, Array.getElem?_replicate]
    split <;> rfl
  rw [unstarted]
  exact .done

/-- The new edge stands before the chain of its pair, and the chains of other pairs stay as they are. -/
theorem Threaded.add (threaded : references.Threaded) : (references.add owner target slot).Threaded := by
  intro other
  rw [add_latest?, add_arrivals]
  split
  next same =>
    have latest : (references.add owner target slot).links[references.size]? =
        some ⟨⟨owner.nonNull, target, slot⟩, references.latest? target⟩ := Array.getElem?_push_size
    refine .step latest ?_
    rw [latest?_of_pair same]
    exact (threaded other).add
  · exact (threaded other).add

theorem Threaded.addAll (threaded : references.Threaded) (additions : List Edge) : (references.addAll additions).Threaded := by
  induction additions generalizing references with
  | nil => exact threaded
  | cons edge rest ih => exact ih threaded.add

theorem addAll_edges (references : BackReferences) (additions : List Edge) :
    (references.addAll additions).edges = references.edges ++ additions.map Edge.recorded := by
  induction additions generalizing references with
  | nil => rw [addAll, List.foldl_nil, List.map_nil, List.append_nil]
  | cons edge rest ih =>
    rw [addAll, List.foldl_cons, ← addAll, ih, add_edges, List.append_assoc]
    rfl

theorem Threaded.into_eq (threaded : references.Threaded) (target : TypeId) :
    references.into target = (references.edges.filter fun edge => edge.target.pair = target.pair).reverse := by
  rw [into, (threaded target).chain_eq, arrivals, List.map_reverse]
  congr 1
  calc (references.edges.zipIdx.filter fun arrival => arrival.1.target.pair = target.pair).map Prod.fst
      = (references.edges.zipIdx.map Prod.fst).filter fun edge => edge.target.pair = target.pair := by
        rw [List.filter_map]
        rfl
    _ = references.edges.filter fun edge => edge.target.pair = target.pair := by rw [List.zipIdx_map_fst]

theorem addComponents_eq (references : BackReferences) (pair : Nat) (shape : Shape) :
    references.addComponents (.ofPair pair) shape.components = references.addAll (shape.edges (.ofPair pair)) := by
  rw [addAll, Shape.edges, List.foldl_map]
  rfl

/-- The index of a table comes from adding the table's edges one by one. -/
theorem ofCatalog_eq (catalog : Catalog) : ofCatalog catalog = (empty catalog.size).addAll catalog.edges := by
  rw [addAll, Catalog.edges, List.foldl_flatMap]
  simp only [ofCatalog, addComponents_eq]
  rfl

theorem ofCatalog_edges (catalog : Catalog) : (ofCatalog catalog).edges = catalog.edges := by
  have plain : ∀ edge ∈ catalog.edges, edge.recorded = edge := by
    intro edge member
    obtain ⟨entry, -, made⟩ := List.mem_flatMap.mp member
    obtain ⟨component, -, rfl⟩ := List.mem_map.mp made
    rfl
  rw [ofCatalog_eq, addAll_edges, List.map_congr_left plain, List.map_id']
  rfl

theorem ofCatalog_into (catalog : Catalog) (target : TypeId) :
    (ofCatalog catalog).into target = (catalog.edges.filter fun edge => edge.target.pair = target.pair).reverse := by
  have threaded : (ofCatalog catalog).Threaded := by
    rw [ofCatalog_eq]
    exact (empty_threaded _).addAll _
  rw [threaded.into_eq, ofCatalog_edges]

/-- Every owner is found from each of its components. -/
theorem owner_of_component {catalog : Catalog} {owner component : TypeId} {shape : Shape}
    (found : catalog.shape? owner = some shape) (member : component ∈ shape.components) :
    ∃ edge ∈ (ofCatalog catalog).into component, edge.owner.pair = owner.pair := by
  obtain ⟨slot, placed⟩ := List.mem_iff_getElem?.mp member
  refine ⟨⟨owner.nonNull, component, slot⟩, ?_, rfl⟩
  rw [ofCatalog_into, List.mem_reverse, List.mem_filter]
  exact ⟨Catalog.mem_edges.mpr ⟨rfl, shape, found, placed⟩, decide_eq_true rfl⟩

end BackReferences
end Interchange
