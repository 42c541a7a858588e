import Interchange.Proofs.EligibilityCounts
import Interchange.Proofs.SubsetDependence
import Mathlib.Order.Fin.Basic
import Mathlib.Order.Hom.Set

/-! Lookups in name maps. The set, the table of names and the places for the positions are made one after the other, and the
table may hold names of types that are not in the set. Yet in every map the same types are answered for, and the positions
number the eligible pairs in the order of registration. -/

namespace Interchange

namespace ExchangeSet

/-- The eligible pairs in their order, numbered from zero. -/
theorem exists_numbering (set : ExchangeSet) {size : Nat} (counted : size = set.types.length) :
    ∃ order : {pair // set.isEligible (.ofPair pair) = true} ≃o Fin size,
      ∀ pair, set.types[(order pair).val]? = some (.ofPair pair.val) := by
  subst counted
  let pairs : Fin set.types.length → {pair // set.isEligible (.ofPair pair) = true} := fun position =>
    ⟨set.types[position].pair, (mem_types.mp (List.getElem_mem position.isLt)).2⟩
  have increasing : StrictMono pairs := by
    intro first second before
    exact List.pairwise_iff_getElem.mp (types_ordered set) first second first.isLt second.isLt before
  have covered : Function.Surjective pairs := by
    rintro ⟨pair, eligible⟩
    obtain ⟨position, inside, found⟩ := List.getElem_of_mem (mem_types.mpr ⟨rfl, eligible⟩)
    exact ⟨⟨position, inside⟩, Subtype.ext (congrArg TypeId.pair found)⟩
  let order := increasing.orderIsoOfSurjective pairs covered
  refine ⟨order.symm, ?_⟩
  intro pair
  have back : pairs (order.symm pair) = pair := order.apply_symm_apply pair
  have plain := (mem_types.mp (List.getElem_mem (order.symm pair).isLt)).1
  rw [List.getElem?_eq_getElem (order.symm pair).isLt, Option.some.injEq]
  exact TypeId.ext_iff_pair.mpr ⟨congrArg Subtype.val back, plain⟩

end ExchangeSet

namespace NameMap

variable {system : System} {naming : Naming} {config : Config} {namer : Namer} {map : NameMap} {ty : TypeId}
  {entry : NameEntry} {position : Nat} {α : Type}

def Answers (map : NameMap) (ty : TypeId) : Prop :=
  ∃ entry position names, map.entry ty = .ok entry ∧ map.name ty = .ok (entry.nameOf ty) ∧ map.index ty = .ok position ∧
    map.previousNames ty = .ok names

def Refuses (map : NameMap) (ty : TypeId) (error : Error) : Prop :=
  map.entry ty = .error error ∧ map.name ty = .error error ∧ map.index ty = .error error ∧
    map.previousNames ty = .error error

theorem require_some (eligible : map.isEligible ty = true) (value : α) : map.require ty (some value) = .ok value := by
  simp only [require, eligible, ↓reduceIte]

theorem require_outside (outside : map.isEligible ty = false) (found : Option α) :
    map.require ty found = .error (map.outside ty) := by
  simp only [require, outside, Bool.false_eq_true, ↓reduceIte]

section Numbering

variable {types : List TypeId} {places : Array (Option Nat)} {start : Nat}

/-- A pair that is not numbered keeps its place as it is. -/
theorem place_run_other {pair : Nat} (absent : ∀ ty ∈ types, ty.pair ≠ pair) :
    ((types.zipIdx start).foldl place places)[pair]? = places[pair]? := by
  induction types generalizing places start with
  | nil => rfl
  | cons head rest ih =>
    rw [List.zipIdx_cons, List.foldl_cons, ih fun ty member => absent ty (List.mem_cons_of_mem _ member)]
    exact Array.getElem?_setIfInBounds_ne (absent head List.mem_cons_self)

/-- Where no pair comes twice, each gets its position. -/
theorem place_run_at (distinct : types.Pairwise fun first second => first.pair < second.pair)
    (inside : ty.pair < places.size) (listed : types[position]? = some ty) :
    ((types.zipIdx start).foldl place places)[ty.pair]? = some (some (start + position)) := by
  induction types generalizing places start position with
  | nil => cases listed
  | cons head rest ih =>
    obtain ⟨later, distinct⟩ := List.pairwise_cons.mp distinct
    rw [List.zipIdx_cons, List.foldl_cons]
    cases position with
    | zero =>
      cases listed
      rw [place_run_other fun other member => (later other member).ne']
      simp [place, inside]
    | succ position =>
      rw [ih distinct (by simpa [place] using inside) listed]
      simp only [Nat.add_assoc, Nat.add_comm 1]

end Numbering

theorem refuses_of_outside (outside : map.isEligible ty = false) : map.Refuses ty (map.outside ty) := by
  have failed : map.entry ty = .error (map.outside ty) := require_outside outside _
  refine ⟨failed, ?_, require_outside outside _, require_outside outside _⟩
  rw [NameMap.name, failed]
  rfl

namespace Complete

theorem set_eq (complete : Complete namer map) : map.set = namer.set :=
  congrArg Namer.set complete.same

theorem index_of_types (complete : Complete namer map) (eligible : map.isEligible ty = true)
    (listed : map.set.types[position]? = some ty.nonNull) : map.index ty = .ok position := by
  rw [complete.set_eq] at listed
  have inside : ty.nonNull.pair < (Array.replicate namer.system.size (none : Option Nat)).size := by
    rw [complete.isEligible_eq] at eligible
    rw [Array.size_replicate, ← complete.capacity]
    exact ExchangeSet.inside_of_eligible eligible
  have numbered : map.positions[ty.nonNull.pair]? = some (some position) := by
    rw [complete.positions, ← Nat.zero_add position]
    exact place_run_at (ExchangeSet.types_ordered namer.set) inside listed
  rw [index, show ty.pair = ty.nonNull.pair from rfl, numbered]
  exact require_some eligible position

theorem answers (complete : Complete namer map) (eligible : map.isEligible ty = true) : map.Answers ty := by
  obtain ⟨entry, found, -⟩ := complete.entry_named eligible
  have member : map.set.isEligible ty.nonNull = true := by
    rw [complete.set_eq]
    exact (complete.isEligible_eq ty).symm.trans eligible
  obtain ⟨position, listed⟩ := List.mem_iff_getElem?.mp (ExchangeSet.mem_types.mpr ⟨rfl, member⟩)
  refine ⟨entry, position, _, found, ?_, complete.index_of_types eligible listed, require_some eligible _⟩
  rw [NameMap.name, found]
  rfl

/-- The entries are those of the types of the set, none left out. -/
theorem entries_types (complete : Complete namer map) : map.entries.map Prod.fst = map.set.types := by
  rw [entries, List.map_filterMap, complete.set_eq]
  refine Eq.trans (List.filterMap_congr ?_) List.filterMap_some
  intro ty member
  obtain ⟨entry, -, found⟩ := complete.named ty member
  rw [found]
  rfl

theorem entries_position (complete : Complete namer map) (listed : map.entries[position]? = some (ty, entry)) :
    map.index ty = .ok position ∧ map.entry ty = .ok entry := by
  obtain ⟨origin, member, found⟩ := List.mem_filterMap.mp (List.mem_of_getElem? listed)
  obtain ⟨_, found, ⟨⟩⟩ := Option.map_eq_some_iff.mp found
  obtain ⟨plain, eligible⟩ := ExchangeSet.mem_types.mp member
  rw [complete.set_eq, ← complete.isEligible_eq] at eligible
  refine ⟨complete.index_of_types eligible ?_, ?_⟩
  · rw [← complete.entries_types, List.getElem?_map, listed, TypeId.nonNull_of_plain plain]
    rfl
  · rw [NameMap.entry, found]
    exact require_some eligible entry

end Complete

/-- The lookups of a map answer for the same types, which are the eligible ones of its system; all others are refused. The
positions number the eligible pairs in the order of registration, and the entries are listed by their positions. -/
theorem lookups_agree (chain : Chain system naming config map) (obtained : map.set.Obtained) :
    (∀ ty, if system.contains ty = true ∧ map.set.isEligible ty = true then map.Answers ty
      else map.Refuses ty (.notInSubset ((system.display? ty).getD ty.tag))) ∧
    (∃ order : {pair // map.set.isEligible (.ofPair pair) = true} ≃o Fin map.size,
      ∀ pair ty, ty.pair = pair.val → map.index ty = .ok (order pair).val) ∧
    map.entries.length = map.size ∧
    map.entries.map Prod.fst =
      ((List.range system.size).filter fun pair => map.set.isEligible (.ofPair pair)).map .ofPair ∧
    ∀ position ty entry, map.entries[position]? = some (ty, entry) →
      map.index ty = .ok position ∧ map.entry ty = .ok entry := by
  obtain ⟨made, complete⟩ := chain.complete
  have same : map.system = system := congrArg Namer.system complete.same
  refine ⟨?_, ?_, ?_, ?_, fun position ty entry listed => complete.entries_position listed⟩
  · intro ty
    have known : map.isEligible ty = true ↔ system.contains ty = true ∧ map.set.isEligible ty = true := by
      rw [NameMap.isEligible, same, Bool.and_eq_true]
    split
    next eligible => exact complete.answers (known.mpr eligible)
    next outside =>
      rw [← same]
      exact refuses_of_outside (Bool.eq_false_iff.mpr fun eligible => outside (known.mp eligible))
  · obtain ⟨order, numbered⟩ := map.set.exists_numbering obtained.counted
    refine ⟨order, ?_⟩
    rintro ⟨pair, eligible⟩ ty rfl
    refine complete.index_of_types ?_ (numbered ⟨ty.pair, eligible⟩)
    rw [complete.isEligible_eq, ← complete.set_eq]
    exact eligible
  · rw [size, obtained.counted, ← complete.entries_types, List.length_map]
  · have capacity : map.set.capacity = system.size := by
      rw [complete.set_eq]
      exact complete.capacity
    rw [complete.entries_types, ExchangeSet.types, capacity, List.filter_map]
    rfl

/-- The integers leave the set of the gallery, and the union in it stays. -/
theorem lookups_agree_gallery : ∃ system diagnostics whole part, Builder.gallery.lock = some (system, diagnostics) ∧
    build system .standard {} (.new system {}) = .ok whole ∧
    whole.withSubset ((ExchangeSet.new system {}).exclude system BasicType.int.id).1 = .ok part ∧ part.set.Obtained ∧
    part.Answers (.ofPair 21) ∧ (∃ error, part.Refuses BasicType.int.id error) ∧ part.entries.length = part.size := by
  have named : Builder.gallery.lock.any (fun locked =>
      (build locked.1 .standard {} (.new locked.1 {})).toOption.any fun whole =>
      (whole.withSubset ((ExchangeSet.new locked.1 {}).exclude locked.1 BasicType.int.id).1).toOption.any fun part =>
        locked.1.contains (.ofPair 21) && part.set.isEligible (.ofPair 21) && !part.set.isEligible BasicType.int.id) =
      true := by decide +kernel
  obtain ⟨⟨system, diagnostics⟩, locked, named⟩ := (Option.any_eq_true ..).mp named
  obtain ⟨whole, first, named⟩ := any_toOption_iff.mp named
  obtain ⟨part, second, named⟩ := any_toOption_iff.mp named
  simp only [Bool.and_eq_true, Bool.not_eq_true'] at named
  obtain ⟨⟨known, eligible⟩, gone⟩ := named
  have home : system.Locked := .of_reached Builder.gallery_reached locked
  have obtained : part.set.Obtained := by
    obtain ⟨-, table, -, rfl⟩ := ofTable_ok second
    exact ⟨system, {}, fun _ => false, [(system, .exclude BasicType.int.id)], home, by simpa using home, rfl⟩
  have chain : Chain system .standard {} whole := .build first
  obtain ⟨lookups, -, listed, -⟩ := lookups_agree (chain.subset second) obtained
  have union := lookups (.ofPair 21)
  have integers := lookups BasicType.int.id
  rw [if_pos ⟨known, eligible⟩] at union
  rw [if_neg (by simp [gone])] at integers
  exact ⟨system, diagnostics, whole, part, locked, first, second, obtained, union, ⟨_, integers⟩, listed⟩

end NameMap
end Interchange
