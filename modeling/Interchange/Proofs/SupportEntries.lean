import Interchange.Proofs.Propagation
import Interchange.Proofs.SubsetDependence
import Mathlib.Data.List.Nodup

/-! Support shapes. Adapters are told apart by their names alone. The names tell the kind and the arguments of a
collection, so there is one adapter for each kind with arguments, and it lists the first of the collections. -/

namespace Interchange

theorem TypeId.raw_inj {first second : TypeId} : first.raw = second.raw ↔ first = second := by
  obtain ⟨pair, nullable⟩ := first
  obtain ⟨other, otherNullable⟩ := second
  simp only [TypeId.raw, TypeId.mk.injEq]
  cases nullable <;> cases otherNullable <;> simp <;> omega

theorem TypeId.raw_lt_of_pair {first second : TypeId} (before : first.pair < second.pair) : first.raw < second.raw := by
  have bit := first.nullable.toNat_le
  simp only [TypeId.raw]
  omega

theorem Kind.ofName?_name (kind : Kind) : Kind.ofName? kind.name = some kind := by
  cases kind <;> decide

theorem Kind.name_inj {first second : Kind} (same : first.name = second.name) : first = second := by
  have found := Kind.ofName?_name first
  rw [same, Kind.ofName?_name second] at found
  exact (Option.some.inj found).symm

def Shape.arguments? : Shape → Option (Option TypeId × TypeId)
  | array item | list item _ | set item _ => some (none, item)
  | dictionary key item _ => some (some key, item)
  | _ => none

/-- What an adapter is generated for: collections of one kind with the same arguments. -/
structure Signature where
  kind : Kind
  key : Option TypeId
  item : TypeId
deriving DecidableEq, Repr

namespace Signature

variable {signature : Signature} {system : System} {set : ExchangeSet} {ty other : TypeId}

/-- The type is an eligible collection of this kind with these arguments, and its items are polymorphic. -/
structure NeededBy (signature : Signature) (system : System) (set : ExchangeSet) (ty : TypeId) : Prop where
  eligible : set.isEligible ty = true
  collection : ∃ shape, system.shape? ty = some shape ∧ shape.kind = signature.kind ∧
    shape.arguments? = some (signature.key, signature.item)
  polymorphic : ∃ shape, system.shape? signature.item = some shape ∧ (shape.kind = .abstraction ∨ shape.kind = .union)

instance : Decidable (signature.NeededBy system set ty) :=
  decidable_of_iff (set.isEligible ty = true ∧
      (system.shape? ty).any (fun shape =>
        shape.kind == signature.kind && shape.arguments? == some (signature.key, signature.item)) = true ∧
      (system.shape? signature.item).any (fun shape => shape.kind == .abstraction || shape.kind == .union) = true) <| by
    simp only [Option.any_eq_true, Bool.and_eq_true, Bool.or_eq_true, beq_iff_eq]
    exact ⟨fun facts => ⟨facts.1, facts.2.1, facts.2.2⟩, fun needed => ⟨needed.1, needed.2, needed.3⟩⟩

theorem NeededBy.of_pair (needed : signature.NeededBy system set ty) (same : other.pair = ty.pair) :
    signature.NeededBy system set other := by
  refine ⟨(ExchangeSet.isEligible_of_pair same).trans needed.eligible, ?_, needed.polymorphic⟩
  rw [show system.shape? other = system.shape? ty from Catalog.shape?_of_pair same]
  exact needed.collection

def words (signature : Signature) : List String :=
  signature.kind.name :: (signature.key.toList ++ [signature.item]).map (fun ty => ty.raw.repr) ++ ["Generated"]

def adapter (signature : Signature) : String :=
  "_".intercalate signature.words

theorem words_inj {first second : Signature} (same : first.words = second.words) : first = second := by
  obtain ⟨kind, key, item⟩ := first
  obtain ⟨otherKind, otherKey, otherItem⟩ := second
  simp only [words, List.cons_append, List.cons.injEq, List.append_cancel_right_eq] at same
  obtain ⟨named, listed⟩ := same
  have arguments : key.toList ++ [item] = otherKey.toList ++ [otherItem] := by
    apply List.map_injective_iff.mpr _ listed
    intro one two spelled
    have digits : Nat.toDigits 10 one.raw = Nat.toDigits 10 two.raw := by
      simpa only [Nat.toList_repr] using congrArg String.toList spelled
    apply TypeId.raw_inj.mp
    rw [← @Nat.ofDigitChars_ten_toDigits one.raw, digits, Nat.ofDigitChars_ten_toDigits]
  rw [Kind.name_inj named]
  cases key <;> cases otherKey <;> simp_all

theorem separator_notMem_words {word : String} (member : word ∈ signature.words) : '_' ∉ word.toList := by
  simp only [words, List.cons_append, List.mem_cons, List.mem_append, List.mem_map, List.not_mem_nil, or_false] at member
  rcases member with rfl | ⟨ty, -, rfl⟩ | rfl
  · cases signature.kind <;> decide
  · rw [Nat.toList_repr]
    exact Nat.underscore_not_in_toDigits
  · decide

/-- No word holds the separator, so a name can be taken apart again. -/
theorem adapter_inj {first second : Signature} : first.adapter = second.adapter ↔ first = second := by
  refine ⟨fun same => words_inj ?_, fun same => same ▸ rfl⟩
  have apart (signature : Signature) :
      signature.adapter.toList.splitOn '_' = signature.words.map String.toList := by
    rw [adapter, String.toList_intercalate]
    apply List.splitOn_intercalate
    · intro letters member
      obtain ⟨word, listed, rfl⟩ := List.mem_map.mp member
      exact separator_notMem_words listed
    · simp [words]
  have letters := (apart first).symm.trans ((congrArg (fun name => name.toList.splitOn '_') same).trans (apart second))
  exact List.map_injective_iff.mpr (fun _ _ => String.toList_inj.mp) letters

end Signature

namespace SupportShape

variable {system : System} {set : ExchangeSet} {ty : TypeId} {shape first second : SupportShape}
  {all kept : List SupportShape}

def signature (shape : SupportShape) : Signature :=
  ⟨shape.kind, shape.key, shape.item⟩

def ofSignature (collection : TypeId) (signature : Signature) : SupportShape :=
  ⟨signature.kind, collection, signature.key, signature.item, signature.adapter⟩

theorem ofCollection?_eq (ty : TypeId) (data : Shape) :
    ofCollection? ty data =
      data.arguments?.map fun arguments => ofSignature ty ⟨data.kind, arguments.1, arguments.2⟩ := by
  have plain (text : String) : toString text = text := rfl
  cases data with
  | array item | list item form | set item form | dictionary key item form =>
    simp [ofCollection?, Shape.arguments?, Shape.kind, ofSignature, Signature.adapter, Signature.words, Kind.name,
      String.append_assoc, plain]
  | _ => rfl

theorem isAdapted_iff {item : TypeId} : isAdapted system item = true ↔
    ∃ shape, system.shape? item = some shape ∧ (shape.kind = .abstraction ∨ shape.kind = .union) := by
  simp [isAdapted, Option.any_eq_true]

/-- An adapter is needed if its collection needs one of its signature; its name is that of the signature. -/
theorem mem_needed : shape ∈ needed system set ↔
    shape.collection.nullable = false ∧ shape.signature.NeededBy system set shape.collection ∧
      shape.name = shape.signature.adapter := by
  simp only [needed, List.mem_filterMap, Option.filter_eq_some_iff, Option.bind_eq_some_iff, ExchangeSet.mem_types,
    ofCollection?_eq, Option.map_eq_some_iff, isAdapted_iff]
  constructor
  · rintro ⟨ty, ⟨plain, eligible⟩, ⟨data, found, arguments, built, rfl⟩, polymorphic⟩
    exact ⟨plain, ⟨eligible, ⟨data, found, rfl, built⟩, polymorphic⟩, rfl⟩
  · rintro ⟨plain, ⟨eligible, ⟨data, found, kind, built⟩, polymorphic⟩, named⟩
    refine ⟨shape.collection, ⟨plain, eligible⟩, ⟨data, found, _, built, ?_⟩, polymorphic⟩
    rw [kind]
    change ofSignature shape.collection shape.signature = shape
    rw [ofSignature, ← named]
    rfl

theorem needed_ordered (system : System) (set : ExchangeSet) :
    (needed system set).Pairwise fun first second => first.collection.raw < second.collection.raw := by
  have listed {ty : TypeId} {shape : SupportShape}
      (built : ((system.shape? ty).bind (ofCollection? ty)).filter (fun shape => isAdapted system shape.item) = some shape) :
      shape.collection = ty := by
    obtain ⟨data, -, made⟩ := Option.bind_eq_some_iff.mp (Option.filter_eq_some_iff.mp built).1
    rw [ofCollection?_eq] at made
    obtain ⟨arguments, -, rfl⟩ := Option.map_eq_some_iff.mp made
    rfl
  refine List.Pairwise.filterMap _ ?_ (ExchangeSet.types_ordered set)
  intro ty other before first built second builtSecond
  rw [listed built, listed builtSecond]
  exact TypeId.raw_lt_of_pair before

/-- Of all adapters with one name, the first has been kept. -/
structure Sifted (all kept : List SupportShape) : Prop where
  sublist : kept.Sublist all
  distinct : (kept.map name).Nodup
  first : ∀ shape ∈ all, ∃ earlier ∈ kept, earlier.name = shape.name ∧ earlier.collection.raw ≤ shape.collection.raw

theorem Sifted.adopt (sifted : Sifted all kept)
    (last : ∀ earlier ∈ all, earlier.collection.raw < shape.collection.raw) : Sifted (all ++ [shape]) (adopt kept shape) := by
  unfold SupportShape.adopt
  split
  next taken =>
    obtain ⟨holder, member, same⟩ := List.any_eq_true.mp taken
    refine ⟨sifted.sublist.trans (List.sublist_append_left all [shape]), sifted.distinct, ?_⟩
    intro other listed
    rcases List.mem_append.mp listed with old | new
    · exact sifted.first other old
    · cases List.mem_singleton.mp new
      exact ⟨holder, member, beq_iff_eq.mp same, Nat.le_of_lt (last holder (sifted.sublist.subset member))⟩
  next free =>
    refine ⟨sifted.sublist.append (List.Sublist.refl _), ?_, ?_⟩
    · rw [List.map_append, List.map_singleton, List.nodup_append_comm]
      refine List.nodup_cons.mpr ⟨?_, sifted.distinct⟩
      intro taken
      obtain ⟨holder, member, same⟩ := List.mem_map.mp taken
      exact free (List.any_eq_true.mpr ⟨holder, member, beq_iff_eq.mpr same⟩)
    · intro other listed
      rcases List.mem_append.mp listed with old | new
      · obtain ⟨earlier, member, facts⟩ := sifted.first other old
        exact ⟨earlier, List.mem_append_left _ member, facts⟩
      · cases List.mem_singleton.mp new
        exact ⟨shape, List.mem_append_right _ new, rfl, Nat.le_refl _⟩

theorem Sifted.foldl {rest : List SupportShape} (sifted : Sifted all kept)
    (ordered : (all ++ rest).Pairwise fun first second => first.collection.raw < second.collection.raw) :
    Sifted (all ++ rest) (rest.foldl SupportShape.adopt kept) := by
  induction rest generalizing all kept with
  | nil => simpa using sifted
  | cons shape rest ih =>
    rw [List.append_cons] at ordered ⊢
    refine ih (sifted.adopt ?_) ordered
    intro earlier member
    have before := (List.pairwise_append.mp (List.pairwise_append.mp ordered).1).2.2
    exact before earlier member shape List.mem_cons_self

theorem collect_sifted (system : System) (set : ExchangeSet) : Sifted (needed system set) (collect system set) := by
  have empty : Sifted [] [] := ⟨List.Sublist.refl _, List.nodup_nil, by simp⟩
  exact empty.foldl (needed_ordered system set)

/-- In one list an adapter is known by its signature. -/
theorem eq_of_signature (member : first ∈ collect system set) (other : second ∈ collect system set)
    (same : first.signature = second.signature) : first = second := by
  have sifted := collect_sifted system set
  apply List.inj_on_of_nodup_map sifted.distinct member other
  rw [(mem_needed.mp (sifted.sublist.subset member)).2.2, (mem_needed.mp (sifted.sublist.subset other)).2.2, same]

/-- Each signature that is needed is that of an adapter, which lists a collection that comes no later. -/
theorem exists_of_needed {signature : Signature} (needs : signature.NeededBy system set ty) :
    ∃ shape ∈ collect system set, shape.signature = signature ∧ shape.collection.raw ≤ ty.raw := by
  have plain : signature.NeededBy system set ty.nonNull := needs.of_pair rfl
  have listed : ofSignature ty.nonNull signature ∈ needed system set := mem_needed.mpr ⟨rfl, plain, rfl⟩
  have sifted := collect_sifted system set
  obtain ⟨shape, member, named, before⟩ := sifted.first _ listed
  have own := (mem_needed.mp (sifted.sublist.subset member)).2.2
  refine ⟨shape, member, Signature.adapter_inj.mp (own.symm.trans named), Nat.le_trans before ?_⟩
  exact Nat.add_le_add_left (Nat.zero_le _) _

end SupportShape

/-- An abstraction and an abstract list of it. -/
def Builder.portfolio : Builder :=
  Builder.new.replay [.abstraction "Figure" [] {}, .list (.ofPair 19) .abstract]

namespace NameMap

variable {system : System} {naming : Naming} {config : Config} {map : NameMap}

theorem Chain.support (chain : Chain system naming config map) :
    map.system = system ∧ map.support = SupportShape.collect system map.set := by
  induction chain with
  | build built =>
    obtain ⟨-, table, -, rfl⟩ := ofTable_ok built
    exact ⟨rfl, rfl⟩
  | subset earlier built ih =>
    obtain ⟨-, table, -, rfl⟩ := ofTable_ok built
    exact ⟨ih.1, congrArg (SupportShape.collect · _) ih.1⟩

/-- The support shapes of a map are one for each kind of collection with its arguments that is eligible and has
polymorphic items. They list the first such collection, follow each other in this order, and have different names. -/
theorem support_adapts_first (chain : Chain system naming config map) :
    (∀ signature : Signature, (∃ ty, signature.NeededBy system map.set ty) →
      ∃! shape, shape ∈ map.support ∧ shape.signature = signature) ∧
    (∀ shape ∈ map.support, shape.signature.NeededBy system map.set shape.collection ∧
      ∀ ty, shape.signature.NeededBy system map.set ty → shape.collection.raw ≤ ty.raw) ∧
    map.support.Pairwise (fun first second => first.collection.raw < second.collection.raw) ∧
    (map.support.map SupportShape.name).Nodup := by
  rw [chain.support.2]
  have sifted := SupportShape.collect_sifted system map.set
  refine ⟨?_, ?_, (SupportShape.needed_ordered system map.set).sublist sifted.sublist, sifted.distinct⟩
  · rintro signature ⟨ty, needs⟩
    obtain ⟨shape, member, same, -⟩ := SupportShape.exists_of_needed needs
    refine ⟨shape, ⟨member, same⟩, ?_⟩
    rintro other ⟨listed, alike⟩
    exact SupportShape.eq_of_signature listed member (alike.trans same.symm)
  · intro shape member
    refine ⟨(SupportShape.mem_needed.mp (sifted.sublist.subset member)).2.1, ?_⟩
    intro ty needs
    obtain ⟨first, listed, same, before⟩ := SupportShape.exists_of_needed needs
    rwa [SupportShape.eq_of_signature listed member same] at before

/-- The abstract list comes before its regular form, which needs the same adapter. -/
theorem support_adapts_first_portfolio : ∃ system diagnostics map, Builder.portfolio.lock = some (system, diagnostics) ∧
    build system .standard {} (.full system {}) = .ok map ∧
    Signature.NeededBy ⟨.list, none, .ofPair 19⟩ system map.set (.ofPair 22) ∧
    ∃ shape ∈ map.support, shape.signature = ⟨.list, none, .ofPair 19⟩ ∧ shape.collection.raw ≤ (TypeId.ofPair 20).raw := by
  have named : Builder.portfolio.lock.any (fun locked =>
      (build locked.1 .standard {} (.full locked.1 {})).toOption.any fun map =>
        [20, 22].all fun pair => decide (Signature.NeededBy ⟨.list, none, .ofPair 19⟩ locked.1 map.set (.ofPair pair))) =
      true := by decide +kernel
  obtain ⟨⟨system, diagnostics⟩, locked, named⟩ := (Option.any_eq_true ..).mp named
  cases outcome : build system .standard {} (.full system {}) with
  | error error => simp [outcome, Except.toOption] at named
  | ok map =>
    simp only [outcome, Except.toOption, Option.any_some, List.all_cons, List.all_nil, Bool.and_eq_true, Bool.and_true,
      decide_eq_true_eq] at named
    obtain ⟨needed, again⟩ := named
    obtain ⟨unique, first, -, -⟩ := support_adapts_first (.build outcome)
    obtain ⟨shape, ⟨member, same⟩, -⟩ := unique _ ⟨_, again⟩
    exact ⟨system, diagnostics, map, locked, outcome, again, shape, member, same,
      (first shape member).2 _ (same.symm ▸ needed)⟩

end NameMap
end Interchange
