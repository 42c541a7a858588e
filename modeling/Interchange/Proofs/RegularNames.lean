import Interchange.Proofs.NamingFaults
import Interchange.Proofs.RegularRecords
import Interchange.Proofs.SubsetDependence

/-! Names of regular forms. The usual rules do not look at the class of a collection, and they treat a part like its
regular form; so a type and its regular form are exchanged under the same names, unless a union is embedded in them. -/

namespace Interchange

def NamedPart.retype (image : TypeId → TypeId) (part : NamedPart) : NamedPart :=
  { part with ty := image part.ty }

/-- The image is nullable like the type, and it is a basic type only if it is the same one. -/
structure TypeId.Passes (ty image : TypeId) : Prop where
  nullable : image.nullable = ty.nullable
  basic : ∀ type : BasicType, image.pair = type.id.pair ↔ ty.pair = type.id.pair

theorem NameEntry.nameOf_image (entry : NameEntry) {ty image : TypeId} (nullable : image.nullable = ty.nullable) :
    entry.nameOf image = entry.nameOf ty := by
  rw [NameEntry.nameOf, nullable, NameEntry.nameOf]

namespace Catalog.Regularized

variable {catalog : Catalog} {ty form : TypeId}

/-- Regular forms pass for the types that they are made of. -/
theorem passes (unique : catalog.Unique) (basics : ∀ type : BasicType, catalog.shape? type.id = some (.basic type))
    (regular : Regularized catalog ty form) : ty.Passes form := by
  cases regular with
  | keep => exact ⟨rfl, fun _ => Iff.rfl⟩
  | @intro _ _ shape part found writable made parts nullable =>
    refine ⟨nullable, ?_⟩
    intro type
    constructor
    · intro same
      have remade := made.symm.trans ((shape?_of_pair same).trans (basics type))
      rw [Option.some.injEq, Shape.regularize_eq_basic] at remade
      exact unique _ _ _ _ (remade ▸ found) (basics type) rfl
    · intro same
      have own := found.symm.trans ((shape?_of_pair same).trans (basics type))
      rw [Option.some.injEq] at own
      rw [Shape.regularize_eq_basic.mpr own] at made
      exact unique _ _ _ _ made (basics type) rfl

/-- A type that is not built of others is its own regular form. -/
theorem eq_of_named (unique : catalog.Unique) (regular : Regularized catalog ty form) {shape : Shape} {name : Symbol}
    (found : catalog.shape? ty = some shape) (named : shape.name? = some name) : form = ty := by
  cases regular with
  | keep => rfl
  | intro found' writable made parts nullable =>
    cases found.symm.trans found'
    rw [Shape.regularize_named named] at made
    exact TypeId.ext_iff_pair.mpr ⟨unique _ _ _ _ made found rfl, nullable⟩

end Catalog.Regularized

namespace Naming

variable {system : System} {config : Config} {ty form : TypeId} {shape : Shape} {image : TypeId → TypeId}

/-- The usual rules name a shape of parts like the regular shape of their images. -/
theorem standard_regularize {names : List NamedPart} (anonymous : shape.name? = none) (single : shape.kind ≠ .union)
    (passes : ∀ part ∈ names, part.ty.Passes (image part.ty)) :
    standard.nameShape ⟨system, config, form⟩ (shape.regularize image) (names.map (NamedPart.retype image)) =
      standard.nameShape ⟨system, config, ty⟩ shape names := by
  cases shape with
  | any | basic => rfl
  | enumeration | record | primary | secondary | abstraction => cases anonymous
  | union => exact absurd rfl single
  | tuple elements =>
    simp only [Shape.regularize, nameShape, standard, withNamed, List.map_map]
    rfl
  | list item collection | set item collection => rcases names with _ | ⟨_, _ | _⟩ <;> rfl
  | array item =>
    rcases names with _ | ⟨part, _ | _⟩
    · rfl
    · obtain ⟨nullable, basic⟩ := passes part List.mem_cons_self
      have same : image part.ty = BasicType.byte.id ↔ part.ty = BasicType.byte.id := by
        rw [TypeId.ext_iff_pair, TypeId.ext_iff_pair, nullable, basic]
      simp only [Shape.regularize, List.map_cons, List.map_nil, nameShape, standard, withNamed, NamedPart.retype, same]
    · rfl
  | dictionary key value collection =>
    rcases names with _ | ⟨first, _ | ⟨second, _ | _⟩⟩
    · rfl
    · rfl
    · have same : (image first.ty).nonNull = BasicType.string.id ↔ first.ty.nonNull = BasicType.string.id := by
        rw [TypeId.ext_iff_pair, TypeId.ext_iff_pair]
        exact and_congr_left' ((passes first List.mem_cons_self).basic .string)
      simp only [Shape.regularize, List.map_cons, List.map_nil, nameShape, standard, withNamed, NamedPart.retype, same]
    · rfl

end Naming

namespace Namer

variable {namer : Namer} {ty form : TypeId} {shape : Shape} {entry : NameEntry} {names : List NamedPart}
  {dependent : Bool} {parts : List (TypeId × Option String)} {plain : TypeId → Except Error NameEntry} {depth : Nat}
  {image : TypeId → TypeId}

theorem parts_regularize (anonymous : shape.name? = none) (single : shape.kind ≠ .union) :
    namer.parts (shape.regularize image) = (namer.parts shape).map fun part => (image part.1, part.2) := by
  cases shape with
  | any | basic | array | list | set | dictionary => rfl
  | tuple elements => simp [Namer.parts, Shape.regularize]
  | enumeration | record | primary | secondary | abstraction => cases anonymous
  | union => exact absurd rfl single

theorem plainParts_types (listed : plainParts plain parts = .ok (names, dependent)) :
    names.map NamedPart.ty = parts.map Prod.fst := by
  induction parts generalizing names dependent with
  | nil =>
    cases listed
    rfl
  | cons part rest ih =>
    obtain ⟨entry, -, others, more, later, rfl, -⟩ := plainParts_cons.mp listed
    rw [List.map_cons, List.map_cons, ih later]

/-- Images that have the names of the parts take their places. -/
theorem plainParts_images (listed : plainParts plain parts = .ok (names, false))
    (nullable : ∀ part ∈ parts, (image part.1).nullable = part.1.nullable)
    (each : ∀ part ∈ parts, ∀ entry, plain part.1 = .ok entry → entry.subsetDependent = false →
      plain (image part.1) = .ok entry) :
    plainParts plain (parts.map fun part => (image part.1, part.2)) = .ok (names.map (NamedPart.retype image), false) := by
  induction parts generalizing names with
  | nil =>
    cases listed
    rfl
  | cons part rest ih =>
    obtain ⟨entry, own, others, more, later, rfl, none⟩ := plainParts_cons.mp listed
    obtain ⟨unmarked, unmarkedRest⟩ := Bool.or_eq_false_iff.mp none
    subst unmarkedRest
    have remaining := ih later (fun part member => nullable part (List.mem_cons_of_mem _ member))
      fun part member => each part (List.mem_cons_of_mem _ member)
    refine plainParts_cons.mpr ⟨entry, each part List.mem_cons_self entry own unmarked, _, _, remaining, ?_, none⟩
    rw [List.map_cons, entry.nameOf_image (nullable part List.mem_cons_self)]
    rfl

/-- Types of one kind that the rules give the same answers have the same entry. -/
theorem makeEntry_of_answers {other : Shape} {others : List NamedPart} (kind : other.kind = shape.kind)
    (made : namer.makeEntry ty shape names dependent = .ok entry)
    (answer : namer.naming.nameShape ⟨namer.system, namer.config, form⟩ other others =
      namer.naming.nameShape ⟨namer.system, namer.config, ty⟩ shape names)
    (nullable : ∀ name, namer.naming.nullable ⟨namer.system, namer.config, form⟩ name =
      namer.naming.nullable ⟨namer.system, namer.config, ty⟩ name) :
    namer.makeEntry form other others dependent = .ok entry := by
  obtain ⟨name, first, rest⟩ := bind_eq_ok_iff.mp made
  obtain ⟨nullableName, second, same⟩ := bind_eq_ok_iff.mp rest
  rw [← kind] at same
  refine bind_eq_ok_iff.mpr ⟨name, check_eq_ok_iff.mpr ?_, bind_eq_ok_iff.mpr ⟨nullableName, check_eq_ok_iff.mpr ?_, same⟩⟩
  · exact answer ▸ check_eq_ok_iff.mp first
  · exact nullable name ▸ check_eq_ok_iff.mp second

/-- Where no union is embedded, the regular form of a type gets the names of the type. -/
theorem plainWithin_regular (locked : namer.system.Locked) (usual : namer.naming = .standard)
    (regular : Catalog.Regularized namer.system.catalog ty form) (named : namer.plainWithin depth ty = .ok entry)
    (unmarked : entry.subsetDependent = false) : namer.plainWithin depth form = .ok entry := by
  induction depth generalizing ty form entry with
  | zero => cases named
  | succ depth ih =>
    obtain ⟨shape, found, names, dependent, listed, made⟩ := plainWithin_succ.mp named
    rw [makeEntry_dependent made, Bool.or_eq_false_iff] at unmarked
    obtain ⟨rfl, single⟩ := unmarked
    have single : shape.kind ≠ .union := by simpa using single
    cases spelled : shape.name? with
    | some name => rwa [regular.eq_of_named locked.unique found spelled]
    | none =>
      cases regular with
      | keep => exact named
      | @intro _ _ _ image found' writable remade inner nullable =>
        cases found.symm.trans found'
        -- What the rules name is a part of the shape, so the form is made from its image.
        have embedded {part : TypeId × Option String} (member : part ∈ namer.parts shape) :
            Catalog.Regularized namer.system.catalog part.1 (image part.1) := by
          apply inner
          rw [← Shape.mentions_anonymous spelled]
          exact Shape.foundation_mentioned (parts_foundation member)
        have passes {part : TypeId × Option String} (member : part ∈ namer.parts shape) : part.1.Passes (image part.1) :=
          (embedded member).passes locked.unique locked.basic
        have images := plainParts_images listed (fun part member => (passes member).nullable)
          fun part member entry named unmarked => ih (embedded member) named unmarked
        rw [← parts_regularize spelled single] at images
        refine plainWithin_succ.mpr ⟨_, remade, _, _, images, makeEntry_of_answers ?_ made ?_ ?_⟩
        · exact Shape.regularize_kind shape image
        · rw [usual]
          apply Naming.standard_regularize spelled single
          intro part member
          have own : part.ty ∈ (namer.parts shape).map Prod.fst := plainParts_types listed ▸ List.mem_map_of_mem member
          obtain ⟨origin, present, same⟩ := List.mem_map.mp own
          exact same ▸ passes present
        · intro name
          rw [usual]
          rfl

end Namer

/-- An abstract dictionary of abstract lists. -/
def Builder.glossary : Builder :=
  Builder.new.replay [.list BasicType.int.id .abstract, .dictionary BasicType.string.id (.ofPair 19) .abstract]

theorem Builder.glossary_reached : Builder.glossary.Reached :=
  Builder.ReachedBy.new.replay (by decide +kernel)

namespace NameMap

variable {system : System} {config : Config} {map : NameMap} {ty form : TypeId}

/-- A type and its regular form are exchanged under the same names, if both are eligible and the names do not depend on
the subset. -/
theorem regular_keeps_entry (locked : system.Locked) (chain : Chain system .standard config map)
    (eligible : map.isEligible ty = true) (regular : system.regular? ty = some form) (other : map.isEligible form = true) :
    ∃ entry, map.entry ty = .ok entry ∧
      (entry.subsetDependent = false → map.entry form = .ok entry ∧ map.name form = map.name ty) := by
  obtain ⟨set, complete⟩ := chain.complete
  obtain ⟨entry, found, named⟩ := complete.entry_named eligible
  refine ⟨entry, found, ?_⟩
  intro unmarked
  have made := locked.regularized regular
  have renamed : Namer.plain ⟨system, .standard, config, set⟩ form = .ok entry :=
    Namer.plainWithin_regular locked rfl made named unmarked
  obtain ⟨again, found', named'⟩ := complete.entry_named other
  cases renamed.symm.trans named'
  refine ⟨found', ?_⟩
  have nullable := (made.passes locked.unique locked.basic).nullable
  rw [NameMap.name, NameMap.name, found, found', Except.map, Except.map, entry.nameOf_image nullable]

/-- Two abstract collections are replaced: the dictionary, which has strings for keys, and the list inside of it. -/
theorem regular_keeps_entry_glossary : ∃ system diagnostics map, Builder.glossary.lock = some (system, diagnostics) ∧
    build system .standard {} (.full system {}) = .ok map ∧ system.regular? (.ofPair 20) = some (.ofPair 23) ∧
    map.entry (.ofPair 23) = map.entry (.ofPair 20) ∧ map.name (.ofPair 23) = .ok "O(L(int))" := by
  have named : Builder.glossary.lock.any (fun locked =>
      locked.1.regular? (.ofPair 20) == some (.ofPair 23) &&
      (build locked.1 .standard {} (.full locked.1 {})).toOption.any fun map =>
        [20, 23].all (fun pair => map.isEligible (.ofPair pair)) &&
        (map.entry (.ofPair 20)).toOption.any fun entry =>
          !entry.subsetDependent && entry.name == "O(L(int))") = true := by decide +kernel
  obtain ⟨⟨system, diagnostics⟩, locked, named⟩ := (Option.any_eq_true ..).mp named
  obtain ⟨regular, named⟩ := (Bool.and_eq_true ..).mp named
  obtain ⟨map, outcome, named⟩ := any_toOption_iff.mp named
  simp only [List.all_cons, List.all_nil, Bool.and_eq_true, Bool.and_true] at named
  obtain ⟨⟨eligible, other⟩, answered⟩ := named
  have known : system.Locked := .of_reached Builder.glossary_reached locked
  have regular : system.regular? (.ofPair 20) = some (.ofPair 23) := beq_iff_eq.mp regular
  obtain ⟨entry, found, alike⟩ := regular_keeps_entry known (.build outcome) eligible regular other
  simp only [found, Except.toOption, Option.any_some, Bool.and_eq_true, Bool.not_eq_true', beq_iff_eq] at answered
  obtain ⟨same, renamed⟩ := alike answered.1
  refine ⟨system, diagnostics, map, locked, outcome, regular, same.trans found.symm, ?_⟩
  rw [renamed, NameMap.name, found, Except.map, ← answered.2]
  rfl

end NameMap
end Interchange
