import Interchange.Proofs.CatalogIdentity
import Interchange.Proofs.NameTrees
import Interchange.Proofs.RegularRecords
import Interchange.Proofs.StandardNames

/-! Names of types without declared names. The usual rules write such a type out, so two of them share a name exactly if
they have the same structure, but for what names do not show. -/

namespace Interchange

namespace NameTree

/-- Names in brackets, with commas in between. -/
theorem brackets_text {parts : List NamedPart} {trees : List NameTree}
    (same : List.Forall₂ (fun part tree => (Naming.element part).toList = tree.text) parts trees) :
    ("(" ++ ",".intercalate (parts.map Naming.element) ++ ")").toList = (node .tuple trees 0).text := by
  cases same with
  | nil => rfl
  | @cons part tree parts trees own others =>
    suffices ending : (",".intercalate ((part :: parts).map Naming.element)).toList ++ [')'] = tree.text ++ restText trees by
      rw [String.toList_append, String.toList_append, List.append_assoc]
      change '(' :: ((",".intercalate ((part :: parts).map Naming.element)).toList ++ [')']) = _
      rw [ending]
      simp [text, NameSymbol.letters]
    induction others generalizing part tree with
    | nil => simp [restText, own]
    | @cons next nextTree parts trees first others ih =>
      rw [List.map_cons, List.map_cons, String.intercalate_cons_cons, ← List.map_cons, String.toList_append, String.toList_append,
        List.append_assoc, List.append_assoc, ih first, own]
      rfl

end NameTree

namespace Catalog

variable {catalog : Catalog} {ty : TypeId} {unfolded : Structure} {depth : Nat}

theorem unfolded?_basic (sound : catalog.Sound) (type : BasicType) (nullable : Bool) :
    catalog.unfolded? (type.id.withNullability nullable) = some (if nullable then .nullable (.basic type) else .basic type) := by
  have found : catalog.shape? (type.id.withNullability nullable) = some (.basic type) := sound.basics type
  rw [unfolded?_eq sound found]
  rfl

section Basics

variable (unique : catalog.Unique) (basics : ∀ type : BasicType, catalog.shape? type.id = some (.basic type))

include unique basics

/-- Only the basic types themselves are written out to basic types. -/
theorem unfolds_basic_iff (written : catalog.unfoldWithin depth ty = some unfolded) (type : BasicType) (nullable : Bool) :
    unfolded = (if nullable then .nullable (.basic type) else .basic type) ↔ ty = type.id.withNullability nullable := by
  cases depth with
  | zero => cases written
  | succ depth =>
    obtain ⟨shape, bare, found, unfolding, rfl⟩ := unfoldWithin_succ written
    constructor
    · intro same
      have own : ty.nullable = nullable ∧ bare = .basic type := by
        cases mark : ty.nullable <;> cases nullable <;>
          simp only [mark, if_true, Bool.false_eq_true, if_false, Structure.nullable.injEq] at same
        · exact ⟨rfl, same⟩
        · exact absurd same unfolding.plain
        · cases same
        · exact ⟨rfl, same⟩
      obtain ⟨marked, rfl⟩ := own
      cases unfolding
      exact TypeId.ext_iff_pair.mpr ⟨unique _ _ _ _ found (basics type) rfl, marked⟩
    · rintro rfl
      have own : catalog.shape? (type.id.withNullability nullable) = some (.basic type) := basics type
      cases found.symm.trans own
      cases unfolding with
      | basic => rfl
      | named named => cases named

theorem isByte_iff_id (written : catalog.unfoldWithin depth ty = some unfolded) :
    unfolded.isByte = true ↔ ty = BasicType.byte.id := by
  rw [Structure.isByte_iff]
  exact unfolds_basic_iff unique basics written .byte false

theorem isText_iff_id (written : catalog.unfoldWithin depth ty = some unfolded) :
    unfolded.isText = true ↔ ty.nonNull = BasicType.string.id := by
  have plain := unfolds_basic_iff unique basics written .string false
  have nullable := unfolds_basic_iff unique basics written .string true
  rw [Structure.isText_iff]
  constructor
  · intro text
    rcases text with text | text
    · rw [plain.mp text]
      rfl
    · rw [nullable.mp text]
      rfl
  · intro text
    have own : ty = BasicType.string.id.withNullability ty.nullable := by
      rw [← text]
      exact TypeId.ext_iff_pair.mpr ⟨rfl, rfl⟩
    cases mark : ty.nullable with
    | false => exact .inl (plain.mpr (mark ▸ own))
    | true => exact .inr (nullable.mpr (mark ▸ own))

end Basics
end Catalog

namespace Namer

open Catalog

variable {system : System} {set : ExchangeSet} {depth : Nat} {ty : TypeId} {entry : NameEntry} {unfolded : Structure}

/-- A part whose name is its structure, written as a tree. -/
def WritesOut (system : System) (set : ExchangeSet) (depth : Nat) (ty : TypeId) : Prop :=
  ∀ entry unfolded, plain ⟨system, .standard, {}, set⟩ ty = .ok entry → system.catalog.unfoldWithin depth ty = some unfolded →
    unfolded.Simple → (entry.nameOf ty).toList = unfolded.tree.text

theorem WritesOut.part {part : TypeId × Option String} {named : NamedPart} (writes : WritesOut system set depth part.1)
    (as : NamedAs ⟨system, .standard, {}, set⟩ part named) (written : system.catalog.unfoldWithin depth part.1 = some unfolded)
    (simple : unfolded.Simple) : named.ty = part.1 ∧ named.name.toList = unfolded.tree.text := by
  obtain ⟨entry, given, rfl⟩ := as
  exact ⟨rfl, writes entry unfolded given written simple⟩

theorem WritesOut.single {part : TypeId × Option String} {parts : List NamedPart} (writes : WritesOut system set depth part.1)
    (named : List.Forall₂ (NamedAs ⟨system, .standard, {}, set⟩) [part] parts)
    (written : system.catalog.unfoldWithin depth part.1 = some unfolded) (simple : unfolded.Simple) :
    ∃ given, parts = [given] ∧ given.ty = part.1 ∧ given.name.toList = unfolded.tree.text := by
  obtain ⟨given, rest, as, none, rfl⟩ := List.forall₂_cons_left_iff.mp named
  cases none
  exact ⟨given, rfl, writes.part as written simple⟩

theorem elements_write {elements : List TupleElement} {items : List (Structure × Option String)} {parts : List NamedPart}
    (written : elements.mapM (fun element => (system.catalog.unfoldWithin depth element.ty).bind fun item =>
      (element.label.mapM system.catalog.strings.get?).map fun label => (item, label)) = some items)
    (simple : ∀ item ∈ items, item.1.Simple) (unlabelled : ∀ item ∈ items, item.2 = none)
    (writes : ∀ element ∈ elements, WritesOut system set depth element.ty)
    (named : List.Forall₂ (NamedAs ⟨system, .standard, {}, set⟩)
      (elements.map fun element => (element.ty, element.label.bind system.catalog.strings.get?)) parts) :
    List.Forall₂ (fun part tree => (Naming.element part).toList = NameTree.text tree) parts (Structure.trees items) := by
  induction elements generalizing items parts with
  | nil =>
    cases written
    cases named
    exact .nil
  | cons element rest ih =>
    simp only [List.mapM_cons, Option.bind_eq_bind, Option.bind_eq_some_iff, Option.map_eq_some_iff] at written
    obtain ⟨-, ⟨item, own, label, labelled, rfl⟩, items, others, made⟩ := written
    cases made
    obtain ⟨part, parts, as, rests, rfl⟩ := List.forall₂_cons_left_iff.mp named
    have bare : element.label = none := by
      obtain rfl : label = none := unlabelled (item, label) (by simp)
      cases symbol : element.label with
      | none => rfl
      | some symbol' => simp [symbol] at labelled
    have text : (Naming.element part).toList = item.tree.text := by
      obtain ⟨entry, given, rfl⟩ := as
      simp only [bare, Option.bind_none]
      exact writes element (by simp) entry item given own (simple (item, label) (by simp))
    rw [Structure.trees]
    refine .cons text (ih others ?_ ?_ ?_ rests)
    · exact fun other member => simple other (List.mem_cons_of_mem _ member)
    · exact fun other member => unlabelled other (List.mem_cons_of_mem _ member)
    · exact fun other member => writes other (List.mem_cons_of_mem _ member)

/-- The rule for a shape writes it out, if the names of its parts are written out. -/
theorem rule_writes (locked : system.Locked) {shape : Shape} {parts : List NamedPart} {name : String}
    (unfolding : Unfolding system.catalog (system.catalog.unfoldWithin depth) shape unfolded) (simple : unfolded.Simple)
    (writes : ∀ part ∈ shape.parts, WritesOut system set depth part)
    (named : List.Forall₂ (NamedAs ⟨system, .standard, {}, set⟩) (Namer.parts ⟨system, .standard, {}, set⟩ shape) parts)
    (answer : Naming.standard.nameShape ⟨system, {}, ty⟩ shape parts = some name) : name.toList = unfolded.tree.text := by
  cases unfolding with
  | any =>
    cases answer
    rfl
  | basic type =>
    cases answer
    simp [Structure.tree, NameTree.text, NameWord.spelled]
  | named => cases simple
  | union => cases simple
  | @tuple elements items written =>
    cases simple with
    | tuple simple unlabelled =>
      cases answer
      refine NameTree.brackets_text (elements_write written simple unlabelled ?_ named)
      exact fun element member => writes element.ty (List.mem_map_of_mem member)
  | @array item inner written =>
    cases simple with
    | array simple =>
      obtain ⟨part, rfl, typed, text⟩ := (writes item (by simp [Shape.parts])).single named written simple
      rw [Structure.tree]
      by_cases byte : item = BasicType.byte.id
      · rw [if_pos ((isByte_iff_id locked.unique locked.basic written).mpr byte)]
        cases (if_pos (typed.trans byte)).symm.trans answer
        simp [NameTree.text, NameWord.spelled]
      · rw [if_neg (mt (isByte_iff_id locked.unique locked.basic written).mp byte)]
        cases (if_neg (typed ▸ byte)).symm.trans answer
        simp [NameTree.text, NameTree.restText, NameSymbol.letters, text]
  | @list item form inner written =>
    cases simple with
    | list simple =>
      obtain ⟨part, rfl, -, text⟩ := (writes item (by simp [Shape.parts])).single named written simple
      cases answer
      simp [Structure.tree, NameTree.text, NameTree.restText, NameSymbol.letters, text]
  | @set item form inner written =>
    cases simple with
    | set simple =>
      obtain ⟨part, rfl, -, text⟩ := (writes item (by simp [Shape.parts])).single named written simple
      cases answer
      simp [Structure.tree, NameTree.text, NameTree.restText, NameSymbol.letters, text]
  | @dictionary key value form innerKey innerValue keyWritten valueWritten =>
    cases simple with
    | dictionary simpleKey simpleValue =>
      obtain ⟨first, rest, firstAs, others, rfl⟩ := List.forall₂_cons_left_iff.mp named
      obtain ⟨second, rest, secondAs, none, rfl⟩ := List.forall₂_cons_left_iff.mp others
      cases none
      obtain ⟨typed, keyText⟩ := (writes key (by simp [Shape.parts])).part firstAs keyWritten simpleKey
      obtain ⟨-, valueText⟩ := (writes value (by simp [Shape.parts])).part secondAs valueWritten simpleValue
      rw [Structure.tree]
      by_cases textual : key.nonNull = BasicType.string.id
      · rw [if_pos ((isText_iff_id locked.unique locked.basic keyWritten).mpr textual)]
        cases (if_pos (typed ▸ textual)).symm.trans answer
        simp [NameTree.text, NameTree.restText, NameSymbol.letters, valueText]
      · rw [if_neg (mt (isText_iff_id locked.unique locked.basic keyWritten).mp textual)]
        cases (if_neg (typed ▸ textual)).symm.trans answer
        simp [NameTree.text, NameTree.restText, NameSymbol.letters, keyText, valueText]

/-- Names of simple types are their structures, written as trees. -/
theorem writesOut (locked : system.Locked) (depth : Nat) (ty : TypeId) : WritesOut system set depth ty := by
  induction depth generalizing ty with
  | zero =>
    intro entry unfolded given written
    cases written
  | succ depth ih =>
    intro entry unfolded given written simple
    obtain ⟨shape, bare, found, unfolding, rfl⟩ := unfoldWithin_succ written
    obtain ⟨shape', parts, dependent, again, named, made⟩ := plain_ok given
    cases found.symm.trans again
    obtain ⟨⟨answer, -⟩, marked, -⟩ := makeEntry_ok made
    have name (simple : bare.Simple) : entry.name.toList = bare.tree.text :=
      rule_writes locked unfolding simple (fun part _ => ih part) named answer
    rw [NameEntry.nameOf]
    cases nullable : ty.nullable with
    | false =>
      rw [nullable] at simple
      exact name simple
    | true =>
      rw [nullable] at simple
      cases simple with
      | nullable simple =>
        have suffix : entry.nullableName = entry.name ++ "?" := (Option.some.inj marked).symm
        simp [Structure.tree, suffix, name simple]

end Namer

namespace NameMap

open Namer

variable {system : System} {map : NameMap} {first second : TypeId} {left right : Structure} {depth further : Nat}

theorem Chain.simple_name (locked : system.Locked) (chain : Chain system .standard {} map)
    (eligible : map.isEligible first = true) (written : system.catalog.unfoldWithin depth first = some left)
    (simple : left.Simple) : map.name first = .ok (String.ofList left.tree.text) := by
  obtain ⟨set, complete⟩ := chain.complete
  obtain ⟨entry, found, given⟩ := complete.entry_named eligible
  have text := writesOut locked depth first entry left given written simple
  rw [name, found, Except.map, ← text, String.ofList_toList]

/-- Under the usual rules, two types without declared names, unions and labels share a name exactly if they have the same
structure and nullability, the forms of collections and nulls of textual keys left aside. The types may be nested to any
depth, whatever else is in the system. -/
theorem simple_names_agree_iff (locked : system.Locked) (chain : Chain system .standard {} map)
    (firstEligible : map.isEligible first = true) (secondEligible : map.isEligible second = true)
    (leftWritten : system.catalog.unfoldWithin depth first = some left)
    (rightWritten : system.catalog.unfoldWithin further second = some right) (leftSimple : left.Simple)
    (rightSimple : right.Simple) :
    ∃ one two, map.name first = .ok one ∧ map.name second = .ok two ∧ (one = two ↔ left.forget = right.forget) := by
  refine ⟨_, _, chain.simple_name locked firstEligible leftWritten leftSimple,
    chain.simple_name locked secondEligible rightWritten rightSimple, ?_⟩
  constructor
  · intro same
    have trees := NameTree.text_injective (String.ofList_injective same)
    rw [← leftSimple.ofTree_tree, ← rightSimple.ofTree_tree, trees]
  · intro same
    rw [← leftSimple.tree_forget, ← rightSimple.tree_forget, same]

/-- Lists of numbers under textual keys, in two forms. -/
def indexes : Builder :=
  Builder.new.replay [.list BasicType.int.id .abstract, .list BasicType.int.id .readOnly,
    .dictionary BasicType.string.id (.ofPair 19) .concrete, .dictionary BasicType.string.id.orNull (.ofPair 20) .readOnly]

theorem simple_names_agree_iff_indexes : ∃ system diagnostics map, indexes.Reached ∧
    indexes.lock = some (system, diagnostics) ∧ Chain system .standard {} map ∧
    ∃ left right, system.catalog.unfolded? (.ofPair 21) = some left ∧ system.catalog.unfolded? (.ofPair 22) = some right ∧
      left.Simple ∧ right.Simple ∧ ∃ name, map.name (.ofPair 21) = .ok name ∧ map.name (.ofPair 22) = .ok name := by
  have reached : indexes.Reached := Builder.ReachedBy.new.replay (by decide +kernel)
  obtain ⟨system, locked, -⟩ := Builder.Reached.locked reached
  have sound := Builder.Reached.locked_sound reached locked
  have answered : (indexes.lock.bind fun result => (build result.1 .standard {} (.full result.1 {})).toOption.map fun map =>
      ([19, 20, 21, 22].map fun pair => result.1.catalog.shape? (.ofPair pair),
        [21, 22].map fun pair => map.isEligible (.ofPair pair))) =
      some ([some (.list BasicType.int.id .abstract), some (.list BasicType.int.id .readOnly),
        some (.dictionary BasicType.string.id (.ofPair 19) .concrete),
        some (.dictionary BasicType.string.id.orNull (.ofPair 20) .readOnly)], [true, true]) := by decide +kernel
  rw [locked, Option.bind_some, Option.map_eq_some_iff] at answered
  obtain ⟨map, named, facts⟩ := answered
  simp only [List.map_cons, List.map_nil, Prod.mk.injEq, List.cons.injEq, and_true] at facts
  obtain ⟨⟨abstract, readOnly, first, second⟩, firstEligible, secondEligible⟩ := facts
  have chain : Chain system .standard {} map := by
    cases built : build system .standard {} (.full system {}) with
    | error error => simp [built, Except.toOption] at named
    | ok other =>
      rw [built] at named
      cases named
      exact .build built
  have lists {pair : Nat} {form : CollectionForm}
      (found : system.catalog.shape? (.ofPair pair) = some (.list BasicType.int.id form)) :
      system.catalog.unfolded? (.ofPair pair) = some (.list (.basic .int) form) := by
    have number : system.catalog.unfolded? BasicType.int.id = some (.basic .int) := Catalog.unfolded?_basic sound .int false
    rw [Catalog.unfolded?_eq sound found]
    simp [Catalog.unfoldShape, number]
  have left : system.catalog.unfolded? (.ofPair 21) =
      some (.dictionary (.basic .string) (.list (.basic .int) .abstract) .concrete) := by
    have key : system.catalog.unfolded? BasicType.string.id = some (.basic .string) := Catalog.unfolded?_basic sound .string false
    rw [Catalog.unfolded?_eq sound first]
    simp [Catalog.unfoldShape, key, lists abstract]
  have right : system.catalog.unfolded? (.ofPair 22) =
      some (.dictionary (.nullable (.basic .string)) (.list (.basic .int) .readOnly) .readOnly) := by
    have key : system.catalog.unfolded? BasicType.string.id.orNull = some (.nullable (.basic .string)) :=
      Catalog.unfolded?_basic sound .string true
    rw [Catalog.unfolded?_eq sound second]
    simp [Catalog.unfoldShape, key, lists readOnly]
  have simple {key : Structure} {form other : CollectionForm} (simpleKey : key.Simple) :
      (Structure.dictionary key (.list (.basic .int) form) other).Simple := .dictionary simpleKey (.list (.basic .int))
  obtain ⟨one, two, firstName, secondName, agree⟩ := simple_names_agree_iff (.of_reached reached locked) chain firstEligible
    secondEligible left right (simple (.basic .string)) (simple (.nullable (.basic .string)))
  obtain rfl : one = two := agree.mpr rfl
  exact ⟨system, indexes.diagnostics, map, reached, locked, chain, _, _, left, right, simple (.basic .string),
    simple (.nullable (.basic .string)), one, firstName, secondName⟩

end NameMap
end Interchange
