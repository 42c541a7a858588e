import Interchange.Proofs.CatalogIdentity

/-! What is left of a type at run time. Written out in full, the oblivious form of a type is the type without what a running
program cannot see: the labels of tuples and the nullability of references, on every level. Types that a running program
cannot tell apart have one oblivious form. -/

namespace Interchange

namespace Structure

mutual

def same : Structure → Structure → Bool
  | .any, .any => true
  | .basic left, .basic right => left == right
  | .named left, .named right => left == right
  | .tuple left, .tuple right => sameElements left right
  | .array left, .array right => left.same right
  | .list left leftForm, .list right rightForm => left.same right && leftForm == rightForm
  | .set left leftForm, .set right rightForm => left.same right && leftForm == rightForm
  | .dictionary leftKey leftValue leftForm, .dictionary rightKey rightValue rightForm =>
    leftKey.same rightKey && leftValue.same rightValue && leftForm == rightForm
  | .union left, .union right => sameMembers left right
  | .nullable left, .nullable right => left.same right
  | _, _ => false

def sameElements : List (Structure × Option String) → List (Structure × Option String) → Bool
  | [], [] => true
  | (left, leftLabel) :: lefts, (right, rightLabel) :: rights =>
    left.same right && leftLabel == rightLabel && sameElements lefts rights
  | _, _ => false

def sameMembers : List Structure → List Structure → Bool
  | [], [] => true
  | left :: lefts, right :: rights => left.same right && sameMembers lefts rights
  | _, _ => false

end

mutual

theorem same_self (unfolded : Structure) : unfolded.same unfolded = true := by
  match unfolded with
  | .any => rfl
  | .basic _ | .named _ => simp [same]
  | .tuple elements => simp [same, sameElements_self elements]
  | .array item | .list item _ | .set item _ | .nullable item => simp [same, same_self item]
  | .dictionary key value _ => simp [same, same_self key, same_self value]
  | .union members => simp [same, sameMembers_self members]

theorem sameElements_self (elements : List (Structure × Option String)) : sameElements elements elements = true := by
  match elements with
  | [] => rfl
  | (element, _) :: rest => simp [sameElements, same_self element, sameElements_self rest]

theorem sameMembers_self (members : List Structure) : sameMembers members members = true := by
  match members with
  | [] => rfl
  | member :: rest => simp [sameMembers, same_self member, sameMembers_self rest]

end

mutual

theorem eq_of_same (left right : Structure) (alike : left.same right = true) : left = right := by
  match left, right with
  | .any, .any => rfl
  | .basic _, .basic _ | .named _, .named _ => simpa [same] using alike
  | .tuple left, .tuple right => rw [eq_of_sameElements left right alike]
  | .array left, .array right | .nullable left, .nullable right => rw [eq_of_same left right alike]
  | .list left _, .list right _ | .set left _, .set right _ =>
    obtain ⟨items, forms⟩ := Bool.and_eq_true_iff.mp alike
    rw [eq_of_same left right items, eq_of_beq forms]
  | .dictionary leftKey leftValue _, .dictionary rightKey rightValue _ =>
    obtain ⟨parts, forms⟩ := Bool.and_eq_true_iff.mp alike
    obtain ⟨keys, values⟩ := Bool.and_eq_true_iff.mp parts
    rw [eq_of_same leftKey rightKey keys, eq_of_same leftValue rightValue values, eq_of_beq forms]
  | .union left, .union right => rw [eq_of_sameMembers left right alike]

theorem eq_of_sameElements (left right : List (Structure × Option String)) (alike : sameElements left right = true) :
    left = right := by
  match left, right with
  | [], [] => rfl
  | (left, _) :: lefts, (right, _) :: rights =>
    obtain ⟨head, rest⟩ := Bool.and_eq_true_iff.mp alike
    obtain ⟨elements, labels⟩ := Bool.and_eq_true_iff.mp head
    rw [eq_of_same left right elements, eq_of_beq labels, eq_of_sameElements lefts rights rest]

theorem eq_of_sameMembers (left right : List Structure) (alike : sameMembers left right = true) : left = right := by
  match left, right with
  | [], [] => rfl
  | left :: lefts, right :: rights =>
    obtain ⟨head, rest⟩ := Bool.and_eq_true_iff.mp alike
    rw [eq_of_same left right head, eq_of_sameMembers lefts rights rest]

end

instance : DecidableEq Structure := fun left right =>
  decidable_of_iff (left.same right = true) ⟨eq_of_same left right, fun equal => equal ▸ same_self left⟩

def orNull : Structure → Structure
  | .nullable inner => .nullable inner
  | bare => .nullable bare

mutual

/-- What a running program sees of a type; `isValue` tells which declared types are values. Tuples have no labels, references
are nullable, and members of a union that look alike are one member. -/
def erase (isValue : String → Bool) : Structure → Structure
  | .any => .nullable .any
  | .basic type => if type.isValue then .basic type else .nullable (.basic type)
  | .named name => if isValue name then .named name else .nullable (.named name)
  | .tuple elements => .tuple (eraseElements isValue elements)
  | .array item => .nullable (.array (item.erase isValue))
  | .list item form => .nullable (.list (item.erase isValue) form)
  | .set item form => .nullable (.set (item.erase isValue) form)
  | .dictionary key value form => .nullable (.dictionary (key.erase isValue) (value.erase isValue) form)
  | .union members => .nullable (.union (eraseMembers isValue members).eraseDups)
  | .nullable inner => (inner.erase isValue).orNull

def eraseElements (isValue : String → Bool) : List (Structure × Option String) → List (Structure × Option String)
  | [] => []
  | (element, _) :: rest => (element.erase isValue, none) :: eraseElements isValue rest

def eraseMembers (isValue : String → Bool) : List Structure → List Structure
  | [] => []
  | member :: rest => member.erase isValue :: eraseMembers isValue rest

end

variable {isValue : String → Bool}

theorem eraseElements_eq (elements : List (Structure × Option String)) :
    eraseElements isValue elements = elements.map fun element => (element.1.erase isValue, none) := by
  induction elements with
  | nil => rfl
  | cons element rest ih => rw [eraseElements, ih, List.map_cons]

theorem eraseMembers_eq (members : List Structure) : eraseMembers isValue members = members.map (erase isValue) := by
  induction members with
  | nil => rfl
  | cons member rest ih => rw [eraseMembers, ih, List.map_cons]

end Structure

section Reading

variable {α α' β β' : Type} {read : α → Option β} {items : List α} {values : List β}

theorem mapM_cons_cases {item : α} (found : (item :: items).mapM read = some values) :
    ∃ value rest, read item = some value ∧ items.mapM read = some rest ∧ values = value :: rest := by
  simp only [List.mapM_cons, Option.bind_eq_bind, Option.bind_eq_some_iff] at found
  obtain ⟨value, here, rest, later, made⟩ := found
  cases made
  exact ⟨value, rest, here, later, rfl⟩

theorem mapM_cons_some {item : α} {value : β} (here : read item = some value) (later : items.mapM read = some values) :
    (item :: items).mapM read = some (value :: values) := by
  simp [List.mapM_cons, here, later]

/-- What is read after every item is replaced. -/
theorem mapM_map_some {read' : α' → Option β'} {part : α → α'} {image : β → β'} (found : items.mapM read = some values)
    (each : ∀ item ∈ items, ∀ value, read item = some value → read' (part item) = some (image value)) :
    (items.map part).mapM read' = some (values.map image) := by
  induction items generalizing values with
  | nil =>
    cases found
    rfl
  | cons item rest ih =>
    obtain ⟨value, others, here, later, rfl⟩ := mapM_cons_cases found
    refine mapM_cons_some (each item List.mem_cons_self value here) (ih later ?_)
    intro other member
    exact each other (List.mem_cons_of_mem _ member)

theorem mapM_filter {keep : α → Bool} {keepValue : β → Bool} (found : items.mapM read = some values)
    (agree : ∀ item value, read item = some value → keepValue value = keep item) :
    (items.filter keep).mapM read = some (values.filter keepValue) := by
  induction items generalizing values with
  | nil =>
    cases found
    rfl
  | cons item rest ih =>
    obtain ⟨value, others, here, later, rfl⟩ := mapM_cons_cases found
    rw [List.filter_cons, List.filter_cons, agree item value here]
    split
    · exact mapM_cons_some here (ih later)
    · exact ih later

/-- Where different items are read differently, copies of items are copies of what is read. -/
theorem mapM_eraseDups [BEq α] [LawfulBEq α] [BEq β] [LawfulBEq β] (items : List α) (values : List β)
    (found : items.mapM read = some values)
    (separate : ∀ item other value, read item = some value → read other = some value → item = other) :
    items.eraseDups.mapM read = some values.eraseDups := by
  match items with
  | [] =>
    cases found
    rfl
  | item :: rest =>
    obtain ⟨value, others, here, later, rfl⟩ := mapM_cons_cases found
    have kept : (rest.filter fun other => !other == item).mapM read = some (others.filter fun other => !other == value) := by
      apply mapM_filter later
      intro other image seen
      by_cases equal : other = item
      · cases equal
        cases here.symm.trans seen
        simp
      · have apart : image ≠ value := fun same => equal (separate other item value (same ▸ seen) here)
        simp [equal, apart]
    rw [List.eraseDups_cons, List.eraseDups_cons]
    exact mapM_cons_some here (mapM_eraseDups _ _ kept separate)
termination_by items.length
decreasing_by exact Nat.lt_succ_of_le (List.length_filter_le _ _)

end Reading

namespace Catalog

variable {catalog : Catalog} {ty form other : TypeId} {shape : Shape} {bare written : Structure} {part : TypeId → TypeId}

def isValueName (catalog : Catalog) (name : String) : Bool :=
  (catalog.find? name).any catalog.isValue

def erasure? (catalog : Catalog) (ty : TypeId) : Option Structure :=
  (catalog.unfolded? ty).map (Structure.erase catalog.isValueName)

theorem isValueName_eq (sound : catalog.Sound) {name : Symbol} {text : String} (found : catalog.shape? ty = some shape)
    (named : shape.name? = some name) (spelled : catalog.strings.get? name = some text) :
    catalog.isValueName text = shape.isValue := by
  have bare : catalog.shape? ty.nonNull = some shape := found
  have located : catalog.find? text = some ty.nonNull :=
    (find?_eq_some_iff sound).mpr ⟨rfl, declaredName?_eq_some_iff.mpr ⟨shape, name, bare, named, spelled⟩⟩
  simp [isValueName, isValue, located, bare]

theorem unfoldShape_named {inner : TypeId → Option Structure} {name : Symbol} {text : String} (named : shape.name? = some name)
    (spelled : catalog.strings.get? name = some text) : catalog.unfoldShape inner shape = some (.named text) := by
  cases shape <;> cases named <;> simp [unfoldShape, spelled]

/-- What the erased shape is written out to, if its parts are written out erased. All but its nullability is told by the shape. -/
theorem Unfolding.erase (sound : catalog.Sound) (found : catalog.shape? ty = some shape)
    (unfolding : Unfolding catalog catalog.unfolded? shape bare)
    (parts : ∀ old ∈ shape.parts, ∀ written, catalog.unfolded? old = some written →
      catalog.unfolded? (part old) = some (written.erase catalog.isValueName)) :
    ∃ content, catalog.unfoldShape catalog.unfolded? (shape.erase part) = some content ∧
      (∀ inner, content ≠ .nullable inner) ∧
      bare.erase catalog.isValueName = if shape.isValue then content else .nullable content := by
  cases unfolding with
  | any => exact ⟨.any, rfl, by simp, rfl⟩
  | basic basic => exact ⟨.basic basic, rfl, by simp, rfl⟩
  | named named spelled =>
    refine ⟨_, (Shape.erase_named named).symm ▸ unfoldShape_named named spelled, by simp, ?_⟩
    rw [Structure.erase, isValueName_eq sound found named spelled]
  | array written | list written | set written =>
    have inner := parts _ (by simp [Shape.parts]) _ written
    exact ⟨_, by simp [Shape.erase, unfoldShape, inner], by simp, rfl⟩
  | dictionary keyWritten valueWritten =>
    have key := parts _ (by simp [Shape.parts]) _ keyWritten
    have value := parts _ (by simp [Shape.parts]) _ valueWritten
    exact ⟨_, by simp [Shape.erase, unfoldShape, key, value], by simp, rfl⟩
  | @union members written read =>
    have inner : (members.map part).mapM catalog.unfolded? = some (written.map (Structure.erase catalog.isValueName)) :=
      mapM_map_some read parts
    have distinct := mapM_eraseDups _ _ inner fun _ _ _ one two => unfoldWithin_injective sound one two
    refine ⟨.union (written.map (Structure.erase catalog.isValueName)).eraseDups, ?_, by simp, ?_⟩
    · simp [Shape.erase, Shape.unionOf, unfoldShape, distinct]
    · rw [Structure.erase, Structure.eraseMembers_eq]
      rfl
  | @tuple elements items read =>
    have inner : (elements.map fun element => TupleElement.positional (part element.ty)).mapM (fun element => do
        let item ← catalog.unfolded? element.ty
        let label ← element.label.mapM catalog.strings.get?
        pure (item, label)) = some (items.map fun item => (item.1.erase catalog.isValueName, none)) := by
      apply mapM_map_some read
      intro element member item seen
      obtain ⟨written, here, labelled⟩ := Option.bind_eq_some_iff.mp seen
      obtain ⟨label, -, rfl⟩ := Option.map_eq_some_iff.mp labelled
      simp [TupleElement.positional, parts element.ty (List.mem_map_of_mem member) written here]
    refine ⟨.tuple (items.map fun item => (item.1.erase catalog.isValueName, none)), ?_, by simp, ?_⟩
    · simp only [Shape.erase, unfoldShape, inner]
      rfl
    · rw [Structure.erase, Structure.eraseElements_eq]
      rfl

/-- The oblivious form of a type is written out to what a running program sees of the type. -/
theorem Erased.unfolded? (sound : catalog.Sound) (erased : Erased catalog ty form) (seen : catalog.unfolded? ty = some written) :
    catalog.unfolded? form = some (written.erase catalog.isValueName) := by
  induction erased generalizing written with
  | @intro ty form shape part found made parts nullable ih =>
    obtain ⟨shape', bare, found', unfolding, rfl⟩ := unfolded?_cases sound seen
    rw [found] at found'
    cases found'
    obtain ⟨content, answer, plain, erasure⟩ := unfolding.erase sound found fun old member _ inner => ih old member inner
    rw [unfolded?_eq sound made, answer, nullable, Option.map_some]
    -- A value is as nullable as the type was; a reference is nullable in any case.
    cases value : shape.isValue <;> cases ty.nullable <;> simp [Structure.erase, Structure.orNull, erasure, value]

end Catalog

namespace System

open Catalog

variable {system : System} {declared : Catalog} {ty other : TypeId}

namespace Completes

variable (completes : system.Completes declared)

include completes

theorem unfolded?_oblivious (inside : system.contains ty = true) :
    ∃ erasure, system.catalog.erasure? ty = some erasure ∧ system.catalog.unfolded? (system.oblivious ty) = some erasure := by
  have sound := completes.forming.sound
  obtain ⟨written, seen⟩ := Option.isSome_iff_exists.mp (sound.canonical.unfolds ty inside)
  refine ⟨written.erase system.catalog.isValueName, ?_, (completes.erased inside).unfolded? sound seen⟩
  rw [erasure?, seen, Option.map_some]

theorem oblivious_stable (inside : system.contains ty = true) : system.oblivious (system.oblivious ty) = system.oblivious ty := by
  have erased := completes.erased inside
  exact (completes.erased erased.inside).functional completes.forming.sound erased.stable

theorem oblivious_eq_iff (inside : system.contains ty = true) (otherInside : system.contains other = true) :
    system.oblivious ty = system.oblivious other ↔ system.catalog.erasure? ty = system.catalog.erasure? other := by
  obtain ⟨erasure, seen, written⟩ := completes.unfolded?_oblivious inside
  obtain ⟨erasure', seen', written'⟩ := completes.unfolded?_oblivious otherInside
  rw [seen, seen', Option.some.injEq]
  constructor
  · intro same
    rw [same, written', Option.some.injEq] at written
    exact written.symm
  · rintro rfl
    exact unfoldWithin_injective completes.forming.sound written written'

end Completes
end System

namespace Builder

variable {builder : Builder}

/-- In a locked system the oblivious form of every type is the type as a running program sees it: it is written out so, it
is its own oblivious form, and it is shared exactly by the types that look alike to a running program. -/
theorem oblivious_erases (reached : builder.Reached) :
    ∃ system, builder.lock = some (system, builder.diagnostics) ∧ ∀ ty, system.contains ty = true →
      (∃ written, system.catalog.unfolded? ty = some written ∧
        system.catalog.unfolded? (system.oblivious ty) = some (written.erase system.catalog.isValueName)) ∧
      system.oblivious (system.oblivious ty) = system.oblivious ty ∧
      ∀ other, system.contains other = true →
        (system.oblivious ty = system.oblivious other ↔ system.catalog.erasure? ty = system.catalog.erasure? other) := by
  obtain ⟨system, locked, completes⟩ := Reached.locked reached
  refine ⟨system, locked, ?_⟩
  intro ty inside
  refine ⟨?_, completes.oblivious_stable inside, fun other otherInside => completes.oblivious_eq_iff inside otherInside⟩
  obtain ⟨erasure, seen, written⟩ := completes.unfolded?_oblivious inside
  obtain ⟨whole, unfolded, rfl⟩ := Option.map_eq_some_iff.mp seen
  exact ⟨whole, unfolded, written⟩

/-- Tuples that differ in their labels and in the nullability of a string, and the union of them. -/
def sketches : Builder :=
  Builder.new.replay [.namedTuple [(BasicType.string.id, some "Unit")], .tuple [BasicType.string.id.orNull],
    .union [.ofPair 19, .ofPair 20]]

theorem sketches_reached : sketches.Reached :=
  ReachedBy.new.replay (by decide +kernel)

theorem sketches_erasures {system : System} (locked : sketches.lock = some (system, sketches.diagnostics)) :
    22 ≤ system.size ∧ system.catalog.erasure? (.ofPair 19) ≠ system.catalog.erasure? (TypeId.ofPair 19).orNull ∧
    system.catalog.erasure? (.ofPair 19) = system.catalog.erasure? (.ofPair 20) ∧
    system.catalog.erasure? (.ofPair 21) = some (.nullable (.union [.tuple [(.nullable (.basic .string), none)]])) := by
  have answered : sketches.lock.any (fun result => 22 ≤ result.1.size ∧
      result.1.catalog.erasure? (.ofPair 19) ≠ result.1.catalog.erasure? (TypeId.ofPair 19).orNull ∧
      result.1.catalog.erasure? (.ofPair 19) = result.1.catalog.erasure? (.ofPair 20) ∧
      result.1.catalog.erasure? (.ofPair 21) =
        some (.nullable (.union [.tuple [(.nullable (.basic .string), none)]]))) = true := by decide +kernel
  rw [locked] at answered
  exact of_decide_eq_true answered

/-- The tuples look alike, so one of them is left in the union; a tuple and the nullable tuple do not. -/
theorem oblivious_erases_sketches : sketches.Reached ∧ ∃ system, sketches.lock = some (system, sketches.diagnostics) ∧
    system.oblivious (.ofPair 19) = system.oblivious (.ofPair 20) ∧
    system.catalog.unfolded? (system.oblivious (.ofPair 21)) =
      some (.nullable (.union [.tuple [(.nullable (.basic .string), none)]])) ∧
    system.oblivious (.ofPair 19) ≠ system.oblivious (TypeId.ofPair 19).orNull := by
  obtain ⟨system, locked, erases⟩ := oblivious_erases sketches_reached
  obtain ⟨size, apart, alike, whole⟩ := sketches_erasures locked
  have inside (pair : Nat) (nullable : Bool) (bound : pair < 22) : system.contains ⟨pair, nullable⟩ = true :=
    Catalog.contains_iff.mpr (Nat.lt_of_lt_of_le bound size)
  refine ⟨sketches_reached, system, locked, ?_, ?_, ?_⟩
  · exact ((erases _ (inside 19 false (by decide))).2.2 _ (inside 20 false (by decide))).mpr alike
  · obtain ⟨⟨written, seen, form⟩, -⟩ := erases _ (inside 21 false (by decide))
    rw [Catalog.erasure?, TypeId.ofPair, seen, Option.map_some] at whole
    rw [TypeId.ofPair, form, whole]
  · exact mt ((erases _ (inside 19 false (by decide))).2.2 _ (inside 19 true (by decide))).mp apart

end Builder
end Interchange
