import Interchange.Proofs.LockedForms

/-! Required members. A value of a record, a tuple or a family takes a value of each member that can neither be null
nor has a default of its own. The search for policies answers for a type before the types on its way there have been
settled; what it has recorded by then is right but for the members that lead back to one of those. -/

namespace Interchange

def Kind.hasMembers : Kind → Bool
  | record | primary | tuple => true
  | _ => false

namespace Shape

/-- The types of the members that have no default of their own. -/
def required : Shape → List TypeId
  | record _ _ fields | primary _ fields _ _ => (fields.filter fun field => !field.explicitDefault).map Field.ty
  | tuple elements => elements.map TupleElement.ty
  | _ => []

theorem declaration_kind (shape : Shape) : shape.declaration.kind = shape.kind := by
  cases shape <;> rfl

theorem declaration_required (shape : Shape) : shape.declaration.required = shape.required := by
  cases shape <;> simp [declaration, required, List.filter_map, Function.comp_def, Field.declaration]

theorem required_mentioned {shape : Shape} {ty : TypeId} (member : ty ∈ shape.required) : ty ∈ shape.mentions := by
  have listed {fields : List Field} (member : ty ∈ (fields.filter fun field => !field.explicitDefault).map Field.ty) :
      ty ∈ fields.map Field.ty :=
    List.map_subset _ (List.filter_subset_self fields) member
  cases shape with
  | record name value fields => exact listed member
  | primary name fields secondaries abstractions =>
    exact List.mem_append_left _ (List.mem_append_left _ (listed member))
  | tuple elements => exact member
  | _ => cases member

theorem required_memberless {shape : Shape} (memberless : shape.kind.hasMembers = false) : shape.required = [] := by
  cases shape <;> first | rfl | cases memberless

end Shape

namespace Catalog

def Requires (catalog : Catalog) (owner part : TypeId) : Prop :=
  part.nullable = false ∧ ∃ shape, catalog.shape? owner = some shape ∧ part ∈ shape.required

abbrev Involves (catalog : Catalog) : TypeId → TypeId → Prop :=
  Relation.ReflTransGen catalog.Requires

/-- A default of a record or a tuple takes one of the part. -/
def Needs (catalog : Catalog) (owner part : TypeId) : Prop :=
  catalog.Requires owner part ∧ (catalog.kind? owner = some .record ∨ catalog.kind? owner = some .tuple)

/-- Defaults are made from the bottom up: no chain of needs goes on for ever. -/
abbrev Grounded (catalog : Catalog) (ty : TypeId) : Prop :=
  Acc (fun part owner => catalog.Needs owner part) ty

def PassesFamily (catalog : Catalog) (owner part : TypeId) : Prop :=
  ∃ family, catalog.kind? family = some .primary ∧ catalog.Involves owner family ∧ catalog.Involves family part

variable {catalog before after base current middle final : Catalog} {ty owner part lower : TypeId} {shape : Shape}
  {visiting wider : List Nat} {value policy : DefaultPolicy}

theorem PassesFamily.head (requires : catalog.Requires ty owner) (passes : catalog.PassesFamily owner part) :
    catalog.PassesFamily ty part := by
  obtain ⟨family, kind, down, further⟩ := passes
  exact ⟨family, kind, .head requires down, further⟩

theorem PassesFamily.start (kind : catalog.kind? owner = some .primary) (involves : catalog.Involves owner part) :
    catalog.PassesFamily owner part :=
  ⟨owner, kind, .refl, involves⟩

theorem Amends.declaration (amends : before.Amends after) (ty : TypeId) :
    (after.shape? ty).map Shape.declaration = (before.shape? ty).map Shape.declaration := by
  cases present : before.entry? ty with
  | some entry =>
    obtain ⟨later, kept, same⟩ := amends.entries ty entry present
    simp [shape?, present, kept, same.declaration]
  | none =>
    have outside : after.size ≤ ty.pair := amends.size ▸ Array.getElem?_eq_none_iff.mp present
    have absent : after.entry? ty = none := Array.getElem?_eq_none outside
    simp [shape?, present, absent]

theorem Amends.kind? (amends : before.Amends after) (ty : TypeId) : after.kind? ty = before.kind? ty := by
  have kinds (catalog : Catalog) : catalog.kind? ty = ((catalog.shape? ty).map Shape.declaration).map Shape.kind := by
    rw [Catalog.kind?, Option.map_map]
    exact congrArg (fun read => Option.map read _) (funext fun shape => shape.declaration_kind.symm)
  rw [kinds, kinds, amends.declaration]

theorem Amends.requires_iff (amends : before.Amends after) : after.Requires owner part ↔ before.Requires owner part := by
  have declared (catalog : Catalog) : catalog.Requires owner part ↔ part.nullable = false ∧
      ∃ shape, (catalog.shape? owner).map Shape.declaration = some shape ∧ part ∈ shape.required := by
    simp only [Requires, Option.map_eq_some_iff, exists_exists_and_eq_and, Shape.declaration_required]
  rw [declared, declared, amends.declaration]

theorem Amends.grounded (amends : before.Amends after) (grounded : before.Grounded ty) : after.Grounded ty := by
  refine Subrelation.accessible ?_ grounded
  rintro part owner ⟨requires, kind⟩
  rw [amends.kind?] at kind
  exact ⟨amends.requires_iff.mp requires, kind⟩

theorem Amends.passesFamily (amends : before.Amends after) (passes : before.PassesFamily owner part) :
    after.PassesFamily owner part := by
  obtain ⟨family, kind, down, further⟩ := passes
  have requires {upper lower : TypeId} (requires : before.Requires upper lower) : after.Requires upper lower :=
    amends.requires_iff.mpr requires
  refine ⟨family, (amends.kind? family).trans kind, ?_, ?_⟩
  · exact Relation.ReflTransGen.mono (fun _ _ => requires) _ _ down
  · exact Relation.ReflTransGen.mono (fun _ _ => requires) _ _ further

theorem policy?_of_pair {first second : TypeId} (same : first.pair = second.pair) :
    catalog.policy? first = catalog.policy? second := by
  rw [policy?, policy?, lookup_of_pair same]

/-- What is known of a type's policy while the types in `visiting` are not settled. -/
inductive Known (visiting : List Nat) (current : Catalog) : TypeId → DefaultPolicy → Prop where
  | absent {part : TypeId} (nullable : part.nullable = true) : Known visiting current part .allowed
  | settled {part : TypeId} {value : DefaultPolicy} (plain : part.nullable = false)
      (recorded : current.policy? part = some value) : Known visiting current part value
  | visited {part : TypeId} (plain : part.nullable = false) (met : part.pair ∈ visiting) :
      Known visiting current part .requiresInit

/-- What a member is taken for. A member that leads to its owner by way of a primary interface may have been asked
for while the interface was visited. -/
inductive Answers (base : Catalog) (visiting : List Nat) (current : Catalog) (owner part : TypeId) : DefaultPolicy → Prop where
  | known {value : DefaultPolicy} (known : Known visiting current part value) : Answers base visiting current owner part value
  | cyclic (plain : part.nullable = false) (passes : base.PassesFamily part owner) :
      Answers base visiting current owner part .requiresInit

def FieldSolved (answers : TypeId → DefaultPolicy → Prop) (field : Field) : Prop :=
  if field.explicitDefault then field.policy = .allowed else answers field.ty field.policy

/-- The policy of a shape follows from the answers for its members. -/
inductive Solved (answers : TypeId → DefaultPolicy → Prop) : Shape → DefaultPolicy → Prop where
  | record {name : Symbol} {value : Bool} {fields : List Field} (solved : ∀ field ∈ fields, FieldSolved answers field) :
      Solved answers (.record name value fields)
        (if ∀ field ∈ fields, field.policy = .allowed then .allowed else .requiresInit)
  | primary {name : Symbol} {fields : List Field} {secondaries abstractions : List TypeId}
      (solved : ∀ field ∈ fields, FieldSolved answers field) :
      Solved answers (.primary name fields secondaries abstractions) .allowed
  | free {elements : List TupleElement} (all : ∀ element ∈ elements, answers element.ty .allowed) :
      Solved answers (.tuple elements) .allowed
  | bound {elements : List TupleElement} {element : TupleElement} {value : DefaultPolicy} (member : element ∈ elements)
      (strict : value ≠ .allowed) (answer : answers element.ty value) : Solved answers (.tuple elements) .requiresInit
  | memberless {shape : Shape} (memberless : shape.kind.hasMembers = false) :
      Solved answers shape (if shape.kind.isPolymorphic then .disallowed else .allowed)

theorem FieldSolved.imp {answers others : TypeId → DefaultPolicy → Prop} {field : Field} (solved : FieldSolved answers field)
    (each : field.explicitDefault = false → ∀ value, answers field.ty value → others field.ty value) :
    FieldSolved others field := by
  unfold FieldSolved at solved ⊢
  split at solved
  next explicit => rwa [if_pos explicit]
  next implicit =>
    rw [if_neg implicit]
    exact each (by simpa using implicit) _ solved

/-- Only answers for required members count. -/
theorem Solved.imp {answers others : TypeId → DefaultPolicy → Prop} (solved : Solved answers shape policy)
    (each : ∀ part ∈ shape.required, ∀ value, answers part value → others part value) : Solved others shape policy := by
  have listed {fields : List Field} {field : Field} (member : field ∈ fields) (implicit : field.explicitDefault = false) :
      field.ty ∈ (fields.filter fun field => !field.explicitDefault).map Field.ty :=
    List.mem_map_of_mem (List.mem_filter.mpr ⟨member, by simp [implicit]⟩)
  cases solved with
  | record solved =>
    refine .record fun field member => (solved field member).imp fun implicit => ?_
    exact each field.ty (listed member implicit)
  | primary solved =>
    refine .primary fun field member => (solved field member).imp fun implicit => ?_
    exact each field.ty (listed member implicit)
  | free all =>
    refine .free fun element member => ?_
    exact each element.ty (List.mem_map_of_mem member) .allowed (all element member)
  | bound member strict answer => exact .bound member strict (each _ (List.mem_map_of_mem member) _ answer)
  | memberless memberless => exact .memberless memberless

section Inversion

variable {answers : TypeId → DefaultPolicy → Prop}

theorem Solved.fields (solved : Solved answers shape policy) : ∀ field ∈ shape.fields, FieldSolved answers field := by
  cases solved with
  | record solved | primary solved => exact solved
  | free | bound => exact fun _ member => nomatch member
  | memberless memberless =>
    cases shape with
    | record | primary => cases memberless
    | _ => exact fun _ member => nomatch member

theorem Solved.record_policy (solved : Solved answers shape policy) (record : shape.kind = .record) :
    policy = if ∀ field ∈ shape.fields, field.policy = .allowed then .allowed else .requiresInit := by
  cases solved with
  | record => rfl
  | memberless memberless =>
    rw [record] at memberless
    cases memberless
  | _ => cases record

theorem Solved.primary_policy (solved : Solved answers shape policy) (primary : shape.kind = .primary) : policy = .allowed := by
  cases solved with
  | primary => rfl
  | memberless memberless =>
    rw [primary] at memberless
    cases memberless
  | _ => cases primary

theorem Solved.memberless_policy (solved : Solved answers shape policy) (memberless : shape.kind.hasMembers = false) :
    policy = if shape.kind.isPolymorphic then .disallowed else .allowed := by
  cases solved with
  | memberless => rfl
  | record | primary | free | bound => cases memberless

theorem Solved.tuple_cases {elements : List TupleElement} (solved : Solved answers (.tuple elements) policy) :
    (policy = .allowed ∧ ∀ element ∈ elements, answers element.ty .allowed) ∨
      policy = .requiresInit ∧ ∃ element ∈ elements, ∃ value, value ≠ .allowed ∧ answers element.ty value := by
  cases solved with
  | free all => exact .inl ⟨rfl, all⟩
  | bound member strict answer => exact .inr ⟨rfl, _, member, _, strict, answer⟩
  | memberless memberless => cases memberless

/-- A record or a tuple allows a default only if each member that has none of its own does. -/
theorem Solved.member_allowed {part : TypeId} (solved : Solved answers shape policy) (allowed : policy = .allowed)
    (kind : shape.kind = .record ∨ shape.kind = .tuple) (member : part ∈ shape.required) : answers part .allowed := by
  cases solved with
  | @record _ _ fields solved =>
    obtain ⟨field, listed, rfl⟩ := List.mem_map.mp member
    obtain ⟨present, implicit⟩ := List.mem_filter.mp listed
    have free : ∀ field ∈ fields, field.policy = .allowed := by
      by_contra bound
      rw [if_neg bound] at allowed
      cases allowed
    have answer := solved field present
    rwa [FieldSolved, if_neg (by simpa using implicit), free field present] at answer
  | free all =>
    obtain ⟨element, present, rfl⟩ := List.mem_map.mp member
    exact all element present
  | primary => rcases kind with kind | kind <;> cases kind
  | bound => cases allowed
  | memberless memberless =>
    rw [Shape.required_memberless memberless] at member
    cases member

theorem Solved.not_polymorphic (solved : Solved answers shape policy) (allowed : policy = .allowed) :
    shape.kind.isPolymorphic = false := by
  cases solved with
  | memberless =>
    by_contra polymorphic
    rw [if_pos (by simpa using polymorphic)] at allowed
    cases allowed
  | _ => rfl

/-- The policy of a type with members is never that of a type without instances. -/
theorem Solved.cases_of_members (solved : Solved answers shape policy) (members : shape.kind.hasMembers = true) :
    policy = .allowed ∨ policy = .requiresInit := by
  cases solved with
  | record =>
    split
    · exact .inl rfl
    · exact .inr rfl
  | primary | free => exact .inl rfl
  | bound => exact .inr rfl
  | memberless memberless =>
    rw [members] at memberless
    cases memberless

end Inversion

/-- What is known stays so when more types are settled or more are visited. -/
theorem Known.later (known : Known visiting current part value)
    (grows : ∀ value, current.policy? part = some value → final.policy? part = some value)
    (nested : ∀ pair ∈ visiting, pair ∈ wider) : Known wider final part value := by
  cases known with
  | absent nullable => exact .absent nullable
  | settled plain recorded => exact .settled plain (grows _ recorded)
  | visited plain met => exact .visited plain (nested _ met)

/-- A type that is not settled is not taken to allow a default. -/
theorem Known.strict (known : Known visiting current part value) (plain : part.nullable = false)
    (unsettled : current.policy? part = none) : value ≠ .allowed := by
  cases known with
  | absent nullable =>
    rw [plain] at nullable
    cases nullable
  | settled _ recorded =>
    rw [unsettled] at recorded
    cases recorded
  | visited => simp

theorem Answers.later (answer : Answers base visiting current owner part value)
    (grows : ∀ value, current.policy? part = some value → final.policy? part = some value)
    (nested : ∀ pair ∈ visiting, pair ∈ wider) : Answers base wider final owner part value := by
  cases answer with
  | known known => exact .known (known.later grows nested)
  | cyclic plain passes => exact .cyclic plain passes

structure Pending (base : Catalog) (visiting : List Nat) (current : Catalog) : Prop where
  amends : base.Amends current
  unsettled : ∀ pair ∈ visiting, current.policy? (.ofPair pair) = none
  grounded : ∀ ty, ty.nullable = false → current.policy? ty = some .allowed → base.Grounded ty
  solved : ∀ ty entry policy, ty.nullable = false → current.entry? ty = some entry → entry.policy = some policy →
    Solved (Answers base visiting current ty) entry.shape policy

theorem Pending.unknown (pending : Pending base visiting current) (met : ty.pair ∈ visiting) : current.policy? ty = none :=
  (policy?_of_pair rfl).trans (pending.unsettled ty.pair met)

theorem Pending.visit (pending : Pending base visiting current) (unsettled : current.policy? ty = none) :
    Pending base (ty.pair :: visiting) current := by
  refine ⟨pending.amends, ?_, pending.grounded, ?_⟩
  · intro pair member
    rcases List.mem_cons.mp member with rfl | member
    · exact (policy?_of_pair rfl).trans unsettled
    · exact pending.unsettled pair member
  · intro other entry policy plain present settled
    refine (pending.solved other entry policy plain present settled).imp ?_
    intro part _ value answer
    exact answer.later (fun _ known => known) fun pair met => List.mem_cons_of_mem _ met

/-- Nothing settled is changed, and nothing is changed without being settled. -/
def Keeps (before after : Catalog) : Prop :=
  ∀ ty, before.policy? ty ≠ none ∨ after.policy? ty = none → after.entry? ty = before.entry? ty

theorem Keeps.trans (first : Keeps before middle) (second : Keeps middle after) : Keeps before after := by
  intro ty either
  have policies {left right : Catalog} (same : left.entry? ty = right.entry? ty) : left.policy? ty = right.policy? ty := by
    rw [policy?, policy?, same]
  rcases either with known | unknown
  · have one := first ty (.inl known)
    exact (second ty (.inl (policies one ▸ known))).trans one
  · have two := second ty (.inr unknown)
    exact two.trans (first ty (.inr (policies two ▸ unknown)))

theorem Keeps.policy? (keeps : Keeps before after) (known : before.policy? ty = some value) : after.policy? ty = some value := by
  rw [Catalog.policy?, keeps ty (.inl (by simp [known]))]
  exact known

/-- A type that is settled while another one is asked for: it is a member of that one, directly or further down. If it
has a member that is being visited, then the answer does not allow a default, or a primary interface is in between. -/
structure Reaches (base : Catalog) (visiting : List Nat) (ty : TypeId) (value : DefaultPolicy) (lower : TypeId) : Prop where
  plain : ty.nullable = false
  involves : base.Involves ty lower
  bound : ∀ part, base.Requires lower part → part.pair ∈ visiting → value ≠ .allowed ∨ base.PassesFamily ty lower

/-- What has happened after some types have been asked for, one after the other. -/
structure Asked (base : Catalog) (visiting : List Nat) (current final : Catalog) (asked : List (TypeId × DefaultPolicy)) :
    Prop where
  pending : Pending base visiting final
  keeps : Keeps current final
  known : ∀ part value, (part, value) ∈ asked → Known visiting final part value
  reaches : ∀ lower, lower.nullable = false → current.policy? lower = none → final.policy? lower ≠ none →
    ∃ part value, (part, value) ∈ asked ∧ Reaches base visiting part value lower

namespace Asked

variable {asked others : List (TypeId × DefaultPolicy)}

theorem nothing (pending : Pending base visiting current) : Asked base visiting current current [] :=
  ⟨pending, fun _ _ => rfl, by simp, fun _ _ absent settled => absurd absent settled⟩

theorem append (first : Asked base visiting current middle asked) (second : Asked base visiting middle final others) :
    Asked base visiting current final (asked ++ others) := by
  refine ⟨second.pending, first.keeps.trans second.keeps, ?_, ?_⟩
  · intro part value member
    rcases List.mem_append.mp member with member | member
    · exact (first.known part value member).later (fun _ recorded => second.keeps.policy? recorded) fun _ met => met
    · exact second.known part value member
  · intro lower plain absent settled
    by_cases between : middle.policy? lower = none
    · obtain ⟨part, value, member, reaches⟩ := second.reaches lower plain between settled
      exact ⟨part, value, List.mem_append_right _ member, reaches⟩
    · obtain ⟨part, value, member, reaches⟩ := first.reaches lower plain absent between
      exact ⟨part, value, List.mem_append_left _ member, reaches⟩

/-- A type whose policy is known already. -/
theorem ofKnown (pending : Pending base visiting current) (known : Known visiting current ty value) :
    Asked base visiting current current [(ty, value)] := by
  refine ⟨pending, fun _ _ => rfl, ?_, fun _ _ absent settled => absurd absent settled⟩
  intro part other member
  cases List.mem_singleton.mp member
  exact known

end Asked

structure Visit (base : Catalog) (visiting : List Nat) (current middle final : Catalog) (ty : TypeId) (value : DefaultPolicy)
    (asked : List (TypeId × DefaultPolicy)) : Prop where
  pending : Pending base visiting current
  plain : ty.nullable = false
  unmet : ty.pair ∉ visiting
  unsettled : current.policy? ty = none
  members : Asked base (ty.pair :: visiting) current middle asked
  required : ∀ part inner, (part, inner) ∈ asked → part.nullable = false → base.Requires ty part
  /-- Members are left out only if the answer does not depend on them any more. -/
  complete : ∀ part, base.Requires ty part → (∃ inner, (part, inner) ∈ asked) ∨ value = .requiresInit
  bound : ∀ part inner, (part, inner) ∈ asked → inner ≠ .allowed → value = .requiresInit ∨ base.kind? ty = some .primary
  amends : base.Amends final
  recorded : ∃ entry, final.entry? ty = some entry ∧ entry.policy = some value ∧
    Solved (Answers base (ty.pair :: visiting) middle ty) entry.shape value
  others : ∀ other, other.pair ≠ ty.pair → final.entry? other = middle.entry? other

namespace Visit

variable {asked : List (TypeId × DefaultPolicy)} {inner : DefaultPolicy}
  (visit : Visit base visiting current middle final ty value asked)

include visit

theorem policy? : final.policy? ty = some value := by
  obtain ⟨entry, present, policy, -⟩ := visit.recorded
  rw [Catalog.policy?, present, Option.bind_some, policy]

theorem other_policy? (different : part.pair ≠ ty.pair) : final.policy? part = middle.policy? part := by
  rw [Catalog.policy?, visit.others part different, Catalog.policy?]

theorem grows (recorded : middle.policy? part = some inner) : final.policy? part = some inner := by
  by_cases same : part.pair = ty.pair
  · rw [visit.members.pending.unknown (by simp [same])] at recorded
    cases recorded
  · rwa [visit.other_policy? same]

/-- A member of the type itself that is being visited. -/
theorem returns (requires : base.Requires ty part) (met : part.pair ∈ ty.pair :: visiting) :
    value = .requiresInit ∨ base.kind? ty = some .primary := by
  rcases visit.complete part requires with ⟨inner, member⟩ | certain
  · apply visit.bound part inner member
    exact (visit.members.known part inner member).strict requires.1 (visit.members.pending.unknown met)
  · exact .inl certain

/-- A member further down that is being visited. -/
theorem reaches_returns (member : (owner, inner) ∈ asked) (reaches : Reaches base (ty.pair :: visiting) owner inner lower)
    (requires : base.Requires lower part) (met : part.pair ∈ ty.pair :: visiting) :
    value = .requiresInit ∨ base.PassesFamily ty lower := by
  have down := visit.required owner inner member reaches.plain
  rcases reaches.bound part requires met with strict | passes
  · rcases visit.bound owner inner member strict with certain | family
    · exact .inl certain
    · exact .inr (.start family (.head down reaches.involves))
  · exact .inr (passes.head down)

/-- After the visit, members that lead back to the type itself are right, or on a cycle. -/
theorem answer (returns : part = ty → value = .requiresInit ∨ base.PassesFamily ty owner)
    (answer : Answers base (ty.pair :: visiting) middle owner part inner) : Answers base visiting final owner part inner := by
  cases answer with
  | cyclic plain passes => exact .cyclic plain passes
  | known known =>
    cases known with
    | absent nullable => exact .known (.absent nullable)
    | settled plain recorded => exact .known (.settled plain (visit.grows recorded))
    | visited plain met =>
      by_cases same : part.pair = ty.pair
      · obtain rfl : part = ty := TypeId.ext_iff_pair.mpr ⟨same, plain.trans visit.plain.symm⟩
        rcases returns rfl with certain | passes
        · exact .known (.settled plain (certain ▸ visit.policy?))
        · exact .cyclic plain passes
      · exact .known (.visited plain ((List.mem_cons.mp met).resolve_left same))

/-- The members that a default takes have been settled before the type itself. -/
theorem grounded (allowed : value = .allowed) : base.Grounded ty := by
  obtain ⟨entry, present, -, solved⟩ := visit.recorded
  have found : final.shape? ty = some entry.shape := shape?_eq_some_iff.mpr ⟨entry, present, rfl⟩
  refine .intro ty ?_
  rintro part ⟨requires, kind⟩
  rw [← visit.amends.kind? ty, kind?_of_shape found, Option.some.injEq, Option.some.injEq] at kind
  obtain ⟨plain, shape, again, member⟩ := visit.amends.requires_iff.mpr requires
  cases found.symm.trans again
  cases solved.member_allowed allowed kind member with
  | known known =>
    cases known with
    | absent nullable =>
      rw [plain] at nullable
      cases nullable
    | settled _ recorded => exact visit.members.pending.grounded part plain recorded

theorem pending_after : Pending base visiting final := by
  refine ⟨visit.amends, ?_, ?_, ?_⟩
  · intro pair met
    have different : pair ≠ ty.pair := fun same => visit.unmet (same ▸ met)
    rw [visit.other_policy? different]
    exact visit.members.pending.unsettled pair (List.mem_cons_of_mem _ met)
  · intro other plain allowed
    by_cases same : other.pair = ty.pair
    · obtain rfl : other = ty := TypeId.ext_iff_pair.mpr ⟨same, plain.trans visit.plain.symm⟩
      exact visit.grounded (Option.some.inj (visit.policy?.symm.trans allowed))
    · rw [visit.other_policy? same] at allowed
      exact visit.members.pending.grounded other plain allowed
  · intro other entry policy plain present settled
    have requires (member : ty ∈ entry.shape.required) : base.Requires other ty :=
      visit.amends.requires_iff.mp ⟨visit.plain, entry.shape, shape?_eq_some_iff.mpr ⟨entry, present, rfl⟩, member⟩
    by_cases same : other.pair = ty.pair
    · obtain rfl : other = ty := TypeId.ext_iff_pair.mpr ⟨same, plain.trans visit.plain.symm⟩
      obtain ⟨own, again, recorded, solved⟩ := visit.recorded
      cases again.symm.trans present
      cases recorded.symm.trans settled
      refine solved.imp fun part member inner answer => visit.answer ?_ answer
      rintro rfl
      rcases visit.returns (requires member) List.mem_cons_self with certain | family
      · exact .inl certain
      · exact .inr (.start family .refl)
    · have between : middle.entry? other = some entry := (visit.others other same).symm.trans present
      by_cases before : current.policy? other = none
      · refine (visit.members.pending.solved other entry policy plain between settled).imp ?_
        intro part member inner answer
        refine visit.answer ?_ answer
        rintro rfl
        have after : middle.policy? other ≠ none := by simp [Catalog.policy?, between, settled]
        obtain ⟨above, value, listed, reaches⟩ := visit.members.reaches other plain before after
        exact visit.reaches_returns listed reaches (requires member) List.mem_cons_self
      · -- Settled before the visit, so it has been answered for without this type being open.
        have kept := visit.members.keeps other (.inl before)
        refine (visit.pending.solved other entry policy plain (kept.symm.trans between) settled).imp ?_
        intro part member inner answer
        exact answer.later (fun _ recorded => visit.grows (visit.members.keeps.policy? recorded)) fun _ met => met

theorem keeps_after : Keeps current final := by
  intro other either
  by_cases same : other.pair = ty.pair
  · rw [policy?_of_pair same, policy?_of_pair same, visit.policy?, visit.unsettled] at either
    simp at either
  · rw [visit.other_policy? same] at either
    exact (visit.others other same).trans (visit.members.keeps other either)

theorem reaches_after (plain : lower.nullable = false) (absent : current.policy? lower = none)
    (settled : final.policy? lower ≠ none) : Reaches base visiting ty value lower := by
  have strict {lower : TypeId} (either : value = .requiresInit ∨ base.PassesFamily ty lower) :
      value ≠ .allowed ∨ base.PassesFamily ty lower := by
    rcases either with rfl | passes
    · exact .inl (by simp)
    · exact .inr passes
  by_cases same : lower.pair = ty.pair
  · obtain rfl : lower = ty := TypeId.ext_iff_pair.mpr ⟨same, plain.trans visit.plain.symm⟩
    refine ⟨plain, .refl, ?_⟩
    intro part requires met
    apply strict
    rcases visit.returns requires (List.mem_cons_of_mem _ met) with certain | family
    · exact .inl certain
    · exact .inr (.start family .refl)
  · rw [visit.other_policy? same] at settled
    obtain ⟨part, inner, member, reaches⟩ := visit.members.reaches lower plain absent settled
    refine ⟨visit.plain, .head (visit.required part inner member reaches.plain) reaches.involves, ?_⟩
    intro below requires met
    exact strict (visit.reaches_returns member reaches requires (List.mem_cons_of_mem _ met))

/-- What a visit leaves behind. -/
theorem asked_after : Asked base visiting current final [(ty, value)] := by
  refine ⟨visit.pending_after, visit.keeps_after, ?_, ?_⟩
  · intro part inner member
    cases List.mem_singleton.mp member
    exact .settled visit.plain visit.policy?
  · intro lower plain absent settled
    exact ⟨ty, value, List.mem_singleton_self _, visit.reaches_after plain absent settled⟩

end Visit
end Catalog
end Interchange
